import Mathlib.Data.String.Basic

/-!
# Tables

A table is a finite map from text keys, iterated in key order. It is the standard library's
extensional tree map, so two tables with the same entries are equal; the lemmas below are about the
list of values a loop over the table runs through.
-/

namespace EasyNetDaemon.Library

universe u

variable {α : Type u}

/-- A finite map with text keys. -/
abbrev Table (α : Type u) := Std.ExtTreeMap String α

namespace Table

/-- The values of the table, in key order. -/
def values (t : Table α) : List α := t.toList.map Prod.snd

theorem mem_values_iff {t : Table α} {v : α} : v ∈ t.values ↔ ∃ k : String, t[k]? = some v := by
  simp only [values, List.mem_map, Prod.exists,
    Std.ExtTreeMap.mem_toList_iff_getElem?_eq_some, exists_eq_right]

theorem getElem?_insert_eq (t : Table α) (k k' : String) (v : α) :
    (t.insert k v)[k']? = if k = k' then some v else t[k']? := by
  rw [Std.ExtTreeMap.getElem?_insert]
  simp only [Std.LawfulEqCmp.compare_eq_iff_eq]

theorem getElem?_insert_ne (t : Table α) {k k' : String} (v : α) (h : k ≠ k') :
    (t.insert k v)[k']? = t[k']? := by
  rw [getElem?_insert_eq, if_neg h]

theorem getElem?_empty_eq (k : String) : (∅ : Table α)[k]? = none :=
  Std.ExtTreeMap.getElem?_empty

theorem values_empty : (∅ : Table α).values = [] := by
  rw [List.eq_nil_iff_forall_not_mem]
  intro v hv
  obtain ⟨k, hk⟩ := mem_values_iff.1 hv
  rw [getElem?_empty_eq] at hk
  cases hk

theorem contains_eq_isSome (t : Table α) (k : String) : t.contains k = t[k]?.isSome :=
  Std.ExtTreeMap.contains_eq_isSome_getElem?

end Table

end EasyNetDaemon.Library
