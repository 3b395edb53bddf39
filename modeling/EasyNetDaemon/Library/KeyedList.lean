import Mathlib.Data.String.Basic

/-!
# Lists of entries in key order

A small map with text keys is the list of its entries in the order of their keys, as an ordered map
of the standard library iterates over it. `insertByKey` puts an entry at its place and replaces the
one with the same key.
-/

namespace EasyNetDaemon.Library

universe u

variable {α : Type u}

/-- Inserts an entry before the first larger key; an entry with the same key is replaced. -/
def insertByKey (key : String) (value : α) : List (String × α) → List (String × α)
  | [] => [(key, value)]
  | (k, v) :: rest =>
    if key = k then (key, value) :: rest
    else if key < k then (key, value) :: (k, v) :: rest
    else (k, v) :: insertByKey key value rest

variable {value : α} {l : List (String × α)}

theorem mem_insertByKey {key : String} {p : String × α} (h : p ∈ insertByKey key value l) :
    p = (key, value) ∨ p ∈ l := by
  induction l with
  | nil => exact Or.inl (List.mem_singleton.1 h)
  | cons q rest ih =>
    obtain ⟨k, v⟩ := q
    unfold insertByKey at h
    split at h
    · rcases List.mem_cons.1 h with rfl | h
      · exact Or.inl rfl
      · exact Or.inr (List.mem_cons_of_mem _ h)
    · split at h
      · exact List.mem_cons.1 h
      · rcases List.mem_cons.1 h with rfl | h
        · exact Or.inr List.mem_cons_self
        · exact (ih h).imp_right (List.mem_cons_of_mem _)

theorem mem_insertByKey_self (key : String) (value : α) (l : List (String × α)) :
    (key, value) ∈ insertByKey key value l := by
  induction l with
  | nil => exact List.mem_singleton_self _
  | cons q rest ih =>
    obtain ⟨k, v⟩ := q
    unfold insertByKey
    split
    · exact List.mem_cons_self
    · split
      · exact List.mem_cons_self
      · exact List.mem_cons_of_mem _ ih

theorem mem_insertByKey_of_ne {key : String} {p : String × α} (hp : p ∈ l) (hne : p.1 ≠ key) :
    p ∈ insertByKey key value l := by
  induction l with
  | nil => exact absurd hp List.not_mem_nil
  | cons q rest ih =>
    obtain ⟨k, v⟩ := q
    unfold insertByKey
    split
    · rename_i hk
      rcases List.mem_cons.1 hp with rfl | hp
      · exact absurd hk.symm hne
      · exact List.mem_cons_of_mem _ hp
    · split
      · exact List.mem_cons_of_mem _ hp
      · rcases List.mem_cons.1 hp with rfl | hp
        · exact List.mem_cons_self
        · exact List.mem_cons_of_mem _ (ih hp)

theorem lookup_cons_of_ne {k k' : String} (h : k ≠ k') (v : α) (l : List (String × α)) :
    ((k', v) :: l).lookup k = l.lookup k := by
  rw [List.lookup_cons, beq_eq_false_iff_ne.2 h]

theorem lookup_insertByKey_self (key : String) (value : α) (l : List (String × α)) :
    (insertByKey key value l).lookup key = some value := by
  induction l with
  | nil => exact List.lookup_cons_self
  | cons q rest ih =>
    obtain ⟨k, v⟩ := q
    unfold insertByKey
    split
    · exact List.lookup_cons_self
    · split
      · exact List.lookup_cons_self
      · rename_i hne _
        rw [lookup_cons_of_ne hne, ih]

theorem lookup_insertByKey_of_ne {k key : String} (h : k ≠ key) (value : α)
    (l : List (String × α)) : (insertByKey key value l).lookup k = l.lookup k := by
  induction l with
  | nil => exact lookup_cons_of_ne h value []
  | cons q rest ih =>
    obtain ⟨k', v⟩ := q
    unfold insertByKey
    split
    · rename_i heq
      subst heq
      rw [lookup_cons_of_ne h, lookup_cons_of_ne h]
    · split
      · exact lookup_cons_of_ne h value _
      · rw [List.lookup_cons, List.lookup_cons, ih]

/-! ## Lists with distinct keys -/

theorem lookup_of_mem (h : (l.map Prod.fst).Nodup) {key : String} (hmem : (key, value) ∈ l) :
    l.lookup key = some value := by
  induction l with
  | nil => cases hmem
  | cons p rest ih =>
    obtain ⟨k, v⟩ := p
    obtain ⟨hk, hrest⟩ := List.nodup_cons.1 h
    obtain heq | hin := List.mem_cons.1 hmem
    · obtain ⟨rfl, rfl⟩ := Prod.mk.inj heq
      exact List.lookup_cons_self
    · have hne : key ≠ k := by
        rintro rfl
        exact hk (List.mem_map.2 ⟨_, hin, rfl⟩)
      rw [lookup_cons_of_ne hne, ih hrest hin]

/-- The entries a list of keys stands for. -/
def entriesAt (l : List (String × α)) (keys : List String) : List (String × α) :=
  keys.filterMap fun key => (l.lookup key).map (key, ·)

theorem entriesAt_keys (h : (l.map Prod.fst).Nodup) : entriesAt l (l.map Prod.fst) = l := by
  have hentry : ∀ p ∈ l, (l.lookup p.1).map (p.1, ·) = some p := by
    intro p hp
    rw [lookup_of_mem h hp]
    rfl
  unfold entriesAt
  rw [List.filterMap_map]
  exact (List.filterMap_congr hentry).trans List.filterMap_some

theorem entriesAt_perm (h : (l.map Prod.fst).Nodup) {keys : List String}
    (hkeys : keys.Perm (l.map Prod.fst)) : (entriesAt l keys).Perm l := by
  have hperm := hkeys.filterMap fun key => (l.lookup key).map (key, ·)
  rwa [← entriesAt, ← entriesAt, entriesAt_keys h] at hperm

theorem keys_entriesAt_sublist (l : List (String × α)) (keys : List String) :
    ((entriesAt l keys).map Prod.fst).Sublist keys := by
  induction keys with
  | nil => exact List.Sublist.slnil
  | cons key keys ih =>
    unfold entriesAt at ih ⊢
    cases hkey : l.lookup key with
    | none => simpa [hkey] using ih.cons key
    | some v => simpa [hkey] using ih

/-- Lists with the same entries in key order are equal. -/
theorem eq_of_perm_of_keys_lt {l' : List (String × α)} (hperm : l.Perm l')
    (h : (l.map Prod.fst).Pairwise (· < ·)) (h' : (l'.map Prod.fst).Pairwise (· < ·)) : l = l' :=
  List.Perm.eq_of_pairwise (fun _ _ _ _ hab hba => absurd hab (lt_asymm hba))
    (List.pairwise_map.1 h) (List.pairwise_map.1 h') hperm

end EasyNetDaemon.Library
