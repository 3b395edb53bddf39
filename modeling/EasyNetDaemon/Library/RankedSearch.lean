import Mathlib.Data.List.Sort

/-!
# First match of a stable sort

A search that sorts its candidates by rank and takes the first one with a property is
characterized without the sort. `firstRanked r p l` keeps the best element seen so far while it
walks `l` from the right; `find?_insertionSort` shows that it is the first element with `p` of the
stable sort of `l`. The result is the element that no earlier candidate ties or beats and no later
candidate beats (`firstRanked_eq_some_iff`), it exists when a candidate does
(`firstRanked_isSome_iff`), and it does not depend on the order of `l` when the rank separates the
candidates (`firstRanked_perm`).
-/

namespace EasyNetDaemon.Library

universe u

variable {α : Type u}

/-- The best element of the list with the property, ties broken by position. -/
def firstRanked (r : α → α → Prop) [DecidableRel r] (p : α → Bool) : List α → Option α
  | [] => none
  | a :: l =>
      if p a then
        match firstRanked r p l with
        | none => some a
        | some b => if r a b then some a else some b
      else firstRanked r p l

section Search

variable (r : α → α → Prop) [DecidableRel r] (p : α → Bool)

theorem firstRanked_isSome_iff (l : List α) : (firstRanked r p l).isSome ↔ ∃ a ∈ l, p a = true := by
  induction l with
  | nil => simp [firstRanked]
  | cons a l ih =>
    by_cases ha : p a = true
    · have hsome : (firstRanked r p (a :: l)).isSome := by
        simp only [firstRanked, ha, if_true]
        split
        · rfl
        · split <;> rfl
      simp [hsome, ha]
    · simp [firstRanked, ha, ih]

theorem firstRanked_eq_none_iff (l : List α) : firstRanked r p l = none ↔ ∀ a ∈ l, p a = false := by
  have h := firstRanked_isSome_iff r p l
  rw [← Option.not_isSome_iff_eq_none, h]
  simp

theorem firstRanked_mem {l : List α} {g : α} (h : firstRanked r p l = some g) :
    g ∈ l ∧ p g = true := by
  induction l with
  | nil => simp [firstRanked] at h
  | cons a l ih =>
    by_cases ha : p a = true
    · simp only [firstRanked, ha, if_true] at h
      split at h
      · cases h
        exact ⟨List.mem_cons_self, ha⟩
      · rename_i b hb
        split at h
        · cases h
          exact ⟨List.mem_cons_self, ha⟩
        · cases h
          exact ⟨List.mem_cons_of_mem _ (ih hb).1, (ih hb).2⟩
    · simp only [firstRanked, ha, if_false, Bool.false_eq_true] at h
      exact ⟨List.mem_cons_of_mem _ (ih h).1, (ih h).2⟩

variable [IsTrans α r]

/-- Inserting into a sorted list moves the first match only when the inserted element has the
property and ranks no later than it. -/
theorem find?_orderedInsert (a : α) {s : List α} (hs : s.Pairwise r) :
    (s.orderedInsert r a).find? p =
      if p a then
        match s.find? p with
        | none => some a
        | some b => if r a b then some a else some b
      else s.find? p := by
  induction s with
  | nil => by_cases ha : p a = true <;> simp [ha]
  | cons b t ih =>
    obtain ⟨hb, ht⟩ := List.pairwise_cons.1 hs
    by_cases hab : r a b
    · rw [List.orderedInsert_cons_of_le r t hab, List.find?_cons]
      by_cases ha : p a = true
      · simp only [ha, if_true]
        split
        · rfl
        · rename_i c hc
          -- every element after `b` ranks after `a`, so the old first match does too
          have hac : r a c := by
            rcases List.mem_cons.1 (List.mem_of_find?_eq_some hc) with rfl | hct
            · exact hab
            · exact trans_of r hab (hb c hct)
          simp [hac]
      · simp [ha]
    · rw [List.orderedInsert_of_not_le r t hab, List.find?_cons, List.find?_cons, ih ht]
      by_cases hpb : p b = true
      · by_cases ha : p a = true <;> simp [hpb, ha, hab]
      · simp [hpb]

variable [Std.Total r]

/-- The first match of the stable sort is the best element of the unsorted list. -/
theorem find?_insertionSort (l : List α) : (l.insertionSort r).find? p = firstRanked r p l := by
  induction l with
  | nil => rfl
  | cons a l ih =>
    rw [List.insertionSort_cons, find?_orderedInsert r p a (List.pairwise_insertionSort r l), ih]
    rfl

/-- The best element is the one that no earlier candidate ties or beats and no later candidate
beats. -/
theorem firstRanked_eq_some_iff (l : List α) (g : α) :
    firstRanked r p l = some g ↔
      ∃ before after, l = before ++ g :: after ∧ p g = true ∧
        (∀ h ∈ before, p h = true → ¬ r h g) ∧ (∀ h ∈ after, p h = true → r g h) := by
  constructor
  · intro hg
    induction l generalizing g with
    | nil => simp [firstRanked] at hg
    | cons a l ih =>
      by_cases ha : p a = true
      · simp only [firstRanked, ha, if_true] at hg
        split at hg
        · rename_i hnone
          cases hg
          have hfalse := (firstRanked_eq_none_iff r p l).1 hnone
          refine ⟨[], l, rfl, ha, by simp, fun h hh hp => ?_⟩
          simp [hfalse h hh] at hp
        · rename_i b hb
          obtain ⟨before, after, rfl, hpb, hbefore, hafter⟩ := ih b hb
          split at hg
          · rename_i hab
            cases hg
            refine ⟨[], _, rfl, ha, by simp, fun h hh hp => ?_⟩
            rcases List.mem_append.1 hh with hh | hh
            · -- `h` is beaten by `b`, so totality puts `b` no later than `h`
              have hbh : r b h := (Std.Total.total h b).resolve_left (hbefore h hh hp)
              exact trans_of r hab hbh
            · rcases List.mem_cons.1 hh with rfl | hh
              · exact hab
              · exact trans_of r hab (hafter h hh hp)
          · rename_i hab
            cases hg
            refine ⟨a :: before, after, rfl, hpb, ?_, hafter⟩
            intro h hh hp
            rcases List.mem_cons.1 hh with rfl | hh
            · exact hab
            · exact hbefore h hh hp
      · simp only [firstRanked, ha, if_false, Bool.false_eq_true] at hg
        obtain ⟨before, after, rfl, hpg, hbefore, hafter⟩ := ih g hg
        refine ⟨a :: before, after, rfl, hpg, ?_, hafter⟩
        intro h hh hp
        rcases List.mem_cons.1 hh with rfl | hh
        · exact absurd hp ha
        · exact hbefore h hh hp
  · rintro ⟨before, after, rfl, hpg, hbefore, hafter⟩
    induction before with
    | nil =>
      simp only [List.nil_append, firstRanked, hpg, if_true]
      split
      · rfl
      · rename_i b hb
        obtain ⟨hmem, hpb⟩ := firstRanked_mem r p hb
        simp [hafter b hmem hpb]
    | cons a before ih =>
      have hrest := ih fun h hh => hbefore h (List.mem_cons_of_mem _ hh)
      by_cases ha : p a = true
      · have hag : ¬ r a g := hbefore a List.mem_cons_self ha
        simp [firstRanked, ha, hrest, hag]
      · simp [firstRanked, ha, hrest]

/-- The same characterization for a search among the images of a list: the winner comes from an
element whose image no earlier image ties or beats and no later image beats. -/
theorem firstRanked_filterMap_eq_some_iff {β : Type u} (f : β → Option α) (l : List β) (g : α) :
    firstRanked r p (l.filterMap f) = some g ↔
      ∃ before b after, l = before ++ b :: after ∧ f b = some g ∧ p g = true ∧
        (∀ x ∈ before, ∀ h, f x = some h → p h = true → ¬ r h g) ∧
        (∀ x ∈ after, ∀ h, f x = some h → p h = true → r g h) := by
  rw [firstRanked_eq_some_iff]
  constructor
  · rintro ⟨images, images', hl, hg, hbefore, hafter⟩
    obtain ⟨l₁, l₂, rfl, rfl, hl₂⟩ := List.filterMap_eq_append_iff.1 hl
    obtain ⟨skipped, b, l₃, rfl, hskipped, hb, rfl⟩ := List.filterMap_eq_cons_iff.1 hl₂
    refine ⟨l₁ ++ skipped, b, l₃, by simp, hb, hg, ?_, ?_⟩
    · intro x hx h hxh hph
      rcases List.mem_append.1 hx with hx | hx
      · exact hbefore h (List.mem_filterMap.2 ⟨x, hx, hxh⟩) hph
      · rw [hskipped x hx] at hxh
        cases hxh
    · intro x hx h hxh hph
      exact hafter h (List.mem_filterMap.2 ⟨x, hx, hxh⟩) hph
  · rintro ⟨before, b, after, rfl, hb, hg, hbefore, hafter⟩
    refine ⟨before.filterMap f, after.filterMap f, by simp [hb], hg, ?_, ?_⟩
    · intro h hh hph
      obtain ⟨x, hx, hxh⟩ := List.mem_filterMap.1 hh
      exact hbefore x hx h hxh hph
    · intro h hh hph
      obtain ⟨x, hx, hxh⟩ := List.mem_filterMap.1 hh
      exact hafter x hx h hxh hph

/-- When the rank separates any two candidates, the best element does not depend on the order of
the list. -/
theorem firstRanked_perm {l l' : List α} (hl : l.Perm l')
    (hsep : ∀ a ∈ l, ∀ b ∈ l, r a b → r b a → a = b) : firstRanked r p l = firstRanked r p l' := by
  rw [← find?_insertionSort r p l, ← find?_insertionSort r p l']
  have hperm : (l.insertionSort r).Perm (l'.insertionSort r) :=
    (List.perm_insertionSort r l).trans (hl.trans (List.perm_insertionSort r l').symm)
  have heq : l.insertionSort r = l'.insertionSort r := by
    refine hperm.eq_of_pairwise ?_ (List.pairwise_insertionSort r l)
      (List.pairwise_insertionSort r l')
    intro a b ha hb hab hba
    rw [List.mem_insertionSort] at ha hb
    exact hsep a ha b (hl.mem_iff.2 hb) hab hba
  rw [heq]

end Search

end EasyNetDaemon.Library
