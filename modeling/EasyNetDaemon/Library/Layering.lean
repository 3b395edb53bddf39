import Mathlib.Data.List.Forall2
import Mathlib.Order.Bounds.Basic
import Mathlib.Order.MinMax

/-!
# Levels computed in one pass

A pass that gives each element of a list a value computed from the values given before it
(`getElem?_foldl_snoc`), the largest element of a list (`isGreatest_foldl_max`), and the index of an
element by its key when keys are unique (`lookup_indexed_iff`). Together they give the level of an
element over the levels of the elements that it depends on.
-/

namespace EasyNetDaemon.Library

universe u v

variable {α : Type u} {β : Type v}

/-! ## Values computed from those before -/

variable {l : List α} {i : Nat}

section Snoc

variable (f : List β → α → β)

theorem prefix_foldl_snoc (l : List α) (acc : List β) :
    acc <+: l.foldl (fun acc a => acc ++ [f acc a]) acc := by
  induction l generalizing acc with
  | nil => exact List.prefix_refl acc
  | cons a l ih => exact (List.prefix_append acc [f acc a]).trans (ih _)

theorem length_foldl_snoc (l : List α) (acc : List β) :
    (l.foldl (fun acc a => acc ++ [f acc a]) acc).length = acc.length + l.length := by
  induction l generalizing acc with
  | nil => rfl
  | cons a l ih =>
    rw [List.foldl_cons, ih, List.length_append, List.length_singleton, List.length_cons]
    omega

/-- The value of an element is computed from the values of the elements before it. -/
theorem getElem?_foldl_snoc {acc : List β} {a : α} (h : l[i]? = some a) :
    (l.foldl (fun acc a => acc ++ [f acc a]) acc)[acc.length + i]? =
      some (f ((l.foldl (fun acc a => acc ++ [f acc a]) acc).take (acc.length + i)) a) := by
  induction l generalizing acc i with
  | nil => simp at h
  | cons b l ih =>
    rw [List.foldl_cons]
    cases i with
    | zero =>
      rw [List.getElem?_cons_zero, Option.some.injEq] at h
      subst h
      obtain ⟨rest, hrest⟩ := prefix_foldl_snoc f l (acc ++ [f acc b])
      rw [← hrest, Nat.add_zero, List.append_assoc, List.take_left]
      simp
    | succ i =>
      rw [List.getElem?_cons_succ] at h
      have hi := @ih i (acc ++ [f acc b]) h
      rw [List.length_append, List.length_singleton, Nat.add_assoc, Nat.add_comm 1 i] at hi
      exact hi

end Snoc

/-! ## The largest element -/

theorem isGreatest_foldl_max (p : Nat) (rest : List Nat) :
    IsGreatest {q | q ∈ p :: rest} (rest.foldl max p) := by
  induction rest generalizing p with
  | nil => simp [IsGreatest, upperBounds]
  | cons r rest ih =>
    obtain ⟨hmem, hle⟩ := ih (max p r)
    have hmax : max p r ≤ rest.foldl max (max p r) := hle List.mem_cons_self
    refine ⟨?_, ?_⟩
    · rcases List.mem_cons.1 hmem with h | h
      · rcases max_choice p r with hc | hc
        · exact List.mem_cons.2 (Or.inl (h.trans hc))
        · exact List.mem_cons_of_mem _ (List.mem_cons.2 (Or.inl (h.trans hc)))
      · exact List.mem_cons_of_mem _ (List.mem_cons_of_mem _ h)
    · intro q hq
      rcases List.mem_cons.1 hq with rfl | hq
      · exact le_trans (le_max_left _ _) hmax
      · rcases List.mem_cons.1 hq with rfl | hq
        · exact le_trans (le_max_right _ _) hmax
        · exact hle (List.mem_cons_of_mem _ hq)

/-! ## Indices by key -/

/-- The entries of an index: the keys of the elements with their positions. -/
theorem mem_indexed_iff {κ : Type v} (key : α → Option κ) (l : List α) (k : κ) (i : Nat) :
    (k, i) ∈ (l.zipIdx.filterMap fun p => (key p.1).map fun b => (b, p.2)).reverse ↔
      ∃ a, l[i]? = some a ∧ key a = some k := by
  rw [List.mem_reverse, List.mem_filterMap]
  constructor
  · rintro ⟨⟨a, j⟩, hmem, hkey⟩
    obtain ⟨b, hb, heq⟩ := Option.map_eq_some_iff.1 hkey
    cases heq
    exact ⟨a, List.mem_zipIdx_iff_getElem?.1 hmem, hb⟩
  · rintro ⟨a, ha, hk⟩
    exact ⟨(a, i), List.mem_zipIdx_iff_getElem?.2 ha, by rw [hk]; rfl⟩

theorem pairwise_getElem? {R : α → α → Prop} (h : l.Pairwise R) {j : Nat} (hij : i < j) {a b : α}
    (ha : l[i]? = some a) (hb : l[j]? = some b) : R a b := by
  obtain ⟨hi, rfl⟩ := List.getElem?_eq_some_iff.1 ha
  obtain ⟨hj, rfl⟩ := List.getElem?_eq_some_iff.1 hb
  exact List.pairwise_iff_getElem.1 h i j hi hj hij

/-- With unique keys the index finds the element of a key. -/
theorem lookup_indexed_iff {κ : Type v} [DecidableEq κ] {key : α → Option κ}
    (hunique : l.Pairwise fun a b => ∀ k, key a = some k → key b ≠ some k) (k : κ) (i : Nat) :
    (l.zipIdx.filterMap fun p => (key p.1).map fun b => (b, p.2)).reverse.lookup k = some i ↔
      ∃ a, l[i]? = some a ∧ key a = some k := by
  constructor
  · intro h
    obtain ⟨l₁, l₂, hl, -⟩ := List.lookup_eq_some_iff.1 h
    refine (mem_indexed_iff key l k i).1 ?_
    rw [hl]
    exact List.mem_append_right _ List.mem_cons_self
  · intro h
    have hmem := (mem_indexed_iff key l k i).2 h
    cases hlook :
      (l.zipIdx.filterMap fun p => (key p.1).map fun b => (b, p.2)).reverse.lookup k with
    | none =>
      exact absurd (List.lookup_eq_none_iff.1 hlook _ hmem) (by simp)
    | some j =>
      obtain ⟨l₁, l₂, hl, -⟩ := List.lookup_eq_some_iff.1 hlook
      have hj := (mem_indexed_iff key l k j).1
        (by rw [hl]; exact List.mem_append_right _ List.mem_cons_self)
      obtain ⟨a, ha, hka⟩ := h
      obtain ⟨b, hb, hkb⟩ := hj
      -- two positions with the same key are one
      rcases Nat.lt_trichotomy i j with hlt | rfl | hlt
      · exact absurd hkb (pairwise_getElem? hunique hlt ha hb k hka)
      · rfl
      · exact absurd hka (pairwise_getElem? hunique hlt hb ha k hkb)

/-! ## Lists related element by element -/

theorem forall₂_getElem?_left {R : α → β → Prop} {l' : List β} (h : List.Forall₂ R l l') {a : α}
    (ha : l[i]? = some a) :
    ∃ b, l'[i]? = some b ∧ R a b := by
  induction h generalizing i with
  | nil => simp at ha
  | @cons a₁ b₁ l₁ l₁' hr _ ih =>
    cases i with
    | zero =>
      rw [List.getElem?_cons_zero, Option.some.injEq] at ha
      subst ha
      exact ⟨b₁, List.getElem?_cons_zero, hr⟩
    | succ i =>
      rw [List.getElem?_cons_succ] at ha
      obtain ⟨b, hb, hab⟩ := ih ha
      exact ⟨b, by rwa [List.getElem?_cons_succ], hab⟩

theorem forall₂_getElem?_right {R : α → β → Prop} {l' : List β} (h : List.Forall₂ R l l') {b : β}
    (hb : l'[i]? = some b) :
    ∃ a, l[i]? = some a ∧ R a b :=
  forall₂_getElem?_left h.flip hb

end EasyNetDaemon.Library
