import Mathlib.Data.List.Basic

/-!
# Increasing enumerations of integers

A set of integers that is read through `next`, which gives the first member after a number.
`between` lists the members of an interval, by following `next` from its lower end; it holds exactly
the members (`mem_between`), in increasing order (`between_pairwise`).
-/

namespace EasyNetDaemon.Library

/-- The members of a set, each reached from any smaller number by `next`. -/
structure Enumeration where
  next : Int → Option Int
  lt_next : ∀ {a t}, next a = some t → a < t
  next_le : ∀ {a b t u}, next a = some t → next b = some u → a < u → t ≤ u
  next_isSome : ∀ {a b u}, next b = some u → a < u → (next a).isSome = true

namespace Enumeration

variable (e : Enumeration)

/-- The members. -/
def Occurs (u : Int) : Prop := ∃ a, e.next a = some u

/-- At most `fuel` members after `a`, up to `b`. -/
def upTo : Nat → Int → Int → List Int
  | 0, _, _ => []
  | fuel + 1, a, b =>
    match e.next a with
    | none => []
    | some t => if t ≤ b then t :: upTo fuel t b else []

/-- The members after `a` and up to `b`. -/
def between (a b : Int) : List Int := e.upTo (b - a).toNat a b

variable {e}

theorem lt_of_mem_upTo {fuel : Nat} {a b u : Int} (h : u ∈ e.upTo fuel a b) :
    e.Occurs u ∧ a < u ∧ u ≤ b := by
  induction fuel generalizing a with
  | zero => cases h
  | succ fuel ih =>
    unfold upTo at h
    split at h
    · cases h
    · rename_i t ht
      have hat := e.lt_next ht
      split at h
      · rename_i htb
        rcases List.mem_cons.1 h with rfl | h
        · exact ⟨⟨a, ht⟩, hat, htb⟩
        · obtain ⟨hu, htu, hub⟩ := ih h
          exact ⟨hu, Int.lt_trans hat htu, hub⟩
      · cases h

theorem mem_upTo {fuel : Nat} {a b u : Int} (hu : e.Occurs u) (hau : a < u) (hub : u ≤ b)
    (hfuel : (b - a).toNat ≤ fuel) : u ∈ e.upTo fuel a b := by
  induction fuel generalizing a with
  | zero => omega
  | succ fuel ih =>
    obtain ⟨c, hc⟩ := hu
    obtain ⟨t, ht⟩ := Option.isSome_iff_exists.1 (e.next_isSome hc hau)
    have hat := e.lt_next ht
    have htu := e.next_le ht hc hau
    unfold upTo
    rw [ht]
    simp only
    rw [if_pos (Int.le_trans htu hub)]
    rcases Int.lt_or_eq_of_le htu with htu | rfl
    · exact List.mem_cons_of_mem _ (ih htu (by omega))
    · exact List.mem_cons_self

/-- What lies between. -/
theorem mem_between {a b u : Int} : u ∈ e.between a b ↔ e.Occurs u ∧ a < u ∧ u ≤ b :=
  ⟨lt_of_mem_upTo, fun ⟨hu, hau, hub⟩ => mem_upTo hu hau hub (Nat.le_refl _)⟩

theorem between_pairwise (a b : Int) : (e.between a b).Pairwise (· < ·) := by
  unfold between
  generalize (b - a).toNat = fuel
  induction fuel generalizing a with
  | zero => exact List.Pairwise.nil
  | succ fuel ih =>
    unfold upTo
    split
    · exact List.Pairwise.nil
    · split
      · exact List.pairwise_cons.2 ⟨fun u hu => (lt_of_mem_upTo hu).2.1, ih _⟩
      · exact List.Pairwise.nil

end Enumeration

end EasyNetDaemon.Library
