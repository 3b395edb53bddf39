import Mathlib.Data.List.Basic

/-!
# Checks that may fail

Fallible code returns `Except`. A check stops with its message (`bailIf`), and a run of checks
succeeds exactly when each of them does (`bind_eq_ok_iff`, `checkAll_eq_ok_iff`). The lemmas let a
successful run be taken apart without unfolding the code that performs it.
-/

namespace EasyNetDaemon.Library

universe u

variable {ε : Type u} {α β : Type}

/-- Stops with `message` when the condition holds. -/
def bailIf (condition : Bool) (message : ε) : Except ε Unit :=
  if condition then .error message else .ok ()

@[simp] theorem bailIf_eq_ok_iff {condition : Bool} {message : ε} {u : Unit} :
    bailIf condition message = .ok u ↔ condition = false := by
  cases condition <;> simp [bailIf]

/-- A result behind a guard. -/
theorem ite_error_eq_ok_iff {c : Prop} [Decidable c] {x : Except ε α} {message : ε} {a : α} :
    (if c then x else .error message) = .ok a ↔ c ∧ x = .ok a := by
  by_cases h : c <;> simp [h]

theorem bind_eq_ok_iff {x : Except ε α} {f : α → Except ε β} {b : β} :
    (x >>= f) = .ok b ↔ ∃ a, x = .ok a ∧ f a = .ok b := by
  cases x with
  | error e => simp [bind, Except.bind]
  | ok a => simp [bind, Except.bind]

/-- A check in front of a computation: the whole succeeds when both do. -/
theorem check_bind_eq_ok_iff {x : Except ε Unit} {f : Unit → Except ε β} {b : β} :
    (x >>= f) = .ok b ↔ x = .ok () ∧ f () = .ok b := by
  cases x with
  | error e => simp [bind, Except.bind]
  | ok a => simp [bind, Except.bind]

/-- Runs a check on every element, in order. -/
def checkAll (check : α → Except ε Unit) : List α → Except ε Unit
  | [] => .ok ()
  | a :: l => do
    check a
    checkAll check l

theorem checkAll_eq_ok_iff {check : α → Except ε Unit} {l : List α} :
    checkAll check l = .ok () ↔ ∀ a ∈ l, check a = .ok () := by
  induction l with
  | nil => simp [checkAll]
  | cons a l ih => simp only [checkAll, check_bind_eq_ok_iff, ih, List.forall_mem_cons]

/-- Runs a fallible step over a list from the left. -/
def foldChecked (step : β → α → Except ε β) : β → List α → Except ε β
  | b, [] => .ok b
  | b, a :: l => do
    let b' ← step b a
    foldChecked step b' l

theorem foldChecked_append (step : β → α → Except ε β) (b : β) (l l' : List α) :
    foldChecked step b (l ++ l') = (foldChecked step b l >>= fun b' => foldChecked step b' l') := by
  induction l generalizing b with
  | nil => rfl
  | cons a l ih =>
    simp only [List.cons_append, foldChecked]
    cases step b a with
    | error e => rfl
    | ok b' => exact ih b'

/-- What every step preserves, a whole fold preserves. -/
theorem foldChecked_invariant {step : β → α → Except ε β} {P : β → Prop}
    (hstep : ∀ b a b', P b → step b a = .ok b' → P b') {l : List α} {b b' : β} (hb : P b)
    (h : foldChecked step b l = .ok b') : P b' := by
  induction l generalizing b with
  | nil =>
    cases h
    exact hb
  | cons a l ih =>
    obtain ⟨c, hc, hrest⟩ := bind_eq_ok_iff.1 h
    exact ih (hstep b a c hb hc) hrest

/-- A Boolean check of a result that did not fail. -/
theorem exists_ok_of_any {x : Except ε α} {p : α → Bool}
    (h : x.toOption.any p = true) : ∃ a, x = .ok a ∧ p a = true := by
  cases x with
  | error e => cases h
  | ok a => exact ⟨a, rfl, h⟩

end EasyNetDaemon.Library
