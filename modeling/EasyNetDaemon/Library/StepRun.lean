import Mathlib.Data.List.Basic

/-!
# Runs of partial steps

`runSteps step s l` performs the steps of a list from the state `s`; it has no result when one of
them has none. The state reached after `n` steps is the run of the first `n` of them, and what every
step of the run preserves holds from any of its states on (`runSteps_invariant`). When a step needs
a condition to preserve it, the condition is asked of every step of the run (`AllSteps`).
-/

namespace EasyNetDaemon.Library

universe u v

variable {σ : Type u} {α : Type v} (step : σ → α → Option σ)

/-- The state after the steps of a list. -/
def runSteps : σ → List α → Option σ
  | s, [] => some s
  | s, a :: l => (step s a).bind fun s' => runSteps s' l

variable {step}

theorem runSteps_append (s : σ) (l l' : List α) :
    runSteps step s (l ++ l') = (runSteps step s l).bind fun s' => runSteps step s' l' := by
  induction l generalizing s with
  | nil => rfl
  | cons a l ih =>
    simp only [List.cons_append, runSteps, Option.bind_assoc]
    congr 1
    funext s'
    exact ih s'

variable {l : List α} {n : Nat} {s : σ} {I : σ → Prop} {P : σ → α → Prop}

/-- The state after one more step. -/
theorem runSteps_take_succ (s : σ) {a : α} (h : l[n]? = some a) :
    runSteps step s (l.take (n + 1)) =
      (runSteps step s (l.take n)).bind fun s' => step s' a := by
  rw [List.take_add_one, h, runSteps_append]
  congr 1
  funext s'
  simp only [Option.toList_some, runSteps]
  cases step s' a <;> rfl

variable {s' : σ} {Q : σ → Prop}

/-- The state after `n + 1` steps comes from the one after `n`, by a step or because the list has
ended. -/
theorem runSteps_take_succ_eq_some (h : runSteps step s (l.take (n + 1)) = some s') :
    (l[n]? = none ∧ runSteps step s (l.take n) = some s') ∨
      ∃ a s₁, l[n]? = some a ∧ runSteps step s (l.take n) = some s₁ ∧ step s₁ a = some s' := by
  cases ha : l[n]? with
  | none =>
    rw [List.take_add_one, ha] at h
    exact Or.inl ⟨rfl, by simpa using h⟩
  | some a =>
    rw [runSteps_take_succ s ha] at h
    obtain ⟨s₁, hs₁, hstep⟩ := Option.bind_eq_some_iff.1 h
    exact Or.inr ⟨a, s₁, rfl, hs₁, hstep⟩

/-- What the steps of a run preserve, holds from one of its states on. -/
theorem runSteps_invariant {s₀ : σ}
    (hstep : ∀ n s a s', runSteps step s₀ (l.take n) = some s → l[n]? = some a →
      step s a = some s' → I s → I s') {m : Nat} (hmn : m ≤ n)
    (hs : runSteps step s₀ (l.take m) = some s) (hI : I s)
    (hs' : runSteps step s₀ (l.take n) = some s') : I s' := by
  induction hmn generalizing s' with
  | refl =>
    cases hs.symm.trans hs'
    exact hI
  | step hle ih =>
    rcases runSteps_take_succ_eq_some hs' with ⟨-, hs'⟩ | ⟨a, s₁, ha, hs₁, hlast⟩
    · exact ih hs'
    · exact hstep _ s₁ a s' hs₁ ha hlast (ih hs₁)

variable (step) in
/-- Every step of the run is taken from a state in which `P` holds of it. -/
def AllSteps (P : σ → α → Prop) : σ → List α → Prop
  | _, [] => True
  | s, a :: l => P s a ∧ ∀ s' ∈ step s a, AllSteps P s' l

instance AllSteps.decidable {P : σ → α → Prop} [∀ s a, Decidable (P s a)] :
    ∀ (s : σ) (l : List α), Decidable (AllSteps step P s l)
  | _, [] => isTrue trivial
  | s, a :: l =>
    have : DecidablePred fun s' => AllSteps step P s' l := fun s' => decidable s' l
    inferInstanceAs (Decidable (P s a ∧ ∀ s' ∈ step s a, AllSteps step P s' l))

/-- What the steps of a run preserve under their condition, holds at its end. -/
theorem AllSteps.invariant (hstep : ∀ s a s', I s → P s a → step s a = some s' → I s')
    (hl : AllSteps step P s l) (hI : I s) (h : runSteps step s l = some s') : I s' := by
  induction l generalizing s with
  | nil =>
    cases h
    exact hI
  | cons a l ih =>
    obtain ⟨s₁, hs₁, h⟩ := Option.bind_eq_some_iff.1 h
    exact ih (hl.2 s₁ hs₁) (hstep s a s₁ hI hl.1 hs₁) h

theorem AllSteps.of_forall_mem (h : ∀ s, ∀ a ∈ l, P s a) (s : σ) : AllSteps step P s l := by
  induction l generalizing s with
  | nil => trivial
  | cons a l ih =>
    exact ⟨h s a List.mem_cons_self,
      fun s' _ => ih (fun s b hb => h s b (List.mem_cons_of_mem _ hb)) s'⟩

theorem AllSteps.append {l' : List α} (h : AllSteps step P s (l ++ l'))
    (hl : runSteps step s l = some s') : AllSteps step P s l ∧ AllSteps step P s' l' := by
  induction l generalizing s with
  | nil =>
    cases hl
    exact ⟨trivial, h⟩
  | cons a l ih =>
    obtain ⟨s₁, hs₁, hl⟩ := Option.bind_eq_some_iff.1 hl
    refine ⟨⟨h.1, fun s₂ hs₂ => ?_⟩, (ih (h.2 s₁ hs₁) hl).2⟩
    cases hs₁.symm.trans hs₂
    exact (ih (h.2 s₁ hs₁) hl).1

/-- When each step keeps `Q` exactly if its condition holds, a run keeps it exactly if all of its
steps meet the condition. -/
theorem runSteps_iff_allSteps (hI : ∀ s a s', I s → step s a = some s' → I s')
    (hstep : ∀ a ∈ l, ∀ s s', I s → step s a = some s' → (Q s' ↔ Q s ∧ P s a)) (hs : I s)
    (h : runSteps step s l = some s') : Q s' ↔ Q s ∧ AllSteps step P s l := by
  induction l generalizing s with
  | nil =>
    cases h
    simp [AllSteps]
  | cons a l ih =>
    obtain ⟨s₁, hs₁, h⟩ := Option.bind_eq_some_iff.1 h
    rw [List.forall_mem_cons] at hstep
    rw [ih hstep.2 (hI s a s₁ hs hs₁) h, hstep.1 s s₁ hs hs₁, and_assoc]
    simp [AllSteps, hs₁]

/-- When an invariant gives `Q`, a step that meets its condition keeps the invariant, and one that
does not breaks `Q`, then `Q` holds in all states of a run exactly if all of its steps meet the
condition. A step that cannot be taken meets it. -/
theorem forall_states_iff_allSteps_of_none (hnone : ∀ s a, I s → step s a = none → P s a)
    (hQ : ∀ s, I s → Q s) (hkeep : ∀ s a s', I s → step s a = some s' → P s a → I s')
    (hbreak : ∀ s a s', I s → step s a = some s' → Q s' → P s a) (hs : I s) :
    (∀ n s', runSteps step s (l.take n) = some s' → Q s') ↔ AllSteps step P s l := by
  induction l generalizing s with
  | nil =>
    refine ⟨fun _ => trivial, fun _ n s' hs' => ?_⟩
    rw [List.take_nil] at hs'
    cases hs'
    exact hQ s hs
  | cons a l ih =>
    constructor
    · intro hall
      have hP : P s a := by
        cases hs₁ : step s a with
        | none => exact hnone s a hs hs₁
        | some s₁ => exact hbreak s a s₁ hs hs₁ (hall 1 s₁ (by simp [runSteps, hs₁]))
      refine ⟨hP, fun s₂ hs₂ => (ih (hkeep s a s₂ hs hs₂ hP)).1 fun n s' hs' => ?_⟩
      refine hall (n + 1) s' ?_
      rw [List.take_succ_cons, runSteps, Option.mem_def.1 hs₂]
      exact hs'
    · rintro ⟨hP, hrest⟩ n s' hs'
      cases n with
      | zero =>
        cases hs'
        exact hQ s hs
      | succ n =>
        rw [List.take_succ_cons, runSteps] at hs'
        obtain ⟨s₁, hs₁, hs'⟩ := Option.bind_eq_some_iff.1 hs'
        exact (ih (hkeep s a s₁ hs hs₁ hP)).2 (hrest s₁ hs₁) n s' hs'

/-- What every step preserves, holds at the end of a run. -/
theorem runSteps_preserves (hstep : ∀ s a s', I s → step s a = some s' → I s') (hI : I s)
    (h : runSteps step s l = some s') : I s' :=
  (AllSteps.of_forall_mem (fun _ _ _ => trivial) s :
    AllSteps step (fun _ _ => True) s l).invariant
    (fun s a s' hI _ hs => hstep s a s' hI hs) hI h

end EasyNetDaemon.Library
