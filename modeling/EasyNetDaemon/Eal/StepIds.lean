import EasyNetDaemon.Eal.Schedule
import Mathlib.Data.List.ReduceOption

/-!
# Step ids

The id of a call is its binding, or `__anon_N` with a counter that runs through the whole program,
loop blocks included. Bindings are checked against the names of their own scope only, and the
counter is not checked against the bindings. The ids of a compiled mission are pairwise distinct
exactly when the bindings of all scopes together are, and none is one of the generated ids
(`stepIds_nodup_iff`).
-/

namespace EasyNetDaemon.Eal

open Library EasyNetDaemon.Core

/-! ## The bindings of a program -/

mutual

/-- The calls of a statement in source order, each with its binding if it has one. -/
def Statement.callBindings : Statement → List (Option String)
  | .letCall name _ => [some name]
  | .call _ => [none]
  | .emit _ => []
  | .loop ⟨_, _, body, verify⟩ => callBindingsAll body ++ callBindingsAll verify

/-- The calls of a block. -/
def callBindingsAll : List Statement → List (Option String)
  | [] => []
  | stmt :: rest => stmt.callBindings ++ callBindingsAll rest

end

/-- The names that the `let` statements of a program bind, in all scopes. -/
def EalProgram.letNames (program : EalProgram) : List String :=
  (callBindingsAll program.mission.statements).reduceOption

/-- The number of calls without a binding. -/
def EalProgram.anonCalls (program : EalProgram) : Nat :=
  (callBindingsAll program.mission.statements).count none

/-- No name is bound twice, in whatever scopes, and none is a generated id of the program. -/
def EalProgram.NamesDistinct (program : EalProgram) : Prop :=
  program.letNames.Nodup ∧ ∀ n < program.anonCalls, anonId (n + 1) ∉ program.letNames

instance (program : EalProgram) : Decidable program.NamesDistinct :=
  inferInstanceAs (Decidable (_ ∧ _))

/-! ## Numbering -/

/-- The ids of calls, with the counter of generated ids before them. -/
def numberIds : Nat → List (Option String) → List String
  | _, [] => []
  | n, some name :: rest => name :: numberIds n rest
  | n, none :: rest => anonId (n + 1) :: numberIds (n + 1) rest

theorem numberIds_append (n : Nat) (l l' : List (Option String)) :
    numberIds n (l ++ l') = numberIds n l ++ numberIds (n + l.count none) l' := by
  induction l generalizing n with
  | nil => rfl
  | cons b l ih =>
    cases b with
    | none =>
      rw [List.cons_append, numberIds, ih, numberIds, List.cons_append, List.count_cons_self,
        Nat.add_right_comm, Nat.add_assoc]
    | some name =>
      rw [List.cons_append, numberIds, ih, numberIds, List.cons_append,
        List.count_cons_of_ne (by simp)]

theorem anonId_injective : Function.Injective anonId := by
  intro m n h
  have hrepr : Nat.repr m = Nat.repr n := (String.append_right_inj _).1 h
  -- the number is read back from its digits
  rw [← Nat.ofDigitChars_ten_toDigits (n := m), ← Nat.toList_repr, hrepr, Nat.toList_repr,
    Nat.ofDigitChars_ten_toDigits]

/-- The ids are the names and a run of generated ones. -/
theorem numberIds_perm (n : Nat) (l : List (Option String)) :
    (numberIds n l).Perm
      (l.reduceOption ++ (List.range' (n + 1) (l.count none)).map anonId) := by
  induction l generalizing n with
  | nil => exact List.Perm.nil
  | cons b l ih =>
    cases b with
    | none =>
      rw [numberIds, List.count_cons_self, List.range'_succ, List.map_cons,
        List.reduceOption_cons_of_none]
      exact ((ih (n + 1)).cons _).trans List.perm_middle.symm
    | some name =>
      rw [numberIds, List.count_cons_of_ne (by simp), List.reduceOption_cons_of_some,
        List.cons_append]
      exact (ih n).cons _

theorem numberIds_nodup_iff (l : List (Option String)) :
    (numberIds 0 l).Nodup ↔
      l.reduceOption.Nodup ∧ ∀ n < l.count none, anonId (n + 1) ∉ l.reduceOption := by
  rw [(numberIds_perm 0 l).nodup_iff, List.nodup_append']
  have hgen : ((List.range' (0 + 1) (l.count none)).map anonId).Nodup :=
    List.Nodup.map anonId_injective (List.nodup_range' 1)
  constructor
  · rintro ⟨hnames, -, hdisj⟩
    refine ⟨hnames, ?_⟩
    intro n hn hmem
    refine hdisj hmem (List.mem_map_of_mem ?_)
    simp
    omega
  · rintro ⟨hnames, hfresh⟩
    refine ⟨hnames, hgen, ?_⟩
    intro name hname hmem
    obtain ⟨k, hk, rfl⟩ := List.mem_map.1 hmem
    simp at hk
    obtain ⟨n, rfl⟩ : ∃ n, k = n + 1 := ⟨k - 1, by omega⟩
    exact hfresh n (by omega) hname

/-! ## The ids of a compiled mission -/

/-- The ids of the calls of an item. -/
def AnalyzedItem.stepIds : AnalyzedItem → List String
  | .call step => [step.stepId]
  | .loop lp => (walkCallsAll lp.body ++ walkCallsAll lp.verify).map IrCall.stepId

/-- A loop analysis numbers the calls of a loop. -/
def NumbersCalls (onLoop : LoopAnalysis) : Prop :=
  ∀ block n lp n', onLoop block n = .ok (lp, n') →
    (AnalyzedItem.loop lp).stepIds = numberIds n (Statement.loop block).callBindings ∧
      n' = n + (Statement.loop block).callBindings.count none

theorem numbersCalls_noNestedLoop : NumbersCalls noNestedLoop := by
  intro block n lp n' h
  cases h

theorem stepIds_lowerItem {it : AnalyzedItem} {step : IrStep} (h : lowerItem it = .ok step) :
    step.walkCalls.map IrCall.stepId = it.stepIds := by
  cases it with
  | call s =>
    obtain ⟨c, hc, h⟩ := bind_eq_ok_iff.1 h
    cases h
    obtain ⟨_, _, hid, _⟩ := lowerCall_eq_ok hc
    exact congrArg (fun id => [id]) hid
  | loop lp =>
    cases h
    rfl

/-- Lowering keeps the ids. -/
theorem stepIds_lowerItems {items : List AnalyzedItem} {steps : List IrStep}
    (h : lowerItems items = .ok steps) :
    (walkCallsAll steps).map IrCall.stepId = items.flatMap AnalyzedItem.stepIds := by
  have hall := forall₂_lowerItems h
  clear h
  induction hall with
  | nil => rfl
  | cons hlower _ ih =>
    rw [walkCallsAll, List.map_append, stepIds_lowerItem hlower, ih, List.flatMap_cons]

/-- The walk over a scope numbers its calls. -/
theorem Analysed.stepIds_eq {onLoop : LoopAnalysis} (hnum : NumbersCalls onLoop)
    {symbols symbols' : List String} {anon anon' : Nat} {stmts : List Statement}
    {items : List AnalyzedItem} (h : Analysed onLoop symbols anon stmts items symbols' anon') :
    items.flatMap AnalyzedItem.stepIds = numberIds anon (callBindingsAll stmts) ∧
      anon' = anon + (callBindingsAll stmts).count none := by
  induction h with
  | nil symbols anon => exact ⟨rfl, rfl⟩
  | emit emit rest ih => exact ih
  | @step _ _ anon anon₁ _ stmt stmts item _ hitem hfresh hdeps rest ih =>
    have hhead : item.stepIds = numberIds anon stmt.callBindings ∧
        anon₁ = anon + stmt.callBindings.count none := by
      cases hitem with
      | letCall name call hretry hopt => exact ⟨rfl, rfl⟩
      | call call hretry hopt => exact ⟨rfl, rfl⟩
      | loop block lp _ h => exact hnum block anon lp anon₁ h
    obtain ⟨hids, hanon⟩ := hhead
    obtain ⟨ihids, ihanon⟩ := ih
    refine ⟨?_, ?_⟩
    · rw [List.flatMap_cons, callBindingsAll, numberIds_append, hids, ihids, hanon]
    · rw [ihanon, hanon, callBindingsAll, List.count_append, Nat.add_assoc]

theorem numbersCalls_analyzeLoop : NumbersCalls analyzeLoop := by
  intro block n lp n' h
  obtain ⟨body, verify, -, hbody, hverify, -, hbodyIr, hverifyIr, -, -, -, hanon⟩ :=
    analyzeLoop_eq_ok h
  obtain ⟨hbodyIds, hbodyAnon⟩ :=
    (analyzeStatementsInner_analysed hbody).stepIds_eq numbersCalls_noNestedLoop
  obtain ⟨hverifyIds, hverifyAnon⟩ :=
    (analyzeStatementsInner_analysed hverify).stepIds_eq numbersCalls_noNestedLoop
  have hcalls : (Statement.loop block).callBindings =
      callBindingsAll block.body ++ callBindingsAll block.verify := rfl
  rw [hcalls]
  refine ⟨?_, ?_⟩
  · rw [AnalyzedItem.stepIds, List.map_append, stepIds_lowerItems hbodyIr,
      stepIds_lowerItems hverifyIr, hbodyIds, hverifyIds, hbodyAnon, numberIds_append]
  · rw [← hanon, hverifyAnon, hbodyAnon, List.count_append, Nat.add_assoc]

/-- The ids of a compiled mission are those of its calls, numbered in source order. -/
theorem stepIds_perm {program : EalProgram} {ir : MissionIr} (h : compile program = .ok ir) :
    (ir.walkCalls.map IrCall.stepId).Perm
      (numberIds 0 (callBindingsAll program.mission.statements)) := by
  obtain ⟨scope, hscope, hsteps, -, -⟩ := compile_eq_ok h
  obtain ⟨hids, -⟩ :=
    (analyzeStatementsInner_analysed hscope).stepIds_eq numbersCalls_analyzeLoop
  rw [MissionIr.walkCalls, stepIds_lowerItems hsteps, ← hids]
  exact (schedule_perm scope.items).flatMap_right _

/-- The ids of a compiled mission are pairwise distinct exactly when the names of the program are
distinct over all scopes and from the generated ids. -/
theorem stepIds_nodup_iff {program : EalProgram} {ir : MissionIr} (h : compile program = .ok ir) :
    (ir.walkCalls.map IrCall.stepId).Nodup ↔ program.NamesDistinct := by
  rw [(stepIds_perm h).nodup_iff, numberIds_nodup_iff]
  rfl

theorem stepIds_nodup_iff_sampleMission :
    ∃ ir, compile sampleMission = .ok ir ∧
      ((ir.walkCalls.map IrCall.stepId).Nodup ↔ sampleMission.NamesDistinct) := by
  have hok : (compile sampleMission).isOk = true := by decide +kernel
  cases h : compile sampleMission with
  | ok ir => exact ⟨ir, rfl, stepIds_nodup_iff h⟩
  | error e =>
    rw [h] at hok
    cases hok

/-- A top-level binding and a binding of the same name inside a loop. -/
def shadowedBinding : EalProgram where
  mission := {
    name := "poll"
    statements := [
      .letCall "state" ⟨"probe", some "cam", .device, [], {}⟩,
      .loop {
        name := some "wait"
        maxIters := 2
        body := [.letCall "state" ⟨"probe", some "cam", .device, [], {}⟩]
        verify := [.call ⟨"check", some "cam", .device, [⟨"state", .varRef "state"⟩], {}⟩] }] }

/-- A binding that is spelled like a generated id. -/
def generatedBinding : EalProgram where
  mission := {
    name := "poll"
    statements := [
      .letCall "__anon_1" ⟨"probe", some "cam", .device, [], {}⟩,
      .call ⟨"check", some "cam", .device, [], {}⟩] }

/-- Both are accepted, and two of their calls have the same id. -/
theorem compiled_step_ids_clash :
    ((compile shadowedBinding).toOption.map fun ir => ir.walkCalls.map IrCall.stepId) =
        some ["state", "state", "__anon_1"] ∧
      ((compile generatedBinding).toOption.map fun ir => ir.walkCalls.map IrCall.stepId) =
        some ["__anon_1", "__anon_1"] := by
  constructor <;> decide +kernel

end EasyNetDaemon.Eal
