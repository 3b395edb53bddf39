import EasyNetDaemon.Eal.CallBound

/-!
# The counters of a report

Every processed result pushes one trace. The counter of completed steps and the number of traces
agree with what was pushed (`Counted`). The counter of skipped steps leaves out the calls of loops:
it agrees with the traces exactly when no call of a loop whose failure counts as a skip has failed
(`report_counters_iff`), because every other skip inside a loop follows from such a failure
(`SkipRooted`).
-/

namespace EasyNetDaemon.Eal

open Library EasyNetDaemon.Core

/-! ## Pushed traces -/

/-- The trace of a processed result. -/
def StepEvent.trace (codec : JsonCodec) (e : StepEvent) : StepTrace :=
  stepTrace codec e.call e.phase e.result

/-- Every trace that a run has pushed, those dropped from the buffer included. -/
def PhaseRunState.pushedTraces (codec : JsonCodec) (st : PhaseRunState) : List StepTrace :=
  st.events.map (StepEvent.trace codec)

theorem outcome_stepTrace (codec : JsonCodec) (call : IrCall) (phaseIdx : Nat)
    (result : StepExecResult) :
    (stepTrace codec call phaseIdx result).outcome = stepOutcome call result := by
  cases result <;> rfl

/-- A push keeps the trace or drops one for it. -/
theorem CappedTraceBuffer.length_push (buffer : CappedTraceBuffer) (trace : StepTrace) :
    (buffer.push trace).entries.length + (buffer.push trace).dropped =
      buffer.entries.length + buffer.dropped + 1 := by
  unfold push
  split
  · simp only [entries, List.length_append, List.length_singleton]
    omega
  · split
    · rename_i hfull
      have hpos : 0 < buffer.tail.length := by
        rw [hfull]
        exact Nat.succ_pos _
      simp only [entries, List.length_append, List.length_singleton, List.length_tail]
      omega
    · simp only [entries, List.length_append, List.length_singleton]
      omega

theorem CappedTraceBuffer.length_foldl_push (traces : List StepTrace) (buffer : CappedTraceBuffer) :
    (traces.foldl push buffer).entries.length + (traces.foldl push buffer).dropped =
      buffer.entries.length + buffer.dropped + traces.length := by
  induction traces generalizing buffer with
  | nil => rfl
  | cons trace traces ih =>
    rw [List.foldl_cons, ih, length_push, List.length_cons]
    omega

/-! ## What a result counts -/

/-- What a result leaves to be captured. -/
def StepExecResult.output : StepExecResult → Option CapturedResult
  | .ok bytes _ _ invocation => some { value := bytes, invocation }
  | _ => none

/-- What a result counts, captures and skips by its outcome. -/
structure CountsResult (call : IrCall) (result : StepExecResult) (st st' : PhaseRunState) :
    Prop where
  allTraces : st'.allTraces = st.allTraces
  events : st'.events = st.events
  completed : st'.completed =
    st.completed + (if stepOutcome call result = .completed then 1 else 0)
  skipped : st'.skipped = st.skipped + (if stepOutcome call result = .skipped then 1 else 0)
  skippedBindings : st'.skippedBindings =
    if stepOutcome call result = .skipped then noteSkipped call.outputBinding st.skippedBindings
    else st.skippedBindings
  captured : st'.captured =
    match result.output with
    | some out => capture call.outputBinding out st.captured
    | none => st.captured
  aborted : st'.aborted = (st.aborted || (decide (stepOutcome call result = .failed) &&
    (!call.optional && call.onFailure == .abort)))

theorem countResult_spec (call : IrCall) (result : StepExecResult) (st : PhaseRunState) :
    CountsResult call result st (countResult call result st) := by
  unfold countResult
  cases result with
  | ok bytes retryCount history invocation =>
    constructor <;> simp [stepOutcome, StepExecResult.output]
  | error message retryCount history =>
    cases hskip : skipsOnFailure call <;>
      constructor <;> simp [stepOutcome, hskip, StepExecResult.output]
  | skippedByDependency message => constructor <;> simp [stepOutcome, StepExecResult.output]

theorem lookup_capture (binding : Option String) (out : CapturedResult) (captured : Captured)
    (b : String) :
    (capture binding out captured).lookup b =
      if binding = some b then some out else captured.lookup b := by
  cases binding with
  | none => rfl
  | some name =>
    rw [capture, List.lookup_cons]
    by_cases hb : b = name
    · subst hb
      simp
    · have hne : ¬ some name = some b := fun habs => hb (Option.some.inj habs).symm
      rw [if_neg hne, beq_eq_false_iff_ne.2 hb]

/-- The counters and the buffer of a state agree with the traces pushed; skips inside loops are not
counted. -/
structure Counted (codec : JsonCodec) (st : PhaseRunState) : Prop where
  traces : st.allTraces = (st.pushedTraces codec).foldl CappedTraceBuffer.push .empty
  completed : st.completed = st.events.countP fun e => e.outcome == .completed
  skipped : st.skipped = st.events.countP fun e => !e.inLoop && e.outcome == .skipped

section Counted

variable {codec : JsonCodec} {st : PhaseRunState}

theorem Counted.processResult (h : Counted codec st) (phaseIdx : Nat) (call : IrCall)
    (result : StepExecResult) :
    Counted codec (processResult codec phaseIdx false st call result) where
  traces := by
    have hcount := countResult_spec call result st
    simp only [Eal.processResult, PhaseRunState.pushedTraces, hcount.allTraces, hcount.events,
      h.traces, List.map_append, List.foldl_append]
    rfl
  completed := by
    have hcount := countResult_spec call result st
    simp only [Eal.processResult, hcount.completed, hcount.events, h.completed, List.countP_append]
    simp [List.countP_cons, StepEvent.outcome]
  skipped := by
    have hcount := countResult_spec call result st
    simp only [Eal.processResult, hcount.skipped, hcount.events, h.skipped, List.countP_append]
    simp [List.countP_cons, StepEvent.outcome]

theorem Counted.processInBlock (h : Counted codec st) (phaseIdx : Nat) (iter : IterScope)
    (call : IrCall) (result : StepExecResult) :
    Counted codec (processInBlock codec phaseIdx st iter call result).1 where
  traces := by
    simp only [Eal.processInBlock, Eal.processResult, PhaseRunState.pushedTraces,
      (countResult_spec _ _ _).allTraces, (countResult_spec _ _ _).events, h.traces,
      List.map_append, List.foldl_append]
    rfl
  completed := by
    simp only [Eal.processInBlock, Eal.processResult, (countResult_spec _ _ _).completed,
      (countResult_spec _ _ _).events, h.completed, List.countP_append]
    simp [List.countP_cons, StepEvent.outcome]
  skipped := by
    simp only [Eal.processInBlock, Eal.processResult, (countResult_spec _ _ _).events, h.skipped,
      List.countP_append]
    simp

theorem Counted.processBatch (h : Counted codec st) (phaseIdx : Nat) (results : List BatchResult) :
    Counted codec (processBatch codec phaseIdx st results) := by
  unfold Eal.processBatch
  induction results generalizing st with
  | nil => exact h
  | cons r results ih => exact ih (h.processResult phaseIdx r.call r.result)

end Counted

/-! ## Skips inside loops -/

/-- A failure that counts as a skip. -/
def StepExecResult.failed : StepExecResult → Bool
  | .error .. => true
  | _ => false

/-- Some call of a loop has failed, and its failure counts as a skip. -/
def LoopSkipRoot (st : PhaseRunState) : Prop :=
  ∃ e ∈ st.events, e.inLoop = true ∧ skipsOnFailure e.call = true ∧ e.result.failed = true

/-- Skips inside loops have a root. -/
def SkipRooted (st : PhaseRunState) : Prop :=
  (∃ e ∈ st.events, e.inLoop = true ∧ e.outcome = .skipped) → LoopSkipRoot st

theorem mem_skipped_of_resolveRefs {codec : JsonCodec} {captured : Captured} {skipped : List String}
    {refs : List (String × String)} {args : List (String × Json)} {binding arg : String}
    (h : resolveRefs codec captured skipped refs args = .error (.upstreamSkipped binding arg)) :
    binding ∈ skipped := by
  induction refs generalizing args with
  | nil => cases h
  | cons ref rest ih =>
    obtain ⟨key, name⟩ := ref
    unfold resolveRefs at h
    split at h
    · rename_i hmem
      cases h
      exact List.contains_iff_mem.1 hmem
    · split at h
      · cases h
      · split at h
        · cases h
        · exact ih h

section Rooted

variable {codec : JsonCodec} {phaseIdx : Nat} {st : PhaseRunState}

theorem events_processInBlock (st : PhaseRunState) (iter : IterScope) (call : IrCall)
    (result : StepExecResult) :
    (processInBlock codec phaseIdx st iter call result).1.events =
      st.events ++ [{ call, phase := phaseIdx, inLoop := true, result }] := by
  simp only [processInBlock, processResult, (countResult_spec _ _ _).events]

theorem events_processResult (inLoop : Bool) (st : PhaseRunState) (call : IrCall)
    (result : StepExecResult) :
    (processResult codec phaseIdx inLoop st call result).events =
      st.events ++ [{ call, phase := phaseIdx, inLoop, result }] := by
  simp only [processResult, (countResult_spec _ _ _).events]

/-- The event of a result of a batch. -/
def BatchResult.event (phaseIdx : Nat) (r : BatchResult) : StepEvent where
  call := r.call
  phase := phaseIdx
  inLoop := false
  result := r.result

theorem events_processBatch (codec : JsonCodec) (phaseIdx : Nat) (st : PhaseRunState)
    (results : List BatchResult) :
    (processBatch codec phaseIdx st results).events =
      st.events ++ results.map (BatchResult.event phaseIdx) := by
  unfold processBatch
  induction results generalizing st with
  | nil => rw [List.map_nil, List.append_nil, List.foldl_nil]
  | cons r results ih =>
    rw [List.foldl_cons, ih, events_processResult, List.append_assoc]
    rfl

theorem LoopSkipRoot.mono {st' : PhaseRunState} (h : LoopSkipRoot st)
    (hsub : st.events ⊆ st'.events) : LoopSkipRoot st' := by
  obtain ⟨e, he, hrest⟩ := h
  exact ⟨e, hsub he, hrest⟩

/-- A top-level result is no skip inside a loop. -/
theorem SkipRooted.processResult (h : SkipRooted st) (call : IrCall) (result : StepExecResult) :
    SkipRooted (processResult codec phaseIdx false st call result) := by
  rintro ⟨e, he, hloop, hskip⟩
  rw [events_processResult] at he
  rcases List.mem_append.1 he with he | he
  · refine (h ⟨e, he, hloop, hskip⟩).mono ?_
    rw [events_processResult]
    exact List.subset_append_left _ _
  · rw [List.mem_singleton.1 he] at hloop
    cases hloop

theorem SkipRooted.processBatch (h : SkipRooted st) (results : List BatchResult) :
    SkipRooted (processBatch codec phaseIdx st results) := by
  unfold Eal.processBatch
  induction results generalizing st with
  | nil => exact h
  | cons r results ih => exact ih (h.processResult r.call r.result)

/-- Inside an iteration, skipped names have a root too. -/
structure IterRooted (codec : JsonCodec) (st : PhaseRunState) (iter : IterScope) : Prop where
  counted : Counted codec st
  rooted : SkipRooted st
  bindings : iter.skippedBindings ≠ [] → LoopSkipRoot st

/-- A result of a block: when it is a skip, it has a root in the new state. -/
theorem IterRooted.processInBlock {iter : IterScope} (h : IterRooted codec st iter)
    (call : IrCall) (result : StepExecResult)
    (hroot : stepOutcome call result = .skipped →
      LoopSkipRoot (processInBlock codec phaseIdx st iter call result).1) :
    IterRooted codec (processInBlock codec phaseIdx st iter call result).1
      (Eal.processInBlock codec phaseIdx st iter call result).2 where
  counted := h.counted.processInBlock phaseIdx iter call result
  rooted := by
    rintro ⟨e, he, hloop, hskip⟩
    rw [events_processInBlock] at he
    rcases List.mem_append.1 he with he | he
    · refine (h.rooted ⟨e, he, hloop, hskip⟩).mono ?_
      rw [events_processInBlock]
      exact List.subset_append_left _ _
    · rw [List.mem_singleton.1 he] at hskip
      exact hroot hskip
  bindings := by
    intro hne
    by_cases hskip : stepOutcome call result = .skipped
    · exact hroot hskip
    · refine (h.bindings ?_).mono ?_
      · simp only [Eal.processInBlock, Eal.processResult, (countResult_spec _ _ _).skippedBindings,
          if_neg hskip] at hne
        exact hne
      · rw [events_processInBlock]
        exact List.subset_append_left _ _

/-- A result of the call itself is its own root. -/
theorem loopSkipRoot_of_ran {iter : IterScope} {call : IrCall} {result : StepExecResult}
    (hran : result.ran = true) (hskip : stepOutcome call result = .skipped) :
    LoopSkipRoot (processInBlock codec phaseIdx st iter call result).1 := by
  refine ⟨{ call, phase := phaseIdx, inLoop := true, result }, ?_, rfl, ?_⟩
  · rw [events_processInBlock]
    exact List.mem_append_right _ List.mem_cons_self
  · cases result with
    | ok bytes retryCount history invocation => cases hskip
    | error message retryCount history =>
      cases hoff : skipsOnFailure call with
      | true => exact ⟨rfl, rfl⟩
      | false => simp [stepOutcome, hoff] at hskip
    | skippedByDependency message => cases hran

theorem loopRule_iterRooted (env : RunEnv) (phaseIdx : Nat) :
    LoopRule env phaseIdx (fun st _ => Counted env.codec st ∧ SkipRooted st)
      (fun st iter _ => IterRooted env.codec st iter) where
  enter := fun st _ h => ⟨h.1, h.2, fun habs => absurd rfl habs⟩
  leave := fun st iter _ h => ⟨h.counted, h.rooted⟩
  abort := fun st _ h => ⟨⟨h.1.traces, h.1.completed, h.1.skipped⟩, h.2⟩
  exported := fun st _ _ _ h => ⟨⟨h.1.traces, h.1.completed, h.1.skipped⟩, h.2⟩
  block := {
    skipped := by
      intro call rest st iter log binding arg h hargs
      refine h.processInBlock _ _ fun _ => ?_
      refine (h.bindings (List.ne_nil_of_mem (mem_skipped_of_resolveRefs hargs))).mono ?_
      rw [events_processInBlock]
      exact List.subset_append_left _ _
    unresolved := by
      intro call rest st iter log e h _
      exact h.processInBlock _ _ (loopSkipRoot_of_ran rfl)
    dispatched := by
      intro call rest st iter log args result log' h _ hexec
      have hran :=
        (executeStepWithRetry_caused env none (blockTask phaseIdx st iter call args) log).ran
      rw [hexec] at hran
      -- the output kept for the decision touches no skipped name
      have hkept : IterRooted env.codec st (iter.keepLast rest result) := by
        refine ⟨h.counted, h.rooted, fun hne => h.bindings fun hnil => hne ?_⟩
        unfold IterScope.keepLast IterScope.keepOutput
        split
        · split <;> exact hnil
        · exact hnil
      exact hkept.processInBlock _ _ (loopSkipRoot_of_ran hran) }

end Rooted

/-- At the end of a run. -/
theorem counted_execute (env : RunEnv) (ir : MissionIr) :
    Counted env.codec (execute env ir).1 ∧ SkipRooted (execute env ir).1 := by
  refine execute_invariant (I := fun st _ => Counted env.codec st ∧ SkipRooted st) ?_ ?_
  · refine ⟨⟨rfl, rfl, rfl⟩, ?_⟩
    rintro ⟨e, he, -⟩
    cases he
  · intro job _ st log _ h
    cases job with
    | batch phaseIdx many calls =>
      exact ⟨h.1.processBatch phaseIdx _, h.2.processBatch _⟩
    | loop phaseIdx lp => exact (loopRule_iterRooted env phaseIdx).executeLoop lp h

/-! ## The report -/

theorem countP_pushedTraces (codec : JsonCodec) (st : PhaseRunState) (outcome : StepOutcome) :
    (st.pushedTraces codec).countP (fun t => t.outcome == outcome) =
      st.events.countP fun e => e.outcome == outcome := by
  rw [PhaseRunState.pushedTraces, List.countP_map]
  refine List.countP_congr fun e _ => ?_
  rw [Function.comp_apply, StepEvent.trace, outcome_stepTrace, StepEvent.outcome]

/-- Skips outside and inside of loops. -/
theorem countP_skipped (events : List StepEvent) :
    events.countP (fun e => e.outcome == .skipped) =
      events.countP (fun e => !e.inLoop && e.outcome == .skipped) +
        events.countP fun e => e.inLoop && e.outcome == .skipped := by
  induction events with
  | nil => rfl
  | cons e events ih =>
    rw [List.countP_cons, List.countP_cons, List.countP_cons, ih]
    cases e.inLoop <;> simp <;> omega

theorem outcome_eq_skipped_of_failed {call : IrCall} {result : StepExecResult}
    (hskip : skipsOnFailure call = true) (hfailed : result.failed = true) :
    stepOutcome call result = .skipped := by
  cases result with
  | ok bytes retryCount history invocation => cases hfailed
  | error message retryCount history => exact if_pos hskip
  | skippedByDependency message => rfl

/-- The counter of skips is right exactly when no loop has skipped anything of its own accord. -/
theorem skipped_eq_countP_iff {codec : JsonCodec} {st : PhaseRunState} (hcount : Counted codec st)
    (hroot : SkipRooted st) :
    st.skipped = st.events.countP (fun e => e.outcome == .skipped) ↔
      ∀ e ∈ st.events, e.inLoop = true → skipsOnFailure e.call = true →
        e.result.failed = false := by
  rw [hcount.skipped, countP_skipped, Nat.left_eq_add, List.countP_eq_zero]
  constructor
  · intro hnone e he hloop hskip
    cases hfailed : e.result.failed with
    | false => rfl
    | true =>
      refine absurd ?_ (hnone e he)
      rw [hloop, StepEvent.outcome, outcome_eq_skipped_of_failed hskip hfailed]
      rfl
  · intro hnone e he hskipped
    obtain ⟨hloop, hskip⟩ := Bool.and_eq_true_iff.1 hskipped
    obtain ⟨e', he', hloop', hoff, hfailed⟩ := hroot ⟨e, he, hloop, beq_iff_eq.1 hskip⟩
    rw [hnone e' he' hloop' hoff] at hfailed
    cases hfailed

/-- The counters of a report agree with the pushed traces, `steps_skipped` exactly when no call of a
loop whose failure counts as a skip has failed. -/
theorem report_counters_iff (env : RunEnv) (ir : MissionIr) :
    (execute env ir).1.allTraces =
        ((execute env ir).1.pushedTraces env.codec).foldl CappedTraceBuffer.push .empty ∧
      (executeMission env ir).stepsCompleted =
        ((execute env ir).1.pushedTraces env.codec).countP (fun t => t.outcome == .completed) ∧
      ((execute env ir).1.pushedTraces env.codec).length =
        (executeMission env ir).stepTraces.length + (executeMission env ir).tracesTruncated ∧
      ((executeMission env ir).stepsSkipped =
          ((execute env ir).1.pushedTraces env.codec).countP (fun t => t.outcome == .skipped) ↔
        ∀ e ∈ (execute env ir).1.events, e.inLoop = true → skipsOnFailure e.call = true →
          e.result.failed = false) := by
  obtain ⟨hcount, hroot⟩ := counted_execute env ir
  refine ⟨hcount.traces, ?_, ?_, ?_⟩
  · rw [countP_pushedTraces]
    exact hcount.completed
  · have hlen := CappedTraceBuffer.length_foldl_push
      ((execute env ir).1.pushedTraces env.codec) .empty
    rw [← hcount.traces] at hlen
    show _ = (execute env ir).1.allTraces.entries.length + (execute env ir).1.allTraces.dropped
    rw [hlen]
    exact (Nat.zero_add _).symm
  · rw [countP_pushedTraces]
    exact skipped_eq_countP_iff hcount hroot

/-- A loop whose body has an optional call. -/
def optionalInLoop : EalProgram where
  mission := {
    name := "watch"
    statements := [.loop {
      name := none
      maxIters := 1
      body := [.call ⟨"photo.capture", some "cam", .device, [], { optional := true }⟩]
      verify := [.call ⟨"health.check", some "cam", .device, [], {}⟩] }] }

/-- The optional call fails and is recorded as skipped, but the report counts no skipped step. -/
theorem skipped_in_loop_not_counted :
    ∃ ir env, compile optionalInLoop = .ok ir ∧ (executeMission env ir).stepsSkipped = 0 ∧
      (executeMission env ir).stepTraces.map StepTrace.outcome = [.skipped, .completed] ∧
      (executeMission env ir).outcome = .completed := by
  have hrun : (compile optionalInLoop).toOption.any (fun ir =>
      let report := executeMission (sampleEnv fun request =>
        if request.ability.text = "photo.capture" then .error (.unavailable "cam")
        else .ok (sampleOutcome (.object [("done", .bool true)]))) ir
      decide (report.stepsSkipped = 0 ∧
        report.stepTraces.map StepTrace.outcome = [.skipped, .completed] ∧
        report.outcome = .completed)) = true := by
    decide +kernel
  obtain ⟨ir, h, hrun⟩ := exists_ok_of_any hrun
  exact ⟨ir, _, h, of_decide_eq_true hrun⟩

end EasyNetDaemon.Eal
