import EasyNetDaemon.Eal.JobPlan
import EasyNetDaemon.Eal.ReportCounters
import Mathlib.Data.List.Find
import Mathlib.Data.List.Pairwise

/-!
# Skips, failures and aborts in a run without loops

What a run has captured, skipped and aborted is what its processed results say (`EventFacts`). A
call is prepared by scanning its references in key order (`resolveRefs_spec`), and its producers
have all been processed before (`Progress`). So a step is skipped exactly for the reasons of
`Explained.skipped_iff`, fails for an input or for what its dispatches came to, only calls with
completed producers are dispatched, and nothing is dispatched after a failure that aborts the
mission (`skipDiscipline_execute`).
-/

namespace EasyNetDaemon.Eal

open Library EasyNetDaemon.Core

/-! ## What the results of a run say -/

/-- Whether a result is a well-formed value. -/
def StepExecResult.wellFormed (codec : JsonCodec) : StepExecResult → Bool
  | .ok bytes _ _ _ => (codec.fromSlice bytes).isOk
  | _ => false

theorem StepExecResult.wellFormed_iff {codec : JsonCodec} {result : StepExecResult} :
    result.wellFormed codec = true ↔
      ∃ out, result.output = some out ∧ (codec.fromSlice out.value).isOk = true := by
  cases result <;> simp [wellFormed, output]

/-- A step with an output has completed. -/
theorem StepEvent.outcome_of_output {e : StepEvent} {out : CapturedResult}
    (h : e.result.output = some out) : e.outcome = .completed := by
  unfold outcome
  cases hresult : e.result with
  | ok bytes retryCount history invocation => rfl
  | _ =>
    rw [hresult] at h
    cases h

/-- A captured well-formed value of the binding. -/
def usable (codec : JsonCodec) (events : List StepEvent) (b : String) : Bool :=
  events.any fun e => e.call.outputBinding == some b && e.result.wellFormed codec

/-- The producer of the binding was skipped. -/
def producerSkipped (events : List StepEvent) (b : String) : Bool :=
  events.any fun e => e.call.outputBinding == some b && e.outcome == .skipped

/-- The first reference, in key order, that is not a captured well-formed value. -/
def firstUnusable (codec : JsonCodec) (events : List StepEvent) (refs : List (String × String)) :
    Option (String × String) :=
  refs.find? fun ref => !usable codec events ref.2

/-- A failure that aborts the mission. -/
structure StepEvent.Aborts (e : StepEvent) : Prop where
  failed : e.outcome = .failed
  required : e.call.optional = false
  policy : e.call.onFailure = .abort

/-- Why a step is skipped, and why it fails. -/
structure Explained (env : RunEnv) (events : List StepEvent) (log : DispatchLog) (e : StepEvent) :
    Prop where
  /-- It is skipped for its own failure, or because the first input that is not there was
  skipped. -/
  skipped_iff : e.outcome = .skipped ↔
    (skipsOnFailure e.call = true ∧ e.result.failed = true) ∨
      ∃ ref, firstUnusable env.codec events e.call.inputRefs = some ref ∧
        producerSkipped events ref.2 = true
  /-- It fails because the first input that is not there was not skipped either, or its failure is
  the answer to one of its dispatches, the deadline, or the want of a thread. -/
  failed : e.result.failed = true →
    (∃ ref, firstUnusable env.codec events e.call.inputRefs = some ref ∧
        producerSkipped events ref.2 = false) ∨
      ∃ task, task.call = e.call ∧ task.phase = e.phase ∧ Caused env task log e.result

/-- What holds in every run of a mission without loops, by its processed results and its
dispatches. -/
structure SkipDiscipline (env : RunEnv) (ir : MissionIr) (events : List StepEvent)
    (log : DispatchLog) : Prop where
  /-- Results and dispatches are recorded with the phase of their step. -/
  placed : (∀ e ∈ events, ir.CallIn e.phase e.call) ∧ ∀ r ∈ log, ir.CallIn r.phase r.call
  explained : ∀ e ∈ events, Explained env events log e
  /-- The producers of a dispatched call have completed. -/
  dispatched : ∀ r ∈ log, ∀ ref ∈ r.call.inputRefs, ∀ e ∈ events,
    e.call.outputBinding = some ref.2 → e.outcome = .completed
  /-- A failure that aborts ends the dispatches of later phases and of optional calls. -/
  aborts : ∀ e ∈ events, e.Aborts → ∀ r ∈ log,
    r.phase ≤ e.phase ∧ (r.phase = e.phase → r.call.optional = false)

/-! ## The state and its events -/

/-- Captured outputs, skipped names and the abort flag are those of the processed results. -/
structure EventFacts (st : PhaseRunState) : Prop where
  captured : ∀ b result, st.captured.lookup b = some result ↔
    ∃ e ∈ st.events, e.call.outputBinding = some b ∧ e.result.output = some result
  skipped : ∀ b, b ∈ st.skippedBindings ↔
    ∃ e ∈ st.events, e.call.outputBinding = some b ∧ e.outcome = .skipped
  aborted : st.aborted = true ↔ ∃ e ∈ st.events, e.Aborts
  unique : (st.events.map StepEvent.call).Pairwise NoShare

variable {codec : JsonCodec} {e : StepEvent}

/-- A processed result whose binding is new. -/
theorem EventFacts.processResult {phaseIdx : Nat} {st : PhaseRunState} (h : EventFacts st)
    (call : IrCall) (result : StepExecResult) (hnew : ∀ e ∈ st.events, NoShare e.call call) :
    EventFacts (processResult codec phaseIdx false st call result) where
  captured := by
    intro b out
    have hcaptured : (Eal.processResult codec phaseIdx false st call result).captured = _ :=
      (countResult_spec call result st).captured
    rw [events_processResult, hcaptured]
    simp only [List.mem_append, List.mem_singleton, or_and_right, exists_or, exists_eq_left]
    rw [← h.captured]
    cases hout : result.output with
    | none => simp
    | some out' =>
      simp only [lookup_capture, Option.some.injEq]
      by_cases hb : call.outputBinding = some b
      · -- no earlier result is bound to the same name
        have hnone : st.captured.lookup b ≠ some out := by
          intro habs
          obtain ⟨e, he, heb, -⟩ := (h.captured b out).1 habs
          exact hnew e he b heb hb
        simp [hb, hnone]
      · simp [hb]
  skipped := by
    intro b
    have hskipped : (Eal.processResult codec phaseIdx false st call result).skippedBindings = _ :=
      (countResult_spec call result st).skippedBindings
    rw [events_processResult, hskipped]
    simp only [List.mem_append, List.mem_singleton, or_and_right, exists_or, exists_eq_left]
    rw [← h.skipped]
    by_cases hskip : stepOutcome call result = .skipped
    · rw [if_pos hskip]
      cases hb : call.outputBinding with
      | none => simp [noteSkipped]
      | some name => simp [noteSkipped, StepEvent.outcome, hskip, or_comm, eq_comm]
    · rw [if_neg hskip]
      simp [StepEvent.outcome, hskip]
  aborted := by
    have haborted : (Eal.processResult codec phaseIdx false st call result).aborted = _ :=
      (countResult_spec call result st).aborted
    rw [events_processResult, haborted, Bool.or_eq_true, h.aborted]
    simp only [List.mem_append, List.mem_singleton, or_and_right, exists_or, exists_eq_left]
    refine or_congr_right ?_
    simp only [Bool.and_eq_true, decide_eq_true_eq, Bool.not_eq_true', beq_iff_eq]
    constructor
    · rintro ⟨hfailed, hreq, hpolicy⟩
      exact ⟨hfailed, hreq, hpolicy⟩
    · rintro ⟨hfailed, hreq, hpolicy⟩
      exact ⟨hfailed, hreq, hpolicy⟩
  unique := by
    rw [events_processResult, List.map_append, List.pairwise_append]
    refine ⟨h.unique, List.pairwise_singleton _ _, ?_⟩
    intro c hc c' hc'
    obtain ⟨e, he, rfl⟩ := List.mem_map.1 hc
    rw [List.mem_singleton.1 hc']
    exact hnew e he

theorem EventFacts.processBatch {phaseIdx : Nat} {st : PhaseRunState} (h : EventFacts st)
    (results : List BatchResult)
    (hnew : (st.events.map StepEvent.call ++ results.map BatchResult.call).Pairwise NoShare) :
    EventFacts (processBatch codec phaseIdx st results) := by
  unfold Eal.processBatch
  induction results generalizing st with
  | nil => exact h
  | cons r results ih =>
    rw [List.foldl_cons]
    refine ih (h.processResult r.call r.result ?_) ?_
    · intro e he
      exact (List.pairwise_append.1 hnew).2.2 _ (List.mem_map_of_mem he) _ List.mem_cons_self
    · rw [events_processResult, List.map_append, List.append_assoc]
      exact hnew

/-! ## Preparing a call -/

/-- A captured well-formed value of the binding, in a state. -/
def usableIn (codec : JsonCodec) (captured : Captured) (b : String) : Bool :=
  match captured.lookup b with
  | some result => (codec.fromSlice result.value).isOk
  | none => false

/-- Resolving references: the first one that is not usable decides. -/
theorem resolveRefs_spec {codec : JsonCodec} {captured : Captured} {skipped : List String}
    (hdisj : ∀ b ∈ skipped, captured.lookup b = none) (refs : List (String × String))
    (args : List (String × Json)) :
    (refs.find? (fun ref => !usableIn codec captured ref.2) = none ∧
        ∃ json, resolveRefs codec captured skipped refs args = .ok json) ∨
      ∃ ref, refs.find? (fun ref => !usableIn codec captured ref.2) = some ref ∧
        (ref.2 ∈ skipped ∧ resolveRefs codec captured skipped refs args =
            .error (.upstreamSkipped ref.2 ref.1) ∨
          ref.2 ∉ skipped ∧ ∃ e, resolveRefs codec captured skipped refs args =
            .error (.other e)) := by
  induction refs generalizing args with
  | nil => exact Or.inl ⟨rfl, _, rfl⟩
  | cons ref rest ih =>
    obtain ⟨key, b⟩ := ref
    by_cases hmem : b ∈ skipped
    · have huse : usableIn codec captured b = false := by
        rw [usableIn, hdisj b hmem]
      refine Or.inr ⟨(key, b), ?_, Or.inl ⟨hmem, ?_⟩⟩
      · rw [List.find?_cons, huse]
        rfl
      · rw [resolveRefs, if_pos (List.contains_iff_mem.2 hmem)]
    · have hcontains : ¬ skipped.contains b = true := fun habs =>
        hmem (List.contains_iff_mem.1 habs)
      cases hlookup : captured.lookup b with
      | none =>
        have huse : usableIn codec captured b = false := by
          rw [usableIn, hlookup]
        refine Or.inr ⟨(key, b), ?_, Or.inr ⟨hmem, unresolvedRef b, ?_⟩⟩
        · rw [List.find?_cons, huse]
          rfl
        · simp only [resolveRefs, if_neg hcontains, hlookup]
      | some result =>
        cases hparse : codec.fromSlice result.value with
        | error e =>
          have huse : usableIn codec captured b = false := by
            simp only [usableIn, hlookup, hparse]
            rfl
          refine Or.inr ⟨(key, b), ?_, Or.inr ⟨hmem, invalidRef key b e, ?_⟩⟩
          · rw [List.find?_cons, huse]
            rfl
          · simp only [resolveRefs, if_neg hcontains, hlookup, hparse]
        | ok value =>
          have huse : usableIn codec captured b = true := by
            simp only [usableIn, hlookup, hparse]
            rfl
          have hfind : ((key, b) :: rest).find? (fun ref => !usableIn codec captured ref.2) =
              rest.find? (fun ref => !usableIn codec captured ref.2) := by
            rw [List.find?_cons, huse]
            rfl
          simp only [hfind, resolveRefs, if_neg hcontains, hlookup, hparse]
          exact ih _

namespace EventFacts

variable {st : PhaseRunState} (h : EventFacts st)

include h

/-- Two results bound to one name are the same. -/
theorem event_unique {e' : StepEvent} (he : e ∈ st.events) (he' : e' ∈ st.events) {b : String}
    (hb : e.call.outputBinding = some b) (hb' : e'.call.outputBinding = some b) : e = e' := by
  by_contra hne
  have hsymm : Std.Symm fun x y : StepEvent => NoShare x.call y.call := ⟨fun _ _ hxy => hxy.symm⟩
  exact (List.pairwise_map.1 h.unique).forall he he' hne b hb hb'

theorem usableIn_captured (codec : JsonCodec) (b : String) :
    usableIn codec st.captured b = usable codec st.events b := by
  rw [Bool.eq_iff_iff, usable, List.any_eq_true]
  simp only [Bool.and_eq_true, beq_iff_eq, StepExecResult.wellFormed_iff]
  constructor
  · intro huse
    cases hlookup : st.captured.lookup b with
    | none =>
      rw [usableIn, hlookup] at huse
      cases huse
    | some out =>
      rw [usableIn, hlookup] at huse
      obtain ⟨e, he, hb, hout⟩ := (h.captured b out).1 hlookup
      exact ⟨e, he, hb, out, hout, huse⟩
  · rintro ⟨e, he, hb, out, hout, hwf⟩
    rw [usableIn, (h.captured b out).2 ⟨e, he, hb, hout⟩]
    exact hwf

theorem mem_skippedBindings (b : String) :
    b ∈ st.skippedBindings ↔ producerSkipped st.events b = true := by
  rw [h.skipped, producerSkipped, List.any_eq_true]
  simp only [Bool.and_eq_true, beq_iff_eq]

theorem lookup_skipped (b : String) (hb : b ∈ st.skippedBindings) :
    st.captured.lookup b = none := by
  cases hlookup : st.captured.lookup b with
  | none => rfl
  | some out =>
    obtain ⟨e, he, heb, hskip⟩ := (h.skipped b).1 hb
    obtain ⟨e', he', heb', hout⟩ := (h.captured b out).1 hlookup
    rw [h.event_unique he he' heb heb', StepEvent.outcome_of_output hout] at hskip
    cases hskip

/-- How the calls of a batch are prepared, by the results so far. -/
theorem prepare_spec (codec : JsonCodec) (phaseIdx : Nat) (call : IrCall) :
    (firstUnusable codec st.events call.inputRefs = none ∧
        (st.prepare codec phaseIdx call).isOk = true) ∨
      ∃ ref, firstUnusable codec st.events call.inputRefs = some ref ∧
        (producerSkipped st.events ref.2 = true ∧ st.prepare codec phaseIdx call =
            .error (.skippedByDependency (dependencySkipped ref.2 ref.1)) ∨
          producerSkipped st.events ref.2 = false ∧ ∃ e, st.prepare codec phaseIdx call =
            .error (.error e 0 [])) := by
  have hfirst : call.inputRefs.find? (fun ref => !usableIn codec st.captured ref.2) =
      firstUnusable codec st.events call.inputRefs := by
    simp only [firstUnusable, h.usableIn_captured]
  have hspec := @resolveRefs_spec codec _ _ h.lookup_skipped call.inputRefs
    (call.staticArguments.asObject.getD [])
  rw [hfirst] at hspec
  rcases hspec with ⟨hnone, json, hok⟩ | ⟨ref, hsome, ⟨hmem, herr⟩ | ⟨hmem, e, herr⟩⟩
  · refine Or.inl ⟨hnone, ?_⟩
    simp only [PhaseRunState.prepare, prepareCall, resolveArguments, hok]
    rfl
  · refine Or.inr ⟨ref, hsome, Or.inl ⟨(h.mem_skippedBindings _).1 hmem, ?_⟩⟩
    simp only [PhaseRunState.prepare, prepareCall, resolveArguments, herr]
    rfl
  · refine Or.inr ⟨ref, hsome, Or.inr ⟨?_, e, ?_⟩⟩
    · rw [← Bool.not_eq_true, ← h.mem_skippedBindings]
      exact hmem
    · simp only [PhaseRunState.prepare, prepareCall, resolveArguments, herr]
      rfl

/-- The producers of a prepared call have completed. -/
theorem producers_of_prepared {phaseIdx : Nat} {call : IrCall}
    (hok : (st.prepare codec phaseIdx call).isOk = true) (ref : String × String)
    (href : ref ∈ call.inputRefs) :
    ∃ e ∈ st.events, e.call.outputBinding = some ref.2 ∧ e.outcome = .completed := by
  rcases h.prepare_spec codec phaseIdx call with ⟨hnone, -⟩ |
    ⟨ref', -, ⟨-, herr⟩ | ⟨-, e, herr⟩⟩
  · have huse := List.find?_eq_none.1 hnone ref href
    rw [Bool.not_eq_true', Bool.not_eq_false, usable, List.any_eq_true] at huse
    simp only [Bool.and_eq_true, beq_iff_eq, StepExecResult.wellFormed_iff] at huse
    obtain ⟨e, he, hb, out, hout, -⟩ := huse
    exact ⟨e, he, hb, StepEvent.outcome_of_output hout⟩
  · rw [herr] at hok
    cases hok
  · rw [herr] at hok
    cases hok

end EventFacts

/-! ## Why a step is skipped -/

theorem stepOutcome_ran_iff {call : IrCall} {result : StepExecResult} (hran : result.ran = true) :
    stepOutcome call result = .skipped ↔ skipsOnFailure call = true ∧ result.failed = true := by
  cases result with
  | ok bytes retryCount history invocation => simp [stepOutcome, StepExecResult.failed]
  | error message retryCount history =>
    cases hskip : skipsOnFailure call <;> simp [stepOutcome, StepExecResult.failed, hskip]
  | skippedByDependency message => cases hran

/-- A result of a batch is explained by the results before it. -/
theorem explained_of_produced {env : RunEnv} {phaseIdx : Nat} {st : PhaseRunState}
    {log : DispatchLog} (h : EventFacts st) {r : BatchResult}
    (hr : Produced env (st.prepare env.codec phaseIdx) log r) :
    Explained env st.events log (r.event phaseIdx) := by
  have hcall : (r.event phaseIdx).call = r.call := rfl
  have houtcome : (r.event phaseIdx).outcome = stepOutcome r.call r.result := rfl
  have hresult : (r.event phaseIdx).result = r.result := rfl
  rcases hr with herr | ⟨task, hok, hcaused⟩
  · rcases h.prepare_spec env.codec phaseIdx r.call with ⟨-, habs⟩ |
      ⟨ref, hsome, ⟨hskip, heq⟩ | ⟨hskip, e, heq⟩⟩
    · rw [herr] at habs
      cases habs
    · -- an input was skipped
      obtain hres := Except.error.inj (herr.symm.trans heq)
      constructor
      · rw [houtcome, hres]
        exact ⟨fun _ => Or.inr ⟨ref, hsome, hskip⟩, fun _ => rfl⟩
      · rw [hresult, hres]
        intro habs
        cases habs
    · -- an input is missing or malformed, and was not skipped
      obtain hres := Except.error.inj (herr.symm.trans heq)
      refine ⟨?_, fun _ => Or.inl ⟨ref, hsome, hskip⟩⟩
      rw [houtcome, hresult, hcall, hres, stepOutcome_ran_iff rfl, hsome]
      simp [hskip]
  · -- prepared: the result is of the step's own
    have hnone : firstUnusable env.codec st.events r.call.inputRefs = none := by
      rcases h.prepare_spec env.codec phaseIdx r.call with ⟨hnone, -⟩ |
        ⟨ref, -, ⟨-, heq⟩ | ⟨-, e, heq⟩⟩
      · exact hnone
      · cases hok.symm.trans heq
      · cases hok.symm.trans heq
    constructor
    · rw [houtcome, hresult, hcall, stepOutcome_ran_iff hcaused.ran, hnone]
      simp
    · intro _
      obtain ⟨args, -, rfl⟩ := prepareCall_eq_ok hok
      exact Or.inr ⟨_, rfl, rfl, hcaused⟩

theorem any_append_of_not_bound {events new : List StepEvent} {b : String}
    (hnew : ∀ e ∈ new, e.call.outputBinding ≠ some b) (p : StepEvent → Bool) :
    ((events ++ new).any fun e => e.call.outputBinding == some b && p e) =
      events.any fun e => e.call.outputBinding == some b && p e := by
  have hnone : (new.any fun e => e.call.outputBinding == some b && p e) = false := by
    rw [List.any_eq_false]
    intro e he
    rw [beq_eq_false_iff_ne.2 (hnew e he), Bool.false_and]
    exact Bool.false_ne_true
  rw [List.any_append, hnone, Bool.or_false]

/-- Results that export nothing that the step reads do not change why it is skipped or fails. -/
theorem Explained.append {env : RunEnv} {events new : List StepEvent} {log : DispatchLog}
    (h : Explained env events log e)
    (hnew : ∀ ref ∈ e.call.inputRefs, ∀ e' ∈ new, e'.call.outputBinding ≠ some ref.2)
    (more : DispatchLog) : Explained env (events ++ new) (log ++ more) e := by
  have hfirst : firstUnusable env.codec (events ++ new) e.call.inputRefs =
      firstUnusable env.codec events e.call.inputRefs := by
    refine List.find?_congr fun ref href => ?_
    rw [usable, any_append_of_not_bound (hnew ref href) fun e => e.result.wellFormed env.codec,
      usable]
  have hskipped : ∀ ref, firstUnusable env.codec events e.call.inputRefs = some ref →
      producerSkipped (events ++ new) ref.2 = producerSkipped events ref.2 := fun ref hsome =>
    any_append_of_not_bound (hnew ref (List.mem_of_find?_eq_some hsome)) fun e =>
      e.outcome == .skipped
  constructor
  · rw [h.skipped_iff, hfirst]
    refine or_congr_right (exists_congr fun ref => and_congr_right fun hsome => ?_)
    rw [hskipped ref hsome]
  · intro hfailed
    rw [hfirst]
    rcases h.failed hfailed with ⟨ref, hsome, hskip⟩ | ⟨task, hcall, hphase, hcaused⟩
    · exact Or.inl ⟨ref, hsome, (hskipped ref hsome).trans hskip⟩
    · exact Or.inr ⟨task, hcall, hphase, hcaused.append more⟩

/-! ## A run -/

/-- A batch of required or optional calls of a phase that was done in the state `st`: its results
and its dispatches. -/
structure BatchDone (env : RunEnv) (ir : MissionIr) (phaseIdx : Nat) (optional : Bool)
    (st : PhaseRunState) (log : DispatchLog) (calls : List IrCall) (results : List BatchResult)
    (new : DispatchLog) : Prop where
  calls_eq : results.map BatchResult.call = calls
  callIn : ∀ c ∈ calls, ir.CallIn phaseIdx c ∧ c.optional = optional
  produced : ∀ r ∈ results, Produced env (st.prepare env.codec phaseIdx) (log ++ new) r
  dispatched : ∀ r ∈ new, r.phase = phaseIdx ∧ r.call ∈ calls ∧
    (st.prepare env.codec phaseIdx r.call).isOk = true

/-- What a batch does to the state and the log. -/
theorem runBatch_done {env : RunEnv} {ir : MissionIr} {parallel optional : Bool} {phaseIdx : Nat}
    {run : List IrCall}
    (hin : ∀ c ∈ (indexedCalls run optional).map Prod.snd, ir.CallIn phaseIdx c)
    (st : PhaseRunState) (log : DispatchLog) :
    ∃ results new, runBatch env parallel phaseIdx (indexedCalls run optional) st log =
        (processBatch env.codec phaseIdx st results, log ++ new) ∧
      BatchDone env ir phaseIdx optional st log ((indexedCalls run optional).map Prod.snd)
        results new := by
  obtain ⟨hslots, hprod, new, hnew, hdisp⟩ :=
    dispatchBatch_spec env parallel phaseIdx st (pairwise_indexedCalls run optional) log
  rw [hnew] at hprod
  refine ⟨_, new, ?_, ?_, ?_, hprod, ?_⟩
  · rw [runBatch, ← hnew]
  · have hcalls := congrArg (List.map Prod.snd) hslots
    rw [List.map_map] at hcalls
    exact hcalls
  · intro c hc
    obtain ⟨slot, hslot, rfl⟩ := List.mem_map.1 hc
    exact ⟨hin _ hc, optional_of_mem_indexedCalls hslot⟩
  · intro r hr
    obtain ⟨slot, hslot, task, htask, hcall, hphase, -⟩ := hdisp.prepared r hr
    have hok : (st.prepare env.codec phaseIdx slot.2).isOk = true := by
      rw [htask]
      rfl
    obtain ⟨args, -, rfl⟩ := prepareCall_eq_ok htask
    rw [hcall, hphase]
    exact ⟨rfl, List.mem_map_of_mem hslot, hok⟩

namespace BatchDone

variable {env : RunEnv} {ir : MissionIr} {phaseIdx : Nat} {optional : Bool}
  {st : PhaseRunState} {log new : DispatchLog} {calls : List IrCall} {results : List BatchResult}
  (h : BatchDone env ir phaseIdx optional st log calls results new)

include h

theorem event (he : e ∈ results.map (BatchResult.event phaseIdx)) :
    e.phase = phaseIdx ∧ e.call ∈ calls := by
  obtain ⟨r, hr, rfl⟩ := List.mem_map.1 he
  refine ⟨rfl, ?_⟩
  rw [← h.calls_eq]
  exact List.mem_map_of_mem hr

/-- What a step of this or an earlier phase reads is not exported by the batch. -/
theorem fresh {program : EalProgram} (hcompile : compile program = .ok ir) {q : Nat} {c : IrCall}
    (hc : ir.CallIn q c) (hq : q ≤ phaseIdx) (ref : String × String) (href : ref ∈ c.inputRefs)
    (e : StepEvent) (he : e ∈ results.map (BatchResult.event phaseIdx)) :
    e.call.outputBinding ≠ some ref.2 := by
  intro hb
  have hlt := phase_lt_of_reads hcompile hc (h.callIn _ (h.event he).2).1 href hb
  exact absurd hlt (Nat.not_lt.2 hq)

end BatchDone

/-- A phase whose steps were processed before the job. -/
def Passed (p : Nat) (job : Job) : Prop :=
  p < job.phase ∨ p = job.phase ∧ ∀ c ∈ job.calls, c.optional = true

/-- What holds while the jobs `pending` are still to be done. -/
structure Progress (env : RunEnv) (ir : MissionIr) (pending : List Job) (st : PhaseRunState)
    (log : DispatchLog) : Prop where
  facts : EventFacts st
  noShare : (st.events.map StepEvent.call ++ pending.flatMap Job.calls).Pairwise NoShare
  eventsIn : ∀ e ∈ st.events, ir.CallIn e.phase e.call
  eventsPassed : ∀ e ∈ st.events, ∀ job ∈ pending, Passed e.phase job
  logIn : ∀ r ∈ log, ir.CallIn r.phase r.call
  logPassed : ∀ r ∈ log, ∀ job ∈ pending, Passed r.phase job
  explained : ∀ e ∈ st.events, Explained env st.events log e
  producers : ∀ r ∈ log, ∀ ref ∈ r.call.inputRefs,
    ∃ e ∈ st.events, e.call.outputBinding = some ref.2 ∧ e.outcome = .completed
  aborts : ∀ e ∈ st.events, e.Aborts → ∀ r ∈ log,
    r.phase ≤ e.phase ∧ (r.phase = e.phase → r.call.optional = false)

namespace Progress

variable {env : RunEnv} {ir : MissionIr} {job : Job} {rest : List Job} {st : PhaseRunState}
  {log : DispatchLog}

/-- A job that is not done. -/
theorem drop (h : Progress env ir (job :: rest) st log) : Progress env ir rest st log where
  facts := h.facts
  noShare := by
    refine h.noShare.sublist ((List.Sublist.refl _).append ?_)
    rw [List.flatMap_cons]
    exact List.sublist_append_right _ _
  eventsIn := h.eventsIn
  eventsPassed := fun e he j hj => h.eventsPassed e he j (List.mem_cons_of_mem _ hj)
  logIn := h.logIn
  logPassed := fun r hr j hj => h.logPassed r hr j (List.mem_cons_of_mem _ hj)
  explained := h.explained
  producers := h.producers
  aborts := h.aborts

/-- A failure that aborts is in a batch of required calls, the first of its phase. -/
theorem aborts_batch {optional : Bool} {results : List BatchResult} {new : DispatchLog}
    (h : Progress env ir (job :: rest) st log)
    (hdone : BatchDone env ir job.phase optional st log job.calls results new)
    (he : e ∈ results.map (BatchResult.event job.phase)) (habort : e.Aborts) {r : DispatchRecord}
    (hr : r ∈ log ++ new) : r.phase ≤ e.phase ∧ (r.phase = e.phase → r.call.optional = false) := by
  obtain ⟨hephase, hcall⟩ := hdone.event he
  have hreq := habort.required
  rw [hephase]
  rcases List.mem_append.1 hr with hr | hr
  · rcases h.logPassed r hr job List.mem_cons_self with hlt | ⟨-, hall⟩
    · exact ⟨Nat.le_of_lt hlt, fun habs => absurd habs (Nat.ne_of_lt hlt)⟩
    · rw [hall _ hcall] at hreq
      cases hreq
  · obtain ⟨hrphase, hrcall, -⟩ := hdone.dispatched r hr
    refine ⟨Nat.le_of_eq hrphase, fun _ => ?_⟩
    rw [(hdone.callIn _ hrcall).2, ← (hdone.callIn _ hcall).2]
    exact hreq

/-- A batch is done. -/
theorem batch {program : EalProgram} (hcompile : compile program = .ok ir) {phaseIdx : Nat}
    {optional : Bool} {results : List BatchResult} {new : DispatchLog}
    (h : Progress env ir (job :: rest) st log) (hst : st.aborted = false)
    (hphase : job.phase = phaseIdx)
    (hdone : BatchDone env ir phaseIdx optional st log job.calls results new)
    (hbefore : ∀ job' ∈ rest, Passed phaseIdx job') :
    Progress env ir rest (processBatch env.codec phaseIdx st results) (log ++ new) := by
  subst hphase
  have hevents := events_processBatch env.codec job.phase st results
  have hnoShare := h.noShare
  rw [List.flatMap_cons, ← List.append_assoc, ← hdone.calls_eq] at hnoShare
  have hold : ∀ e ∈ st.events, e.phase ≤ job.phase := by
    intro e he
    exact (h.eventsPassed e he job List.mem_cons_self).elim Nat.le_of_lt fun heq =>
      Nat.le_of_eq heq.1
  constructor
  case facts => exact h.facts.processBatch results (List.pairwise_append.1 hnoShare).1
  case noShare =>
    rw [hevents, List.map_append, List.map_map]
    exact hnoShare
  case eventsIn =>
    rw [hevents, List.forall_mem_append]
    refine ⟨h.eventsIn, fun e he => ?_⟩
    rw [(hdone.event he).1]
    exact (hdone.callIn _ (hdone.event he).2).1
  case eventsPassed =>
    rw [hevents, List.forall_mem_append]
    refine ⟨h.drop.eventsPassed, fun e he => ?_⟩
    rw [(hdone.event he).1]
    exact hbefore
  case logIn =>
    refine List.forall_mem_append.2 ⟨h.logIn, fun r hr => ?_⟩
    rw [(hdone.dispatched r hr).1]
    exact (hdone.callIn _ (hdone.dispatched r hr).2.1).1
  case logPassed =>
    refine List.forall_mem_append.2 ⟨h.drop.logPassed, fun r hr => ?_⟩
    rw [(hdone.dispatched r hr).1]
    exact hbefore
  case explained =>
    intro e he
    rw [hevents] at he ⊢
    rcases List.mem_append.1 he with he | he
    · exact (h.explained e he).append (hdone.fresh hcompile (h.eventsIn e he) (hold e he)) new
    · have hin := (hdone.callIn _ (hdone.event he).2).1
      obtain ⟨r, hr, rfl⟩ := List.mem_map.1 he
      have hnew := (explained_of_produced h.facts (hdone.produced r hr)).append
        (hdone.fresh hcompile hin (le_refl _)) []
      rwa [List.append_nil] at hnew
  case producers =>
    intro r hr ref href
    rw [hevents]
    have hproducer : ∃ e ∈ st.events, e.call.outputBinding = some ref.2 ∧
        e.outcome = .completed := by
      rcases List.mem_append.1 hr with hr | hr
      · exact h.producers r hr ref href
      · exact h.facts.producers_of_prepared (hdone.dispatched r hr).2.2 ref href
    obtain ⟨e, he, hrest⟩ := hproducer
    exact ⟨e, List.mem_append_left _ he, hrest⟩
  case aborts =>
    intro e he habort r hr
    rw [hevents] at he
    rcases List.mem_append.1 he with he | he
    · -- no earlier result has aborted the mission
      have habs := h.facts.aborted.2 ⟨e, he, habort⟩
      rw [hst] at habs
      cases habs
    · exact h.aborts_batch hdone he habort hr

/-- Any number of jobs. -/
theorem jobs {program : EalProgram} (hcompile : compile program = .ok ir) (hfree : ir.LoopFree)
    {pending : List Job} (hsub : pending ⊆ ir.jobs) (hbefore : pending.Pairwise Job.Before)
    {acc : PhaseRunState × DispatchLog} (h : Progress env ir pending acc.1 acc.2) :
    Progress env ir [] (pending.foldl (runJob env) acc).1
      (pending.foldl (runJob env) acc).2 := by
  induction pending generalizing acc with
  | nil => exact h
  | cons job rest ih =>
    obtain ⟨hjob, hrest⟩ := List.cons_subset.1 hsub
    obtain ⟨hfirst, hpair⟩ := List.pairwise_cons.1 hbefore
    refine ih hrest hpair ?_
    unfold runJob
    split
    · exact h.drop
    · rename_i hrun
      obtain ⟨phaseIdx, many, run, optional, rfl⟩ := batch_of_mem_jobs hfree hjob
      obtain ⟨results, new, hbatch, hdone⟩ := @runBatch_done env ir
        (many && env.concurrency == .parallel) optional phaseIdx run
        (fun c hc => callIn_of_mem_jobs hjob hc) acc.1 acc.2
      rw [Job.run, hbatch]
      exact h.batch hcompile (Bool.eq_false_iff.2 hrun) rfl hdone hfirst

end Progress

/-! ## Whole runs -/

/-- Skips, failures and aborts in every run of a compiled mission without loops. -/
theorem skipDiscipline_execute {program : EalProgram} {ir : MissionIr}
    (hcompile : compile program = .ok ir) (hfree : ir.LoopFree) (env : RunEnv) :
    SkipDiscipline env ir (execute env ir).1.events (execute env ir).2 := by
  have hstart : Progress env ir ir.jobs .initial [] := {
    facts := {
      captured := by simp [PhaseRunState.initial]
      skipped := by simp [PhaseRunState.initial]
      aborted := by simp [PhaseRunState.initial]
      unique := List.Pairwise.nil }
    noShare := noShare_jobs hcompile
    eventsIn := by simp [PhaseRunState.initial]
    eventsPassed := by simp [PhaseRunState.initial]
    logIn := by simp
    logPassed := by simp
    explained := by simp [PhaseRunState.initial]
    producers := by simp
    aborts := by simp }
  have hend := @Progress.jobs env ir program hcompile hfree ir.jobs (List.Subset.refl _)
    (before_jobs hfree) (.initial, []) hstart
  rw [← execute_eq_jobs] at hend
  refine ⟨⟨hend.eventsIn, hend.logIn⟩, hend.explained, ?_, hend.aborts⟩
  intro r hr ref href e he hb
  obtain ⟨e', he', hb', hdone⟩ := hend.producers r hr ref href
  rw [hend.facts.event_unique he he' hb hb']
  exact hdone

theorem loopFree_of_all {ir : MissionIr} (h : ir.steps.all (fun s => s.topCall.isSome) = true) :
    ir.LoopFree := by
  intro lp hlp
  have habs := List.all_eq_true.1 h _ hlp
  cases habs

/-- `let photo = call "photo.capture" on "cam" optional`, and a call that reads it. -/
def optionalProducer : EalProgram where
  mission := {
    name := "report"
    statements := [
      .letCall "photo" ⟨"photo.capture", some "cam", .device, [], { optional := true }⟩,
      .call ⟨"describe", some "claude", .agent, [⟨"image", .varRef "photo"⟩], {}⟩] }

/-- A run in which the producer fails: both steps are skipped. -/
theorem skipDiscipline_execute_optionalProducer :
    ∃ ir, compile optionalProducer = .ok ir ∧
      (execute (sampleEnv fun _ => .error (.unavailable "cam")) ir).1.events.map
        StepEvent.outcome = [.skipped, .skipped] ∧
      SkipDiscipline (sampleEnv fun _ => .error (.unavailable "cam")) ir
        (execute (sampleEnv fun _ => .error (.unavailable "cam")) ir).1.events
        (execute (sampleEnv fun _ => .error (.unavailable "cam")) ir).2 := by
  have hrun : (compile optionalProducer).toOption.any (fun ir =>
      ir.steps.all (fun s => s.topCall.isSome) &&
        decide ((execute (sampleEnv fun _ => .error (.unavailable "cam")) ir).1.events.map
          StepEvent.outcome = [.skipped, .skipped])) = true := by
    decide +kernel
  obtain ⟨ir, h, hrun⟩ := exists_ok_of_any hrun
  obtain ⟨hcalls, houtcomes⟩ := Bool.and_eq_true_iff.1 hrun
  exact ⟨ir, h, of_decide_eq_true houtcomes,
    skipDiscipline_execute h (loopFree_of_all hcalls)
      (sampleEnv fun _ => .error (.unavailable "cam"))⟩

end EasyNetDaemon.Eal
