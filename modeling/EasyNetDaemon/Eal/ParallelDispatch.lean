import EasyNetDaemon.Eal.ReportCounters

/-!
# Parallel and sequential runs

When the dispatcher answers by the target, the ability, the arguments and the dependency receipts
alone, the result of a step does not depend on when and by which worker it is dispatched, unless it
comes too late (`runAttempts_eq`). A batch then has the results that its calls determine, in every
order of the workers (`dispatchBatch_eq`). So a run in which nothing comes too late ends in the
state of a run without a clock (`execute_eq_steadyEnv`), however it is scheduled.
-/

namespace EasyNetDaemon.Eal

open Library EasyNetDaemon.Core

/-- What a dispatcher answers by. -/
abbrev Answer :=
  IrTarget → AbilityName → Json → List ReceiptAnchor → Except EalError StepDispatchOutcome

/-- The dispatcher and its clones answer by the target, the ability, the arguments and the
dependency receipts. -/
def RunEnv.AnswersBy (env : RunEnv) (answer : Answer) : Prop :=
  ∀ worker log request, env.dispatch worker log request =
    answer request.target request.ability request.arguments request.dependencyReceipts

/-- The dispatcher can be cloned for every worker. -/
def RunEnv.Clones (env : RunEnv) : Prop := ∀ log i, env.cloneForThread log i = .ok ()

/-- The step was not dispatched any more: an attempt came at or after the deadline of the run
(`runAttempt_isLate_iff`). -/
def StepExecResult.isLate : StepExecResult → Bool
  | .error message attempt history =>
    message = (EalError.deadlineExceeded "mission run timeout expired before dispatch").text &&
      attempt == history.length
  | _ => false

/-- No step of the run comes too late. -/
def RunEnv.InTime (env : RunEnv) (ir : MissionIr) : Prop :=
  ∀ event ∈ (execute env ir).1.events, event.result.isLate = false

instance (env : RunEnv) (ir : MissionIr) : Decidable (env.InTime ir) :=
  inferInstanceAs (Decidable (∀ event ∈ _, _))

/-- An environment that answers by `answer`. -/
structure Steady (codec : JsonCodec) (answer : Answer) (env : RunEnv) : Prop where
  codec_eq : env.codec = codec
  answers : env.AnswersBy answer
  clones : env.concurrency = .parallel → env.Clones

/-- The environment that answers by `answer`, without a clock. -/
def steadyEnv (codec : JsonCodec) (answer : Answer) : RunEnv where
  codec
  concurrency := .sequential
  dispatch := fun _ _ request =>
    answer request.target request.ability request.arguments request.dependencyReceipts
  cloneForThread := fun _ _ => .ok ()
  deadline := none
  now := fun _ _ => 0
  picks := fun _ => []

theorem steady_steadyEnv (codec : JsonCodec) (answer : Answer) :
    Steady codec answer (steadyEnv codec answer) :=
  ⟨rfl, fun _ _ _ => rfl, fun _ _ _ => rfl⟩

/-! ## Steps -/

/-- The answer to a prepared call. -/
def PreparedCall.answer (answer : Answer) (task : PreparedCall) :
    Except EalError StepDispatchOutcome :=
  answer task.call.target task.call.ability task.arguments task.dependencyReceipts

/-- The attempts of a step that is answered alike each time. -/
def attemptsBy (codec : JsonCodec) (answer : Answer) (task : PreparedCall) :
    Nat → Nat → List RetryRecord → StepExecResult
  | 0, _, history => .error "exhausted all retry attempts" (maxAttempts task.call - 1) history
  | left + 1, attempt, history =>
    match attemptEnd codec task attempt history (task.answer answer) with
    | .done result => result
    | .again history' => attemptsBy codec answer task left (attempt + 1) history'

/-- The result of a step that is answered alike each time. -/
def resultBy (codec : JsonCodec) (answer : Answer) (task : PreparedCall) : StepExecResult :=
  attemptsBy codec answer task (maxAttempts task.call) 0 []

section Steady

variable {codec : JsonCodec} {answer : Answer} {env : RunEnv}

theorem text_internal_ne (e message : String) :
    (EalError.internal e).text ≠ (EalError.deadlineExceeded message).text := by
  intro htext
  have htext : "internal_error: " ++ e = "deadline_exceeded: " ++ message := htext
  have hhead := congrArg (fun text => text.toList.head?) htext
  simp at hhead

/-- What an attempt is answered with does not make it late. -/
theorem isLate_of_attemptEnd {task : PreparedCall} {history : List RetryRecord}
    {reply : Except EalError StepDispatchOutcome} {result : StepExecResult}
    (h : attemptEnd codec task history.length history reply = .done result) :
    result.isLate = false := by
  unfold attemptEnd at h
  split at h
  · split at h
    · cases h
      rfl
    · cases h
      simp only [StepExecResult.isLate, text_internal_ne, decide_false, Bool.false_and]
  · split at h
    · cases h
      simp [StepExecResult.isLate]
    · cases h

theorem effectiveDispatchTimeoutMs_cases (timeout deadline : Option Nat) (now : Nat) :
    (∃ timeoutMs, effectiveDispatchTimeoutMs timeout deadline now = .ok timeoutMs ∧
      ∀ limit, deadline = some limit → now < limit) ∨
    effectiveDispatchTimeoutMs timeout deadline now =
        .error (.deadlineExceeded "mission run timeout expired before dispatch") ∧
      ∃ limit, deadline = some limit ∧ limit ≤ now := by
  cases deadline with
  | none => exact Or.inl ⟨timeout, rfl, by simp⟩
  | some limit =>
    by_cases hlate : limit ≤ now
    · exact Or.inr ⟨by simp [effectiveDispatchTimeoutMs, hlate], limit, rfl, hlate⟩
    · refine Or.inl ?_
      simp only [effectiveDispatchTimeoutMs, if_neg hlate]
      cases timeout <;> exact ⟨_, rfl, by simpa using hlate⟩

/-- An attempt is late exactly at or after the deadline. -/
theorem runAttempt_isLate_iff (worker : Option Nat) (task : PreparedCall)
    (history : List RetryRecord) (log : DispatchLog) :
    (∃ result, (runAttempt env worker task history.length history log).1 = .done result ∧
      result.isLate = true) ↔
    ∃ limit, env.deadline = some limit ∧ limit ≤ env.now worker log := by
  unfold runAttempt
  rcases effectiveDispatchTimeoutMs_cases (stepTimeoutMs task.call) env.deadline
    (env.now worker log) with ⟨timeoutMs, htimeout, htime⟩ | ⟨htimeout, hlimit⟩
  · rw [htimeout]
    constructor
    · rintro ⟨result, hdone, hlate⟩
      cases (isLate_of_attemptEnd hdone).symm.trans hlate
    · rintro ⟨limit, hlimit, hle⟩
      exact absurd hle (Nat.not_le.2 (htime limit hlimit))
  · rw [htimeout]
    exact ⟨fun _ => hlimit, fun _ => ⟨_, rfl, by simp [StepExecResult.isLate]⟩⟩

/-- Every attempt that is not late is answered alike. -/
theorem runAttempt_fst (h : Steady codec answer env) (worker : Option Nat) (task : PreparedCall)
    (history : List RetryRecord) (log : DispatchLog) :
    (runAttempt env worker task history.length history log).1 =
        attemptEnd codec task history.length history (task.answer answer) ∨
      env.deadline.isSome = true ∧ ∃ result,
        (runAttempt env worker task history.length history log).1 = .done result ∧
          result.isLate = true := by
  rcases effectiveDispatchTimeoutMs_cases (stepTimeoutMs task.call) env.deadline
    (env.now worker log) with ⟨timeoutMs, htimeout, -⟩ | ⟨-, hlate⟩
  · simp only [runAttempt, htimeout, h.codec_eq, h.answers worker log]
    exact Or.inl rfl
  · obtain ⟨limit, hlimit, -⟩ := id hlate
    exact Or.inr ⟨by rw [hlimit]; rfl, (runAttempt_isLate_iff worker task history log).2 hlate⟩

/-- The result is the determined one, or the deadline has passed. -/
def RunEnv.OrLate (env : RunEnv) (result expected : StepExecResult) : Prop :=
  result = expected ∨ env.deadline.isSome = true ∧ result.isLate = true

theorem RunEnv.OrLate.eq {result expected : StepExecResult} (h : env.OrLate result expected)
    (hlate : result.isLate = false) : result = expected := by
  refine h.resolve_right ?_
  rw [hlate]
  simp

theorem length_of_attemptEnd {task : PreparedCall} {history history' : List RetryRecord}
    {reply : Except EalError StepDispatchOutcome}
    (h : attemptEnd codec task history.length history reply = .again history') :
    history.length + 1 = history'.length := by
  unfold attemptEnd at h
  split at h
  · split at h <;> cases h
  · split at h
    · cases h
    · cases h
      rw [List.length_append, List.length_singleton]

theorem runAttempts_eq (h : Steady codec answer env) (worker : Option Nat) (task : PreparedCall)
    (left : Nat) (history : List RetryRecord) (log : DispatchLog) :
    env.OrLate (runAttempts env worker task left history.length history log).1
      (attemptsBy codec answer task left history.length history) := by
  induction left generalizing history log with
  | zero => exact Or.inl rfl
  | succ left ih =>
    have hfst := runAttempt_fst h worker task history log
    cases hrun : runAttempt env worker task history.length history log with
    | mk out log' =>
      rw [hrun] at hfst
      simp only [runAttempts, attemptsBy, hrun]
      rcases hfst with heq | ⟨hdeadline, result, rfl, hlate⟩
      · rw [← heq]
        cases out with
        | done result => exact Or.inl rfl
        | again history' =>
          simp only [length_of_attemptEnd heq.symm]
          exact ih history' log'
      · exact Or.inr ⟨hdeadline, hlate⟩

theorem executeStepWithRetry_fst (h : Steady codec answer env) (worker : Option Nat)
    (task : PreparedCall) (log : DispatchLog) :
    env.OrLate (executeStepWithRetry env worker task log).1 (resultBy codec answer task) :=
  runAttempts_eq h worker task _ [] _

/-- Without a clock nothing is late. -/
theorem executeStepWithRetry_steadyEnv (worker : Option Nat) (task : PreparedCall)
    (log : DispatchLog) :
    (executeStepWithRetry (steadyEnv codec answer) worker task log).1 =
      resultBy codec answer task := by
  refine (executeStepWithRetry_fst (steady_steadyEnv codec answer) worker task log).resolve_right ?_
  rintro ⟨hdeadline, -⟩
  cases hdeadline

/-! ## Batches -/

/-- The result of a call of a batch. -/
def batchResultBy (codec : JsonCodec) (answer : Answer)
    (prepare : IrCall → Except StepExecResult PreparedCall) (call : IrCall) : StepExecResult :=
  match prepare call with
  | .error result => result
  | .ok task => resultBy codec answer task

/-- The results of a batch, in the order of its calls. -/
def batchBy (codec : JsonCodec) (answer : Answer)
    (prepare : IrCall → Except StepExecResult PreparedCall) (calls : List IndexedCall) :
    List BatchResult :=
  calls.map fun slot => ⟨slot.1, slot.2, batchResultBy codec answer prepare slot.2⟩

variable {prepare : IrCall → Except StepExecResult PreparedCall}

/-- Results for given slots are determined by them. -/
theorem eq_batchBy {results : List BatchResult} {calls : List IndexedCall}
    (hslots : results.map BatchResult.slot = calls)
    (hgood : ∀ r ∈ results, r.result = batchResultBy codec answer prepare r.call) :
    results = batchBy codec answer prepare calls := by
  rw [← hslots, batchBy, List.map_map]
  refine (List.map_id results).symm.trans (List.map_congr_left fun r hr => ?_)
  rw [Function.comp_apply, BatchResult.slot, ← hgood r hr]
  rfl

/-- A result of a batch. -/
def GoodResult (env : RunEnv) (codec : JsonCodec) (answer : Answer)
    (prepare : IrCall → Except StepExecResult PreparedCall) (r : BatchResult) : Prop :=
  env.OrLate r.result (batchResultBy codec answer prepare r.call)

theorem dispatchInOrder_good (h : Steady codec answer env) (calls : List IndexedCall)
    (log : DispatchLog) :
    ∀ r ∈ (dispatchInOrder env prepare calls log).1, GoodResult env codec answer prepare r := by
  induction calls generalizing log with
  | nil => simp [dispatchInOrder]
  | cons slot calls ih =>
    obtain ⟨index, call⟩ := slot
    cases hprep : prepare call with
    | error result =>
      simp only [dispatchInOrder, hprep]
      refine List.forall_mem_cons.2 ⟨Or.inl ?_, ih _⟩
      simp only [batchResultBy, hprep]
    | ok task =>
      simp only [dispatchInOrder, hprep]
      refine List.forall_mem_cons.2 ⟨?_, ih _⟩
      simp only [GoodResult, batchResultBy, hprep]
      exact executeStepWithRetry_fst h none task log

/-- The attempts that a worker has left lead to the result that its call determines. -/
structure OnTrack (codec : JsonCodec) (answer : Answer)
    (prepare : IrCall → Except StepExecResult PreparedCall) (w : Worker) : Prop where
  attempt_eq : w.attempt = w.history.length
  attempt_lt : w.attempt < maxAttempts w.task.call
  result_eq : attemptsBy codec answer w.task (maxAttempts w.task.call - w.attempt) w.attempt
    w.history = batchResultBy codec answer prepare w.task.call

/-- The result of a worker on track after one attempt. -/
theorem OnTrack.attempt {w : Worker} (hw : OnTrack codec answer prepare w) :
    (match attemptEnd codec w.task w.attempt w.history (w.task.answer answer) with
      | .done result => result
      | .again history => attemptsBy codec answer w.task
          (maxAttempts w.task.call - (w.attempt + 1)) (w.attempt + 1) history) =
      batchResultBy codec answer prepare w.task.call := by
  have hlt := hw.attempt_lt
  have hresult := hw.result_eq
  obtain ⟨left, hleft⟩ : ∃ left, maxAttempts w.task.call - w.attempt = left + 1 :=
    Nat.exists_eq_succ_of_ne_zero (Nat.sub_ne_zero_of_lt hlt)
  have hrest : maxAttempts w.task.call - (w.attempt + 1) = left := by omega
  rw [hleft, attemptsBy] at hresult
  rw [hrest]
  exact hresult

theorem poolRule_onTrack (h : Steady codec answer env) :
    PoolRule env (OnTrack codec answer prepare)
      (fun _ => GoodResult env codec answer prepare) where
  append := fun _ _ _ hgood => hgood
  attempt_done := by
    intro w log result log' hw hattempt
    have hfst := runAttempt_fst h (some w.index) w.task w.history log
    rw [← hw.attempt_eq, hattempt] at hfst
    rcases hfst with heq | ⟨hdeadline, result', hdone, hlate⟩
    · have hresult := hw.attempt
      rw [← heq] at hresult
      exact Or.inl hresult
    · cases hdone
      exact Or.inr ⟨hdeadline, hlate⟩
  attempt_again := by
    intro w log history log' hw hattempt
    have hfst := runAttempt_fst h (some w.index) w.task w.history log
    rw [← hw.attempt_eq, hattempt] at hfst
    rcases hfst with heq | ⟨-, result', hdone, -⟩
    · have hresult := hw.attempt
      rw [← heq] at hresult
      refine ⟨?_, (attemptEnd_again heq.symm).2, hresult⟩
      rw [hw.attempt_eq] at heq
      exact hw.attempt_eq ▸ length_of_attemptEnd heq.symm
    · cases hdone
  drained := by
    intro w log result log' hw hdrained
    have hrest := runAttempts_eq h (some w.index) w.task (maxAttempts w.task.call - w.attempt)
      w.history log
    rw [← hw.attempt_eq, hw.result_eq, hdrained] at hrest
    exact hrest

/-- A batch in which nothing is late has the results that its calls determine, however its workers
are scheduled. -/
theorem dispatchBatch_eq (h : Steady codec answer env) {parallel : Bool}
    (hparallel : parallel = true → env.concurrency = .parallel) (phaseIdx : Nat)
    (st : PhaseRunState) {calls : List IndexedCall}
    (hsorted : calls.Pairwise fun a b => a.1 < b.1) (log : DispatchLog)
    (hlate : ∀ r ∈ (dispatchBatch env parallel phaseIdx st calls log).1,
      env.deadline.isSome = true → r.result.isLate = false) :
    (dispatchBatch env parallel phaseIdx st calls log).1 =
      batchBy codec answer (st.prepare codec phaseIdx) calls := by
  have hslots := (dispatchBatch_spec env parallel phaseIdx st hsorted log).1
  have hgood : ∀ r ∈ (dispatchBatch env parallel phaseIdx st calls log).1,
      GoodResult env codec answer (st.prepare codec phaseIdx) r := by
    unfold dispatchBatch
    rw [h.codec_eq]
    split
    · rename_i hmode
      have hclone := h.clones (hparallel (Bool.and_eq_true_iff.1 hmode).1)
      have hinit : PoolInvariant (st.prepare codec phaseIdx) calls log
          (OnTrack codec answer (st.prepare codec phaseIdx))
          (fun _ => GoodResult env codec answer (st.prepare codec phaseIdx))
          (preparePool env (st.prepare codec phaseIdx) log calls) := by
        refine poolInvariant_preparePool ?_ ?_ ?_ ?_
        · intro slot _ task hprep
          obtain ⟨args, -, rfl⟩ := prepareCall_eq_ok hprep
          rfl
        · intro slot _ task hprep _
          have hcall : task.call = slot.2 := by
            obtain ⟨args, -, rfl⟩ := prepareCall_eq_ok hprep
            rfl
          refine ⟨rfl, maxAttempts_pos _, ?_⟩
          simp only [batchResultBy, hcall, hprep, Nat.sub_zero, resultBy]
        · intro slot _ _ e _ hfail
          rw [hclone] at hfail
          cases hfail
        · intro slot _ result hprep
          exact Or.inl (by simp only [batchResultBy, hprep])
      exact (dispatchOnWorkers_spec (poolRule_onTrack h) hinit hsorted).2.1
    · exact dispatchInOrder_good h calls log
  refine eq_batchBy hslots fun r hr => ?_
  rcases hgood r hr with heq | ⟨hdeadline, hr'⟩
  · exact heq
  · cases (hlate r hr hdeadline).symm.trans hr'

/-! ## Results are kept -/

theorem blockRule_mem_events (env : RunEnv) (phaseIdx : Nat) (event : StepEvent) :
    BlockRule env phaseIdx fun _ st _ _ => event ∈ st.events where
  skipped := by
    intro call rest st iter log binding arg h _
    rw [events_processInBlock]
    exact List.mem_append_left _ h
  unresolved := by
    intro call rest st iter log e h _
    rw [events_processInBlock]
    exact List.mem_append_left _ h
  dispatched := by
    intro call rest st iter log args result log' h _ _
    rw [events_processInBlock]
    exact List.mem_append_left _ h

theorem loopRule_mem_events (env : RunEnv) (phaseIdx : Nat) (event : StepEvent) :
    LoopRule env phaseIdx (fun st _ => event ∈ st.events) fun st _ _ => event ∈ st.events where
  enter := fun _ _ => id
  leave := fun _ _ _ => id
  abort := fun _ _ => id
  exported := fun _ _ _ _ => id
  block := blockRule_mem_events env phaseIdx event

theorem mem_events_run {event : StepEvent} {st : PhaseRunState} (h : event ∈ st.events)
    (job : Job) (log : DispatchLog) : event ∈ (job.run env st log).1.events := by
  cases job with
  | batch phaseIdx many calls =>
    simp only [Job.run, runBatch, events_processBatch]
    exact List.mem_append_left _ h
  | loop phaseIdx lp => exact (loopRule_mem_events env phaseIdx event).executeLoop lp h

/-! ## Loops -/

/-- Nothing has come too late so far. -/
def PhaseRunState.InTime (st : PhaseRunState) : Prop :=
  ∀ event ∈ st.events, event.result.isLate = false

/-- A block in which nothing is late ends as without a clock. -/
theorem runLoopBlockSequentially_eq (h : Steady codec answer env) (phaseIdx : Nat)
    (calls : List IrCall) (st : PhaseRunState) (iter : IterScope) (log log' : DispatchLog)
    (htime : (runLoopBlockSequentially env phaseIdx calls st iter log).state.InTime) :
    (runLoopBlockSequentially env phaseIdx calls st iter log).state =
        (runLoopBlockSequentially (steadyEnv codec answer) phaseIdx calls st iter log').state ∧
      (runLoopBlockSequentially env phaseIdx calls st iter log).iter =
        (runLoopBlockSequentially (steadyEnv codec answer) phaseIdx calls st iter log').iter := by
  obtain rfl := h.codec_eq
  induction calls generalizing st iter log log' with
  | nil => exact ⟨rfl, rfl⟩
  | cons call rest ih =>
    cases hst : st.aborted with
    | true => simp only [runLoopBlockSequentially, hst, if_true, and_self]
    | false =>
      have hcodec : (steadyEnv env.codec answer).codec = env.codec := rfl
      rcases @runLoopBlockSequentially_cons env phaseIdx call rest st iter log hst with
        ⟨binding, arg, hargs, hrun⟩ | ⟨e, hargs, hrun⟩ | ⟨args, result, log₁, hargs, hexec, hrun⟩
      · rw [hrun] at htime ⊢
        simp only [runLoopBlockSequentially, hst, hcodec, hargs]
        exact ih _ _ _ _ htime
      · rw [hrun]
        simp only [runLoopBlockSequentially, hst, hcodec, hargs]
        exact ⟨rfl, rfl⟩
      · rw [hrun] at htime ⊢
        -- the result stays among those that were processed, so it is not late
        have hresult :
            result = resultBy env.codec answer (blockTask phaseIdx st iter call args) := by
          have hfst := executeStepWithRetry_fst h none (blockTask phaseIdx st iter call args) log
          rw [hexec] at hfst
          obtain ⟨_, hmem⟩ := @BlockRule.runBlock env phaseIdx _
            (blockRule_mem_events env phaseIdx ⟨call, phaseIdx, true, result⟩) rest
            (processInBlock env.codec phaseIdx st (iter.keepLast rest result) call result).1
            (processInBlock env.codec phaseIdx st (iter.keepLast rest result) call result).2 log₁
            (by rw [events_processInBlock]; exact List.mem_append_right _ List.mem_cons_self)
          exact hfst.eq (htime _ hmem)
        rcases @runLoopBlockSequentially_cons (steadyEnv env.codec answer) phaseIdx call
          rest st iter
          log' hst with ⟨_, _, hargs', -⟩ | ⟨_, hargs', -⟩ | ⟨_, result', _, hargs', hexec', hrun'⟩
        · cases hargs.symm.trans hargs'
        · cases hargs.symm.trans hargs'
        · cases hargs.symm.trans hargs'
          have hsteady := @executeStepWithRetry_steadyEnv env.codec answer none
            (blockTask phaseIdx st iter call args) log'
          rw [hexec'] at hsteady
          obtain rfl : result' = result := hsteady.trans hresult.symm
          rw [hrun']
          exact ih _ _ _ _ htime

theorem decideIteration_eq (resultBinding : Option String) (verify : List IrCall)
    {run run' : BlockRun} (hstate : run.state = run'.state) (hiter : run.iter = run'.iter) :
    (decideIteration codec resultBinding verify run).again =
        (decideIteration codec resultBinding verify run').again ∧
      (decideIteration codec resultBinding verify run).state =
        (decideIteration codec resultBinding verify run').state := by
  unfold decideIteration
  rw [hiter, hstate]
  split
  · exact ⟨rfl, rfl⟩
  · split <;> exact ⟨rfl, rfl⟩

/-- The decision adds no result. -/
theorem events_decideIteration (resultBinding : Option String) (verify : List IrCall)
    (run : BlockRun) :
    (decideIteration codec resultBinding verify run).state.events = run.state.events := by
  unfold decideIteration
  split
  · rfl
  · split <;> rfl

theorem loopIteration_eq (h : Steady codec answer env) (phaseIdx : Nat)
    (resultBinding : Option String) (body verify : List IrCall) (st : PhaseRunState)
    (log log' : DispatchLog)
    (htime : (loopIteration env phaseIdx resultBinding body verify st log).state.InTime) :
    (loopIteration env phaseIdx resultBinding body verify st log).again =
        (loopIteration (steadyEnv codec answer) phaseIdx resultBinding body verify st log').again ∧
      (loopIteration env phaseIdx resultBinding body verify st log).state =
        (loopIteration (steadyEnv codec answer) phaseIdx resultBinding body verify st
          log').state := by
  have hbody := runLoopBlockSequentially_eq h phaseIdx body st ⟨[], []⟩ log log'
  have hverify := runLoopBlockSequentially_eq h phaseIdx verify
    (runLoopBlockSequentially env phaseIdx body st ⟨[], []⟩ log).state
    (runLoopBlockSequentially env phaseIdx body st ⟨[], []⟩ log).iter
    (runLoopBlockSequentially env phaseIdx body st ⟨[], []⟩ log).log
    (runLoopBlockSequentially (steadyEnv codec answer) phaseIdx body st ⟨[], []⟩ log').log
  have hcodec : (steadyEnv codec answer).codec = codec := rfl
  unfold loopIteration at htime ⊢
  simp only [ok_runLoopBlockSequentially, Bool.not_not, Bool.or_self, h.codec_eq, hcodec]
    at htime ⊢
  cases habort :
      (runLoopBlockSequentially env phaseIdx body st ⟨[], []⟩ log).state.aborted with
  | true =>
    simp only [habort, if_true] at htime ⊢
    rw [← (hbody htime).1, habort]
    exact ⟨rfl, rfl⟩
  | false =>
    simp only [habort, Bool.false_eq_true, if_false] at htime ⊢
    have htime' : (runLoopBlockSequentially env phaseIdx verify
        (runLoopBlockSequentially env phaseIdx body st ⟨[], []⟩ log).state
        (runLoopBlockSequentially env phaseIdx body st ⟨[], []⟩ log).iter
        (runLoopBlockSequentially env phaseIdx body st ⟨[], []⟩ log).log).state.InTime := by
      split at htime
      · exact htime
      · unfold PhaseRunState.InTime at htime
        rwa [events_decideIteration] at htime
    obtain ⟨hstate, hiter⟩ := hbody fun event hevent =>
      have ⟨_, hmem⟩ := (blockRule_mem_events env phaseIdx event).runBlock verify hevent
      htime' event hmem
    obtain ⟨hstate', hiter'⟩ := hverify htime'
    rw [← hstate, ← hiter, habort, ← hstate']
    simp only [Bool.false_eq_true, if_false]
    split
    · exact ⟨rfl, rfl⟩
    · exact decideIteration_eq resultBinding verify hstate' hiter'

theorem loopIterations_fst (h : Steady codec answer env) (phaseIdx : Nat)
    (resultBinding : Option String) (body verify : List IrCall) (left : Nat) (st : PhaseRunState)
    (log log' : DispatchLog)
    (htime : (loopIterations env phaseIdx resultBinding body verify left st log).1.InTime) :
    (loopIterations env phaseIdx resultBinding body verify left st log).1 =
      (loopIterations (steadyEnv codec answer) phaseIdx resultBinding body verify left st
        log').1 := by
  induction left generalizing st log log' with
  | zero => rfl
  | succ left ih =>
    have hiteration := loopIteration_eq h phaseIdx resultBinding body verify st log log'
    simp only [loopIterations] at htime ⊢
    split
    · rfl
    · rename_i habort
      rw [if_neg habort] at htime
      cases hagain : (loopIteration env phaseIdx resultBinding body verify st log).again with
      | true =>
        rw [if_pos hagain] at htime
        obtain ⟨hagain', hstate⟩ := hiteration fun event hevent =>
          htime event ((loopRule_mem_events env phaseIdx event).loopIterations _ _ _ _ hevent)
        rw [← hagain', hagain, ← hstate]
        exact ih _ _ _ htime
      | false =>
        rw [if_neg (by simp [hagain])] at htime
        obtain ⟨hagain', hstate⟩ := hiteration htime
        rw [← hagain', hagain]
        exact hstate

theorem executeLoop_fst (h : Steady codec answer env) (phaseIdx : Nat) (lp : IrLoop)
    (st : PhaseRunState) (log log' : DispatchLog)
    (htime : (executeLoop env phaseIdx lp st log).1.InTime) :
    (executeLoop env phaseIdx lp st log).1 =
      (executeLoop (steadyEnv codec answer) phaseIdx lp st log').1 := by
  unfold executeLoop at htime ⊢
  split at htime
  · exact loopIterations_fst h _ _ _ _ _ _ _ _ htime
  · rfl

/-! ## Runs -/

/-- A job in which nothing is late ends as without a clock. -/
theorem run_fst (h : Steady codec answer env) {ir : MissionIr} {job : Job} (hjob : job ∈ ir.jobs)
    (st : PhaseRunState) (log log' : DispatchLog) (htime : (job.run env st log).1.InTime) :
    (job.run env st log).1 = (job.run (steadyEnv codec answer) st log').1 := by
  cases job with
  | batch phaseIdx many calls =>
    have hmode : ∀ e : RunEnv, (many && e.concurrency == .parallel) = true →
        e.concurrency = .parallel := fun e hm => beq_iff_eq.1 (Bool.and_eq_true_iff.1 hm).2
    have hsorted := pairwise_of_mem_jobs hjob
    have hlate : ∀ r ∈ (dispatchBatch env (many && env.concurrency == .parallel) phaseIdx st calls
        log).1, r.result.isLate = false := by
      intro r hr
      refine htime (r.event phaseIdx) ?_
      simp only [Job.run, runBatch, events_processBatch]
      exact List.mem_append_right _ (List.mem_map_of_mem hr)
    have hsteady := dispatchBatch_eq (steady_steadyEnv codec answer)
      (hmode (steadyEnv codec answer)) phaseIdx st hsorted log' fun _ _ habs => by cases habs
    simp only [Job.run, runBatch, hsteady,
      dispatchBatch_eq h (hmode env) phaseIdx st hsorted log fun r hr _ => hlate r hr, h.codec_eq]
    rfl
  | loop phaseIdx lp => exact executeLoop_fst h phaseIdx lp st log log' htime

/-- A run in which nothing is late ends as without a clock. -/
theorem execute_eq_steadyEnv (h : Steady codec answer env) {ir : MissionIr}
    (htime : env.InTime ir) : (execute env ir).1 = (execute (steadyEnv codec answer) ir).1 := by
  have hfold : ∀ (jobs : List Job), jobs ⊆ ir.jobs → ∀ acc acc' : PhaseRunState × DispatchLog,
      acc.1 = acc'.1 → (jobs.foldl (runJob env) acc).1.InTime →
      (jobs.foldl (runJob env) acc).1 = (jobs.foldl (runJob (steadyEnv codec answer)) acc').1 := by
    intro jobs
    induction jobs with
    | nil => exact fun _ _ _ hacc _ => hacc
    | cons job jobs ih =>
      intro hsub acc acc' hacc htime
      obtain ⟨hjob, hrest⟩ := List.cons_subset.1 hsub
      refine ih hrest _ _ ?_ htime
      have hkept : (runJob env acc job).1.InTime := by
        intro event hevent
        have hmem := @foldl_runJob_invariant env (fun st _ => event ∈ st.events) jobs
          (runJob env acc job) hevent fun job _ st log _ hmem => mem_events_run hmem job log
        exact htime event hmem
      unfold runJob at hkept ⊢
      rw [← hacc]
      split
      · exact hacc
      · rename_i habort
        rw [if_neg habort] at hkept
        exact run_fst h hjob _ _ _ hkept
  unfold RunEnv.InTime at htime
  rw [execute_eq_jobs] at htime ⊢
  rw [execute_eq_jobs]
  exact hfold ir.jobs (List.Subset.refl _) _ _ rfl htime

end Steady

/-- A parallel run, whatever the order of its workers, and a sequential run end in the same state
and give the same report, if in neither a step comes too late. -/
theorem parallel_eq_sequential {answer : Answer} {parEnv seqEnv : RunEnv} (ir : MissionIr)
    (hcodec : seqEnv.codec = parEnv.codec) (hanswers : parEnv.AnswersBy answer)
    (hanswers' : seqEnv.AnswersBy answer) (hclones : parEnv.Clones)
    (htime : RunEnv.InTime { parEnv with concurrency := .parallel } ir)
    (htime' : RunEnv.InTime { seqEnv with concurrency := .sequential } ir) :
    (execute { parEnv with concurrency := .parallel } ir).1 =
        (execute { seqEnv with concurrency := .sequential } ir).1 ∧
      executeMission { parEnv with concurrency := .parallel } ir =
        executeMission { seqEnv with concurrency := .sequential } ir := by
  have hpar : Steady parEnv.codec answer { parEnv with concurrency := .parallel } :=
    ⟨rfl, hanswers, fun _ => hclones⟩
  have hseq : Steady parEnv.codec answer { seqEnv with concurrency := .sequential } :=
    ⟨hcodec, hanswers', fun habs => by cases habs⟩
  have hstate := (execute_eq_steadyEnv hpar htime).trans (execute_eq_steadyEnv hseq htime').symm
  refine ⟨hstate, ?_⟩
  rw [executeMission, executeMission, hstate, hpar.codec_eq, hseq.codec_eq]

/-- Every dispatch takes 20 ms of a run that may take 10; workers start at once. -/
def slowEnv : RunEnv :=
  { sampleEnv fun _ => .ok (sampleOutcome .null) with
    deadline := some 10
    now := fun worker log => if worker.isSome then 0 else 20 * log.length }

/-- Two calls that do not depend on each other. -/
def independentCalls : EalProgram where
  mission := {
    name := "survey"
    statements := [
      .call ⟨"photo.capture", some "cam", .device, [], {}⟩,
      .call ⟨"health.check", some "cam", .device, [], {}⟩] }

/-- Under a deadline the second call of a sequential run may come too late, while the workers of a
parallel run both start in time. -/
theorem deadline_tells_parallel_from_sequential :
    ∃ ir, compile independentCalls = .ok ir ∧
      slowEnv.AnswersBy (fun _ _ _ _ => .ok (sampleOutcome .null)) ∧ slowEnv.Clones ∧
      (executeMission { slowEnv with concurrency := .parallel } ir).stepTraces.map
        StepTrace.outcome = [.completed, .completed] ∧
      (executeMission { slowEnv with concurrency := .sequential } ir).stepTraces.map
        StepTrace.outcome = [.completed, .failed] := by
  have hrun : (compile independentCalls).toOption.any (fun ir => decide (
      (executeMission { slowEnv with concurrency := .parallel } ir).stepTraces.map
        StepTrace.outcome = [.completed, .completed] ∧
      (executeMission { slowEnv with concurrency := .sequential } ir).stepTraces.map
        StepTrace.outcome = [.completed, .failed])) = true := by
    decide +kernel
  obtain ⟨ir, h, hrun⟩ := exists_ok_of_any hrun
  exact ⟨ir, h, fun _ _ _ => rfl, fun _ _ => rfl, of_decide_eq_true hrun⟩

/-- Every dispatch takes 20 ms of a run that may take 50; of two workers the second is the first to
finish. -/
def reversedEnv : RunEnv :=
  { sampleEnv fun _ => .ok (sampleOutcome .null) with
    deadline := some 50
    now := fun _ log => 20 * log.length
    picks := fun _ => [1, 0] }

theorem parallel_eq_sequential_independentCalls :
    ∃ ir, compile independentCalls = .ok ir ∧
      executeMission { reversedEnv with concurrency := .parallel } ir =
        executeMission { reversedEnv with concurrency := .sequential } ir := by
  have hok : (compile independentCalls).toOption.any (fun ir => decide (
      RunEnv.InTime { reversedEnv with concurrency := .parallel } ir ∧
        RunEnv.InTime { reversedEnv with concurrency := .sequential } ir)) = true := by
    decide +kernel
  obtain ⟨ir, h, htime⟩ := exists_ok_of_any hok
  obtain ⟨htime, htime'⟩ := of_decide_eq_true htime
  have hanswers : reversedEnv.AnswersBy fun _ _ _ _ => .ok (sampleOutcome .null) :=
    fun _ _ _ => rfl
  exact ⟨ir, h,
    (parallel_eq_sequential ir rfl hanswers hanswers (fun _ _ => rfl) htime htime').2⟩

end EasyNetDaemon.Eal
