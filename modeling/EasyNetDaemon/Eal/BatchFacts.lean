import EasyNetDaemon.Eal.Interpreter
import Mathlib.Data.List.Perm.Basic

/-!
# What dispatching a batch does

A step is dispatched at most once more than it failed under the policy `retry`
(`executeStepWithRetry_spec`), and its result comes from one of these dispatches, the deadline of
the run or a thread that could not be had (`Caused`). A batch yields one result for each of its
calls, in their order, one by one as well as on worker threads that make their attempts in any order
(`dispatchBatch_spec`); what the results and the dispatches satisfy is proved for every order at
once (`PoolInvariant`).
-/

namespace EasyNetDaemon.Eal

open Library EasyNetDaemon.Core

/-! ## Attempts -/

/-- A failed dispatch of a call that has more than one attempt. -/
def DispatchRecord.failedRetry (r : DispatchRecord) : Bool :=
  decide (1 < maxAttempts r.call) && !r.result.isOk

/-- Whether a result comes from a failure or success of the step itself. -/
def StepExecResult.ran : StepExecResult → Bool
  | .skippedByDependency _ => false
  | _ => true

/-- The dispatches of one prepared call. -/
def MadeFor (task : PreparedCall) (r : DispatchRecord) : Prop :=
  r.call = task.call ∧ r.phase = task.phase ∧ r.request.arguments = task.arguments

theorem attemptEnd_done {codec : JsonCodec} {task : PreparedCall} {attempt : Nat}
    {history : List RetryRecord} {answer : Except EalError StepDispatchOutcome}
    {result : StepExecResult} (h : attemptEnd codec task attempt history answer = .done result) :
    result.ran = true := by
  cases answer with
  | ok outcome =>
    unfold attemptEnd at h
    cases hv : codec.toVec outcome.value with
    | ok bytes =>
      simp only [hv] at h
      cases h
      rfl
    | error e =>
      simp only [hv] at h
      cases h
      rfl
  | error e =>
    simp only [attemptEnd] at h
    split at h
    · cases h
      rfl
    · cases h

theorem attemptEnd_again {codec : JsonCodec} {task : PreparedCall} {attempt : Nat}
    {history history' : List RetryRecord} {answer : Except EalError StepDispatchOutcome}
    (h : attemptEnd codec task attempt history answer = .again history') :
    answer.isOk = false ∧ attempt + 1 < maxAttempts task.call := by
  cases answer with
  | ok outcome =>
    unfold attemptEnd at h
    cases hv : codec.toVec outcome.value with
    | ok bytes =>
      simp only [hv] at h
      cases h
    | error e =>
      simp only [hv] at h
      cases h
  | error e =>
    simp only [attemptEnd] at h
    split at h
    · cases h
    · rename_i hlt
      exact ⟨rfl, Nat.not_le.1 hlt⟩

/-- An attempt dispatches the call at most once; when another one follows, it has failed and the
call is retried. -/
theorem runAttempt_spec {env : RunEnv} {worker : Option Nat} {task : PreparedCall} {attempt : Nat}
    {history : List RetryRecord} {log log' : DispatchLog} {out : AttemptEnd}
    (h : runAttempt env worker task attempt history log = (out, log')) :
    ∃ new, log' = log ++ new ∧ (∀ r ∈ new, MadeFor task r) ∧
      ((∃ result, out = .done result ∧ new.length ≤ 1) ∨
        ∃ history', out = .again history' ∧ attempt + 1 < maxAttempts task.call ∧
          new.length = 1 ∧ new.countP DispatchRecord.failedRetry = 1) := by
  unfold runAttempt at h
  cases htimeout : effectiveDispatchTimeoutMs (stepTimeoutMs task.call) env.deadline
      (env.now worker log) with
  | error e =>
    simp only [htimeout] at h
    cases h
    exact ⟨[], (List.append_nil _).symm, by simp, Or.inl ⟨_, rfl, Nat.zero_le 1⟩⟩
  | ok timeoutMs =>
    simp only [htimeout] at h
    cases h
    refine ⟨_, rfl, ?_, ?_⟩
    · intro r hr
      rw [List.mem_singleton.1 hr]
      exact ⟨rfl, rfl, rfl⟩
    · cases hend : attemptEnd env.codec task attempt history
          (env.dispatch worker log (task.request timeoutMs)) with
      | done result => exact Or.inl ⟨result, rfl, le_refl 1⟩
      | again history' =>
        obtain ⟨hfail, hlt⟩ := attemptEnd_again hend
        have hretry : 1 < maxAttempts task.call := lt_of_le_of_lt (Nat.le_add_left 1 attempt) hlt
        refine Or.inr ⟨history', rfl, hlt, rfl, ?_⟩
        simp [DispatchRecord.failedRetry, hretry, hfail]

/-- What the dispatches of a step have in common: there is at most one more than failed retries. -/
structure StepDispatches (task : PreparedCall) (new : DispatchLog) : Prop where
  madeFor : ∀ r ∈ new, MadeFor task r
  length_le : new.length ≤ 1 + new.countP DispatchRecord.failedRetry

theorem runAttempts_spec {env : RunEnv} {worker : Option Nat} {task : PreparedCall}
    (left attempt : Nat) (history : List RetryRecord) (log : DispatchLog) :
    ∃ new, (runAttempts env worker task left attempt history log).2 = log ++ new ∧
      StepDispatches task new := by
  induction left generalizing attempt history log with
  | zero => exact ⟨[], (List.append_nil _).symm, by simp, Nat.zero_le _⟩
  | succ left ih =>
    cases hattempt : runAttempt env worker task attempt history log with
    | mk out log₁ =>
      obtain ⟨new, rfl, hmade, hend⟩ := runAttempt_spec hattempt
      rcases hend with ⟨result, rfl, hlen⟩ | ⟨history', rfl, -, hlen, hcount⟩
      · simp only [runAttempts, hattempt]
        exact ⟨new, rfl, hmade, Nat.le_add_right_of_le hlen⟩
      · simp only [runAttempts, hattempt]
        obtain ⟨more, hmore, hdisp⟩ := ih (attempt + 1) history' (log ++ new)
        refine ⟨new ++ more, by rw [hmore, List.append_assoc], ?_, ?_⟩
        · intro r hr
          rcases List.mem_append.1 hr with hr | hr
          · exact hmade r hr
          · exact hdisp.madeFor r hr
        · have := hdisp.length_le
          rw [List.length_append, List.countP_append, hlen, hcount]
          omega

/-! ## Causes -/

/-- What the result of a prepared call comes from: the answer to a dispatch in the log, the deadline
of the run before a dispatch, or a worker thread that could not be had. -/
inductive Caused (env : RunEnv) (task : PreparedCall) (log : DispatchLog) : StepExecResult → Prop
  | answered {result : StepExecResult} (r : DispatchRecord) (hr : r ∈ log) (hmade : MadeFor task r)
      (attempt : Nat) (history : List RetryRecord)
      (hend : attemptEnd env.codec task attempt history r.result = .done result) :
      Caused env task log result
  | late (worker : Option Nat) (seen : DispatchLog) (e : EalError)
      (hlate : effectiveDispatchTimeoutMs (stepTimeoutMs task.call) env.deadline
        (env.now worker seen) = .error e) (attempt : Nat) (history : List RetryRecord) :
      Caused env task log (.error e.text attempt history)
  | noThread (index : Nat) (seen : DispatchLog) (e : EalError)
      (hthread : env.cloneForThread seen index = .error e) :
      Caused env task log (.error e.text 0 [])

section Causes

variable {env : RunEnv} {task : PreparedCall} {log : DispatchLog} {result : StepExecResult}

theorem Caused.append (h : Caused env task log result) (new : DispatchLog) :
    Caused env task (log ++ new) result := by
  cases h with
  | answered r hr hmade attempt history hend =>
    exact .answered r (List.mem_append_left _ hr) hmade attempt history hend
  | late worker seen e hlate attempt history => exact .late worker seen e hlate attempt history
  | noThread index seen e hthread => exact .noThread index seen e hthread

theorem Caused.ran (h : Caused env task log result) : result.ran = true := by
  cases h with
  | answered r hr hmade attempt history hend => exact attemptEnd_done hend
  | late worker seen e hlate attempt history => rfl
  | noThread index seen e hthread => rfl

theorem runAttempt_caused {worker : Option Nat} {attempt : Nat} {history : List RetryRecord}
    {log' : DispatchLog}
    (h : runAttempt env worker task attempt history log = (.done result, log')) :
    Caused env task log' result := by
  unfold runAttempt at h
  cases htimeout : effectiveDispatchTimeoutMs (stepTimeoutMs task.call) env.deadline
      (env.now worker log) with
  | error e =>
    simp only [htimeout] at h
    cases h
    exact .late worker log e htimeout attempt history
  | ok timeoutMs =>
    simp only [htimeout] at h
    obtain ⟨hend, rfl⟩ := Prod.mk.inj h
    exact .answered _ (List.mem_append_right _ List.mem_cons_self) ⟨rfl, rfl, rfl⟩ attempt history
      hend

/-- The attempts of a step do not run out before it has a result. -/
theorem runAttempts_caused {worker : Option Nat} (left attempt : Nat) (history : List RetryRecord)
    (log : DispatchLog) (hleft : maxAttempts task.call = attempt + left) (hpos : 0 < left) :
    Caused env task (runAttempts env worker task left attempt history log).2
      (runAttempts env worker task left attempt history log).1 := by
  induction left generalizing attempt history log with
  | zero => cases hpos
  | succ left ih =>
    cases hattempt : runAttempt env worker task attempt history log with
    | mk out log₁ =>
      obtain ⟨new, rfl, -, hend⟩ := runAttempt_spec hattempt
      rcases hend with ⟨result, rfl, -⟩ | ⟨history', rfl, hlt, -⟩
      · simp only [runAttempts, hattempt]
        exact runAttempt_caused hattempt
      · simp only [runAttempts, hattempt]
        exact ih (attempt + 1) history' (log ++ new) (by omega) (by omega)

theorem maxAttempts_pos (call : IrCall) : 0 < maxAttempts call := by
  unfold maxAttempts
  split
  · exact Nat.lt_of_lt_of_le Nat.zero_lt_one (Nat.le_add_right 1 _)
  · exact Nat.zero_lt_one

theorem executeStepWithRetry_caused (env : RunEnv) (worker : Option Nat) (task : PreparedCall)
    (log : DispatchLog) :
    Caused env task (executeStepWithRetry env worker task log).2
      (executeStepWithRetry env worker task log).1 :=
  runAttempts_caused _ _ _ _ (Nat.zero_add _).symm (maxAttempts_pos _)

end Causes

/-- Executing a step: its dispatches. -/
theorem executeStepWithRetry_spec (env : RunEnv) (worker : Option Nat) (task : PreparedCall)
    (log : DispatchLog) :
    ∃ new, (executeStepWithRetry env worker task log).2 = log ++ new ∧ StepDispatches task new :=
  runAttempts_spec _ _ _ _

/-! ## One by one -/

/-- The slot of a batch that a result is for. -/
def BatchResult.slot (r : BatchResult) : IndexedCall := (r.index, r.call)

/-- What a batch dispatched: calls that were prepared, at most one dispatch for each call of the
batch besides the failed retries. -/
structure BatchDispatches (prepare : IrCall → Except StepExecResult PreparedCall)
    (calls : List IndexedCall) (new : DispatchLog) : Prop where
  prepared : ∀ r ∈ new, ∃ slot ∈ calls, ∃ task, prepare slot.2 = .ok task ∧ MadeFor task r
  length_le : new.length ≤ calls.length + new.countP DispatchRecord.failedRetry

/-- What a result of a batch can be: the one of a call that was not prepared, or one of its own. -/
def Produced (env : RunEnv) (prepare : IrCall → Except StepExecResult PreparedCall)
    (log : DispatchLog) (r : BatchResult) : Prop :=
  prepare r.call = .error r.result ∨
    ∃ task, prepare r.call = .ok task ∧ Caused env task log r.result

section Batch

variable {env : RunEnv} {prepare : IrCall → Except StepExecResult PreparedCall}

theorem Produced.append {log : DispatchLog} {r : BatchResult} (h : Produced env prepare log r)
    (new : DispatchLog) : Produced env prepare (log ++ new) r :=
  h.imp_right fun ⟨task, hprep, hcaused⟩ => ⟨task, hprep, hcaused.append new⟩

theorem BatchDispatches.append {slot : IndexedCall} {calls : List IndexedCall} {task : PreparedCall}
    {new more : DispatchLog} (hprep : prepare slot.2 = .ok task) (h : StepDispatches task new)
    (hrest : BatchDispatches prepare calls more) :
    BatchDispatches prepare (slot :: calls) (new ++ more) where
  prepared := by
    intro r hr
    rcases List.mem_append.1 hr with hr | hr
    · exact ⟨slot, List.mem_cons_self, task, hprep, h.madeFor r hr⟩
    · obtain ⟨slot', hslot', hrest⟩ := hrest.prepared r hr
      exact ⟨slot', List.mem_cons_of_mem _ hslot', hrest⟩
  length_le := by
    have hfirst := h.length_le
    have hmore := hrest.length_le
    rw [List.length_append, List.countP_append, List.length_cons]
    omega

theorem BatchDispatches.cons {slot : IndexedCall} {calls : List IndexedCall} {new : DispatchLog}
    (h : BatchDispatches prepare calls new) : BatchDispatches prepare (slot :: calls) new where
  prepared := by
    intro r hr
    obtain ⟨slot', hslot', hrest⟩ := h.prepared r hr
    exact ⟨slot', List.mem_cons_of_mem _ hslot', hrest⟩
  length_le := by
    have hlen := h.length_le
    rw [List.length_cons]
    omega

theorem dispatchInOrder_spec (calls : List IndexedCall) (log : DispatchLog) :
    (dispatchInOrder env prepare calls log).1.map BatchResult.slot = calls ∧
      (∀ r ∈ (dispatchInOrder env prepare calls log).1,
        Produced env prepare (dispatchInOrder env prepare calls log).2 r) ∧
      ∃ new, (dispatchInOrder env prepare calls log).2 = log ++ new ∧
        BatchDispatches prepare calls new := by
  induction calls generalizing log with
  | nil => exact ⟨rfl, by simp [dispatchInOrder], [], (List.append_nil _).symm, by simp, le_refl 0⟩
  | cons slot calls ih =>
    obtain ⟨index, call⟩ := slot
    cases hprep : prepare call with
    | error result =>
      obtain ⟨hslots, hgood, new, hnew, hdisp⟩ := ih log
      simp only [dispatchInOrder, hprep]
      refine ⟨by rw [List.map_cons, hslots]; rfl, ?_, new, hnew, hdisp.cons⟩
      intro r hr
      rcases List.mem_cons.1 hr with rfl | hr
      · exact Or.inl hprep
      · exact hgood r hr
    | ok task =>
      obtain ⟨new, hnew, hstep⟩ := executeStepWithRetry_spec env none task log
      obtain ⟨hslots, hgood, more, hmore, hdisp⟩ := ih (executeStepWithRetry env none task log).2
      simp only [dispatchInOrder, hprep]
      refine ⟨by rw [List.map_cons, hslots]; rfl, ?_, new ++ more, ?_, .append hprep hstep hdisp⟩
      · intro r hr
        rcases List.mem_cons.1 hr with rfl | hr
        · rw [hmore]
          exact Or.inr ⟨task, hprep, (executeStepWithRetry_caused env none task log).append more⟩
        · exact hgood r hr
      · rw [hmore, hnew, List.append_assoc]

/-! ## On worker threads -/

/-- The slot of a batch that a worker is for. -/
def Worker.slot (w : Worker) : IndexedCall := (w.index, w.task.call)

/-- What is known of a live worker, and what follows from it for the result of its step and the
dispatches so far. -/
structure PoolRule (env : RunEnv) (Live : Worker → Prop) (Good : DispatchLog → BatchResult → Prop) :
    Prop where
  append : ∀ log new r, Good log r → Good (log ++ new) r
  attempt_done : ∀ w log result log', Live w →
    runAttempt env (some w.index) w.task w.attempt w.history log = (.done result, log') →
    Good log' { index := w.index, call := w.task.call, result }
  attempt_again : ∀ w log history log', Live w →
    runAttempt env (some w.index) w.task w.attempt w.history log = (.again history, log') →
    Live { w with attempt := w.attempt + 1, history }
  drained : ∀ w log result log', Live w →
    runAttempts env (some w.index) w.task (maxAttempts w.task.call - w.attempt) w.attempt w.history
      log = (result, log') →
    Good log' { index := w.index, call := w.task.call, result }

/-- What holds of a pool at any time: every slot has a worker or a result, and the dispatches so
far are those of the workers. -/
structure PoolInvariant (prepare : IrCall → Except StepExecResult PreparedCall)
    (calls : List IndexedCall) (log : DispatchLog) (Live : Worker → Prop)
    (Good : DispatchLog → BatchResult → Prop) (pool : Pool) : Prop where
  slots : (pool.queue.map BatchResult.slot ++ pool.workers.map Worker.slot).Perm calls
  queue : ∀ r ∈ pool.queue, Good pool.log r
  workers : ∀ w ∈ pool.workers, Live w
  prepared : ∀ w ∈ pool.workers, prepare w.task.call = .ok w.task
  log : ∃ new, pool.log = log ++ new ∧
    (∀ r ∈ new, ∃ slot ∈ calls, ∃ task, prepare slot.2 = .ok task ∧ MadeFor task r) ∧
    new.length + pool.workers.length ≤ calls.length + new.countP DispatchRecord.failedRetry

namespace PoolInvariant

variable {calls : List IndexedCall} {log : DispatchLog} {Live : Worker → Prop}
  {Good : DispatchLog → BatchResult → Prop} {pool : Pool}

/-- The slot of a worker belongs to the batch. -/
theorem slot_mem (h : PoolInvariant prepare calls log Live Good pool) {w : Worker}
    (hw : w ∈ pool.workers) : w.slot ∈ calls :=
  h.slots.mem_iff.1 (List.mem_append_right _ (List.mem_map_of_mem hw))

/-- The dispatches of a worker are added to those of the batch. -/
theorem log_append (h : PoolInvariant prepare calls log Live Good pool) {w : Worker}
    (hw : w ∈ pool.workers) {new : DispatchLog} (hmade : ∀ r ∈ new, MadeFor w.task r) {left : Nat}
    (hlen : new.length + left ≤ pool.workers.length + new.countP DispatchRecord.failedRetry) :
    ∃ all, pool.log ++ new = log ++ all ∧
      (∀ r ∈ all, ∃ slot ∈ calls, ∃ task, prepare slot.2 = .ok task ∧ MadeFor task r) ∧
      all.length + left ≤ calls.length + all.countP DispatchRecord.failedRetry := by
  obtain ⟨old, hold, hprep, hcount⟩ := h.log
  refine ⟨old ++ new, by rw [hold, List.append_assoc], List.forall_mem_append.2 ⟨hprep, ?_⟩, ?_⟩
  · exact fun r hr => ⟨w.slot, h.slot_mem hw, w.task, h.prepared w hw, hmade r hr⟩
  · rw [List.length_append, List.countP_append]
    omega

/-- A batch with one more slot. -/
theorem log_cons (h : PoolInvariant prepare calls log Live Good pool) (slot : IndexedCall)
    {left : Nat} (hleft : left ≤ pool.workers.length + 1) :
    ∃ new, pool.log = log ++ new ∧
      (∀ r ∈ new, ∃ slot' ∈ slot :: calls, ∃ task, prepare slot'.2 = .ok task ∧ MadeFor task r) ∧
      new.length + left ≤ (slot :: calls).length + new.countP DispatchRecord.failedRetry := by
  obtain ⟨new, hnew, hprep, hcount⟩ := h.log
  refine ⟨new, hnew, fun r hr => ?_, ?_⟩
  · obtain ⟨slot', hslot, hrest⟩ := hprep r hr
    exact ⟨slot', List.mem_cons_of_mem _ hslot, hrest⟩
  · rw [List.length_cons]
    omega

/-- A worker that ends gives its slot to its result. -/
theorem finish (rule : PoolRule env Live Good)
    (h : PoolInvariant prepare calls log Live Good pool) {w : Worker} {rest : List Worker}
    (hrest : (w :: rest).Perm pool.workers) {result : StepExecResult} {new : DispatchLog}
    (hgood : Good (pool.log ++ new) { index := w.index, call := w.task.call, result })
    (hmade : ∀ r ∈ new, MadeFor w.task r)
    (hlen : new.length ≤ 1 + new.countP DispatchRecord.failedRetry) :
    PoolInvariant prepare calls log Live Good {
      workers := rest
      queue := pool.queue ++ [{ index := w.index, call := w.task.call, result }]
      log := pool.log ++ new } where
  slots := by
    refine List.Perm.trans ?_ h.slots
    rw [List.map_append, List.append_assoc]
    exact (hrest.map Worker.slot).append_left _
  queue := by
    intro r hr
    rcases List.mem_append.1 hr with hr | hr
    · exact rule.append _ _ _ (h.queue r hr)
    · rw [List.mem_singleton.1 hr]
      exact hgood
  workers := fun v hv => h.workers v (hrest.mem_iff.1 (List.mem_cons_of_mem _ hv))
  prepared := fun v hv => h.prepared v (hrest.mem_iff.1 (List.mem_cons_of_mem _ hv))
  log := by
    have hworkers := hrest.length_eq
    rw [List.length_cons] at hworkers
    refine h.log_append (hrest.mem_iff.1 List.mem_cons_self) hmade ?_
    show _ + rest.length ≤ _
    omega

/-- A worker that goes on after a failed attempt. -/
theorem goOn (rule : PoolRule env Live Good) (h : PoolInvariant prepare calls log Live Good pool)
    {pick : Nat} {w : Worker} (w' : Worker) (hw : pool.workers[pick]? = some w)
    (hslot : w'.slot = w.slot) (htask : w'.task = w.task) (hlive : Live w') {new : DispatchLog}
    (hmade : ∀ r ∈ new, MadeFor w.task r)
    (hlen : new.length = new.countP DispatchRecord.failedRetry) :
    PoolInvariant prepare calls log Live Good {
      pool with
      workers := pool.workers.set pick w'
      log := pool.log ++ new } where
  slots := by
    obtain ⟨hlt, -⟩ := List.getElem?_eq_some_iff.1 hw
    have hmap : (pool.workers.set pick w').map Worker.slot = pool.workers.map Worker.slot := by
      apply List.ext_getElem?
      intro i
      rw [List.getElem?_map, List.getElem?_map]
      by_cases hi : pick = i
      · subst hi
        rw [List.getElem?_set_self hlt, hw, Option.map_some, Option.map_some, hslot]
      · rw [List.getElem?_set_ne hi]
    show (_ ++ (pool.workers.set pick w').map Worker.slot).Perm calls
    rw [hmap]
    exact h.slots
  queue := fun r hr => rule.append _ _ _ (h.queue r hr)
  workers := by
    intro v hv
    rcases List.mem_or_eq_of_mem_set hv with hv | rfl
    · exact h.workers v hv
    · exact hlive
  prepared := by
    intro v hv
    rcases List.mem_or_eq_of_mem_set hv with hv | rfl
    · exact h.prepared v hv
    · rw [htask]
      exact h.prepared w (List.mem_of_getElem? hw)
  log := h.log_append (List.mem_of_getElem? hw) hmade (by rw [List.length_set, hlen, add_comm])

/-- One more slot, with a result. -/
theorem addResult (h : PoolInvariant prepare calls log Live Good pool) (r : BatchResult)
    (hgood : Good pool.log r) :
    PoolInvariant prepare (r.slot :: calls) log Live Good
      { pool with queue := r :: pool.queue } where
  slots := h.slots.cons r.slot
  queue := List.forall_mem_cons.2 ⟨hgood, h.queue⟩
  workers := h.workers
  prepared := h.prepared
  log := h.log_cons r.slot (Nat.le_add_right _ 1)

/-- One more slot, with a worker. -/
theorem addWorker (h : PoolInvariant prepare calls log Live Good pool) (w : Worker)
    (hlive : Live w) (hprepared : prepare w.task.call = .ok w.task) :
    PoolInvariant prepare (w.slot :: calls) log Live Good
      { pool with workers := w :: pool.workers } where
  slots := List.perm_middle.trans (h.slots.cons w.slot)
  queue := h.queue
  workers := List.forall_mem_cons.2 ⟨hlive, h.workers⟩
  prepared := List.forall_mem_cons.2 ⟨hprepared, h.prepared⟩
  log := h.log_cons w.slot (Nat.le_of_eq List.length_cons)

/-- One attempt of any worker. -/
theorem step (rule : PoolRule env Live Good) (h : PoolInvariant prepare calls log Live Good pool)
    (pick : Nat) : PoolInvariant prepare calls log Live Good (pool.step env pick) := by
  unfold Pool.step
  cases hw : pool.workers[pick]? with
  | none => exact h
  | some w =>
    have hlive := h.workers w (List.mem_of_getElem? hw)
    cases hattempt : runAttempt env (some w.index) w.task w.attempt w.history pool.log with
    | mk out log' =>
      obtain ⟨new, rfl, hmade, hend⟩ := runAttempt_spec hattempt
      rcases hend with ⟨result, rfl, hlen⟩ | ⟨history, rfl, -, hlen, hcount⟩
      · simp only [hattempt]
        obtain ⟨hlt, hget⟩ := List.getElem?_eq_some_iff.1 hw
        have hperm := List.getElem_cons_eraseIdx_perm hlt
        rw [hget] at hperm
        exact h.finish rule hperm (rule.attempt_done w _ _ _ hlive hattempt) hmade
          (Nat.le_add_right_of_le hlen)
      · simp only [hattempt]
        exact h.goOn rule { w with attempt := w.attempt + 1, history } hw rfl rfl
          (rule.attempt_again w _ _ _ hlive hattempt) hmade (hlen.trans hcount.symm)

/-- Any number of attempts in any order. -/
theorem steps (rule : PoolRule env Live Good) (h : PoolInvariant prepare calls log Live Good pool)
    (picks : List Nat) :
    PoolInvariant prepare calls log Live Good (picks.foldl (Pool.step env) pool) := by
  induction picks generalizing pool with
  | nil => exact h
  | cons pick picks ih => exact ih (h.step rule pick)

/-- The remaining workers finish. -/
theorem drain (rule : PoolRule env Live Good) {workers : List Worker} {queue : List BatchResult}
    {plog : DispatchLog}
    (h : PoolInvariant prepare calls log Live Good { workers, queue, log := plog }) :
    PoolInvariant prepare calls log Live Good {
      workers := []
      queue := (drainWorkers env workers queue plog).1
      log := (drainWorkers env workers queue plog).2 } := by
  induction workers generalizing queue plog with
  | nil => exact h
  | cons w rest ih =>
    obtain ⟨new, hnew, hdisp⟩ := @runAttempts_spec env (some w.index) w.task
      (maxAttempts w.task.call - w.attempt) w.attempt w.history plog
    have hlive := h.workers w List.mem_cons_self
    have hgood := rule.drained w plog _ _ hlive rfl
    rw [hnew] at hgood
    have hfinish := h.finish rule (List.Perm.refl _) hgood hdisp.madeFor hdisp.length_le
    rw [← hnew] at hfinish
    exact ih hfinish

end PoolInvariant

theorem log_preparePool (env : RunEnv) (prepare : IrCall → Except StepExecResult PreparedCall)
    (log : DispatchLog) (calls : List IndexedCall) :
    (preparePool env prepare log calls).log = log := by
  induction calls with
  | nil => rfl
  | cons slot calls ih =>
    unfold preparePool
    split
    · exact ih
    · split <;> exact ih

/-- The pool before its first attempt. -/
theorem poolInvariant_preparePool {Live : Worker → Prop} {Good : DispatchLog → BatchResult → Prop}
    {log : DispatchLog} {calls : List IndexedCall}
    (hcall : ∀ slot ∈ calls, ∀ task, prepare slot.2 = .ok task → task.call = slot.2)
    (hlive : ∀ slot ∈ calls, ∀ task, prepare slot.2 = .ok task →
      (env.cloneForThread log slot.1).isOk = true →
      Live { index := slot.1, task, attempt := 0, history := [] })
    (hclone : ∀ slot ∈ calls, ∀ task e, prepare slot.2 = .ok task →
      env.cloneForThread log slot.1 = .error e →
      Good log { index := slot.1, call := slot.2, result := .error e.text 0 [] })
    (hskip : ∀ slot ∈ calls, ∀ result, prepare slot.2 = .error result →
      Good log { index := slot.1, call := slot.2, result }) :
    PoolInvariant prepare calls log Live Good (preparePool env prepare log calls) := by
  induction calls with
  | nil => refine ⟨List.Perm.nil, ?_, ?_, ?_, [], ?_, ?_, ?_⟩ <;> simp [preparePool]
  | cons slot calls ih =>
    obtain ⟨index, call⟩ := slot
    have inv := ih (fun s hs => hcall s (List.mem_cons_of_mem _ hs))
      (fun s hs => hlive s (List.mem_cons_of_mem _ hs))
      (fun s hs => hclone s (List.mem_cons_of_mem _ hs))
      (fun s hs => hskip s (List.mem_cons_of_mem _ hs))
    have hmem : (index, call) ∈ (index, call) :: calls := List.mem_cons_self
    have hlog := log_preparePool env prepare log calls
    cases hprep : prepare call with
    | error result =>
      simp only [preparePool, hprep]
      exact inv.addResult ⟨index, call, result⟩ (by rw [hlog]; exact hskip _ hmem result hprep)
    | ok task =>
      have htask : task.call = call := hcall _ hmem task hprep
      cases hthread : env.cloneForThread log index with
      | error e =>
        simp only [preparePool, hprep, hthread]
        exact inv.addResult ⟨index, call, .error e.text 0 []⟩
          (by rw [hlog]; exact hclone _ hmem task e hprep hthread)
      | ok _ =>
        simp only [preparePool, hprep, hthread]
        have hadd := inv.addWorker ⟨index, task, 0, []⟩
          (hlive _ hmem task hprep (by rw [hthread]; rfl)) (by rw [htask]; exact hprep)
        rw [Worker.slot, htask] at hadd
        exact hadd

/-- Sorting results by their positions restores the order of the calls. -/
theorem slots_insertionSort {queue : List BatchResult} {calls : List IndexedCall}
    (hperm : (queue.map BatchResult.slot).Perm calls)
    (hsorted : calls.Pairwise fun a b => a.1 < b.1) :
    (queue.insertionSort fun a b => a.index ≤ b.index).map BatchResult.slot = calls := by
  have htotal : Std.Total fun a b : BatchResult => a.index ≤ b.index :=
    ⟨fun a b => Nat.le_total a.index b.index⟩
  have htrans : IsTrans BatchResult fun a b => a.index ≤ b.index :=
    ⟨fun _ _ _ => Nat.le_trans⟩
  have hback := ((List.perm_insertionSort (fun a b : BatchResult => a.index ≤ b.index) queue).map
    BatchResult.slot).trans hperm
  have hinj : (calls.map Prod.fst).Nodup :=
    (List.pairwise_map.2 hsorted).imp fun h => Nat.ne_of_lt h
  -- two slots with the same position are equal, so the order of the positions decides
  refine List.Perm.eq_of_pairwise ?_ ?_ (hsorted.imp fun h => Nat.le_of_lt h) hback
  · intro a b ha hb hab hba
    exact List.inj_on_of_nodup_map hinj (hback.mem_iff.1 ha) hb (Nat.le_antisymm hab hba)
  · exact List.pairwise_map.2 (List.pairwise_insertionSort _ queue)

/-- The results of a batch on worker threads, whatever the order of their attempts. -/
theorem dispatchOnWorkers_spec {Live : Worker → Prop} {Good : DispatchLog → BatchResult → Prop}
    (rule : PoolRule env Live Good) {calls : List IndexedCall} {log : DispatchLog}
    (hinit : PoolInvariant prepare calls log Live Good (preparePool env prepare log calls))
    (hsorted : calls.Pairwise fun a b => a.1 < b.1) :
    (dispatchOnWorkers env prepare calls log).1.map BatchResult.slot = calls ∧
      (∀ r ∈ (dispatchOnWorkers env prepare calls log).1,
        Good (dispatchOnWorkers env prepare calls log).2 r) ∧
      ∃ new, (dispatchOnWorkers env prepare calls log).2 = log ++ new ∧
        BatchDispatches prepare calls new := by
  have inv := (hinit.steps rule (env.picks log)).drain rule
  have hslots := inv.slots
  rw [List.map_nil, List.append_nil] at hslots
  refine ⟨slots_insertionSort hslots hsorted, ?_, ?_⟩
  · intro r hr
    exact inv.queue r ((List.perm_insertionSort _ _).mem_iff.1 hr)
  · obtain ⟨new, hnew, hprep, hlen⟩ := inv.log
    exact ⟨new, hnew, hprep, hlen⟩

/-- A live worker has a prepared call and attempts left; its step ends with a result of its own. -/
theorem poolRule_produced :
    PoolRule env
      (fun w => prepare w.task.call = .ok w.task ∧ w.attempt < maxAttempts w.task.call)
      (Produced env prepare) where
  append := fun _ new _ h => h.append new
  attempt_done := fun w _ _ _ hlive hattempt =>
    Or.inr ⟨w.task, hlive.1, runAttempt_caused hattempt⟩
  attempt_again := by
    intro w log history log' hlive hattempt
    obtain ⟨new, -, -, hend⟩ := runAttempt_spec hattempt
    rcases hend with ⟨result, hdone, -⟩ | ⟨history', -, hlt, -⟩
    · cases hdone
    · exact ⟨hlive.1, hlt⟩
  drained := by
    intro w log result log' hlive hrest
    have hcaused := @runAttempts_caused env w.task (some w.index)
      (maxAttempts w.task.call - w.attempt) w.attempt w.history log
      (Nat.add_sub_of_le hlive.2.le).symm (Nat.sub_pos_of_lt hlive.2)
    rw [hrest] at hcaused
    exact Or.inr ⟨w.task, hlive.1, hcaused⟩

end Batch

/-! ## Batches of a phase -/

theorem prepareCall_eq_ok {codec : JsonCodec} {phaseIdx : Nat} {captured : Captured}
    {skipped : List String} {receiptGraph : List Json} {call : IrCall} {task : PreparedCall}
    (h : prepareCall codec phaseIdx captured skipped receiptGraph call = .ok task) :
    ∃ args, resolveArguments codec call captured skipped = .ok args ∧
      task = {
        call
        phase := phaseIdx
        arguments := substituteReceiptGraph args receiptGraph
        dependencyReceipts := dependencyReceiptsFromCaptured call captured } := by
  unfold prepareCall at h
  cases hargs : resolveArguments codec call captured skipped with
  | error e =>
    rw [hargs] at h
    cases h
  | ok args =>
    rw [hargs] at h
    cases h
    exact ⟨args, rfl, rfl⟩

/-- The calls of a batch stand in the order of their positions. -/
theorem pairwise_indexedCalls (calls : List IrCall) (optional : Bool) :
    (indexedCalls calls optional).Pairwise fun a b => a.1 < b.1 := by
  refine List.pairwise_map.2 (List.Pairwise.filter _ ?_)
  have hrange : (calls.zipIdx.map Prod.snd).Pairwise (· < ·) := by
    rw [List.zipIdx_map_snd]
    exact List.pairwise_lt_range'
  exact List.pairwise_map.1 hrange

/-- How the calls of a batch are prepared in a state. -/
def PhaseRunState.prepare (codec : JsonCodec) (phaseIdx : Nat) (st : PhaseRunState) :
    IrCall → Except StepExecResult PreparedCall :=
  prepareCall codec phaseIdx st.captured st.skippedBindings st.receiptGraph

/-- A batch yields one result for each of its calls, in their order. -/
theorem dispatchBatch_spec (env : RunEnv) (parallel : Bool) (phaseIdx : Nat) (st : PhaseRunState)
    {calls : List IndexedCall} (hsorted : calls.Pairwise fun a b => a.1 < b.1) (log : DispatchLog) :
    (dispatchBatch env parallel phaseIdx st calls log).1.map BatchResult.slot = calls ∧
      (∀ r ∈ (dispatchBatch env parallel phaseIdx st calls log).1,
        Produced env (st.prepare env.codec phaseIdx)
          (dispatchBatch env parallel phaseIdx st calls log).2 r) ∧
      ∃ new, (dispatchBatch env parallel phaseIdx st calls log).2 = log ++ new ∧
        BatchDispatches (st.prepare env.codec phaseIdx) calls new := by
  unfold dispatchBatch
  split
  · refine dispatchOnWorkers_spec poolRule_produced (poolInvariant_preparePool ?_ ?_ ?_ ?_) hsorted
    · intro slot _ task hprep
      obtain ⟨args, -, rfl⟩ := prepareCall_eq_ok hprep
      rfl
    · intro slot _ task hprep _
      obtain ⟨args, -, rfl⟩ := prepareCall_eq_ok hprep
      exact ⟨hprep, maxAttempts_pos _⟩
    · intro slot _ task e hprep hthread
      exact Or.inr ⟨task, hprep, .noThread slot.1 log e hthread⟩
    · intro slot _ result hprep
      exact Or.inl hprep
  · exact dispatchInOrder_spec calls log

end EasyNetDaemon.Eal
