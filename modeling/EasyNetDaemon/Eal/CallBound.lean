import EasyNetDaemon.Eal.RunRules
import EasyNetDaemon.Eal.Schedule
import Mathlib.Algebra.BigOperators.Group.List.Basic
import Mathlib.Data.Nat.Cast.Basic

/-!
# The bound on dispatches

The planner rejects missions whose steps make more than 256 calls in the worst case, by a bound that
counts the iterations of loops but no retries. A run makes at most that many dispatches and one more
for each failed dispatch of a call that is retried (`dispatches_le_staticCallBound`); with retries
the bound itself does not hold (`retries_exceed_staticCallBound`).
-/

namespace EasyNetDaemon.Eal

open Library EasyNetDaemon.Core

/-! ## Growth of the log -/

/-- At most `n` dispatches were added, failed retries not counted. -/
def LogGrows (n : Nat) (log log' : DispatchLog) : Prop :=
  ∃ new, log' = log ++ new ∧ new.length ≤ n + new.countP DispatchRecord.failedRetry

namespace LogGrows

variable {n m : Nat} {log log' log'' : DispatchLog}

theorem refl (n : Nat) (log : DispatchLog) : LogGrows n log log :=
  ⟨[], (List.append_nil _).symm, Nat.zero_le _⟩

theorem mono (h : LogGrows n log log') (hle : n ≤ m) : LogGrows m log log' := by
  obtain ⟨new, hnew, hlen⟩ := h
  exact ⟨new, hnew, hlen.trans (Nat.add_le_add_right hle _)⟩

theorem trans (h : LogGrows n log log') (h' : LogGrows m log' log'') :
    LogGrows (n + m) log log'' := by
  obtain ⟨new, rfl, hlen⟩ := h
  obtain ⟨more, rfl, hmore⟩ := h'
  refine ⟨new ++ more, List.append_assoc _ _ _, ?_⟩
  rw [List.length_append, List.countP_append]
  omega

end LogGrows

section Growth

variable {env : RunEnv} {phaseIdx : Nat}

theorem logGrows_runBatch (parallel : Bool) {calls : List IndexedCall}
    (hsorted : calls.Pairwise fun a b => a.1 < b.1) (st : PhaseRunState) (log : DispatchLog) :
    LogGrows calls.length log (runBatch env parallel phaseIdx calls st log).2 := by
  obtain ⟨-, -, new, hnew, hdisp⟩ := dispatchBatch_spec env parallel phaseIdx st hsorted log
  exact ⟨new, hnew, hdisp.length_le⟩

/-- In a block, what has been dispatched and what is still to come stay under the number of
calls. -/
theorem blockRule_logGrows (n : Nat) (log : DispatchLog) :
    BlockRule env phaseIdx fun calls _ _ log' =>
      ∃ k, k + calls.length ≤ n ∧ LogGrows k log log' where
  skipped := by
    rintro call rest st iter log' binding arg ⟨k, hk, hgrows⟩ -
    rw [List.length_cons] at hk
    exact ⟨k, by omega, hgrows⟩
  unresolved := by
    rintro call rest st iter log' e ⟨k, hk, hgrows⟩ -
    rw [List.length_cons] at hk
    exact ⟨k, by omega, hgrows⟩
  dispatched := by
    rintro call rest st iter log₁ args result log₂ ⟨k, hk, hgrows⟩ - hexec
    obtain ⟨new, hnew, hdisp⟩ :=
      executeStepWithRetry_spec env none (blockTask phaseIdx st iter call args) log₁
    rw [hexec] at hnew
    rw [List.length_cons] at hk
    exact ⟨k + 1, by omega, hgrows.trans ⟨new, hnew, hdisp.length_le⟩⟩

theorem logGrows_runLoopBlockSequentially (calls : List IrCall) (st : PhaseRunState)
    (iter : IterScope) (log : DispatchLog) :
    LogGrows calls.length log (runLoopBlockSequentially env phaseIdx calls st iter log).log := by
  have hstart : ∃ k, k + calls.length ≤ calls.length ∧ LogGrows k log log :=
    ⟨0, by omega, .refl 0 log⟩
  obtain ⟨rest, k, hk, hgrows⟩ :=
    @BlockRule.runBlock env phaseIdx _ (blockRule_logGrows calls.length log) calls st iter
      log hstart
  exact hgrows.mono (by omega)

theorem log_decideIteration (resultBinding : Option String) (verify : List IrCall)
    (run : BlockRun) : (decideIteration env.codec resultBinding verify run).log = run.log := by
  unfold decideIteration
  split
  · rfl
  · split <;> rfl

theorem logGrows_loopIteration (resultBinding : Option String) (body verify : List IrCall)
    (st : PhaseRunState) (log : DispatchLog) :
    LogGrows (body.length + verify.length) log
      (loopIteration env phaseIdx resultBinding body verify st log).log := by
  have hbody := @logGrows_runLoopBlockSequentially env phaseIdx body st ⟨[], []⟩ log
  unfold loopIteration
  simp only
  split
  · exact hbody.mono (Nat.le_add_right _ _)
  · split
    · exact hbody.trans (logGrows_runLoopBlockSequentially verify _ _ _)
    · rw [log_decideIteration]
      exact hbody.trans (logGrows_runLoopBlockSequentially verify _ _ _)

theorem logGrows_loopIterations (resultBinding : Option String) (body verify : List IrCall)
    (left : Nat) (st : PhaseRunState) (log : DispatchLog) :
    LogGrows (left * (body.length + verify.length)) log
      (loopIterations env phaseIdx resultBinding body verify left st log).2 := by
  induction left generalizing st log with
  | zero => exact .refl _ _
  | succ left ih =>
    have hiter := @logGrows_loopIteration env phaseIdx resultBinding body verify st log
    rw [Nat.succ_mul]
    unfold loopIterations
    split
    · exact .refl _ _
    · simp only
      split
      · exact (hiter.trans (ih _ _)).mono (Nat.le_of_eq (Nat.add_comm _ _))
      · exact hiter.mono (Nat.le_add_left _ _)

/-- The leaves of a block are all its calls. -/
theorem walkCallsAll_of_flattenLoopLeaves {steps : List IrStep} {calls : List IrCall}
    (h : flattenLoopLeaves steps = some calls) : walkCallsAll steps = calls := by
  induction steps generalizing calls with
  | nil =>
    cases h
    rfl
  | cons step rest ih =>
    cases step with
    | loop lp => cases h
    | call c =>
      obtain ⟨calls', hrest, rfl⟩ := Option.map_eq_some_iff.1 h
      rw [walkCallsAll, ih hrest]
      rfl

theorem logGrows_executeLoop (lp : IrLoop) (st : PhaseRunState) (log : DispatchLog) :
    LogGrows (IrStep.loop lp).staticCallBound log (executeLoop env phaseIdx lp st log).2 := by
  unfold executeLoop
  split
  · rename_i body verify hbody hverify
    rw [IrStep.staticCallBound, walkCallsAll_of_flattenLoopLeaves hbody,
      walkCallsAll_of_flattenLoopLeaves hverify]
    exact logGrows_loopIterations _ _ _ _ _ _
  · exact .refl _ _

end Growth

/-! ## The steps of the jobs -/

/-- The steps that a job does. -/
def Job.steps : Job → List IrStep
  | .batch _ _ calls => calls.map fun slot => .call slot.2
  | .loop _ lp => [.loop lp]

theorem steps_closeRun (phaseIdx : Nat) (run : List IrCall) :
    (((closeRun run).flatMap (PhasePartition.jobs phaseIdx)).flatMap Job.steps).Perm
      (run.map IrStep.call) := by
  unfold closeRun
  split
  · rename_i hempty
    rw [List.isEmpty_iff.1 hempty]
    exact List.Perm.nil
  · have hperm := (indexedCalls_perm run).map IrStep.call
    rw [List.map_map, List.map_append] at hperm
    simpa [PhasePartition.jobs, Job.steps, Function.comp_def] using hperm

theorem steps_splitPhaseSteps (phaseIdx : Nat) (run : List IrCall) (steps : List IrStep) :
    (((splitPhaseSteps run steps).flatMap (PhasePartition.jobs phaseIdx)).flatMap Job.steps).Perm
      (run.map IrStep.call ++ steps) := by
  induction steps generalizing run with
  | nil =>
    rw [List.append_nil]
    exact steps_closeRun phaseIdx run
  | cons step rest ih =>
    cases step with
    | call c =>
      have hrest := ih (run ++ [c])
      rw [List.map_append, List.append_assoc] at hrest
      exact hrest
    | loop lp =>
      rw [splitPhaseSteps, List.flatMap_append, List.flatMap_append]
      exact (steps_closeRun phaseIdx run).append ((ih []).cons _)

/-- The steps of phases that follow one another. -/
theorem flatMap_phaseSteps {steps : List IrStep} {start stop : Nat} {phases : List PhaseRange}
    (h : Contiguous start phases stop) :
    phases.flatMap (phaseSteps steps) = (steps.take stop).drop start := by
  induction phases generalizing start with
  | nil =>
    cases h
    rw [List.flatMap_nil, List.drop_eq_nil_of_le (List.length_take_le _ _)]
  | cons r rest ih =>
    obtain ⟨rfl, hle, hrest⟩ := h
    have htake : steps.take r.stop = (steps.take stop).take r.stop := by
      rw [List.take_take, Nat.min_eq_left hrest.le]
    have hsplit := List.take_append_drop (r.stop - r.start) ((steps.take stop).drop r.start)
    rw [List.drop_drop, Nat.add_sub_cancel' hle, ← List.drop_take] at hsplit
    rw [List.flatMap_cons, ih hrest, phaseSteps, htake, hsplit]

variable {ir : MissionIr}

/-- Every step of a mission is in one of its jobs. -/
theorem steps_jobs (h : Contiguous 0 ir.phases ir.steps.length) :
    (ir.jobs.flatMap Job.steps).Perm ir.steps := by
  have hphases : ∀ phases : List (PhaseRange × Nat),
      ((phases.flatMap (phaseJobs ir.steps)).flatMap Job.steps).Perm
        ((phases.map Prod.fst).flatMap (phaseSteps ir.steps)) := by
    intro phases
    induction phases with
    | nil => exact List.Perm.nil
    | cons phase rest ih =>
      rw [List.flatMap_cons, List.flatMap_append, List.map_cons, List.flatMap_cons]
      exact (steps_splitPhaseSteps phase.2 [] _).append ih
  have hall := hphases ir.phases.zipIdx
  rw [List.zipIdx_map_fst, flatMap_phaseSteps h, List.take_length, List.drop_zero] at hall
  exact hall

/-! ## The bound of the jobs -/

/-- The number of calls that a job makes at most, retries not counted. -/
def Job.bound : Job → Nat
  | .batch _ _ calls => calls.length
  | .loop _ lp => (IrStep.loop lp).staticCallBound

theorem Job.bound_eq (job : Job) : job.bound = (job.steps.map IrStep.staticCallBound).sum := by
  cases job with
  | batch phaseIdx many calls => simp [bound, steps, IrStep.staticCallBound, Function.comp_def]
  | loop phaseIdx lp => exact (Nat.add_zero _).symm

/-- The bounds of the jobs of a compiled mission add up to the bound of the planner. -/
theorem bound_jobs (h : Contiguous 0 ir.phases ir.steps.length) :
    (ir.jobs.map Job.bound).sum = ir.staticCallBound := by
  have hsum : ∀ jobs : List Job, (jobs.map Job.bound).sum =
      ((jobs.flatMap Job.steps).map IrStep.staticCallBound).sum := by
    intro jobs
    induction jobs with
    | nil => rfl
    | cons job jobs ih =>
      rw [List.map_cons, List.sum_cons, job.bound_eq, ih, List.flatMap_cons, List.map_append,
        List.sum_append]
  rw [hsum, ((steps_jobs h).map IrStep.staticCallBound).sum_eq]
  rfl

/-! ## Whole runs -/

/-- The batches of a mission are in the order of their positions. -/
theorem pairwise_of_mem_jobs {phaseIdx : Nat} {many : Bool} {calls : List IndexedCall}
    (h : Job.batch phaseIdx many calls ∈ ir.jobs) :
    calls.Pairwise fun a b => a.1 < b.1 := by
  obtain ⟨phase, -, hphase⟩ := List.mem_flatMap.1 h
  obtain ⟨partition, -, hjob⟩ := List.mem_flatMap.1 hphase
  cases partition with
  | calls run =>
    rcases List.mem_pair.1 hjob with hjob | hjob <;> cases hjob
    · exact pairwise_indexedCalls run false
    · exact pairwise_indexedCalls run true
  | loop lp => cases List.mem_singleton.1 hjob

theorem logGrows_run {env : RunEnv} {job : Job} (hjob : job ∈ ir.jobs) (st : PhaseRunState)
    (log : DispatchLog) : LogGrows job.bound log (job.run env st log).2 := by
  cases job with
  | batch phaseIdx many calls => exact logGrows_runBatch _ (pairwise_of_mem_jobs hjob) st log
  | loop phaseIdx lp => exact logGrows_executeLoop lp st log

theorem logGrows_foldl {env : RunEnv} {ir : MissionIr} {jobs : List Job} (hjobs : jobs ⊆ ir.jobs)
    (acc : PhaseRunState × DispatchLog) :
    LogGrows (jobs.map Job.bound).sum acc.2 (jobs.foldl (runJob env) acc).2 := by
  induction jobs generalizing acc with
  | nil => exact .refl 0 _
  | cons job jobs ih =>
    obtain ⟨hjob, hrest⟩ := List.cons_subset.1 hjobs
    have hfirst : LogGrows job.bound acc.2 (runJob env acc job).2 := by
      unfold runJob
      split
      · exact .refl _ _
      · exact logGrows_run hjob _ _
    exact hfirst.trans (ih hrest _)

/-- The dispatches of a run of a compiled mission. -/
theorem length_dispatches_le {program : EalProgram} (h : compile program = .ok ir) (env : RunEnv) :
    (execute env ir).2.length ≤
      ir.staticCallBound + (execute env ir).2.countP DispatchRecord.failedRetry := by
  have hgrows := @logGrows_foldl env ir ir.jobs (List.Subset.refl _) (.initial, [])
  rw [bound_jobs (compile_contiguous h), ← execute_eq_jobs] at hgrows
  obtain ⟨new, hnew, hlen⟩ := hgrows
  rw [hnew, List.nil_append]
  exact hlen

/-- The bound of the planner holds in every run in which no dispatch of a call with retries left
fails; each such failure adds at most one dispatch. -/
theorem dispatches_le_staticCallBound {program : EalProgram} {ir : MissionIr}
    (h : compile program = .ok ir) (env : RunEnv) :
    (execute env ir).2.length ≤
        ir.staticCallBound + (execute env ir).2.countP DispatchRecord.failedRetry ∧
      ((∀ r ∈ (execute env ir).2, r.failedRetry = false) →
        (execute env ir).2.length ≤ ir.staticCallBound ∧
          (execute env ir).2.length ≤ defaultMaxCalls) := by
  have hlen := length_dispatches_le h env
  obtain ⟨-, -, -, -, hcap⟩ := compile_eq_ok h
  refine ⟨hlen, ?_⟩
  intro hretry
  have hzero : (execute env ir).2.countP DispatchRecord.failedRetry = 0 := by
    rw [List.countP_eq_zero]
    intro r hr
    rw [hretry r hr]
    exact Bool.false_ne_true
  rw [hzero] at hlen
  exact ⟨hlen, hlen.trans hcap⟩

theorem dispatches_le_staticCallBound_sampleMission :
    ∃ ir, compile sampleMission = .ok ir ∧
      (execute (sampleEnv fun _ => .ok (sampleOutcome .null)) ir).2.length ≤
        ir.staticCallBound := by
  have hruns : (compile sampleMission).toOption.any (fun ir =>
      (execute (sampleEnv fun _ => .ok (sampleOutcome .null)) ir).2.all fun r =>
        r.failedRetry == false) = true := by
    decide +kernel
  obtain ⟨ir, h, hnone⟩ := exists_ok_of_any hruns
  refine ⟨ir, h, ((dispatches_le_staticCallBound h _).2 ?_).1⟩
  intro r hr
  exact beq_iff_eq.1 (List.all_eq_true.1 hnone r hr)

/-- `call "health.check" on "cam" retries 256 on_failure retry`. -/
def retriedMission : EalProgram where
  mission := {
    name := "check"
    statements := [.call ⟨"health.check", some "cam", .device, [],
      { maxRetries := some 256, onFailure := some .retry }⟩] }

/-- A node that never answers is asked 257 times for one call, more often than any bound allows. -/
theorem retries_exceed_staticCallBound :
    ∃ ir, compile retriedMission = .ok ir ∧ ir.staticCallBound = 1 ∧
      (execute (sampleEnv fun _ => .error (.unavailable "cam")) ir).2.length = 257 ∧
      defaultMaxCalls < 257 := by
  have hrun : (compile retriedMission).toOption.any (fun ir =>
      decide (ir.staticCallBound = 1 ∧
        (execute (sampleEnv fun _ => .error (.unavailable "cam")) ir).2.length = 257)) = true := by
    decide +kernel
  obtain ⟨ir, h, hrun⟩ := exists_ok_of_any hrun
  obtain ⟨hbound, hlen⟩ := of_decide_eq_true hrun
  exact ⟨ir, h, hbound, hlen, by decide⟩

end EasyNetDaemon.Eal
