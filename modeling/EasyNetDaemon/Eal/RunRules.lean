import EasyNetDaemon.Eal.BatchFacts

/-!
# Rules for whole runs

A run is a list of jobs, batches of calls and loops, which are done one after the other until the
mission is aborted (`execute_eq_jobs`). What every job keeps holds at the end of a run
(`execute_invariant`); what a loop keeps follows from its blocks (`LoopRule.executeLoop`), and what
a block keeps from each result in it (`BlockRule.runBlock`).
-/

namespace EasyNetDaemon.Eal

open Library EasyNetDaemon.Core

/-! ## Jobs -/

/-- What a run does in one piece: a batch of calls, which may use worker threads if its partition
has several calls, or a loop. -/
inductive Job
  | batch (phaseIdx : Nat) (many : Bool) (calls : List IndexedCall)
  | loop (phaseIdx : Nat) (lp : IrLoop)

/-- Does a job. -/
def Job.run (env : RunEnv) (st : PhaseRunState) (log : DispatchLog) :
    Job → PhaseRunState × DispatchLog
  | .batch phaseIdx many calls =>
    runBatch env (many && env.concurrency == .parallel) phaseIdx calls st log
  | .loop phaseIdx lp => executeLoop env phaseIdx lp st log

/-- Does a job unless the mission is aborted. -/
def runJob (env : RunEnv) (acc : PhaseRunState × DispatchLog) (job : Job) :
    PhaseRunState × DispatchLog :=
  if acc.1.aborted then acc else job.run env acc.1 acc.2

/-- The jobs of a partition. -/
def PhasePartition.jobs (phaseIdx : Nat) : PhasePartition → List Job
  | .calls run =>
    [.batch phaseIdx (decide (1 < run.length)) (indexedCalls run false),
      .batch phaseIdx (decide (1 < run.length)) (indexedCalls run true)]
  | .loop lp => [.loop phaseIdx lp]

/-- The jobs of a phase. -/
def phaseJobs (steps : List IrStep) (phase : PhaseRange × Nat) : List Job :=
  (splitPhaseSteps [] (phaseSteps steps phase.1)).flatMap (PhasePartition.jobs phase.2)

/-- The jobs of a mission. -/
def MissionIr.jobs (ir : MissionIr) : List Job :=
  ir.phases.zipIdx.flatMap (phaseJobs ir.steps)

theorem runPartition_eq_jobs (env : RunEnv) (phaseIdx : Nat) (acc : PhaseRunState × DispatchLog)
    (partition : PhasePartition) :
    runPartition env phaseIdx acc partition = (partition.jobs phaseIdx).foldl (runJob env) acc := by
  cases partition with
  | calls calls =>
    cases habort : acc.1.aborted with
    | true => simp [runPartition, PhasePartition.jobs, runJob, habort]
    | false => simp [runPartition, PhasePartition.jobs, runJob, habort,
        executeCallsPhasePartition, Job.run]
  | loop lp => rfl

/-- A run does its jobs in order. -/
theorem execute_eq_jobs (env : RunEnv) (ir : MissionIr) :
    execute env ir = ir.jobs.foldl (runJob env) (.initial, []) := by
  have hphase : ∀ acc phase,
      runPhase env ir.steps acc phase = (phaseJobs ir.steps phase).foldl (runJob env) acc := by
    intro acc phase
    rw [phaseJobs, List.foldl_flatMap]
    exact List.foldl_ext _ _ acc fun acc partition _ =>
      runPartition_eq_jobs env phase.2 acc partition
  rw [MissionIr.jobs, List.foldl_flatMap]
  exact List.foldl_ext _ _ _ fun acc phase _ => hphase acc phase

/-- The calls of a partition, required and optional, are each in one of its batches. -/
theorem indexedCalls_perm (calls : List IrCall) :
    ((indexedCalls calls false ++ indexedCalls calls true).map Prod.snd).Perm calls := by
  have hsplit := List.filter_append_perm (fun p : IrCall × Nat => !p.1.optional) calls.zipIdx
  have hcalls := hsplit.map Prod.fst
  rw [List.zipIdx_map_fst] at hcalls
  simpa [indexedCalls, Function.comp_def] using hcalls

/-- What every job of a list keeps. -/
theorem foldl_runJob_invariant {env : RunEnv} {I : PhaseRunState → DispatchLog → Prop}
    {jobs : List Job} {acc : PhaseRunState × DispatchLog} (h : I acc.1 acc.2)
    (hjob : ∀ job ∈ jobs, ∀ st log, st.aborted = false → I st log →
      I (job.run env st log).1 (job.run env st log).2) :
    I (jobs.foldl (runJob env) acc).1 (jobs.foldl (runJob env) acc).2 := by
  induction jobs generalizing acc with
  | nil => exact h
  | cons job jobs ih =>
    refine ih ?_ fun j hj => hjob j (List.mem_cons_of_mem _ hj)
    unfold runJob
    split
    · exact h
    · rename_i hrun
      exact hjob job List.mem_cons_self acc.1 acc.2 (Bool.eq_false_iff.2 hrun) h

/-- What every job keeps holds at the end of a run. -/
theorem execute_invariant {env : RunEnv} {ir : MissionIr}
    {I : PhaseRunState → DispatchLog → Prop} (h : I .initial [])
    (hjob : ∀ job ∈ ir.jobs, ∀ st log, st.aborted = false → I st log →
      I (job.run env st log).1 (job.run env st log).2) :
    I (execute env ir).1 (execute env ir).2 := by
  rw [execute_eq_jobs]
  exact foldl_runJob_invariant h hjob

/-! ## Blocks of a loop -/

/-- The prepared call of a block. -/
def blockTask (phaseIdx : Nat) (st : PhaseRunState) (iter : IterScope) (call : IrCall)
    (args : Json) : PreparedCall where
  call
  phase := phaseIdx
  arguments := substituteReceiptGraph args st.receiptGraph
  dependencyReceipts := dependencyReceiptsFromCaptured call iter.captured

/-- The output of the last call of a block is kept. -/
def IterScope.keepLast (iter : IterScope) (rest : List IrCall) (result : StepExecResult) :
    IterScope :=
  if rest.isEmpty then iter.keepOutput result else iter

/-- What each result in a block keeps; the list holds the calls that are still to come. -/
structure BlockRule (env : RunEnv) (phaseIdx : Nat)
    (P : List IrCall → PhaseRunState → IterScope → DispatchLog → Prop) : Prop where
  skipped : ∀ call rest st iter log binding arg, P (call :: rest) st iter log →
    resolveArguments env.codec call iter.captured iter.skippedBindings =
      .error (.upstreamSkipped binding arg) →
    P rest
      (processInBlock env.codec phaseIdx st iter call
        (.skippedByDependency (dependencySkipped binding arg))).1
      (processInBlock env.codec phaseIdx st iter call
        (.skippedByDependency (dependencySkipped binding arg))).2 log
  unresolved : ∀ call rest st iter log e, P (call :: rest) st iter log →
    resolveArguments env.codec call iter.captured iter.skippedBindings = .error (.other e) →
    P rest (processInBlock env.codec phaseIdx st iter call (.error e 0 [])).1
      (processInBlock env.codec phaseIdx st iter call (.error e 0 [])).2 log
  dispatched : ∀ call rest st iter log args result log', P (call :: rest) st iter log →
    resolveArguments env.codec call iter.captured iter.skippedBindings = .ok args →
    executeStepWithRetry env none (blockTask phaseIdx st iter call args) log = (result, log') →
    P rest (processInBlock env.codec phaseIdx st (iter.keepLast rest result) call result).1
      (processInBlock env.codec phaseIdx st (iter.keepLast rest result) call result).2 log'

section Block

variable {env : RunEnv} {phaseIdx : Nat}

/-- The three ways in which a block goes on from a call. -/
theorem runLoopBlockSequentially_cons (call : IrCall) (rest : List IrCall) {st : PhaseRunState}
    (iter : IterScope) (log : DispatchLog) (hst : st.aborted = false) :
    (∃ binding arg, resolveArguments env.codec call iter.captured iter.skippedBindings =
        .error (.upstreamSkipped binding arg) ∧
      runLoopBlockSequentially env phaseIdx (call :: rest) st iter log =
        runLoopBlockSequentially env phaseIdx rest
          (processInBlock env.codec phaseIdx st iter call
            (.skippedByDependency (dependencySkipped binding arg))).1
          (processInBlock env.codec phaseIdx st iter call
            (.skippedByDependency (dependencySkipped binding arg))).2 log) ∨
    (∃ e, resolveArguments env.codec call iter.captured iter.skippedBindings =
        .error (.other e) ∧
      runLoopBlockSequentially env phaseIdx (call :: rest) st iter log =
        { ok := !(processInBlock env.codec phaseIdx st iter call (.error e 0 [])).1.aborted
          state := (processInBlock env.codec phaseIdx st iter call (.error e 0 [])).1
          iter := (processInBlock env.codec phaseIdx st iter call (.error e 0 [])).2
          log }) ∨
    ∃ args result log',
      resolveArguments env.codec call iter.captured iter.skippedBindings = .ok args ∧
      executeStepWithRetry env none (blockTask phaseIdx st iter call args) log = (result, log') ∧
      runLoopBlockSequentially env phaseIdx (call :: rest) st iter log =
        runLoopBlockSequentially env phaseIdx rest
          (processInBlock env.codec phaseIdx st (iter.keepLast rest result) call result).1
          (processInBlock env.codec phaseIdx st (iter.keepLast rest result) call result).2
          log' := by
  cases hargs : resolveArguments env.codec call iter.captured iter.skippedBindings with
  | ok args =>
    refine Or.inr (Or.inr ⟨args, _, _, rfl, rfl, ?_⟩)
    simp only [runLoopBlockSequentially, hst, hargs]
    rfl
  | error err =>
    cases err with
    | upstreamSkipped binding arg =>
      refine Or.inl ⟨binding, arg, rfl, ?_⟩
      simp only [runLoopBlockSequentially, hst, hargs]
      rfl
    | other e =>
      refine Or.inr (Or.inl ⟨e, rfl, ?_⟩)
      simp only [runLoopBlockSequentially, hst, hargs]
      rfl

/-- A block is left in order exactly when the mission is not aborted. -/
theorem ok_runLoopBlockSequentially (calls : List IrCall) (st : PhaseRunState) (iter : IterScope)
    (log : DispatchLog) :
    (runLoopBlockSequentially env phaseIdx calls st iter log).ok =
      !(runLoopBlockSequentially env phaseIdx calls st iter log).state.aborted := by
  induction calls generalizing st iter log with
  | nil => rfl
  | cons call rest ih =>
    cases hst : st.aborted with
    | true => simp [runLoopBlockSequentially, hst]
    | false =>
      rcases @runLoopBlockSequentially_cons env phaseIdx call rest st iter log hst with
        ⟨_, _, -, hrun⟩ | ⟨_, -, hrun⟩ | ⟨_, _, _, -, -, hrun⟩
      · rw [hrun]
        exact ih _ _ _
      · rw [hrun]
      · rw [hrun]
        exact ih _ _ _

/-- What every result keeps holds at the end of a block, for some rest of its calls. -/
theorem BlockRule.runBlock {P : List IrCall → PhaseRunState → IterScope → DispatchLog → Prop}
    (rule : BlockRule env phaseIdx P) (calls : List IrCall) {st : PhaseRunState} {iter : IterScope}
    {log : DispatchLog} (h : P calls st iter log) :
    ∃ rest, P rest (runLoopBlockSequentially env phaseIdx calls st iter log).state
      (runLoopBlockSequentially env phaseIdx calls st iter log).iter
      (runLoopBlockSequentially env phaseIdx calls st iter log).log := by
  induction calls generalizing st iter log with
  | nil => exact ⟨[], h⟩
  | cons call rest ih =>
    cases hst : st.aborted with
    | true =>
      simp only [runLoopBlockSequentially, hst]
      exact ⟨call :: rest, h⟩
    | false =>
      rcases @runLoopBlockSequentially_cons env phaseIdx call rest st iter log hst with
        ⟨_, _, hargs, hrun⟩ | ⟨_, hargs, hrun⟩ | ⟨_, _, _, hargs, hexec, hrun⟩
      · rw [hrun]
        exact ih (rule.skipped _ _ _ _ _ _ _ h hargs)
      · rw [hrun]
        exact ⟨rest, rule.unresolved _ _ _ _ _ _ h hargs⟩
      · rw [hrun]
        exact ih (rule.dispatched _ _ _ _ _ _ _ _ h hargs hexec)

end Block

/-! ## Loops -/

/-- What a loop keeps: `P` inside its iterations, `I` between them. -/
structure LoopRule (env : RunEnv) (phaseIdx : Nat) (I : PhaseRunState → DispatchLog → Prop)
    (P : PhaseRunState → IterScope → DispatchLog → Prop) : Prop where
  enter : ∀ st log, I st log → P st ⟨[], []⟩ log
  leave : ∀ st iter log, P st iter log → I st log
  abort : ∀ st log, I st log → I (abortMission st) log
  exported : ∀ st log binding result, I st log →
    I { st with captured := capture binding result st.captured } log
  block : BlockRule env phaseIdx fun _ => P

namespace LoopRule

variable {env : RunEnv} {phaseIdx : Nat} {I : PhaseRunState → DispatchLog → Prop}
  {P : PhaseRunState → IterScope → DispatchLog → Prop} {st : PhaseRunState} {log : DispatchLog}

theorem decideIteration (rule : LoopRule env phaseIdx I P) (resultBinding : Option String)
    (verify : List IrCall) {run : BlockRun} (h : I run.state run.log) :
    I (decideIteration env.codec resultBinding verify run).state
      (Eal.decideIteration env.codec resultBinding verify run).log := by
  unfold Eal.decideIteration
  split
  · exact rule.abort _ _ h
  · split
    · exact rule.abort _ _ h
    · exact h
    · exact rule.exported _ _ _ _ h

theorem loopIteration (rule : LoopRule env phaseIdx I P) (resultBinding : Option String)
    (body verify : List IrCall) (h : I st log) :
    I (loopIteration env phaseIdx resultBinding body verify st log).state
      (Eal.loopIteration env phaseIdx resultBinding body verify st log).log := by
  obtain ⟨_, hbody⟩ := rule.block.runBlock body (rule.enter st log h)
  unfold Eal.loopIteration
  simp only
  split
  · exact rule.leave _ _ _ hbody
  · obtain ⟨_, hverify⟩ := rule.block.runBlock verify hbody
    split
    · exact rule.leave _ _ _ hverify
    · exact rule.decideIteration _ _ (rule.leave _ _ _ hverify)

theorem loopIterations (rule : LoopRule env phaseIdx I P) (resultBinding : Option String)
    (body verify : List IrCall) (left : Nat) (h : I st log) :
    I (loopIterations env phaseIdx resultBinding body verify left st log).1
      (Eal.loopIterations env phaseIdx resultBinding body verify left st log).2 := by
  induction left generalizing st log with
  | zero => exact rule.abort _ _ h
  | succ left ih =>
    have hiter := rule.loopIteration resultBinding body verify h
    unfold Eal.loopIterations
    split
    · exact h
    · simp only
      split
      · exact ih hiter
      · exact hiter

/-- What the blocks keep is kept by the loop. -/
theorem executeLoop (rule : LoopRule env phaseIdx I P) (lp : IrLoop) (h : I st log) :
    I (executeLoop env phaseIdx lp st log).1 (Eal.executeLoop env phaseIdx lp st log).2 := by
  unfold Eal.executeLoop
  split
  · exact rule.loopIterations _ _ _ _ h
  · exact rule.abort _ _ h

end LoopRule

/-! ## A concrete environment -/

/-- The bytes of an ASCII text. -/
def asciiBytes (s : String) : Bytes := s.toList.map fun c => UInt8.ofNat c.toNat

/-- Some JSON texts, their values and their SHA-256 digests. -/
def sampleTexts : List (String × Json × String) :=
  [("null", .null, "74234e98afe7498fb5daf1f36ac2d78acc339464f950703b8c019892f982b90b"),
    ("true", .bool true, "b5bea41b6c623f7c09f1bf24dcae58ebab3c0cdd90ad966bc43a45b44867e12b"),
    ("\x7b\"done\":true\x7d", .object [("done", .bool true)],
      "ace9288a3ff79a9132b9ddf621bc19354ffb04b3eacb17486ad6dc4d51303961"),
    ("\x7b\"done\":false\x7d", .object [("done", .bool false)],
      "faf75df0d10a3c777e65bc6cc6158c7d107bf33cb5abae7c9f325b86225123c0")]

/-- serde_json and SHA-256 on the sample texts. -/
def sampleCodec : JsonCodec where
  toVec
    | .null => .ok (asciiBytes "null")
    | .bool true => .ok (asciiBytes "true")
    | .object [("done", .bool true)] => .ok (asciiBytes "\x7b\"done\":true\x7d")
    | .object [("done", .bool false)] => .ok (asciiBytes "\x7b\"done\":false\x7d")
    | _ => .error "not a sample value"
  fromSlice bytes :=
    match sampleTexts.find? fun entry => asciiBytes entry.1 == bytes with
    | some entry => .ok entry.2.1
    | none => .error "expected value at line 1 column 1"
  fromStr s :=
    match sampleTexts.lookup s with
    | some entry => .ok entry.1
    | none => .error "expected value at line 1 column 1"
  fromUtf8Lossy bytes := String.ofList (bytes.map fun b => Char.ofNat b.toNat)
  sha256Hex bytes :=
    ((sampleTexts.find? fun entry => asciiBytes entry.1 == bytes).map fun entry =>
      entry.2.2).getD ""

/-- An environment whose dispatcher answers by the request, without a deadline. -/
def sampleEnv (answer : DispatchRequest → Except EalError StepDispatchOutcome) : RunEnv where
  codec := sampleCodec
  concurrency := .sequential
  dispatch := fun _ _ request => answer request
  cloneForThread := fun _ _ => .ok ()
  deadline := none
  now := fun _ _ => 0
  picks := fun _ => []

/-- A successful answer. -/
def sampleOutcome (value : Json) : StepDispatchOutcome where
  value
  invocation := {
    terminalReceipt := {
      invocationUra := "ura://cam/invocations/1"
      receiptUra := "ura://cam/receipts/1"
      receiptHash := [] }
    projection := .object [] }

end EasyNetDaemon.Eal
