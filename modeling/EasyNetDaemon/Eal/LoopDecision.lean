import EasyNetDaemon.Eal.JobPlan
import EasyNetDaemon.Eal.ReportCounters

/-!
# What decides a loop

The end of an iteration looks for the output of the last `verify` call, and takes what lies under
that call's binding or under a reserved name. Both blocks write there, so a `verify` call that gave
no output leaves the decision to what another call of the iteration left (`lastOutput`). The
iteration is decided by the last `verify` call exactly when no such leftover has a `done` field
(`loop_decided_iff`); otherwise the last call of `body` can end the loop
(`failed_verify_decided_by_body`).
-/

namespace EasyNetDaemon.Eal

open Library EasyNetDaemon.Core

/-! ## The outputs of a block -/

/-- The output that an event of a block of `count` calls leaves under a name: the call is bound to
it, or it is the last one of the block and the name is the reserved one. -/
def outputUnder (name : String) (count : Nat) (e : StepEvent) (i : Nat) : Option CapturedResult :=
  if e.call.outputBinding = some name ∨ i + 1 = count ∧ name = loopVerifySyntheticBinding then
    e.result.output
  else none

/-- The last output that the events of a block leave under a name. -/
def lastOutput (name : String) (count : Nat) (events : List StepEvent) : Option CapturedResult :=
  events.zipIdx.foldl (fun acc p => (outputUnder name count p.1 p.2).or acc) none

theorem lastOutput_append_singleton (name : String) (count : Nat) (events : List StepEvent)
    (e : StepEvent) :
    lastOutput name count (events ++ [e]) =
      (outputUnder name count e events.length).or (lastOutput name count events) := by
  rw [lastOutput, List.zipIdx_append, List.foldl_append, Nat.zero_add]
  rfl

/-- What a block has done so far: one event for each call, and its outputs on top of the earlier
ones. -/
def BlockOutputs (calls : List IrCall) (st : PhaseRunState) (iter : IterScope)
    (rest : List IrCall) (st' : PhaseRunState) (iter' : IterScope) : Prop :=
  ∃ new, st'.events = st.events ++ new ∧ new.map StepEvent.call ++ rest = calls ∧
    ∀ name, iter'.captured.lookup name =
      (lastOutput name calls.length new).or (iter.captured.lookup name)

theorem captured_processInBlock (codec : JsonCodec) (phaseIdx : Nat) (st : PhaseRunState)
    (iter : IterScope) (call : IrCall) (result : StepExecResult) :
    (processInBlock codec phaseIdx st iter call result).2.captured =
      match result.output with
      | some out => capture call.outputBinding out iter.captured
      | none => iter.captured :=
  (countResult_spec call result _).captured

/-- The last call of a block leaves its output under the reserved name too. -/
theorem lookup_keepLast (iter : IterScope) (rest : List IrCall) (result : StepExecResult)
    (name : String) :
    (iter.keepLast rest result).captured.lookup name =
      (if rest = [] ∧ name = loopVerifySyntheticBinding then result.output else none).or
        (iter.captured.lookup name) := by
  unfold IterScope.keepLast IterScope.keepOutput
  by_cases hrest : rest = []
  · rw [hrest, List.isEmpty_nil, if_pos rfl]
    cases result with
    | ok bytes retryCount history invocation =>
      rw [List.lookup_cons]
      by_cases hname : name = loopVerifySyntheticBinding
      · simp [hname, StepExecResult.output]
      · simp [hname, beq_eq_false_iff_ne.2 hname]
    | error message retryCount history => simp [StepExecResult.output]
    | skippedByDependency message => simp [StepExecResult.output]
  · have hempty : rest.isEmpty = false := Bool.eq_false_iff.2 fun h => hrest (List.isEmpty_iff.1 h)
    simp [hempty, hrest]

section Block

variable {env : RunEnv} {phaseIdx : Nat} {calls : List IrCall} {st : PhaseRunState}
  {iter : IterScope}

/-- One more result of a block. -/
theorem BlockOutputs.snoc {call : IrCall} {rest : List IrCall} {st₁ : PhaseRunState}
    {iter₁ : IterScope} (h : BlockOutputs calls st iter (call :: rest) st₁ iter₁)
    (kept : IterScope) (result : StepExecResult)
    (hkept : ∀ name, kept.captured.lookup name =
      (if rest = [] ∧ name = loopVerifySyntheticBinding then result.output else none).or
        (iter₁.captured.lookup name)) :
    BlockOutputs calls st iter rest (processInBlock env.codec phaseIdx st₁ kept call result).1
      (processInBlock env.codec phaseIdx st₁ kept call result).2 := by
  obtain ⟨new, hevents, hcalls, hlookup⟩ := h
  have hlen : new.length + 1 = calls.length ↔ rest = [] := by
    rw [← hcalls, List.length_append, List.length_map, List.length_cons, ← List.length_eq_zero_iff]
    omega
  refine ⟨new ++ [{ call, phase := phaseIdx, inLoop := true, result }], ?_, ?_, ?_⟩
  · rw [events_processInBlock, hevents, List.append_assoc]
  · rw [List.map_append, List.append_assoc]
    exact hcalls
  · intro name
    rw [captured_processInBlock, lastOutput_append_singleton, Option.or_assoc, ← hlookup,
      outputUnder]
    simp only [hlen]
    cases hout : result.output with
    | none => simp [hkept, hout]
    | some out =>
      rw [lookup_capture, hkept, hout]
      by_cases hb : call.outputBinding = some name
      · simp [hb]
      · by_cases hlast : rest = [] ∧ name = loopVerifySyntheticBinding
        · simp [hlast]
        · simp [hb, hlast]

theorem blockRule_outputs : BlockRule env phaseIdx fun rest st' iter' _ =>
    BlockOutputs calls st iter rest st' iter' where
  skipped := by
    intro call rest st₁ iter₁ log binding arg h _
    refine h.snoc iter₁ _ fun name => ?_
    simp [StepExecResult.output]
  unresolved := by
    intro call rest st₁ iter₁ log e h _
    refine h.snoc iter₁ _ fun name => ?_
    simp [StepExecResult.output]
  dispatched := by
    intro call rest st₁ iter₁ log args result log' h _ _
    exact h.snoc _ _ fun name => lookup_keepLast iter₁ rest result name

/-- What a block has left at its end. -/
theorem runLoopBlockSequentially_outputs (calls : List IrCall) (st : PhaseRunState)
    (iter : IterScope) (log : DispatchLog) :
    ∃ rest, BlockOutputs calls st iter rest
      (runLoopBlockSequentially env phaseIdx calls st iter log).state
      (runLoopBlockSequentially env phaseIdx calls st iter log).iter := by
  have hstart : BlockOutputs calls st iter calls st iter :=
    ⟨[], (List.append_nil _).symm, rfl, fun name => by simp [lastOutput]⟩
  exact @BlockRule.runBlock env phaseIdx _ blockRule_outputs calls st iter log hstart

end Block

/-! ## One iteration -/

section Iteration

variable (env : RunEnv) (phaseIdx : Nat) (resultBinding : Option String) (body verify : List IrCall)
  (st : PhaseRunState) (log : DispatchLog)

/-- The body of an iteration that starts in `st`. -/
def bodyRun : BlockRun := runLoopBlockSequentially env phaseIdx body st ⟨[], []⟩ log

/-- The `verify` block after the body. -/
def verifyRun : BlockRun :=
  runLoopBlockSequentially env phaseIdx verify (bodyRun env phaseIdx body st log).state
    (bodyRun env phaseIdx body st log).iter (bodyRun env phaseIdx body st log).log

/-- The results of the body. -/
def bodyEvents : List StepEvent :=
  (bodyRun env phaseIdx body st log).state.events.drop st.events.length

/-- The results of the `verify` block. -/
def verifyEvents : List StepEvent :=
  (verifyRun env phaseIdx body verify st log).state.events.drop
    (bodyRun env phaseIdx body st log).state.events.length

/-- The output of the last call of the `verify` block, if it was dispatched with success. -/
def finalVerifyOutput : Option CapturedResult :=
  (verifyEvents env phaseIdx body verify st log)[verify.length - 1]?.bind fun e => e.result.output

/-- What the calls of the iteration have left under a name. -/
def leftUnder (name : String) : Option CapturedResult :=
  (lastOutput name verify.length (verifyEvents env phaseIdx body verify st log)).or
    (lastOutput name body.length (bodyEvents env phaseIdx body st log))

/-- What they have left under the binding of the last `verify` call, or under the reserved name. -/
def leftOver : Option CapturedResult :=
  ((verify.getLast?.bind IrCall.outputBinding).bind
      (leftUnder env phaseIdx body verify st log)).or
    (leftUnder env phaseIdx body verify st log loopVerifySyntheticBinding)

end Iteration

/-- The end of an iteration is decided by the output of the last `verify` call: `done: true` in it
ends the loop and is exported, `done: false` goes on, and without it the mission is aborted. -/
structure DecidedByFinalVerify (codec : JsonCodec) (resultBinding : Option String)
    (state : PhaseRunState) (final : Option CapturedResult) (it : IterationEnd) : Prop where
  success : it.again = false → it.state.aborted = false → ∃ out, final = some out ∧
    verifyOutputDone codec out.value = .true ∧
    it.state = { state with captured := capture resultBinding out state.captured }
  goesOn : it.again = true → ∃ out, final = some out ∧
    verifyOutputDone codec out.value = .false ∧ it.state = state
  missing : final = none → it.again = false ∧ it.state.aborted = true

/-- The iteration that starts in `st` is decided by its last `verify` call. -/
def IterationDecided (env : RunEnv) (phaseIdx : Nat) (resultBinding : Option String)
    (body verify : List IrCall) (st : PhaseRunState) (log : DispatchLog) : Prop :=
  DecidedByFinalVerify env.codec resultBinding (verifyRun env phaseIdx body verify st log).state
    (finalVerifyOutput env phaseIdx body verify st log)
    (loopIteration env phaseIdx resultBinding body verify st log)

/-- If the blocks of the iteration end without an abort and the last `verify` call has given no
output, then what the other calls have left in its place has no Boolean field `done`. -/
def NoStaleDone (env : RunEnv) (phaseIdx : Nat) (body verify : List IrCall) (st : PhaseRunState)
    (log : DispatchLog) : Prop :=
  (bodyRun env phaseIdx body st log).state.aborted = false →
    (verifyRun env phaseIdx body verify st log).state.aborted = false →
    finalVerifyOutput env phaseIdx body verify st log = none →
    ∀ out, leftOver env phaseIdx body verify st log = some out →
      verifyOutputDone env.codec out.value = .malformed

section Decision

variable {env : RunEnv} {phaseIdx : Nat} {resultBinding : Option String} {body verify : List IrCall}
  {st : PhaseRunState} {log : DispatchLog}

/-- The captured outputs at the end of the blocks are what their calls left. -/
theorem lookup_verifyRun (name : String) :
    (verifyRun env phaseIdx body verify st log).iter.captured.lookup name =
      leftUnder env phaseIdx body verify st log name := by
  obtain ⟨rest, new, hnew, -, hlookup⟩ :=
    @runLoopBlockSequentially_outputs env phaseIdx body st ⟨[], []⟩ log
  obtain ⟨rest', new', hnew', -, hlookup'⟩ := @runLoopBlockSequentially_outputs env phaseIdx verify
    (bodyRun env phaseIdx body st log).state (bodyRun env phaseIdx body st log).iter
    (bodyRun env phaseIdx body st log).log
  have hbody : bodyEvents env phaseIdx body st log = new := by
    rw [bodyEvents, bodyRun, hnew, List.drop_left]
  have hverify : verifyEvents env phaseIdx body verify st log = new' := by
    rw [verifyEvents, verifyRun, hnew', List.drop_left]
  rw [leftUnder, hbody, hverify]
  refine (hlookup' name).trans (congrArg _ ((hlookup name).trans ?_))
  rw [List.lookup_nil, Option.or_none]

/-- The end of an iteration looks at what its calls have left. -/
theorem finalCapture_verifyRun :
    finalCapture verify.getLast? (verifyRun env phaseIdx body verify st log).iter.captured =
      leftOver env phaseIdx body verify st log := by
  simp only [finalCapture, leftOver, lookup_verifyRun]

variable {out : CapturedResult} {codec : JsonCodec}

/-- When the last `verify` call has an output, that is the one left. -/
theorem leftOver_of_finalVerifyOutput
    (h : finalVerifyOutput env phaseIdx body verify st log = some out) :
    leftOver env phaseIdx body verify st log = some out := by
  obtain ⟨rest, new, hnew, hcalls, -⟩ := @runLoopBlockSequentially_outputs env phaseIdx verify
    (bodyRun env phaseIdx body st log).state (bodyRun env phaseIdx body st log).iter
    (bodyRun env phaseIdx body st log).log
  have hverify : verifyEvents env phaseIdx body verify st log = new := by
    rw [verifyEvents, verifyRun, hnew, List.drop_left]
  obtain ⟨e, he, hout⟩ := Option.bind_eq_some_iff.1 h
  rw [hverify] at he
  have hlen := congrArg List.length hcalls
  rw [List.length_append, List.length_map] at hlen
  obtain ⟨hlt, hget⟩ := List.getElem?_eq_some_iff.1 he
  have hrest : rest = [] := List.length_eq_zero_iff.1 (by omega)
  have hnewLen : new.length = verify.length := by omega
  -- the event is the last one of the block, and its call the last `verify` call
  have hlast : new.getLast? = some e := by
    rw [List.getLast?_eq_getElem?, hnewLen]
    exact he
  have hcall : verify.getLast? = some e.call := by
    rw [← hcalls, hrest, List.append_nil, List.getLast?_map, hlast]
    rfl
  obtain ⟨init, hinit⟩ := List.getLast?_eq_some_iff.1 hlast
  have hunder : ∀ name, e.call.outputBinding = some name ∨ name = loopVerifySyntheticBinding →
      leftUnder env phaseIdx body verify st log name = some out := by
    intro name hname
    have hcount : init.length + 1 = verify.length := by
      rw [← hnewLen, hinit, List.length_append]
      rfl
    rw [leftUnder, hverify, hinit, lastOutput_append_singleton, outputUnder,
      if_pos (hname.imp id fun h => ⟨hcount, h⟩), hout]
    rfl
  rw [leftOver, hcall, Option.bind_some]
  cases hb : e.call.outputBinding with
  | none => exact hunder _ (Or.inr rfl)
  | some b =>
    rw [Option.bind_some, hunder b (Or.inl hb)]
    rfl

/-- The end of an iteration, by its blocks. -/
theorem loopIteration_cases :
    ((bodyRun env phaseIdx body st log).state.aborted = true ∧
        loopIteration env phaseIdx resultBinding body verify st log =
          { again := false
            state := (bodyRun env phaseIdx body st log).state
            log := (bodyRun env phaseIdx body st log).log }) ∨
      ((bodyRun env phaseIdx body st log).state.aborted = false ∧
        (verifyRun env phaseIdx body verify st log).state.aborted = true ∧
        loopIteration env phaseIdx resultBinding body verify st log =
          { again := false
            state := (verifyRun env phaseIdx body verify st log).state
            log := (verifyRun env phaseIdx body verify st log).log }) ∨
      ((bodyRun env phaseIdx body st log).state.aborted = false ∧
        (verifyRun env phaseIdx body verify st log).state.aborted = false ∧
        loopIteration env phaseIdx resultBinding body verify st log =
          decideIteration env.codec resultBinding verify
            (verifyRun env phaseIdx body verify st log)) := by
  have hunfold : loopIteration env phaseIdx resultBinding body verify st log =
      if (bodyRun env phaseIdx body st log).state.aborted then
        { again := false
          state := (bodyRun env phaseIdx body st log).state
          log := (bodyRun env phaseIdx body st log).log }
      else if (verifyRun env phaseIdx body verify st log).state.aborted then
        { again := false
          state := (verifyRun env phaseIdx body verify st log).state
          log := (verifyRun env phaseIdx body verify st log).log }
      else decideIteration env.codec resultBinding verify
        (verifyRun env phaseIdx body verify st log) := by
    simp only [loopIteration, bodyRun, verifyRun, ok_runLoopBlockSequentially, Bool.not_not,
      Bool.or_self]
    rfl
  rw [hunfold]
  cases hbody : (bodyRun env phaseIdx body st log).state.aborted with
  | true => exact Or.inl ⟨rfl, rfl⟩
  | false =>
    cases hverify : (verifyRun env phaseIdx body verify st log).state.aborted with
    | true => exact Or.inr (Or.inl ⟨rfl, rfl, rfl⟩)
    | false => exact Or.inr (Or.inr ⟨rfl, rfl, rfl⟩)

/-- The decision when nothing was left. -/
theorem decideIteration_of_none {run : BlockRun}
    (h : finalCapture verify.getLast? run.iter.captured = none) :
    decideIteration codec resultBinding verify run =
      { again := false, state := abortMission run.state, log := run.log } := by
  simp only [decideIteration, h]

/-- The decision by an output. -/
theorem decideIteration_of_some {run : BlockRun}
    (h : finalCapture verify.getLast? run.iter.captured = some out) :
    decideIteration codec resultBinding verify run =
      match verifyOutputDone codec out.value with
      | .malformed => { again := false, state := abortMission run.state, log := run.log }
      | .false => { again := true, state := run.state, log := run.log }
      | .true =>
        { again := false
          state := { run.state with captured := capture resultBinding out run.state.captured }
          log := run.log } := by
  unfold decideIteration
  generalize finalCapture verify.getLast? run.iter.captured = captured at h ⊢
  cases h
  rfl

/-- An aborted iteration decides nothing. -/
theorem decidedByFinalVerify_of_aborted {state : PhaseRunState} {final : Option CapturedResult}
    {it : IterationEnd} (hagain : it.again = false) (habort : it.state.aborted = true) :
    DecidedByFinalVerify codec resultBinding state final it where
  success := fun _ hok => by
    rw [habort] at hok
    cases hok
  goesOn := fun hgo => by
    rw [hagain] at hgo
    cases hgo
  missing := fun _ => ⟨hagain, habort⟩

/-- A decision by the output of the last `verify` call. -/
theorem decidedByFinalVerify_of_some {run : BlockRun}
    (h : finalCapture verify.getLast? run.iter.captured = some out) :
    DecidedByFinalVerify codec resultBinding run.state (some out)
      (decideIteration codec resultBinding verify run) := by
  rw [decideIteration_of_some h]
  cases hdone : verifyOutputDone codec out.value with
  | malformed => exact decidedByFinalVerify_of_aborted rfl rfl
  | false =>
    exact {
      success := fun habs _ => by cases habs
      goesOn := fun _ => ⟨out, rfl, hdone, rfl⟩
      missing := fun habs => by cases habs }
  | true =>
    exact {
      success := fun _ _ => ⟨out, rfl, hdone, rfl⟩
      goesOn := fun habs => by cases habs
      missing := fun habs => by cases habs }

/-- An iteration is decided by the last `verify` call exactly when, whenever that call gave no
output, nothing that the others left has a `done` field. -/
theorem loopIteration_decided_iff :
    IterationDecided env phaseIdx resultBinding body verify st log ↔
      NoStaleDone env phaseIdx body verify st log := by
  unfold IterationDecided NoStaleDone
  rcases @loopIteration_cases env phaseIdx resultBinding body verify st log with
    ⟨hbody, hit⟩ | ⟨-, hverify, hit⟩ | ⟨hbody, hverify, hit⟩
  · rw [hit, hbody]
    exact iff_of_true (decidedByFinalVerify_of_aborted rfl hbody) fun habs => by cases habs
  · rw [hit, hverify]
    exact iff_of_true (decidedByFinalVerify_of_aborted rfl hverify) fun _ habs => by cases habs
  · rw [hit]
    have hcapture := @finalCapture_verifyRun env phaseIdx body verify st log
    cases hfinal : finalVerifyOutput env phaseIdx body verify st log with
    | some out =>
      rw [leftOver_of_finalVerifyOutput hfinal] at hcapture
      exact iff_of_true (decidedByFinalVerify_of_some hcapture) fun _ _ habs => by cases habs
    | none =>
      cases hleft : leftOver env phaseIdx body verify st log with
      | none =>
        rw [hleft] at hcapture
        rw [decideIteration_of_none hcapture]
        exact iff_of_true (decidedByFinalVerify_of_aborted rfl rfl) fun _ _ _ _ habs =>
          by cases habs
      | some out =>
        rw [hleft] at hcapture
        rw [decideIteration_of_some hcapture]
        -- what another call left is read as if it were the output of the last `verify` call
        cases hdone : verifyOutputDone env.codec out.value with
        | malformed =>
          refine iff_of_true (decidedByFinalVerify_of_aborted rfl rfl) fun _ _ _ out' hout' => ?_
          cases hout'
          exact hdone
        | false =>
          refine iff_of_false (fun h => ?_) fun h => ?_
          · cases (h.missing rfl).1
          · rw [h hbody hverify rfl out rfl] at hdone
            cases hdone
        | true =>
          refine iff_of_false (fun h => ?_) fun h => ?_
          · have habs := (h.missing rfl).2
            rw [show _ = (verifyRun env phaseIdx body verify st log).state.aborted from rfl,
              hverify] at habs
            cases habs
          · rw [h hbody hverify rfl out rfl] at hdone
            cases hdone

/-- An iteration that goes on has not aborted the mission. -/
theorem aborted_of_again
    (h : (loopIteration env phaseIdx resultBinding body verify st log).again = true) :
    (loopIteration env phaseIdx resultBinding body verify st log).state.aborted = false := by
  rcases @loopIteration_cases env phaseIdx resultBinding body verify st log with
    ⟨-, hit⟩ | ⟨-, -, hit⟩ | ⟨-, hverify, hit⟩
  · rw [hit] at h
    cases h
  · rw [hit] at h
    cases h
  · rw [hit] at h ⊢
    cases hcapture : finalCapture verify.getLast?
        (verifyRun env phaseIdx body verify st log).iter.captured with
    | none =>
      rw [decideIteration_of_none hcapture] at h
      cases h
    | some out =>
      rw [decideIteration_of_some hcapture] at h ⊢
      cases hdone : verifyOutputDone env.codec out.value with
      | malformed =>
        rw [hdone] at h
        cases h
      | false => exact hverify
      | true =>
        rw [hdone] at h
        cases h

end Decision

/-! ## Whole loops -/

/-- The iterations of a loop start in its first state and, after one that goes on, in the state it
left. -/
inductive IterationStart (env : RunEnv) (phaseIdx : Nat) (resultBinding : Option String)
    (body verify : List IrCall) (st : PhaseRunState) (log : DispatchLog) :
    PhaseRunState → DispatchLog → Prop where
  | first : IterationStart env phaseIdx resultBinding body verify st log st log
  | next {st' : PhaseRunState} {log' : DispatchLog}
      (start : IterationStart env phaseIdx resultBinding body verify st log st' log')
      (again : (loopIteration env phaseIdx resultBinding body verify st' log').again = true) :
      IterationStart env phaseIdx resultBinding body verify st log
        (loopIteration env phaseIdx resultBinding body verify st' log').state
        (loopIteration env phaseIdx resultBinding body verify st' log').log

section Loop

variable {env : RunEnv} {phaseIdx : Nat} {resultBinding : Option String} {body verify : List IrCall}

/-- A loop that does not abort the mission ends with an iteration that does not go on. -/
theorem loopIterations_last {st₀ st : PhaseRunState} {log₀ log : DispatchLog} (left : Nat)
    (hst : st.aborted = false)
    (hstart : IterationStart env phaseIdx resultBinding body verify st₀ log₀ st log)
    (hend : (loopIterations env phaseIdx resultBinding body verify left st log).1.aborted = false) :
    ∃ st' log', IterationStart env phaseIdx resultBinding body verify st₀ log₀ st' log' ∧
      (loopIteration env phaseIdx resultBinding body verify st' log').again = false ∧
      (loopIterations env phaseIdx resultBinding body verify left st log).1 =
        (loopIteration env phaseIdx resultBinding body verify st' log').state := by
  induction left generalizing st log with
  | zero => cases hend
  | succ left ih =>
    have hunfold : loopIterations env phaseIdx resultBinding body verify (left + 1) st log =
        if (loopIteration env phaseIdx resultBinding body verify st log).again then
          loopIterations env phaseIdx resultBinding body verify left
            (loopIteration env phaseIdx resultBinding body verify st log).state
            (loopIteration env phaseIdx resultBinding body verify st log).log
        else ((loopIteration env phaseIdx resultBinding body verify st log).state,
          (loopIteration env phaseIdx resultBinding body verify st log).log) := by
      simp only [loopIterations, hst]
      rfl
    rw [hunfold] at hend ⊢
    cases hagain : (loopIteration env phaseIdx resultBinding body verify st log).again with
    | false => exact ⟨st, log, hstart, hagain, rfl⟩
    | true =>
      rw [hagain, if_pos rfl] at hend
      rw [if_pos rfl]
      exact ih (aborted_of_again hagain) (.next hstart hagain) hend

/-- The blocks of a compiled loop are calls. -/
theorem flattenLoopLeaves_lowerItems {stmts : List Statement} {symbols symbols' : List String}
    {anon anon' : Nat} {items : List AnalyzedItem} {steps : List IrStep}
    (h : Analysed noNestedLoop symbols anon stmts items symbols' anon')
    (hsteps : lowerItems items = .ok steps) : ∃ calls, flattenLoopLeaves steps = some calls := by
  induction h generalizing steps with
  | nil symbols anon =>
    cases hsteps
    exact ⟨[], rfl⟩
  | emit emit rest ih => exact ih hsteps
  | step hitem hfresh hdeps rest ih =>
    obtain ⟨step, hstep, hsteps⟩ := bind_eq_ok_iff.1 hsteps
    obtain ⟨tail, htail, hsteps⟩ := bind_eq_ok_iff.1 hsteps
    cases hsteps
    obtain ⟨calls, hcalls⟩ := ih htail
    cases hitem with
    | letCall name call hretry hopt =>
      obtain ⟨c, -, hc⟩ := bind_eq_ok_iff.1 hstep
      cases hc
      exact ⟨c :: calls, by rw [flattenLoopLeaves, hcalls]; rfl⟩
    | call call hretry hopt =>
      obtain ⟨c, -, hc⟩ := bind_eq_ok_iff.1 hstep
      cases hc
      exact ⟨c :: calls, by rw [flattenLoopLeaves, hcalls]; rfl⟩
    | loop block lp anon' h => cases h

theorem flattenLoopLeaves_of_compiled {program : EalProgram} {ir : MissionIr} {lp : IrLoop}
    (h : compile program = .ok ir) (hlp : IrStep.loop lp ∈ ir.steps) :
    ∃ body verify, flattenLoopLeaves lp.body = some body ∧
      flattenLoopLeaves lp.verify = some verify := by
  obtain ⟨scope, source, -, hsched, -⟩ := compile_scheduled h
  obtain ⟨k, hk⟩ := List.mem_iff_getElem?.1 hlp
  obtain ⟨stmt, -, hlow⟩ := forall₂_getElem?_right hsched.lowersTo hk
  cases hlow with
  | loop block lp n n' hloop =>
    obtain ⟨body, verify, -, hbody, hverify, -, hbodyIr, hverifyIr, -⟩ := analyzeLoop_eq_ok hloop
    obtain ⟨bodyCalls, hbodyCalls⟩ :=
      flattenLoopLeaves_lowerItems (analyzeStatementsInner_analysed hbody) hbodyIr
    obtain ⟨verifyCalls, hverifyCalls⟩ :=
      flattenLoopLeaves_lowerItems (analyzeStatementsInner_analysed hverify) hverifyIr
    exact ⟨bodyCalls, verifyCalls, hbodyCalls, hverifyCalls⟩

/-- In every loop of a compiled mission: an iteration is decided by the last `verify` call exactly
when, whenever that call gave no output, nothing that the other calls left has a `done` field; and a
loop that does not abort the mission ends in the state of its last iteration. -/
theorem loop_decided_iff {program : EalProgram} {ir : MissionIr} {lp : IrLoop}
    (h : compile program = .ok ir) (hlp : IrStep.loop lp ∈ ir.steps) (env : RunEnv) (phaseIdx : Nat)
    (st : PhaseRunState) (log : DispatchLog) :
    ∃ body verify, flattenLoopLeaves lp.body = some body ∧
      flattenLoopLeaves lp.verify = some verify ∧
      (∀ st' log', IterationStart env phaseIdx lp.resultBinding body verify st log st' log' →
        (IterationDecided env phaseIdx lp.resultBinding body verify st' log' ↔
          NoStaleDone env phaseIdx body verify st' log')) ∧
      (st.aborted = false → (executeLoop env phaseIdx lp st log).1.aborted = false →
        ∃ st' log', IterationStart env phaseIdx lp.resultBinding body verify st log st' log' ∧
          (loopIteration env phaseIdx lp.resultBinding body verify st' log').again = false ∧
          (executeLoop env phaseIdx lp st log).1 =
            (loopIteration env phaseIdx lp.resultBinding body verify st' log').state) := by
  obtain ⟨body, verify, hbody, hverify⟩ := flattenLoopLeaves_of_compiled h hlp
  refine ⟨body, verify, hbody, hverify, fun st' log' _ => loopIteration_decided_iff, ?_⟩
  intro hst hend
  have hloop : executeLoop env phaseIdx lp st log =
      loopIterations env phaseIdx lp.resultBinding body verify lp.maxIters st log := by
    simp only [executeLoop, hbody, hverify]
  rw [hloop] at hend ⊢
  exact loopIterations_last lp.maxIters hst .first hend

end Loop

/-- A loop whose `verify` call may fail: `body` reports, `verify` checks. -/
def checkedLoop : EalProgram where
  mission := {
    name := "watch"
    statements := [.loop {
      name := some "check"
      maxIters := 3
      body := [.call ⟨"photo.capture", some "cam", .device, [], {}⟩]
      verify := [.call ⟨"health.check", some "cam", .device, [], {}⟩] }] }

/-- Answers of a node whose camera says `done` and whose health check is not available. -/
def cameraOnly : RunEnv :=
  sampleEnv fun request =>
    if request.ability.text = "photo.capture" then
      .ok (sampleOutcome (.object [("done", .bool true)]))
    else .error (.unavailable "cam")

/-- The only `verify` call fails, and the loop ends with success in its first iteration: the output
of the body is taken for it and exported. -/
theorem failed_verify_decided_by_body :
    ∃ ir, compile checkedLoop = .ok ir ∧
      (execute cameraOnly ir).1.events.map StepEvent.outcome = [.completed, .failed] ∧
      (execute cameraOnly ir).1.aborted = false ∧
      ((execute cameraOnly ir).1.captured.map fun entry => (entry.1, entry.2.value)) =
        [("check.result", asciiBytes "\x7b\"done\":true\x7d")] := by
  have hrun : (compile checkedLoop).toOption.any (fun ir => decide (
      (execute cameraOnly ir).1.events.map StepEvent.outcome = [.completed, .failed] ∧
      (execute cameraOnly ir).1.aborted = false ∧
      ((execute cameraOnly ir).1.captured.map fun entry => (entry.1, entry.2.value)) =
        [("check.result", asciiBytes "\x7b\"done\":true\x7d")])) = true := by
    decide +kernel
  obtain ⟨ir, h, hrun⟩ := exists_ok_of_any hrun
  exact ⟨ir, h, of_decide_eq_true hrun⟩

theorem loop_decided_iff_checkedLoop :
    ∃ ir lp body verify, compile checkedLoop = .ok ir ∧ IrStep.loop lp ∈ ir.steps ∧
      flattenLoopLeaves lp.body = some body ∧ flattenLoopLeaves lp.verify = some verify ∧
      (IterationDecided cameraOnly 0 lp.resultBinding body verify .initial [] ↔
        NoStaleDone cameraOnly 0 body verify .initial []) := by
  have hrun : (compile checkedLoop).toOption.any (fun ir => ir.steps.any fun s =>
      s.topCall.isNone) = true := by
    decide +kernel
  obtain ⟨ir, h, hrun⟩ := exists_ok_of_any hrun
  obtain ⟨step, hstep, hloop⟩ := List.any_eq_true.1 hrun
  cases step with
  | call c => cases hloop
  | loop lp =>
    obtain ⟨body, verify, hbody, hverify, hiff, -⟩ :=
      loop_decided_iff h hstep cameraOnly 0 .initial []
    exact ⟨ir, lp, body, verify, h, hstep, hbody, hverify, hiff _ _ .first⟩

end EasyNetDaemon.Eal
