import EasyNetDaemon.Loops.DriveInvariant

/-!
# Restarts after a crash

`drive_loop` writes the iteration counter before it reserves the body of the iteration, and the
check at boot wants the counter to be that of the last record. A crash between the two writes leaves
an instance that every later boot rejects (`crash_after_mark_rejected`). The check also rejects a
completed record with an empty invocation id or receipt URA, which the controller writes when the
driver returns one. In every other case the saved instance is accepted
(`LoopService.saved_accepted_iff`).

The controller saves each change before it makes the next one, so that on its own the saved instance
is that of its last change. A `cancel` saves its copy of the instance when it has given the lock
back, and may put an older one in the store; the runs here are those without it.
-/

namespace EasyNetDaemon.Loops

open Library

/-! ## The window and the answers -/

/-- The counter has been set for an iteration whose body is not reserved yet. -/
def ControllerPoint.isMarked : ControllerPoint → Bool
  | .announceIteration _ => true
  | .reserve next => next.kind = .body
  | _ => false

/-- The controller is at a marked point. -/
def LoopService.isMarked (s : LoopService) : Bool :=
  (s.process.bind Process.controller).any ControllerPoint.isMarked

/-- A crash outside the window, and an answer with an invocation id and a receipt URA. -/
def LoopService.Recoverable (s : LoopService) : LoopEvent → Prop
  | .crash => s.isMarked = false
  | .answer (.ok outcome) => outcome.invocationId ≠ "" ∧ outcome.receiptUra ≠ ""
  | _ => True

instance (s : LoopService) : DecidablePred s.Recoverable
  | .crash => inferInstanceAs (Decidable (s.isMarked = false))
  | .answer (.ok _) => inferInstanceAs (Decidable (_ ∧ _))
  | .answer (.error _) | .advance | .cancel | .cancelFrame | .boot _ =>
    inferInstanceAs (Decidable True)

/-- No completed record has an empty invocation id or receipt URA. -/
def Receipted (ledger : List LoopInvocationRecord) : Prop :=
  ∀ record ∈ ledger, record.state = .completed →
    record.invocationId ≠ some "" ∧ record.receiptUra ≠ some ""

theorem receipted_concat {ledger : List LoopInvocationRecord} {record : LoopInvocationRecord} :
    Receipted (ledger ++ [record]) ↔ Receipted ledger ∧ (record.state = .completed →
      record.invocationId ≠ some "" ∧ record.receiptUra ≠ some "") := by
  simp only [Receipted, List.forall_mem_append, List.forall_mem_singleton]

section Accepted

variable {env : LoopEnv} {inst : LoopInstance} {handed : List HandedInvocation}

theorem isFilled_some (text : String) : isFilled (some text) = true ↔ text ≠ "" := by
  simp [isFilled]

/-- The check of the facts, for a record that the controller has written. -/
theorem Recorded.validate_iff {id : String} {record : LoopInvocationRecord}
    (h : Recorded env record) :
    validateRecordFacts env id record = .ok () ↔ (record.state = .completed →
      record.invocationId ≠ some "" ∧ record.receiptUra ≠ some "") := by
  unfold Recorded at h
  cases hstate : record.state with
  | reserved =>
    simp only [hstate] at h
    simp [validateRecordFacts, hstate, h]
  | completed =>
    simp only [hstate] at h
    obtain ⟨outcome, hid, hura, hhash, houtput, herror⟩ := h
    simp [validateRecordFacts, hstate, hid, hura, hhash, houtput, herror, env.hex.decode_encode,
      outcome.receiptHash.2, isFilled_some]
  | failed =>
    simp only [hstate] at h
    obtain ⟨error, hne, herror⟩ := h
    simp [validateRecordFacts, hstate, herror, (isFilled_some error).2 hne]

/-- An instance that the controller has written is accepted when its receipts are there and its
counter is that of the ledger. -/
theorem Standing.bind_iff {controller : Option ControllerPoint}
    (h : Standing env inst handed controller) :
    bind env [inst] = .ok () ↔ Receipted inst.invocationLedger ∧
      inst.currentIter = lastIter inst.invocationLedger := by
  rw [bind_singleton_eq_ok_iff, validateLoopInvocationLedger_eq_ok_iff]
  have hfacts : (∀ record ∈ inst.invocationLedger,
      validateRecordFacts env inst.id record = .ok ()) ↔ Receipted inst.invocationLedger :=
    forall₂_congr fun record hrecord => (h.ledger.recorded record hrecord).validate_iff
  simp only [h.authority, h.ledger.sequenced, true_and, hfacts]
  exact and_congr_right fun _ => and_iff_right h.ledger.openLast

/-- While the service runs, the counter is that of the ledger outside the window. -/
theorem CounterAt.eq_iff {point : ControllerPoint} (h : Standing env inst handed (some point))
    (hcounter : CounterAt inst (some point)) :
    inst.currentIter = lastIter inst.invocationLedger ↔ point.isMarked = false := by
  have hat := h.point point rfl
  cases point with
  | announceIteration next =>
    have hiter : inst.currentIter = lastIter inst.invocationLedger + 1 := by
      rw [show inst.currentIter = next.iter from hcounter, hat.1.iter_eq, if_pos hat.2]
    simp [ControllerPoint.isMarked, hiter]
  | reserve next =>
    have hiter : inst.currentIter = _ := Eq.trans hcounter (Ready.iter_eq hat)
    rw [hiter]
    by_cases hkind : next.kind = .body <;> simp [ControllerPoint.isMarked, hkind]
  | readStatus | failReserved | noteOutput | finishIteration | checkCancelled | markIteration
  | invoke | awaitAnswer | keepOutput | emitChunk | recordTerminal | emitTerminal | driveFailed
  | failLoop | emitFailure =>
    exact iff_of_true hcounter rfl

/-! ## What a step does to the ledger -/

/-- A step of the controller on its own completes no record. -/
theorem Standing.receipted_advance {point : ControllerPoint} {a : Advance}
    (h : Standing env inst handed (some point)) (ha : Loops.advance env inst point = some a) :
    Receipted a.inst.invocationLedger ↔ Receipted inst.invocationLedger := by
  have hat := h.point point rfl
  cases point with
  | failReserved record error =>
    obtain ⟨pre, hconcat, hstate, -⟩ := hat
    simp only [Loops.advance, failLoopInvocation,
      updateReservedLoopInvocation_concat hconcat hstate] at ha
    cases ha
    rw [hconcat, receipted_concat, receipted_concat]
    simp [failRecord, hstate]
  | reserve next =>
    obtain ⟨causalContext, hcontext⟩ := loopCausalContext_ok h.ledger hat
    obtain ⟨-, hok⟩ := reserveLoopInvocation_ok h.ledger hat
    simp only [Loops.advance, hcontext, hok] at ha
    cases ha
    rw [receipted_concat]
    simp [reservedRecord]
  | checkCancelled next =>
    simp only [Loops.advance] at ha
    repeat' split at ha
    all_goals cases ha; rfl
  | keepOutput next text receipt =>
    cases ha
    cases hkind : next.kind <;> rfl
  | awaitAnswer next => cases ha
  | driveFailed | failLoop | emitFailure => exact hat.elim
  | readStatus | noteOutput | finishIteration | markIteration | announceIteration | invoke
  | emitChunk | recordTerminal | emitTerminal =>
    cases ha
    rfl

/-- An answer completes the reserved record with its receipt. -/
theorem Standing.receipted_answer {next : NextInvocation}
    (h : Standing env inst handed (some (.awaitAnswer next)))
    (answer : Except String LoopInvocationOutcome) :
    Receipted (onAnswer env inst next answer).inst.invocationLedger ↔
      Receipted inst.invocationLedger ∧ ∀ outcome, answer = .ok outcome →
        outcome.invocationId ≠ "" ∧ outcome.receiptUra ≠ "" := by
  obtain ⟨pre, record, before, call, hconcat, hstate, hkey, -, -, -⟩ := h.point _ rfl
  have hiter : next.iter = record.iter := congrArg Prod.fst hkey.symm
  have hkind : next.kind = record.kind := congrArg Prod.snd hkey.symm
  cases answer with
  | ok outcome =>
    simp only [onAnswer, completeLoopInvocation, hiter, hkind,
      updateReservedLoopInvocation_concat hconcat hstate]
    rw [hconcat, receipted_concat, receipted_concat]
    simp [completeRecord, hstate]
  | error error =>
    simp only [onAnswer, failLoopInvocation, hiter, hkind,
      updateReservedLoopInvocation_concat hconcat hstate]
    rw [hconcat, receipted_concat, receipted_concat]
    simp [failRecord, hstate]

end Accepted

/-! ## Runs -/

namespace LoopService

variable {env : LoopEnv}

/-- What the next boot needs: the receipts, and the counter once there is no process to move on. -/
def Clean (s : LoopService) : Prop :=
  Receipted s.inst.invocationLedger ∧
    (s.process = none → s.inst.currentIter = lastIter s.inst.invocationLedger)

theorem Consistent.counter_iff {s : LoopService} {p : Process} (h : s.Consistent env)
    (hp : s.process = some p) :
    s.inst.currentIter = lastIter s.inst.invocationLedger ↔ s.isMarked = false := by
  have hstanding := h.standing
  have hcounter := h.counter p hp
  simp only [isMarked, hp, Option.bind_some] at hstanding ⊢
  cases hcontroller : p.controller with
  | none =>
    rw [hcontroller] at hcounter
    exact iff_of_true hcounter rfl
  | some point =>
    rw [hcontroller] at hstanding hcounter
    exact CounterAt.eq_iff hstanding hcounter

/-- The saved instance is accepted when it is clean and the controller is outside the window. -/
theorem Consistent.bind_iff {s : LoopService} (h : s.Consistent env) :
    bind env [s.inst] = .ok () ↔ s.Clean ∧ s.isMarked = false := by
  rw [h.standing.bind_iff, Clean, and_assoc]
  refine and_congr_right fun _ => ?_
  cases hp : s.process with
  | none => simp [isMarked, hp]
  | some p => simp [h.counter_iff hp]

theorem Consistent.clean_step {s s' : LoopService} {e : LoopEvent} (h : s.Consistent env)
    (hcancel : e ≠ .cancel) (hstep : s.step env e = some s') :
    s'.Clean ↔ s.Clean ∧ s.Recoverable e := by
  have hstanding := h.standing
  cases step_of_eq_some hstep with
  | advance hp hpoint ha =>
    rw [hp, Option.bind_some, hpoint] at hstanding
    simp [Clean, LoopService.apply, Recoverable, hp, hstanding.receipted_advance ha]
  | answer result hp hpoint =>
    rw [hp, Option.bind_some, hpoint] at hstanding
    have hreceipted := hstanding.receipted_answer result
    cases result with
    | ok outcome => simpa [Clean, LoopService.apply, Recoverable, hp] using hreceipted
    | error error => simpa [Clean, LoopService.apply, Recoverable, hp] using hreceipted
  | cancelled hp hopen => exact absurd rfl hcancel
  | cancelledBefore hp hterminal => exact absurd rfl hcancel
  | cancelFrame hp howed => simp [Clean, Recoverable, hp]
  | crash hp => simp [Clean, Recoverable, hp, h.counter_iff hp]
  | boot driver hp haccepted =>
    -- only a clean instance is accepted
    have hclean := (h.bind_iff.1 haccepted).1
    simp [Clean, Recoverable, hclean.1, hclean.2 hp]
  | bootRejected driver hp hrejected => simp [Recoverable]

/-- The saved instance of a loop, after any run of its controller with crashes and restarts, is
accepted by the next boot exactly when no crash of the run fell between the mark of an iteration and
the reservation of its body, none would now, and every answer of the driver carried an invocation id
and a receipt URA. -/
theorem saved_accepted_iff (env : LoopEnv) (spec : LoopSpec) (inst : LoopInstance)
    (hcreate : create env spec = .ok inst) (driver : Bool) (events : List LoopEvent)
    (hcancel : ∀ e ∈ events, e ≠ .cancel) (s : LoopService)
    (hrun : (LoopService.start inst driver).run env events = some s) :
    bind env [s.inst] = .ok () ↔
      AllSteps (LoopService.step env) Recoverable (LoopService.start inst driver) events ∧
        s.isMarked = false := by
  have hstart := consistent_start hcreate driver
  have hclean : (LoopService.start inst driver).Clean := by
    simp only [create, check_bind_eq_ok_iff] at hcreate
    obtain ⟨-, -, h⟩ := hcreate
    cases h
    exact ⟨fun _ h => absurd h List.not_mem_nil, fun h => by cases h⟩
  rw [(consistent_run hcreate hrun).bind_iff, runSteps_iff_allSteps
    (fun _ _ _ h hstep => Consistent.step h hstep)
      (fun e he _ _ h => h.clean_step (hcancel e he)) hstart
    hrun]
  simp [hclean]

/-- A crash after the first body was reserved. -/
def sampleCrash : List LoopEvent :=
  List.replicate 5 .advance ++ [.crash]

theorem saved_accepted_iff_sampleCrash :
    ∃ s, (LoopService.start sampleInstance true).run sampleEnv sampleCrash = some s ∧
      s.inst.currentIter = 1 ∧ bind sampleEnv [s.inst] = .ok () := by
  refine ⟨_, rfl, by decide +kernel, ?_⟩
  exact (saved_accepted_iff sampleEnv sampleSpec sampleInstance create_sampleSpec true sampleCrash
    (by simp [sampleCrash]) _ rfl).2 ⟨by decide +kernel, by decide +kernel⟩

/-- A crash right after the first iteration was marked: boot refuses the loop. -/
theorem crash_after_mark_rejected :
    create sampleEnv sampleSpec = .ok sampleInstance ∧
      ∃ s, (LoopService.start sampleInstance true).run sampleEnv
          [.advance, .advance, .advance, .crash] = some s ∧
        bind sampleEnv [s.inst] =
          .error "loop loop-1 has current_iter without invocation records" :=
  ⟨rfl, _, rfl, by decide +kernel⟩

end LoopService

end EasyNetDaemon.Loops
