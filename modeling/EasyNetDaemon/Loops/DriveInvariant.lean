import Mathlib.Data.List.ModifyLast
import Mathlib.Data.List.Nodup
import EasyNetDaemon.Loops.Controller

/-!
# What the controller keeps

The invariant of a loop over every run with cancels, crashes and restarts. The ledger stays
sequenced and carries the facts of each record (`LedgerSound`); it agrees with what the driver was
asked and answered, except that the last record may be a reservation that was never handed over. At
each position the controller knows the end of the ledger (`At`); in particular none of the internal
errors of `drive_loop` can occur, and its error handler is never entered.
-/

namespace EasyNetDaemon.Loops

open Library

/-! ## Records and what the driver was asked -/

/-- The facts that the controller writes for each state of a record. -/
def Recorded (env : LoopEnv) (record : LoopInvocationRecord) : Prop :=
  match record.state with
  | .reserved => record.invocationId = none ∧ record.receiptUra = none ∧ record.receiptHash = none ∧
      record.output = none ∧ record.error = none
  | .completed =>
    ∃ outcome : LoopInvocationOutcome, record.invocationId = some outcome.invocationId ∧
      record.receiptUra = some outcome.receiptUra ∧
      record.receiptHash = some (env.hex.encode outcome.receiptHash.1) ∧
      record.output = some outcome.output ∧ record.error = none
  | .failed => ∃ error, error ≠ "" ∧ record.error = some error

/-- The record of an invocation that was handed over; once completed it holds the answer. -/
def Answered (record : LoopInvocationRecord) (handed : HandedInvocation) : Prop :=
  handed.key = record.key ∧ (record.state = .completed →
    ∃ outcome, handed.answer = some (.ok outcome) ∧ record.output = some outcome.output)

/-- Every record was handed over, except perhaps a last one that is not completed. -/
def Logged (ledger : List LoopInvocationRecord) (handed : List HandedInvocation) : Prop :=
  List.Forall₂ Answered ledger handed ∨
    ∃ pre record, ledger = pre ++ [record] ∧ record.state ≠ .completed ∧
      List.Forall₂ Answered pre handed

theorem forall₂_concat {α β : Type} {R : α → β → Prop} {pre : List α} {a : α} {l : List β} :
    List.Forall₂ R (pre ++ [a]) l ↔ ∃ before b, l = before ++ [b] ∧ List.Forall₂ R pre before ∧
      R a b := by
  rw [← List.forall₂_reverse_iff, List.reverse_append, List.reverse_singleton,
    List.singleton_append, List.forall₂_cons_left_iff]
  constructor
  · rintro ⟨b, rest, hb, hrest, heq⟩
    refine ⟨rest.reverse, b, ?_, ?_, hb⟩
    · rw [← List.reverse_reverse l, heq, List.reverse_cons]
    · rwa [← List.forall₂_reverse_iff, List.reverse_reverse]
  · rintro ⟨before, b, rfl, hpre, hb⟩
    exact ⟨b, before.reverse, hb, List.forall₂_reverse_iff.2 hpre, by simp⟩

/-- When all records are completed, all of them were handed over. -/
theorem Logged.forall₂ {ledger : List LoopInvocationRecord} {handed : List HandedInvocation}
    (h : Logged ledger handed) (hcompleted : ∀ record ∈ ledger, record.state = .completed) :
    List.Forall₂ Answered ledger handed := by
  rcases h with h | ⟨pre, record, rfl, hstate, -⟩
  · exact h
  · exact absurd (hcompleted record (by simp)) hstate

/-- What holds of a ledger. -/
structure LedgerSound (env : LoopEnv) (maxIters : Nat) (ledger : List LoopInvocationRecord)
    (handed : List HandedInvocation) : Prop where
  sequenced : Sequenced none ledger
  recorded : ∀ record ∈ ledger, Recorded env record
  openLast : ∀ record ∈ ledger.dropLast, record.state = .completed
  bounded : ∀ record ∈ ledger, record.iter ≤ maxIters
  logged : Logged ledger handed

/-- The last record is a verification that passed. -/
def Passed (env : LoopEnv) (ledger : List LoopInvocationRecord) : Prop :=
  ∃ pre record output, ledger = pre ++ [record] ∧ record.kind = .verify ∧
    record.state = .completed ∧ record.output = some output ∧
    parseVerifyDone env output = .ok true

variable {handed' : List HandedInvocation}

section Ledger

variable {env : LoopEnv} {maxIters : Nat} {ledger pre : List LoopInvocationRecord}
  {handed : List HandedInvocation} {record : LoopInvocationRecord}

theorem eq_concat_of_getLast? (h : ledger.getLast? = some record) :
    ledger = ledger.dropLast ++ [record] :=
  (List.dropLast_append_getLast? record h).symm

/-- All records are completed when the last one is. -/
theorem LedgerSound.completed (h : LedgerSound env maxIters ledger handed)
    (hlast : ∀ record ∈ ledger.getLast?, record.state = .completed) :
    ∀ record ∈ ledger, record.state = .completed := by
  intro record hrecord
  rcases List.eq_nil_or_concat ledger with rfl | ⟨pre, last, rfl⟩
  · cases hrecord
  · rw [List.concat_eq_append] at *
    rcases List.mem_append.1 hrecord with hrecord | hrecord
    · exact h.openLast record (by simpa using hrecord)
    · rw [List.mem_singleton.1 hrecord]
      exact hlast last (by simp)

/-- The end of a reservation: the record keeps its place and its causal parent. -/
theorem LedgerSound.settle {record' : LoopInvocationRecord}
    (h : LedgerSound env maxIters (pre ++ [record]) handed) (hkey : record'.key = record.key)
    (hparent : record'.causalParentReceiptUra = record.causalParentReceiptUra)
    (hrecorded : Recorded env record') (hlogged : Logged (pre ++ [record']) handed') :
    LedgerSound env maxIters (pre ++ [record']) handed' where
  sequenced := by
    obtain ⟨hpre, hfollows⟩ := (sequenced_concat pre record).1 h.sequenced
    exact (sequenced_concat pre record').2 ⟨hpre, hkey.trans hfollows.1, hparent.trans hfollows.2⟩
  recorded := by
    intro r hr
    rcases List.mem_append.1 hr with hr | hr
    · exact h.recorded r (List.mem_append_left _ hr)
    · rw [List.mem_singleton.1 hr]
      exact hrecorded
  openLast := by simpa using h.openLast
  bounded := by
    intro r hr
    rcases List.mem_append.1 hr with hr | hr
    · exact h.bounded r (List.mem_append_left _ hr)
    · rw [List.mem_singleton.1 hr]
      have hiter : record'.iter = record.iter := congrArg Prod.fst hkey
      exact hiter ▸ h.bounded record (by simp)
  logged := hlogged

end Ledger

/-! ## The positions -/

/-- The next invocation continues a ledger of completed records. -/
structure Ready (maxIters : Nat) (ledger : List LoopInvocationRecord) (next : NextInvocation) :
    Prop where
  completed : ∀ record ∈ ledger, record.state = .completed
  parent : next.parent = ledger.getLast?
  key : next.key = (expectedIter ledger.getLast?, expectedKind ledger.getLast?)
  bounded : next.iter ≤ maxIters

/-- What holds of the ledger and of the driver's log when the controller is at a position. -/
def At (env : LoopEnv) (maxIters : Nat) (ledger : List LoopInvocationRecord)
    (handed : List HandedInvocation) : ControllerPoint → Prop
  | .readStatus | .keepOutput _ _ _ | .emitChunk _ _ _ | .emitTerminal _ => True
  | .failReserved record error =>
    ∃ pre, ledger = pre ++ [record] ∧ record.state = .reserved ∧ error ≠ ""
  | .noteOutput _ state | .recordTerminal state => state = .done → Passed env ledger
  | .finishIteration record passed =>
    ledger.getLast? = some record ∧ record.kind = .verify ∧ record.state = .completed ∧
      (passed = true → Passed env ledger)
  | .checkCancelled next | .reserve next => Ready maxIters ledger next
  | .markIteration next | .announceIteration next =>
    Ready maxIters ledger next ∧ next.kind = .body
  | .invoke next _ => ∃ pre record, ledger = pre ++ [record] ∧ record.state = .reserved ∧
      record.key = next.key ∧ List.Forall₂ Answered pre handed
  | .awaitAnswer next => ∃ pre record before call, ledger = pre ++ [record] ∧
      record.state = .reserved ∧ record.key = next.key ∧ handed = before ++ [call] ∧
      call.key = next.key ∧ List.Forall₂ Answered pre before
  | .driveFailed _ | .failLoop _ _ | .emitFailure _ _ => False

/-- The iteration counter: it runs ahead of the ledger from the mark of an iteration to the
reservation of its body. -/
def CounterAt (inst : LoopInstance) : Option ControllerPoint → Prop
  | some (.announceIteration next) | some (.reserve next) => inst.currentIter = next.iter
  | _ => inst.currentIter = lastIter inst.invocationLedger

/-- What holds of a loop at its controller's point. -/
structure Standing (env : LoopEnv) (inst : LoopInstance) (handed : List HandedInvocation)
    (controller : Option ControllerPoint) : Prop where
  ledger : LedgerSound env inst.maxIters inst.invocationLedger handed
  authority : validateLoopAuthority env inst.workerAgent inst.authority = .ok ()
  positive : 1 ≤ inst.maxIters
  done : inst.state = .done → Passed env inst.invocationLedger ∧
    (controller = none ∨ controller = some (.emitTerminal .done))
  point : ∀ point ∈ controller, At env inst.maxIters inst.invocationLedger handed point

/-- The invariant of the service. -/
structure LoopService.Consistent (env : LoopEnv) (s : LoopService) : Prop where
  standing : Standing env s.inst s.handed (s.process.bind Process.controller)
  counter : ∀ p ∈ s.process, CounterAt s.inst p.controller

section Steps

variable {env : LoopEnv} {inst : LoopInstance} {handed : List HandedInvocation}

/-- The controller may disappear at any time. -/
theorem Standing.halt {controller : Option ControllerPoint}
    (h : Standing env inst handed controller) : Standing env inst handed none where
  ledger := h.ledger
  authority := h.authority
  positive := h.positive
  done := fun hdone => ⟨(h.done hdone).1, Or.inl rfl⟩
  point := by simp

/-- A step that leaves the ledger, and does not end the loop. -/
theorem Standing.move {controller : Option ControllerPoint} {point : ControllerPoint}
    (h : Standing env inst handed controller) {inst' : LoopInstance}
    (hledger : LedgerSound env inst.maxIters inst'.invocationLedger handed')
    (hmax : inst'.maxIters = inst.maxIters)
    (hauthority : inst'.workerAgent = inst.workerAgent ∧ inst'.authority = inst.authority)
    (hdone : inst'.state ≠ .done)
    (hpoint : At env inst.maxIters inst'.invocationLedger handed' point) :
    Standing env inst' handed' (some point) where
  ledger := hmax ▸ hledger
  authority := by
    rw [hauthority.1, hauthority.2]
    exact h.authority
  positive := hmax ▸ h.positive
  done := fun h => absurd h hdone
  point := by
    rintro _ ⟨⟩
    exact hmax ▸ hpoint

/-- The loop is not done while the controller has more to do than the terminal frame. -/
theorem Standing.not_done {point : ControllerPoint} (h : Standing env inst handed (some point))
    (hpoint : ∀ state, point ≠ .emitTerminal state) : inst.state ≠ .done := by
  intro hdone
  rcases (h.done hdone).2 with hnone | hsome
  · cases hnone
  · exact hpoint _ (Option.some.inj hsome)

/-- The decision at the head of the loop. -/
theorem at_afterStatus (hledger : LedgerSound env inst.maxIters inst.invocationLedger handed)
    (hpositive : 1 ≤ inst.maxIters) :
    ∀ point ∈ afterStatus env inst, At env inst.maxIters inst.invocationLedger handed point := by
  intro point hpoint
  unfold afterStatus at hpoint
  split at hpoint
  · cases hpoint
  · split at hpoint
    · rename_i hlast
      cases hpoint
      have hnil := List.getLast?_eq_none_iff.1 hlast
      exact ⟨by simp [hnil], hlast.symm, by simp [hlast, NextInvocation.key, expectedIter,
        expectedKind], hpositive⟩
    · rename_i record hlast
      have hconcat := eq_concat_of_getLast? hlast
      have hmem : record ∈ inst.invocationLedger := List.mem_of_getLast? hlast
      split at hpoint
      · rename_i hstate
        cases hpoint
        exact ⟨_, hconcat, hstate, by simp [String.append_assoc]⟩
      · cases hpoint
        exact fun h => by cases h
      · rename_i hstate
        have hcompleted := hledger.completed (by
          rw [hlast]
          rintro _ ⟨⟩
          exact hstate)
        have hrecorded := hledger.recorded record hmem
        simp only [Recorded, hstate] at hrecorded
        obtain ⟨outcome, -, -, -, houtput, -⟩ := hrecorded
        split at hpoint
        · rename_i hnone
          rw [houtput] at hnone
          cases hnone
        · rename_i hkind _
          cases hpoint
          exact ⟨hcompleted, hlast.symm, by simp [hlast, NextInvocation.key, expectedIter,
            expectedKind, hkind], hledger.bounded record hmem⟩
        · rename_i hnone
          rw [houtput] at hnone
          cases hnone
        · rename_i verifyOutput hkind hsome
          split at hpoint
          · cases hpoint
            exact fun h => by cases h
          · rename_i passed hparse
            cases hpoint
            refine ⟨hlast, hkind, hstate, fun hpassed => ?_⟩
            exact ⟨_, record, verifyOutput, hconcat, hkind, hstate, hsome, hpassed ▸ hparse⟩

/-- The causal context of the next invocation exists. -/
theorem loopCausalContext_ok {next : NextInvocation}
    (hledger : LedgerSound env inst.maxIters inst.invocationLedger handed)
    (hready : Ready inst.maxIters inst.invocationLedger next) :
    ∃ causalContext, loopCausalContext env next.parent = .ok causalContext := by
  rw [hready.parent]
  cases hlast : inst.invocationLedger.getLast? with
  | none => exact ⟨_, rfl⟩
  | some parent =>
    have hmem : parent ∈ inst.invocationLedger := List.mem_of_getLast? hlast
    have hstate := hready.completed parent hmem
    have hrecorded := hledger.recorded parent hmem
    simp only [Recorded, hstate] at hrecorded
    obtain ⟨outcome, -, hura, hhash, -, -⟩ := hrecorded
    refine ⟨.scalar outcome.receiptHash outcome.receiptUra, ?_⟩
    simp [loopCausalContext, hstate, hura, hhash, env.hex.decode_encode, bailIf,
      outcome.receiptHash.2, Bind.bind, Except.bind]

/-- The next invocation is not in the ledger yet. -/
theorem reserveLoopInvocation_ok {next : NextInvocation}
    (hledger : LedgerSound env inst.maxIters inst.invocationLedger handed)
    (hready : Ready inst.maxIters inst.invocationLedger next) :
    LedgerSound env inst.maxIters (inst.invocationLedger ++ [reservedRecord next]) handed ∧
      reserveLoopInvocation inst next = .ok { inst with
        invocationLedger := inst.invocationLedger ++ [reservedRecord next] } := by
  have hsequenced : Sequenced none (inst.invocationLedger ++ [reservedRecord next]) := by
    refine (sequenced_concat _ _).2 ⟨hledger.sequenced, hready.key, ?_⟩
    rw [← hready.parent]
    rfl
  refine ⟨⟨hsequenced, ?_, ?_, ?_, ?_⟩, ?_⟩
  · intro record hrecord
    rcases List.mem_append.1 hrecord with hrecord | hrecord
    · exact hledger.recorded record hrecord
    · rw [List.mem_singleton.1 hrecord]
      exact ⟨rfl, rfl, rfl, rfl, rfl⟩
  · rw [List.dropLast_concat]
    exact hready.completed
  · intro record hrecord
    rcases List.mem_append.1 hrecord with hrecord | hrecord
    · exact hledger.bounded record hrecord
    · rw [List.mem_singleton.1 hrecord]
      exact hready.bounded
  · exact Or.inr ⟨_, _, rfl, by simp [reservedRecord], hledger.logged.forall₂ hready.completed⟩
  · -- the keys of a sequenced ledger are all different
    have hnodup : ((inst.invocationLedger ++ [reservedRecord next]).map
        LoopInvocationRecord.key).Nodup := by
      rw [hsequenced.keys]
      exact List.Nodup.map reservationAt_injective List.nodup_range
    rw [List.map_append, List.nodup_append] at hnodup
    have hfresh : (inst.invocationLedger.any fun record =>
        record.iter = next.iter && record.kind = next.kind) = false := by
      rw [List.any_eq_false]
      intro record hrecord hfound
      simp only [Bool.and_eq_true, decide_eq_true_eq] at hfound
      exact hnodup.2.2 record.key (List.mem_map_of_mem hrecord) (reservedRecord next).key
        (by simp) (Prod.ext hfound.1 hfound.2)
    simp [reserveLoopInvocation, hfresh, bailIf, pure, Except.pure, Bind.bind, Except.bind]

/-- A reservation that ends without a result. -/
theorem failLoopInvocation_ok {pre : List LoopInvocationRecord} {record : LoopInvocationRecord}
    {error : String} (hledger : LedgerSound env inst.maxIters inst.invocationLedger handed)
    (hconcat : inst.invocationLedger = pre ++ [record]) (hstate : record.state = .reserved)
    (herror : error ≠ "")
    (hlogged : List.Forall₂ Answered (pre ++ [failRecord error record]) handed' ∨
      List.Forall₂ Answered pre handed') :
    LedgerSound env inst.maxIters (pre ++ [failRecord error record]) handed' ∧
      failLoopInvocation inst record.iter record.kind error =
        .ok { inst with invocationLedger := pre ++ [failRecord error record] } := by
  refine ⟨?_, updateReservedLoopInvocation_concat hconcat hstate _⟩
  rw [hconcat] at hledger
  refine hledger.settle rfl rfl ⟨error, herror, rfl⟩ ?_
  exact hlogged.imp id fun h => ⟨pre, _, rfl, by simp [failRecord], h⟩

/-- The steps of the controller. -/
theorem Standing.advance {point : ControllerPoint} {a : Advance}
    (h : Standing env inst handed (some point)) (ha : Loops.advance env inst point = some a) :
    Standing env a.inst (handed ++ a.handed) a.next := by
  have hat := h.point point rfl
  cases point with
  | readStatus =>
    cases ha
    have hdone := h.not_done (fun _ => by simp)
    exact ⟨by simpa using h.ledger, h.authority, h.positive, fun h => absurd h hdone,
      by simpa using at_afterStatus h.ledger h.positive⟩
  | failReserved record error =>
    obtain ⟨pre, hconcat, hstate, herror⟩ := hat
    -- the record had been handed over before the crash, or it had not
    have hlogged : List.Forall₂ Answered (pre ++ [failRecord error record]) handed ∨
        List.Forall₂ Answered pre handed := by
      have hl := h.ledger.logged
      rw [hconcat] at hl
      rcases hl with hl | ⟨pre', record', heq, -, hl⟩
      · obtain ⟨before, call, hbefore, hpre, hcall⟩ := forall₂_concat.1 hl
        exact Or.inl (forall₂_concat.2 ⟨before, call, hbefore, hpre, hcall.1, fun h => by cases h⟩)
      · obtain ⟨rfl, -⟩ := List.append_inj' heq rfl
        exact Or.inr hl
    obtain ⟨hledger, hok⟩ := failLoopInvocation_ok h.ledger hconcat hstate herror hlogged
    simp only [Loops.advance, hok] at ha
    cases ha
    exact h.move (by simpa using hledger) rfl ⟨rfl, rfl⟩ (h.not_done (fun _ => by simp))
      (fun h => by cases h)
  | noteOutput text state =>
    cases ha
    exact h.move (by simpa using h.ledger) rfl ⟨rfl, rfl⟩ (h.not_done (fun _ => by simp)) hat
  | finishIteration record passed =>
    cases ha
    obtain ⟨hlast, hkind, hstate, hpassed⟩ := hat
    refine h.move (by simpa using h.ledger) rfl ⟨rfl, rfl⟩ (h.not_done (fun _ => by simp)) ?_
    unfold afterIteration
    split
    · exact fun _ => hpassed ‹_›
    · split
      · exact fun h => by cases h
      · rename_i hlt
        have hcompleted := h.ledger.completed (by
          rw [hlast]
          rintro _ ⟨⟩
          exact hstate)
        refine ⟨hcompleted, hlast.symm, ?_, Nat.lt_of_not_le hlt⟩
        simp [hlast, NextInvocation.key, expectedIter, expectedKind, hkind]
  | checkCancelled next =>
    simp only [Loops.advance] at ha
    have hdone := h.not_done (fun _ => by simp)
    split at ha
    · cases ha
      simpa using h.halt
    · split at ha
      · cases ha
        exact h.move (by simpa using h.ledger) rfl ⟨rfl, rfl⟩ hdone ⟨hat, ‹_›⟩
      · cases ha
        exact h.move (by simpa using h.ledger) rfl ⟨rfl, rfl⟩ hdone hat
  | markIteration next =>
    cases ha
    exact h.move (by simpa using h.ledger) rfl ⟨rfl, rfl⟩ (by simp) hat
  | announceIteration next =>
    cases ha
    exact h.move (by simpa using h.ledger) rfl ⟨rfl, rfl⟩ (h.not_done (fun _ => by simp)) hat.1
  | reserve next =>
    have hready : Ready inst.maxIters inst.invocationLedger next := hat
    obtain ⟨causalContext, hcontext⟩ := loopCausalContext_ok h.ledger hready
    obtain ⟨hledger, hok⟩ := reserveLoopInvocation_ok h.ledger hready
    simp only [Loops.advance, hcontext, hok] at ha
    cases ha
    refine h.move (by simpa using hledger) rfl ⟨rfl, rfl⟩ (h.not_done (fun _ => by simp)) ?_
    exact ⟨_, _, rfl, rfl, rfl, by simpa using h.ledger.logged.forall₂ hready.completed⟩
  | invoke next causalContext =>
    cases ha
    obtain ⟨pre, record, hconcat, hstate, hkey, hpre⟩ := hat
    refine h.move ?_ rfl ⟨rfl, rfl⟩ (h.not_done (fun _ => by simp)) ?_
    · have hledger := h.ledger
      rw [hconcat] at hledger ⊢
      refine hledger.settle rfl rfl (hledger.recorded record (by simp)) (Or.inl ?_)
      exact forall₂_concat.2 ⟨handed, _, rfl, hpre, hkey.symm, fun h => by simp [hstate] at h⟩
    · exact ⟨pre, record, handed, _, hconcat, hstate, hkey, rfl, rfl, hpre⟩
  | awaitAnswer next => cases ha
  | keepOutput next text receipt =>
    cases ha
    cases hkind : next.kind <;>
    · simp only [LoopInstance.setLastOutput]
      exact h.move (by simpa using h.ledger) rfl ⟨rfl, rfl⟩ (h.not_done (fun _ => by simp)) trivial
  | emitChunk next text receipt =>
    cases ha
    refine h.move (by simpa using h.ledger) rfl ⟨rfl, rfl⟩ (h.not_done (fun _ => by simp)) ?_
    cases receipt with
    | none => exact fun h => by cases h
    | some receipt => trivial
  | recordTerminal state =>
    cases ha
    refine ⟨by simpa using h.ledger, h.authority, h.positive, ?_, ?_⟩
    · rintro rfl
      exact ⟨hat rfl, Or.inr rfl⟩
    · rintro _ ⟨⟩
      trivial
  | emitTerminal state =>
    cases ha
    simpa using h.halt
  | driveFailed detail => exact hat.elim
  | failLoop iter detail => exact hat.elim
  | emitFailure iter detail => exact hat.elim

/-- The answer of the driver. -/
theorem Standing.answer {next : NextInvocation}
    (h : Standing env inst handed (some (.awaitAnswer next)))
    (answer : Except String LoopInvocationOutcome) :
    Standing env (onAnswer env inst next answer).inst
      (noteAnswer answer handed ++ (onAnswer env inst next answer).handed)
      (onAnswer env inst next answer).next := by
  obtain ⟨pre, record, before, call, hconcat, hstate, hkey, rfl, hcall, hpre⟩ := h.point _ rfl
  have hiter : next.iter = record.iter := congrArg Prod.fst hkey.symm
  have hkind : next.kind = record.kind := congrArg Prod.snd hkey.symm
  have hnote : noteAnswer answer (before ++ [call]) =
      before ++ [{ call with answer := some answer }] := by
    simp [noteAnswer, List.modifyLast_concat]
  have hdone := h.not_done (fun _ => by simp)
  rw [hnote]
  cases answer with
  | ok outcome =>
    have hok : completeLoopInvocation env inst next.iter next.kind outcome = .ok { inst with
        invocationLedger := pre ++ [completeRecord env outcome record] } := by
      rw [hiter, hkind]
      exact updateReservedLoopInvocation_concat hconcat hstate _
    simp only [onAnswer, hok]
    refine h.move ?_ rfl ⟨rfl, rfl⟩ hdone trivial
    have hledger := h.ledger
    rw [hconcat] at hledger
    refine hledger.settle rfl rfl ?_ (Or.inl ?_)
    · have hrecorded := hledger.recorded record (by simp)
      simp only [Recorded, hstate] at hrecorded
      exact ⟨outcome, rfl, rfl, rfl, rfl, hrecorded.2.2.2.2⟩
    · rw [List.append_nil]
      exact forall₂_concat.2 ⟨before, _, rfl, hpre, hcall.trans hkey.symm,
        fun _ => ⟨outcome, rfl, rfl⟩⟩
  | error error =>
    have herror : "[" ++ next.kind.asStr ++ "_error] " ++ error ≠ "" := by
      simp [String.append_assoc]
    obtain ⟨hledger, hok⟩ := failLoopInvocation_ok h.ledger hconcat hstate herror
      (Or.inl (forall₂_concat.2 ⟨before, { call with answer := some (.error error) }, rfl, hpre,
        hcall.trans hkey.symm, fun h => by cases h⟩))
    rw [← hiter, ← hkind] at hok
    simp only [onAnswer, hok]
    exact h.move (by simpa using hledger) rfl ⟨rfl, rfl⟩ hdone trivial

/-! ### The iteration counter -/

/-- A body opens the next iteration, a verification belongs to the last one. -/
theorem Ready.iter_eq {maxIters : Nat} {ledger : List LoopInvocationRecord} {next : NextInvocation}
    (h : Ready maxIters ledger next) :
    next.iter = if next.kind = .body then lastIter ledger + 1 else lastIter ledger := by
  have hiter : next.iter = expectedIter ledger.getLast? := congrArg Prod.fst h.key
  have hkind : next.kind = expectedKind ledger.getLast? := congrArg Prod.snd h.key
  rw [hiter, hkind, lastIter]
  cases ledger.getLast? with
  | none => rfl
  | some previous =>
    cases hprevious : previous.kind <;> simp [expectedIter, expectedKind, hprevious]

theorem counterAt_afterStatus :
    CounterAt inst (afterStatus env inst) ↔ inst.currentIter = lastIter inst.invocationLedger := by
  unfold afterStatus
  repeat' split
  all_goals rfl

theorem CounterAt.advance {point : ControllerPoint} {a : Advance}
    (h : Standing env inst handed (some point)) (hcounter : CounterAt inst (some point))
    (ha : Loops.advance env inst point = some a) : CounterAt a.inst a.next := by
  have hat := h.point point rfl
  cases point with
  | readStatus =>
    cases ha
    exact counterAt_afterStatus.2 hcounter
  | failReserved record error =>
    obtain ⟨pre, hconcat, hstate, -⟩ := hat
    simp only [Loops.advance, failLoopInvocation,
      updateReservedLoopInvocation_concat hconcat hstate] at ha
    cases ha
    have hlast : inst.currentIter = record.iter := by
      rw [← lastIter_concat pre record, ← hconcat]
      exact hcounter
    exact hlast.trans (lastIter_concat pre (failRecord error record)).symm
  | finishIteration record passed =>
    cases ha
    simp only [afterIteration]
    repeat' split
    all_goals exact hcounter
  | checkCancelled next =>
    simp only [Loops.advance] at ha
    split at ha
    · cases ha
      exact hcounter
    · split at ha
      · cases ha
        exact hcounter
      · rename_i hkind
        cases ha
        refine Eq.trans hcounter ?_
        rw [Ready.iter_eq hat, if_neg hkind]
  | markIteration next =>
    cases ha
    rfl
  | announceIteration next =>
    cases ha
    exact hcounter
  | reserve next =>
    obtain ⟨causalContext, hcontext⟩ := loopCausalContext_ok h.ledger hat
    obtain ⟨-, hok⟩ := reserveLoopInvocation_ok h.ledger hat
    simp only [Loops.advance, hcontext, hok] at ha
    cases ha
    exact Eq.trans hcounter (lastIter_concat _ (reservedRecord next)).symm
  | awaitAnswer next => cases ha
  | keepOutput next text receipt =>
    cases ha
    cases hkind : next.kind <;> exact hcounter
  | emitChunk next text receipt =>
    cases ha
    cases receipt <;> exact hcounter
  | noteOutput text state =>
    cases ha
    exact hcounter
  | invoke next causalContext =>
    cases ha
    exact hcounter
  | recordTerminal state =>
    cases ha
    exact hcounter
  | emitTerminal state =>
    cases ha
    exact hcounter
  | driveFailed detail => exact hat.elim
  | failLoop iter detail => exact hat.elim
  | emitFailure iter detail => exact hat.elim

theorem CounterAt.answer {next : NextInvocation}
    (h : Standing env inst handed (some (.awaitAnswer next)))
    (hcounter : CounterAt inst (some (.awaitAnswer next)))
    (answer : Except String LoopInvocationOutcome) :
    CounterAt (onAnswer env inst next answer).inst (onAnswer env inst next answer).next := by
  obtain ⟨pre, record, before, call, hconcat, hstate, hkey, -, -, -⟩ := h.point _ rfl
  have hiter : next.iter = record.iter := congrArg Prod.fst hkey.symm
  have hkind : next.kind = record.kind := congrArg Prod.snd hkey.symm
  have hlast : inst.currentIter = record.iter := by
    rw [← lastIter_concat pre record, ← hconcat]
    exact hcounter
  cases answer with
  | ok outcome =>
    simp only [onAnswer, completeLoopInvocation, hiter, hkind,
      updateReservedLoopInvocation_concat hconcat hstate]
    exact hlast.trans (lastIter_concat pre (completeRecord env outcome record)).symm
  | error error =>
    simp only [onAnswer, failLoopInvocation, hiter, hkind,
      updateReservedLoopInvocation_concat hconcat hstate]
    exact hlast.trans (lastIter_concat pre (failRecord _ record)).symm

end Steps

/-! ## Whole runs -/

section Run

variable {env : LoopEnv}

/-- A started controller is at the head of its loop. -/
theorem Standing.startController {inst : LoopInstance} {handed : List HandedInvocation}
    {controller : Option ControllerPoint} (h : Standing env inst handed controller)
    (driver : Bool) : Standing env inst handed (Loops.startController inst driver).controller := by
  simp only [Loops.startController]
  split
  · rename_i hstart
    have hopen : isTerminal inst.state = false := by simpa using (Bool.and_eq_true_iff.1 hstart).2
    refine h.move h.ledger rfl ⟨rfl, rfl⟩ ?_ trivial
    intro hdone
    rw [hdone] at hopen
    cases hopen
  · exact h.halt

theorem counterAt_startController {inst : LoopInstance}
    (h : inst.currentIter = lastIter inst.invocationLedger) (driver : Bool) :
    CounterAt inst (startController inst driver).controller := by
  simp only [startController]
  split <;> exact h

/-- The checks of a restart, for a loop that the controller has written. -/
theorem bind_singleton_eq_ok_iff {inst : LoopInstance} :
    bind env [inst] = .ok () ↔ validateLoopAuthority env inst.workerAgent inst.authority = .ok () ∧
      validateLoopInvocationLedger env inst = .ok () := by
  simp [bind, checkAll_eq_ok_iff, check_bind_eq_ok_iff]

theorem ledgerSound_nil {maxIters : Nat} : LedgerSound env maxIters [] [] where
  sequenced := trivial
  recorded _ h := absurd h List.not_mem_nil
  openLast _ h := absurd h List.not_mem_nil
  bounded _ h := absurd h List.not_mem_nil
  logged := Or.inl .nil

theorem LoopService.consistent_start {spec : LoopSpec} {inst : LoopInstance}
    (h : create env spec = .ok inst) (driver : Bool) :
    (LoopService.start inst driver).Consistent env := by
  simp only [create, check_bind_eq_ok_iff, bailIf_eq_ok_iff, decide_eq_false_iff_not] at h
  obtain ⟨hmax, hauthority, h⟩ := h
  cases h
  refine ⟨@Standing.startController env _ _ none ?_ driver, ?_⟩
  · exact {
      ledger := ledgerSound_nil
      authority := hauthority
      positive := Nat.pos_of_ne_zero hmax
      done := fun h => by cases h
      point := by simp }
  · rintro _ ⟨⟩
    exact counterAt_startController rfl driver

theorem LoopService.Consistent.step {s s' : LoopService} {e : LoopEvent} (h : s.Consistent env)
    (hstep : s.step env e = some s') : s'.Consistent env := by
  have hstanding := h.standing
  cases step_of_eq_some hstep with
  | advance hp hpoint ha =>
    rw [hp, Option.bind_some, hpoint] at hstanding
    refine ⟨hstanding.advance ha, ?_⟩
    rintro _ ⟨⟩
    exact CounterAt.advance hstanding (hpoint ▸ h.counter _ hp) ha
  | answer result hp hpoint =>
    rw [hp, Option.bind_some, hpoint] at hstanding
    refine ⟨hstanding.answer result, ?_⟩
    rintro _ ⟨⟩
    exact CounterAt.answer hstanding (hpoint ▸ h.counter _ hp) result
  | @cancelled p hp hopen =>
    rw [hp, Option.bind_some] at hstanding
    refine ⟨⟨hstanding.ledger, hstanding.authority, hstanding.positive, ?_, hstanding.point⟩, ?_⟩
    · intro hdone
      cases hdone
    · rintro _ ⟨⟩
      exact h.counter p hp
  | cancelledBefore hp hterminal => exact h
  | @cancelFrame p hp howed =>
    rw [hp, Option.bind_some] at hstanding
    refine ⟨hstanding, ?_⟩
    rintro _ ⟨⟩
    exact h.counter p hp
  | crash hp => exact ⟨hstanding.halt, by simp⟩
  | boot driver hp haccepted =>
    refine ⟨hstanding.startController driver, ?_⟩
    rintro _ ⟨⟩
    have hvalid := (bind_singleton_eq_ok_iff.1 haccepted).2
    exact counterAt_startController (validateLoopInvocationLedger_eq_ok_iff.1 hvalid).2.2.2 driver
  | bootRejected driver hp hrejected => exact h

/-- The invariant holds in every state that a created loop reaches. -/
theorem LoopService.consistent_run {spec : LoopSpec} {inst : LoopInstance}
    (h : create env spec = .ok inst) {driver : Bool} {events : List LoopEvent} {s : LoopService}
    (hrun : (LoopService.start inst driver).run env events = some s) : s.Consistent env :=
  runSteps_preserves (fun _ _ _ hs hstep => hs.step hstep) (consistent_start h driver) hrun

end Run

end EasyNetDaemon.Loops
