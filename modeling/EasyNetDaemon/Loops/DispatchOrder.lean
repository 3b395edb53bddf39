import EasyNetDaemon.Loops.DriveInvariant

/-!
# What the controller hands to the driver

Over every run with cancels, crashes and restarts: the reservations are the body and the
verification of each iteration, in order and without a gap; the invocations handed to the driver are
the first of them, each handed over once, and never more than two for each allowed iteration; and a
loop that is done was found done by its last verification.
-/

namespace EasyNetDaemon.Loops

open Library

section Log

variable {env : LoopEnv} {maxIters : Nat} {ledger : List LoopInvocationRecord}
  {handed : List HandedInvocation}

theorem keys_of_forall₂_answered (h : List.Forall₂ Answered ledger handed) :
    handed.map HandedInvocation.key = ledger.map LoopInvocationRecord.key := by
  induction h with
  | nil => rfl
  | cons hhead _ ih => rw [List.map_cons, List.map_cons, hhead.1, ih]

/-- What was handed over are the first reservations. -/
theorem LedgerSound.handed_keys (h : LedgerSound env maxIters ledger handed) :
    handed.map HandedInvocation.key = (List.range handed.length).map reservationAt := by
  rcases h.logged with hall | ⟨pre, record, rfl, -, hpre⟩
  · rw [keys_of_forall₂_answered hall, h.sequenced.keys, hall.length_eq]
  · rw [keys_of_forall₂_answered hpre, ((sequenced_concat pre record).1 h.sequenced).1.keys,
      hpre.length_eq]

/-- No more than two invocations for each iteration. -/
theorem LedgerSound.handed_length_le (h : LedgerSound env maxIters ledger handed) :
    handed.length ≤ 2 * maxIters := by
  have hle : handed.length ≤ ledger.length := by
    rcases h.logged with hall | ⟨pre, record, rfl, -, hpre⟩
    · exact hall.length_eq.ge
    · rw [← hpre.length_eq, List.length_append]
      exact Nat.le_add_right _ _
  refine hle.trans ?_
  -- the last record of the ledger has the highest iteration
  cases hlast : ledger.getLast? with
  | none =>
    rw [List.getLast?_eq_none_iff.1 hlast]
    exact Nat.zero_le _
  | some last =>
    have hbound := h.bounded last (List.mem_of_getLast? hlast)
    have hkey := congrArg List.getLast? h.sequenced.keys
    have hne : ledger.length ≠ 0 := fun h => by simp [List.length_eq_zero_iff.1 h] at hlast
    simp only [List.getLast?_map, hlast, Option.map_some, List.getLast?_range, hne, if_false,
      Option.some.injEq] at hkey
    have hiter : last.iter = (ledger.length - 1) / 2 + 1 := congrArg Prod.fst hkey
    omega

/-- The last verification handed over is the one that passed. -/
theorem LedgerSound.last_verify (h : LedgerSound env maxIters ledger handed)
    (hpassed : Passed env ledger) :
    ∃ call outcome, (handed.filter fun call => call.kind = .verify).getLast? = some call ∧
      call.answer = some (.ok outcome) ∧ parseVerifyDone env outcome.output = .ok true := by
  obtain ⟨pre, record, output, rfl, hkind, hstate, houtput, hparse⟩ := hpassed
  have hall : List.Forall₂ Answered (pre ++ [record]) handed :=
    h.logged.forall₂ (h.completed (by simp [hstate]))
  obtain ⟨before, call, rfl, -, hcall⟩ := forall₂_concat.1 hall
  obtain ⟨outcome, hanswer, hsame⟩ := hcall.2 hstate
  have hverify : call.kind = .verify := (congrArg Prod.snd hcall.1).trans hkind
  refine ⟨call, outcome, ?_, hanswer, ?_⟩
  · simp [List.filter_append, hverify]
  · rw [houtput] at hsame
    exact Option.some.inj hsame ▸ hparse

end Log

/-! ## The bound on the iterations -/

theorem maxIters_updateReserved {inst inst' : LoopInstance} {iter : Nat} {kind : LoopInvocationKind}
    {update : LoopInvocationRecord → LoopInvocationRecord}
    (h : updateReservedLoopInvocation inst iter kind update = .ok inst') :
    inst'.maxIters = inst.maxIters := by
  simp only [updateReservedLoopInvocation] at h
  split at h
  · cases h
  · obtain ⟨-, h⟩ := check_bind_eq_ok_iff.1 h
    cases h
    rfl

theorem maxIters_reserve {inst inst' : LoopInstance} {next : NextInvocation}
    (h : reserveLoopInvocation inst next = .ok inst') : inst'.maxIters = inst.maxIters := by
  obtain ⟨-, h⟩ := check_bind_eq_ok_iff.1 h
  cases h
  rfl

theorem maxIters_advance {env : LoopEnv} {inst : LoopInstance} {point : ControllerPoint}
    {a : Advance} (h : advance env inst point = some a) : a.inst.maxIters = inst.maxIters := by
  cases point <;> simp only [advance] at h
  case failReserved record error =>
    split at h
    · rename_i hok
      cases h
      exact maxIters_updateReserved hok
    · cases h
      rfl
  case checkCancelled next => split at h <;> [skip; split at h] <;> cases h <;> rfl
  case reserve next =>
    split at h
    · cases h
      rfl
    · cases h
      rfl
    · rename_i hok
      cases h
      exact maxIters_reserve hok
  case keepOutput next text receipt =>
    cases h
    cases hkind : next.kind <;> rfl
  case driveFailed detail => split at h <;> cases h <;> rfl
  all_goals cases h
  all_goals rfl

theorem maxIters_onAnswer (env : LoopEnv) (inst : LoopInstance) (next : NextInvocation)
    (answer : Except String LoopInvocationOutcome) :
    (onAnswer env inst next answer).inst.maxIters = inst.maxIters := by
  simp only [onAnswer]
  split
  · split
    · exact maxIters_updateReserved ‹_›
    · rfl
  · split
    · exact maxIters_updateReserved ‹_›
    · rfl

theorem LoopService.maxIters_step {env : LoopEnv} {s s' : LoopService} {e : LoopEvent}
    (h : s.step env e = some s') : s'.inst.maxIters = s.inst.maxIters := by
  cases step_of_eq_some h with
  | advance hp hpoint ha => exact maxIters_advance ha
  | answer result hp hpoint => exact maxIters_onAnswer env s.inst _ result
  | cancelled | cancelledBefore | cancelFrame | crash | boot | bootRejected => rfl

/-! ## The order of the dispatches -/

/-- The reservations and the dispatches of a loop, in any run with any answers of the driver, any
cancels, crashes and restarts. -/
theorem LoopService.dispatch_discipline (env : LoopEnv) (spec : LoopSpec) (inst : LoopInstance)
    (hcreate : create env spec = .ok inst) (driver : Bool) (events : List LoopEvent)
    (s : LoopService) (hrun : (LoopService.start inst driver).run env events = some s) :
    s.inst.invocationLedger.map LoopInvocationRecord.key =
        (List.range s.inst.invocationLedger.length).map reservationAt ∧
      (s.handed.map HandedInvocation.key).Nodup ∧
      s.handed.length ≤ 2 * spec.maxIters ∧
      (s.inst.state = .done → ∃ call outcome,
        (s.handed.filter fun call => call.kind = .verify).getLast? = some call ∧
          call.answer = some (.ok outcome) ∧ parseVerifyDone env outcome.output = .ok true) := by
  have hledger := (consistent_run hcreate hrun).standing.ledger
  have hmax : s.inst.maxIters = spec.maxIters := by
    have hinst : inst.maxIters = spec.maxIters := by
      simp only [create, check_bind_eq_ok_iff] at hcreate
      obtain ⟨-, -, h⟩ := hcreate
      cases h
      rfl
    exact runSteps_preserves (I := fun s : LoopService => s.inst.maxIters = spec.maxIters)
      (fun _ _ _ hs hstep => (maxIters_step hstep).trans hs) hinst hrun
  refine ⟨hledger.sequenced.keys, ?_, hmax ▸ hledger.handed_length_le, fun hdone => ?_⟩
  · rw [hledger.handed_keys]
    exact List.Nodup.map reservationAt_injective List.nodup_range
  · exact hledger.last_verify ((consistent_run hcreate hrun).standing.done hdone).1

/-- A loop that fails its first verification, crashes after the second body was completed, and is
done after the restart. -/
def sampleRestart : List LoopEvent :=
  List.replicate 6 .advance ++ [.answer (.ok (sampleOutcome "changed a.rs"))] ++
    List.replicate 6 .advance ++ [.answer (.ok (sampleOutcome doneFalse))] ++
    List.replicate 9 .advance ++
      [.answer (.ok (sampleOutcome "changed b.rs")), .crash, .boot true] ++
    List.replicate 4 .advance ++ [.answer (.ok (sampleOutcome doneTrue))] ++
    List.replicate 6 .advance

theorem dispatch_discipline_sampleRestart :
    ∃ s, (LoopService.start sampleInstance true).run sampleEnv sampleRestart = some s ∧
      s.inst.state = .done ∧ (s.handed.map HandedInvocation.key).Nodup ∧
      s.handed.length ≤ 2 * sampleSpec.maxIters := by
  refine ⟨_, rfl, by decide +kernel, ?_⟩
  have h := LoopService.dispatch_discipline sampleEnv sampleSpec sampleInstance create_sampleSpec
    true sampleRestart _ rfl
  exact ⟨h.2.1, h.2.2.1⟩

end EasyNetDaemon.Loops
