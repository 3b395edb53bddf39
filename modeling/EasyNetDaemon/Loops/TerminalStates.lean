import EasyNetDaemon.Loops.Controller

/-!
# Terminal states of a loop

`cancel` sets the state and adds a terminal frame whatever the controller is doing, and the
controller looks for a cancel only at the head of its loop and before it prepares an invocation. A
cancel that arrives after the second look is overwritten when the iteration is marked, or followed
by a reservation; one that arrives while the driver works is followed by the frame of the answer.
Both change the instance in the cache under its lock and save a copy of it afterwards: a copy of the
running loop that is saved behind that of the cancel brings the loop back at the next restart
(`SavedLoop.cancel_overwritten`).

When every cancel arrives where the controller looks before it writes, adds its frame when no other
frame is to come, no invocation fails after it, and no copy is saved before an older one of the
controller, a terminal state stays in the cache and in the store, and its frame is the last one
(`SavedLoop.terminal_absorbing`).
-/

namespace EasyNetDaemon.Loops

open Library

/-! ## Where a cancel is harmless -/

/-- From here the controller looks at the state before it changes it or reserves, unless the driver
reports a failure. -/
def ControllerPoint.looksFirst (maxIters : Nat) : ControllerPoint → Bool
  | .readStatus | .checkCancelled _ | .driveFailed _ | .invoke _ _ | .awaitAnswer _ => true
  | .keepOutput _ _ receipt | .emitChunk _ _ receipt => receipt.isSome
  | .finishIteration record passed => !passed && decide (record.iter < maxIters)
  | _ => false

/-- The next step of the controller looks at the state and adds no frame. -/
def ControllerPoint.isLooking : ControllerPoint → Bool
  | .readStatus | .checkCancelled _ | .driveFailed _ => true
  | _ => false

/-- The terminal frame is still to be added. -/
def ControllerPoint.owesFrame : ControllerPoint → Bool
  | .emitTerminal _ | .emitFailure _ _ | .recordTerminal _ => true
  | _ => false

/-- A cancel arrives where the controller looks first; its frame comes when the controller has none
to add; no invocation fails once the loop has ended. -/
def LoopService.Orderly (s : LoopService) : LoopEvent → Prop
  | .cancel => isTerminal s.inst.state = false →
    (s.process.bind Process.controller).all (ControllerPoint.looksFirst s.inst.maxIters) = true
  | .cancelFrame => (s.process.bind Process.controller).all ControllerPoint.isLooking = true
  | .answer (.error _) => isTerminal s.inst.state = false
  | _ => True

instance (s : LoopService) : DecidablePred s.Orderly
  | .cancel => inferInstanceAs (Decidable (_ → _))
  | .cancelFrame => inferInstanceAs (Decidable (_ = true))
  | .answer (.error _) => inferInstanceAs (Decidable (_ = false))
  | .answer (.ok _) | .advance | .crash | .boot _ => inferInstanceAs (Decidable True)

/-- No frame is terminal. -/
def NoTerminalFrame (history : List LoopFrame) : Prop :=
  ∀ frame ∈ history, frame.isTerminal = false

/-- The last frame is the terminal one, and it is the only one. -/
def EndsWith (history : List LoopFrame) (state : LoopState) : Prop :=
  ∃ before, history = before ++ [.terminal state] ∧ NoTerminalFrame before

theorem NoTerminalFrame.append {history frames : List LoopFrame} (h : NoTerminalFrame history)
    (hframes : ∀ frame ∈ frames, frame.isTerminal = false) :
    NoTerminalFrame (history ++ frames) := by
  intro frame hframe
  exact (List.mem_append.1 hframe).elim (h frame) (hframes frame)

/-! ## The phases of a loop -/

/-- The controller will end the loop in a terminal state only, and has not done so. -/
def ControllerPoint.isOpen : ControllerPoint → Bool
  | .recordTerminal state | .noteOutput _ state => isTerminal state
  | .emitTerminal _ | .emitFailure _ _ => false
  | _ => true

/-- How far a loop is: it runs; it was cancelled and the frame is to come from the `cancel` call;
the controller has ended it and owes the frame; the frame is there. -/
inductive Phase (inst : LoopInstance) (p : Process) : Prop
  | running (hstate : isTerminal inst.state = false) (hcancelling : p.cancelling = 0)
      (hframes : NoTerminalFrame p.history)
      (hpoint : p.controller.all ControllerPoint.isOpen = true)
  | cancelling (hstate : inst.state = .cancelled) (hcancelling : p.cancelling = 1)
      (hframes : NoTerminalFrame p.history)
      (hpoint : p.controller.all (ControllerPoint.looksFirst inst.maxIters) = true)
  | ending (hcancelling : p.cancelling = 0) (hframes : NoTerminalFrame p.history)
      (hstate : isTerminal inst.state = true)
      (hpoint : p.controller = some (.emitTerminal inst.state) ∨ inst.state = .failed ∧
        (p.controller = some (.recordTerminal .failed) ∨
          ∃ iter detail, p.controller = some (.emitFailure iter detail)))
  | ended (hcancelling : p.cancelling = 0) (hframes : EndsWith p.history inst.state)
      (hpoint : p.controller = none ∨
        inst.state = .cancelled ∧ p.controller.all ControllerPoint.isLooking = true)
      (hstate : isTerminal inst.state = true)

/-- The terminal state and the reservations are the same after the step. -/
def Kept (inst inst' : LoopInstance) : Prop :=
  isTerminal inst.state = true → inst'.state = inst.state ∧
    inst'.invocationLedger.map LoopInvocationRecord.key =
      inst.invocationLedger.map LoopInvocationRecord.key

theorem Kept.refl (inst : LoopInstance) : Kept inst inst := fun _ => ⟨rfl, rfl⟩

theorem Kept.of_running {inst inst' : LoopInstance} (h : isTerminal inst.state = false) :
    Kept inst inst' := fun hterminal => by simp [h] at hterminal

theorem Kept.trans {inst₁ inst₂ inst₃ : LoopInstance} (h : Kept inst₁ inst₂)
    (h' : Kept inst₂ inst₃) : Kept inst₁ inst₃ := by
  intro hterminal
  obtain ⟨hstate, hkeys⟩ := h hterminal
  obtain ⟨hstate', hkeys'⟩ := h' (hstate ▸ hterminal)
  exact ⟨hstate'.trans hstate, hkeys'.trans hkeys⟩

theorem map_modifyFirst {α β : Type} {f : α → β} {p : α → Bool} {g : α → α}
    (h : ∀ a, f (g a) = f a) (l : List α) : (modifyFirst p g l).map f = l.map f := by
  induction l with
  | nil => rfl
  | cons a l ih =>
    unfold modifyFirst
    split
    · simp [h]
    · simp [ih]

/-- The end of an invocation changes neither the state nor the reservations. -/
theorem updateReserved_kept {inst inst' : LoopInstance} {iter : Nat} {kind : LoopInvocationKind}
    {update : LoopInvocationRecord → LoopInvocationRecord}
    (h : updateReservedLoopInvocation inst iter kind update = .ok inst')
    (hkey : ∀ record, (update record).key = record.key) :
    inst'.state = inst.state ∧ inst'.maxIters = inst.maxIters ∧
      inst'.invocationLedger.map LoopInvocationRecord.key =
        inst.invocationLedger.map LoopInvocationRecord.key := by
  simp only [updateReservedLoopInvocation] at h
  split at h
  · cases h
  · obtain ⟨-, h⟩ := check_bind_eq_ok_iff.1 h
    cases h
    refine ⟨rfl, rfl, ?_⟩
    simp [List.map_reverse, map_modifyFirst hkey]

section Advance

variable {env : LoopEnv} {inst : LoopInstance} {point : ControllerPoint} {a : Advance}

/-- The decision at the head of the loop does not skip the write of a terminal state. -/
theorem isOpen_afterStatus (env : LoopEnv) (inst : LoopInstance) :
    (afterStatus env inst).all ControllerPoint.isOpen = true := by
  unfold afterStatus
  repeat' split
  all_goals rfl

theorem isOpen_afterIteration (inst : LoopInstance) (record : LoopInvocationRecord)
    (passed : Bool) : (afterIteration inst record passed).isOpen = true := by
  unfold afterIteration
  repeat' split
  all_goals rfl

/-- A step of the controller in a loop that runs. -/
theorem Phase.advance_running {p : Process} (hstate : isTerminal inst.state = false)
    (hcancelling : p.cancelling = 0) (hframes : NoTerminalFrame p.history)
    (hpoint : point.isOpen = true) (ha : advance env inst point = some a) :
    Phase a.inst { p with history := p.history ++ a.frames, controller := a.next } := by
  -- a step that keeps the loop running and adds no terminal frame
  have hon : isTerminal a.inst.state = false → (∀ frame ∈ a.frames, frame.isTerminal = false) →
      a.next.all ControllerPoint.isOpen = true →
      Phase a.inst { p with history := p.history ++ a.frames, controller := a.next } :=
    fun hstate hnew hnext => .running hstate hcancelling (hframes.append hnew) hnext
  cases point with
  | readStatus =>
    cases ha
    exact hon hstate (by simp) (isOpen_afterStatus env inst)
  | failReserved record error =>
    simp only [advance] at ha
    split at ha
    · rename_i inst' hok
      cases ha
      exact hon ((updateReserved_kept hok fun _ => rfl).1 ▸ hstate) (by simp) rfl
    · cases ha
      exact hon hstate (by simp) rfl
  | noteOutput text state =>
    cases ha
    exact hon hstate (by simp) hpoint
  | finishIteration record passed =>
    cases ha
    exact hon hstate (by simp [LoopFrame.isTerminal]) (isOpen_afterIteration inst record passed)
  | checkCancelled next =>
    simp only [advance] at ha
    split at ha
    · rename_i hcancelled
      simp [hcancelled, isTerminal] at hstate
    · split at ha <;> cases ha <;> exact hon hstate (by simp) rfl
  | markIteration next =>
    cases ha
    exact hon rfl (by simp) rfl
  | announceIteration next =>
    cases ha
    exact hon hstate (by simp [LoopFrame.isTerminal]) rfl
  | reserve next =>
    simp only [advance] at ha
    split at ha
    · cases ha
      exact hon hstate (by simp) rfl
    · cases ha
      exact hon hstate (by simp) rfl
    · rename_i hok
      obtain ⟨-, hok⟩ := check_bind_eq_ok_iff.1 hok
      cases hok
      cases ha
      exact hon hstate (by simp) rfl
  | invoke next causalContext =>
    cases ha
    exact hon hstate (by simp) rfl
  | awaitAnswer next => cases ha
  | keepOutput next text receipt =>
    cases ha
    exact hon (by simpa using hstate) (by simp) rfl
  | emitChunk next text receipt =>
    cases ha
    cases receipt <;> exact hon hstate (by simp [LoopFrame.isTerminal]) rfl
  | recordTerminal state =>
    cases ha
    exact .ending hcancelling (hframes.append (by simp)) hpoint (Or.inl rfl)
  | emitTerminal state => cases hpoint
  | driveFailed detail =>
    simp only [advance, hstate] at ha
    cases ha
    exact hon hstate (by simp) rfl
  | failLoop iter detail =>
    cases ha
    exact .ending hcancelling (hframes.append (by simp)) rfl
      (Or.inr ⟨rfl, Or.inr ⟨iter, detail, rfl⟩⟩)
  | emitFailure iter detail => cases hpoint

/-- A step of the controller in a cancelled loop, from where it looks first. -/
theorem advance_looksFirst (hstate : inst.state = .cancelled)
    (hpoint : point.looksFirst inst.maxIters = true) (ha : advance env inst point = some a) :
    a.inst.state = inst.state ∧ a.inst.maxIters = inst.maxIters ∧
      a.inst.invocationLedger.map LoopInvocationRecord.key =
        inst.invocationLedger.map LoopInvocationRecord.key ∧
      (∀ frame ∈ a.frames, frame.isTerminal = false) ∧
      a.next.all (ControllerPoint.looksFirst inst.maxIters) = true := by
  have hterminal : isTerminal inst.state = true := by rw [hstate]; rfl
  cases point with
  | readStatus =>
    cases ha
    simp [afterStatus, hterminal]
  | finishIteration record passed =>
    cases ha
    simp only [ControllerPoint.looksFirst, Bool.and_eq_true, Bool.not_eq_true',
      decide_eq_true_eq] at hpoint
    simp [afterIteration, hpoint.1, Nat.not_le_of_lt hpoint.2, LoopFrame.isTerminal,
      ControllerPoint.looksFirst]
  | checkCancelled next =>
    simp only [advance, hstate, if_true] at ha
    cases ha
    simp [hstate]
  | invoke next causalContext =>
    cases ha
    simp [ControllerPoint.looksFirst]
  | awaitAnswer next => cases ha
  | keepOutput next text receipt =>
    cases ha
    simpa [ControllerPoint.looksFirst] using hpoint
  | emitChunk next text receipt =>
    cases ha
    cases receipt with
    | none => cases hpoint
    | some receipt => simp [LoopFrame.isTerminal, ControllerPoint.looksFirst]
  | driveFailed detail =>
    simp only [advance, hterminal, if_true] at ha
    cases ha
    simp
  | failReserved | noteOutput | markIteration | announceIteration | reserve | recordTerminal
  | emitTerminal | failLoop | emitFailure => cases hpoint

/-- A step from where the controller looks at the state next, in a loop that has ended: the task
ends. -/
theorem advance_isLooking (hstate : inst.state = .cancelled) (hpoint : point.isLooking = true)
    (ha : advance env inst point = some a) : a = ⟨inst, [], [], none⟩ := by
  have hterminal : isTerminal inst.state = true := by rw [hstate]; rfl
  cases point with
  | readStatus =>
    cases ha
    simp [afterStatus, hterminal]
  | checkCancelled next =>
    simp only [advance, hstate, if_true] at ha
    cases ha
    rfl
  | driveFailed detail =>
    simp only [advance, hterminal, if_true] at ha
    cases ha
    rfl
  | failReserved | noteOutput | finishIteration | markIteration | announceIteration | reserve
  | invoke | awaitAnswer | keepOutput | emitChunk | recordTerminal | emitTerminal | failLoop
  | emitFailure => cases hpoint

/-- A step of the controller. -/
theorem Phase.advance {p : Process} (h : Phase inst p) (hcontroller : p.controller = some point)
    (ha : advance env inst point = some a) :
    Phase a.inst { p with history := p.history ++ a.frames, controller := a.next } ∧
      Kept inst a.inst := by
  cases h with
  | running hstate hcancelling hframes hpoint =>
    rw [hcontroller] at hpoint
    exact ⟨advance_running hstate hcancelling hframes hpoint ha, .of_running hstate⟩
  | cancelling hstate hcancelling hframes hpoint =>
    rw [hcontroller] at hpoint
    obtain ⟨hsame, hmax, hkeys, hnew, hnext⟩ := advance_looksFirst hstate hpoint ha
    refine ⟨.cancelling (hsame.trans hstate) hcancelling (hframes.append hnew) ?_,
      fun _ => ⟨hsame, hkeys⟩⟩
    rw [hmax]
    exact hnext
  | ending hcancelling hframes hstate hpoint =>
    rw [hcontroller] at hpoint
    rcases hpoint with hpoint | ⟨hfailed, hpoint | ⟨iter, detail, hpoint⟩⟩ <;> cases hpoint <;>
      cases ha
    · exact ⟨.ended hcancelling ⟨_, rfl, hframes⟩ (Or.inl rfl) hstate, .refl _⟩
    · exact ⟨.ending hcancelling (hframes.append (by simp)) rfl (Or.inl rfl),
        fun _ => ⟨hfailed.symm, rfl⟩⟩
    · exact ⟨.ending hcancelling (hframes.append (by simp [LoopFrame.isTerminal])) hstate
        (Or.inr ⟨hfailed, Or.inl rfl⟩), .refl _⟩
  | ended hcancelling hframes hpoint hstate =>
    rcases hpoint with hpoint | ⟨hcancelled, hpoint⟩
    · rw [hcontroller] at hpoint
      cases hpoint
    · rw [hcontroller] at hpoint
      rw [advance_isLooking hcancelled hpoint ha]
      refine ⟨.ended hcancelling ?_ (Or.inl rfl) hstate, .refl _⟩
      simpa using hframes

/-- The answer of the driver; a failure only while the loop runs. -/
theorem Phase.answer {p : Process} (h : Phase inst p) {next : NextInvocation}
    (hcontroller : p.controller = some (.awaitAnswer next))
    {answer : Except String LoopInvocationOutcome}
    (hanswer : ∀ error, answer = .error error → isTerminal inst.state = false) :
    Phase (onAnswer env inst next answer).inst { p with
        history := p.history ++ (onAnswer env inst next answer).frames
        controller := (onAnswer env inst next answer).next } ∧
      Kept inst (onAnswer env inst next answer).inst := by
  -- the answer only touches the record, and the controller goes on without a frame
  have hspec : (onAnswer env inst next answer).inst.state = inst.state ∧
      (onAnswer env inst next answer).inst.maxIters = inst.maxIters ∧
      (onAnswer env inst next answer).inst.invocationLedger.map LoopInvocationRecord.key =
        inst.invocationLedger.map LoopInvocationRecord.key ∧
      (onAnswer env inst next answer).frames = [] ∧
      (onAnswer env inst next answer).next.all ControllerPoint.isOpen = true ∧
      ((∃ outcome, answer = .ok outcome) → (onAnswer env inst next answer).next.all
        (ControllerPoint.looksFirst inst.maxIters) = true) := by
    cases answer with
    | ok outcome =>
      simp only [onAnswer]
      split
      · rename_i inst' hok
        obtain ⟨hstate, hmax, hkeys⟩ := updateReserved_kept hok fun _ => rfl
        exact ⟨hstate, hmax, hkeys, rfl, rfl, fun _ => rfl⟩
      · exact ⟨rfl, rfl, rfl, rfl, rfl, fun _ => rfl⟩
    | error error =>
      simp only [onAnswer]
      split
      · rename_i inst' hok
        obtain ⟨hstate, hmax, hkeys⟩ := updateReserved_kept hok fun _ => rfl
        exact ⟨hstate, hmax, hkeys, rfl, rfl, fun h => by simp at h⟩
      · exact ⟨rfl, rfl, rfl, rfl, rfl, fun _ => rfl⟩
  obtain ⟨hsame, hmax, hkeys, hnone, hopen, hlooks⟩ := hspec
  rw [hnone, List.append_nil]
  cases h with
  | running hstate hcancelling hframes hpoint =>
    exact ⟨.running (hsame ▸ hstate) hcancelling hframes hopen, .of_running hstate⟩
  | cancelling hstate hcancelling hframes hpoint =>
    cases answer with
    | ok outcome =>
      refine ⟨.cancelling (hsame.trans hstate) hcancelling hframes ?_, fun _ => ⟨hsame, hkeys⟩⟩
      rw [hmax]
      exact hlooks ⟨outcome, rfl⟩
    | error error =>
      have hrunning := hanswer error rfl
      rw [hstate] at hrunning
      cases hrunning
  | ending hcancelling hframes hstate hpoint =>
    rw [hcontroller] at hpoint
    rcases hpoint with hpoint | ⟨-, hpoint | ⟨iter, detail, hpoint⟩⟩ <;> cases hpoint
  | ended hcancelling hframes hpoint hstate =>
    rw [hcontroller] at hpoint
    rcases hpoint with hpoint | ⟨-, hpoint⟩ <;> cases hpoint

end Advance

/-- The terminal frame is to come from a call in progress. -/
def Process.frameOwed (p : Process) : Prop :=
  p.cancelling ≠ 0 ∨ p.controller.any ControllerPoint.owesFrame = true

/-- The frames of a loop in a terminal state. -/
theorem Phase.frames {inst : LoopInstance} {p : Process}
    (h : Phase inst p) (hterminal : isTerminal inst.state = true) :
    (p.frameOwed ∧ NoTerminalFrame p.history) ∨ EndsWith p.history inst.state := by
  cases h with
  | running hstate => simp [hstate] at hterminal
  | cancelling hstate hcancelling hframes hpoint =>
    exact Or.inl ⟨Or.inl (by simp [hcancelling]), hframes⟩
  | ending hcancelling hframes hstate hpoint =>
    refine Or.inl ⟨Or.inr ?_, hframes⟩
    rcases hpoint with hpoint | ⟨-, hpoint | ⟨iter, detail, hpoint⟩⟩ <;> rw [hpoint] <;> rfl
  | ended hcancelling hframes hpoint hstate => exact Or.inr hframes

/-! ## Runs without a crash -/

namespace LoopService

variable {env : LoopEnv}

/-- The phase of the loop in the process that runs. -/
def InPhase (s : LoopService) : Prop :=
  ∃ p, s.process = some p ∧ Phase s.inst p

theorem InPhase.step {s s' : LoopService} {e : LoopEvent} (h : s.InPhase) (horderly : s.Orderly e)
    (hcrash : e ≠ .crash) (hstep : s.step env e = some s') : s'.InPhase ∧ Kept s.inst s'.inst := by
  obtain ⟨p, hp, hphase⟩ := h
  cases step_of_eq_some hstep with
  | advance hp' hpoint ha =>
    cases hp.symm.trans hp'
    obtain ⟨hnext, hkept⟩ := hphase.advance hpoint ha
    exact ⟨⟨_, rfl, hnext⟩, hkept⟩
  | answer result hp' hpoint =>
    cases hp.symm.trans hp'
    obtain ⟨hnext, hkept⟩ := @Phase.answer env s.inst p hphase _ hpoint result (by
      rintro error rfl
      exact horderly)
    exact ⟨⟨_, rfl, hnext⟩, hkept⟩
  | cancelled hp' hopen =>
    cases hp.symm.trans hp'
    have hlooks := horderly hopen
    rw [hp, Option.bind_some] at hlooks
    refine ⟨⟨_, rfl, ?_⟩, .of_running hopen⟩
    cases hphase with
    | running hstate hcancelling hframes hpoint =>
      exact .cancelling rfl (by simp [hcancelling]) hframes hlooks
    | cancelling hstate => simp [hstate, isTerminal] at hopen
    | ending hcancelling hframes hstate hpoint => simp [hstate] at hopen
    | ended hcancelling hframes hpoint hstate => simp [hstate] at hopen
  | cancelledBefore hp' hterminal => exact ⟨⟨p, hp, hphase⟩, .refl _⟩
  | cancelFrame hp' howed =>
    cases hp.symm.trans hp'
    have hlooking := horderly
    simp only [Orderly, hp, Option.bind_some] at hlooking
    refine ⟨⟨_, rfl, ?_⟩, .refl _⟩
    cases hphase with
    | cancelling hstate hcancelling hframes hpoint =>
      exact .ended (by simp [hcancelling]) ⟨p.history, by rw [hstate], hframes⟩
        (Or.inr ⟨hstate, hlooking⟩) (by rw [hstate]; rfl)
    | running hstate hcancelling => exact absurd hcancelling howed
    | ending hcancelling => exact absurd hcancelling howed
    | ended hcancelling => exact absurd hcancelling howed
  | crash hp' => exact absurd rfl hcrash
  | boot driver hp' haccepted =>
    rw [hp] at hp'
    cases hp'
  | bootRejected driver hp' hrejected =>
    rw [hp] at hp'
    cases hp'

end LoopService

/-! ## The store -/

/-- Who has taken a copy of the instance under the lock, to save it when the lock is given back. -/
inductive Saver
  | controller
  /-- A call of `cancel`, which owes its frame if it has ended the loop. -/
  | cancel (owesFrame : Bool)
  deriving DecidableEq

/-- A copy that is still to be saved. -/
structure Clone where
  inst : LoopInstance
  saver : Saver

/-- The next step of the controller goes through `mutate`, if it does not fail before. -/
def ControllerPoint.mutates : ControllerPoint → Bool
  | .failReserved _ _ | .noteOutput _ _ | .markIteration _ | .reserve _ | .awaitAnswer _
  | .keepOutput _ _ _ | .recordTerminal _ | .failLoop _ _ => true
  | _ => false

/-- `drive_loop` has returned an error. -/
def ControllerPoint.isDriveFailed : ControllerPoint → Bool
  | .driveFailed _ => true
  | _ => false

/-- The point of the controller, if it runs. -/
def LoopService.point (s : LoopService) :
    Option ControllerPoint := s.process.bind Process.controller

/-- The copy that an event leaves to be saved. -/
def LoopService.cloneAfter (s s' : LoopService) : LoopEvent → Option Clone
  | .advance | .answer _ =>
    if s.point.any ControllerPoint.mutates && !s'.point.any ControllerPoint.isDriveFailed then
      some ⟨s'.inst, .controller⟩
    else none
  | .cancel => some ⟨s'.inst, .cancel (!isTerminal s.inst.state)⟩
  | .cancelFrame | .crash | .boot _ => none

/-- A loop and its store: the instance of the service is that of the cache. -/
structure SavedLoop where
  service : LoopService
  stored : LoopInstance
  /-- The copies to be saved, in the order in which they were taken. -/
  unsaved : List Clone

/-- An event of the service, or the save of a copy. -/
inductive SavedEvent
  | service (e : LoopEvent)
  | save (i : Nat)

namespace SavedLoop

/-- `create` saves the instance before the controller starts. -/
def start (inst : LoopInstance) (driver : Bool) : SavedLoop :=
  ⟨LoopService.start inst driver, inst, []⟩

/-- The caller of the event is still saving: the controller its last change, or each call of
`cancel` that owes a frame the cancelled instance. -/
def isSaving (x : SavedLoop) : LoopEvent → Bool
  | .advance | .answer _ => x.unsaved.any fun clone => clone.saver = .controller
  | .cancelFrame => (x.service.process.map Process.cancelling).any fun cancelling =>
    cancelling ≤ x.unsaved.countP fun clone => clone.saver = .cancel true
  | .cancel | .crash | .boot _ => false

/-- A step of the service, or a save. -/
def step (env : LoopEnv) (x : SavedLoop) : SavedEvent → Option SavedLoop
  | .service .crash => do
    -- the cache and the copies are lost, and the next process loads what is stored
    let s ← x.service.step env .crash
    return ⟨{ s with inst := x.stored }, x.stored, []⟩
  | .service e =>
    if x.isSaving e then none
    else do
      let s ← x.service.step env e
      return { x with service := s, unsaved := x.unsaved ++ (x.service.cloneAfter s e).toList }
  | .save i => do
    let clone ← x.unsaved[i]?
    return { x with stored := clone.inst, unsaved := x.unsaved.eraseIdx i }

/-- The loop after a list of events. -/
abbrev run (env : LoopEnv) : SavedLoop → List SavedEvent → Option SavedLoop :=
  runSteps (SavedLoop.step env)

/-- The service's condition, and no copy is saved before an older one of the controller. -/
def Orderly (x : SavedLoop) : SavedEvent → Prop
  | .service e => x.service.Orderly e
  | .save i => ∀ clone ∈ x.unsaved.take i, clone.saver ≠ .controller

instance (x : SavedLoop) : DecidablePred x.Orderly
  | .service e => inferInstanceAs (Decidable (x.service.Orderly e))
  | .save i => inferInstanceAs (Decidable (∀ clone ∈ x.unsaved.take i, _))

/-- The copies in the order in which they were taken and the cache keep what the ones before have,
and once the store has a terminal state there is no other to be saved. -/
structure Settled (x : SavedLoop) : Prop where
  phase : x.service.InPhase
  kept : (x.unsaved.map Clone.inst ++ [x.service.inst]).Pairwise Kept
  stored : Kept x.stored x.service.inst
  cancelled : ∀ clone ∈ x.unsaved, clone.saver ≠ .controller → isTerminal clone.inst.state = true
  terminal : isTerminal x.stored.state = true →
    ∀ clone ∈ x.unsaved, isTerminal clone.inst.state = true

section Step

variable {env : LoopEnv} {x x' : SavedLoop}

/-- The copies are of the instance in the cache, and one of `cancel` is of a terminal one. -/
theorem cloneAfter_eq_some {s s' : LoopService} {e : LoopEvent} {clone : Clone}
    (hstep : s.step env e = some s') (h : s.cloneAfter s' e = some clone) :
    clone.inst = s'.inst ∧ (clone.saver ≠ .controller → isTerminal s'.inst.state = true) := by
  cases LoopService.step_of_eq_some hstep with
  | advance | answer =>
    simp only [LoopService.cloneAfter] at h
    split at h
    · cases h
      exact ⟨rfl, fun hsaver => absurd rfl hsaver⟩
    · cases h
  | cancelled =>
    cases h
    exact ⟨rfl, fun _ => rfl⟩
  | cancelledBefore hp hterminal =>
    cases h
    exact ⟨rfl, fun _ => hterminal⟩
  | cancelFrame | crash | boot | bootRejected => cases h

/-- An event of the service. -/
theorem Settled.service (h : x.Settled) {e : LoopEvent} (horderly : x.service.Orderly e)
    (hcrash : e ≠ .crash) {s : LoopService} (hs : x.service.step env e = some s) :
    Settled { x with service := s, unsaved := x.unsaved ++ (x.service.cloneAfter s e).toList } ∧
      Kept x.service.inst s.inst := by
  obtain ⟨hphase, hkept⟩ := h.phase.step horderly hcrash hs
  obtain ⟨hqueue, -, hcache⟩ := List.pairwise_append.1 h.kept
  have hstored := h.stored.trans hkept
  have hlast : ∀ inst ∈ x.unsaved.map Clone.inst, Kept inst s.inst :=
    fun inst hinst => (hcache inst hinst _ List.mem_cons_self).trans hkept
  refine ⟨?_, hkept⟩
  cases hclone : x.service.cloneAfter s e with
  | none =>
    simp only [Option.toList_none, List.append_nil]
    exact ⟨hphase, List.pairwise_append.2 ⟨hqueue, List.pairwise_singleton _ _,
      by simpa using hlast⟩, hstored, h.cancelled, h.terminal⟩
  | some clone =>
    obtain ⟨hinst, hcancel⟩ := cloneAfter_eq_some hs hclone
    have hpair : [clone.inst, s.inst].Pairwise Kept := by
      simpa [hinst] using Kept.refl s.inst
    simp only [Option.toList_some]
    refine ⟨hphase, ?_, hstored, ?_, fun hterminal => ?_⟩
    · rw [List.map_append, List.append_assoc]
      exact List.pairwise_append.2 ⟨hqueue, hpair, by simpa [hinst] using hlast⟩
    · rw [List.forall_mem_append, List.forall_mem_singleton, hinst]
      exact ⟨h.cancelled, hcancel⟩
    · rw [List.forall_mem_append, List.forall_mem_singleton, hinst]
      exact ⟨h.terminal hterminal, (hstored hterminal).1 ▸ hterminal⟩

/-- A save that overtakes no copy of the controller. -/
theorem Settled.save (h : x.Settled) {i : Nat} (horderly : x.Orderly (.save i)) {clone : Clone}
    (hclone : x.unsaved[i]? = some clone) :
    Settled { x with stored := clone.inst, unsaved := x.unsaved.eraseIdx i } ∧
      Kept x.stored clone.inst := by
  obtain ⟨hi, rfl⟩ := List.getElem?_eq_some_iff.1 hclone
  obtain ⟨hqueue, -, hcache⟩ := List.pairwise_append.1 h.kept
  have hmem : ∀ c ∈ x.unsaved, Kept c.inst x.service.inst :=
    fun c hc => hcache _ (List.mem_map_of_mem hc) _ List.mem_cons_self
  have hsub : ∀ c ∈ x.unsaved.eraseIdx i, c ∈ x.unsaved := fun c hc => List.mem_of_mem_eraseIdx hc
  have hself := List.getElem_mem hi
  refine ⟨⟨h.phase, ?_, hmem _ hself, fun c hc =>
    h.cancelled c (hsub c hc), fun hterminal => ?_⟩, ?_⟩
  · exact h.kept.sublist (((List.eraseIdx_sublist _ i).map Clone.inst).append (List.Sublist.refl _))
  · -- the copies in front of it are those of `cancel`, and the later ones keep its state
    rw [List.eraseIdx_eq_take_drop_succ]
    intro c hc
    obtain hc | hc := List.mem_append.1 hc
    · exact h.cancelled c (List.mem_of_mem_take hc) (horderly c hc)
    · have hsplit : x.unsaved.drop i = x.unsaved[i] :: x.unsaved.drop (i + 1) :=
        List.drop_eq_getElem_cons hi
      have hlater := (List.pairwise_map.1 hqueue).sublist (List.drop_sublist i _)
      rw [hsplit] at hlater
      exact ((List.pairwise_cons.1 hlater).1 c hc hterminal).1 ▸ hterminal
  · -- both keep what the cache has
    intro hterminal
    obtain ⟨hstate, hkeys⟩ := h.stored hterminal
    obtain ⟨hstate', hkeys'⟩ := hmem _ hself (h.terminal hterminal _ hself)
    exact ⟨hstate'.symm.trans hstate, hkeys'.symm.trans hkeys⟩

theorem Settled.step (h : x.Settled) {e : SavedEvent} (horderly : x.Orderly e)
    (hcrash : e ≠ .service .crash) (hstep : x.step env e = some x') :
    x'.Settled ∧ Kept x.service.inst x'.service.inst ∧ Kept x.stored x'.stored := by
  cases e with
  | service e =>
    have hne : e ≠ .crash := fun he => hcrash (congrArg SavedEvent.service he)
    rw [SavedLoop.step] at hstep
    · split at hstep
      · cases hstep
      · obtain ⟨s, hs, hx⟩ := Option.bind_eq_some_iff.1 hstep
        cases hx
        obtain ⟨hsettled, hkept⟩ := h.service horderly hne hs
        exact ⟨hsettled, hkept, .refl _⟩
    · exact hne
  | save i =>
    obtain ⟨clone, hclone, hx⟩ := Option.bind_eq_some_iff.1 hstep
    cases hx
    obtain ⟨hsettled, hkept⟩ := h.save horderly hclone
    exact ⟨hsettled, .refl _, hkept⟩

end Step

end SavedLoop

end EasyNetDaemon.Loops
