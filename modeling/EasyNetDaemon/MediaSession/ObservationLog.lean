import EasyNetDaemon.MediaSession.ValidatorSteps

/-!
# The log of a conversation

Over a sequence of calls of a conversation validator, each observed event is put into a log with
what was returned for it, the last one first. A log is decodable when each accepted video frame that
is no recovery frame has an accepted recovery frame of its gate before it, with no video of the gate
lost since; when time stamps increase within a gate; and when the numbers of a lane have no gap.
-/

namespace EasyNetDaemon.MediaSession

open Library
open SharedMedia (MediaLane)

/-- The calls that change a conversation validator. -/
inductive ValidatorCall
  | registerCommand (command : Command)
  | observe (lane : MediaLane) (metadata : EventMetadata) (payload : List UInt8)
  | observeBinaryMedia (lane : MediaLane) (metadata : BinaryMediaEvent) (payload : List UInt8)
  | observeBackpressureDrop (lane : MediaLane) (sequence observedAtMs : UInt64)
      (mediaGate : UInt32)
deriving DecidableEq, Repr

/-- An observed event: of a media event the gate, of one with a payload the time stamp and whether
it is a recovery frame. The result is missing if there was an error. -/
structure Observation where
  lane : MediaLane
  sequence : UInt64
  gate : Option UInt32
  pts : Option UInt64
  recovery : Bool
  result : Option MediaObservation
deriving DecidableEq, Repr

/-- The gate of a media event. -/
def EventBody.mediaGate? : EventBody → Option UInt32
  | .videoH264 frame => some frame.mediaGate
  | .audioOpus packet => some packet.mediaGate
  | _ => none

/-- The time stamp of a media event. -/
def EventBody.pts? : EventBody → Option UInt64
  | .videoH264 frame => some frame.pts90khz
  | .audioOpus packet => some packet.pts48khz
  | _ => none

/-- The payload is an IDR with both parameter sets. -/
def isRecoveryIdr (payload : List UInt8) : Bool :=
  match inspectH264AnnexB payload with
  | .ok annexB => annexB.recoveryIdr
  | .error _ => false

/-- The log entry of an event. -/
def Observation.ofEvent (lane : MediaLane) (sequence : UInt64) (body : EventBody)
    (payload : List UInt8) (result : Except ValidationError MediaObservation) : Observation where
  lane
  sequence
  gate := body.mediaGate?
  pts := body.pts?
  recovery := isRecoveryIdr payload
  result := result.toOption

/-- The log entry of a dropped event. -/
def Observation.ofDrop (lane : MediaLane) (sequence : UInt64) (mediaGate : UInt32)
    (result : Except ValidationError MediaObservation) : Observation where
  lane
  sequence
  gate := some mediaGate
  pts := none
  recovery := false
  result := result.toOption

namespace Observation

/-- The event is media of the lane and the gate. -/
def Of (lane : MediaLane) (gate : UInt32) (e : Observation) : Prop :=
  e.lane = lane ∧ e.gate = some gate

/-- The event was accepted. -/
def Accepted (e : Observation) : Prop := e.result = some .accepted

/-- The event was observed without an error. -/
def isObserved (lane : MediaLane) (e : Observation) : Bool := e.lane == lane && e.result.isSome

instance (lane : MediaLane) (gate : UInt32) (e : Observation) : Decidable (e.Of lane gate) :=
  inferInstanceAs (Decidable (_ ∧ _))

instance (e : Observation) : Decidable e.Accepted := inferInstanceAs (Decidable (_ = _))

end Observation

/-- A validator and the log of what it has observed, the last event first. -/
structure ValidatorRun where
  validator : MediaConversationValidator
  log : List Observation
deriving DecidableEq, Repr

namespace ValidatorRun

/-- One call. -/
def call (digest : StartContract → String) (run : ValidatorRun) : ValidatorCall → ValidatorRun
  | .registerCommand command =>
    { run with validator := (run.validator.registerCommand digest command).2 }
  | .observe lane metadata payload =>
    let result := run.validator.observe lane metadata payload
    { validator := result.2
      log := .ofEvent lane metadata.sequence metadata.body payload result.1 :: run.log }
  | .observeBinaryMedia lane metadata payload =>
    let result := run.validator.observeBinaryMedia lane metadata payload
    { validator := result.2
      log := .ofEvent lane metadata.sequence metadata.body payload result.1 :: run.log }
  | .observeBackpressureDrop lane sequence observedAtMs mediaGate =>
    let result := run.validator.observeBackpressureDrop lane sequence observedAtMs mediaGate
    { validator := result.2
      log := .ofDrop lane sequence mediaGate result.1 :: run.log }

/-- The calls in their order, on a new validator. -/
def after (digest : StartContract → String) (fence : GenerationFence)
    (calls : List ValidatorCall) : ValidatorRun :=
  calls.foldl (call digest) { validator := .new fence, log := [] }

end ValidatorRun

/-! ## What a call can do -/

namespace MediaConversationValidator

/-- The outcomes of a call: the state after it and what it puts into the log. -/
inductive Called (v : MediaConversationValidator) :
    MediaConversationValidator → List Observation → Prop
  | refused (v' : MediaConversationValidator) (entry : List Observation)
      (h : v'.lifecycle = .poisoned) (hentry : ∀ e ∈ entry, e.result = none) : Called v v' entry
  | registered (sequence : UInt64) (body : CommandBody) (v₁ : MediaConversationValidator)
      (halive : v.lifecycle ≠ .poisoned) (h : Registers v sequence body v₁) :
      Called v { v₁ with commandSequence := sequence } []
  | settled (sequence observedAtMs : UInt64) (body : EventBody) (payload : List UInt8)
      (v₁ : MediaConversationValidator) (halive : v.lifecycle ≠ .poisoned)
      (hsequence : sequence = v.control.sequence + 1) (h : Settles v body v₁) :
      Called v (v₁.withClock ⟨sequence, observedAtMs⟩ .control)
        [.ofEvent .control sequence body payload (.ok .accepted)]
  | shown (sequence observedAtMs : UInt64) (frame : VideoH264) (payload : List UInt8)
      (observation : MediaObservation) (v₁ : MediaConversationValidator)
      (halive : v.lifecycle ≠ .poisoned) (hsequence : sequence = v.video.sequence + 1)
      (h : Shows v frame payload observation v₁) :
      Called v (v₁.withClock ⟨sequence, observedAtMs⟩ .video)
        [.ofEvent .video sequence (.videoH264 frame) payload (.ok observation)]
  | played (sequence observedAtMs : UInt64) (packet : AudioOpus) (payload : List UInt8)
      (observation : MediaObservation) (v₁ : MediaConversationValidator)
      (halive : v.lifecycle ≠ .poisoned) (hsequence : sequence = v.audio.sequence + 1)
      (h : Plays v packet payload observation v₁) :
      Called v (v₁.withClock ⟨sequence, observedAtMs⟩ .audio)
        [.ofEvent .audio sequence (.audioOpus packet) payload (.ok observation)]
  | passed (lane : MediaLane) (sequence observedAtMs : UInt64) (mediaGate : UInt32)
      (halive : v.lifecycle ≠ .poisoned) (hsequence : sequence = (v.clock lane).sequence + 1)
      (h : v.isStale mediaGate = true) :
      Called v (v.withClock ⟨sequence, observedAtMs⟩ lane)
        [.ofDrop lane sequence mediaGate (.ok .staleDiscarded)]
  | dropped (lane : MediaLane) (sequence observedAtMs : UInt64) (mediaGate : UInt32)
      (halive : v.lifecycle ≠ .poisoned) (hsequence : sequence = (v.clock lane).sequence + 1) :
      Called v ((v.missed lane).withClock ⟨sequence, observedAtMs⟩ lane)
        [.ofDrop lane sequence mediaGate (.ok .backpressureDiscarded)]

variable {v : MediaConversationValidator}

/-- Both ways to observe an event end in `observe_validated`. -/
theorem Called.of_guarded (observedAtMs : UInt64) {lane : MediaLane} {sequence : UInt64}
    {body : EventBody} {payload : List UInt8}
    {result : Except ValidationError (MediaObservation × MediaConversationValidator)}
    (hresult : ∀ observation v', result = .ok (observation, v') → body.requiredLane = lane ∧
      v.observeValidated lane sequence observedAtMs body payload = .ok (observation, v')) :
    Called v (v.guarded result).2 [.ofEvent lane sequence body payload (v.guarded result).1] := by
  obtain ⟨observation, v', hok⟩ | ⟨hnone, hpoisoned⟩ := guarded_cases (v := v) result
  · rw [hok]
    obtain ⟨halive, hresult'⟩ := guarded_eq_ok.1 hok
    obtain ⟨rfl, hvalidated⟩ := hresult observation v' hresult'
    obtain ⟨hsequence, -, v₁, hbody, rfl⟩ := observeValidated_eq_ok.1 hvalidated
    obtain ⟨frame, rfl, hshows⟩ | ⟨packet, rfl, hplays⟩ | ⟨rfl, hsettles⟩ := observeBody_cases hbody
    · exact .shown sequence observedAtMs frame payload observation v₁ halive hsequence hshows
    · exact .played sequence observedAtMs packet payload observation v₁ halive hsequence hplays
    · rw [hsettles.requiredLane] at hsequence ⊢
      exact .settled sequence observedAtMs body payload v₁ halive hsequence hsettles
  · refine .refused _ _ hpoisoned ?_
    intro e he
    cases List.mem_singleton.1 he
    exact hnone

end MediaConversationValidator

open MediaConversationValidator in
theorem ValidatorRun.called (digest : StartContract → String) (run : ValidatorRun)
    (c : ValidatorCall) :
    ∃ entry, Called run.validator (run.call digest c).validator entry ∧
      (run.call digest c).log = entry ++ run.log := by
  cases c with
  | registerCommand command =>
    refine ⟨[], ?_, rfl⟩
    obtain ⟨v', hok⟩ | hpoisoned := registerCommand_cases (v := run.validator) digest command
    · obtain ⟨halive, -, -, -, v₁, hregisters, rfl⟩ := registerCommand_eq_ok.1 hok
      simp only [call, hok]
      exact .registered command.sequence command.body v₁ halive hregisters
    · exact .refused _ _ hpoisoned nofun
  | observe lane metadata payload =>
    refine ⟨_, Called.of_guarded metadata.observedAtMs ?_, rfl⟩
    intro observation v' hok
    obtain ⟨hshape, hok⟩ := check_bind_eq_ok_iff.1 hok
    obtain ⟨-, hok⟩ := check_bind_eq_ok_iff.1 hok
    obtain ⟨-, hshape⟩ := check_bind_eq_ok_iff.1 hshape
    exact ⟨(validateEventShape_eq_ok.1 hshape).2.1, hok⟩
  | observeBinaryMedia lane metadata payload =>
    refine ⟨_, Called.of_guarded metadata.observedAtMs ?_, rfl⟩
    intro observation v' hok
    obtain ⟨hshape, hok⟩ := check_bind_eq_ok_iff.1 hok
    exact ⟨(validateEventShape_eq_ok.1 hshape).2.1, hok⟩
  | observeBackpressureDrop lane sequence observedAtMs mediaGate =>
    refine ⟨[_], ?_, rfl⟩
    simp only [call, observeBackpressureDrop]
    obtain ⟨observation, v', hok⟩ | ⟨hnone, hpoisoned⟩ := guarded_cases (v := run.validator)
      (run.validator.observeBackpressureDropInner lane sequence observedAtMs mediaGate)
    · rw [hok]
      obtain ⟨halive, hinner⟩ := guarded_eq_ok.1 hok
      obtain ⟨-, hsequence, -, -, ⟨hstale, rfl, rfl⟩ | ⟨-, -, rfl, rfl⟩⟩ :=
        observeBackpressureDropInner_eq_ok.1 hinner
      · exact .passed lane sequence observedAtMs mediaGate halive hsequence hstale
      · exact .dropped lane sequence observedAtMs mediaGate halive hsequence
    · refine .refused _ _ hpoisoned ?_
      intro e he
      cases List.mem_singleton.1 he
      exact hnone

/-! ## The video of a gate -/

/-- The log has an accepted recovery frame of the gate, and no video of the gate was lost since. -/
def Whole (gate : UInt32) (log : List Observation) : Prop :=
  ∃ since recovery before, log = since ++ recovery :: before ∧ recovery.Of .video gate ∧
    recovery.Accepted ∧ recovery.recovery = true ∧ ∀ e ∈ since, e.Of .video gate → e.Accepted

namespace Whole

variable {gate : UInt32} {log : List Observation} {e : Observation}

theorem cons (h : Whole gate log) (he : e.Of .video gate → e.Accepted) : Whole gate (e :: log) := by
  obtain ⟨since, recovery, before, rfl, hof, haccepted, hrecovery, hsince⟩ := h
  exact ⟨e :: since, recovery, before, rfl, hof, haccepted, hrecovery,
    List.forall_mem_cons.2 ⟨he, hsince⟩⟩

theorem of_recovery (hof : e.Of .video gate) (haccepted : e.Accepted)
    (hrecovery : e.recovery = true) : Whole gate (e :: log) :=
  ⟨[], e, log, rfl, hof, haccepted, hrecovery, nofun⟩

end Whole

/-- The older of two accepted events of a gate has the smaller time stamp. -/
def PtsIncrease (newer older : Observation) : Prop :=
  ∀ lane gate, newer.Of lane gate → older.Of lane gate → newer.Accepted → older.Accepted →
    ∃ p q, older.pts = some p ∧ newer.pts = some q ∧ p < q

/-- What the log of a validator shows. -/
structure Decodable (log : List Observation) : Prop where
  chained : ∀ later e earlier gate, log = later ++ e :: earlier → e.Of .video gate → e.Accepted →
    e.recovery = false → Whole gate earlier
  ordered : log.Pairwise PtsIncrease
  contiguous : ∀ later e earlier, log = later ++ e :: earlier → e.result.isSome = true →
    e.sequence = UInt64.ofNat (earlier.countP (·.isObserved e.lane) + 1)

namespace Decodable

theorem nil : Decodable [] where
  chained later e earlier gate h := by simp at h
  ordered := .nil
  contiguous later e earlier h := by simp at h

/-- A log stays decodable when the new event is. -/
theorem cons {log : List Observation} {e : Observation} (h : Decodable log)
    (hchained : ∀ gate, e.Of .video gate → e.Accepted → e.recovery = false → Whole gate log)
    (hordered : ∀ older ∈ log, PtsIncrease e older)
    (hcontiguous : e.result.isSome = true →
      e.sequence = UInt64.ofNat (log.countP (·.isObserved e.lane) + 1)) :
    Decodable (e :: log) where
  chained later x earlier gate hlog := by
    obtain ⟨rfl, hhead⟩ | ⟨later', rfl, htail⟩ := List.cons_eq_append_iff.1 hlog
    · cases hhead
      exact hchained gate
    · exact h.chained later' x earlier gate htail
  ordered := List.pairwise_cons.2 ⟨hordered, h.ordered⟩
  contiguous later x earlier hlog := by
    obtain ⟨rfl, hhead⟩ | ⟨later', rfl, htail⟩ := List.cons_eq_append_iff.1 hlog
    · cases hhead
      exact hcontiguous
    · exact h.contiguous later' x earlier htail

/-- An event that is not accepted has only its number to show. -/
theorem cons_of_not_accepted {log : List Observation} {e : Observation} (h : Decodable log)
    (he : ¬ e.Accepted) (hcontiguous : e.result.isSome = true →
      e.sequence = UInt64.ofNat (log.countP (·.isObserved e.lane) + 1)) :
    Decodable (e :: log) :=
  h.cons (fun _ _ haccepted => absurd haccepted he)
    (fun _ _ _ _ _ _ haccepted => absurd haccepted he) hcontiguous

/-- So has an event of no gate. -/
theorem cons_of_no_gate {log : List Observation} {e : Observation} (h : Decodable log)
    (he : e.gate = none) (hcontiguous : e.result.isSome = true →
      e.sequence = UInt64.ofNat (log.countP (·.isObserved e.lane) + 1)) :
    Decodable (e :: log) :=
  h.cons (fun _ hof => absurd (he.symm.trans hof.2) nofun)
    (fun _ _ _ _ hof => absurd (he.symm.trans hof.2) nofun) hcontiguous

end Decodable

end EasyNetDaemon.MediaSession
