import EasyNetDaemon.MediaSession.Validators

/-!
# What the validators accept

Each function of the validators as a relation between the state before and the state after, with
what was checked: commands (`Registers`), control events (`Settles`), video frames (`Shows`), audio
packets (`Plays`).
-/

namespace EasyNetDaemon.MediaSession

open Library
open SharedMedia (MediaLane)

/-- The last gate. -/
def lastGate : UInt32 := 0xffffffff

theorem nextGate_eq_ok {gate gate' : UInt32} {message : String} :
    nextGate gate message = .ok gate' ↔ gate ≠ lastGate ∧ gate' = gate + 1 := by
  unfold nextGate
  by_cases h : gate = 0xffffffff
  · simp [h, lastGate]
  · simp [h, lastGate, eq_comm]

/-- A gate that is not the last one is below the next. -/
theorem lt_succ_of_ne_lastGate {gate : UInt32} (h : gate ≠ lastGate) : gate < gate + 1 := by
  have hne : gate.toNat ≠ 4294967295 := fun heq => h (UInt32.toNat_inj.1 heq)
  have hlt : gate.toNat < 4294967296 := gate.toNat_lt
  rw [UInt32.lt_iff_toNat_lt, UInt32.toNat_add]
  have hone : (1 : UInt32).toNat = 1 := rfl
  omega

/-! ## Commands of the conversation -/

namespace MediaConversationValidator

/-- The next gate, with nothing seen in it. -/
def opened (v : MediaConversationValidator) : MediaConversationValidator :=
  { v with
    mediaGate := v.mediaGate + 1
    mediaSuspended := false
    awaitingIdr := true
    videoPts := none
    audioPts := none }

variable {v v' : MediaConversationValidator}

theorem openGate_eq_ok : v.openGate = .ok v' ↔ v.mediaGate ≠ lastGate ∧ v' = v.opened := by
  simp only [openGate, bind_eq_ok_iff, nextGate_eq_ok]
  constructor
  · rintro ⟨gate, ⟨hgate, rfl⟩, h⟩
    exact ⟨hgate, (Except.ok.inj h).symm⟩
  · rintro ⟨hgate, rfl⟩
    exact ⟨_, ⟨hgate, rfl⟩, rfl⟩

/-- The commands the validator accepts, and what becomes of it. -/
inductive Registers (v : MediaConversationValidator) (sequence : UInt64) :
    CommandBody → MediaConversationValidator → Prop
  | startPrepared (contract : StartContract) (h : v.lifecycle = .awaitingStart) :
      Registers v sequence (.startPrepared contract)
        { v with contract := some contract, lifecycle := .preparing sequence }
  | activate (h : v.lifecycle = .prepared) :
      Registers v sequence .activate { v with lifecycle := .activating sequence }
  | beginMedia (activation : UInt64) (h : v.lifecycle = .activated)
      (hactivation : v.activationCommandSequence = some activation)
      (hgate : v.mediaGate ≠ lastGate) :
      Registers v sequence (.beginMedia activation) { v.opened with lifecycle := .active }
  | reconfigure (video : VideoConfig) (force : Bool) (h : v.lifecycle = .active)
      (hpending : v.pendingReconfigure = none) :
      Registers v sequence (.reconfigure video force)
        { v with
          mediaSuspended := true
          pendingReconfigure := some { commandSequence := sequence, video } }
  | resumeMedia (reconfigure : UInt64) (h : v.lifecycle = .active)
      (hpending : v.pendingReconfigure = none)
      (hreconfigure : v.reconfigureCommandSequence = some reconfigure)
      (hgate : v.mediaGate ≠ lastGate) :
      Registers v sequence (.resumeMedia reconfigure) v.opened
  | requestKeyframe (h : v.lifecycle = .active) (hpending : v.pendingKeyframeCommand = none) :
      Registers v sequence .requestKeyframe
        { v with pendingKeyframeCommand := some sequence, droppingUntilRequestedIdr := true }
  | stop (hstart : v.lifecycle ≠ .awaitingStart) (hstop : ∀ s, v.lifecycle ≠ .stopping s)
      (hterminal : v.lifecycle ≠ .terminal) :
      Registers v sequence .stop { v with mediaSuspended := true, lifecycle := .stopping sequence }

theorem transition_stop (sequence : UInt64) :
    v.transition sequence .stop =
      match v.lifecycle with
      | .awaitingStart | .stopping _ | .terminal => .error refusedCommand
      | _ => .ok { v with mediaSuspended := true, lifecycle := .stopping sequence } := rfl

variable {sequence : UInt64} {body : EventBody} {payload : List UInt8}
  {observation : MediaObservation} {packet : AudioOpus}

theorem transition_eq_ok {body : CommandBody} :
    v.transition sequence body = .ok v' ↔ Registers v sequence body v' := by
  constructor
  · intro h
    cases body with
    | startPrepared contract =>
      obtain ⟨hlife, h⟩ := ite_error_eq_ok_iff.1 h
      cases h
      exact .startPrepared contract hlife
    | activate =>
      obtain ⟨hlife, h⟩ := ite_error_eq_ok_iff.1 h
      cases h
      exact .activate hlife
    | beginMedia activation =>
      obtain ⟨⟨hlife, hactivation⟩, h⟩ := ite_error_eq_ok_iff.1 h
      obtain ⟨v₁, hopen, h⟩ := bind_eq_ok_iff.1 h
      obtain ⟨hne, rfl⟩ := openGate_eq_ok.1 hopen
      cases h
      exact .beginMedia activation hlife hactivation hne
    | reconfigure video force =>
      obtain ⟨⟨hlife, hpending⟩, h⟩ := ite_error_eq_ok_iff.1 h
      cases h
      exact .reconfigure video force hlife hpending
    | resumeMedia reconfigure =>
      obtain ⟨⟨hlife, hpending, hreconfigure⟩, h⟩ := ite_error_eq_ok_iff.1 h
      obtain ⟨hne, rfl⟩ := openGate_eq_ok.1 h
      exact .resumeMedia reconfigure hlife hpending hreconfigure hne
    | requestKeyframe =>
      obtain ⟨⟨hlife, hpending⟩, h⟩ := ite_error_eq_ok_iff.1 h
      cases h
      exact .requestKeyframe hlife hpending
    | stop =>
      rw [transition_stop] at h
      cases hlife : v.lifecycle with
      | awaitingStart | stopping | terminal =>
        rw [hlife] at h
        cases h
      | preparing | prepared | activating | activated | active | poisoned =>
        rw [hlife] at h
        cases h
        exact .stop (by simp [hlife]) (by simp [hlife]) (by simp [hlife])
  · intro h
    cases h with
    | startPrepared contract h => exact ite_error_eq_ok_iff.2 ⟨h, rfl⟩
    | activate h => exact ite_error_eq_ok_iff.2 ⟨h, rfl⟩
    | beginMedia activation h hactivation hgate =>
      exact ite_error_eq_ok_iff.2
        ⟨⟨h, hactivation⟩, bind_eq_ok_iff.2 ⟨_, openGate_eq_ok.2 ⟨hgate, rfl⟩, rfl⟩⟩
    | reconfigure video force h hpending => exact ite_error_eq_ok_iff.2 ⟨⟨h, hpending⟩, rfl⟩
    | resumeMedia reconfigure h hpending hreconfigure hgate =>
      exact ite_error_eq_ok_iff.2
        ⟨⟨h, hpending, hreconfigure⟩, openGate_eq_ok.2 ⟨hgate, rfl⟩⟩
    | requestKeyframe h hpending => exact ite_error_eq_ok_iff.2 ⟨⟨h, hpending⟩, rfl⟩
    | stop hstart hstop hterminal =>
      rw [transition_stop]
      cases hlife : v.lifecycle with
      | awaitingStart => exact absurd hlife hstart
      | stopping s => exact absurd hlife (hstop s)
      | terminal => exact absurd hlife hterminal
      | preparing | prepared | activating | activated | active | poisoned => rfl

/-! ## Events -/

/-- The control events the validator accepts, and what becomes of it. -/
inductive Settles (v : MediaConversationValidator) : EventBody → MediaConversationValidator → Prop
  | prepared (sequence : UInt64) (proof : CaptureProof) (contract : StartContract)
      (h : v.lifecycle = .preparing sequence) (hcontract : v.contract = some contract)
      (hproof : proof.validateFor contract.target = .ok ()) :
      Settles v (.prepared sequence proof) { v with lifecycle := .prepared }
  | activated (sequence : UInt64) (h : v.lifecycle = .activating sequence) :
      Settles v (.activated sequence)
        { v with activationCommandSequence := some sequence, lifecycle := .activated }
  | reconfigured (sequence : UInt64) (video : VideoConfig)
      (h : v.pendingReconfigure = some { commandSequence := sequence, video }) :
      Settles v (.reconfigured sequence video (v.codecGeneration + 1))
        { v with
          pendingReconfigure := none
          codecGeneration := v.codecGeneration + 1
          reconfigureCommandSequence := some sequence
          contract := v.contract.map fun contract => { contract with video }
          awaitingIdr := true
          videoPts := none }
  | keyframeRequested (sequence : UInt64) (h : v.pendingKeyframeCommand = some sequence) :
      Settles v (.keyframeRequested sequence) { v with pendingKeyframeCommand := none }
  | stats (stats : MediaStats) (h : v.lifecycle = .active) : Settles v (.stats stats) v
  | failed (reason : FailureReason) (detail : String) (hstart : v.lifecycle ≠ .awaitingStart)
      (hterminal : v.lifecycle ≠ .terminal) :
      Settles v (.failed reason detail) { v with lifecycle := .terminal }
  | stopped (sequence : UInt64) (h : v.lifecycle = .stopping sequence) :
      Settles v (.stopped sequence) { v with lifecycle := .terminal }

theorem settles_of_observeControl (hlane : body.requiredLane = .control)
    (h : v.observeControl body = .ok v') : Settles v body v' := by
  cases body with
  | prepared sequence proof =>
    simp only [observeControl] at h
    split at h
    · next expected hlife =>
      obtain ⟨hsequence, hrest⟩ := check_bind_eq_ok_iff.1 h
      obtain rfl : sequence = expected := by simpa using hsequence
      split at hrest
      · cases hrest
      · next contract hcontract =>
        obtain ⟨hproof, hrest⟩ := check_bind_eq_ok_iff.1 hrest
        cases hrest
        exact .prepared sequence proof contract hlife hcontract hproof
    · cases h
  | activated sequence =>
    simp only [observeControl] at h
    split at h
    · next expected hlife =>
      obtain ⟨hsequence, hrest⟩ := check_bind_eq_ok_iff.1 h
      obtain rfl : sequence = expected := by simpa using hsequence
      cases hrest
      exact .activated sequence hlife
    · cases h
  | videoH264 frame => cases hlane
  | audioOpus packet => cases hlane
  | reconfigured sequence video codecGeneration =>
    simp only [observeControl] at h
    split at h
    · cases h
    · next pending hpending =>
      obtain ⟨hmatch, h⟩ := check_bind_eq_ok_iff.1 h
      cases h
      simp only [bailIf_eq_ok_iff, Bool.or_eq_false_iff, bne_eq_false_iff_eq] at hmatch
      obtain ⟨⟨rfl, rfl⟩, rfl⟩ := hmatch
      exact .reconfigured pending.commandSequence pending.video hpending
  | keyframeRequested sequence =>
    obtain ⟨hpending, h⟩ := check_bind_eq_ok_iff.1 h
    cases h
    exact .keyframeRequested sequence (by simpa using hpending)
  | stats report =>
    obtain ⟨hlife, h⟩ := check_bind_eq_ok_iff.1 h
    cases h
    exact .stats report (by simpa using hlife)
  | failed reason detail =>
    simp only [observeControl] at h
    split at h
    · cases h
    · cases h
    · next hstart hterminal =>
      cases h
      exact .failed reason detail hstart hterminal
  | stopped sequence =>
    simp only [observeControl] at h
    split at h
    · next expected hlife =>
      obtain ⟨hsequence, hrest⟩ := check_bind_eq_ok_iff.1 h
      obtain rfl : sequence = expected := by simpa using hsequence
      cases hrest
      exact .stopped sequence hlife
    · cases h

theorem Settles.requiredLane (h : Settles v body v') : body.requiredLane = .control := by
  cases h <;> rfl

/-- What a video frame that is neither stale nor refused has passed. -/
structure InContract (v : MediaConversationValidator) (frame : VideoH264) (payload : List UInt8)
    (contract : StartContract) (annexB : H264Inspection) : Prop where
  fresh : v.isStale frame.mediaGate = false
  current : v.inGate frame.mediaGate = true
  negotiated : v.contract = some contract
  agrees : v.videoMismatch contract.video frame payload = false
  inspected : checkPayload contract.video frame payload = .ok annexB

/-- What becomes of a video frame that is not refused. -/
inductive Shows (v : MediaConversationValidator) (frame : VideoH264) (payload : List UInt8) :
    MediaObservation → MediaConversationValidator → Prop
  | stale (h : v.isStale frame.mediaGate = true) : Shows v frame payload .staleDiscarded v
  | awaited (contract : StartContract) (annexB : H264Inspection)
      (h : v.InContract frame payload contract annexB)
      (hdropping : v.droppingUntilRequestedIdr = true) (hdelta : annexB.recoveryIdr = false) :
      Shows v frame payload .staleDiscarded { v with videoPts := some frame.pts90khz }
  | accepted (contract : StartContract) (annexB : H264Inspection)
      (h : v.InContract frame payload contract annexB)
      (hdropping : v.droppingUntilRequestedIdr = true → annexB.recoveryIdr = true)
      (hawaiting : v.awaitingIdr = true → annexB.recoveryIdr = true)
      (hdiscontinuity : frame.discontinuity = true → annexB.recoveryIdr = true) :
      Shows v frame payload .accepted
        { v with
          awaitingIdr := false
          droppingUntilRequestedIdr := false
          videoPts := some frame.pts90khz }

theorem shows_of_observeVideo {frame : VideoH264}
    (h : v.observeVideo frame payload = .ok (observation, v')) :
    Shows v frame payload observation v' := by
  unfold observeVideo at h
  split at h
  · next hstale =>
    cases h
    exact .stale hstale
  · next hfresh =>
    obtain ⟨hgate, h⟩ := check_bind_eq_ok_iff.1 h
    split at h
    · cases h
    · next contract hcontract =>
      obtain ⟨hagrees, h⟩ := check_bind_eq_ok_iff.1 h
      obtain ⟨annexB, hpayload, h⟩ := bind_eq_ok_iff.1 h
      have hin : v.InContract frame payload contract annexB :=
        ⟨by simpa using hfresh, by simpa using hgate, hcontract, by simpa using hagrees, hpayload⟩
      split at h
      · next hdrop =>
        cases h
        simp only [Bool.and_eq_true, Bool.not_eq_true'] at hdrop
        exact .awaited contract annexB hin hdrop.1 hdrop.2
      · next hdrop =>
        obtain ⟨hresume, h⟩ := check_bind_eq_ok_iff.1 h
        cases h
        refine .accepted contract annexB hin ?_ ?_ ?_
        · intro hdropping
          simpa [hdropping] using hdrop
        · intro hawaiting
          simpa [hawaiting] using hresume
        · intro hdiscontinuity
          simpa [hdiscontinuity] using hresume

/-- What becomes of an audio packet that is not refused. -/
inductive Plays (v : MediaConversationValidator) (packet : AudioOpus) (payload : List UInt8) :
    MediaObservation → MediaConversationValidator → Prop
  | stale (h : v.isStale packet.mediaGate = true) : Plays v packet payload .staleDiscarded v
  | accepted (hfresh : v.isStale packet.mediaGate = false)
      (hgate : v.inGate packet.mediaGate = true)
      (haudio : (v.contract.bind (·.audio)).isSome = true)
      (hpts : ∀ p, v.audioPts = some p → p < packet.pts48khz)
      (hsamples : opusPacketSamples48khz payload = .ok 960)
      (hfirst : v.audioPts = none → packet.discontinuity = true) :
      Plays v packet payload .accepted { v with audioPts := some packet.pts48khz }

theorem plays_of_observeAudio (h : v.observeAudio packet payload = .ok (observation, v')) :
    Plays v packet payload observation v' := by
  unfold observeAudio at h
  split at h
  · next hstale =>
    cases h
    exact .stale hstale
  · next hfresh =>
    obtain ⟨hgate, h⟩ := check_bind_eq_ok_iff.1 h
    obtain ⟨hagrees, h⟩ := check_bind_eq_ok_iff.1 h
    obtain ⟨samples, hsamples, h⟩ := bind_eq_ok_iff.1 h
    obtain ⟨hpacket, h⟩ := check_bind_eq_ok_iff.1 h
    cases h
    simp only [bailIf_eq_ok_iff, Bool.or_eq_false_iff, bne_eq_false_iff_eq] at hagrees hpacket
    obtain ⟨rfl, hfirst⟩ := hpacket
    refine .accepted (by simpa using hfresh) (by simpa using hgate) ?_ ?_ hsamples ?_
    · simpa using hagrees.1
    · intro p hp
      simpa [hp] using hagrees.2
    · intro hnone
      simpa [hnone] using hfirst

/-- What becomes of an event that is not refused. -/
theorem observeBody_cases (h : v.observeBody body payload = .ok (observation, v')) :
    (∃ frame, body = .videoH264 frame ∧ Shows v frame payload observation v') ∨
      (∃ packet, body = .audioOpus packet ∧ Plays v packet payload observation v') ∨
      (observation = .accepted ∧ Settles v body v') := by
  have hcontrol : body.requiredLane = .control →
      (v.observeControl body).map (fun v' => (MediaObservation.accepted, v')) =
        .ok (observation, v') → observation = .accepted ∧ Settles v body v' := by
    intro hrequired hok
    cases hresult : v.observeControl body with
    | error e => simp [hresult, Except.map] at hok
    | ok v₁ =>
      simp only [hresult, Except.map, Except.ok.injEq, Prod.mk.injEq] at hok
      obtain ⟨rfl, rfl⟩ := hok
      exact ⟨rfl, settles_of_observeControl hrequired hresult⟩
  cases body with
  | videoH264 frame => exact .inl ⟨frame, rfl, shows_of_observeVideo h⟩
  | audioOpus packet => exact .inr (.inl ⟨packet, rfl, plays_of_observeAudio h⟩)
  | prepared | activated | reconfigured | keyframeRequested | stats | failed | stopped =>
    exact .inr (.inr (hcontrol rfl h))

/-- What a lost media event leaves behind: lost video is waited out. -/
def missed (v : MediaConversationValidator) : MediaLane → MediaConversationValidator
  | .video => { v with awaitingIdr := true, droppingUntilRequestedIdr := true }
  | _ => v

theorem observeBackpressureDropInner_eq_ok {lane : MediaLane} {observedAtMs : UInt64}
    {mediaGate : UInt32} :
    v.observeBackpressureDropInner lane sequence observedAtMs mediaGate = .ok (observation, v') ↔
      lane ≠ .control ∧ sequence = (v.clock lane).sequence + 1 ∧ observedAtMs ≠ 0 ∧
        (v.clock lane).observedAtMs ≤ observedAtMs ∧
        ((v.isStale mediaGate = true ∧ observation = .staleDiscarded ∧
            v' = v.withClock ⟨sequence, observedAtMs⟩ lane) ∨
          (v.isStale mediaGate = false ∧ v.inGate mediaGate = true ∧
            observation = .backpressureDiscarded ∧
            v' = (v.missed lane).withClock ⟨sequence, observedAtMs⟩ lane)) := by
  rw [observeBackpressureDropInner, check_bind_eq_ok_iff, check_bind_eq_ok_iff]
  cases hstale : v.isStale mediaGate with
  | true =>
    simp only [bailIf_eq_ok_iff, Bool.or_eq_false_iff, bne_eq_false_iff_eq, beq_eq_false_iff_ne,
      decide_eq_false_iff_not, UInt64.not_lt, if_true, Except.ok.injEq, Prod.mk.injEq, and_assoc,
      true_and, reduceCtorEq, false_and, or_false, ne_eq, @eq_comm _ v', @eq_comm _ observation]
  | false =>
    simp only [Bool.false_eq_true, if_false, check_bind_eq_ok_iff, bailIf_eq_ok_iff,
      Bool.or_eq_false_iff, bne_eq_false_iff_eq, beq_eq_false_iff_ne, decide_eq_false_iff_not,
      UInt64.not_lt, Except.ok.injEq, Prod.mk.injEq, and_assoc, true_and, false_and, false_or,
      Bool.not_eq_false', ne_eq, @eq_comm _ v', @eq_comm _ observation]
    cases lane <;> rfl

/-! ## Calls -/

/-- A command is registered, or the validator is poisoned. -/
theorem registerCommand_cases (digest : StartContract → String) (command : Command) :
    (∃ v', v.registerCommand digest command = (.ok (), v')) ∨
      (v.registerCommand digest command).2.lifecycle = .poisoned := by
  unfold registerCommand
  split
  · next h => exact .inr h
  · split
    · exact .inl ⟨_, rfl⟩
    · exact .inr rfl

theorem registerCommand_eq_ok {digest : StartContract → String} {command : Command} :
    v.registerCommand digest command = (.ok (), v') ↔
      v.lifecycle ≠ .poisoned ∧ command.validate digest = .ok () ∧ command.fence = v.fence ∧
        command.sequence = v.commandSequence + 1 ∧
        ∃ v₁, Registers v command.sequence command.body v₁ ∧
          v' = { v₁ with commandSequence := command.sequence } := by
  have hinner : v.registerCommandInner digest command = .ok v' ↔
      command.validate digest = .ok () ∧ command.fence = v.fence ∧
        command.sequence = v.commandSequence + 1 ∧
        ∃ v₁, Registers v command.sequence command.body v₁ ∧
          v' = { v₁ with commandSequence := command.sequence } := by
    rw [registerCommandInner, check_bind_eq_ok_iff, check_bind_eq_ok_iff, bind_eq_ok_iff]
    simp only [bailIf_eq_ok_iff, Bool.or_eq_false_iff, bne_eq_false_iff_eq, transition_eq_ok,
      Except.ok.injEq, and_assoc, @eq_comm _ v']
  rw [← hinner]
  unfold registerCommand
  split
  · next h => simp [h]
  · next h =>
    split
    · next v₁ hok => simp [h, hok]
    · next e herror => simp [herror]

/-- A call that observes is answered as the validator decides, or the validator is poisoned. -/
theorem guarded_cases
    (result : Except ValidationError (MediaObservation × MediaConversationValidator)) :
    (∃ observation v', v.guarded result = (.ok observation, v')) ∨
      ((v.guarded result).1.toOption = none ∧ (v.guarded result).2.lifecycle = .poisoned) := by
  unfold guarded
  split
  · next h => exact .inr ⟨rfl, h⟩
  · split
    · exact .inl ⟨_, _, rfl⟩
    · exact .inr ⟨rfl, rfl⟩

theorem guarded_eq_ok
    {result : Except ValidationError (MediaObservation × MediaConversationValidator)} :
    v.guarded result = (.ok observation, v') ↔
      v.lifecycle ≠ .poisoned ∧ result = .ok (observation, v') := by
  unfold guarded
  split
  · next h => simp [h]
  · next h =>
    split
    · next observation' v'' => simp [h]
    · next e => simp

theorem observeValidated_eq_ok {lane : MediaLane} {observedAtMs : UInt64} :
    v.observeValidated lane sequence observedAtMs body payload = .ok (observation, v') ↔
      sequence = (v.clock lane).sequence + 1 ∧ (v.clock lane).observedAtMs ≤ observedAtMs ∧
        ∃ v₁, v.observeBody body payload = .ok (observation, v₁) ∧
          v' = v₁.withClock ⟨sequence, observedAtMs⟩ lane := by
  rw [observeValidated, check_bind_eq_ok_iff, bind_eq_ok_iff]
  simp only [bailIf_eq_ok_iff, Bool.or_eq_false_iff, bne_eq_false_iff_eq, decide_eq_false_iff_not,
    UInt64.not_lt, Prod.exists, Except.ok.injEq, Prod.mk.injEq, and_assoc]
  constructor
  · rintro ⟨hsequence, htime, observation', v₁, hbody, rfl, rfl⟩
    exact ⟨hsequence, htime, v₁, hbody, rfl⟩
  · rintro ⟨hsequence, htime, v₁, hbody, rfl⟩
    exact ⟨hsequence, htime, observation, v₁, hbody, rfl, rfl⟩

/-! ## Clocks -/

theorem clock_withClock (clock : LaneClock) (lane l : MediaLane) :
    (v.withClock clock lane).clock l = if l = lane then clock else v.clock l := by
  cases lane <;> cases l <;> rfl

theorem Registers.clock_eq {body : CommandBody} (h : Registers v sequence body v')
    (lane : MediaLane) : v'.clock lane = v.clock lane := by
  cases h <;> cases lane <;> rfl

theorem Settles.clock_eq (h : Settles v body v') (lane : MediaLane) :
    v'.clock lane = v.clock lane := by
  cases h <;> cases lane <;> rfl

theorem Shows.clock_eq {frame : VideoH264} (h : Shows v frame payload observation v')
    (lane : MediaLane) : v'.clock lane = v.clock lane := by
  cases h <;> cases lane <;> rfl

theorem Plays.clock_eq (h : Plays v packet payload observation v') (lane : MediaLane) :
    v'.clock lane = v.clock lane := by
  cases h <;> cases lane <;> rfl

theorem missed_clock (lost lane : MediaLane) : (v.missed lost).clock lane = v.clock lane := by
  cases lost <;> cases lane <;> rfl

/-! ## Closed gates -/

/-- The gate is open only while media is active or over, and a reconfiguration is pending only
behind a closed gate, never before media began. -/
structure Paused (v : MediaConversationValidator) : Prop where
  gated : v.mediaSuspended = false → v.lifecycle = .active ∨ v.lifecycle = .terminal
  closed : v.pendingReconfigure ≠ none → v.mediaSuspended = true
  begun : v.pendingReconfigure ≠ none →
    v.lifecycle = .active ∨ (∃ s, v.lifecycle = .stopping s) ∨ v.lifecycle = .terminal

namespace Paused

theorem of_none (h : v.pendingReconfigure = none)
    (hgated : v.mediaSuspended = false → v.lifecycle = .active ∨ v.lifecycle = .terminal) :
    Paused v :=
  ⟨hgated, fun hsome => absurd h hsome, fun hsome => absurd h hsome⟩

theorem of_eq (h : Paused v) (hpending : v'.pendingReconfigure = v.pendingReconfigure)
    (hclosed : v'.mediaSuspended = v.mediaSuspended) (hlife : v'.lifecycle = v.lifecycle) :
    Paused v' where
  gated := by rw [hclosed, hlife]; exact h.gated
  closed := by rw [hpending, hclosed]; exact h.closed
  begun := by rw [hpending, hlife]; exact h.begun

/-- Before media is active and while it is stopped the gate is closed. -/
theorem suspended_of_lifecycle (h : Paused v) (hactive : v.lifecycle ≠ .active)
    (hterminal : v.lifecycle ≠ .terminal) : v.mediaSuspended = true := by
  refine Bool.eq_true_of_not_eq_false fun hopen => ?_
  obtain hlife | hlife := h.gated hopen
  · exact hactive hlife
  · exact hterminal hlife

/-- Before media began no reconfiguration is pending. -/
theorem none_of_lifecycle (h : Paused v) (hactive : v.lifecycle ≠ .active)
    (hstopping : ∀ s, v.lifecycle ≠ .stopping s) (hterminal : v.lifecycle ≠ .terminal) :
    v.pendingReconfigure = none := by
  by_contra hsome
  obtain hlife | ⟨s, hlife⟩ | hlife := h.begun hsome
  · exact hactive hlife
  · exact hstopping s hlife
  · exact hterminal hlife

/-- A change of the lifecycle before media began. -/
theorem of_early (h : Paused v) (hactive : v.lifecycle ≠ .active)
    (hstopping : ∀ s, v.lifecycle ≠ .stopping s) (hterminal : v.lifecycle ≠ .terminal)
    (hpending : v'.pendingReconfigure = v.pendingReconfigure)
    (hclosed : v'.mediaSuspended = v.mediaSuspended) : Paused v' := by
  refine .of_none (hpending.trans (h.none_of_lifecycle hactive hstopping hterminal)) ?_
  intro hopen
  cases (h.suspended_of_lifecycle hactive hterminal).symm.trans (hclosed.symm.trans hopen)

theorem registers {body : CommandBody} (h : Paused v) (hregisters : Registers v sequence body v') :
    Paused { v' with commandSequence := sequence } := by
  cases hregisters with
  | startPrepared contract hlife =>
    exact h.of_early (by simp [hlife]) (by simp [hlife]) (by simp [hlife]) rfl rfl
  | activate hlife =>
    exact h.of_early (by simp [hlife]) (by simp [hlife]) (by simp [hlife]) rfl rfl
  | beginMedia activation hlife hactivation hgate =>
    exact .of_none (h.none_of_lifecycle (by simp [hlife]) (by simp [hlife]) (by simp [hlife]))
      fun _ => .inl rfl
  | reconfigure video force hlife hpending => exact ⟨nofun, fun _ => rfl, fun _ => .inl hlife⟩
  | resumeMedia reconfigure hlife hpending hreconfigure hgate =>
    exact .of_none hpending fun _ => .inl hlife
  | requestKeyframe hlife hpending => exact h.of_eq rfl rfl rfl
  | stop hstart hstop hterminal =>
    exact ⟨nofun, fun _ => rfl, fun _ => .inr (.inl ⟨sequence, rfl⟩)⟩

theorem settles (h : Paused v) (hsettles : Settles v body v') : Paused v' := by
  cases hsettles with
  | prepared sequence proof contract hlife hcontract hproof =>
    exact h.of_early (by simp [hlife]) (by simp [hlife]) (by simp [hlife]) rfl rfl
  | activated sequence hlife =>
    exact h.of_early (by simp [hlife]) (by simp [hlife]) (by simp [hlife]) rfl rfl
  | reconfigured sequence video hpending => exact .of_none rfl h.gated
  | keyframeRequested sequence hpending => exact h.of_eq rfl rfl rfl
  | stats report hlife => exact h.of_eq rfl rfl rfl
  | failed reason detail hstart hterminal =>
    exact ⟨fun _ => .inr rfl, h.closed, fun _ => .inr (.inr rfl)⟩
  | stopped sequence hlife => exact ⟨fun _ => .inr rfl, h.closed, fun _ => .inr (.inr rfl)⟩

theorem withClock (h : Paused v) (clock : LaneClock) (lane : MediaLane) :
    Paused (v.withClock clock lane) := by
  cases lane <;> exact h.of_eq rfl rfl rfl

theorem missed (h : Paused v) (lane : MediaLane) : Paused (v.missed lane) := by
  cases lane <;> exact h.of_eq rfl rfl rfl

theorem shows {frame : VideoH264} (h : Paused v) (hshows : Shows v frame payload observation v') :
    Paused v' := by
  cases hshows <;> exact h.of_eq rfl rfl rfl

theorem plays (h : Paused v) (hplays : Plays v packet payload observation v') : Paused v' := by
  cases hplays <;> exact h.of_eq rfl rfl rfl

end Paused

end MediaConversationValidator

end EasyNetDaemon.MediaSession
