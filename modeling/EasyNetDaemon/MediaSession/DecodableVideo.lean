import EasyNetDaemon.MediaSession.ObservationLog

/-!
# Only decodable video is forwarded

The flags `awaiting_idr` and `dropping_until_requested_idr` carry this: while neither is set and the
gate is open, the video of the gate is whole since its last recovery frame. Whatever loses a frame
sets one of them or closes the gate, and only a recovery frame clears them. A closed gate is never
opened again, the next one is.
-/

namespace EasyNetDaemon.MediaSession

open Library
open SharedMedia (MediaLane)

/-- A time stamp that was seen and is not above the last one. -/
def SeenUpTo (last : Option UInt64) (pts : Option UInt64) : Prop :=
  ∃ p q, pts = some p ∧ last = some q ∧ p ≤ q

/-- The last time stamp did not go back. -/
def NotBack (last last' : Option UInt64) : Prop :=
  ∀ p, last = some p → ∃ q, last' = some q ∧ p ≤ q

theorem NotBack.refl (last : Option UInt64) : NotBack last last :=
  fun p hp => ⟨p, hp, UInt64.le_refl p⟩

theorem SeenUpTo.mono {last last' pts : Option UInt64} (h : SeenUpTo last pts)
    (hback : NotBack last last') : SeenUpTo last' pts := by
  obtain ⟨p, q, hp, hq, hle⟩ := h
  obtain ⟨q', hq', hle'⟩ := hback q hq
  exact ⟨p, q', hp, hq', UInt64.le_trans hle hle'⟩

namespace MediaConversationValidator

/-- The gate stays, and it is opened, forgets a time stamp or does without a recovery frame only if
it did before. -/
structure Keeps (v v' : MediaConversationValidator) : Prop where
  mediaGate : v'.mediaGate = v.mediaGate
  audio : NotBack v.audioPts v'.audioPts
  opened : v'.mediaSuspended = false → v.mediaSuspended = false ∧ NotBack v.videoPts v'.videoPts
  decoding : v'.mediaSuspended = false → v'.awaitingIdr = false →
    v'.droppingUntilRequestedIdr = false →
    v.awaitingIdr = false ∧ v.droppingUntilRequestedIdr = false

/-- The next gate is entered, where the first frame has to be a recovery frame. -/
structure EntersGate (v v' : MediaConversationValidator) : Prop where
  notLast : v.mediaGate ≠ lastGate
  mediaGate : v'.mediaGate = v.mediaGate + 1
  awaiting : v'.awaitingIdr = true

variable {v v' : MediaConversationValidator}

theorem Keeps.of_eq (hgate : v'.mediaGate = v.mediaGate) (haudio : v'.audioPts = v.audioPts)
    (hvideo : v'.videoPts = v.videoPts)
    (hopen : v'.mediaSuspended = false → v.mediaSuspended = false)
    (hawaiting : v'.awaitingIdr = false → v.awaitingIdr = false)
    (hdropping : v'.droppingUntilRequestedIdr = false → v.droppingUntilRequestedIdr = false) :
    Keeps v v' where
  mediaGate := hgate
  audio := haudio ▸ .refl _
  opened h := ⟨hopen h, hvideo ▸ .refl _⟩
  decoding _ ha hd := ⟨hawaiting ha, hdropping hd⟩

variable {sequence observedAtMs : UInt64} {gate : UInt32} {payload : List UInt8}
  {contract : StartContract} {annexB : H264Inspection}

/-- A command keeps the gate or enters the next one. -/
theorem Registers.media {body : CommandBody} (h : Registers v sequence body v') :
    Keeps v { v' with commandSequence := sequence } ∨
      EntersGate v { v' with commandSequence := sequence } := by
  cases h with
  | startPrepared contract h => exact .inl (.of_eq rfl rfl rfl id id id)
  | activate h => exact .inl (.of_eq rfl rfl rfl id id id)
  | beginMedia activation h hactivation hgate => exact .inr ⟨hgate, rfl, rfl⟩
  | reconfigure video force h hpending => exact .inl (.of_eq rfl rfl rfl nofun id id)
  | resumeMedia reconfigure h hpending hreconfigure hgate => exact .inr ⟨hgate, rfl, rfl⟩
  | requestKeyframe h hpending => exact .inl (.of_eq rfl rfl rfl id id nofun)
  | stop hstart hstop hterminal => exact .inl (.of_eq rfl rfl rfl nofun id id)

/-- A reconfiguration is settled with the gate closed, so what it forgets is of no gate. -/
theorem Settles.keeps {body : EventBody} (h : Settles v body v')
    (hpending : v.pendingReconfigure ≠ none → v.mediaSuspended = true) : Keeps v v' := by
  cases h with
  | reconfigured sequence video h =>
    have hclosed : v.mediaSuspended = true := hpending (by simp [h])
    refine ⟨rfl, .refl _, ?_, ?_⟩
    · exact fun hopen => absurd (hclosed.symm.trans hopen) nofun
    · exact fun hopen => absurd (hclosed.symm.trans hopen) nofun
  | prepared | activated | keyframeRequested | stats | failed | stopped =>
    exact .of_eq rfl rfl rfl id id id

theorem Keeps.withClock (h : Keeps v v') (clock : LaneClock) (lane : MediaLane) :
    Keeps v (v'.withClock clock lane) := by
  cases lane <;> exact ⟨h.mediaGate, h.audio, h.opened, h.decoding⟩

theorem keeps_missed (lane : MediaLane) : Keeps v (v.missed lane) := by
  cases lane with
  | video => exact .of_eq rfl rfl rfl id nofun nofun
  | audio => exact .of_eq rfl rfl rfl id id id
  | control => exact .of_eq rfl rfl rfl id id id

/-! ## What the state says of the log -/

/-- The media state of a validator describes its log. -/
structure Media (v : MediaConversationValidator) (log : List Observation) : Prop where
  whole : v.mediaSuspended = false → v.awaitingIdr = false →
    v.droppingUntilRequestedIdr = false → Whole v.mediaGate log
  gates : ∀ e ∈ log, ∀ gate, e.gate = some gate → e.Accepted → gate ≤ v.mediaGate
  video : v.mediaSuspended = false → ∀ e ∈ log, e.Of .video v.mediaGate → e.Accepted →
    SeenUpTo v.videoPts e.pts
  audio : ∀ e ∈ log, e.Of .audio v.mediaGate → e.Accepted → SeenUpTo v.audioPts e.pts

namespace Media

variable {log : List Observation} {e : Observation}

theorem keeps (h : Media v log) (hk : Keeps v v') : Media v' log where
  whole hopen hawaiting hdropping := by
    obtain ⟨ha, hd⟩ := hk.decoding hopen hawaiting hdropping
    exact hk.mediaGate ▸ h.whole (hk.opened hopen).1 ha hd
  gates e he gate hgate haccepted := hk.mediaGate ▸ h.gates e he gate hgate haccepted
  video hopen e he hof haccepted := by
    rw [hk.mediaGate] at hof
    exact (h.video (hk.opened hopen).1 e he hof haccepted).mono (hk.opened hopen).2
  audio e he hof haccepted := by
    rw [hk.mediaGate] at hof
    exact (h.audio e he hof haccepted).mono hk.audio

/-- The next gate has nothing in it yet. -/
theorem entersGate (h : Media v log) (henters : EntersGate v v') : Media v' log := by
  have hlt : v.mediaGate < v'.mediaGate :=
    henters.mediaGate ▸ lt_succ_of_ne_lastGate henters.notLast
  have hempty : ∀ e ∈ log, ∀ lane, e.Of lane v'.mediaGate → ¬ e.Accepted := by
    intro e he lane hof haccepted
    exact absurd (h.gates e he _ hof.2 haccepted) (UInt32.not_le.2 hlt)
  exact
    { whole := fun _ hawaiting => absurd (henters.awaiting.symm.trans hawaiting) nofun
      gates := fun e he gate hgate haccepted =>
        UInt32.le_trans (h.gates e he gate hgate haccepted) (UInt32.le_of_lt hlt)
      video := fun _ e he hof haccepted => absurd haccepted (hempty e he _ hof)
      audio := fun e he hof haccepted => absurd haccepted (hempty e he _ hof) }

/-- A new event that is accepted is the last one of its gate. -/
theorem cons (h : Media v log)
    (hwhole : v.mediaSuspended = false → v.awaitingIdr = false →
      v.droppingUntilRequestedIdr = false → e.Of .video v.mediaGate → e.Accepted)
    (hgate : ∀ gate, e.gate = some gate → e.Accepted → gate ≤ v.mediaGate)
    (hvideo : e.Of .video v.mediaGate → e.Accepted → SeenUpTo v.videoPts e.pts)
    (haudio : e.Of .audio v.mediaGate → e.Accepted → SeenUpTo v.audioPts e.pts) :
    Media v (e :: log) where
  whole hopen hawaiting hdropping :=
    (h.whole hopen hawaiting hdropping).cons (hwhole hopen hawaiting hdropping)
  gates := List.forall_mem_cons.2 ⟨hgate, h.gates⟩
  video hopen := List.forall_mem_cons.2 ⟨hvideo, h.video hopen⟩
  audio := List.forall_mem_cons.2 ⟨haudio, h.audio⟩

/-- An event that is not accepted may be of the open gate only if a recovery frame is needed. -/
theorem cons_of_not_accepted (h : Media v log) (he : ¬ e.Accepted)
    (hlost : v.mediaSuspended = false → v.awaitingIdr = false →
      v.droppingUntilRequestedIdr = false → ¬ e.Of .video v.mediaGate) : Media v (e :: log) :=
  h.cons (fun hopen ha hd hof => absurd hof (hlost hopen ha hd))
    (fun _ _ haccepted => absurd haccepted he) (fun _ haccepted => absurd haccepted he)
    (fun _ haccepted => absurd haccepted he)

end Media

/-- Media that is stale is of no open gate. -/
theorem not_of_isStale {e : Observation} (hgate : e.gate = some gate) (h : v.isStale gate = true)
    (hopen : v.mediaSuspended = false) (lane : MediaLane) : ¬ e.Of lane v.mediaGate := by
  rintro ⟨-, hcurrent⟩
  cases hgate.symm.trans hcurrent
  simp [isStale, hopen] at h

/-! ## Sequence numbers -/

/-- The clock of each lane has counted the events observed on it. -/
def Clocked (v : MediaConversationValidator) (log : List Observation) : Prop :=
  ∀ lane, (v.clock lane).sequence = UInt64.ofNat (log.countP (·.isObserved lane))

namespace Clocked

variable {log : List Observation} {e : Observation}

/-- The number after the clock's is the number of the next observed event. -/
theorem sequence_eq (h : Clocked v log) (hsequence : e.sequence = (v.clock e.lane).sequence + 1) :
    e.sequence = UInt64.ofNat (log.countP (·.isObserved e.lane) + 1) := by
  rw [hsequence, h e.lane, UInt64.ofNat_add]
  rfl

theorem cons {observedAtMs : UInt64} (h : Clocked v log)
    (hclock : ∀ lane, v'.clock lane = v.clock lane) (hresult : e.result.isSome = true)
    (hsequence : e.sequence = (v.clock e.lane).sequence + 1) :
    Clocked (v'.withClock ⟨e.sequence, observedAtMs⟩ e.lane) (e :: log) := by
  intro lane
  rw [clock_withClock, List.countP_cons]
  by_cases hlane : lane = e.lane
  · subst hlane
    have hobserved : e.isObserved e.lane = true := by simp [Observation.isObserved, hresult]
    rw [if_pos rfl, if_pos hobserved]
    exact h.sequence_eq hsequence
  · have hobserved : e.isObserved lane = false := by
      simp [Observation.isObserved, Ne.symm hlane]
    rw [if_neg hlane, hclock lane, h lane, hobserved]
    rfl

end Clocked

/-! ## Calls -/

/-- The log is decodable, and while the validator is not poisoned its state describes the log. -/
structure Sound (v : MediaConversationValidator) (log : List Observation) : Prop where
  decodable : Decodable log
  paused : v.lifecycle ≠ .poisoned → Paused v
  media : v.lifecycle ≠ .poisoned → Media v log
  clocked : v.lifecycle ≠ .poisoned → Clocked v log

variable {log : List Observation}

theorem Sound.refused {entry : List Observation} (h : Sound v log)
    (hlife : v'.lifecycle = .poisoned) (hentry : ∀ e ∈ entry, e.result = none) :
    Sound v' (entry ++ log) := by
  have hdecodable : Decodable (entry ++ log) := by
    induction entry with
    | nil => exact h.decodable
    | cons e entry ih =>
      have he : e.result = none := hentry e List.mem_cons_self
      refine (ih fun x hx => hentry x (List.mem_cons_of_mem e hx)).cons_of_not_accepted ?_ ?_
      · simp [Observation.Accepted, he]
      · simp [he]
  exact ⟨hdecodable, absurd hlife, absurd hlife, absurd hlife⟩

theorem Sound.registered {body : CommandBody} (h : Sound v log) (halive : v.lifecycle ≠ .poisoned)
    (hregisters : Registers v sequence body v') :
    Sound { v' with commandSequence := sequence } log where
  decodable := h.decodable
  paused _ := (h.paused halive).registers hregisters
  media _ := by
    obtain hkeeps | henters := hregisters.media
    · exact (h.media halive).keeps hkeeps
    · exact (h.media halive).entersGate henters
  clocked _ lane := by
    have hclock := hregisters.clock_eq lane
    rw [← h.clocked halive lane, ← hclock]
    cases lane <;> rfl

theorem Sound.settled {body : EventBody} (h : Sound v log) (halive : v.lifecycle ≠ .poisoned)
    (hsequence : sequence = v.control.sequence + 1) (hsettles : Settles v body v') :
    Sound (v'.withClock ⟨sequence, observedAtMs⟩ .control)
      (.ofEvent .control sequence body payload (.ok .accepted) :: log) := by
  have hgate : body.mediaGate? = none := by
    cases hsettles <;> rfl
  have hmedia : Media (v'.withClock ⟨sequence, observedAtMs⟩ .control) log :=
    (h.media halive).keeps ((hsettles.keeps (h.paused halive).closed).withClock _ _)
  exact
    { decodable := h.decodable.cons_of_no_gate hgate
        fun _ => (h.clocked halive).sequence_eq hsequence
      paused := fun _ => ((h.paused halive).settles hsettles).withClock _ _
      media := fun _ => hmedia.cons (fun _ _ _ hof => absurd (hgate.symm.trans hof.2) nofun)
        (fun _ hsome => absurd (hgate.symm.trans hsome) nofun)
        (fun hof => absurd (hgate.symm.trans hof.2) nofun)
        (fun hof => absurd (hgate.symm.trans hof.2) nofun)
      clocked := fun _ => (h.clocked halive).cons
        (e := .ofEvent .control sequence body payload (.ok .accepted)) hsettles.clock_eq rfl
        hsequence }

/-- An event that is not accepted, when it is of no open gate or a recovery frame is needed. -/
theorem Sound.unaccepted (h : Sound v log) (e : Observation) (halive : v.lifecycle ≠ .poisoned)
    (hresult : e.result.isSome = true) (he : ¬ e.Accepted)
    (hsequence : e.sequence = (v.clock e.lane).sequence + 1)
    (hclock : ∀ lane, v'.clock lane = v.clock lane) (hpaused : Paused v') (hkeeps : Keeps v v')
    (hlost : v'.mediaSuspended = false → v'.awaitingIdr = false →
      v'.droppingUntilRequestedIdr = false → ¬ e.Of .video v'.mediaGate) :
    Sound (v'.withClock ⟨e.sequence, observedAtMs⟩ e.lane) (e :: log) where
  decodable := h.decodable.cons_of_not_accepted he
    fun _ => (h.clocked halive).sequence_eq hsequence
  paused _ := hpaused.withClock _ _
  media _ := (((h.media halive).keeps hkeeps).cons_of_not_accepted he hlost).keeps
    ((Keeps.of_eq rfl rfl rfl id id id).withClock _ _)
  clocked _ := (h.clocked halive).cons hclock hresult hsequence

theorem inGate_eq_true :
    v.inGate gate = true ↔
      v.lifecycle = .active ∧ v.mediaSuspended = false ∧ gate = v.mediaGate := by
  simp [inGate, and_assoc]

/-- The time stamp of a frame that agrees with the contract is above the last one. -/
theorem InContract.pts_lt {frame : VideoH264} (h : v.InContract frame payload contract annexB)
    {p : UInt64} (hp : v.videoPts = some p) : p < frame.pts90khz := by
  have hagrees := h.agrees
  simp only [videoMismatch, hp, Option.any_some, Bool.or_eq_false_iff, decide_eq_false_iff_not,
    UInt64.not_le] at hagrees
  exact hagrees.2

theorem InContract.notBack {frame : VideoH264} (h : v.InContract frame payload contract annexB) :
    NotBack v.videoPts (some frame.pts90khz) :=
  fun _ hp => ⟨_, rfl, UInt64.le_of_lt (h.pts_lt hp)⟩

theorem InContract.isRecoveryIdr_eq {frame : VideoH264}
    (h : v.InContract frame payload contract annexB) :
    isRecoveryIdr payload = annexB.recoveryIdr := by
  obtain ⟨found, hfound, hrest⟩ := bind_eq_ok_iff.1 h.inspected
  obtain ⟨-, hrest⟩ := check_bind_eq_ok_iff.1 hrest
  obtain ⟨-, hrest⟩ := check_bind_eq_ok_iff.1 hrest
  have heq : found = annexB := by
    split at hrest
    · obtain ⟨parsed, -, hrest⟩ := bind_eq_ok_iff.1 hrest
      obtain ⟨-, hrest⟩ := check_bind_eq_ok_iff.1 hrest
      exact Except.ok.inj hrest
    · exact Except.ok.inj hrest
  simp only [isRecoveryIdr, hfound, heq]

/-- What was accepted in the gate before has smaller time stamps. -/
theorem ptsIncrease_of_seen {e : Observation} {lane : MediaLane} {last : Option UInt64}
    {pts : UInt64} (hlane : e.lane = lane) (hgate : e.gate = some gate) (hpts : e.pts = some pts)
    (habove : ∀ p, last = some p → p < pts)
    (hseen : ∀ older ∈ log, older.Of lane gate → older.Accepted → SeenUpTo last older.pts) :
    ∀ older ∈ log, PtsIncrease e older := by
  intro older holder l g hnew hold _ haccepted
  cases hlane.symm.trans hnew.1
  cases hgate.symm.trans hnew.2
  obtain ⟨p, q, hp, hq, hle⟩ := hseen older holder hold haccepted
  exact ⟨p, pts, hp, hpts, UInt64.lt_of_le_of_lt hle (habove q hq)⟩

theorem Sound.shown {frame : VideoH264} {observation : MediaObservation} (h : Sound v log)
    (halive : v.lifecycle ≠ .poisoned) (hsequence : sequence = v.video.sequence + 1)
    (hshows : Shows v frame payload observation v') :
    Sound (v'.withClock ⟨sequence, observedAtMs⟩ .video)
      (.ofEvent .video sequence (.videoH264 frame) payload (.ok observation) :: log) := by
  have hpaused : Paused v' := (h.paused halive).shows hshows
  have hclock : ∀ lane, v'.clock lane = v.clock lane := hshows.clock_eq
  cases hshows with
  | stale hstale =>
    exact h.unaccepted (.ofEvent .video sequence (.videoH264 frame) payload _) halive rfl nofun
      hsequence hclock hpaused (.of_eq rfl rfl rfl id id id)
      fun hopen _ _ => not_of_isStale rfl hstale hopen .video
  | awaited contract annexB hin hdropping hdelta =>
    refine h.unaccepted (.ofEvent .video sequence (.videoH264 frame) payload _) halive rfl nofun
      hsequence hclock hpaused ?_ fun _ _ hd => absurd (hdropping.symm.trans hd) nofun
    exact
      { mediaGate := rfl
        audio := .refl _
        opened := fun hopen => ⟨hopen, hin.notBack⟩
        decoding := fun _ ha hd => ⟨ha, hd⟩ }
  | accepted contract annexB hin hdropping hawaiting hdiscontinuity =>
    obtain ⟨-, hopen, hgate⟩ := inGate_eq_true.1 hin.current
    have hmedia := h.media halive
    set e : Observation := .ofEvent .video sequence (.videoH264 frame) payload (.ok .accepted)
      with he
    have hof : e.Of .video v.mediaGate := ⟨rfl, congrArg some hgate⟩
    -- a frame that is no recovery frame gets here only with both flags down
    have hwhole : e.recovery = false → Whole v.mediaGate log := by
      intro hdelta
      have hdelta' : annexB.recoveryIdr = false := hin.isRecoveryIdr_eq.symm.trans hdelta
      refine hmedia.whole hopen ?_ ?_
      · exact Bool.eq_false_iff.2 fun ha => absurd (hdelta'.symm.trans (hawaiting ha)) nofun
      · exact Bool.eq_false_iff.2 fun hd => absurd (hdelta'.symm.trans (hdropping hd)) nofun
    have hwhole' : Whole v.mediaGate (e :: log) := by
      cases hrecovery : e.recovery with
      | true => exact .of_recovery hof rfl hrecovery
      | false => exact (hwhole hrecovery).cons fun _ => rfl
    have hseen : ∀ x ∈ e :: log, x.Of .video v.mediaGate → x.Accepted →
        SeenUpTo (some frame.pts90khz) x.pts := by
      refine List.forall_mem_cons.2 ⟨fun _ _ => ⟨_, _, rfl, rfl, UInt64.le_refl _⟩, ?_⟩
      intro x hx hof haccepted
      exact (hmedia.video hopen x hx hof haccepted).mono hin.notBack
    refine ⟨h.decodable.cons ?_ ?_ ?_, fun _ => hpaused.withClock _ _, fun _ => ?_, fun _ => ?_⟩
    · intro gate hof' _ hdelta
      cases hof.2.symm.trans hof'.2
      exact hwhole hdelta
    · exact ptsIncrease_of_seen rfl (congrArg some hgate) rfl (fun p hp => hin.pts_lt hp)
        (hmedia.video hopen)
    · exact fun _ => (h.clocked halive).sequence_eq hsequence
    · exact
        { whole := fun _ _ _ => hwhole'
          gates := List.forall_mem_cons.2
            ⟨fun gate hsome _ => by
              cases hof.2.symm.trans hsome
              exact UInt32.le_refl _, hmedia.gates⟩
          video := fun _ => hseen
          audio := List.forall_mem_cons.2 ⟨fun hof => (nomatch hof.1), hmedia.audio⟩ }
    · exact (h.clocked halive).cons (e := e) hclock rfl hsequence

theorem Sound.played {packet : AudioOpus} {observation : MediaObservation} (h : Sound v log)
    (halive : v.lifecycle ≠ .poisoned) (hsequence : sequence = v.audio.sequence + 1)
    (hplays : Plays v packet payload observation v') :
    Sound (v'.withClock ⟨sequence, observedAtMs⟩ .audio)
      (.ofEvent .audio sequence (.audioOpus packet) payload (.ok observation) :: log) := by
  have hpaused : Paused v' := (h.paused halive).plays hplays
  have hclock : ∀ lane, v'.clock lane = v.clock lane := hplays.clock_eq
  cases hplays with
  | stale hstale =>
    exact h.unaccepted (.ofEvent .audio sequence (.audioOpus packet) payload _) halive rfl nofun
      hsequence hclock hpaused (.of_eq rfl rfl rfl id id id) fun _ _ _ hof => nomatch hof.1
  | accepted hfresh hcurrent haudio hpts hsamples hfirst =>
    obtain ⟨-, hopen, hgate⟩ := inGate_eq_true.1 hcurrent
    have hmedia := h.media halive
    set e : Observation := .ofEvent .audio sequence (.audioOpus packet) payload (.ok .accepted)
      with he
    have hback : NotBack v.audioPts (some packet.pts48khz) :=
      fun p hp => ⟨_, rfl, UInt64.le_of_lt (hpts p hp)⟩
    have hseen : ∀ x ∈ e :: log, x.Of .audio v.mediaGate → x.Accepted →
        SeenUpTo (some packet.pts48khz) x.pts := by
      refine List.forall_mem_cons.2 ⟨fun _ _ => ⟨_, _, rfl, rfl, UInt64.le_refl _⟩, ?_⟩
      intro x hx hof haccepted
      exact (hmedia.audio x hx hof haccepted).mono hback
    refine ⟨h.decodable.cons ?_ ?_ ?_, fun _ => hpaused.withClock _ _, fun _ => ?_, fun _ => ?_⟩
    · exact fun _ hof => nomatch hof.1
    · exact ptsIncrease_of_seen rfl (congrArg some hgate) rfl hpts hmedia.audio
    · exact fun _ => (h.clocked halive).sequence_eq hsequence
    · exact
        { whole := fun hopen ha hd => (hmedia.whole hopen ha hd).cons fun hof => nomatch hof.1
          gates := List.forall_mem_cons.2
            ⟨fun gate hsome _ => by
              cases (congrArg some hgate).symm.trans hsome
              exact UInt32.le_refl _, hmedia.gates⟩
          video := fun hopen => List.forall_mem_cons.2
            ⟨fun hof => (nomatch hof.1), hmedia.video hopen⟩
          audio := hseen }
    · exact (h.clocked halive).cons (e := e) hclock rfl hsequence

theorem Sound.called {entry : List Observation} (h : Sound v log) (hcalled : Called v v' entry) :
    Sound v' (entry ++ log) := by
  cases hcalled with
  | refused _ _ hlife hentry => exact h.refused hlife hentry
  | registered sequence body v₁ halive hregisters => exact h.registered halive hregisters
  | settled sequence observedAtMs body payload v₁ halive hsequence hsettles =>
    exact h.settled halive hsequence hsettles
  | shown sequence observedAtMs frame payload observation v₁ halive hsequence hshows =>
    exact h.shown halive hsequence hshows
  | played sequence observedAtMs packet payload observation v₁ halive hsequence hplays =>
    exact h.played halive hsequence hplays
  | passed lane sequence observedAtMs mediaGate halive hsequence hstale =>
    exact h.unaccepted (.ofDrop lane sequence mediaGate _) halive rfl nofun hsequence
      (fun _ => rfl) (h.paused halive) (.of_eq rfl rfl rfl id id id) fun hopen _ _ =>
        not_of_isStale rfl hstale hopen .video
  | dropped lane sequence observedAtMs mediaGate halive hsequence =>
    refine h.unaccepted (.ofDrop lane sequence mediaGate _) halive rfl nofun hsequence
      (missed_clock lane) ((h.paused halive).missed lane) (keeps_missed lane) fun _ ha _ => ?_
    cases lane with
    | video => cases ha
    | audio => exact fun hof => nomatch hof.1
    | control => exact fun hof => nomatch hof.1

theorem sound_new (fence : GenerationFence) : Sound (.new fence) [] where
  decodable := .nil
  paused _ := .of_none rfl nofun
  media _ := ⟨nofun, nofun, nofun, nofun⟩
  clocked _ lane := by cases lane <;> rfl

end MediaConversationValidator

namespace ValidatorRun

theorem sound_after (digest : StartContract → String) (fence : GenerationFence)
    (calls : List ValidatorCall) :
    (after digest fence calls).validator.Sound (after digest fence calls).log := by
  have hrun : ∀ (run : ValidatorRun), run.validator.Sound run.log →
      (calls.foldl (call digest) run).validator.Sound (calls.foldl (call digest) run).log := by
    induction calls with
    | nil => exact fun run h => h
    | cons c calls ih =>
      intro run h
      obtain ⟨entry, hcalled, hlog⟩ := run.called digest c
      refine ih (run.call digest c) ?_
      rw [hlog]
      exact h.called hcalled
  exact hrun _ (MediaConversationValidator.sound_new fence)

/-- Only decodable video is forwarded. In the log of any sequence of calls (the last event first): a
frame that was accepted in a gate and is no recovery frame has an accepted recovery frame of the
gate before it, and every video event of the gate since was accepted; of two events accepted in a
gate the later one has the greater time stamp; and the events of a lane that gave no error are
numbered without a gap. -/
theorem only_decodable_video (digest : StartContract → String) (fence : GenerationFence)
    (calls : List ValidatorCall) :
    (∀ later e earlier gate, (after digest fence calls).log = later ++ e :: earlier →
      e.Of .video gate → e.Accepted → e.recovery = false →
      ∃ since recovery before, earlier = since ++ recovery :: before ∧
        recovery.Of .video gate ∧ recovery.Accepted ∧ recovery.recovery = true ∧
        ∀ x ∈ since, x.Of .video gate → x.Accepted) ∧
    (∀ later new between old earlier lane gate,
      (after digest fence calls).log = later ++ new :: (between ++ old :: earlier) →
      new.Of lane gate → old.Of lane gate → new.Accepted → old.Accepted →
      ∃ p q, old.pts = some p ∧ new.pts = some q ∧ p < q) ∧
    (∀ later e earlier, (after digest fence calls).log = later ++ e :: earlier →
      e.result.isSome = true →
      e.sequence = UInt64.ofNat (earlier.countP (·.isObserved e.lane) + 1)) := by
  have h : Decodable (after digest fence calls).log := (sound_after digest fence calls).decodable
  refine ⟨h.chained, ?_, h.contiguous⟩
  intro later new between old earlier lane gate hlog
  have hordered := h.ordered
  rw [hlog, List.pairwise_append, List.pairwise_cons] at hordered
  exact hordered.2.1.1 old (by simp) lane gate

end ValidatorRun

end EasyNetDaemon.MediaSession
