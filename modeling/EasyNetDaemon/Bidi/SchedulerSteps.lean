import EasyNetDaemon.Bidi.FrameScheduler
import EasyNetDaemon.Library.Queues

/-!
# What a step of the frame scheduler can do

One constructor of `Scheduler.Next` for each outcome of a step, with what the step has checked. The
invariants of the scheduler are proved by cases on it.
-/

namespace EasyNetDaemon.Bidi

open Library

variable {F : Type}

/-- The frame belongs to the call. -/
def ScheduledFrame.of (callId : Nat) (f : ScheduledFrame F) : Bool := f.callId == callId

/-- At this stage a call of `route` holds a permit of its call. -/
@[simp] def RouteStage.holdsCall : RouteStage → Bool
  | .admitted | .failed _ => true
  | .acquired | .refused _ => false

/-- In this phase a frame in flight holds a permit of its call. -/
@[simp] def FlightPhase.holdsCall : FlightPhase → Bool
  | .spawned | .running => true
  | .released | .done => false

/-- In this phase a frame in flight holds a permit of the session. -/
@[simp] def FlightPhase.holdsSession : FlightPhase → Bool
  | .spawned | .running | .released => true
  | .done => false

/-- The call of `route` holds a permit of the call. -/
@[simp] def Routing.retains (callId : Nat) (r : Routing F) : Bool :=
  r.stage.holdsCall && r.scheduled.of callId

/-- The frame in flight holds a permit of the call. -/
@[simp] def Flight.retains (callId : Nat) (f : Flight F) : Bool :=
  f.phase.holdsCall && f.scheduled.of callId

/-- The frame in flight holds a permit of the session. -/
@[simp] def Flight.holdsSession (f : Flight F) : Bool := f.phase.holdsSession

namespace Scheduler

/-- The outcomes of a step, with the lists of the calls of `route` and of the frames in flight cut
at the position of the step. -/
inductive Next (s : Scheduler F) : Scheduler F → Prop
  | saturated (e : ScheduleError) : Next s { s with refused := s.refused ++ [e] }
  | acquired (f : ScheduledFrame F) (hhandle : s.handle = true)
      (hroom : s.globalTaken < dispatchChannelCapacity) :
      Next s { s with
        globalTaken := s.globalTaken + 1
        routes := s.routes ++ [{ scheduled := f, stage := .acquired }] }
  | restaged (l₁ l₂ : List (Routing F)) (f : ScheduledFrame F) (stage stage' : RouteStage)
      (hsplit : s.routes = l₁ ++ ⟨f, stage⟩ :: l₂) (hkeep : stage'.holdsCall = stage.holdsCall) :
      Next s { s with routes := l₁ ++ ⟨f, stage'⟩ :: l₂ }
  | admitted (l₁ l₂ : List (Routing F)) (f : ScheduledFrame F)
      (hsplit : s.routes = l₁ ++ ⟨f, .acquired⟩ :: l₂)
      (hroom : s.perCall f.callId < bidiFramesPerCall) :
      Next s { s with
        perCall := Function.update s.perCall f.callId (s.perCall f.callId + 1)
        routes := l₁ ++ ⟨f, .admitted⟩ :: l₂ }
  | sent (l₁ l₂ : List (Routing F)) (f : ScheduledFrame F)
      (hsplit : s.routes = l₁ ++ ⟨f, .admitted⟩ :: l₂) (hrun : s.task = .running) :
      Next s { s with
        routes := l₁ ++ l₂
        channel := s.channel ++ [f]
        accepted := s.accepted ++ [f] }
  | permitDropped (l₁ l₂ : List (Routing F)) (f : ScheduledFrame F) (e : ScheduleError)
      (hsplit : s.routes = l₁ ++ ⟨f, .failed e⟩ :: l₂) :
      Next s { s.releaseCall f.callId with routes := l₁ ++ ⟨f, .refused e⟩ :: l₂ }
  | refused (l₁ l₂ : List (Routing F)) (f : ScheduledFrame F) (e : ScheduleError)
      (hsplit : s.routes = l₁ ++ ⟨f, .refused e⟩ :: l₂) :
      Next s { s with
        globalTaken := s.globalTaken - 1
        routes := l₁ ++ l₂
        refused := s.refused ++ [e] }
  | taken (f : ScheduledFrame F) (rest : List (ScheduledFrame F))
      (hchannel : s.channel = f :: rest) (htaking : s.taking = none)
      (hopen : s.inputClosed = false) (hrun : s.task = .running) :
      Next s { s with taking := some f, channel := rest }
  | queued (f : ScheduledFrame F) (htaking : s.taking = some f) (hactive : f.callId ∈ s.active)
      (hrun : s.task = .running) :
      Next s { s with taking := none, pending := s.pending ++ [f] }
  | started (f : ScheduledFrame F) (htaking : s.taking = some f) (hactive : f.callId ∉ s.active)
      (hrun : s.task = .running) :
      Next s { s with
        taking := none
        active := f.callId :: s.active
        inFlight := s.inFlight ++ [⟨f, .spawned⟩] }
  | closed (hhandle : s.handle = false) (hchannel : s.channel = []) (htaking : s.taking = none)
      (hrun : s.task = .running) : Next s { s with inputClosed := true }
  | polled (l₁ l₂ : List (Flight F)) (f : ScheduledFrame F)
      (hsplit : s.inFlight = l₁ ++ ⟨f, .spawned⟩ :: l₂) (hrun : s.task = .running) :
      Next s { s with
        inFlight := l₁ ++ ⟨f, .running⟩ :: l₂
        handed := s.handed ++ [f] }
  | finished (l₁ l₂ : List (Flight F)) (f : ScheduledFrame F)
      (hsplit : s.inFlight = l₁ ++ ⟨f, .running⟩ :: l₂) (hrun : s.task = .running) :
      Next s { s.releaseCall f.callId with inFlight := l₁ ++ ⟨f, .released⟩ :: l₂ }
  | released (l₁ l₂ : List (Flight F)) (f : ScheduledFrame F)
      (hsplit : s.inFlight = l₁ ++ ⟨f, .released⟩ :: l₂) (hrun : s.task = .running) :
      Next s { s with
        globalTaken := s.globalTaken - 1
        inFlight := l₁ ++ ⟨f, .done⟩ :: l₂ }
  | continued (l₁ l₂ : List (Flight F)) (f g : ScheduledFrame F) (as bs : List (ScheduledFrame F))
      (hsplit : s.inFlight = l₁ ++ ⟨f, .done⟩ :: l₂) (hpending : s.pending = as ++ g :: bs)
      (hcall : g.callId = f.callId) (hfirst : ∀ a ∈ as, a.callId ≠ f.callId)
      (hrun : s.task = .running) :
      Next s { s with
        pending := as ++ bs
        inFlight := l₁ ++ l₂ ++ [⟨g, .spawned⟩] }
  | deactivated (l₁ l₂ : List (Flight F)) (f : ScheduledFrame F)
      (hsplit : s.inFlight = l₁ ++ ⟨f, .done⟩ :: l₂)
      (hlast : ∀ a ∈ s.pending, a.callId ≠ f.callId) (hrun : s.task = .running) :
      Next s { s with
        active := s.active.erase f.callId
        inFlight := l₁ ++ l₂ }
  | returned (hclosed : s.inputClosed = true) (hflight : s.inFlight = [])
      (hrun : s.task = .running) : Next s { s with task := .returned }
  | dropped (hroutes : s.routes = []) : Next s { s with handle := false, aborted := true }
  | cancelled (haborted : s.aborted = true) (hrun : s.task = .running) : Next s s.cancel

section Steps

variable {s s' : Scheduler F}

theorem exists_of_routeStep {i : Nat} {stage : RouteStage → Bool}
    {change : Routing F → Scheduler F} (h : s.routeStep i stage change = some s') :
    ∃ f st, s.routes[i]? = some ⟨f, st⟩ ∧ stage st = true ∧ s' = change ⟨f, st⟩ := by
  obtain ⟨r, hr, h⟩ := Option.bind_eq_some_iff.1 h
  split at h
  · next hstage => exact ⟨r.scheduled, r.stage, hr, hstage, (Option.some.inj h).symm⟩
  · cases h

theorem exists_of_flightStep {i : Nat} {phase : FlightPhase} {change : Flight F → Scheduler F}
    (h : s.flightStep i phase change = some s') :
    ∃ f, s.inFlight[i]? = some ⟨f, phase⟩ ∧ s' = change ⟨f, phase⟩ := by
  obtain ⟨f, hf, hchange⟩ := Option.bind_eq_some_iff.1 h
  split at hchange
  · next hphase =>
    subst hphase
    exact ⟨f.scheduled, hf, (Option.some.inj hchange).symm⟩
  · cases hchange

/-- A step of a frame in flight in a task that runs. -/
theorem exists_of_runningStep {i : Nat} {phase : FlightPhase} {change : Flight F → Scheduler F}
    (h : (if s.task = .running then s.flightStep i phase change else none) = some s') :
    s.task = .running ∧ ∃ f l₁ l₂, s.inFlight = l₁ ++ ⟨f, phase⟩ :: l₂ ∧
      (∀ g, s.inFlight.set i g = l₁ ++ g :: l₂) ∧ s' = change ⟨f, phase⟩ := by
  split at h
  · next hrun =>
    obtain ⟨f, hf, rfl⟩ := exists_of_flightStep h
    obtain ⟨l₁, l₂, hsplit, hset⟩ := exists_split_set hf
    exact ⟨hrun, f, l₁, l₂, hsplit, hset, rfl⟩
  · cases h

theorem taskStep_eq_some {ready : Bool} {change : Scheduler F}
    (h : s.taskStep ready change = some s') :
    s.task = .running ∧ s.taking = none ∧ ready = true ∧ s' = change := by
  unfold taskStep at h
  split at h
  · next hready => exact ⟨hready.1, hready.2.1, hready.2.2, (Option.some.inj h).symm⟩
  · cases h

theorem next_of_admitFrame {i : Nat} (h : s.step (.admitFrame i) = some s') : s.Next s' := by
  simp only [step] at h
  obtain ⟨f, st, hr, hstage, rfl⟩ := exists_of_routeStep h
  obtain rfl : st = .acquired := by simpa using hstage
  obtain ⟨l₁, l₂, hsplit, hset⟩ := exists_split_set hr
  unfold admitFrame
  split
  · rw [hset]
    exact .restaged l₁ l₂ f _ _ hsplit rfl
  · next hroom =>
    rw [hset]
    exact .admitted l₁ l₂ f hsplit (Nat.lt_of_not_le hroom)

theorem next_of_send {i : Nat} (h : s.step (.send i) = some s') : s.Next s' := by
  simp only [step] at h
  obtain ⟨f, st, hr, hstage, rfl⟩ := exists_of_routeStep h
  obtain rfl : st = .admitted := by simpa using hstage
  obtain ⟨l₁, l₂, hsplit, hset⟩ := exists_split_set hr
  unfold send
  split
  · rw [hset]
    exact .restaged l₁ l₂ f _ _ hsplit rfl
  · next hrun =>
    split
    · obtain ⟨l₁, l₂, hsplit, herase⟩ := exists_split_eraseIdx hr
      rw [herase]
      exact .sent l₁ l₂ f hsplit (not_not.1 hrun)
    · rw [hset]
      exact .restaged l₁ l₂ f _ _ hsplit rfl

theorem next_of_place (h : s.step .place = some s') : s.Next s' := by
  simp only [step] at h
  split at h
  · next hrun =>
    obtain ⟨f, hf, rfl⟩ := Option.map_eq_some_iff.1 h
    unfold place
    split
    · next hactive => exact .queued f hf hactive hrun
    · next hactive => exact .started f hf hactive hrun
  · cases h

/-- The queue of a call is the frames of the call in `pending`: its front is the first of them. -/
theorem next_of_collect {i : Nat} (h : s.step (.collect i) = some s') : s.Next s' := by
  obtain ⟨s₁, hs₁, h⟩ := Option.bind_eq_some_iff.1 h
  obtain ⟨hrun, -, -, rfl⟩ := taskStep_eq_some h
  obtain ⟨f, hf, rfl⟩ := exists_of_flightStep hs₁
  obtain ⟨l₁, l₂, hsplit, herase⟩ := exists_split_eraseIdx hf
  unfold next
  rw [herase]
  split
  · next g hg =>
    obtain ⟨hcall, as, bs, hpending, hfirst⟩ := List.find?_eq_some_iff_append.1 hg
    have herased : s.pending.eraseP (·.callId == f.callId) = as ++ bs := by
      rw [hpending, List.eraseP_append_right _ (by simpa using hfirst), List.eraseP_cons,
        hcall, cond_true]
    rw [herased]
    exact .continued l₁ l₂ f g as bs hsplit hpending (by simpa using hcall)
      (by simpa using hfirst) hrun
  · next hnone =>
    exact .deactivated l₁ l₂ f hsplit (by simpa using hnone) hrun

theorem next_of_step {op : SchedulerOp F} (h : s.step op = some s') : s.Next s' := by
  cases op with
  | acquire f =>
    simp only [step, acquire] at h
    split at h
    · next hhandle =>
      cases h
      split
      · next hroom => exact .acquired f hhandle hroom
      · exact .saturated _
    · cases h
  | admitFrame i => exact next_of_admitFrame h
  | send i => exact next_of_send h
  | dropPermit i =>
    obtain ⟨⟨f, stage⟩, hr, h⟩ := Option.bind_eq_some_iff.1 h
    obtain ⟨l₁, l₂, hsplit, hset⟩ := exists_split_set hr
    split at h
    · next e hstage =>
      cases h
      cases hstage
      rw [hset]
      exact .permitDropped l₁ l₂ f e hsplit
    · cases h
  | refuse i =>
    obtain ⟨⟨f, stage⟩, hr, h⟩ := Option.bind_eq_some_iff.1 h
    obtain ⟨l₁, l₂, hsplit, herase⟩ := exists_split_eraseIdx hr
    split at h
    · next e hstage =>
      cases h
      cases hstage
      rw [herase]
      exact .refused l₁ l₂ f e hsplit
    · cases h
  | take =>
    simp only [step] at h
    split at h
    · next f rest hchannel =>
      obtain ⟨hrun, htaking, hopen, rfl⟩ := taskStep_eq_some h
      exact .taken f rest hchannel htaking (by simpa using hopen) hrun
    · cases h
  | place => exact next_of_place h
  | sawClosed =>
    obtain ⟨hrun, htaking, hready, rfl⟩ := taskStep_eq_some h
    simp only [Bool.and_eq_true, Bool.not_eq_true', List.isEmpty_iff] at hready
    exact .closed hready.1.2 hready.2 htaking hrun
  | poll i =>
    obtain ⟨hrun, f, l₁, l₂, hsplit, hset, rfl⟩ := exists_of_runningStep h
    rw [hset]
    exact .polled l₁ l₂ f hsplit hrun
  | finish i =>
    obtain ⟨hrun, f, l₁, l₂, hsplit, hset, rfl⟩ := exists_of_runningStep h
    rw [hset]
    exact .finished l₁ l₂ f hsplit hrun
  | release i =>
    obtain ⟨hrun, f, l₁, l₂, hsplit, hset, rfl⟩ := exists_of_runningStep h
    rw [hset]
    exact .released l₁ l₂ f hsplit hrun
  | collect i => exact next_of_collect h
  | exit =>
    obtain ⟨hrun, -, hready, rfl⟩ := taskStep_eq_some h
    simp only [Bool.and_eq_true, List.isEmpty_iff] at hready
    exact .returned hready.1 hready.2 hrun
  | drop =>
    simp only [step] at h
    split at h
    · next hroutes =>
      cases h
      exact .dropped hroutes.2
    · cases h
  | cancel =>
    simp only [step] at h
    split at h
    · next habort =>
      cases h
      exact .cancelled habort.1 habort.2
    · cases h

end Steps

end Scheduler

end EasyNetDaemon.Bidi
