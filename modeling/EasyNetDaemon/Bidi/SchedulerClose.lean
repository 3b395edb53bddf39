import EasyNetDaemon.Bidi.SchedulerOrder
import Mathlib.Algebra.Ring.Nat

/-!
# How the frame scheduler ends

Once the handle is gone the loop can always go on by itself, and each of its steps brings a frame
nearer to its end: the loop returns, and then every accepted frame was handed to the dispatcher. The
handle goes only by `drop`, which aborts the task before that: what is still queued is then lost.
-/

namespace EasyNetDaemon.Bidi

open Library

variable {F : Type}

/-- A step of the scheduler task by itself. -/
def SchedulerOp.ofTask : SchedulerOp F → Bool
  | .take | .place | .sawClosed | .poll _ | .finish _ | .release _ | .collect _ | .exit => true
  | .acquire _ | .admitFrame _ | .send _ | .dropPermit _ | .refuse _ | .drop | .cancel => false

/-- The steps a frame in this phase still needs. -/
def FlightPhase.work : FlightPhase → Nat
  | .spawned => 4
  | .running => 3
  | .released => 2
  | .done => 1

namespace Scheduler

/-- The steps the loop still needs. -/
def work (s : Scheduler F) : Nat :=
  7 * s.channel.length + 6 * s.taking.toList.length + 5 * s.pending.length +
    (s.inFlight.map (·.phase.work)).sum + (if s.inputClosed then 0 else 1) +
    (if s.task = .running then 1 else 0)

variable {s s' : Scheduler F} {f : ScheduledFrame F}

/-- The loop can take a step by itself. -/
def CanGoOn (s : Scheduler F) : Prop :=
  ∃ op s', SchedulerOp.ofTask op = true ∧ s.step op = some s'

theorem taskStep_of (hrun : s.task = .running) (htaking : s.taking = none) (s' : Scheduler F) :
    s.taskStep true s' = some s' := by
  simp [taskStep, hrun, htaking]

theorem task_place (s : Scheduler F) (f : ScheduledFrame F) : (s.place f).task = s.task := by
  unfold place
  split <;> rfl

theorem task_next (s : Scheduler F) (c : Nat) : (s.next c).task = s.task := by
  unfold next
  split <;> rfl

theorem Sound.pending_eq_nil (h : s.Sound) (hflight : s.inFlight = []) : s.pending = [] := by
  refine List.eq_nil_iff_forall_not_mem.2 fun f hf => ?_
  have hactive := h.onePerCall.active_perm.subset (h.onePerCall.pending_active f hf)
  simp [hflight] at hactive

theorem unhanded_of_returned (h : s.Sound) (hreturned : s.task = .returned) : s.unhanded = [] := by
  obtain ⟨hclosed, hflight⟩ := h.closing.returned hreturned
  obtain ⟨hchannel, htaking, -⟩ := h.closing.closed hclosed
  simp [unhanded, hflight, hchannel, htaking, h.pending_eq_nil hflight]

/-! ## Every step of the task brings it nearer to its end -/

theorem work_place (htaking : s.taking = some f) : (s.place f).work < s.work := by
  have hspawned : FlightPhase.spawned.work = 4 := rfl
  unfold place
  split
  · simp [work, htaking]
    omega
  · simp [work, htaking, hspawned]
    omega

section Flights

variable {l₁ l₂ : List (Flight F)} {phase : FlightPhase}

theorem work_inFlight (hsplit : s.inFlight = l₁ ++ ⟨f, phase⟩ :: l₂) {phase' : FlightPhase}
    (hlt : phase'.work < phase.work) :
    ({ s with inFlight := l₁ ++ ⟨f, phase'⟩ :: l₂ } : Scheduler F).work < s.work := by
  simp only [work, hsplit, List.map_append, List.map_cons, List.sum_append, List.sum_cons]
  omega

/-- A frame that leaves its place in flight to the next of its call. -/
theorem work_next (hsplit : s.inFlight = l₁ ++ ⟨f, .done⟩ :: l₂) (c : Nat) :
    ({ s with inFlight := l₁ ++ l₂ }.next c).work < s.work := by
  have hdone : FlightPhase.done.work = 1 := rfl
  have hspawned : FlightPhase.spawned.work = 4 := rfl
  unfold next
  split
  · next g hg =>
    have hmem : g ∈ s.pending := List.mem_of_find?_eq_some hg
    have hpos := List.length_pos_of_mem hmem
    have hcall := List.find?_some hg
    have hlength : (s.pending.eraseP (·.callId == c)).length = s.pending.length - 1 :=
      List.length_eraseP_of_mem hmem hcall
    simp only [work, hsplit, hlength, List.map_append, List.map_cons, List.map_nil,
      List.sum_append, List.sum_cons, List.sum_nil, hspawned, hdone]
    omega
  · simp only [work, hsplit, List.map_append, List.map_cons, List.sum_append, List.sum_cons, hdone]
    omega

end Flights

/-- The step of a frame in flight to its next phase. -/
theorem work_of_flightStep {i : Nat} {phase : FlightPhase} {change : Flight F → Scheduler F}
    (h : (if s.task = .running then s.flightStep i phase change else none) = some s')
    (phase' : FlightPhase) (hlt : phase'.work < phase.work)
    (hchange : ∀ f, (change f).task = s.task ∧ (change f).work =
      ({ s with inFlight := s.inFlight.set i { f with phase := phase' } } : Scheduler F).work) :
    s'.task ≠ .cancelled ∧ s'.work < s.work := by
  obtain ⟨hrun, f, l₁, l₂, hsplit, hset, rfl⟩ := exists_of_runningStep h
  refine ⟨by simp [(hchange _).1, hrun], ?_⟩
  rw [(hchange _).2, hset]
  exact work_inFlight hsplit hlt

/-- A step of the task is one of those that it still needs. -/
theorem work_lt_of_ofTask {op : SchedulerOp F} (hop : SchedulerOp.ofTask op = true)
    (h : s.step op = some s') : s'.task ≠ .cancelled ∧ s'.work < s.work := by
  cases op with
  | take =>
    simp only [step] at h
    split at h
    · next f rest hchannel =>
      obtain ⟨hrun, htaking, -, rfl⟩ := taskStep_eq_some h
      refine ⟨by simp [hrun], ?_⟩
      simp [work, hchannel, htaking]
      omega
    · cases h
  | place =>
    simp only [step] at h
    split at h
    · next hrun =>
      obtain ⟨f, hf, rfl⟩ := Option.map_eq_some_iff.1 h
      exact ⟨by simp [task_place, hrun], work_place hf⟩
    · cases h
  | sawClosed =>
    obtain ⟨hrun, -, hready, rfl⟩ := taskStep_eq_some h
    simp only [Bool.and_eq_true, Bool.not_eq_true'] at hready
    exact ⟨by simp [hrun], by simp [work, hready.1.1]⟩
  | poll i => exact work_of_flightStep h .running (by decide) fun _ => ⟨rfl, rfl⟩
  | finish i => exact work_of_flightStep h .released (by decide) fun _ => ⟨rfl, rfl⟩
  | release i => exact work_of_flightStep h .done (by decide) fun _ => ⟨rfl, rfl⟩
  | collect i =>
    obtain ⟨s₁, hs₁, h⟩ := Option.bind_eq_some_iff.1 h
    obtain ⟨hrun, -, -, rfl⟩ := taskStep_eq_some h
    obtain ⟨f, hf, rfl⟩ := exists_of_flightStep hs₁
    obtain ⟨l₁, l₂, hsplit, herase⟩ := exists_split_eraseIdx hf
    rw [herase]
    exact ⟨by simp [task_next, hrun], work_next hsplit f.callId⟩
  | exit =>
    obtain ⟨hrun, -, -, rfl⟩ := taskStep_eq_some h
    exact ⟨by simp, by simp [work, hrun]⟩
  | _ => cases hop

/-! ## The loop returns -/

/-- The head of the frames in flight takes the step of its phase. -/
theorem canGoOn_of_inFlight {g : Flight F} {rest : List (Flight F)}
    (hflight : s.inFlight = g :: rest) (hrun : s.task = .running) (htaking : s.taking = none) :
    s.CanGoOn := by
  obtain ⟨f, phase⟩ := g
  have hhead : s.inFlight[0]? = some ⟨f, phase⟩ := by simp [hflight]
  cases phase with
  | spawned => exact ⟨.poll 0, _, rfl, by simp only [step, hrun, flightStep, hhead]; rfl⟩
  | running => exact ⟨.finish 0, _, rfl, by simp only [step, hrun, flightStep, hhead]; rfl⟩
  | released => exact ⟨.release 0, _, rfl, by simp only [step, hrun, flightStep, hhead]; rfl⟩
  | done =>
    refine ⟨.collect 0, { s with inFlight := rest }.next f.callId, rfl, ?_⟩
    simp [step, flightStep, hflight, taskStep_of hrun htaking]

/-- A loop whose handle is gone can go on. -/
theorem canGoOn (hrun : s.task = .running) (hgone : s.handle = false) : s.CanGoOn := by
  cases htaking : s.taking with
  | some f => exact ⟨.place, s.place f, rfl, by simp [step, hrun, htaking]⟩
  | none =>
    cases hclosed : s.inputClosed with
    | false =>
      cases hchannel : s.channel with
      | nil =>
        refine ⟨.sawClosed, { s with inputClosed := true }, rfl, ?_⟩
        simp [step, hclosed, hgone, hchannel, taskStep_of hrun htaking]
      | cons f rest =>
        refine ⟨.take, { s with taking := some f, channel := rest }, rfl, ?_⟩
        simp [step, hclosed, hchannel, taskStep_of hrun htaking]
    | true =>
      cases hflight : s.inFlight with
      | nil =>
        refine ⟨.exit, { s with task := .returned }, rfl, ?_⟩
        simp [step, hclosed, hflight, taskStep_of hrun htaking]
      | cons g rest => exact canGoOn_of_inFlight hflight hrun htaking

/-- Nothing is accepted after the handle is gone, and it does not come back. -/
theorem Sound.kept_of_gone (h : s.Sound) (hgone : s.handle = false) (hnext : s.Next s') :
    s'.handle = false ∧ s'.accepted = s.accepted := by
  cases hnext with
  | sent l₁ l₂ f hsplit =>
    have hnil := hsplit.symm.trans (h.closing.no_routes hgone)
    simp at hnil
  | dropped => exact ⟨rfl, rfl⟩
  | _ => exact ⟨hgone, rfl⟩

/-- A loop that is left to itself after its handle is gone. -/
structure Alone (first s : Scheduler F) : Prop where
  sound : s.Sound
  gone : s.handle = false
  not_cancelled : s.task ≠ .cancelled
  accepted : s.accepted = first.accepted

namespace Alone

variable {first : Scheduler F} (h : Alone first s)

include h

theorem step {op : SchedulerOp F} (hop : SchedulerOp.ofTask op = true)
    (hstep : s.step op = some s') : Alone first s' := by
  have hnext := next_of_step hstep
  obtain ⟨hgone, haccepted⟩ := h.sound.kept_of_gone h.gone hnext
  exact ⟨h.sound.next hnext, hgone, (work_lt_of_ofTask hop hstep).1, haccepted.trans h.accepted⟩

theorem canGoOn (hreturned : s.task ≠ .returned) : s.CanGoOn := by
  refine Scheduler.canGoOn ?_ h.gone
  cases htask : s.task with
  | running => rfl
  | returned => exact absurd htask hreturned
  | cancelled => exact absurd htask h.not_cancelled

/-- Every sequence of steps of the task has an end. -/
theorem run {ops : List (SchedulerOp F)} (hops : ∀ op ∈ ops, SchedulerOp.ofTask op = true)
    (hrun : runSteps Scheduler.step s ops = some s') :
    Alone first s' ∧ s'.work + ops.length ≤ s.work := by
  induction ops generalizing s with
  | nil =>
    cases hrun
    exact ⟨h, Nat.le_refl _⟩
  | cons op ops ih =>
    obtain ⟨s₁, hstep, hrest⟩ := Option.bind_eq_some_iff.1 hrun
    have hop := hops op List.mem_cons_self
    obtain ⟨halone, hle⟩ :=
      ih (h.step hop hstep) (fun op' hop' => hops op' (List.mem_cons_of_mem _ hop')) hrest
    have hlt := (work_lt_of_ofTask hop hstep).2
    refine ⟨halone, ?_⟩
    rw [List.length_cons]
    omega

end Alone

/-- The loop returns. -/
theorem Alone.exists_return {first s : Scheduler F} (h : Alone first s) :
    ∃ ops s', (∀ op ∈ ops, SchedulerOp.ofTask op = true) ∧
      runSteps Scheduler.step s ops = some s' ∧ s'.task = .returned := by
  by_cases hreturned : s.task = .returned
  · exact ⟨[], s, by simp, rfl, hreturned⟩
  · obtain ⟨op, s₁, hop, hstep⟩ := h.canGoOn hreturned
    have hlt := (work_lt_of_ofTask hop hstep).2
    obtain ⟨ops, s₂, hops, hsteps, hend⟩ := exists_return (h.step hop hstep)
    exact ⟨op :: ops, s₂, List.forall_mem_cons.2 ⟨hop, hops⟩, by simp [runSteps, hstep, hsteps],
      hend⟩
termination_by s.work

/-! ## What a scheduler does -/

/-- The frames of a call, in the order of a log. -/
def callLog (log : List (ScheduledFrame F)) (c : Nat) : List (ScheduledFrame F) :=
  log.filter (ScheduledFrame.of c)

theorem slotsTaken_lt_of_admitted (h : s.Sound) {i : Nat}
    (hroute : s.routes[i]? = some ⟨f, .admitted⟩) : s.slotsTaken < dispatchChannelCapacity := by
  have hroutes : 0 < s.routes.length := List.length_pos_of_mem (List.mem_of_getElem? hroute)
  have hle := h.budgeted.session ▸ h.budgeted.session_le
  simp only [sessionHolders, buffered, List.length_append] at hle
  unfold slotsTaken
  omega

theorem Sound.counters_zero (h : s.Sound) (hroutes : s.routes = []) (hbuffered : s.buffered = [])
    (hdone : ∀ g ∈ s.inFlight, g.phase = .done) : s.globalTaken = 0 ∧ ∀ c, s.perCall c = 0 := by
  constructor
  · rw [h.budgeted.session]
    simp only [sessionHolders, hroutes, hbuffered, List.length_nil, Nat.zero_add,
      List.countP_eq_zero]
    intro g hg
    simp [hdone g hg]
  · intro c
    rw [h.budgeted.call]
    simp only [callHolders, hroutes, hbuffered, List.countP_nil, Nat.zero_add,
      List.countP_eq_zero]
    intro g hg
    simp [hdone g hg]

/-- In every run of a scheduler the frames of each call are handed over in the order and as often as
they were accepted, at most one of a call is in flight, the counters are the numbers of the holders
and within their limits, zero when all have finished, and an admitted frame finds a place in the
channel. A loop that returns has handed over every accepted frame. Once the handle is gone it
returns if it is left alone: every sequence of its steps is bounded by `work` and goes on until the
return. A task that is cut off by the handle's drop keeps a prefix. -/
theorem run_fifo_within_budget {ops : List (SchedulerOp F)}
    (hrun : runSteps step spawn ops = some s) :
    (∀ c, callLog s.handed c <+: callLog s.accepted c) ∧
      (s.task ≠ .cancelled → ∀ c, callLog (s.handed ++ s.unhanded) c = callLog s.accepted c) ∧
      (s.inFlight.map (·.scheduled.callId)).Nodup ∧
      (s.globalTaken = s.sessionHolders ∧ s.globalTaken ≤ dispatchChannelCapacity) ∧
      (∀ c, s.perCall c = s.callHolders c ∧ s.perCall c ≤ bidiFramesPerCall) ∧
      (s.routes = [] → s.buffered = [] → (∀ g ∈ s.inFlight, g.phase = .done) →
        s.globalTaken = 0 ∧ ∀ c, s.perCall c = 0) ∧
      (∀ (i : Nat) (f : ScheduledFrame F), s.routes[i]? = some ⟨f, .admitted⟩ →
        s.slotsTaken < dispatchChannelCapacity) ∧
      (s.task = .returned → ∀ c, callLog s.handed c = callLog s.accepted c) ∧
      (s.handle = false → s.task = .running →
        (∃ ops' s', (∀ op ∈ ops', SchedulerOp.ofTask op = true) ∧
          runSteps step s ops' = some s' ∧ s'.task = .returned ∧ s'.accepted = s.accepted) ∧
        ∀ ops' s', (∀ op ∈ ops', SchedulerOp.ofTask op = true) → runSteps step s ops' = some s' →
          ops'.length ≤ s.work ∧ s'.accepted = s.accepted ∧
            (s'.task ≠ .returned → s'.CanGoOn)) := by
  have h := sound_of_run hrun
  refine ⟨h.handed_first, h.ordered, ?_, ⟨h.budgeted.session, h.budgeted.session_le⟩,
    fun c => ⟨h.budgeted.call c, h.budgeted.call_le c⟩, h.counters_zero, ?_, ?_, ?_⟩
  · exact h.onePerCall.active_perm.nodup_iff.1 h.onePerCall.nodup
  · intro i f hroute
    exact slotsTaken_lt_of_admitted h hroute
  · intro hreturned c
    have hordered := h.ordered (by simp [hreturned]) c
    rwa [unhanded_of_returned h hreturned, List.append_nil] at hordered
  · intro hgone htask
    have halone : Alone s s := ⟨h, hgone, by simp [htask], rfl⟩
    constructor
    · obtain ⟨ops', s', hops, hsteps, hreturned⟩ := halone.exists_return
      exact ⟨ops', s', hops, hsteps, hreturned, (halone.run hops hsteps).1.accepted⟩
    · intro ops' s' hops hsteps
      obtain ⟨halone', hle⟩ := halone.run hops hsteps
      exact ⟨Nat.le_trans (Nat.le_add_left _ _) hle, halone'.accepted, halone'.canGoOn⟩

/-- Two frames of one call, up to the end of the loop: the handle is dropped while the dispatcher
has the first of them. -/
def twoFrames : List (SchedulerOp Nat) :=
  [.acquire ⟨5, 0⟩, .admitFrame 0, .send 0, .acquire ⟨5, 1⟩, .admitFrame 0, .send 0, .take, .place,
    .take, .place, .poll 0, .drop, .sawClosed]

/-- The input is closed and the task cut off, and the second frame, which was accepted, is never
handed over. -/
theorem dropped_frame :
    (runSteps step spawn (twoFrames ++ [.cancel])).any (fun s =>
      s.inputClosed && s.task == .cancelled && s.accepted == [⟨5, 0⟩, ⟨5, 1⟩] &&
        s.handed == [⟨5, 0⟩]) = true := by
  decide

/-- The same frames in a loop that is left alone. -/
theorem run_fifo_within_budget_twoFrames :
    ∃ s : Scheduler Nat, runSteps step spawn twoFrames = some s ∧ s.handle = false ∧
      s.task = .running ∧ ∃ ops' s', runSteps step s ops' = some s' ∧ s'.task = .returned := by
  obtain ⟨s, hs, hgone, htask⟩ : ∃ s : Scheduler Nat, runSteps step spawn twoFrames = some s ∧
      s.handle = false ∧ s.task = .running := ⟨_, rfl, rfl, rfl⟩
  obtain ⟨ops', s', -, hrun, hreturned, -⟩ :=
    ((run_fifo_within_budget hs).2.2.2.2.2.2.2.2 hgone htask).1
  exact ⟨s, hs, hgone, htask, ops', s', hrun, hreturned⟩

end Scheduler

end EasyNetDaemon.Bidi
