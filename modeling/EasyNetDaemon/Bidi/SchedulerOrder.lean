import EasyNetDaemon.Bidi.SchedulerSteps

/-!
# Order and budget of the frame scheduler

Every frame that `route` has accepted and the dispatcher has not seen is in flight and not polled,
in the queue of its call, in the scheduler's hands, or in the channel, and in this order within its
call. Each frame and each call of `route` in progress holds its permits, so the two counters are the
numbers of the holders. Both are kept by every step, until the task is cut off.
-/

namespace EasyNetDaemon.Bidi

open Library

variable {F : Type}

namespace Scheduler

/-- The frames that wait for a place in flight. -/
@[simp] def buffered (s : Scheduler F) : List (ScheduledFrame F) :=
  s.pending ++ s.taking.toList ++ s.channel

/-- The accepted frames that the dispatcher has not got. -/
def unhanded (s : Scheduler F) : List (ScheduledFrame F) :=
  (s.inFlight.filter (·.phase == .spawned)).map (·.scheduled) ++ s.buffered

/-- The holders of a permit of the session. -/
def sessionHolders (s : Scheduler F) : Nat :=
  s.routes.length + s.buffered.length + s.inFlight.countP Flight.holdsSession

/-- The holders of a permit of the call. -/
def callHolders (s : Scheduler F) (c : Nat) : Nat :=
  s.routes.countP (Routing.retains c) + s.buffered.countP (ScheduledFrame.of c) +
    s.inFlight.countP (Flight.retains c)

/-- The counters are the numbers of the permits' holders, and within their limits. -/
structure Budgeted (s : Scheduler F) : Prop where
  session : s.globalTaken = s.sessionHolders
  session_le : s.globalTaken ≤ dispatchChannelCapacity
  call : ∀ c, s.perCall c = s.callHolders c
  call_le : ∀ c, s.perCall c ≤ bidiFramesPerCall

/-- The active calls are those in flight, each once, and only an active call has a queue. -/
structure OnePerCall (s : Scheduler F) : Prop where
  active_perm : s.active.Perm (s.inFlight.map (·.scheduled.callId))
  nodup : s.active.Nodup
  pending_active : ∀ f ∈ s.pending, f.callId ∈ s.active

/-- The input is closed when the handle is gone and the channel empty, and the loop ends when
nothing is in flight after that. -/
structure Closing (s : Scheduler F) : Prop where
  no_routes : s.handle = false → s.routes = []
  aborted : s.aborted = true → s.handle = false
  closed : s.inputClosed = true → s.channel = [] ∧ s.taking = none ∧ s.handle = false
  returned : s.task = .returned → s.inputClosed = true ∧ s.inFlight = []

/-- Call by call, the frames handed to the dispatcher and then those on their way are the accepted
ones, in their order. -/
def Ordered (s : Scheduler F) : Prop :=
  ∀ c, (s.handed ++ s.unhanded).filter (ScheduledFrame.of c) =
    s.accepted.filter (ScheduledFrame.of c)

/-! ## The invariants are kept -/

section Invariants

variable {s s' : Scheduler F}

theorem OnePerCall.next (h : s.OnePerCall) (hnext : s.Next s') : s'.OnePerCall := by
  cases hnext with
  | saturated | acquired | restaged | admitted | sent | permitDropped | refused | taken | closed
  | returned | dropped => exact { h with }
  | queued f htaking hactive =>
    refine { h with pending_active := fun a ha => ?_ }
    rcases List.mem_append.1 ha with ha | ha
    · exact h.pending_active a ha
    · rwa [List.mem_singleton.1 ha]
  | started f htaking hactive =>
    refine ⟨?_, List.nodup_cons.2 ⟨hactive, h.nodup⟩, fun a ha => ?_⟩
    · simpa using (h.active_perm.cons f.callId).trans (List.perm_append_singleton _ _).symm
    · exact List.mem_cons_of_mem _ (h.pending_active a ha)
  | polled l₁ l₂ f hsplit | finished l₁ l₂ f hsplit | released l₁ l₂ f hsplit =>
    refine { h with active_perm := ?_ }
    simpa [hsplit, releaseCall] using h.active_perm
  | continued l₁ l₂ f g as bs hsplit hpending hcall hfirst =>
    have hmem : ∀ a ∈ as ++ bs, a ∈ s.pending := by
      intro a ha
      rw [hpending]
      exact (List.sublist_cons_self g bs).append_left as |>.subset ha
    refine ⟨?_, h.nodup, fun a ha => h.pending_active a (hmem a ha)⟩
    refine h.active_perm.trans ?_
    simp only [hsplit, List.map_append, List.map_cons, List.map_nil, ← hcall]
    exact List.perm_middle.trans (List.perm_append_singleton _ _).symm
  | deactivated l₁ l₂ f hsplit hlast =>
    refine ⟨?_, h.nodup.erase _, fun a ha => ?_⟩
    · have hperm : s.active.Perm (f.callId :: (l₁ ++ l₂).map (·.scheduled.callId)) := by
        refine h.active_perm.trans ?_
        rw [hsplit, List.map_append, List.map_append, List.map_cons]
        exact List.perm_middle
      simpa using hperm.erase f.callId
    · exact (h.nodup.mem_erase_iff).2 ⟨hlast a ha, h.pending_active a ha⟩
  | cancelled => exact ⟨List.Perm.nil, List.nodup_nil, fun a ha => nomatch ha⟩

theorem Closing.next (h : s.Closing) (hnext : s.Next s') : s'.Closing := by
  cases hnext with
  | saturated => exact { h with }
  | acquired f hhandle =>
    exact { h with no_routes := fun hgone => absurd (hhandle.symm.trans hgone) (by decide) }
  | restaged l₁ l₂ f _ _ hsplit | admitted l₁ l₂ f hsplit | permitDropped l₁ l₂ f _ hsplit
  | refused l₁ l₂ f _ hsplit =>
    refine { h with no_routes := fun hgone => ?_ }
    have hnil := hsplit.symm.trans (h.no_routes hgone)
    simp at hnil
  | sent l₁ l₂ f hsplit hrun =>
    have hhandle : s.handle = true := by
      by_contra hgone
      have hnil := hsplit.symm.trans (h.no_routes (by simpa using hgone))
      simp at hnil
    have hopen : s.inputClosed ≠ true := fun hclosed =>
      absurd (hhandle.symm.trans (h.closed hclosed).2.2) (by decide)
    exact {
      h with
      no_routes := fun hgone => absurd (hhandle.symm.trans hgone) (by decide)
      closed := fun hclosed => absurd hclosed hopen }
  | taken f rest hchannel htaking hopen hrun =>
    exact { h with closed := fun hclosed => absurd (hopen.symm.trans hclosed) (by decide) }
  | queued f htaking hactive hrun | started f htaking hactive hrun =>
    have hopen : s.inputClosed ≠ true := fun hclosed => by
      rw [(h.closed hclosed).2.1] at htaking
      cases htaking
    exact {
      h with
      closed := fun hclosed => absurd hclosed hopen
      returned := fun hreturned => absurd (hrun.symm.trans hreturned) (by decide) }
  | closed hhandle hchannel htaking hrun =>
    exact {
      h with
      closed := fun _ => ⟨hchannel, htaking, hhandle⟩
      returned := fun hreturned => absurd (hrun.symm.trans hreturned) (by decide) }
  | polled _ _ _ _ hrun | finished _ _ _ _ hrun | released _ _ _ _ hrun
  | continued _ _ _ _ _ _ _ _ _ _ hrun | deactivated _ _ _ _ _ hrun =>
    exact { h with returned := fun hreturned => absurd (hrun.symm.trans hreturned) (by decide) }
  | returned hclosed hflight => exact { h with returned := fun _ => ⟨hclosed, hflight⟩ }
  | dropped hroutes =>
    exact {
      h with
      no_routes := fun _ => hroutes
      aborted := fun _ => rfl
      closed := fun hclosed => ⟨(h.closed hclosed).1, (h.closed hclosed).2.1, rfl⟩ }
  | cancelled haborted =>
    exact {
      h with
      closed := fun hclosed => ⟨rfl, rfl, (h.closed hclosed).2.2⟩
      returned := fun hreturned => nomatch hreturned }

section Counters

variable {n holders holders' : Nat → Nat} {call : Nat}

theorem update_succ_eq (h : ∀ c, n c = holders c) (hcall : holders' call = holders call + 1)
    (hother : ∀ c, c ≠ call → holders' c = holders c) (c : Nat) :
    Function.update n call (n call + 1) c = holders' c := by
  rw [Function.update_apply]
  split
  · next hc => rw [hc, hcall, h]
  · next hc => rw [hother c hc, h]

theorem update_pred_eq (h : ∀ c, n c = holders c) (hcall : holders call = holders' call + 1)
    (hother : ∀ c, c ≠ call → holders' c = holders c) (c : Nat) :
    Function.update n call (n call - 1) c = holders' c := by
  rw [Function.update_apply]
  split
  · next hc => rw [hc, h, hcall, Nat.add_sub_cancel]
  · next hc => rw [hother c hc, h]

theorem update_succ_le {bound : Nat} (h : ∀ c, n c ≤ bound) (hroom : n call < bound) (c : Nat) :
    Function.update n call (n call + 1) c ≤ bound := by
  rw [Function.update_apply]
  split
  · exact hroom
  · exact h c

theorem update_pred_le {bound : Nat} (h : ∀ c, n c ≤ bound) (call c : Nat) :
    Function.update n call (n call - 1) c ≤ bound := by
  rw [Function.update_apply]
  split
  · exact Nat.le_trans (Nat.sub_le _ _) (h call)
  · exact h c

end Counters

theorem Budgeted.next (h : s.Budgeted) (hclosing : s.Closing) (hnext : s.Next s') :
    s'.Budgeted := by
  have hsession := h.session
  cases hnext with
  | saturated | closed | returned | dropped => exact { h with }
  | acquired f hhandle hroom =>
    refine { h with session := ?_, session_le := hroom, call := fun c => (h.call c).trans ?_ }
    · simp [hsession, sessionHolders]
      omega
    · simp [callHolders]
  | restaged l₁ l₂ f stage stage' hsplit hkeep =>
    refine { h with session := hsession.trans ?_, call := fun c => (h.call c).trans ?_ }
    · simp [sessionHolders, hsplit]
    · simp [callHolders, hsplit, hkeep, List.countP_cons, -RouteStage.holdsCall]
  | admitted l₁ l₂ f hsplit hroom =>
    refine { h with
      session := hsession.trans ?_
      call := update_succ_eq h.call ?_ fun c hc => ?_
      call_le := update_succ_le h.call_le hroom }
    · simp [sessionHolders, hsplit]
    · simp [callHolders, hsplit, ScheduledFrame.of]
      omega
    · simp [callHolders, hsplit, ScheduledFrame.of, hc.symm]
  | sent l₁ l₂ f hsplit =>
    refine { h with session := hsession.trans ?_, call := fun c => (h.call c).trans ?_ }
    · simp [sessionHolders, hsplit]
      omega
    · simp [callHolders, hsplit, List.countP_cons]
      omega
  | permitDropped l₁ l₂ f e hsplit =>
    refine { h with
      session := hsession.trans ?_
      call := update_pred_eq h.call ?_ fun c hc => ?_
      call_le := update_pred_le h.call_le f.callId }
    · simp [sessionHolders, releaseCall, hsplit]
    · simp [callHolders, releaseCall, hsplit, ScheduledFrame.of]
      omega
    · simp [callHolders, releaseCall, hsplit, ScheduledFrame.of, hc.symm]
  | refused l₁ l₂ f e hsplit =>
    refine { h with
      session := ?_
      session_le := Nat.le_trans (Nat.sub_le _ _) h.session_le
      call := fun c => (h.call c).trans ?_ }
    · simp [hsession, sessionHolders, hsplit]
      omega
    · simp [callHolders, hsplit]
  | taken f rest hchannel htaking =>
    refine { h with session := hsession.trans ?_, call := fun c => (h.call c).trans ?_ }
    · simp [sessionHolders, hchannel, htaking]
    · simp [callHolders, hchannel, htaking]
  | queued f htaking =>
    refine { h with session := hsession.trans ?_, call := fun c => (h.call c).trans ?_ }
    · simp [sessionHolders, htaking]
    · simp [callHolders, htaking]
  | started f htaking =>
    refine { h with session := hsession.trans ?_, call := fun c => (h.call c).trans ?_ }
    · simp [sessionHolders, htaking]
      omega
    · simp [callHolders, htaking, List.countP_cons]
      omega
  | polled l₁ l₂ f hsplit =>
    refine { h with session := hsession.trans ?_, call := fun c => (h.call c).trans ?_ }
    · simp [sessionHolders, hsplit, List.countP_cons]
    · simp [callHolders, hsplit, List.countP_cons]
  | finished l₁ l₂ f hsplit =>
    refine { h with
      session := hsession.trans ?_
      call := update_pred_eq h.call ?_ fun c hc => ?_
      call_le := update_pred_le h.call_le f.callId }
    · simp [sessionHolders, releaseCall, hsplit, List.countP_cons]
    · simp [callHolders, releaseCall, hsplit, ScheduledFrame.of]
      omega
    · simp [callHolders, releaseCall, hsplit, ScheduledFrame.of, hc.symm]
  | released l₁ l₂ f hsplit =>
    refine { h with
      session := ?_
      session_le := Nat.le_trans (Nat.sub_le _ _) h.session_le
      call := fun c => (h.call c).trans ?_ }
    · simp [hsession, sessionHolders, hsplit, List.countP_cons]
      omega
    · simp [callHolders, hsplit]
  | continued l₁ l₂ f g as bs hsplit hpending =>
    refine { h with session := hsession.trans ?_, call := fun c => (h.call c).trans ?_ }
    · simp [sessionHolders, hsplit, hpending]
      omega
    · simp [callHolders, hsplit, hpending, List.countP_cons]
      omega
  | deactivated l₁ l₂ f hsplit =>
    refine { h with session := hsession.trans ?_, call := fun c => (h.call c).trans ?_ }
    · simp [sessionHolders, hsplit]
    · simp [callHolders, hsplit]
  | cancelled haborted =>
    -- no call of `route` is left: the handle it would need is gone
    have hroutes : s.routes = [] := hclosing.no_routes (hclosing.aborted haborted)
    exact {
      session := by simp [cancel, sessionHolders, hroutes]
      session_le := Nat.zero_le _
      call := fun c => by simp [cancel, callHolders, hroutes]
      call_le := fun _ => Nat.zero_le _ }

/-- The frame in flight is the only one of its call there. -/
theorem OnePerCall.alone (h : s.OnePerCall) {l₁ l₂ : List (Flight F)} {f : Flight F}
    (hsplit : s.inFlight = l₁ ++ f :: l₂) :
    ∀ g ∈ l₁ ++ l₂, g.scheduled.callId ≠ f.scheduled.callId := by
  have hperm : s.active.Perm ((f :: (l₁ ++ l₂)).map (·.scheduled.callId)) :=
    h.active_perm.trans ((hsplit ▸ List.perm_middle).map _)
  have hnodup := hperm.nodup_iff.1 h.nodup
  rw [List.map_cons, List.nodup_cons] at hnodup
  intro g hg hcall
  exact hnodup.1 (hcall ▸ List.mem_map_of_mem hg)

theorem filter_of_eq_nil {l : List (ScheduledFrame F)} {c : Nat} (h : ∀ f ∈ l, f.callId ≠ c) :
    l.filter (ScheduledFrame.of c) = [] := by
  rw [List.filter_eq_nil_iff]
  intro f hf
  simpa [ScheduledFrame.of] using h f hf

/-- What is in flight and not polled yet, of one call. -/
theorem filter_of_spawned_eq_nil {l : List (Flight F)} {c : Nat}
    (h : ∀ f ∈ l, f.scheduled.callId ≠ c) :
    ((l.filter (·.phase == .spawned)).map (·.scheduled)).filter (ScheduledFrame.of c) = [] := by
  refine filter_of_eq_nil fun g hg => ?_
  obtain ⟨f, hf, rfl⟩ := List.mem_map.1 hg
  exact h f (List.mem_filter.1 hf).1

theorem Ordered.next (h : s.Ordered) (hone : s.OnePerCall) (hnext : s.Next s')
    (hrun : s'.task ≠ .cancelled) : s'.Ordered := by
  intro c
  have hc := h c
  cases hnext with
  | saturated | acquired | restaged | admitted | permitDropped | refused | closed | returned
  | dropped => exact hc
  | sent l₁ l₂ f hsplit =>
    simp only [unhanded, buffered, List.filter_append, ← List.append_assoc] at hc ⊢
    rw [hc]
  | taken f rest hchannel htaking =>
    simpa [unhanded, buffered, hchannel, htaking] using hc
  | queued f htaking =>
    simpa [unhanded, buffered, htaking] using hc
  | started f htaking hactive =>
    by_cases hcall : f.callId = c
    · -- a call that is not active has nothing in its queue
      have hpending : s.pending.filter (ScheduledFrame.of c) = [] :=
        filter_of_eq_nil fun a ha hac => hactive (hcall ▸ hac ▸ hone.pending_active a ha)
      simpa [unhanded, buffered, htaking, hpending, ScheduledFrame.of, hcall, List.filter_cons]
        using hc
    · simpa [unhanded, buffered, htaking, ScheduledFrame.of, hcall] using hc
  | polled l₁ l₂ f hsplit =>
    by_cases hcall : f.callId = c
    · subst hcall
      have halone := hone.alone hsplit
      have h₁ := filter_of_spawned_eq_nil fun g hg => halone g (List.mem_append_left l₂ hg)
      have h₂ := filter_of_spawned_eq_nil fun g hg => halone g (List.mem_append_right l₁ hg)
      simpa [unhanded, buffered, hsplit, ScheduledFrame.of, h₁, h₂] using hc
    · simpa [unhanded, buffered, hsplit, ScheduledFrame.of, hcall] using hc
  | finished l₁ l₂ f hsplit | released l₁ l₂ f hsplit | deactivated l₁ l₂ f hsplit =>
    simpa [unhanded, buffered, releaseCall, hsplit] using hc
  | continued l₁ l₂ f g as bs hsplit hpending hcall hfirst =>
    by_cases hgc : g.callId = c
    · have has : as.filter (ScheduledFrame.of c) = [] :=
        filter_of_eq_nil fun a ha => hgc ▸ hcall ▸ hfirst a ha
      simpa [unhanded, buffered, hsplit, hpending, has, ScheduledFrame.of, hgc, List.filter_cons]
        using hc
    · simpa [unhanded, buffered, hsplit, hpending, ScheduledFrame.of, hgc] using hc
  | cancelled => exact absurd rfl hrun

theorem Ordered.handed_first (h : s.Ordered) (c : Nat) :
    s.handed.filter (ScheduledFrame.of c) <+: s.accepted.filter (ScheduledFrame.of c) :=
  ⟨s.unhanded.filter (ScheduledFrame.of c), by rw [← h c, List.filter_append]⟩

theorem logs_of_cancelled (h : s.task = .cancelled) (hnext : s.Next s') :
    s'.task = .cancelled ∧ s'.handed = s.handed ∧ s'.accepted = s.accepted := by
  cases hnext with
  | saturated | acquired | restaged | admitted | permitDropped | refused | dropped =>
    exact ⟨h, rfl, rfl⟩
  | sent _ _ _ _ hrun | taken _ _ _ _ _ hrun | queued _ _ _ hrun | started _ _ _ hrun
  | closed _ _ _ hrun | polled _ _ _ _ hrun | finished _ _ _ _ hrun | released _ _ _ _ hrun
  | continued _ _ _ _ _ _ _ _ _ _ hrun | deactivated _ _ _ _ _ hrun | returned _ _ hrun
  | cancelled _ hrun => exact absurd (h.symm.trans hrun) (by decide)

/-- What holds in every state of a scheduler. -/
structure Sound (s : Scheduler F) : Prop where
  budgeted : s.Budgeted
  onePerCall : s.OnePerCall
  closing : s.Closing
  ordered : s.task ≠ .cancelled → s.Ordered
  handed_first : ∀ c,
    s.handed.filter (ScheduledFrame.of c) <+: s.accepted.filter (ScheduledFrame.of c)

theorem sound_spawn : (spawn : Scheduler F).Sound where
  budgeted := ⟨rfl, Nat.zero_le _, fun _ => rfl, fun _ => Nat.zero_le _⟩
  onePerCall := ⟨List.Perm.nil, List.nodup_nil, fun _ hf => nomatch hf⟩
  closing :=
    { no_routes := fun _ => rfl
      aborted := nofun
      closed := nofun
      returned := nofun }
  ordered := fun _ _ => rfl
  handed_first := fun _ => List.prefix_rfl

theorem Sound.next (h : s.Sound) (hnext : s.Next s') : s'.Sound := by
  have hordered : s.task ≠ .cancelled → s'.task ≠ .cancelled → s'.Ordered := fun hrun =>
    (h.ordered hrun).next h.onePerCall hnext
  refine ⟨h.budgeted.next h.closing hnext, h.onePerCall.next hnext, h.closing.next hnext, ?_, ?_⟩
  · intro hrun
    refine hordered (fun hcancelled => ?_) hrun
    exact hrun (logs_of_cancelled hcancelled hnext).1
  · intro c
    by_cases hs : s.task = .cancelled
    · obtain ⟨-, hhanded, haccepted⟩ := logs_of_cancelled hs hnext
      rw [hhanded, haccepted]
      exact h.handed_first c
    · by_cases hs' : s'.task = .cancelled
      · -- the step that cuts the task off leaves both logs
        cases hnext with
        | cancelled => exact h.handed_first c
        | _ => exact absurd hs' (by first | exact hs | simp)
      · exact (hordered hs hs').handed_first c

theorem sound_of_run {ops : List (SchedulerOp F)} (hrun : runSteps step spawn ops = some s) :
    s.Sound :=
  runSteps_preserves (fun _ _ _ (h : Sound _) hstep => h.next (next_of_step hstep)) sound_spawn hrun

end Invariants

end Scheduler

end EasyNetDaemon.Bidi
