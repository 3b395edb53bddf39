import EasyNetDaemon.Presence.PendingDispatch

/-!
# Reconnects and the work of the new session

An `Offline` event names a URA, and the watcher cancels every entry of this URA. A dispatch of a new
session is therefore cancelled by the `Offline` event of an old session if it registers while the
event is still on its way. If it registers after all `Offline` events of earlier sessions of its
target have taken effect, none of them ever touches it (`SparedInvariant`).
-/

namespace EasyNetDaemon.Presence

open Library

variable {U : Type} [DecidableEq U]

namespace Daemon

/-- When a dispatch registers, no `Offline` event of an earlier session of its target is on its way
to the watcher of the table. -/
def NoStaleOffline (s : Daemon U) : DaemonEvent U → Prop
  | .register i => ∀ l ∈ s.lookups[i]?,
    ∀ x ∈ s.registry.undelivered (s.tables l.kind).watcher, x.1 = l.targetUra → l.session ≤ x.2
  | _ => True

instance (s : Daemon U) : DecidablePred s.NoStaleOffline
  | .register i => inferInstanceAs (Decidable (∀ l ∈ s.lookups[i]?, ∀ x ∈ _, _ → _))
  | .registry _ | .lookup _ _ _ | .reply _ _ | .callerDrop _ _ | .chunk _ | .consume _ | .watch _ =>
    inferInstanceAs (Decidable True)

/-- No entry was taken out because of an `Offline` event of a session earlier than its own. -/
def SparesNewWork (s : Daemon U) : Prop :=
  ∀ kind, ∀ x ∈ (s.tables kind).finished, ∀ cause,
    x.2 = .targetOffline cause ∨ x.2 = .terminalLost cause → x.1.session ≤ cause

/-- No `Offline` event of an earlier session is about to reach an entry of the table, and none
has. -/
structure Spared (r : Registry U) (kind : TableKind) (t : PendingTable U) : Prop where
  undelivered : ∀ e ∈ t.entries, ∀ x ∈ r.undelivered t.watcher, x.1 = e.targetUra → e.session ≤ x.2
  cancelling : ∀ cursor session callIds, t.watcher = .cancelling cursor session callIds →
    ∀ id ∈ callIds, (∃ n < t.nextCallId, id = kind.callId n) ∧
      ∀ e ∈ t.entries, e.callId = id → e.session ≤ session
  finished : ∀ x ∈ t.finished, ∀ cause,
    x.2 = .targetOffline cause ∨ x.2 = .terminalLost cause → x.1.session ≤ cause

omit [DecidableEq U] in
theorem spared_new (r : Registry U) (kind : TableKind) : Spared r kind .new where
  undelivered := by simp [PendingTable.new]
  cancelling := by intro _ _ _ h; cases h
  finished := by simp [PendingTable.new]

section Table

omit [DecidableEq U]

variable {r : Registry U} {kind : TableKind} {t t' : PendingTable U}

theorem Spared.registry_step {r' : Registry U} {new : List (Emission U)} (h : Spared r kind t)
    (haged : ∀ e ∈ t.entries, r.Aged (e.targetUra, e.session)) (heffect : r.Effect r' new) :
    Spared r' kind t where
  undelivered := by
    intro e he x hx hura
    rcases heffect.undelivered hx with hx | ⟨slot, hrow, hsession, -⟩
    · exact h.undelivered e he x hx hura
    · -- a session that ends now was in the map, and no entry of the URA is younger
      rw [← hsession]
      exact (haged e he).2 slot (hura ▸ hrow)
  cancelling := h.cancelling
  finished := h.finished

theorem Spared.register (h : Spared r kind t) {targetUra : U} {session : Nat}
    (hstale : ∀ x ∈ r.undelivered t.watcher, x.1 = targetUra → session ≤ x.2) (lossless : Bool) :
    Spared r kind (t.register kind targetUra lossless session) where
  undelivered := by
    intro e he
    rcases List.mem_append.1 he with he | he
    · exact h.undelivered e he
    · rw [List.mem_singleton.1 he]
      exact hstale
  cancelling := by
    intro cursor session' callIds hwatcher id hid
    obtain ⟨⟨n, hn, hcall⟩, hold⟩ := h.cancelling cursor session' callIds hwatcher id hid
    refine ⟨⟨n, Nat.lt_succ_of_lt hn, hcall⟩, fun e he heq => ?_⟩
    rcases List.mem_append.1 he with he | he
    · exact hold e he heq
    · -- the new call id is not among those being cancelled
      rw [List.mem_singleton.1 he, hcall] at heq
      cases kind <;> simp only [TableKind.callId] at heq <;> omega
  finished := h.finished

/-- A step of a table that brings no new `Offline` event on its way. -/
theorem Spared.evolve {new : List (PendingEntry U × Outcome)} (h : Spared r kind t)
    (hevolves : t.Evolves t' new)
    (hundelivered : ∀ x ∈ r.undelivered t'.watcher, x ∈ r.undelivered t.watcher)
    (hcancelling : ∀ cursor session callIds, t'.watcher = .cancelling cursor session callIds →
      ∀ id ∈ callIds, (∃ n < t.nextCallId, id = kind.callId n) ∧
        ∀ e ∈ t.entries, e.callId = id → e.session ≤ session)
    (hnew : ∀ x ∈ new, ∀ cause,
      x.2 = .targetOffline cause ∨ x.2 = .terminalLost cause → x.1.session ≤ cause) :
    Spared r kind t' where
  undelivered := by
    intro e' he' x hx hura
    obtain ⟨e, he, hsame⟩ := hevolves.entries e' he'
    rw [← hsame.session]
    exact h.undelivered e he x (hundelivered x hx) (hura.trans hsame.targetUra.symm)
  cancelling := by
    intro cursor session callIds hwatcher id hid
    rw [hevolves.nextCallId]
    refine ⟨(hcancelling cursor session callIds hwatcher id hid).1, fun e' he' heq => ?_⟩
    obtain ⟨e, he, hsame⟩ := hevolves.entries e' he'
    rw [← hsame.session]
    exact (hcancelling cursor session callIds hwatcher id hid).2 e he (hsame.callId.trans heq)
  finished := by
    intro x hx
    rw [hevolves.finished] at hx
    rcases List.mem_append.1 hx with hx | hx
    · exact h.finished x hx
    · exact hnew x hx

/-- A step of the watcher that leaves the entries alone and is not about to cancel any. -/
theorem Spared.rewatch (h : Spared r kind t) {w : Watcher U}
    (hundelivered : ∀ x ∈ r.undelivered w, x ∈ r.undelivered t.watcher)
    (hw : ∀ cursor session callIds, w ≠ .cancelling cursor session callIds) :
    Spared r kind { t with watcher := w } :=
  h.evolve (PendingTable.evolves_of_entries_eq rfl rfl rfl) hundelivered
    (fun cursor session callIds hwatcher => absurd hwatcher (hw cursor session callIds))
    (by simp)

end Table

theorem Spared.watch {r : Registry U} {kind : TableKind} {t t' : PendingTable U} {capacity : Nat}
    (h : Spared r kind t) (hnumbered : t.Numbered kind)
    (hstep : PendingTable.WatchStep capacity r.emitted t t') : Spared r kind t' := by
  obtain ⟨new, hevolves, hnew⟩ := hstep.evolves hnumbered
  cases hstep with
  | start hwatcher =>
    refine h.rewatch ?_ (by simp)
    intro x hx
    rw [Registry.mem_undelivered] at hx ⊢
    exact Or.inr (Or.inr (by simpa [Watcher.held, Watcher.unread] using hx))
  | lag cursor hwatcher hlag =>
    refine h.rewatch ?_ (by simp)
    intro x hx
    rw [Registry.mem_undelivered] at hx ⊢
    exact Or.inr (Or.inr (by simpa [Watcher.held, Watcher.unread] using hx))
  | skip cursor x hwatcher hx hoffline =>
    refine h.rewatch ?_ (by simp)
    rw [hwatcher, Registry.undelivered_skip hx hoffline]
    exact fun _ => id
  | receive cursor x ura session hwatcher hx hoffline =>
    refine h.rewatch ?_ (by simp)
    rw [hwatcher, Registry.undelivered_receive hx hoffline]
    exact fun _ => id
  | collect cursor ura session hwatcher =>
    refine h.evolve (PendingTable.evolves_of_entries_eq rfl rfl rfl) ?_ ?_ (by simp)
    · intro x hx
      rw [hwatcher]
      exact List.mem_cons_of_mem _ hx
    · rintro _ _ _ ⟨⟩ id hid
      obtain ⟨e, he, rfl⟩ := List.mem_map.1 hid
      obtain ⟨he, hura⟩ := List.mem_filter.1 he
      refine ⟨hnumbered.given e he, fun e' he' heq => ?_⟩
      rw [hnumbered.eq_of_callId he' he heq]
      refine h.undelivered e he (ura, session) ?_ (of_decide_eq_true hura).symm
      rw [hwatcher]
      exact List.mem_cons_self
  | done cursor session hwatcher =>
    refine h.rewatch ?_ (by simp)
    intro x hx
    rw [hwatcher]
    exact hx
  | cancel cursor session callId rest hwatcher =>
    have hcancelling := h.cancelling cursor session (callId :: rest) hwatcher
    refine h.evolve hevolves ?_ ?_ ?_
    · intro x hx
      rw [hwatcher]
      exact hx
    · rintro _ _ _ ⟨⟩ id hid
      exact hcancelling id (List.mem_cons_of_mem _ hid)
    · intro x hx cause hcause
      obtain ⟨_, _, _, hcancel, houtcome⟩ := hnew x hx
      cases hwatcher.symm.trans hcancel
      have hsession : session = cause := by
        rw [houtcome] at hcause
        split at hcause <;> simpa using hcause
      exact hsession ▸
        (hcancelling _ List.mem_cons_self).2 x.1 (hevolves.left x hx) rfl

/-- Both tables spare the new session. -/
structure SparedInvariant (s : Daemon U) : Prop where
  wired : s.Wired
  tables : ∀ kind, Spared s.registry kind (s.tables kind)

/-- One step keeps the invariant, if it registers no dispatch ahead of a stale `Offline` event. -/
theorem SparedInvariant.step {capacity : Nat} {s s' : Daemon U} {e : DaemonEvent U}
    (h : s.SparedInvariant) (hstale : s.NoStaleOffline e) (hstep : s.step capacity e = some s') :
    s'.SparedInvariant := by
  refine ⟨h.wired.step hstep, ?_⟩
  cases step_of_eq_some hstep with
  | registry event r hr =>
    obtain ⟨new, heffect, -⟩ := Registry.effect_step h.wired.registry hr
    exact fun kind => (h.tables kind).registry_step (h.wired.entries kind) heffect
  | lookup l slot hrow hsession => exact h.tables
  | register i l hl =>
    exact forall_setTable (Spared s.registry) h.tables
      ((h.tables l.kind).register (hstale l hl) l.lossless)
  | unwatched _ kind t _ hunwatched =>
    obtain ⟨new, hevolves, hnew⟩ := hunwatched.evolves kind (h.wired.tables kind)
    refine forall_setTable (Spared s.registry) h.tables ((h.tables kind).evolve hevolves ?_ ?_ ?_)
    · rw [hunwatched.watcher]
      exact fun _ => id
    · rw [hunwatched.watcher]
      exact (h.tables kind).cancelling
    · intro x hx cause hcause
      exact absurd hcause (not_or.2 (hnew x hx cause))
  | watch kind t hwatch =>
    exact forall_setTable (Spared s.registry) h.tables
      ((h.tables kind).watch (h.wired.tables kind) hwatch)

/-- In a run in which every dispatch registers after the `Offline` events of earlier sessions of its
target have taken effect, no entry is taken out because of an earlier session. -/
theorem new_work_survives_reconnect {capacity : Nat} {events : List (DaemonEvent U)} {s : Daemon U}
    (hrun : runSteps (step capacity) (new : Daemon U) events = some s)
    (hstale : AllSteps (step capacity) NoStaleOffline (new : Daemon U) events) :
    s.SparesNewWork := by
  have hinvariant : s.SparedInvariant :=
    hstale.invariant (fun _ _ _ h hs hstep => h.step hs hstep) ⟨wired_new, spared_new _⟩ hrun
  exact fun kind => (hinvariant.tables kind).finished

/-- The camera reconnects; the watcher has handled the old session's `Offline` event when a call to
the new session registers. The new session then ends, and the call with it. -/
def sampleReconnect : List (DaemonEvent String) :=
  [.watch .unary, .registry (.insert "cam" (.dispatch none)), .registry (.install 0),
    .registry (.emit 0), .registry (.insert "cam" (.dispatch none)), .registry (.install 1),
    .registry (.emit 1), .registry (.emit 1), .watch .unary, .watch .unary, .watch .unary,
    .watch .unary, .lookup .unary "cam" false, .register 0,
    .registry (.removeIfSession "cam" 2 .streamClosed), .registry (.emit 2), .watch .unary,
    .watch .unary, .watch .unary, .watch .unary]

theorem new_work_survives_reconnect_sampleReconnect :
    ∃ s,
      runSteps (step presenceEventChannelCapacity) (new : Daemon String) sampleReconnect = some s ∧
      AllSteps (step presenceEventChannelCapacity) NoStaleOffline (new : Daemon String)
        sampleReconnect ∧
      (s.tables .unary).finished.map (·.2) = [.targetOffline 1] ∧ s.SparesNewWork := by
  have hstale : AllSteps (step presenceEventChannelCapacity) NoStaleOffline (new : Daemon String)
      sampleReconnect := by
    decide +kernel
  exact ⟨_, rfl, hstale, by decide +kernel, new_work_survives_reconnect rfl hstale⟩

/-- The camera reconnects, and a call to the new session registers before the watcher receives the
old session's `Offline` event. -/
def staleOffline : List (DaemonEvent String) :=
  [.watch .unary, .registry (.insert "cam" (.dispatch none)), .registry (.install 0),
    .registry (.emit 0), .registry (.insert "cam" (.dispatch none)), .registry (.install 1),
    .registry (.emit 1), .registry (.emit 1), .lookup .unary "cam" false, .register 0,
    .watch .unary, .watch .unary, .watch .unary, .watch .unary]

theorem new_work_cancelled_by_old_session :
    ∃ s, runSteps (step presenceEventChannelCapacity) (new : Daemon String) staleOffline = some s ∧
      (s.registry.byUra "cam").map PresenceSlot.session = some 1 ∧
      (s.tables .unary).finished.map (fun x => (x.1.session, x.2)) = [(1, .targetOffline 0)] :=
  ⟨_, rfl, by decide +kernel, by decide +kernel⟩

end Daemon

end EasyNetDaemon.Presence
