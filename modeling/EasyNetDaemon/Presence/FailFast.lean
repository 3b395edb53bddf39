import EasyNetDaemon.Presence.PendingDispatch

/-!
# Fail-fast cancellation

A pending dispatch whose session has ended is completed by the watcher of its table, provided that
the watcher gets to see the session's `Offline` event (`Attended`): it listens when the event is
emitted and does not fall behind by more than the channel holds, the dispatch did not register after
the event was handled, and the terminal event fits into the stream's channel. Then every entry is
accounted for at every moment (`Attentive`): its session is in the map, the `Offline` event is on
its way, or the watcher is about to cancel it. A watcher that has fallen behind returns, and nothing
is cancelled any more.
-/

namespace EasyNetDaemon.Presence

open Library

variable {U : Type}

/-- The position of a watcher that listens. -/
def Watcher.cursor? : Watcher U → Option Nat
  | .waiting cursor | .handling cursor _ _ | .cancelling cursor _ _ => some cursor
  | .starting | .stopped => none

/-- The call ids that the watcher is about to cancel. -/
def Watcher.toCancel : Watcher U → List Nat
  | .cancelling _ _ callIds => callIds
  | _ => []

/-- The session is the one in the map. -/
def Registry.Live (r : Registry U) (x : U × Nat) : Prop :=
  (r.byUra x.1).map PresenceSlot.session = some x.2

instance (r : Registry U) (x : U × Nat) : Decidable (r.Live x) :=
  inferInstanceAs (Decidable (_ = _))

theorem Registry.live_or_ended {r r' : Registry U} {x : U × Nat} (h : r.Live x) :
    r'.Live x ∨ r.Ended r' x := by
  obtain ⟨slot, hslot, hsession⟩ := Option.map_eq_some_iff.1 h
  by_cases hstays : r'.byUra x.1 = some slot
  · exact Or.inl (by rw [Live, hstays]; exact congrArg some hsession)
  · exact Or.inr ⟨slot, hslot, hsession, hstays⟩

variable {x : U × Nat} {w : Watcher U} {cursor : Nat}

theorem Registry.Ended.live {r r' : Registry U} (h : r.Ended r' x) : r.Live x := by
  obtain ⟨slot, hslot, hsession, -⟩ := h
  rw [Live, hslot]
  exact congrArg some hsession

namespace Daemon

/-- The watchers get to act on every session that ends: an `Offline` event is emitted when both
watchers listen, and no event when a watcher that listens has `capacity` events ahead of it; a
dispatch registers when its session is in the map or its `Offline` event is on its way; and a stream
that is cancelled has room for the terminal event. -/
def Attended (capacity : Nat) (s : Daemon U) : DaemonEvent U → Prop
  | .registry (.emit i) => ∀ kind ∈ [TableKind.unary, .stream],
    ((s.tables kind).watcher.cursor?.any fun cursor =>
      s.registry.emitted.length - cursor < capacity) ∨
    (s.tables kind).watcher.cursor? = none ∧ (s.registry.next i).bind Emission.offline? = none
  | .register i => ∀ l ∈ s.lookups[i]?, s.registry.Live (l.targetUra, l.session) ∨
    (l.targetUra, l.session) ∈ s.registry.undelivered (s.tables l.kind).watcher
  | .watch kind => ∀ callId ∈ (s.tables kind).watcher.toCancel.head?,
    ∀ e ∈ (s.tables kind).entryOf callId, e.hasRoom = true
  | _ => True

instance [DecidableEq U] (capacity : Nat) (s : Daemon U) : DecidablePred (s.Attended capacity)
  | .registry (.emit _) => inferInstanceAs (Decidable (∀ kind ∈ _, _ ∨ _))
  | .register i => inferInstanceAs (Decidable (∀ l ∈ s.lookups[i]?, _ ∨ _))
  | .watch _ => inferInstanceAs (Decidable (∀ callId ∈ _, ∀ e ∈ _, _))
  | .registry (.insert _ _) | .registry (.install _) | .registry (.remove _ _)
  | .registry (.removeIfSession _ _ _) | .registry (.forceRevoke _)
  | .registry (.forceRevokeIfAdmittedKey _ _) | .lookup _ _ _ | .reply _ _ | .callerDrop _ _
  | .chunk _ | .consume _ => inferInstanceAs (Decidable True)

/-- The watcher of a table keeps up, and every entry is accounted for. -/
structure Attentive (capacity : Nat) (r : Registry U) (t : PendingTable U) : Prop where
  running : t.watcher ≠ .stopped
  keepsUp : ∀ cursor ∈ t.watcher.cursor?,
    cursor ≤ r.emitted.length ∧ r.emitted.length - cursor ≤ capacity
  accounted : ∀ e ∈ t.entries, r.Live (e.targetUra, e.session) ∨
    (e.targetUra, e.session) ∈ r.undelivered t.watcher ∨ e.callId ∈ t.watcher.toCancel
  delivered : ∀ x ∈ t.finished, ∀ cause, x.2 ≠ .terminalLost cause

theorem attentive_new (capacity : Nat) : Attentive capacity (.new : Registry U) .new where
  running := nofun
  keepsUp := by simp [PendingTable.new, Watcher.cursor?]
  accounted := by simp [PendingTable.new]
  delivered := by simp [PendingTable.new]

end Daemon

/-- A watcher that listens has every new event ahead of it; the others miss no `Offline` event. -/
theorem Watcher.offlines_unread_append {emitted new : List (Emission U)}
    (hcursor : ∀ cursor ∈ w.cursor?, cursor ≤ emitted.length)
    (hnew : new.filterMap Emission.offline? = [] ∨ w.cursor?.isSome) :
    (w.unread (emitted ++ new)).filterMap Emission.offline? =
      (w.unread emitted).filterMap Emission.offline? ++ new.filterMap Emission.offline? := by
  cases w with
  | waiting cursor | handling cursor _ _ | cancelling cursor _ _ =>
    rw [← List.filterMap_append]
    exact congrArg _ (List.drop_append_of_le_length (hcursor cursor rfl))
  | starting | stopped =>
    rw [hnew.resolve_right (by simp [cursor?])]
    rfl

/-- For a watcher that listens, what was on its way stays so, and what ends now gets on its way. -/
theorem Registry.Effect.mem_undelivered {r r' : Registry U} {new : List (Emission U)}
    (h : r.Effect r' new) (hcursor : ∀ cursor ∈ w.cursor?, cursor ≤ r.emitted.length)
    (hnew : new.filterMap Emission.offline? = [] ∨ w.cursor?.isSome)
    (hx : x ∈ r.undelivered w ∨ r.Ended r' x) : x ∈ r'.undelivered w := by
  rw [Registry.mem_undelivered] at hx ⊢
  rw [h.emitted, Watcher.offlines_unread_append hcursor hnew, List.mem_append]
  have hout : x ∈ r.pendingOfflines ∨ r.Ended r' x →
      x ∈ new.filterMap Emission.offline? ∨ x ∈ r'.pendingOfflines := (h.offlines x).2
  tauto

namespace Daemon

variable {capacity : Nat} {r : Registry U} {t t' : PendingTable U}

theorem Attentive.registry_step {r' : Registry U} {new : List (Emission U)}
    (h : Attentive capacity r t) (heffect : r.Effect r' new)
    (hnew : new = [] ∨ ∃ x, new = [x] ∧
      ((t.watcher.cursor?.any fun cursor => r.emitted.length - cursor < capacity) ∨
        t.watcher.cursor? = none ∧ x.offline? = none)) :
    Attentive capacity r' t := by
  have hlisten : new.filterMap Emission.offline? = [] ∨ t.watcher.cursor?.isSome := by
    rcases hnew with rfl | ⟨x, rfl, hroom | ⟨-, honline⟩⟩
    · exact Or.inl rfl
    · obtain ⟨hsome, -⟩ := (Option.any_eq_true_iff_get _ _).1 hroom
      exact Or.inr hsome
    · exact Or.inl (by simp [honline])
  have hcursor : ∀ cursor ∈ t.watcher.cursor?, cursor ≤ r.emitted.length :=
    fun cursor hc => (h.keepsUp cursor hc).1
  refine ⟨h.running, ?_, ?_, h.delivered⟩
  · intro cursor hc
    have hold := h.keepsUp cursor hc
    rw [heffect.emitted, List.length_append]
    rw [Option.mem_def] at hc
    rcases hnew with rfl | ⟨x, rfl, hroom | ⟨hnone, -⟩⟩
    · simpa using hold
    · have hroom : r.emitted.length - cursor < capacity := by simpa [hc] using hroom
      rw [List.length_singleton]
      omega
    · rw [hc] at hnone
      cases hnone
  · intro e he
    rcases h.accounted e he with hlive | hundelivered | hcancel
    · rcases @Registry.live_or_ended _ r r' _ hlive with hlive | hended
      · exact Or.inl hlive
      · exact Or.inr (Or.inl (heffect.mem_undelivered hcursor hlisten (Or.inr hended)))
    · exact Or.inr (Or.inl (heffect.mem_undelivered hcursor hlisten (Or.inl hundelivered)))
    · exact Or.inr (Or.inr hcancel)

theorem Attentive.register {kind : TableKind} {targetUra : U} {session : Nat}
    (h : Attentive capacity r t)
    (hentry : r.Live (targetUra, session) ∨ (targetUra, session) ∈ r.undelivered t.watcher)
    (lossless : Bool) : Attentive capacity r (t.register kind targetUra lossless session) := by
  refine ⟨h.running, h.keepsUp, ?_, h.delivered⟩
  intro e he
  rcases List.mem_append.1 he with he | he
  · exact h.accounted e he
  · rw [List.mem_singleton.1 he]
    exact hentry.imp_right Or.inl

/-- A step of a table: the entries that remain are accounted for by the watcher's new state. -/
theorem Attentive.evolve {new : List (PendingEntry U × Outcome)} (h : Attentive capacity r t)
    (hevolves : t.Evolves t' new) (hrunning : t'.watcher ≠ .stopped)
    (hkeepsUp : ∀ cursor ∈ t'.watcher.cursor?,
      cursor ≤ r.emitted.length ∧ r.emitted.length - cursor ≤ capacity)
    (haccounted : ∀ e' ∈ t'.entries, (e'.targetUra, e'.session) ∈ r.undelivered t.watcher ∨
      e'.callId ∈ t.watcher.toCancel → (e'.targetUra, e'.session) ∈ r.undelivered t'.watcher ∨
      e'.callId ∈ t'.watcher.toCancel)
    (hnew : ∀ x ∈ new, ∀ cause, x.2 ≠ .terminalLost cause) : Attentive capacity r t' := by
  refine ⟨hrunning, hkeepsUp, ?_, ?_⟩
  · intro e' he'
    obtain ⟨e, he, hsame⟩ := hevolves.entries e' he'
    have haccount := h.accounted e he
    rw [hsame.targetUra, hsame.session, hsame.callId] at haccount
    exact haccount.imp_right (haccounted e' he')
  · intro x hx
    rw [hevolves.finished] at hx
    rcases List.mem_append.1 hx with hx | hx
    · exact h.delivered x hx
    · exact hnew x hx

/-- A step of the watcher that leaves the entries alone. -/
theorem Attentive.rewatch (h : Attentive capacity r t) (hw : w.cursor? = some cursor)
    (hcursor : cursor ≤ r.emitted.length ∧ r.emitted.length - cursor ≤ capacity)
    (haccounted : ∀ e ∈ t.entries, (e.targetUra, e.session) ∈ r.undelivered t.watcher ∨
      e.callId ∈ t.watcher.toCancel → (e.targetUra, e.session) ∈ r.undelivered w ∨
      e.callId ∈ w.toCancel) :
    Attentive capacity r { t with watcher := w } := by
  refine h.evolve (PendingTable.evolves_of_entries_eq rfl rfl rfl) ?_ ?_ haccounted (by simp)
  · rintro rfl
    cases hw
  · intro cursor' hcursor'
    cases hw.symm.trans hcursor'
    exact hcursor

theorem Attentive.watch [DecidableEq U] {kind : TableKind} (h : Attentive capacity r t)
    (hnumbered : t.Numbered kind)
    (hroom : ∀ callId ∈ t.watcher.toCancel.head?, ∀ e ∈ t.entryOf callId, e.hasRoom = true)
    (hstep : PendingTable.WatchStep capacity r.emitted t t') : Attentive capacity r t' := by
  obtain ⟨new, hevolves, hnew⟩ := hstep.evolves hnumbered
  cases hstep with
  | start hwatcher =>
    refine h.rewatch rfl (by simp) fun e he haccount => ?_
    rw [hwatcher] at haccount
    simpa [Registry.mem_undelivered, Watcher.held, Watcher.unread, Watcher.toCancel] using haccount
  | lag cursor hwatcher hlag =>
    have hkeeps := (h.keepsUp cursor (by rw [hwatcher]; rfl)).2
    exact absurd hlag (Nat.not_lt.2 hkeeps)
  | skip cursor x hwatcher hx hoffline =>
    have hkeeps := h.keepsUp cursor (by rw [hwatcher]; rfl)
    have hlt := (List.getElem?_eq_some_iff.1 hx).1
    refine h.rewatch rfl ⟨hlt, by omega⟩ fun e he haccount => ?_
    rw [hwatcher, Registry.undelivered_skip hx hoffline] at haccount
    exact haccount
  | receive cursor x ura session hwatcher hx hoffline =>
    have hkeeps := h.keepsUp cursor (by rw [hwatcher]; rfl)
    have hlt := (List.getElem?_eq_some_iff.1 hx).1
    refine h.rewatch rfl ⟨hlt, by omega⟩ fun e he haccount => ?_
    rw [hwatcher, Registry.undelivered_receive hx hoffline] at haccount
    exact haccount
  | collect cursor ura session hwatcher =>
    refine h.rewatch rfl (h.keepsUp cursor (by rw [hwatcher]; rfl)) fun e he haccount => ?_
    rw [hwatcher] at haccount
    rcases haccount with hundelivered | hcancel
    · -- the event that is handled now makes its entries the ones to cancel
      rcases List.mem_cons.1 hundelivered with hheld | hlater
      · right
        refine List.mem_map_of_mem (List.mem_filter.2 ⟨he, ?_⟩)
        exact decide_eq_true (congrArg Prod.fst hheld)
      · exact Or.inl hlater
    · cases hcancel
  | done cursor session hwatcher =>
    refine h.rewatch rfl (h.keepsUp cursor (by rw [hwatcher]; rfl)) fun e he haccount => ?_
    rw [hwatcher] at haccount
    rcases haccount with hundelivered | hcancel
    · exact Or.inl hundelivered
    · cases hcancel
  | cancel cursor session callId rest hwatcher =>
    refine h.evolve hevolves (by simp) ?_ ?_ ?_
    · have hkeeps := h.keepsUp
      rw [hwatcher] at hkeeps
      exact hkeeps
    · intro e' he' haccount
      rw [hwatcher] at haccount
      refine haccount.imp_right fun hmem => ?_
      rcases List.mem_cons.1 hmem with hid | hmem
      · exact absurd hid (PendingTable.callId_ne_of_mem_finish he')
      · exact hmem
    · intro x hx cause hlost
      obtain ⟨_, _, _, hcancel, houtcome⟩ := hnew x hx
      rw [hcancel] at hroom
      have hentry := hnumbered.entryOf_eq_some (hevolves.left x hx)
      rw [hlost, if_pos (hroom _ rfl x.1 hentry)] at houtcome
      cases houtcome

/-- Both tables are attended to. -/
structure AttentiveInvariant (capacity : Nat) (s : Daemon U) : Prop where
  wired : s.Wired
  tables : ∀ kind, Attentive capacity s.registry (s.tables kind)

theorem attentiveInvariant_new (capacity : Nat) : AttentiveInvariant capacity (new : Daemon U) :=
  ⟨wired_new, fun _ => attentive_new capacity⟩

variable [DecidableEq U]

theorem AttentiveInvariant.step {s s' : Daemon U} {e : DaemonEvent U}
    (h : AttentiveInvariant capacity s) (hattended : s.Attended capacity e)
    (hstep : s.step capacity e = some s') : AttentiveInvariant capacity s' := by
  refine ⟨h.wired.step hstep, ?_⟩
  cases step_of_eq_some hstep with
  | registry event r hr =>
    obtain ⟨new, heffect, hnew⟩ := Registry.effect_step h.wired.registry hr
    intro kind
    refine (h.tables kind).registry_step heffect (hnew.imp_right ?_)
    rintro ⟨i, x, rfl, hx, rfl⟩
    refine ⟨x, rfl, (hattended kind (by cases kind <;> decide)).imp_right fun hmiss => ?_⟩
    rw [hx] at hmiss
    exact hmiss
  | lookup l slot hrow hsession => exact h.tables
  | register i l hl =>
    exact forall_setTable (fun _ => Attentive capacity s.registry) h.tables
      ((h.tables l.kind).register (hattended l hl) l.lossless)
  | unwatched _ kind t _ hunwatched =>
    obtain ⟨new, hevolves, hnew⟩ := hunwatched.evolves kind (h.wired.tables kind)
    have htable := h.tables kind
    refine forall_setTable (fun _ => Attentive capacity s.registry) h.tables
      (htable.evolve hevolves ?_ ?_ ?_ fun x hx cause => (hnew x hx cause).2)
    · rw [hunwatched.watcher]
      exact htable.running
    · rw [hunwatched.watcher]
      exact htable.keepsUp
    · rw [hunwatched.watcher]
      exact fun _ _ => id
  | watch kind t hwatch =>
    exact forall_setTable (fun _ => Attentive capacity s.registry) h.tables
      ((h.tables kind).watch (h.wired.tables kind) hattended hwatch)

end Daemon

/-! ## The watcher runs -/

section Progress

variable [DecidableEq U] {capacity : Nat} {emitted : List (Emission U)} {t : PendingTable U}

/-- The watcher alone gets from one table to another. -/
def PendingTable.Watches (capacity : Nat) (emitted : List (Emission U)) :
    PendingTable U → PendingTable U → Prop :=
  Relation.ReflTransGen fun t t' => t.watch capacity emitted = some t'

theorem PendingTable.watches_of_cancelling {cursor session : Nat} {callIds : List Nat}
    (h : t.watcher = .cancelling cursor session callIds) :
    ∃ t', Watches capacity emitted t t' ∧ t'.watcher = .waiting cursor := by
  induction callIds generalizing t with
  | nil =>
    refine ⟨{ t with watcher := .waiting cursor }, .single ?_, rfl⟩
    simp only [watch, h]
  | cons callId rest ih =>
    obtain ⟨t', hrest, hwaiting⟩ :=
      @ih { t.cancelOne callId session with watcher := .cancelling cursor session rest } rfl
    refine ⟨t', .head ?_ hrest, hwaiting⟩
    simp only [watch, h]

/-- A watcher with at most `capacity` events ahead of it handles them all. -/
theorem PendingTable.watches_of_waiting {cursor : Nat} (h : t.watcher = .waiting cursor)
    (hcursor : cursor ≤ emitted.length) (hcapacity : emitted.length - cursor ≤ capacity) :
    ∃ t', Watches capacity emitted t t' ∧ t'.watcher = .waiting emitted.length := by
  induction hahead : emitted.length - cursor generalizing t cursor with
  | zero =>
    have hend : cursor = emitted.length := by omega
    exact ⟨t, .refl, hend ▸ h⟩
  | succ n ih =>
    have hlt : cursor < emitted.length := by omega
    have hlag : ¬ capacity < emitted.length - cursor := Nat.not_lt.2 hcapacity
    have hevent : emitted[cursor]? = some emitted[cursor] := List.getElem?_eq_getElem hlt
    obtain ⟨event, session, hx⟩ : ∃ event session, emitted[cursor]? = some ⟨event, session⟩ :=
      ⟨_, _, hevent⟩
    cases event with
    | online ura =>
      obtain ⟨t', hrest, hwaiting⟩ := @ih { t with watcher := .waiting (cursor + 1) } _ rfl hlt
        (by omega) (by omega)
      refine ⟨t', .head ?_ hrest, hwaiting⟩
      simp only [watch, h, if_neg hlag, hx]
    | offline ura reason =>
      -- receive the event, collect its entries, cancel them, and go on with the next event
      obtain ⟨t₁, hcancel, hwaiting₁⟩ := @watches_of_cancelling _ _ capacity emitted
        { t with
          watcher := .cancelling (cursor + 1) session
            ((t.entries.filter fun entry => entry.targetUra = ura).map (·.callId)) } _ _ _ rfl
      obtain ⟨t', hrest, hwaiting⟩ := ih hwaiting₁ hlt (by omega) (by omega)
      have hreceive : t.watch capacity emitted =
          some { t with watcher := .handling (cursor + 1) ura session } := by
        simp only [watch, h, if_neg hlag, hx]
      exact ⟨t', .head hreceive (.head rfl (hcancel.trans hrest)), hwaiting⟩

theorem Daemon.Attentive.watches {r : Registry U} (h : Daemon.Attentive capacity r t) :
    ∃ t', PendingTable.Watches capacity r.emitted t t' ∧
      t'.watcher = .waiting r.emitted.length := by
  cases hwatcher : t.watcher with
  | starting =>
    refine ⟨{ t with watcher := .waiting r.emitted.length }, .single ?_, rfl⟩
    simp only [PendingTable.watch, hwatcher]
  | waiting cursor =>
    obtain ⟨hcursor, hcapacity⟩ := h.keepsUp cursor (by rw [hwatcher]; rfl)
    exact PendingTable.watches_of_waiting hwatcher hcursor hcapacity
  | handling cursor ura session =>
    obtain ⟨hcursor, hcapacity⟩ := h.keepsUp cursor (by rw [hwatcher]; rfl)
    obtain ⟨t₁, hcancel, hwaiting₁⟩ := @PendingTable.watches_of_cancelling _ _ capacity r.emitted
      { t with
        watcher := .cancelling cursor session
          ((t.entries.filter fun entry => entry.targetUra = ura).map (·.callId)) } _ _ _ rfl
    obtain ⟨t', hrest, hwaiting⟩ := PendingTable.watches_of_waiting hwaiting₁ hcursor hcapacity
    refine ⟨t', .head ?_ (hcancel.trans hrest), hwaiting⟩
    simp only [PendingTable.watch, hwatcher]
  | cancelling cursor session callIds =>
    obtain ⟨hcursor, hcapacity⟩ := h.keepsUp cursor (by rw [hwatcher]; rfl)
    obtain ⟨t₁, hcancel, hwaiting₁⟩ := PendingTable.watches_of_cancelling hwatcher
    obtain ⟨t', hrest, hwaiting⟩ := PendingTable.watches_of_waiting hwaiting₁ hcursor hcapacity
    exact ⟨t', hcancel.trans hrest, hwaiting⟩
  | stopped => exact absurd hwatcher h.running

/-- The watcher's steps as steps of the daemon. -/
theorem Daemon.watches_setTable {s : Daemon U} {kind : TableKind} {t t' : PendingTable U}
    (h : PendingTable.Watches capacity s.registry.emitted t t') :
    Relation.ReflTransGen (fun a b => step capacity a (.watch kind) = some b) (s.setTable kind t)
      (s.setTable kind t') := by
  have hone : ∀ a b, a.watch capacity s.registry.emitted = some b →
      step capacity (s.setTable kind a) (.watch kind) = some (s.setTable kind b) := by
    intro a b hab
    have hregistry : (s.setTable kind a).registry = s.registry := rfl
    have htable : (s.setTable kind a).tables kind = a := by simp [setTable]
    simp only [step, hregistry, htable, hab, Option.map_some, Option.some.injEq]
    simp [setTable]
  exact Relation.ReflTransGen.lift (s.setTable kind) hone _ _ h

end Progress

/-! ## Entries of ended sessions -/

namespace Daemon

/-- The session has ended, its `Offline` event was emitted, and none of the events from position `n`
on is about it. -/
structure Gone (r : Registry U) (n : Nat) (x : U × Nat) : Prop where
  numbered : x.2 < r.installs
  notLive : ¬ r.Live x
  notPending : x ∉ r.pendingOfflines
  length : n ≤ r.emitted.length
  notLater : x ∉ (r.emitted.drop n).filterMap Emission.offline?

theorem Gone.registry_step {r r' : Registry U} {n : Nat} {new : List (Emission U)}
    (h : Gone r n x) (heffect : r.Effect r' new) : Gone r' n x := by
  have hout : ¬ (x ∈ r.pendingOfflines ∨ r.Ended r' x) :=
    not_or.2 ⟨h.notPending, fun hended => h.notLive hended.live⟩
  have hnone := mt (heffect.offlines x).1 hout
  refine ⟨h.numbered.trans_le heffect.installs, ?_, fun hp => hnone (Or.inr hp), ?_, ?_⟩
  · intro hlive
    obtain ⟨slot, hslot, hsession⟩ := Option.map_eq_some_iff.1 hlive
    rcases heffect.rows x.1 slot hslot with hold | hnew
    · exact h.notLive (by rw [Registry.Live, hold]; exact congrArg some hsession)
    · exact absurd h.numbered (by omega)
  · rw [heffect.emitted, List.length_append]
    exact h.length.trans (Nat.le_add_right _ _)
  · rw [heffect.emitted, List.drop_append_of_le_length h.length, List.filterMap_append,
      List.mem_append]
    exact not_or.2 ⟨h.notLater, fun hnew => hnone (Or.inl hnew)⟩

variable [DecidableEq U] {capacity : Nat}

theorem Gone.step {s s' : Daemon U} {e : DaemonEvent U} {n : Nat} {x : U × Nat} (hwired : s.Wired)
    (h : Gone s.registry n x) (hstep : s.step capacity e = some s') : Gone s'.registry n x := by
  cases step_of_eq_some hstep with
  | registry event r hr =>
    obtain ⟨new, heffect, -⟩ := Registry.effect_step hwired.registry hr
    exact h.registry_step heffect
  | lookup | register | unwatched | watch => exact h

/-- The entry of a dispatch is in the table, or it has left with an outcome of a given kind. -/
def Tracked (P : Outcome → Prop) (t : PendingTable U) (e : PendingEntry U) : Prop :=
  (∃ e' ∈ t.entries, e.Same e') ∨ ∃ x ∈ t.finished, e.Same x.1 ∧ P x.2

omit [DecidableEq U] in
theorem Tracked.evolve {P : Outcome → Prop} {t t' : PendingTable U} {e : PendingEntry U}
    {new : List (PendingEntry U × Outcome)} (h : Tracked P t e) (hevolves : t.Evolves t' new)
    (hnew : ∀ x ∈ new, P x.2) : Tracked P t' e := by
  rcases h with ⟨e', he', hsame⟩ | ⟨x, hx, hsame, hP⟩
  · rcases hevolves.kept e' he' with ⟨e'', he'', hsame'⟩ | ⟨x, hx, rfl⟩
    · exact Or.inl ⟨e'', he'', hsame.trans hsame'⟩
    · refine Or.inr ⟨x, ?_, hsame, hnew x hx⟩
      rw [hevolves.finished]
      exact List.mem_append_right _ hx
  · refine Or.inr ⟨x, ?_, hsame, hP⟩
    rw [hevolves.finished]
    exact List.mem_append_left _ hx

theorem Tracked.step {P : Outcome → Prop} {s s' : Daemon U} {e : DaemonEvent U} {kind : TableKind}
    {entry : PendingEntry U} (hwired : s.Wired) (h : Tracked P (s.tables kind) entry)
    (hsettles : e.settles = true → ∀ outcome, P outcome)
    (hcancel : ∀ cause, P (.targetOffline cause) ∧ P (.terminalLost cause))
    (hstep : s.step capacity e = some s') : Tracked P (s'.tables kind) entry := by
  have htable : ∀ kind' t, (kind' = kind → Tracked P t entry) →
      Tracked P ((s.setTable kind' t).tables kind) entry := by
    intro kind' t ht
    by_cases hkind : kind = kind'
    · subst hkind
      simpa [setTable] using ht rfl
    · simpa [setTable, Function.update_of_ne hkind] using h
  cases step_of_eq_some hstep with
  | registry | lookup => exact h
  | register i l hl =>
    refine htable l.kind _ ?_
    rintro rfl
    rcases h with ⟨e', he', hsame⟩ | hfinished
    · exact Or.inl ⟨e', List.mem_append_left _ he', hsame⟩
    · exact Or.inr hfinished
  | unwatched _ kind' t hevent hunwatched =>
    refine htable kind' t ?_
    rintro rfl
    obtain ⟨new, hevolves, -⟩ := hunwatched.evolves kind' (hwired.tables kind')
    exact h.evolve hevolves fun x _ => hsettles hevent x.2
  | watch kind' t hwatch =>
    refine htable kind' t ?_
    rintro rfl
    obtain ⟨new, hevolves, hnew⟩ := hwatch.evolves (hwired.tables kind')
    refine h.evolve hevolves fun x hx => ?_
    obtain ⟨_, session, _, -, houtcome⟩ := hnew x hx
    rw [houtcome]
    split
    · exact (hcancel session).1
    · exact (hcancel session).2

/-- Fail-fast cancellation on one table: the watcher runs; by itself it handles everything that was
emitted; and once it has, whatever else happened meanwhile, every entry of a session whose `Offline`
event was emitted is gone. It was completed with `target_offline`, unless its reply, its caller or
its full channel had taken it out before. -/
structure FailsFast (capacity : Nat) (s : Daemon U) (kind : TableKind) : Prop where
  running : (s.tables kind).watcher ≠ .stopped
  progress : ∃ s' cursor,
    Relation.ReflTransGen (fun a b => a.step capacity (.watch kind) = some b) s s' ∧
      (s'.tables kind).watcher = .waiting cursor ∧ s.registry.emitted.length ≤ cursor
  completes : ∀ events s' cursor, runSteps (step capacity) s events = some s' →
    AllSteps (step capacity) (Attended capacity) s events →
    (s'.tables kind).watcher = .waiting cursor → s.registry.emitted.length ≤ cursor →
    ∀ e ∈ (s.tables kind).entries, ¬ s.registry.Live (e.targetUra, e.session) →
      (e.targetUra, e.session) ∉ s.registry.pendingOfflines →
      (∀ e' ∈ (s'.tables kind).entries, ¬ e.Same e') ∧
      ∃ x ∈ (s'.tables kind).finished, e.Same x.1 ∧ (∀ cause, x.2 ≠ .terminalLost cause) ∧
        ((∀ event ∈ events, event.settles = false) → ∃ cause, x.2 = .targetOffline cause)

omit [DecidableEq U] in
/-- An entry that is not accounted for any more: the watcher has got past the `Offline` event of its
session. -/
theorem AttentiveInvariant.not_pending {s : Daemon U} (h : AttentiveInvariant capacity s)
    {kind : TableKind} {n : Nat} {e : PendingEntry U}
    (hgone : Gone s.registry n (e.targetUra, e.session))
    (hwatcher : (s.tables kind).watcher = .waiting cursor) (hcursor : n ≤ cursor) :
    ∀ e' ∈ (s.tables kind).entries, ¬ e.Same e' := by
  intro e' he' hsame
  have haccount := (h.tables kind).accounted e' he'
  rw [← hsame.targetUra, ← hsame.session, hwatcher, Registry.mem_undelivered] at haccount
  rcases haccount with hlive | (hheld | hunread | hpending) | hcancel
  · exact hgone.notLive hlive
  · cases hheld
  · refine hgone.notLater ?_
    obtain ⟨x, hx, hoffline⟩ := List.mem_filterMap.1 hunread
    exact List.mem_filterMap.2 ⟨x, (List.drop_subset_drop_left _ hcursor) hx, hoffline⟩
  · exact hgone.notPending hpending
  · cases hcancel

/-- In a run that keeps the watchers in the picture, fail-fast cancellation works in every state. -/
theorem dispatches_fail_fast {events : List (DaemonEvent U)} {s : Daemon U}
    (hrun : runSteps (step capacity) (new : Daemon U) events = some s)
    (hattended : AllSteps (step capacity) (Attended capacity) (new : Daemon U) events)
    (kind : TableKind) : FailsFast capacity s kind := by
  have hinvariant : AttentiveInvariant capacity s := hattended.invariant
    (fun _ _ _ h ha hstep => h.step ha hstep) (attentiveInvariant_new capacity) hrun
  refine ⟨(hinvariant.tables kind).running, ?_, ?_⟩
  · obtain ⟨t, hwatches, hwaiting⟩ := (hinvariant.tables kind).watches
    refine ⟨s.setTable kind t, s.registry.emitted.length, ?_, ?_, Nat.le_refl _⟩
    · have hself : s.setTable kind (s.tables kind) = s := by simp [setTable]
      have hsteps := @watches_setTable _ _ _ s kind _ _ hwatches
      rwa [hself] at hsteps
    · simpa [setTable] using hwaiting
  · intro events' s' cursor hrun' hattended' hwatcher hcursor e he hended hemitted
    have hinvariant' : AttentiveInvariant capacity s' := hattended'.invariant
      (fun _ _ _ h ha hstep => h.step ha hstep) hinvariant hrun'
    have hgone : Gone s.registry s.registry.emitted.length (e.targetUra, e.session) :=
      { numbered := (hinvariant.wired.entries kind e he).1
        notLive := hended
        notPending := hemitted
        length := Nat.le_refl _
        notLater := by simp }
    have hgone' : s'.Wired ∧ Gone s'.registry s.registry.emitted.length (e.targetUra, e.session) :=
      runSteps_preserves (I := fun a => a.Wired ∧ Gone a.registry s.registry.emitted.length _)
        (fun _ _ _ h hstep => ⟨h.1.step hstep, h.2.step h.1 hstep⟩)
        ⟨hinvariant.wired, hgone⟩ hrun'
    have hnone := hinvariant'.not_pending hgone'.2 hwatcher hcursor
    refine ⟨hnone, ?_⟩
    -- the entry has left the table; with which outcome depends on who moved
    by_cases hquiet : ∀ event ∈ events', event.settles = false
    · let P : Outcome → Prop := fun o => ∃ cause, o = .targetOffline cause ∨ o = .terminalLost cause
      have htracked : s'.Wired ∧ Tracked P (s'.tables kind) e := by
        refine (AllSteps.of_forall_mem (fun _ event hevent => hquiet event hevent) s :
          AllSteps (step capacity) (fun _ event => event.settles = false) s events').invariant
          (I := fun a => a.Wired ∧ Tracked P (a.tables kind) e) ?_
            ⟨hinvariant.wired, Or.inl ⟨e, he, .refl e⟩⟩ hrun'
        intro a event b h hevent hstep
        refine ⟨h.1.step hstep, h.2.step h.1 (fun hsettles => ?_) (fun cause => ?_) hstep⟩
        · rw [hevent] at hsettles
          cases hsettles
        · exact ⟨⟨cause, Or.inl rfl⟩, ⟨cause, Or.inr rfl⟩⟩
      rcases htracked.2 with ⟨e', he', hsame⟩ | ⟨x, hx, hsame, cause, hcause⟩
      · exact absurd hsame (hnone e' he')
      · have hdelivered := (hinvariant'.tables kind).delivered x hx
        exact ⟨x, hx, hsame, hdelivered,
          fun _ => ⟨cause, hcause.resolve_right (hdelivered cause)⟩⟩
    · have htracked : s'.Wired ∧ Tracked (fun _ => True) (s'.tables kind) e :=
        runSteps_preserves (I := fun a => a.Wired ∧ Tracked (fun _ => True) (a.tables kind) e)
          (fun _ _ _ h hstep => ⟨h.1.step hstep,
          h.2.step h.1 (fun _ _ => trivial) (fun _ => ⟨trivial, trivial⟩) hstep⟩)
          ⟨hinvariant.wired, Or.inl ⟨e, he, .refl e⟩⟩ hrun'
      rcases htracked.2 with ⟨e', he', hsame⟩ | ⟨x, hx, hsame, -⟩
      · exact absurd hsame (hnone e' he')
      · exact ⟨x, hx, hsame, (hinvariant'.tables kind).delivered x hx, fun h => absurd h hquiet⟩

/-- A hub connects while the daemon boots. Then both watchers listen, a camera connects, a call to
it registers, and the session ends. -/
def sampleDisconnect : List (DaemonEvent String) :=
  [.registry (.insert "hub" .resolveOnly), .registry (.install 0), .registry (.emit 0),
    .watch .unary, .watch .stream, .registry (.insert "cam" (.dispatch none)),
    .registry (.install 1), .registry (.emit 1), .lookup .unary "cam" false, .register 0,
    .registry (.removeIfSession "cam" 2 .streamClosed), .registry (.emit 2)]

/-- The sample, with another call on the registry in progress at its end. -/
theorem dispatches_fail_fast_sampleDisconnect :
    ∃ s, runSteps (step presenceEventChannelCapacity) (new : Daemon String)
        (sampleDisconnect ++ [.registry (.insert "tv" .resolveOnly)]) = some s ∧
      AllSteps (step presenceEventChannelCapacity) (Attended presenceEventChannelCapacity)
        (new : Daemon String) (sampleDisconnect ++ [.registry (.insert "tv" .resolveOnly)]) ∧
      (s.tables .unary).entries.map (·.session) = [1] ∧ ¬ s.registry.Live ("cam", 1) ∧
      ("cam", 1) ∉ s.registry.pendingOfflines ∧ ¬ s.registry.Idle ∧
      FailsFast presenceEventChannelCapacity s .unary := by
  have hattended : AllSteps (step presenceEventChannelCapacity)
      (Attended presenceEventChannelCapacity) (new : Daemon String)
      (sampleDisconnect ++ [.registry (.insert "tv" .resolveOnly)]) := by
    decide +kernel
  exact ⟨_, rfl, hattended, by decide +kernel, by decide +kernel, by decide +kernel,
    by decide +kernel, dispatches_fail_fast rfl hattended .unary⟩

/-! ## A watcher that has fallen behind -/

/-- A television connects and disconnects; `n` calls were made before. -/
def flap (n : Nat) : List (DaemonEvent String) :=
  [.registry (.insert "tv" .resolveOnly), .registry (.install n), .registry (.emit n),
    .registry (.remove "tv" .streamClosed), .registry (.emit (n + 1))]

theorem runSteps_flap {s : Daemon String} (htv : s.registry.byUra "tv" = none) :
    ∃ s', runSteps (step capacity) s (flap s.registry.calls.length) = some s' ∧
      s'.registry.byUra = s.registry.byUra ∧ (s.registry.Idle → s'.registry.Idle) ∧
      s'.registry.emitted.length = s.registry.emitted.length + 2 ∧ s'.tables = s.tables := by
  obtain ⟨⟨byUra, nextSessionId, installs, calls, emitted⟩, tables, lookups⟩ := s
  have htv : byUra "tv" = none := htv
  have hrestore : ∀ slot, Function.update (Function.update byUra "tv" slot) "tv" none = byUra := by
    intro slot
    rw [Function.update_idem, ← htv, Function.update_eq_self]
  let online : Emission String := ⟨.online "tv", installs⟩
  let offline : Emission String := ⟨.offline "tv" .streamClosed, installs⟩
  refine ⟨⟨⟨byUra, nextSessionId + 1, installs + 1, calls ++ [.emitting [], .emitting []],
    emitted ++ [online, offline]⟩, tables, lookups⟩, ?_, rfl, ?_, by simp, rfl⟩
  · simp [flap, runSteps, step, Registry.step, Registry.install, Registry.installEvents,
      Registry.remove, Registry.removeIf, htv, hrestore, Option.filter, online, offline]
  · intro hidle call hcall
    rcases List.mem_append.1 hcall with hcall | hcall
    · exact hidle call hcall
    · have hreturned : call = .emitting [] := by simpa using hcall
      exact hreturned

theorem runSteps_flaps (s : Daemon String) (htv : s.registry.byUra "tv" = none)
    (hidle : s.registry.Idle) (n : Nat) :
    ∃ events s', runSteps (step capacity) s events = some s' ∧
      s'.registry.byUra = s.registry.byUra ∧ s'.registry.Idle ∧
      s'.registry.emitted.length = s.registry.emitted.length + 2 * n ∧ s'.tables = s.tables := by
  induction n with
  | zero => exact ⟨[], s, rfl, rfl, hidle, rfl, rfl⟩
  | succ n ih =>
    obtain ⟨events, s₁, hrun, hrows, hidle₁, hlength, htables⟩ := ih
    obtain ⟨s₂, hflap, hrows₂, hidle₂, hlength₂, htables₂⟩ :=
      @runSteps_flap capacity s₁ (by rw [hrows]; exact htv)
    refine ⟨events ++ flap s₁.registry.calls.length, s₂, ?_, hrows₂.trans hrows, hidle₂ hidle₁, ?_,
      htables₂.trans htables⟩
    · rw [runSteps_append, hrun]
      exact hflap
    · rw [hlength₂, hlength]
      omega

/-- Nothing is cancelled any more. -/
def Abandoned (t : PendingTable U) : Prop :=
  t.watcher = .stopped ∧ ∀ x ∈ t.finished, ∀ cause, x.2 ≠ .targetOffline cause

theorem Abandoned.step {kind : TableKind} {s s' : Daemon U} {e : DaemonEvent U} (hwired : s.Wired)
    (h : Abandoned (s.tables kind)) (hstep : s.step capacity e = some s') :
    Abandoned (s'.tables kind) := by
  have htable : ∀ kind' t, (kind' = kind → Abandoned t) →
      Abandoned ((s.setTable kind' t).tables kind) := by
    intro kind' t ht
    by_cases hkind : kind = kind'
    · subst hkind
      simpa [setTable] using ht rfl
    · simpa [setTable, Function.update_of_ne hkind] using h
  cases step_of_eq_some hstep with
  | registry | lookup => exact h
  | register i l hl =>
    refine htable l.kind _ ?_
    rintro rfl
    exact h
  | unwatched _ kind' t _ hunwatched =>
    refine htable kind' t ?_
    rintro rfl
    obtain ⟨new, hevolves, hnew⟩ := hunwatched.evolves kind' (hwired.tables kind')
    refine ⟨hunwatched.watcher.trans h.1, fun x hx cause => ?_⟩
    rw [hevolves.finished] at hx
    rcases List.mem_append.1 hx with hx | hx
    · exact h.2 x hx cause
    · exact (hnew x hx cause).1
  | watch kind' t hwatch =>
    refine htable kind' t ?_
    rintro rfl
    cases hwatch <;> simp_all [Abandoned]

/-- The call of the sample is pending when its session ends, and then more events are emitted than
the channel holds before the watcher runs: it returns, and the call is never cancelled. -/
theorem lagged_watcher_abandons_dispatches :
    ∃ events s, runSteps (step presenceEventChannelCapacity) (new : Daemon String) events = some s ∧
      s.registry.Idle ∧ s.registry.byUra "cam" = none ∧
      (s.tables .unary).entries.map (fun e => (e.targetUra, e.session)) = [("cam", 1)] ∧
      (s.tables .unary).watcher = .stopped ∧
      ∀ events' s', runSteps (step presenceEventChannelCapacity) s events' = some s' →
        ∀ x ∈ (s'.tables .unary).finished, ∀ cause, x.2 ≠ .targetOffline cause := by
  obtain ⟨s₀, hrun₀, hstart⟩ : ∃ s₀, runSteps (step presenceEventChannelCapacity)
      (new : Daemon String) sampleDisconnect = some s₀ ∧ s₀.registry.Idle ∧
      s₀.registry.byUra "cam" = none ∧ s₀.registry.byUra "tv" = none ∧
      (s₀.tables .unary).entries.map (fun e => (e.targetUra, e.session)) = [("cam", 1)] ∧
      (s₀.tables .unary).watcher = .waiting 1 ∧ (s₀.tables .unary).finished = [] :=
    ⟨_, rfl, by decide +kernel⟩
  obtain ⟨hidle, hcam, htv, hentries, hwatcher, hfinished⟩ := hstart
  obtain ⟨events, s₁, hrun₁, hrows, hidle₁, hlength, htables⟩ :=
    @runSteps_flaps presenceEventChannelCapacity s₀ htv hidle presenceEventChannelCapacity
  -- the watcher runs for the first time
  have hlag : presenceEventChannelCapacity < s₁.registry.emitted.length - 1 := by
    rw [hlength, presenceEventChannelCapacity]
    omega
  have hstop : s₁.step presenceEventChannelCapacity (.watch .unary) =
      some (s₁.setTable .unary { s₁.tables .unary with watcher := .stopped }) := by
    simp only [step, PendingTable.watch, htables, hwatcher, if_pos hlag, Option.map_some]
  have hwired : ∀ {l s}, runSteps (step presenceEventChannelCapacity) (new : Daemon String) l =
      some s → s.Wired := fun hrun =>
    runSteps_preserves (fun _ _ _ h hstep => h.step hstep) wired_new hrun
  have hrun : runSteps (step presenceEventChannelCapacity) (new : Daemon String)
      (sampleDisconnect ++ (events ++ [.watch .unary])) =
        some (s₁.setTable .unary { s₁.tables .unary with watcher := .stopped }) := by
    rw [runSteps_append, hrun₀, Option.bind_some, runSteps_append, hrun₁, Option.bind_some,
      runSteps, hstop]
    rfl
  refine ⟨_, _, hrun, hidle₁, ?_, ?_, ?_, ?_⟩
  · rw [← hcam, ← hrows]
    rfl
  · simpa [setTable, htables] using hentries
  · simp [setTable]
  · intro events' s' hrun'
    have habandoned : s'.Wired ∧ Abandoned (s'.tables .unary) :=
      runSteps_preserves (I := fun a => a.Wired ∧ Abandoned (a.tables .unary))
        (fun _ _ _ h hstep => ⟨h.1.step hstep, h.2.step h.1 hstep⟩)
        ⟨hwired hrun, by simp [Abandoned, setTable, htables, hfinished]⟩ hrun'
    exact habandoned.2.2

end Daemon

end EasyNetDaemon.Presence
