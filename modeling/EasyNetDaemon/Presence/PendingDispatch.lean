import EasyNetDaemon.Presence.Registry

/-!
# Pending dispatches and their offline watchers

A dispatch looks up the session of its target, registers an entry in one of two correlation tables
(unary calls and streams), and then waits for the reply. Beside each table runs a watcher: it
receives the registry's events through a broadcast channel of bounded capacity and cancels, on an
`Offline` event, every entry of this URA. The channel keeps the newest events only; a receiver that
has fallen behind gets an error, and the watcher returns on any error.

`Daemon.step` performs one step of a registry call, of a dispatch, of the session that replies, or
of a watcher. An entry remembers the session its dispatch looked up, and an outcome the session
whose `Offline` event caused it; the program has neither.
-/

namespace EasyNetDaemon.Presence

open Library

variable {U : Type}

/-- `PRESENCE_EVENT_CHANNEL_CAPACITY`. -/
def presenceEventChannelCapacity : Nat := 1024

/-- `PendingStreamDispatchMap::CHANNEL_CAPACITY`. -/
def streamChannelCapacity : Nat := 32

/-- The two correlation tables. -/
inductive TableKind
  | unary
  | stream
deriving DecidableEq, Repr

/-- Unary calls take the even call ids, streams the odd ones. -/
def TableKind.callId : TableKind → Nat → Nat
  | .unary, sequence => 2 * sequence
  | .stream, sequence => 2 * sequence + 1

/-- A dispatch that waits. `buffered` counts the stream events its caller has not taken yet; a unary
call has none before its result. -/
structure PendingEntry (U : Type) where
  callId : Nat
  targetUra : U
  lossless : Bool
  session : Nat
  buffered : Nat
deriving DecidableEq, Repr

/-- The caller's channel has room for one more event. -/
def PendingEntry.hasRoom (entry : PendingEntry U) : Bool := entry.buffered < streamChannelCapacity

/-- How an entry left its table. -/
inductive Outcome
  | replied
  | consumerStalled
  | callerDropped
  | targetOffline (cause : Nat)
  | terminalLost (cause : Nat)
deriving DecidableEq, Repr

/-- The offline watcher: not started, waiting for the event at a position of the channel, about to
collect the entries of an `Offline` event, cancelling them one by one, or returned. -/
inductive Watcher (U : Type)
  | starting
  | waiting (cursor : Nat)
  | handling (cursor : Nat) (ura : U) (session : Nat)
  | cancelling (cursor : Nat) (session : Nat) (callIds : List Nat)
  | stopped
deriving DecidableEq, Repr

/-- A correlation table with its watcher, and the entries that have left it. -/
structure PendingTable (U : Type) where
  entries : List (PendingEntry U)
  nextCallId : Nat
  finished : List (PendingEntry U × Outcome)
  watcher : Watcher U
deriving DecidableEq, Repr

namespace PendingTable

def new : PendingTable U where
  entries := []
  nextCallId := 0
  finished := []
  watcher := .starting

/-- `register_pending_for` and `register_lossless_pending_for`. -/
def register (t : PendingTable U) (kind : TableKind) (targetUra : U) (lossless : Bool)
    (session : Nat) : PendingTable U :=
  { t with
    entries := t.entries ++
      [{ callId := kind.callId t.nextCallId, targetUra, lossless, session, buffered := 0 }]
    nextCallId := t.nextCallId + 1 }

/-- Takes the entry of a call out of the table; nothing happens if it is gone. -/
def finish (t : PendingTable U) (callId : Nat) (outcome : PendingEntry U → Outcome) :
    PendingTable U :=
  match t.entries.find? fun entry => entry.callId == callId with
  | some entry =>
    { t with
      entries := t.entries.filter fun entry => entry.callId != callId
      finished := t.finished ++ [(entry, outcome entry)] }
  | none => t

/-- `complete`, and for streams `deliver_terminal`: a lossless stream waits for room, any other one
that has none is cut off. -/
def complete (t : PendingTable U) (callId : Nat) : PendingTable U :=
  t.finish callId fun entry =>
    if entry.lossless || entry.hasRoom then .replied else .consumerStalled

/-- `PendingHandle::drop` before a reply. -/
def dropHandle (t : PendingTable U) (callId : Nat) : PendingTable U :=
  t.finish callId fun _ => .callerDropped

/-- Changes the number of buffered events of a call. -/
def setBuffered (t : PendingTable U) (callId : Nat) (change : Nat → Nat) : PendingTable U :=
  { t with
    entries := t.entries.map fun entry =>
      if entry.callId == callId then { entry with buffered := change entry.buffered } else entry }

/-- `deliver_chunk`: a full channel makes a lossless stream wait, and evicts any other one. -/
def deliverChunk (t : PendingTable U) (callId : Nat) : Option (PendingTable U) :=
  match t.entries.find? fun entry => entry.callId == callId with
  | some entry =>
    if entry.hasRoom then some (t.setBuffered callId (· + 1))
    else if entry.lossless then none
    else some (t.finish callId fun _ => .consumerStalled)
  | none => some t

/-- One entry of `cancel_for`. The terminal event is sent with `try_send` and is lost if the
stream's channel is full. -/
def cancelOne (t : PendingTable U) (callId session : Nat) : PendingTable U :=
  t.finish callId fun entry =>
    if entry.hasRoom then .targetOffline session else .terminalLost session

/-- One step of the watcher. Received is the event at the cursor; a receiver with more than
`capacity` events ahead of it has lost the oldest ones and gets an error. -/
def watch [DecidableEq U] (t : PendingTable U) (capacity : Nat) (emitted : List (Emission U)) :
    Option (PendingTable U) :=
  match t.watcher with
  | .starting => some { t with watcher := .waiting emitted.length }
  | .waiting cursor =>
    if capacity < emitted.length - cursor then some { t with watcher := .stopped }
    else
      match emitted[cursor]? with
      | none => none
      | some { event := .online _, session := _ } =>
        some { t with watcher := .waiting (cursor + 1) }
      | some { event := .offline ura _, session } =>
        some { t with watcher := .handling (cursor + 1) ura session }
  | .handling cursor ura session =>
    let toCancel := (t.entries.filter fun entry => entry.targetUra = ura).map (·.callId)
    some { t with watcher := .cancelling cursor session toCancel }
  | .cancelling cursor _ [] => some { t with watcher := .waiting cursor }
  | .cancelling cursor session (callId :: rest) =>
    some { t.cancelOne callId session with watcher := .cancelling cursor session rest }
  | .stopped => none

end PendingTable

/-- A dispatch that has looked up its session and not registered its entry yet. -/
structure Lookup (U : Type) where
  kind : TableKind
  targetUra : U
  lossless : Bool
  session : Nat
deriving DecidableEq, Repr

/-- The registry, the two tables and the dispatches between lookup and registration. -/
structure Daemon (U : Type) where
  registry : Registry U
  tables : TableKind → PendingTable U
  lookups : List (Lookup U)

/-- What happens to the daemon. -/
inductive DaemonEvent (U : Type)
  | registry (event : RegistryEvent U)
  | lookup (kind : TableKind) (ura : U) (lossless : Bool)
  | register (dispatch : Nat)
  | reply (kind : TableKind) (callId : Nat)
  | callerDrop (kind : TableKind) (callId : Nat)
  | chunk (callId : Nat)
  | consume (callId : Nat)
  | watch (kind : TableKind)
deriving DecidableEq, Repr

/-- The event is a move of the target's session, or of the caller, on a pending entry. -/
def DaemonEvent.settles : DaemonEvent U → Bool
  | .reply _ _ | .callerDrop _ _ | .chunk _ | .consume _ => true
  | .registry _ | .lookup _ _ _ | .register _ | .watch _ => false

namespace Daemon

def new : Daemon U where
  registry := .new
  tables := fun _ => .new
  lookups := []

/-- The daemon with another table. -/
def setTable (s : Daemon U) (kind : TableKind) (t : PendingTable U) : Daemon U :=
  { s with tables := Function.update s.tables kind t }

variable [DecidableEq U]

/-- `lookup_dispatch_session`: only rows that dispatch have a session to send to. -/
def lookup (s : Daemon U) (kind : TableKind) (ura : U) (lossless : Bool) : Option (Daemon U) :=
  match s.registry.byUra ura with
  | some { kind := .dispatch _, session, sessionId := _ } =>
    some { s with lookups := s.lookups ++ [{ kind, targetUra := ura, lossless, session }] }
  | _ => none

/-- One step of the daemon. -/
def step (capacity : Nat) (s : Daemon U) : DaemonEvent U → Option (Daemon U)
  | .registry event => (s.registry.step event).map fun r => { s with registry := r }
  | .lookup kind ura lossless => s.lookup kind ura lossless
  | .register i =>
    match s.lookups[i]? with
    | some l =>
      some
        { s.setTable l.kind
          ((s.tables l.kind).register l.kind l.targetUra l.lossless l.session) with
          lookups := s.lookups.eraseIdx i }
    | none => none
  | .reply kind callId => some (s.setTable kind ((s.tables kind).complete callId))
  | .callerDrop kind callId => some (s.setTable kind ((s.tables kind).dropHandle callId))
  | .chunk callId => ((s.tables .stream).deliverChunk callId).map (s.setTable .stream)
  | .consume callId =>
    some (s.setTable .stream ((s.tables .stream).setBuffered callId (· - 1)))
  | .watch kind =>
    ((s.tables kind).watch capacity s.registry.emitted).map (s.setTable kind)

end Daemon

/-! ## What a step does to a table -/

/-- Two states of the entry of one dispatch. -/
structure PendingEntry.Same (e e' : PendingEntry U) : Prop where
  callId : e.callId = e'.callId
  targetUra : e.targetUra = e'.targetUra
  session : e.session = e'.session

theorem PendingEntry.Same.refl (e : PendingEntry U) : e.Same e := ⟨rfl, rfl, rfl⟩

variable {e : PendingEntry U} {t : PendingTable U} {capacity : Nat} {emitted : List (Emission U)}
  {s : Daemon U} {w : Watcher U}

theorem PendingEntry.Same.trans {e' e'' : PendingEntry U} (h : e.Same e') (h' : e'.Same e'') :
    e.Same e'' :=
  ⟨h.callId.trans h'.callId, h.targetUra.trans h'.targetUra, h.session.trans h'.session⟩

namespace PendingTable

/-- The entries of a table have call ids of their own, all of them given out. -/
structure Numbered (t : PendingTable U) (kind : TableKind) : Prop where
  unique : t.entries.Pairwise fun e e' => e.callId ≠ e'.callId
  given : ∀ e ∈ t.entries, ∃ n < t.nextCallId, e.callId = kind.callId n

theorem Numbered.eq_of_callId {kind : TableKind} (h : t.Numbered kind) {e' : PendingEntry U}
    (he : e ∈ t.entries) (he' : e' ∈ t.entries) (hid : e.callId = e'.callId) : e = e' := by
  have : Std.Symm fun e e' : PendingEntry U => e.callId ≠ e'.callId := ⟨fun _ _ h => h.symm⟩
  by_contra hne
  exact h.unique.forall he he' hne hid

theorem Numbered.register {kind : TableKind} (h : t.Numbered kind) (targetUra : U)
    (lossless : Bool) (session : Nat) :
    (t.register kind targetUra lossless session).Numbered kind := by
  constructor
  · refine List.pairwise_append.2 ⟨h.unique, List.pairwise_singleton _ _, ?_⟩
    intro e he e' he'
    obtain ⟨n, hn, hid⟩ := h.given e he
    rw [List.mem_singleton.1 he', hid]
    cases kind <;> simp only [TableKind.callId] <;> omega
  · intro e he
    rcases List.mem_append.1 he with he | he
    · obtain ⟨n, hn, hid⟩ := h.given e he
      exact ⟨n, Nat.lt_succ_of_lt hn, hid⟩
    · rw [List.mem_singleton.1 he]
      exact ⟨t.nextCallId, Nat.lt_succ_self _, rfl⟩

/-- A step that registers nothing: every entry of the table afterwards was there before, and every
entry that was there is still there or has left with one of the outcomes `new`. -/
structure Evolves (t t' : PendingTable U) (new : List (PendingEntry U × Outcome)) : Prop where
  nextCallId : t'.nextCallId = t.nextCallId
  finished : t'.finished = t.finished ++ new
  left : ∀ x ∈ new, x.1 ∈ t.entries
  entries : ∀ e' ∈ t'.entries, ∃ e ∈ t.entries, e.Same e'
  kept : ∀ e ∈ t.entries, (∃ e' ∈ t'.entries, e.Same e') ∨ ∃ x ∈ new, x.1 = e
  numbered : ∀ kind, t.Numbered kind → t'.Numbered kind

variable {t' : PendingTable U}

theorem evolves_of_entries_eq (hnext : t'.nextCallId = t.nextCallId)
    (hfinished : t'.finished = t.finished) (hentries : t'.entries = t.entries) :
    t.Evolves t' [] where
  nextCallId := hnext
  finished := by rw [hfinished, List.append_nil]
  left := by simp
  entries := fun e he => ⟨e, hentries ▸ he, .refl e⟩
  kept := fun e he => Or.inl ⟨e, hentries.symm ▸ he, .refl e⟩
  numbered := fun kind h => ⟨hentries.symm ▸ h.unique, by rw [hentries, hnext]; exact h.given⟩

/-- The entry that a call is waiting on. -/
def entryOf (t : PendingTable U) (callId : Nat) : Option (PendingEntry U) :=
  t.entries.find? fun entry => entry.callId == callId

theorem mem_of_entryOf {callId : Nat} (h : t.entryOf callId = some e) :
    e ∈ t.entries ∧ e.callId = callId :=
  ⟨List.mem_of_find?_eq_some h, by simpa using List.find?_some h⟩

theorem Numbered.entryOf_eq_some {kind : TableKind} (h : t.Numbered kind) (he : e ∈ t.entries) :
    t.entryOf e.callId = some e := by
  cases hfind : t.entryOf e.callId with
  | none => simpa using List.find?_eq_none.1 hfind e he
  | some e' =>
    obtain ⟨he', hid⟩ := mem_of_entryOf hfind
    rw [h.eq_of_callId he' he hid]

theorem Numbered.finish_evolves {kind : TableKind} (h : t.Numbered kind) (callId : Nat)
    (outcome : PendingEntry U → Outcome) :
    t.Evolves (t.finish callId outcome)
      ((t.entryOf callId).toList.map fun e => (e, outcome e)) := by
  cases hfind : t.entryOf callId with
  | none =>
    have hfinish : t.finish callId outcome = t := by
      simp only [finish]
      rw [show t.entries.find? (fun entry => entry.callId == callId) = none from hfind]
    rw [hfinish]
    exact evolves_of_entries_eq rfl rfl rfl
  | some e =>
    obtain ⟨he, hid⟩ := mem_of_entryOf hfind
    have hfinish : t.finish callId outcome =
        { t with
          entries := t.entries.filter fun entry => entry.callId != callId
          finished := t.finished ++ [(e, outcome e)] } := by
      simp only [finish]
      rw [show t.entries.find? (fun entry => entry.callId == callId) = some e from hfind]
    rw [hfinish]
    constructor
    · rfl
    · rfl
    · intro x hx
      have hx : x = (e, outcome e) := by simpa using hx
      rw [hx]
      exact he
    · intro e' he'
      exact ⟨e', (List.mem_filter.1 he').1, .refl e'⟩
    · intro e' he'
      by_cases hid' : e'.callId = callId
      · right
        exact ⟨(e, outcome e), by simp, h.eq_of_callId he he' (hid.trans hid'.symm)⟩
      · exact Or.inl ⟨e', List.mem_filter.2 ⟨he', by simpa using hid'⟩, .refl e'⟩
    · intro kind h
      exact ⟨h.unique.filter _, fun e' he' => h.given e' (List.mem_filter.1 he').1⟩

theorem callId_ne_of_mem_finish {callId : Nat} {outcome : PendingEntry U → Outcome}
    (he : e ∈ (t.finish callId outcome).entries) : e.callId ≠ callId := by
  rw [finish] at he
  split at he
  · simpa using (List.mem_filter.1 he).2
  · rename_i hnone
    simpa using List.find?_eq_none.1 hnone e he

theorem setBuffered_evolves (t : PendingTable U) (callId : Nat) (change : Nat → Nat) :
    t.Evolves (t.setBuffered callId change) [] := by
  have hsame : ∀ e : PendingEntry U, e.Same
      (if e.callId == callId then { e with buffered := change e.buffered } else e) := by
    intro e
    split <;> exact ⟨rfl, rfl, rfl⟩
  have hmem : ∀ e' ∈ (t.setBuffered callId change).entries, ∃ e ∈ t.entries, e.Same e' := by
    intro e' he'
    obtain ⟨e, he, rfl⟩ := List.mem_map.1 he'
    exact ⟨e, he, hsame e⟩
  refine ⟨rfl, by simp [setBuffered], by simp, hmem, ?_, ?_⟩
  · intro e he
    exact Or.inl ⟨_, List.mem_map_of_mem he, hsame e⟩
  · intro kind h
    constructor
    · refine List.Pairwise.map _ ?_ h.unique
      intro e e' hne
      rw [← (hsame e).callId, ← (hsame e').callId]
      exact hne
    · intro e' he'
      obtain ⟨e, he, hs⟩ := hmem e' he'
      rw [← hs.callId]
      exact h.given e he

/-- A step on a table by anyone but its watcher, and without a registration. -/
structure Unwatched (t t' : PendingTable U) : Prop where
  watcher : t'.watcher = t.watcher
  evolves : ∀ kind, t.Numbered kind → ∃ new, t.Evolves t' new ∧
    ∀ x ∈ new, ∀ cause, x.2 ≠ .targetOffline cause ∧ x.2 ≠ .terminalLost cause

theorem watcher_finish (t : PendingTable U) (callId : Nat) (outcome : PendingEntry U → Outcome) :
    (t.finish callId outcome).watcher = t.watcher := by
  rw [finish]
  split <;> rfl

theorem unwatched_finish (t : PendingTable U) (callId : Nat) {outcome : PendingEntry U → Outcome}
    (h : ∀ e cause, outcome e ≠ .targetOffline cause ∧ outcome e ≠ .terminalLost cause) :
    t.Unwatched (t.finish callId outcome) := by
  refine ⟨watcher_finish t callId outcome, fun kind hnumbered =>
    ⟨_, hnumbered.finish_evolves callId outcome, ?_⟩⟩
  intro x hx cause
  obtain ⟨e, -, rfl⟩ := List.mem_map.1 hx
  exact h e cause

theorem unwatched_setBuffered (t : PendingTable U) (callId : Nat) (change : Nat → Nat) :
    t.Unwatched (t.setBuffered callId change) :=
  ⟨rfl, fun _ _ => ⟨[], setBuffered_evolves t callId change, by simp⟩⟩

theorem unwatched_deliverChunk {callId : Nat} (h : t.deliverChunk callId = some t') :
    t.Unwatched t' := by
  rw [deliverChunk] at h
  split at h
  · split at h
    · cases h
      exact unwatched_setBuffered t callId _
    · split at h
      · cases h
      · cases h
        exact unwatched_finish t callId (fun _ _ => ⟨nofun, nofun⟩)
  · cases h
    exact ⟨rfl, fun _ _ => ⟨[], evolves_of_entries_eq rfl rfl rfl, by simp⟩⟩

/-- What one step of the watcher can do. -/
inductive WatchStep [DecidableEq U] (capacity : Nat) (emitted : List (Emission U))
    (t : PendingTable U) : PendingTable U → Prop
  | start : t.watcher = .starting →
    WatchStep capacity emitted t { t with watcher := .waiting emitted.length }
  | lag (cursor : Nat) : t.watcher = .waiting cursor → capacity < emitted.length - cursor →
    WatchStep capacity emitted t { t with watcher := .stopped }
  | skip (cursor : Nat) (x : Emission U) : t.watcher = .waiting cursor →
    emitted[cursor]? = some x → x.offline? = none →
    WatchStep capacity emitted t { t with watcher := .waiting (cursor + 1) }
  | receive (cursor : Nat) (x : Emission U) (ura : U) (session : Nat) :
    t.watcher = .waiting cursor → emitted[cursor]? = some x → x.offline? = some (ura, session) →
    WatchStep capacity emitted t { t with watcher := .handling (cursor + 1) ura session }
  | collect (cursor : Nat) (ura : U) (session : Nat) : t.watcher = .handling cursor ura session →
    WatchStep capacity emitted t
      { t with
        watcher := .cancelling cursor session
          ((t.entries.filter fun entry => entry.targetUra = ura).map (·.callId)) }
  | done (cursor session : Nat) : t.watcher = .cancelling cursor session [] →
    WatchStep capacity emitted t { t with watcher := .waiting cursor }
  | cancel (cursor session callId : Nat) (rest : List Nat) :
    t.watcher = .cancelling cursor session (callId :: rest) →
    WatchStep capacity emitted t
      { t.cancelOne callId session with watcher := .cancelling cursor session rest }

theorem watchStep_of_watch [DecidableEq U] (h : t.watch capacity emitted = some t') :
    WatchStep capacity emitted t t' := by
  cases hwatcher : t.watcher with
  | starting =>
    simp only [watch, hwatcher, Option.some.injEq] at h
    exact h ▸ .start hwatcher
  | waiting cursor =>
    simp only [watch, hwatcher] at h
    split at h
    · rename_i hlag
      cases h
      exact .lag cursor hwatcher hlag
    · split at h
      · cases h
      · rename_i hx
        cases h
        exact .skip cursor _ hwatcher hx rfl
      · rename_i hx
        cases h
        exact .receive cursor _ _ _ hwatcher hx rfl
  | handling cursor ura session =>
    simp only [watch, hwatcher, Option.some.injEq] at h
    exact h ▸ .collect cursor ura session hwatcher
  | cancelling cursor session callIds =>
    cases callIds with
    | nil =>
      simp only [watch, hwatcher, Option.some.injEq] at h
      exact h ▸ .done cursor session hwatcher
    | cons callId rest =>
      simp only [watch, hwatcher, Option.some.injEq] at h
      exact h ▸ .cancel cursor session callId rest hwatcher
  | stopped =>
    simp only [watch, hwatcher] at h
    cases h

/-- The outcomes of the watcher's steps: at most one cancellation, for the session of the event. -/
theorem WatchStep.evolves [DecidableEq U] {kind : TableKind} (h : t.Numbered kind)
    (hstep : WatchStep capacity emitted t t') :
    ∃ new, t.Evolves t' new ∧ ∀ x ∈ new, ∃ cursor session rest,
      t.watcher = .cancelling cursor session (x.1.callId :: rest) ∧
      x.2 = if x.1.hasRoom then .targetOffline session else .terminalLost session := by
  cases hstep with
  | cancel cursor session callId rest hwatcher =>
    have hfinish := h.finish_evolves callId fun entry =>
      if entry.hasRoom then .targetOffline session else .terminalLost session
    refine ⟨_, ⟨hfinish.nextCallId, hfinish.finished, hfinish.left, hfinish.entries, hfinish.kept,
      fun kind hk => ⟨(hfinish.numbered kind hk).unique, (hfinish.numbered kind hk).given⟩⟩, ?_⟩
    intro x hx
    obtain ⟨e, he, rfl⟩ := List.mem_map.1 hx
    obtain ⟨-, rfl⟩ := mem_of_entryOf (Option.mem_toList.1 he)
    exact ⟨cursor, session, rest, hwatcher, rfl⟩
  | start | lag | skip | receive | collect | done =>
    exact ⟨[], evolves_of_entries_eq rfl rfl rfl, by simp⟩

end PendingTable

namespace Daemon

variable [DecidableEq U]

/-- What one step of the daemon can do. -/
inductive Step (capacity : Nat) (s : Daemon U) : DaemonEvent U → Daemon U → Prop
  | registry (event : RegistryEvent U) (r : Registry U) : s.registry.step event = some r →
    Step capacity s (.registry event) { s with registry := r }
  | lookup (l : Lookup U) (slot : PresenceSlot) : s.registry.byUra l.targetUra = some slot →
    slot.session = l.session →
    Step capacity s (.lookup l.kind l.targetUra l.lossless) { s with lookups := s.lookups ++ [l] }
  | register (i : Nat) (l : Lookup U) : s.lookups[i]? = some l →
    Step capacity s (.register i)
      { s.setTable l.kind ((s.tables l.kind).register l.kind l.targetUra l.lossless l.session) with
        lookups := s.lookups.eraseIdx i }
  | unwatched (event : DaemonEvent U) (kind : TableKind) (t : PendingTable U) :
    event.settles = true → (s.tables kind).Unwatched t →
    Step capacity s event (s.setTable kind t)
  | watch (kind : TableKind) (t : PendingTable U) :
    PendingTable.WatchStep capacity s.registry.emitted (s.tables kind) t →
    Step capacity s (.watch kind) (s.setTable kind t)

theorem step_of_eq_some {s' : Daemon U} {e : DaemonEvent U} (h : s.step capacity e = some s') :
    Step capacity s e s' := by
  cases e with
  | registry event =>
    obtain ⟨r, hr, rfl⟩ := Option.map_eq_some_iff.1 h
    exact .registry event r hr
  | lookup kind ura lossless =>
    simp only [step, Daemon.lookup] at h
    split at h
    · rename_i sessionId key session hrow
      cases h
      exact .lookup { kind, targetUra := ura, lossless, session } _ hrow rfl
    · cases h
  | register i =>
    simp only [step] at h
    split at h
    · rename_i l hl
      cases h
      exact .register i l hl
    · cases h
  | reply kind callId =>
    cases h
    refine .unwatched _ kind _ rfl (PendingTable.unwatched_finish _ callId fun e cause => ?_)
    split <;> exact ⟨nofun, nofun⟩
  | callerDrop kind callId =>
    cases h
    exact .unwatched _ kind _ rfl
      (PendingTable.unwatched_finish _ callId fun _ _ => ⟨nofun, nofun⟩)
  | chunk callId =>
    obtain ⟨t, ht, rfl⟩ := Option.map_eq_some_iff.1 h
    exact .unwatched _ .stream t rfl (PendingTable.unwatched_deliverChunk ht)
  | consume callId =>
    cases h
    exact .unwatched _ .stream _ rfl (PendingTable.unwatched_setBuffered _ callId _)
  | watch kind =>
    obtain ⟨t, ht, rfl⟩ := Option.map_eq_some_iff.1 h
    exact .watch kind t (PendingTable.watchStep_of_watch ht)

end Daemon

/-! ## Events on their way to a watcher -/

/-- The `Offline` event that the watcher has received and not acted on. -/
def Watcher.held : Watcher U → List (U × Nat)
  | .handling _ ura session => [(ura, session)]
  | _ => []

/-- The emitted events that the watcher has still to receive; one that does not listen gets none of
them. -/
def Watcher.unread (w : Watcher U) (emitted : List (Emission U)) : List (Emission U) :=
  match w with
  | .waiting cursor | .handling cursor _ _ | .cancelling cursor _ _ => emitted.drop cursor
  | .starting | .stopped => []

/-- The sessions whose `Offline` event has still to take effect on a table: the one the watcher
holds, those in its channel, and those that calls have still to emit. -/
def Registry.undelivered (r : Registry U) (w : Watcher U) : List (U × Nat) :=
  w.held ++ (w.unread r.emitted).filterMap Emission.offline? ++ r.pendingOfflines

theorem Registry.mem_undelivered {r : Registry U} {x : U × Nat} :
    x ∈ r.undelivered w ↔ x ∈ w.held ∨ x ∈ (w.unread r.emitted).filterMap Emission.offline? ∨
      x ∈ r.pendingOfflines := by
  simp only [undelivered, List.mem_append, or_assoc]

section Received

variable {r : Registry U} {cursor : Nat} {x : Emission U}

theorem Registry.undelivered_skip (hx : r.emitted[cursor]? = some x)
    (hoffline : x.offline? = none) :
    r.undelivered (.waiting cursor) = r.undelivered (.waiting (cursor + 1)) := by
  obtain ⟨hlt, rfl⟩ := List.getElem?_eq_some_iff.1 hx
  simp only [undelivered, Watcher.held, Watcher.unread, List.drop_eq_getElem_cons hlt,
    List.filterMap_cons, hoffline]

theorem Registry.undelivered_receive {ura : U} {session : Nat} (hx : r.emitted[cursor]? = some x)
    (hoffline : x.offline? = some (ura, session)) :
    r.undelivered (.waiting cursor) = r.undelivered (.handling (cursor + 1) ura session) := by
  obtain ⟨hlt, rfl⟩ := List.getElem?_eq_some_iff.1 hx
  simp only [undelivered, Watcher.held, Watcher.unread, List.drop_eq_getElem_cons hlt,
    List.filterMap_cons, hoffline]
  rfl

end Received

/-- What is unread after more events were emitted. -/
theorem Watcher.mem_unread_append {new : List (Emission U)} {x : Emission U}
    (h : x ∈ w.unread (emitted ++ new)) : x ∈ w.unread emitted ∨ x ∈ new := by
  have hdrop : ∀ cursor, x ∈ (emitted ++ new).drop cursor → x ∈ emitted.drop cursor ∨ x ∈ new := by
    intro cursor hx
    rw [List.drop_append, List.mem_append] at hx
    exact hx.imp_right List.mem_of_mem_drop
  cases w with
  | waiting cursor | handling cursor _ _ | cancelling cursor _ _ => exact hdrop cursor h
  | starting | stopped => exact Or.inl h

/-- A session on its way out after a step was so before, or it ended in this step. -/
theorem Registry.Effect.undelivered {r r' : Registry U} {new : List (Emission U)}
    (h : r.Effect r' new) {x : U × Nat} (hx : x ∈ r'.undelivered w) :
    x ∈ r.undelivered w ∨ r.Ended r' x := by
  rw [mem_undelivered] at hx ⊢
  rcases hx with hheld | hunread | hpending
  · exact Or.inl (Or.inl hheld)
  · rw [h.emitted] at hunread
    obtain ⟨y, hy, hoffline⟩ := List.mem_filterMap.1 hunread
    rcases Watcher.mem_unread_append hy with hy | hy
    · exact Or.inl (Or.inr (Or.inl (List.mem_filterMap.2 ⟨y, hy, hoffline⟩)))
    · rcases (h.offlines x).1 (Or.inl (List.mem_filterMap.2 ⟨y, hy, hoffline⟩)) with hold | hended
      · exact Or.inl (Or.inr (Or.inr hold))
      · exact Or.inr hended
  · rcases (h.offlines x).1 (Or.inr hpending) with hold | hended
    · exact Or.inl (Or.inr (Or.inr hold))
    · exact Or.inr hended

/-- The session of a URA is not younger than the one in the map. -/
def Registry.Aged (r : Registry U) (x : U × Nat) : Prop :=
  x.2 < r.installs ∧ ∀ slot, r.byUra x.1 = some slot → x.2 ≤ slot.session

theorem Registry.Effect.aged {r r' : Registry U} {new : List (Emission U)} (h : r.Effect r' new)
    {x : U × Nat} (hx : r.Aged x) : r'.Aged x := by
  refine ⟨hx.1.trans_le h.installs, fun slot hslot => ?_⟩
  rcases h.rows x.1 slot hslot with hold | hnew
  · exact hx.2 slot hold
  · exact (hx.1.trans_le hnew).le

/-! ## What every run keeps -/

namespace Daemon

/-- Numbers are given out once: to rows, to calls, and to the sessions that dispatches looked up. -/
structure Wired (s : Daemon U) : Prop where
  registry : s.registry.Numbered
  lookups : ∀ l ∈ s.lookups, s.registry.Aged (l.targetUra, l.session)
  tables : ∀ kind, (s.tables kind).Numbered kind
  entries : ∀ kind, ∀ e ∈ (s.tables kind).entries, s.registry.Aged (e.targetUra, e.session)

theorem wired_new : (new : Daemon U).Wired where
  registry := by intro ura slot h; cases h
  lookups := by simp [new]
  tables := fun kind => ⟨List.Pairwise.nil, by simp [new, PendingTable.new]⟩
  entries := by simp [new, PendingTable.new]

/-- A property of both tables after one of them was changed. -/
theorem forall_setTable (P : TableKind → PendingTable U → Prop)
    (h : ∀ kind, P kind (s.tables kind)) {kind : TableKind} (ht : P kind t) :
    ∀ kind', P kind' ((s.setTable kind t).tables kind') := by
  intro kind'
  by_cases hkind : kind' = kind
  · subst hkind
    simpa [setTable] using ht
  · simpa [setTable, Function.update_of_ne hkind] using h kind'

theorem Wired.evolve (h : s.Wired) {kind : TableKind} {new : List (PendingEntry U × Outcome)}
    (hevolves : (s.tables kind).Evolves t new) : (s.setTable kind t).Wired where
  registry := h.registry
  lookups := h.lookups
  tables := forall_setTable (fun kind t => t.Numbered kind) h.tables
    (hevolves.numbered kind (h.tables kind))
  entries := by
    refine forall_setTable (fun _ t => ∀ e ∈ t.entries, s.registry.Aged (e.targetUra, e.session))
      h.entries fun e' he' => ?_
    obtain ⟨e, he, hsame⟩ := hevolves.entries e' he'
    rw [← hsame.targetUra, ← hsame.session]
    exact h.entries kind e he

theorem Wired.step [DecidableEq U] {capacity : Nat} {s s' : Daemon U} {e : DaemonEvent U}
    (h : s.Wired) (hstep : s.step capacity e = some s') : s'.Wired := by
  cases step_of_eq_some hstep with
  | registry event r hr =>
    obtain ⟨new, heffect, -⟩ := Registry.effect_step h.registry hr
    exact ⟨heffect.numbered, fun l hl => heffect.aged (h.lookups l hl), h.tables,
      fun kind e he => heffect.aged (h.entries kind e he)⟩
  | lookup l slot hrow hsession =>
    refine ⟨h.registry, fun l' hl' => ?_, h.tables, h.entries⟩
    rcases List.mem_append.1 hl' with hl' | hl'
    · exact h.lookups l' hl'
    · rw [List.mem_singleton.1 hl', ← hsession]
      refine ⟨h.registry _ slot hrow, fun slot' hrow' => ?_⟩
      cases hrow.symm.trans hrow'
      exact Nat.le_refl _
  | register i l hl =>
    refine ⟨h.registry, fun l' hl' => h.lookups l' (List.mem_of_mem_eraseIdx hl'),
      forall_setTable (fun kind t => t.Numbered kind) h.tables
        ((h.tables l.kind).register l.targetUra l.lossless l.session),
      forall_setTable (fun _ t => ∀ e ∈ t.entries, s.registry.Aged (e.targetUra, e.session))
        h.entries fun e he => ?_⟩
    rcases List.mem_append.1 he with he | he
    · exact h.entries l.kind e he
    · rw [List.mem_singleton.1 he]
      exact h.lookups l (List.mem_of_getElem? hl)
  | unwatched _ kind t _ hunwatched =>
    obtain ⟨new, hevolves, -⟩ := hunwatched.evolves kind (h.tables kind)
    exact h.evolve hevolves
  | watch kind t hwatch =>
    obtain ⟨new, hevolves, -⟩ := hwatch.evolves (h.tables kind)
    exact h.evolve hevolves

end Daemon

end EasyNetDaemon.Presence
