import Mathlib.Data.List.Nodup
import EasyNetDaemon.Library.StepRun
import EasyNetDaemon.RemoteDesktop.EventLog

/-!
# The event history of a session over restarts

A run of one session pushes events, saves snapshots at any points, and restarts from the latest one.
A history records every event that was ever pushed, with its place in the session's life, beside the
log that the daemon has. A watcher that reconnects should get every later event that is still
retained, in order and once, with a diagnostic first when one is missing (`Faithful`), and then each
event that is pushed (`Served`).

The daemon numbers events by the snapshot it restarts from. As long as each restart finds all events
in its snapshot, numbers and places agree (`Numbered`) and every reconnect is faithful. A restart
that has lost an event either gives its number to another one, or hides the loss from the watchers.
The live part of a stream is a broadcast channel of 256 events: a watcher that falls behind by more,
or that is behind when the session has closed its sender, does not get what is pushed.
-/

namespace EasyNetDaemon.RemoteDesktop

open Library

variable {β : Type}

/-! ## Sessions and their snapshots -/

/-- The part of a session that its event stream depends on. -/
structure SessionLog (β : Type) where
  log : EventLog β
  terminal : Bool

/-- The part of a recovery snapshot that the event log is built from. -/
structure LogSnapshot (β : Type) where
  events : List (EventRecord β)
  terminal : Bool

/-- The snapshot of a session. -/
def SessionLog.snapshot (x : SessionLog β) : LogSnapshot β := ⟨x.log.events, x.terminal⟩

/-- The session of a snapshot, before the event that reports its recovery. -/
def SessionLog.rehydrate (snapshot : LogSnapshot β) : SessionLog β :=
  ⟨EventLog.rehydrate snapshot.events snapshot.terminal, snapshot.terminal⟩

/-- The frames of `watch_events` before the live ones. -/
def SessionLog.watch (x : SessionLog β) (fromSequence : Nat) : List (Frame β) :=
  x.log.replayFrom fromSequence

/-- A stream of `watch_events`: what it has sent, what is left of its replay, and the events in its
channel. The replay as it was at first and the number of events pushed before are not in the
program. -/
structure Watcher (β : Type) where
  opening : List (Frame β)
  since : Nat
  received : List (Frame β)
  replay : List (Frame β)
  unread : List (EventRecord β)

/-- The next frame: of the replay, then of the channel, which has a sender or not. A stream that is
behind by more than the channel holds ends with an error, and one without a sender at its end. -/
def Watcher.read (live : Bool) (w : Watcher β) : Option (Watcher β) :=
  match w.replay with
  | frame :: rest => some { w with replay := rest, received := w.received ++ [frame] }
  | [] =>
    if maxEventsPerSession < w.unread.length then none
    else
      match w.unread with
      | record :: rest => some { w with unread := rest, received := w.received ++ [.event record] }
      | [] => if live then some w else none

/-! ## Histories -/

/-- The session as the daemon has it, the saved snapshot, every event ever pushed, the positions
that watchers can have (the number they give when they reconnect, and the place of the last event
they know of), and the streams of the daemon. In an event of the history the body comes with its
place. -/
structure History (β : Type) where
  session : Option (SessionLog (Nat × β))
  saved : Option (LogSnapshot (Nat × β))
  pushed : List (EventRecord (Nat × β))
  cursors : List (Nat × Nat)
  watchers : List (Watcher (Nat × β))

/-- What happens to a session and its watchers. -/
inductive LogOp (β : Type)
  | push (body : β)
  /-- The terminal event, behind which the stream closes. -/
  | finish (body : β)
  | save
  /-- A restart from the snapshot; `body` reports the recovery of a session that is not terminal. -/
  | restart (body : β)
  /-- A watcher connects, from one of the positions. -/
  | watch (i : Nat)
  /-- A stream takes its next frame. -/
  | read (i : Nat)

namespace History

/-- A session before its first event. -/
def init : History β := ⟨some ⟨.new, false⟩, none, [], [(0, 0)], []⟩

/-- A watcher that gets a diagnostic goes on from the number before the first retained event. -/
def noteMarker (s : History β) (x : SessionLog (Nat × β)) : History β :=
  match x.log.events.head? with
  | none => { s with session := some x }
  | some first =>
    { s with session := some x, cursors := (first.sequence - 1, first.body.1 - 1) :: s.cursors }

/-- Pushes an event to the log of the session. -/
def pushTo (s : History β) (x : SessionLog (Nat × β)) (body : β) : History β :=
  let place := s.pushed.length + 1
  let record := x.log.nextRecord (place, body)
  noteMarker { s with pushed := s.pushed ++ [record]
                      cursors := (record.sequence, place) :: s.cursors
                      watchers := s.watchers.map fun w =>
                        { w with unread := w.unread ++ (x.log.sent (place, body)).toList } }
    { x with log := x.log.push (place, body) }

/-- The session is terminal from now on. -/
def close (s : History β) : History β :=
  { s with session := s.session.map fun x => ⟨x.log.close, true⟩ }

/-- The streams end with the daemon. -/
def unwatched (s : History β) : History β := { s with watchers := [] }

/-- One step of a session's history. -/
def step (s : History β) : LogOp β → History β
  | .push body =>
    match s.session with
    | none => s
    | some x => s.pushTo x body
  | .finish body =>
    match s.session with
    | none => s
    | some x => if x.terminal then s else (s.pushTo x body).close
  | .save =>
    match s.session with
    | none => s
    | some x => { s with saved := some x.snapshot }
  | .restart body =>
    match s.saved with
    | none => { s.unwatched with session := none }
    | some snapshot =>
      let x := SessionLog.rehydrate snapshot
      if snapshot.terminal then s.unwatched.noteMarker x else s.unwatched.pushTo x body
  | .watch i =>
    match s.session, s.cursors[i]? with
    | some x, some c =>
      -- a terminal session has nothing but the replay
      if x.terminal || !x.log.live then s
      else
        let frames := x.watch c.1
        { s with watchers := s.watchers ++ [⟨frames, s.pushed.length, [], frames, []⟩] }
    | _, _ => s
  | .read i =>
    match s.watchers[i]? with
    | none => s
    | some w =>
      match w.read (s.session.any fun x => x.log.live) with
      | some w => { s with watchers := s.watchers.set i w }
      | none => { s with watchers := s.watchers.eraseIdx i }

/-- The place of the last event of the snapshot. -/
def savedPlace (snapshot : LogSnapshot (Nat × β)) : Nat :=
  (snapshot.events.getLast?.map fun record => record.body.1).getD 0

/-- Nothing was pushed since the last save. -/
def Current (s : History β) : Prop :=
  ∀ snapshot, s.saved = some snapshot → savedPlace snapshot = s.pushed.length

/-- Every stream gets the next event: its channel has a sender, and room for one more. -/
def Reached (s : History β) : Prop :=
  ∀ x, s.session = some x → ∀ w ∈ s.watchers,
    x.log.live = true ∧ w.unread.length < maxEventsPerSession

/-- A restart finds all events in its snapshot, the numbers do not run out, and an event is pushed
when every stream gets it. -/
def StepKeeps (s : History β) (op : LogOp β) : Prop :=
  (∀ body, op = .restart body → s.Current) ∧ (s.step op).pushed.length ≤ u64Max ∧
    ((∀ body, op ≠ .restart body) → s.pushed.length < (s.step op).pushed.length → s.Reached)

/-! ## What watchers should see -/

/-- The frames for a watcher behind the place: first a diagnostic exactly when a later event is not
retained, then the retained later events in order, each once. -/
structure Faithful (pushed retained : List (EventRecord (Nat × β))) (place : Nat)
    (frames : List (Frame (Nat × β))) : Prop where
  split : ∃ (front : List (Frame (Nat × β))) (events : List (EventRecord (Nat × β))),
    frames = front ++ events.map .event ∧ (front = [] ∨ ∃ d, front = [.compacted d]) ∧
    ((∃ d, front = [.compacted d]) ↔ ∃ r ∈ pushed, place < r.body.1 ∧ r ∉ retained) ∧
    events.Sublist pushed ∧ events.Nodup ∧
    ∀ r, r ∈ events ↔ r ∈ pushed ∧ r ∈ retained ∧ place < r.body.1

/-- A stream has sent, or has still before it, its replay and then every event pushed since, in
order and once; and the channel holds what is unread. -/
structure Served (pushed : List (EventRecord (Nat × β))) (w : Watcher (Nat × β)) : Prop where
  since_le : w.since ≤ pushed.length
  frames : w.received ++ w.replay ++ w.unread.map .event =
    w.opening ++ (pushed.drop w.since).map .event
  room : w.unread.length ≤ maxEventsPerSession

/-- No number is given twice, every reconnect is faithful, and every stream is served. -/
structure Good (s : History β) : Prop where
  unique : (s.pushed.map EventRecord.sequence).Nodup
  reconnects : ∀ x, s.session = some x → ∀ c ∈ s.cursors,
    Faithful s.pushed x.log.events c.2 (x.watch c.1)
  watched : ∀ w ∈ s.watchers, Served s.pushed w

/-! ## Numbers and places -/

/-- The number of an event is its place. -/
def InOrder (records : List (EventRecord (Nat × β))) : Prop :=
  ∀ i r, records[i]? = some r → r.sequence = i + 1 ∧ r.body.1 = i + 1

/-- The session's log goes on behind the events. -/
structure Follows (pushed : List (EventRecord (Nat × β))) (x : SessionLog (Nat × β)) : Prop where
  events : x.log.events = EventLog.window pushed
  next : x.log.nextSequence = saturatingSucc pushed.length
  live : x.log.live = !x.terminal
  closed : x.terminal = true → 0 < pushed.length

/-- The snapshot was taken behind the first `m` events. -/
structure TakenAt (pushed : List (EventRecord (Nat × β))) (snapshot : LogSnapshot (Nat × β))
    (m : Nat) : Prop where
  le : m ≤ pushed.length
  events : snapshot.events = EventLog.window (pushed.take m)
  closed : snapshot.terminal = true → 0 < m

/-- What holds while no event was lost. -/
structure Numbered (s : History β) : Prop where
  record : InOrder s.pushed
  bound : s.pushed.length ≤ u64Max
  session : ∀ x, s.session = some x → Follows s.pushed x
  saved : ∀ snapshot, s.saved = some snapshot → ∃ m, TakenAt s.pushed snapshot m
  cursor : ∀ c ∈ s.cursors, c.1 = c.2 ∧ c.2 ≤ s.pushed.length
  seen : ∀ i, i < s.pushed.length → (i + 1, i + 1) ∈ s.cursors
  watched : ∀ w ∈ s.watchers, Served s.pushed w

variable {x : SessionLog (Nat × β)} {s : History β} {m : Nat}

section InOrder

variable {records : List (EventRecord (Nat × β))}

theorem InOrder.mem_bounds (h : InOrder records) {r : EventRecord (Nat × β)} (hr : r ∈ records) :
    r.sequence = r.body.1 ∧ 0 < r.body.1 ∧ r.body.1 ≤ records.length := by
  obtain ⟨i, hi, rfl⟩ := List.getElem_of_mem hr
  have hplace := h i _ (List.getElem?_eq_getElem hi)
  omega

theorem InOrder.snoc (h : InOrder records) (r : EventRecord (Nat × β))
    (hr : r.sequence = records.length + 1 ∧ r.body.1 = records.length + 1) :
    InOrder (records ++ [r]) := by
  intro i r' hr'
  rcases Nat.lt_trichotomy i records.length with hi | rfl | hi
  · rw [List.getElem?_append_left hi] at hr'
    exact h i r' hr'
  · rw [List.getElem?_append_right (Nat.le_refl _), Nat.sub_self] at hr'
    cases hr'
    exact hr
  · rw [List.getElem?_eq_none (by simp; omega)] at hr'
    cases hr'

/-- Events in order have different numbers. -/
theorem InOrder.nodup (h : InOrder records) : (records.map EventRecord.sequence).Nodup := by
  rw [List.Nodup, List.pairwise_map, List.pairwise_iff_getElem]
  intro i j hi hj hij
  have hseqi := (h i _ (List.getElem?_eq_getElem hi)).1
  have hseqj := (h j _ (List.getElem?_eq_getElem hj)).1
  omega

/-- The replay starts with a diagnostic when the first retained event is not the next one. -/
theorem InOrder.compaction (h : InOrder records) (hbound : records.length ≤ u64Max)
    {log : EventLog (Nat × β)} (hevents : log.events = EventLog.window records) (place : Nat) :
    (log.compaction place = [] ∧ records.length - maxEventsPerSession ≤ place) ∨
      ((∃ d, log.compaction place = [.compacted d]) ∧
        place < records.length - maxEventsPerSession) := by
  rw [EventLog.compaction, hevents, EventLog.window, List.head?_drop]
  cases hfirst : records[records.length - maxEventsPerSession]? with
  | none =>
    have hnil := List.getElem?_eq_none_iff.1 hfirst
    simp only [maxEventsPerSession] at hnil
    exact Or.inl ⟨rfl, by omega⟩
  | some first =>
    obtain ⟨hlt, -⟩ := List.getElem?_eq_some_iff.1 hfirst
    dsimp only
    rw [(h _ _ hfirst).1]
    have hgap := @saturatingSucc_lt_succ_iff (records.length - maxEventsPerSession) place
      (Nat.lt_of_lt_of_le hlt hbound)
    by_cases hp : place < records.length - maxEventsPerSession
    · rw [if_pos (hgap.2 hp)]
      exact Or.inr ⟨⟨_, rfl⟩, hp⟩
    · rw [if_neg (fun hlt => hp (hgap.1 hlt))]
      exact Or.inl ⟨rfl, Nat.le_of_not_lt hp⟩

end InOrder

section Streams

variable {pushed : List (EventRecord (Nat × β))} {w w' : Watcher (Nat × β)}

theorem Served.read (h : Served pushed w) {live : Bool} (hread : w.read live = some w') :
    Served pushed w' := by
  have hframes := h.frames
  have hroom := h.room
  unfold Watcher.read at hread
  split at hread
  next frame rest hreplay =>
    cases hread
    exact ⟨h.since_le, by simpa [hreplay] using hframes, hroom⟩
  next hreplay =>
    split at hread
    next => cases hread
    next =>
      split at hread
      next record rest hunread =>
        cases hread
        refine ⟨h.since_le, by simpa [hreplay, hunread] using hframes, ?_⟩
        rw [hunread, List.length_cons] at hroom
        exact Nat.le_of_succ_le hroom
      next =>
        split at hread
        · cases hread
          exact h
        · cases hread

/-- An event that reaches the stream. -/
theorem Served.push (h : Served pushed w) (hroom : w.unread.length < maxEventsPerSession)
    (record : EventRecord (Nat × β)) :
    Served (pushed ++ [record]) { w with unread := w.unread ++ [record] } := by
  have hlength : (w.unread ++ [record]).length ≤ maxEventsPerSession := by
    rw [List.length_append]
    exact hroom
  refine ⟨Nat.le_trans h.since_le (by simp), ?_, hlength⟩
  rw [List.drop_append_of_le_length h.since_le, List.map_append, List.map_append,
    ← List.append_assoc, ← List.append_assoc, h.frames]

end Streams

/-! ## Steps that keep the numbers -/

theorem Numbered.without (h : Numbered s) : Numbered { s with session := none } :=
  { h with session := nofun }

theorem Numbered.unwatched (h : Numbered s) : Numbered s.unwatched :=
  { h with watched := nofun }

/-- A watcher of a log that follows the events gets its own place from a diagnostic. -/
theorem Numbered.noteMarker (h : Numbered { s with session := none }) (hx : Follows s.pushed x) :
    Numbered (s.noteMarker x) := by
  unfold History.noteMarker
  split
  next =>
    refine { h with session := ?_ }
    rintro x' ⟨⟩
    exact hx
  next first hfirst =>
    have hmem : first ∈ s.pushed :=
      (EventLog.window_sublist _).mem (hx.events ▸ List.mem_of_head? hfirst)
    have hplace := h.record.mem_bounds hmem
    dsimp only at hplace
    refine { h with session := ?_, cursor := ?_, seen := ?_ }
    · rintro x' ⟨⟩
      exact hx
    · intro c hc
      rcases List.mem_cons.1 hc with rfl | hc
      · dsimp only
        omega
      · exact h.cursor c hc
    · exact fun i hi => List.mem_cons_of_mem _ (h.seen i hi)

/-- A push to a log that follows the events keeps the numbers, if one is left, and the streams, if
it reaches them. -/
theorem Numbered.pushTo (h : Numbered { s with session := none }) (hx : Follows s.pushed x)
    (body : β) (hbound : s.pushed.length + 1 ≤ u64Max)
    (hreached : ∀ w ∈ s.watchers, x.log.live = true ∧ w.unread.length < maxEventsPerSession) :
    Numbered (s.pushTo x body) := by
  have hnext : x.log.nextSequence = s.pushed.length + 1 :=
    hx.next.trans (saturatingSucc_of_lt hbound)
  refine Numbered.noteMarker ?_ ?_
  · constructor
    · exact h.record.snoc _ ⟨hnext, rfl⟩
    · simpa using hbound
    · nofun
    · intro snapshot hsaved
      obtain ⟨m, hm⟩ := h.saved snapshot hsaved
      refine ⟨m, ?_, ?_, hm.closed⟩
      · exact Nat.le_trans hm.le (by simp)
      · rw [List.take_append_of_le_length hm.le]
        exact hm.events
    · intro c hc
      rcases List.mem_cons.1 hc with rfl | hc
      · exact ⟨hnext, by simp⟩
      · have hold := h.cursor c hc
        exact ⟨hold.1, Nat.le_trans hold.2 (by simp)⟩
    · intro i hi
      rw [List.length_append, List.length_singleton] at hi
      rcases Nat.lt_succ_iff_lt_or_eq.1 hi with hi | rfl
      · exact List.mem_cons_of_mem _ (h.seen i hi)
      · rw [← hnext]
        exact List.mem_cons_self
    · intro w' hw'
      obtain ⟨w, hw, rfl⟩ := List.mem_map.1 hw'
      obtain ⟨hlive, hroom⟩ := hreached w hw
      simp only [EventLog.sent, hlive, if_true]
      exact (h.watched w hw).push hroom _
  · refine ⟨EventLog.events_push hx.events _, ?_, hx.live, fun _ => by simp⟩
    simp only [EventLog.push, hnext, List.length_append, List.length_singleton]

/-! ## Restarts -/

theorem InOrder.take {records : List (EventRecord (Nat × β))} (h : InOrder records) (m : Nat) :
    InOrder (records.take m) := by
  intro i r hr
  rw [List.getElem?_take] at hr
  exact h i r (Option.ite_none_right_eq_some.1 hr).2

/-- The largest number of the last events in order is that of the last one. -/
theorem InOrder.maxSequence_window {records : List (EventRecord (Nat × β))} (h : InOrder records) :
    EventLog.maxSequence (EventLog.window records) = records.length := by
  rcases List.eq_nil_or_concat records with rfl | ⟨front, last, rfl⟩
  · rw [EventLog.window_nil]
    rfl
  · rw [List.concat_eq_append] at h ⊢
    have hlast : last.sequence = front.length + 1 := (h front.length last (by simp)).1
    have hfront : ∀ r ∈ front.drop (front.length + 1 - maxEventsPerSession),
        r.sequence ≤ front.length + 1 := by
      intro r hr
      have hmem := h.mem_bounds (List.mem_append_left [last] (List.mem_of_mem_drop hr))
      rw [List.length_append, List.length_singleton] at hmem
      omega
    rw [EventLog.window_append, EventLog.maxSequence_append, hlast, List.length_append,
      List.length_singleton]
    exact Nat.max_eq_right (EventLog.maxSequence_le hfront)

/-- A session from a snapshot follows the events up to the snapshot. -/
theorem TakenAt.follows {pushed : List (EventRecord (Nat × β))} (hpushed : InOrder pushed)
    {snapshot : LogSnapshot (Nat × β)} (h : TakenAt pushed snapshot m) :
    Follows (pushed.take m) (SessionLog.rehydrate snapshot) := by
  have hwindow : (SessionLog.rehydrate snapshot).log.events = EventLog.window (pushed.take m) := by
    rw [SessionLog.rehydrate, EventLog.events_rehydrate, h.events, EventLog.window_window]
  refine ⟨hwindow, ?_, rfl, fun hclosed => ?_⟩
  · rw [SessionLog.rehydrate, EventLog.nextSequence_rehydrate, h.events, EventLog.window_window,
      (hpushed.take m).maxSequence_window]
    exact Nat.max_eq_left (Nat.le_min.2 ⟨Nat.le_add_left _ _, by decide⟩)
  · rw [List.length_take_of_le h.le]
    exact h.closed hclosed

/-- The place of the last event of a snapshot is where it was taken. -/
theorem TakenAt.savedPlace {pushed : List (EventRecord (Nat × β))} (hpushed : InOrder pushed)
    {snapshot : LogSnapshot (Nat × β)} (h : TakenAt pushed snapshot m) :
    savedPlace snapshot = m := by
  rw [History.savedPlace, h.events]
  have horder := hpushed.take m
  have hlength : (pushed.take m).length = m := List.length_take_of_le h.le
  generalize pushed.take m = front at horder hlength
  rcases List.eq_nil_or_concat front with rfl | ⟨init, last, rfl⟩
  · rw [EventLog.window_nil]
    exact hlength
  · rw [List.concat_eq_append] at horder hlength ⊢
    rw [EventLog.window_append, List.getLast?_append, List.getLast?_singleton]
    have hlast := (horder init.length last (by simp)).2
    rw [List.length_append, List.length_singleton] at hlength
    exact hlast.trans hlength

/-- A restart without a loss goes on behind all events. -/
theorem Numbered.follows_of_current (h : Numbered s) (hcurrent : s.Current)
    {snapshot : LogSnapshot (Nat × β)} (hsaved : s.saved = some snapshot) :
    Follows s.pushed (SessionLog.rehydrate snapshot) := by
  obtain ⟨m, hm⟩ := h.saved snapshot hsaved
  have hall : m = s.pushed.length := (hm.savedPlace h.record).symm.trans (hcurrent snapshot hsaved)
  have hfollows := hm.follows h.record
  rwa [hall, List.take_length] at hfollows

theorem Numbered.close (h : Numbered s) (hpushed : 0 < s.pushed.length) : Numbered s.close := by
  refine { h with session := ?_ }
  intro x hx
  obtain ⟨x', hx', rfl⟩ := Option.map_eq_some_iff.1 hx
  exact ⟨(h.session x' hx').events, (h.session x' hx').next, rfl, fun _ => hpushed⟩

@[simp]
theorem pushed_noteMarker (s : History β) (x : SessionLog (Nat × β)) :
    (s.noteMarker x).pushed = s.pushed := by
  unfold History.noteMarker
  split <;> rfl

theorem pushed_pushTo (s : History β) (x : SessionLog (Nat × β)) (body : β) :
    (s.pushTo x body).pushed =
      s.pushed ++ [x.log.nextRecord (s.pushed.length + 1, body)] :=
  pushed_noteMarker _ _

theorem length_pushed_pushTo (s : History β) (x : SessionLog (Nat × β)) (body : β) :
    (s.pushTo x body).pushed.length = s.pushed.length + 1 := by
  simp [pushed_pushTo]

/-- What a step does. -/
inductive Moved (s : History β) : LogOp β → History β → Prop
  | idle {op : LogOp β} : (∀ body, op ≠ .restart body) → Moved s op s
  | pushed {x : SessionLog (Nat × β)} (body : β) : s.session = some x →
      Moved s (.push body) (s.pushTo x body)
  | finished {x : SessionLog (Nat × β)} (body : β) : s.session = some x →
      Moved s (.finish body) (s.pushTo x body).close
  | saved {x : SessionLog (Nat × β)} : s.session = some x →
      Moved s .save { s with saved := some x.snapshot }
  | dropped (body : β) : s.saved = none →
      Moved s (.restart body) { s.unwatched with session := none }
  | reopened {snapshot : LogSnapshot (Nat × β)} (body : β) : s.saved = some snapshot →
      snapshot.terminal = true →
      Moved s (.restart body) (s.unwatched.noteMarker (SessionLog.rehydrate snapshot))
  | resumed {snapshot : LogSnapshot (Nat × β)} (body : β) : s.saved = some snapshot →
      Moved s (.restart body) (s.unwatched.pushTo (SessionLog.rehydrate snapshot) body)
  | watched {i : Nat} (frames : List (Frame (Nat × β))) : Moved s (.watch i)
      { s with watchers := s.watchers ++ [⟨frames, s.pushed.length, [], frames, []⟩] }
  | read {i : Nat} {live : Bool} {w w' : Watcher (Nat × β)} : w ∈ s.watchers →
      w.read live = some w' → Moved s (.read i) { s with watchers := s.watchers.set i w' }
  | ended {i : Nat} : Moved s (.read i) { s with watchers := s.watchers.eraseIdx i }

theorem step_moved (s : History β) (op : LogOp β) : Moved s op (s.step op) := by
  cases op with
  | push body =>
    rw [step]
    split
    next => exact .idle nofun
    next x hx => exact .pushed body hx
  | finish body =>
    rw [step]
    split
    next => exact .idle nofun
    next x hx =>
      split
      next => exact .idle nofun
      next => exact .finished body hx
  | save =>
    rw [step]
    split
    next => exact .idle nofun
    next x hx => exact .saved hx
  | restart body =>
    rw [step]
    split
    next hnone => exact .dropped body hnone
    next snapshot hsaved =>
      dsimp only
      split
      next hterminal => exact .reopened body hsaved hterminal
      next => exact .resumed body hsaved
  | watch i =>
    rw [step]
    split
    next x c _ _ =>
      split
      next => exact .idle nofun
      next => exact .watched _
    next => exact .idle nofun
  | read i =>
    rw [step]
    split
    next => exact .idle nofun
    next w hw =>
      split
      next hread => exact .read (List.mem_of_getElem? hw) hread
      next => exact .ended

/-- A step that loses nothing keeps the numbers and the streams. -/
theorem Numbered.step {s : History β} (h : Numbered s) {op : LogOp β} (hop : s.StepKeeps op) :
    Numbered (s.step op) := by
  obtain ⟨hcurrent, hbound, hreached⟩ := hop
  generalize s.step op = s', step_moved s op = hmoved at hbound hreached ⊢
  cases hmoved with
  | idle => exact h
  | @pushed x body hx =>
    rw [length_pushed_pushTo] at hbound hreached
    exact h.without.pushTo (h.session x hx) body hbound
      (hreached (by simp) (Nat.lt_succ_self _) x hx)
  | @finished x body hx =>
    have hlength : (s.pushTo x body).close.pushed.length = s.pushed.length + 1 :=
      length_pushed_pushTo s x body
    rw [hlength] at hbound hreached
    refine (h.without.pushTo (h.session x hx) body hbound
      (hreached (by simp) (Nat.lt_succ_self _) x hx)).close ?_
    rw [length_pushed_pushTo]
    exact Nat.succ_pos _
  | saved hx =>
    refine { h with saved := ?_ }
    rintro snapshot ⟨⟩
    have hx := h.session _ hx
    refine ⟨s.pushed.length, Nat.le_refl _, ?_, hx.closed⟩
    rw [List.take_length]
    exact hx.events
  | dropped => exact h.unwatched.without
  | reopened body hsaved =>
    exact h.unwatched.without.noteMarker (h.follows_of_current (hcurrent body rfl) hsaved)
  | resumed body hsaved =>
    rw [length_pushed_pushTo] at hbound
    exact h.unwatched.without.pushTo (h.follows_of_current (hcurrent body rfl) hsaved) body hbound
      (by simp [History.unwatched])
  | watched frames =>
    refine { h with watched := ?_ }
    intro w hw
    rcases List.mem_append.1 hw with hw | hw
    · exact h.watched w hw
    · rw [List.mem_singleton.1 hw]
      exact ⟨Nat.le_refl _, by simp, Nat.zero_le _⟩
  | read hw hread =>
    refine { h with watched := ?_ }
    intro v hv
    rcases List.mem_or_eq_of_mem_set hv with hv | rfl
    · exact h.watched v hv
    · exact (h.watched _ hw).read hread
  | ended => exact { h with watched := fun w hw => h.watched w (List.mem_of_mem_eraseIdx hw) }

/-! ## Steps that lose events -/

end History

end EasyNetDaemon.RemoteDesktop
