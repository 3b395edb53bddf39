import Mathlib.Algebra.Group.Nat.Defs
import Mathlib.Data.List.Induction

/-!
# The event log of a remote desktop session

A session keeps its last 256 events in a ring and sends each new one to the live subscribers. Events
are numbered by a counter of the log. A watcher that connects again gives the number of the last
event it received and gets the retained events with a larger number; when the first retained number
shows that some are missing, a diagnostic comes first.

A recovery snapshot holds the retained events; a log that is built from it counts on from the
largest number it finds there.
-/

namespace EasyNetDaemon.RemoteDesktop

/-- The events kept of a session. -/
def maxEventsPerSession : Nat := 256

def u64Max : Nat := 2 ^ 64 - 1

/-- `saturating_add(1)`. -/
def saturatingSucc (n : Nat) : Nat := min (n + 1) u64Max

theorem saturatingSucc_of_lt {n : Nat} (h : n < u64Max) : saturatingSucc n = n + 1 :=
  Nat.min_eq_left h

theorem saturatingSucc_lt_succ_iff {m n : Nat} (hm : m < u64Max) :
    saturatingSucc n < m + 1 ↔ n < m := by
  unfold saturatingSucc
  omega

/-- An event with its number; the body is everything else in it. -/
structure EventRecord (β : Type) where
  sequence : Nat
  body : β
  deriving DecidableEq, Repr

/-- The frame that tells a watcher of missing events. -/
structure CompactionDiagnostic where
  sequence : Nat
  requestedFromSequence : Nat
  firstRetainedSequence : Nat
  lastRetainedSequence : Option Nat
  nextSequence : Nat
  retainedEventCapacity : Nat
  deriving DecidableEq, Repr

/-- What a watcher receives. -/
inductive Frame (β : Type)
  | compacted (diagnostic : CompactionDiagnostic)
  | event (record : EventRecord β)
  deriving DecidableEq, Repr

/-- The retained events, the oldest first, whether the log still has a sender for live subscribers,
and the next number. -/
structure EventLog (β : Type) where
  events : List (EventRecord β)
  live : Bool
  nextSequence : Nat
  deriving DecidableEq, Repr

namespace EventLog

variable {β : Type}

def new : EventLog β := ⟨[], true, 1⟩

/-- The largest number of a list of events, 0 for none. -/
def maxSequence (events : List (EventRecord β)) : Nat :=
  events.foldl (fun m record => max m record.sequence) 0

theorem maxSequence_append (events : List (EventRecord β)) (record : EventRecord β) :
    maxSequence (events ++ [record]) = max (maxSequence events) record.sequence := by
  rw [maxSequence, List.foldl_append]
  rfl

theorem maxSequence_le {events : List (EventRecord β)} {m : Nat}
    (h : ∀ record ∈ events, record.sequence ≤ m) : maxSequence events ≤ m := by
  induction events using List.reverseRecOn with
  | nil => exact Nat.zero_le m
  | append_singleton events record ih =>
    rw [maxSequence_append]
    exact Nat.max_le.2 ⟨ih fun r hr => h r (List.mem_append_left _ hr), h record (by simp)⟩

/-- The log of a snapshot. -/
def rehydrate (events : List (EventRecord β)) (terminal : Bool) : EventLog β :=
  let retained := events.drop (events.length - maxEventsPerSession)
  ⟨retained, !terminal, max (saturatingSucc (maxSequence retained)) 1⟩

/-- The diagnostic has the number before the first retained one. -/
def compactionDiagnostic (log : EventLog β) (fromSequence first : Nat) : CompactionDiagnostic :=
  ⟨first - 1, fromSequence, first, log.events.getLast?.map EventRecord.sequence, log.nextSequence,
    maxEventsPerSession⟩

/-- The frame in front of a replay. -/
def compaction (log : EventLog β) (fromSequence : Nat) : List (Frame β) :=
  match log.events.head? with
  | none => []
  | some first =>
    if saturatingSucc fromSequence < first.sequence then
      [.compacted (log.compactionDiagnostic fromSequence first.sequence)]
    else []

/-- What a reader gets from a position on. -/
def replayFrom (log : EventLog β) (fromSequence : Nat) : List (Frame β) :=
  log.compaction fromSequence ++
    (log.events.filter fun record => fromSequence < record.sequence).map .event

/-- The subscribers' channel ends. -/
def close (log : EventLog β) : EventLog β := { log with live := false }

/-- The record that the next push stores. -/
def nextRecord (log : EventLog β) (body : β) : EventRecord β := ⟨log.nextSequence, body⟩

/-- Adds an event. -/
def push (log : EventLog β) (body : β) : EventLog β :=
  let kept := if log.events.length = maxEventsPerSession then log.events.tail else log.events
  { log with
    events := kept ++ [log.nextRecord body]
    nextSequence := saturatingSucc log.nextSequence }

/-- What a push sends to the live subscribers. -/
def sent (log : EventLog β) (body : β) : Option (EventRecord β) :=
  if log.live then some (log.nextRecord body) else none

/-! ## The window of the last events -/

/-- The last events of a list, as many as a log retains. -/
def window (events : List (EventRecord β)) : List (EventRecord β) :=
  events.drop (events.length - maxEventsPerSession)

theorem events_rehydrate (events : List (EventRecord β)) (terminal : Bool) :
    (rehydrate events terminal).events = window events := by
  simp only [rehydrate, window]

theorem nextSequence_rehydrate (events : List (EventRecord β)) (terminal : Bool) :
    (rehydrate events terminal).nextSequence =
      max (saturatingSucc (maxSequence (window events))) 1 := by
  simp only [rehydrate, window]

@[simp]
theorem window_nil : window ([] : List (EventRecord β)) = [] := by
  simp only [window, List.drop_nil]

theorem length_window (events : List (EventRecord β)) :
    (window events).length = min events.length maxEventsPerSession := by
  rw [window, List.length_drop]
  omega

theorem window_window (events : List (EventRecord β)) : window (window events) = window events := by
  have hle : (window events).length ≤ maxEventsPerSession := by
    rw [length_window]
    exact Nat.min_le_right _ _
  rw [window.eq_1 (window events), Nat.sub_eq_zero_of_le hle, List.drop_zero]

theorem window_sublist (events : List (EventRecord β)) : (window events).Sublist events :=
  List.drop_sublist _ _

theorem window_append (events : List (EventRecord β)) (record : EventRecord β) :
    window (events ++ [record]) =
      events.drop (events.length + 1 - maxEventsPerSession) ++ [record] := by
  have hle : events.length + 1 - maxEventsPerSession ≤ events.length := by
    simp only [maxEventsPerSession]
    omega
  rw [window, List.length_append, List.length_singleton, List.drop_append_of_le_length hle]

/-- A log that has the last of all events has them after a push. -/
theorem events_push {log : EventLog β} {all : List (EventRecord β)} (h : log.events = window all)
    (body : β) : (log.push body).events = window (all ++ [log.nextRecord body]) := by
  rw [window_append, push]
  simp only [h, length_window]
  split
  next hfull =>
    -- The oldest event leaves the ring.
    have hlong : maxEventsPerSession ≤ all.length := by omega
    rw [window, List.tail_drop, Nat.sub_add_comm hlong]
  next hfree =>
    have hshort : all.length + 1 ≤ maxEventsPerSession := by omega
    rw [window, Nat.sub_eq_zero_of_le hshort,
      Nat.sub_eq_zero_of_le (Nat.le_of_succ_le hshort)]

end EventLog

end EasyNetDaemon.RemoteDesktop
