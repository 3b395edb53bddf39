import EasyNetDaemon.Library.StepRun

/-!
# The approval broker

`ask` looks for subscribers, puts its request into the pending queue, publishes it and waits for a
decision until a timeout; `decide` takes a request out of the queue and sends the ask its decision.
The steps of any number of asks and decisions interleave.

An action is allowed only when nobody observed the broker at the gate, or by the decision that was
accepted for the request; at most one is. The timeout does not take the request out of the queue: it
stays listed until somebody decides it, and this decision is accepted although the ask was denied.

Requests are numbered by their asks. An ask keeps the decision that was sent to it, also when nobody
receives it any more.
-/

namespace EasyNetDaemon.Permission

open Library

/-- The answer of a subscriber. -/
inductive PermissionDecision
  | allow
  | deny
  | allowOnce
  deriving DecidableEq, Repr

/-- Why an ask returned: no subscriber at the gate, no receiver when it published, the timeout, or a
decision. -/
inductive Answer
  | unobserved
  | unpublished
  | timedOut
  | decided (decision : PermissionDecision)
  deriving DecidableEq, Repr

/-- What the ask returned. -/
def Answer.decision : Answer → PermissionDecision
  | .unobserved => .allow
  | .unpublished | .timedOut => .deny
  | .decided decision => decision

/-- How far a call of `ask` has come. -/
inductive AskPhase
  | started
  | observed
  | queued
  | publishFailed
  | waiting
  | returned (answer : Answer)
  deriving DecidableEq, Repr

/-- A call of `ask` with its response channel. -/
structure Ask where
  phase : AskPhase
  sent : Option PermissionDecision
  deriving DecidableEq, Repr

/-- The broker and all questions asked. -/
structure SubscriberBroker where
  subscribers : Nat
  pending : List Nat
  asks : List Ask
  deriving DecidableEq, Repr

/-- What happens to the broker. -/
inductive BrokerEvent
  | subscribe
  | unsubscribe
  | ask
  | advance (id : Nat)
  | timeout (id : Nat)
  | decide (id : Nat) (decision : PermissionDecision)
  deriving DecidableEq, Repr

/-- Why an answer is refused. -/
inductive DecideError
  | unknown (id : Nat)
  deriving DecidableEq, Repr

namespace SubscriberBroker

/-- A broker before the first question. -/
def new : SubscriberBroker := { subscribers := 0, pending := [], asks := [] }

/-- The broker with another state of a question. -/
def setAsk (s : SubscriberBroker) (id : Nat) (ask : Ask) : SubscriberBroker :=
  { s with asks := s.asks.set id ask }

/-- A question leaves the queue. -/
def dequeue (s : SubscriberBroker) (id : Nat) : SubscriberBroker :=
  { s with pending := s.pending.filter (· != id) }

/-- `SubscriberBroker::decide`. -/
def decide (s : SubscriberBroker) (id : Nat) (decision : PermissionDecision) :
    SubscriberBroker × Except DecideError Unit :=
  if id ∈ s.pending then
    match s.asks[id]? with
    | some ask => ((s.dequeue id).setAsk id { ask with sent := some decision }, .ok ())
    | none => (s.dequeue id, .ok ())
  else (s, .error (.unknown id))

/-- The next step of `SubscriberBroker::ask`. -/
def advance (s : SubscriberBroker) (id : Nat) (ask : Ask) : Option SubscriberBroker :=
  match ask.phase with
  | .started =>
    let phase := if s.subscribers = 0 then AskPhase.returned .unobserved else .observed
    some (s.setAsk id { ask with phase })
  | .observed =>
    some ({ s with pending := s.pending ++ [id] }.setAsk id { ask with phase := .queued })
  | .queued =>
    let phase := if s.subscribers = 0 then AskPhase.publishFailed else .waiting
    some (s.setAsk id { ask with phase })
  | .publishFailed =>
    some ((s.dequeue id).setAsk id { ask with phase := .returned .unpublished })
  | .waiting =>
    ask.sent.map fun decision => s.setAsk id { ask with phase := .returned (.decided decision) }
  | .returned _ => none

/-- One step of the broker. -/
def step (s : SubscriberBroker) : BrokerEvent → Option SubscriberBroker
  | .subscribe => some { s with subscribers := s.subscribers + 1 }
  | .unsubscribe =>
    if s.subscribers = 0 then none else some { s with subscribers := s.subscribers - 1 }
  | .ask => some { s with asks := s.asks ++ [{ phase := .started, sent := none }] }
  | .advance id => s.asks[id]?.bind (s.advance id)
  | .timeout id =>
    match s.asks[id]? with
    | some { phase := .waiting, sent } =>
      some (s.setAsk id { phase := .returned .timedOut, sent })
    | _ => none
  | .decide id decision => some (s.decide id decision).1

end SubscriberBroker

/-! ## The queue and the answers -/

/-- The request of the ask is in the queue: it was put there, no decision was sent, and a failed
publication has not removed it. -/
def Ask.Listed (ask : Ask) : Prop :=
  match ask.phase with
  | .started | .observed | .returned .unobserved | .returned .unpublished => False
  | .queued | .publishFailed | .waiting | .returned .timedOut | .returned (.decided _) =>
    ask.sent = none

/-- A decision is sent only to an ask that was queued, and returned only if it was sent. -/
def Ask.Honest (ask : Ask) : Prop :=
  match ask.phase with
  | .started | .observed | .returned .unobserved => ask.sent = none
  | .returned (.decided decision) => ask.sent = some decision
  | .queued | .publishFailed | .waiting | .returned .unpublished | .returned .timedOut => True

/-- A later state of the same ask: an answer is final. -/
def Ask.Before (ask ask' : Ask) : Prop :=
  ∀ answer, ask.phase = .returned answer → ask'.phase = .returned answer

/-- Sending the decision takes the request off the list. -/
theorem Ask.Listed.send {ask : Ask} (h : ask.Listed) (honest : ask.Honest)
    (decision : PermissionDecision) :
    ¬ Ask.Listed { ask with sent := some decision } ∧
      Ask.Honest { ask with sent := some decision } := by
  obtain ⟨phase, sent⟩ := ask
  cases phase with
  | started | observed => exact h.elim
  | queued | publishFailed | waiting => exact ⟨Option.some_ne_none _, trivial⟩
  | returned answer =>
    cases answer with
    | unobserved | unpublished => exact h.elim
    | timedOut => exact ⟨Option.some_ne_none _, trivial⟩
    | decided other => cases h.symm.trans honest

namespace SubscriberBroker

/-- The ask and the queue agree. -/
structure Tracks (pending : List Nat) (id : Nat) (ask : Ask) : Prop where
  listed : id ∈ pending ↔ ask.Listed
  honest : ask.Honest

/-- The queue lists the requests of listed asks and no others. -/
structure Consistent (s : SubscriberBroker) : Prop where
  asks : ∀ id ask, s.asks[id]? = some ask → Tracks s.pending id ask
  pending : ∀ id ∈ s.pending, id < s.asks.length

/-- What a step can do. -/
inductive Step (s : SubscriberBroker) : SubscriberBroker → Prop
  | subscribers (n : Nat) : Step s { s with subscribers := n }
  | ask : Step s { s with asks := s.asks ++ [{ phase := .started, sent := none }] }
  | update (id : Nat) (ask ask' : Ask) (pending : List Nat) : s.asks[id]? = some ask →
    ask.Before ask' → (∀ other ≠ id, (other ∈ pending ↔ other ∈ s.pending)) →
    Tracks pending id ask' → Step s { s with pending, asks := s.asks.set id ask' }

variable {s s' : SubscriberBroker}

theorem step_advance {id : Nat} {ask : Ask} (hask : s.asks[id]? = some ask)
    (htracks : Tracks s.pending id ask) (h : s.advance id ask = some s') : Step s s' := by
  obtain ⟨phase, sent⟩ := ask
  obtain ⟨hlisted, hhonest⟩ := htracks
  cases phase with
  | started =>
    cases h
    refine .update id _ _ s.pending hask (by simp [Ask.Before]) (fun _ _ => Iff.rfl) ?_
    split_ifs <;> exact ⟨hlisted, hhonest⟩
  | observed =>
    cases h
    refine .update id _ _ (s.pending ++ [id]) hask (by simp [Ask.Before]) ?_ ?_
    · intro other hne
      simp [hne]
    · exact ⟨iff_of_true (by simp) hhonest, trivial⟩
  | queued =>
    cases h
    refine .update id _ _ s.pending hask (by simp [Ask.Before]) (fun _ _ => Iff.rfl) ?_
    split_ifs <;> exact ⟨hlisted, trivial⟩
  | publishFailed =>
    cases h
    refine .update id _ _ (s.pending.filter (· != id)) hask (by simp [Ask.Before]) ?_ ?_
    · intro other hne
      simp [hne]
    · exact ⟨iff_of_false (by simp) not_false, trivial⟩
  | waiting =>
    obtain ⟨decision, rfl, rfl⟩ := Option.map_eq_some_iff.1 h
    exact .update id _ _ s.pending hask (by simp [Ask.Before]) (fun _ _ => Iff.rfl)
      ⟨hlisted, rfl⟩
  | returned answer => cases h

theorem step_decide (hs : s.Consistent) (id : Nat) (decision : PermissionDecision) :
    Step s (s.decide id decision).1 := by
  unfold SubscriberBroker.decide
  split_ifs with hpending
  · have hask := List.getElem?_eq_getElem (hs.pending id hpending)
    obtain ⟨hlisted, hhonest⟩ := hs.asks id _ hask
    obtain ⟨hnot, hhonest'⟩ := Ask.Listed.send (hlisted.1 hpending) hhonest decision
    rw [hask]
    refine .update id _ _ (s.pending.filter (· != id)) hask (fun _ hphase => hphase) ?_
      ⟨iff_of_false (by simp) hnot, hhonest'⟩
    intro other hne
    simp [hne]
  · exact .subscribers s.subscribers

theorem step_of_eq_some (hs : s.Consistent) {e : BrokerEvent} (h : s.step e = some s') :
    Step s s' := by
  cases e with
  | subscribe =>
    cases h
    exact .subscribers _
  | unsubscribe =>
    simp only [step] at h
    split_ifs at h
    cases h
    exact .subscribers _
  | ask =>
    cases h
    exact .ask
  | advance id =>
    obtain ⟨ask, hask, hadvance⟩ := Option.bind_eq_some_iff.1 h
    exact step_advance hask (hs.asks id ask hask) hadvance
  | timeout id =>
    simp only [step] at h
    split at h
    · rename_i sent hask
      cases h
      exact .update id _ _ s.pending hask (by simp [Ask.Before]) (fun _ _ => Iff.rfl)
        ⟨(hs.asks id _ hask).listed, trivial⟩
    · cases h
  | decide id decision =>
    cases h
    exact step_decide hs id decision

theorem Step.consistent (h : Step s s') (hs : s.Consistent) : s'.Consistent := by
  cases h with
  | subscribers n => exact ⟨hs.asks, hs.pending⟩
  | ask =>
    constructor
    · intro id ask hask
      by_cases hlt : id < s.asks.length
      · rw [List.getElem?_append_left hlt] at hask
        exact hs.asks id ask hask
      · rw [List.getElem?_append_right (Nat.le_of_not_lt hlt)] at hask
        rw [List.mem_singleton.1 (List.mem_of_getElem? hask)]
        exact ⟨iff_of_false (fun hid => hlt (hs.pending id hid)) not_false, rfl⟩
    · intro id hid
      have := hs.pending id hid
      simp only [List.length_append, List.length_singleton]
      omega
  | update id ask ask' pending hask _ hothers htracks =>
    have hlt := (List.getElem?_eq_some_iff.1 hask).1
    constructor
    · intro other ask'' hget
      by_cases hother : other = id
      · subst hother
        rw [List.getElem?_set_self hlt] at hget
        cases hget
        exact htracks
      · rw [List.getElem?_set_ne (Ne.symm hother)] at hget
        obtain ⟨hlisted, hhonest⟩ := hs.asks other ask'' hget
        exact ⟨(hothers other hother).trans hlisted, hhonest⟩
    · intro other hother
      rw [List.length_set]
      by_cases hid : other = id
      · exact hid ▸ hlt
      · exact hs.pending other ((hothers other hid).1 hother)

theorem Step.before (h : Step s s') {id : Nat} {ask : Ask} (hask : s.asks[id]? = some ask) :
    ∃ ask', s'.asks[id]? = some ask' ∧ ask.Before ask' := by
  have hlt := (List.getElem?_eq_some_iff.1 hask).1
  have hself : ask.Before ask := fun _ hphase => hphase
  cases h with
  | subscribers n => exact ⟨ask, hask, hself⟩
  | ask => exact ⟨ask, (List.getElem?_append_left hlt).trans hask, hself⟩
  | update id' old new pending hold hbefore =>
    by_cases hid : id = id'
    · subst hid
      cases hask.symm.trans hold
      exact ⟨new, List.getElem?_set_self hlt, hbefore⟩
    · exact ⟨ask, (List.getElem?_set_ne (Ne.symm hid)).trans hask, hself⟩

end SubscriberBroker

end EasyNetDaemon.Permission
