import EasyNetDaemon.Library.Queues
import EasyNetDaemon.Library.RustText
import EasyNetDaemon.Library.StepRun
import Mathlib.Data.List.Chain

/-!
# The presence registry and its events

The registry holds one row for each URA with a live session, and tells its subscribers about every
change with an `Online` or an `Offline` event. A call updates the map in one step and emits its
events in later ones, so the calls of several tasks interleave: `Registry.step` performs one atomic
step of one call.

Every row that is installed gets a session number of its own, the number of rows installed before
it; an emission is recorded with the number of the session it is about. Replaying the emissions of a
URA (`replay`) says which session they leave online. When no call changes the map of a URA while
another one has yet to emit an event of this URA, the replay agrees with the map (`Accounted.step`).
-/

namespace EasyNetDaemon.Presence

open Library

variable {U : Type}

/-- Why a session was removed. -/
inductive OfflineReason
  | streamClosed
  | streamReset
  | sendFailed
  | adminRevoked
deriving DecidableEq, Repr

/-- `PresenceEvent`: what subscribers receive. -/
inductive PresenceEvent (U : Type)
  | online (ura : U)
  | offline (ura : U) (reason : OfflineReason)
deriving DecidableEq, Repr

/-- The session's URA. -/
def PresenceEvent.ura : PresenceEvent U → U
  | .online ura => ura
  | .offline ura _ => ura

/-- The session came. -/
def PresenceEvent.isOnline : PresenceEvent U → Bool
  | .online _ => true
  | .offline _ _ => false

/-- A row that dispatches to a session, with the key the session was admitted by, or a row that is
only visible in the directory. -/
inductive SlotKind
  | dispatch (admittedPublicKey : Option String)
  | resolveOnly
deriving DecidableEq, Repr

/-- A row of the registry. `session` is the number of rows installed before this one; the program
does not have it. -/
structure PresenceSlot where
  sessionId : UInt64
  kind : SlotKind
  session : Nat
deriving DecidableEq, Repr

/-- `PresenceSlot::matches_admitted_key`. -/
def PresenceSlot.matchesAdmittedKey (slot : PresenceSlot) (publicKey : String) : Bool :=
  match slot.kind with
  | .dispatch admitted => admitted == some (RustText.trim publicKey)
  | .resolveOnly => false

/-- An event on the broadcast channel, with the session it is about. -/
structure Emission (U : Type) where
  event : PresenceEvent U
  session : Nat
deriving DecidableEq, Repr

/-- A call on the registry: an insert that has taken its session id and not updated the map yet, or
a call whose map update is done, with the events it has still to emit. -/
inductive Call (U : Type)
  | inserting (ura : U) (kind : SlotKind) (sessionId : UInt64)
  | emitting (rest : List (Emission U))
deriving DecidableEq, Repr

/-- The events a call has still to emit. -/
def Call.rest : Call U → List (Emission U)
  | .inserting _ _ _ => []
  | .emitting rest => rest

/-- The call has returned. -/
def Call.Returned (call : Call U) : Prop := call = .emitting []

instance [DecidableEq U] (call : Call U) : Decidable call.Returned :=
  inferInstanceAs (Decidable (call = .emitting []))

/-- `PresenceRegistry`, with the calls made on it so far and everything it has emitted. -/
structure Registry (U : Type) where
  byUra : U → Option PresenceSlot
  nextSessionId : UInt64
  installs : Nat
  calls : List (Call U)
  emitted : List (Emission U)

/-- `PresenceRegistry::new`. -/
def Registry.new : Registry U where
  byUra := fun _ => none
  nextSessionId := 1
  installs := 0
  calls := []
  emitted := []

/-- One atomic step of a call. Calls are named by the order in which they begin. -/
inductive RegistryEvent (U : Type)
  | insert (ura : U) (kind : SlotKind)
  | install (call : Nat)
  | remove (ura : U) (reason : OfflineReason)
  | removeIfSession (ura : U) (sessionId : UInt64) (reason : OfflineReason)
  | forceRevoke (ura : U)
  | forceRevokeIfAdmittedKey (ura : U) (publicKey : String)
  | emit (call : Nat)
deriving DecidableEq, Repr

variable {r : Registry U} {e : RegistryEvent U}

namespace Registry

variable [DecidableEq U]

/-- The events of an insert: `Offline` for a row that it displaces, then `Online`. -/
def installEvents (r : Registry U) (ura : U) : List (Emission U) :=
  let online := { event := .online ura, session := r.installs }
  match r.byUra ura with
  | some prior => [{ event := .offline ura .streamClosed, session := prior.session }, online]
  | none => [online]

/-- The map update of an insert. -/
def install (r : Registry U) (i : Nat) (ura : U) (kind : SlotKind) (sessionId : UInt64) :
    Registry U :=
  { r with
    byUra := Function.update r.byUra ura (some { sessionId, kind, session := r.installs })
    installs := r.installs + 1
    calls := r.calls.set i (.emitting (r.installEvents ura)) }

/-- The map update of the removing calls: the row goes if it is there and passes the test, and its
`Offline` event is then to be emitted. -/
def removeIf (r : Registry U) (ura : U) (test : PresenceSlot → Bool) (reason : OfflineReason) :
    Registry U :=
  match (r.byUra ura).filter test with
  | some slot =>
    { r with
      byUra := Function.update r.byUra ura none
      calls := r.calls ++
        [.emitting [{ event := .offline ura reason, session := slot.session }]] }
  | none => { r with calls := r.calls ++ [.emitting []] }

/-- `PresenceRegistry::remove`. -/
def remove (r : Registry U) (ura : U) (reason : OfflineReason) : Registry U :=
  r.removeIf ura (fun _ => true) reason

/-- `PresenceRegistry::remove_if_session`. -/
def removeIfSession (r : Registry U) (ura : U) (sessionId : UInt64) (reason : OfflineReason) :
    Registry U :=
  r.removeIf ura (fun slot => slot.sessionId == sessionId) reason

/-- `PresenceRegistry::force_revoke`. -/
def forceRevoke (r : Registry U) (ura : U) : Registry U :=
  r.remove ura .adminRevoked

/-- `PresenceRegistry::force_revoke_if_admitted_key`. -/
def forceRevokeIfAdmittedKey (r : Registry U) (ura : U) (publicKey : String) : Registry U :=
  r.removeIf ura (fun slot => slot.matchesAdmittedKey publicKey) .adminRevoked

/-- One step of the registry; there is none for a call that has no such step to make. -/
def step (r : Registry U) : RegistryEvent U → Option (Registry U)
  | .insert ura kind =>
    some { r with
      nextSessionId := r.nextSessionId + 1
      calls := r.calls ++ [.inserting ura kind r.nextSessionId] }
  | .install i =>
    match r.calls[i]? with
    | some (.inserting ura kind sessionId) => some (r.install i ura kind sessionId)
    | _ => none
  | .remove ura reason => some (r.remove ura reason)
  | .removeIfSession ura sessionId reason => some (r.removeIfSession ura sessionId reason)
  | .forceRevoke ura => some (r.forceRevoke ura)
  | .forceRevokeIfAdmittedKey ura publicKey => some (r.forceRevokeIfAdmittedKey ura publicKey)
  | .emit i =>
    match r.calls[i]? with
    | some (.emitting (e :: rest)) =>
      some { r with calls := r.calls.set i (.emitting rest), emitted := r.emitted ++ [e] }
    | _ => none

/-- The event that a call emits next. -/
def next (r : Registry U) (i : Nat) : Option (Emission U) := r.calls[i]?.bind (·.rest.head?)

/-- The events that calls in progress have still to emit, call by call. -/
def queues (r : Registry U) : List (List (Emission U)) := r.calls.map Call.rest

/-- What the removing events ask for: the URA, the test on its row, and the reason. -/
def removal : RegistryEvent U → Option (U × (PresenceSlot → Bool) × OfflineReason)
  | .remove ura reason => some (ura, fun _ => true, reason)
  | .removeIfSession ura sessionId reason =>
    some (ura, fun slot => slot.sessionId == sessionId, reason)
  | .forceRevoke ura => some (ura, fun _ => true, .adminRevoked)
  | .forceRevokeIfAdmittedKey ura publicKey =>
    some (ura, fun slot => slot.matchesAdmittedKey publicKey, .adminRevoked)
  | .insert _ _ | .install _ | .emit _ => none

theorem step_eq_removeIf {ura : U} {test : PresenceSlot → Bool} {reason : OfflineReason}
    (h : removal e = some (ura, test, reason)) : r.step e = some (r.removeIf ura test reason) := by
  cases e <;> cases h <;> rfl

/-- The URA whose row a step changes. -/
def changes (r : Registry U) (e : RegistryEvent U) : Option U :=
  match e with
  | .install i =>
    match r.calls[i]? with
    | some (.inserting ura _ _) => some ura
    | _ => none
  | e =>
    match removal e with
    | some (ura, test, _) => if ((r.byUra ura).filter test).isSome then some ura else none
    | none => none

/-- The row of a URA is removed, and the call has the `Offline` event still to emit. -/
def take (r : Registry U) (ura : U) (slot : PresenceSlot) (reason : OfflineReason) : Registry U :=
  { r with
    byUra := Function.update r.byUra ura none
    calls := r.calls ++ [.emitting [{ event := .offline ura reason, session := slot.session }]] }

/-- What one step can do: begin a call that has nothing to emit, install a row, take a row away, or
emit an event. -/
theorem step_cases {r' : Registry U} (h : r.step e = some r') :
    (∃ call next, call.rest = [] ∧
      r' = { r with nextSessionId := next, calls := r.calls ++ [call] }) ∨
    (∃ i ura kind sessionId, r.calls[i]? = some (.inserting ura kind sessionId) ∧
      r.changes e = some ura ∧ r' = r.install i ura kind sessionId) ∨
    (∃ ura slot reason, r.byUra ura = some slot ∧ r.changes e = some ura ∧
      r' = r.take ura slot reason) ∨
    ∃ i x rest, r.calls[i]? = some (.emitting (x :: rest)) ∧ e = .emit i ∧
      r' = { r with calls := r.calls.set i (.emitting rest), emitted := r.emitted ++ [x] } := by
  cases hremoval : removal e with
  | some ask =>
    obtain ⟨ura, test, reason⟩ := ask
    rw [step_eq_removeIf hremoval] at h
    cases hrow : (r.byUra ura).filter test with
    | none =>
      simp only [removeIf, hrow, Option.some.injEq] at h
      exact Or.inl ⟨.emitting [], r.nextSessionId, rfl, h.symm⟩
    | some slot =>
      simp only [removeIf, hrow, Option.some.injEq] at h
      refine Or.inr (Or.inr (Or.inl ⟨ura, slot, reason, (Option.filter_eq_some_iff.1 hrow).1, ?_,
        h.symm⟩))
      cases e <;> cases hremoval <;> simp [changes, removal, hrow]
  | none =>
    cases e with
    | insert ura kind => exact Or.inl ⟨_, _, rfl, (Option.some.inj h).symm⟩
    | install i =>
      simp only [step] at h
      split at h
      · rename_i ura kind sessionId hcall
        exact Or.inr (Or.inl ⟨i, ura, kind, sessionId, hcall, by simp [changes, hcall],
          (Option.some.inj h).symm⟩)
      · cases h
    | emit i =>
      simp only [step] at h
      split at h
      · rename_i x rest hcall
        exact Or.inr (Or.inr (Or.inr ⟨i, x, rest, hcall, rfl, (Option.some.inj h).symm⟩))
      · cases h
    | _ => cases hremoval

end Registry

/-! ## What a step changes -/

/-- The URA and the session of an `Offline` event. -/
def Emission.offline? (x : Emission U) : Option (U × Nat) :=
  match x.event with
  | .online _ => none
  | .offline ura _ => some (ura, x.session)

namespace Registry

/-- The sessions whose `Offline` event is still to be emitted. -/
def pendingOfflines (r : Registry U) : List (U × Nat) :=
  r.queues.flatten.filterMap Emission.offline?

/-- The session was in the map and is not any more. -/
def Ended (r r' : Registry U) (x : U × Nat) : Prop :=
  ∃ slot, r.byUra x.1 = some slot ∧ slot.session = x.2 ∧ r'.byUra x.1 ≠ some slot

/-- Session numbers of rows are numbers that were given out. -/
def Numbered (r : Registry U) : Prop :=
  ∀ ura slot, r.byUra ura = some slot → slot.session < r.installs

/-- What a step does to the map and to the events, told apart from the calls that do it. -/
structure Effect (r r' : Registry U) (new : List (Emission U)) : Prop where
  emitted : r'.emitted = r.emitted ++ new
  offlines : ∀ x, x ∈ new.filterMap Emission.offline? ∨ x ∈ r'.pendingOfflines ↔
    x ∈ r.pendingOfflines ∨ Ended r r' x
  rows : ∀ ura slot, r'.byUra ura = some slot →
    r.byUra ura = some slot ∨ r.installs ≤ slot.session
  numbered : Numbered r'
  installs : r.installs ≤ r'.installs

variable [DecidableEq U]

omit [DecidableEq U] in
theorem mem_offlines_installEvents {ura : U} {x : U × Nat} :
    x ∈ (r.installEvents ura).filterMap Emission.offline? ↔
      ∃ prior, r.byUra ura = some prior ∧ x = (ura, prior.session) := by
  cases hrow : r.byUra ura with
  | none => simp [installEvents, hrow, Emission.offline?]
  | some prior => simp [installEvents, hrow, Emission.offline?]

theorem effect_install (hnumbered : r.Numbered) {i : Nat} {ura : U} {kind : SlotKind}
    {sessionId : UInt64} (hcall : r.calls[i]? = some (.inserting ura kind sessionId)) :
    Effect r (r.install i ura kind sessionId) [] := by
  have hqueue : r.queues[i]? = some [] := by simp [queues, hcall, Call.rest]
  obtain ⟨l₁, l₂, hsplit, hset⟩ := exists_split_set hqueue
  have hqueues : (r.install i ura kind sessionId).queues = l₁ ++ r.installEvents ura :: l₂ := by
    rw [← hset]
    exact List.map_set
  constructor
  · simp [install]
  · intro x
    have hevents : x ∈ (r.installEvents ura).filterMap Emission.offline? ↔
        Ended r (r.install i ura kind sessionId) x := by
      rw [mem_offlines_installEvents]
      constructor
      · rintro ⟨prior, hprior, rfl⟩
        refine ⟨prior, hprior, rfl, fun hsame => ?_⟩
        have hrow : r.installs = prior.session := by
          simpa [install, hprior] using congrArg (Option.map PresenceSlot.session) hsame
        exact absurd (hnumbered ura prior hprior) (by omega)
      · rintro ⟨slot, hslot, hsession, hgone⟩
        have hura : x.1 = ura := by
          by_contra hne
          exact hgone (by simpa [install, Function.update_of_ne hne] using hslot)
        exact ⟨slot, hura ▸ hslot, Prod.ext hura hsession.symm⟩
    simp only [pendingOfflines, hqueues, hsplit, List.flatten_append, List.flatten_cons,
      List.filterMap_append, List.mem_append, List.nil_append, hevents, List.filterMap_nil,
      List.not_mem_nil, false_or]
    tauto
  · intro ura' slot hrow
    by_cases hne : ura' = ura
    · subst hne
      right
      have hslot : slot = { sessionId, kind, session := r.installs } := by
        simpa [install] using hrow.symm
      rw [hslot]
    · left
      simpa [install, Function.update_of_ne hne] using hrow
  · intro ura' slot hrow
    by_cases hne : ura' = ura
    · subst hne
      have hslot : slot = { sessionId, kind, session := r.installs } := by
        simpa [install] using hrow.symm
      rw [hslot]
      exact Nat.lt_succ_self _
    · refine Nat.lt_succ_of_lt (hnumbered ura' slot ?_)
      simpa [install, Function.update_of_ne hne] using hrow
  · exact Nat.le_succ _

theorem effect_take (hnumbered : r.Numbered) {ura : U} {slot : PresenceSlot}
    (hrow : r.byUra ura = some slot) (reason : OfflineReason) :
    Effect r (r.take ura slot reason) [] := by
  constructor
  · simp [take]
  · intro x
    have hended : x = (ura, slot.session) ↔ Ended r (r.take ura slot reason) x := by
      constructor
      · rintro rfl
        exact ⟨slot, hrow, rfl, by simp [take]⟩
      · rintro ⟨slot', hslot', hsession, hgone⟩
        have hura : x.1 = ura := by
          by_contra hne
          exact hgone (by simpa [take, Function.update_of_ne hne] using hslot')
        rw [hura, hrow] at hslot'
        cases hslot'
        exact Prod.ext hura hsession.symm
    have hpending : (r.take ura slot reason).pendingOfflines =
        r.pendingOfflines ++ [(ura, slot.session)] := by
      simp [pendingOfflines, queues, take, Call.rest, Emission.offline?]
    rw [hpending, List.mem_append, List.mem_singleton, hended]
    simp
  · intro ura' slot' hrow'
    left
    by_cases hne : ura' = ura
    · simp [take, hne] at hrow'
    · simpa [take, Function.update_of_ne hne] using hrow'
  · intro ura' slot' hrow'
    refine hnumbered ura' slot' ?_
    by_cases hne : ura' = ura
    · simp [take, hne] at hrow'
    · simpa [take, Function.update_of_ne hne] using hrow'
  · exact Nat.le_refl _

/-- The effect of any step. New events come one at a time and from the `emit` step only. -/
theorem effect_step {r' : Registry U} (hnumbered : r.Numbered) (hstep : r.step e = some r') :
    ∃ new, Effect r r' new ∧ (new = [] ∨ ∃ i x, e = .emit i ∧ r.next i = some x ∧ new = [x]) := by
  rcases step_cases hstep with ⟨call, next, hrest, rfl⟩ | ⟨i, ura, kind, sessionId, hcall, -, rfl⟩ |
    ⟨ura, slot, reason, hrow, -, rfl⟩ | ⟨i, x, rest, hcall, hemit, rfl⟩
  · refine ⟨[], ⟨by simp, ?_, fun _ _ h => Or.inl h, hnumbered, Nat.le_refl _⟩, Or.inl rfl⟩
    intro x
    have hended : ¬ Ended r { r with nextSessionId := next, calls := r.calls ++ [call] } x := by
      rintro ⟨slot, hslot, -, hgone⟩
      exact hgone hslot
    simp [pendingOfflines, queues, hrest, hended]
  · exact ⟨[], effect_install hnumbered hcall, Or.inl rfl⟩
  · exact ⟨[], effect_take hnumbered hrow reason, Or.inl rfl⟩
  · have hqueue : r.queues[i]? = some (x :: rest) := by simp [queues, hcall, Call.rest]
    obtain ⟨l₁, l₂, hsplit, hset⟩ := exists_split_set hqueue
    have hqueues : (r.calls.set i (.emitting rest)).map Call.rest = l₁ ++ rest :: l₂ := by
      rw [← hset]
      exact List.map_set
    refine ⟨[x], ⟨rfl, ?_, fun _ _ h => Or.inl h, hnumbered, Nat.le_refl _⟩,
      Or.inr ⟨i, x, hemit, by simp [next, hcall, Call.rest], rfl⟩⟩
    intro y
    have hended : ¬ Ended r
        { r with calls := r.calls.set i (.emitting rest), emitted := r.emitted ++ [x] } y := by
      rintro ⟨slot, hslot, -, hgone⟩
      exact hgone hslot
    have hmem : y ∈ (x :: rest).filterMap Emission.offline? ↔
        y ∈ [x].filterMap Emission.offline? ∨ y ∈ rest.filterMap Emission.offline? := by
      rw [← List.mem_append, ← List.filterMap_append]
      rfl
    simp only [pendingOfflines, queues] at hsplit ⊢
    simp only [hqueues, hsplit, List.flatten_append, List.flatten_cons, List.filterMap_append,
      List.mem_append, hmem, hended, or_false]
    tauto

end Registry

/-! ## Replaying the events of a URA -/

/-- The session that is online after one more event of a URA: an `Online` event needs that none is,
and an `Offline` event that its own session is. -/
def replayOne (live : Option Nat) (x : Emission U) : Option (Option Nat) :=
  match x.event, live with
  | .online _, none => some (some x.session)
  | .offline _ _, some session => if session = x.session then some none else none
  | _, _ => none

/-- The session that the events of a URA leave online, if they alternate as they should. -/
def replay (l : List (Emission U)) : Option (Option Nat) := l.foldlM replayOne none

theorem replay_append (l l' : List (Emission U)) :
    replay (l ++ l') = (replay l).bind fun live => l'.foldlM replayOne live :=
  List.foldlM_append

namespace Registry

variable [DecidableEq U]

/-- The events of a URA that were emitted, in order. -/
def history (r : Registry U) (ura : U) : List (Emission U) :=
  r.emitted.filter fun x => x.event.ura = ura

/-- The events of a URA that calls in progress have still to emit. -/
def outstanding (r : Registry U) (ura : U) : List (Emission U) :=
  r.queues.flatten.filter fun x => x.event.ura = ura

/-- The row of a URA is changed only when no call has an event of this URA still to emit. -/
def NoOverlap (r : Registry U) (e : RegistryEvent U) : Prop :=
  ∀ ura ∈ r.changes e, r.outstanding ura = []

instance (r : Registry U) (e : RegistryEvent U) : Decidable (r.NoOverlap e) :=
  inferInstanceAs (Decidable (∀ ura ∈ r.changes e, r.outstanding ura = []))

/-- The emitted events of every URA, continued by those that are still to be emitted, leave online
the session that is in the map. -/
structure Accounted (r : Registry U) : Prop where
  apart : KeysApart (fun x : Emission U => x.event.ura) r.queues
  replays : ∀ ura, replay (r.history ura ++ r.outstanding ura) =
    some ((r.byUra ura).map PresenceSlot.session)

theorem accounted_new : (new : Registry U).Accounted where
  apart := List.Pairwise.nil
  replays := fun _ => rfl

theorem outstanding_eq_nil_iff {ura : U} :
    r.outstanding ura = [] ↔ ∀ q ∈ r.queues, ∀ x ∈ q, x.event.ura ≠ ura := by
  simp only [outstanding, List.filter_eq_nil_iff, List.mem_flatten, decide_eq_true_eq]
  exact ⟨fun h q hq x hx => h x ⟨q, hq, hx⟩, fun h x ⟨q, hq, hx⟩ => h q hq x hx⟩

theorem Accounted.replay_history (h : r.Accounted) {ura : U} (hnone : r.outstanding ura = []) :
    replay (r.history ura) = some ((r.byUra ura).map PresenceSlot.session) := by
  have := h.replays ura
  rwa [hnone, List.append_nil] at this

/-- The events that a call gives itself to emit on a URA without outstanding events: they belong to
this URA and lead the replay from the row before to the row after. -/
structure Leads (r : Registry U) (ura : U) (q : List (Emission U)) (row : Option PresenceSlot) :
    Prop where
  own : ∀ x ∈ q, x.event.ura = ura
  replays : q.foldlM replayOne ((r.byUra ura).map PresenceSlot.session) =
    some (row.map PresenceSlot.session)

variable {q : List (Emission U)} {row : Option PresenceSlot}

theorem Leads.filter_self {ura : U} (h : Leads r ura q row) :
    (q.filter fun x => x.event.ura = ura) = q := by
  rw [List.filter_eq_self]
  intro x hx
  simpa using h.own x hx

theorem Leads.filter_ne {ura ura' : U} (h : Leads r ura q row) (hne : ura' ≠ ura) :
    (q.filter fun x => x.event.ura = ura') = [] := by
  rw [List.filter_eq_nil_iff]
  intro x hx
  rw [h.own x hx]
  simpa using hne.symm

omit [DecidableEq U] in
theorem leads_install (r : Registry U) (ura : U) (sessionId : UInt64) (kind : SlotKind) :
    Leads r ura (r.installEvents ura) (some { sessionId, kind, session := r.installs }) := by
  constructor
  · intro x hx
    cases hrow : r.byUra ura with
    | none =>
      simp only [installEvents, hrow, List.mem_singleton] at hx
      rw [hx]
      rfl
    | some prior =>
      simp only [installEvents, hrow, List.mem_cons, List.not_mem_nil, or_false] at hx
      rcases hx with rfl | rfl <;> rfl
  · cases hrow : r.byUra ura with
    | none => simp [installEvents, replayOne, hrow]
    | some prior => simp [installEvents, replayOne, hrow]

omit [DecidableEq U] in
theorem leads_take {ura : U} {slot : PresenceSlot} (hrow : r.byUra ura = some slot)
    (reason : OfflineReason) :
    Leads r ura [{ event := .offline ura reason, session := slot.session }] none := by
  constructor
  · intro x hx
    rw [List.mem_singleton.1 hx]
    rfl
  · simp [replayOne, hrow]

/-- A map update with its events to emit keeps the account of every URA. -/
theorem Accounted.update {r' : Registry U} (h : r.Accounted) {ura : U}
    (hnone : r.outstanding ura = []) (hq : Leads r ura q row)
    (hmap : r'.byUra = Function.update r.byUra ura row) (hemitted : r'.emitted = r.emitted)
    (hqueues : r'.queues = r.queues ++ [q] ∨
      ∃ i, r.queues[i]? = some [] ∧ r'.queues = r.queues.set i q) : r'.Accounted := by
  have hapart : ∀ q' ∈ r.queues, ∀ x ∈ q', ∀ y ∈ q, x.event.ura ≠ y.event.ura := by
    intro q' hq' x hx y hy
    rw [hq.own y hy]
    exact outstanding_eq_nil_iff.1 hnone q' hq' x hx
  have hself : r'.outstanding ura = q := by
    rcases hqueues with hqueues | ⟨i, hi, hqueues⟩
    · rw [outstanding, hqueues, List.flatten_append, List.filter_append, ← outstanding, hnone]
      simpa using hq.filter_self
    · rw [outstanding, hqueues, filter_flatten_fill hi hnone, hq.filter_self]
  have hother : ∀ ura' ≠ ura, r'.outstanding ura' = r.outstanding ura' := by
    intro ura' hne
    rcases hqueues with hqueues | ⟨i, hi, hqueues⟩
    · rw [outstanding, hqueues, List.flatten_append, List.filter_append, ← outstanding,
        List.flatten_singleton, hq.filter_ne hne, List.append_nil]
    · rw [outstanding, hqueues, filter_flatten_fill_of_none hi (hq.filter_ne hne), ← outstanding]
  constructor
  · rcases hqueues with hqueues | ⟨i, hi, hqueues⟩
    · rw [hqueues]
      exact h.apart.append_queue hapart
    · rw [hqueues]
      exact h.apart.fill hi hapart
  · intro ura'
    rw [history, hemitted, ← history, hmap]
    by_cases hne : ura' = ura
    · subst hne
      rw [hself, Function.update_self, replay_append, h.replay_history hnone]
      exact hq.replays
    · rw [hother ura' hne, Function.update_of_ne hne]
      exact h.replays ura'

/-- One step keeps the account, if it does not overlap with an event still to be emitted. -/
theorem Accounted.step {r r' : Registry U} {e : RegistryEvent U} (h : r.Accounted)
    (hquiet : r.NoOverlap e) (hstep : r.step e = some r') : r'.Accounted := by
  rcases step_cases hstep with ⟨call, next, hrest, rfl⟩ | ⟨i, ura, kind, sessionId, hcall, hchanges,
    rfl⟩ | ⟨ura, slot, reason, hrow, hchanges, rfl⟩ | ⟨i, x, rest, hcall, -, rfl⟩
  · have hqueues : ∀ p, ((r.calls ++ [call]).map Call.rest).flatten.filter p =
        r.queues.flatten.filter p := by
      intro p
      simp [queues, hrest]
    constructor
    · rw [queues, List.map_append, List.map_singleton, hrest]
      exact h.apart.append_queue (by simp)
    · intro ura
      rw [outstanding, queues, hqueues]
      exact h.replays ura
  · exact h.update (hquiet ura hchanges) (leads_install r ura sessionId kind) rfl rfl
      (Or.inr ⟨i, by simp [queues, hcall, Call.rest], List.map_set⟩)
  · exact h.update (hquiet ura hchanges) (leads_take hrow reason) rfl rfl (Or.inl List.map_append)
  · have hqueue : r.queues[i]? = some (x :: rest) := by simp [queues, hcall, Call.rest]
    have hset : (r.calls.set i (.emitting rest)).map Call.rest = r.queues.set i rest := List.map_set
    constructor
    · rw [queues, hset]
      exact h.apart.pop hqueue
    · intro ura
      -- the event moves from the front of its URA's outstanding events to the end of its history
      have hpop := filter_flatten_pop h.apart hqueue ura
      rw [← h.replays ura, outstanding, outstanding, queues, hset, hpop, history, history,
        List.filter_append, List.append_assoc]

end Registry

/-! ## What subscribers see -/

/-- After one event may come another: the two are of different kind, and an `Offline` event is about
the session of the `Online` event before it. -/
def Follows (x y : Emission U) : Prop :=
  x.event.isOnline ≠ y.event.isOnline ∧ (x.event.isOnline = true → y.session = x.session)

/-- What a successful replay says of the list. -/
structure Replayed (l : List (Emission U)) (live : Option Nat) : Prop where
  online : ∀ session, live = some session →
    ∃ x, l.getLast? = some x ∧ x.event.isOnline = true ∧ x.session = session
  offline : live = none → ∀ x ∈ l.getLast?, x.event.isOnline = false
  alternate : l.IsChain Follows
  starts : ∀ x ∈ l.head?, x.event.isOnline = true

theorem replayed_of_replay {l : List (Emission U)} {live : Option Nat} (h : replay l = some live) :
    Replayed l live := by
  induction l using List.reverseRecOn generalizing live with
  | nil =>
    cases h
    exact ⟨by simp, by simp, List.IsChain.nil, by simp⟩
  | append_singleton l x ih =>
    rw [replay_append] at h
    obtain ⟨before, hbefore, hlast⟩ := Option.bind_eq_some_iff.1 h
    have hprior := ih hbefore
    have hone : replayOne before x = some live := by
      simpa using hlast
    cases hevent : x.event with
    | online ura =>
      -- an `Online` event: nothing was online before it
      cases before with
      | some session => simp [replayOne, hevent] at hone
      | none =>
        have hlive : some x.session = live := by simpa [replayOne, hevent] using hone
        subst hlive
        refine ⟨?_, by simp, ?_, ?_⟩
        · rintro session ⟨⟩
          exact ⟨x, by simp, by rw [hevent]; rfl, rfl⟩
        · refine List.isChain_append.2 ⟨hprior.alternate, List.isChain_singleton _, ?_⟩
          intro y hy z hz
          have hz : x = z := by simpa using hz
          subst hz
          have hy := hprior.offline rfl y hy
          exact ⟨by rw [hy, hevent]; exact Bool.false_ne_true, by rw [hy]; exact fun h => nomatch h⟩
        · intro y hy
          cases l with
          | nil =>
            have hy : x = y := by simpa using hy
            rw [← hy, hevent]
            rfl
          | cons z l => exact hprior.starts y hy
    | offline ura reason =>
      -- an `Offline` event: its own session was online before it
      cases before with
      | none => simp [replayOne, hevent] at hone
      | some session =>
        have hsession : session = x.session ∧ none = live := by
          by_cases hsession : session = x.session
          · simpa [replayOne, hevent, hsession] using hone
          · simp [replayOne, hevent, hsession] at hone
        obtain ⟨rfl, rfl⟩ := hsession
        obtain ⟨w, hw, honline, hsession⟩ := hprior.online _ rfl
        refine ⟨by simp, ?_, ?_, ?_⟩
        · intro _ y hy
          have hy : x = y := by simpa using hy
          rw [← hy, hevent]
          rfl
        · refine List.isChain_append.2 ⟨hprior.alternate, List.isChain_singleton _, ?_⟩
          intro y hy z hz
          have hz : x = z := by simpa using hz
          subst hz
          cases hw.symm.trans hy
          exact ⟨by rw [honline, hevent]; exact Bool.false_ne_true.symm, fun _ => hsession.symm⟩
        · intro y hy
          cases l with
          | nil => cases hw
          | cons z l => exact hprior.starts y hy

namespace Registry

variable [DecidableEq U]

/-- The events of a URA agree with its row: the last one is `Online`, for the session in the map,
exactly when there is a row, and the events alternate, each `Offline` event accounting for the
session that was online. -/
structure Agrees (r : Registry U) (ura : U) : Prop where
  online : ∀ slot, r.byUra ura = some slot →
    ∃ x, (r.history ura).getLast? = some x ∧ x.event = .online ura ∧ x.session = slot.session
  offline : r.byUra ura = none → ∀ x ∈ (r.history ura).getLast?, x.event.isOnline = false
  alternate : (r.history ura).IsChain Follows
  starts : ∀ x ∈ (r.history ura).head?, x.event = .online ura

theorem event_eq_online {ura : U} {x : Emission U} (hx : x ∈ r.history ura)
    (h : x.event.isOnline = true) : x.event = .online ura := by
  have hura : x.event.ura = ura := by simpa [history] using (List.mem_filter.1 hx).2
  cases hevent : x.event with
  | online ura' =>
    rw [hevent] at hura
    exact congrArg _ hura
  | offline ura' reason =>
    rw [hevent] at h
    cases h

theorem Accounted.agrees (h : r.Accounted) {ura : U} (hnone : r.outstanding ura = []) :
    r.Agrees ura := by
  have hreplayed := replayed_of_replay (h.replay_history hnone)
  refine ⟨?_, ?_, hreplayed.alternate, ?_⟩
  · intro slot hslot
    obtain ⟨x, hx, honline, hsession⟩ := hreplayed.online slot.session (by rw [hslot]; rfl)
    exact ⟨x, hx, event_eq_online (List.mem_of_getLast? hx) honline, hsession⟩
  · intro hrow
    exact hreplayed.offline (by rw [hrow]; rfl)
  · intro x hx
    exact event_eq_online (List.mem_of_mem_head? hx) (hreplayed.starts x hx)

/-- No call is in progress. -/
def Idle (r : Registry U) : Prop := ∀ call ∈ r.calls, call.Returned

instance (r : Registry U) : Decidable r.Idle :=
  inferInstanceAs (Decidable (∀ call ∈ r.calls, call.Returned))

theorem Idle.outstanding_eq_nil (h : r.Idle) (ura : U) : r.outstanding ura = [] := by
  rw [outstanding_eq_nil_iff]
  intro q hq x hx
  obtain ⟨call, hcall, rfl⟩ := List.mem_map.1 hq
  rw [h call hcall] at hx
  cases hx

/-- In a run in which no call changes the row of a URA while another call has an event of this URA
still to emit, the events of every URA agree with the map in each state without a call in
progress. -/
theorem events_agree_with_registry {events : List (RegistryEvent U)} {r : Registry U}
    (hrun : runSteps step (new : Registry U) events = some r)
    (hquiet : AllSteps step NoOverlap (new : Registry U) events) (hidle : r.Idle) (ura : U) :
    r.Agrees ura := by
  have haccounted : r.Accounted :=
    hquiet.invariant (fun _ _ _ h hq hs => h.step hq hs) accounted_new hrun
  exact haccounted.agrees (hidle.outstanding_eq_nil ura)

/-- A camera connects, reconnects and is revoked, one call after the other. -/
def sampleCalls : List (RegistryEvent String) :=
  [.insert "cam" (.dispatch none), .install 0, .emit 0,
    .insert "cam" (.dispatch none), .install 1, .emit 1, .emit 1,
    .forceRevoke "cam", .emit 2]

theorem events_agree_with_registry_sampleCalls :
    ∃ r, runSteps step (new : Registry String) sampleCalls = some r ∧
      AllSteps step NoOverlap (new : Registry String) sampleCalls ∧ r.Idle ∧ r.Agrees "cam" := by
  have hquiet : AllSteps step NoOverlap (new : Registry String) sampleCalls := by decide +kernel
  exact ⟨_, rfl, hquiet, by decide +kernel,
    events_agree_with_registry rfl hquiet (by decide +kernel) "cam"⟩

/-- The insert has updated the map when the row is removed, and emits its event last: the camera is
not in the map, and the last event says that it is online. -/
def overlappingCalls : List (RegistryEvent String) :=
  [.insert "cam" (.dispatch none), .install 0, .remove "cam" .streamClosed, .emit 1, .emit 0]

theorem removed_session_stays_online :
    ∃ r, runSteps step (new : Registry String) overlappingCalls = some r ∧ r.Idle ∧
      r.byUra "cam" = none ∧
      (r.history "cam").map (·.event) = [.offline "cam" .streamClosed, .online "cam"] :=
  ⟨_, rfl, by decide +kernel, by decide +kernel, by decide +kernel⟩

end Registry

end EasyNetDaemon.Presence
