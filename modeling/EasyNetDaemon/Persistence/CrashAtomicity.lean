import EasyNetDaemon.Library.StepRun
import EasyNetDaemon.Persistence.ReplayFidelity

/-!
# Crash atomicity

An event is a call together with the point at which it stops: one of its writes fails and the
process lives on with the error, or the process dies after some of its writes and the store is
reopened. `Atomic` asks of an event that the directory it leaves behind reopens to the maps and the
head before the call or after the whole call, and that a live process that saw an error holds the
maps a reopen would give.

`atomic_iff_stopSafe` says for whole runs which events are atomic. A call appends its records one by
one, each followed by the manifest, and updates the maps after the last of them, so only four kinds
of events are: those that write nothing, compactions, calls that fail at their first write, and
calls that stop after their last record, if that record replays.
-/

namespace EasyNetDaemon.Persistence

open Library EasyNetDaemon.Core Admission

/-! ## Events -/

/-- Where a call stops, counted in successful writes. -/
inductive Stop
  | undisturbed
  | writeFails (writes : Nat)
  | processDies (writes : Nat) (reopenedAt : Instant)
  deriving DecidableEq, Repr

/-- The number of writes that succeed. -/
def Stop.allowed : Stop → Option Nat
  | .undisturbed => none
  | .writeFails n | .processDies n _ => some n

/-- The process lives on after the call. -/
def Stop.lives : Stop → Bool
  | .processDies _ _ => false
  | _ => true

/-- A call, and where it stops. -/
structure Event where
  call : Call
  stop : Stop

section Events

variable (env : Environment) (owner : String)

/-- The running store and the result of the call when the event happens. -/
def stopped (r : Running) (event : Event) : Running × Except String Reply :=
  run env event.stop.allowed r event.call

/-- The store that the next call finds: the live one, or the reopened one if it opens. -/
def afterEvent (r : Running) (event : Event) : Option Running :=
  match event.stop with
  | .processDies _ reopenedAt =>
    (openOrCreateAt env owner reopenedAt (stopped env r event).1.dir).toOption
  | _ => some (stopped env r event).1

/-- A run of events; it ends where a store does not reopen. -/
def runEvents (r : Running) (events : List Event) : Option Running :=
  runSteps (afterEvent env owner) r events

/-- The two stores have the same maps and the same head. -/
def SameState (store store' : AccessControlStore) : Prop :=
  store.maps = store'.maps ∧ store.headHash = store'.headHash

/-- The event is atomic: whenever the store is reopened, it has the state before or after the whole
call, and a live process that got an error holds the same maps. -/
def Atomic (r : Running) (event : Event) : Prop :=
  ∀ now, ∃ r', openOrCreateAt env owner now (stopped env r event).1.dir = .ok r' ∧
    (SameState r'.store r.store ∨ SameState r'.store (run env none r event.call).1.store) ∧
    (event.stop.lives = true → (∃ error, (stopped env r event).2 = .error error) →
      (stopped env r event).1.store.maps = r'.store.maps)

end Events

/-- The number of records a call appends. -/
def callLines (env : Environment) (store : AccessControlStore) (call : Call) : Nat :=
  ((committed env store call).map fun c => c.entries.length).getD 0

/-- The condition on an event and the store it finds: the call appends nothing, or is a compaction,
or fails at its first write, or appends all its records, which replay; a process that lives on must
also have written the manifest after the last one. -/
def StopSafe (env : Environment) (store : AccessControlStore) (event : Event) : Prop :=
  callLines env store event.call = 0 ∨
    (∃ policy, event.call.operation = .compact policy) ∨
    event.stop.allowed = some 0 ∨
    (ReplaySafe env store.maps event.call.operation ∧
      match event.stop with
      | .undisturbed => True
      | .writeFails writes => 2 * callLines env store event.call ≤ writes
      | .processDies writes _ => 2 * callLines env store event.call ≤ writes + 1)

/-! ## A commit changes the maps -/

section Changes

variable {env : Environment} {store : AccessControlStore} {call : Call} {c : Commit}

theorem insert_ne_self {α : Type} {t : Table α} {k : String} {v : α} (h : t[k]? ≠ some v) :
    t.insert k v ≠ t := by
  intro heq
  apply h
  rw [← heq, Table.getElem?_insert_eq, if_pos rfl]

/-- The step of a request record is a change. -/
theorem RequestStep.changes {maps : PolicyMaps} {request : PermissionRequest}
    {operation : RecordOperation} (h : RequestStep env maps request operation) :
    maps.requests[request.requestId]? ≠ some request := by
  intro hsame
  have hoperation := h.operation_eq
  rw [hsame] at hoperation
  simp only [requestTransitionOperation] at hoperation
  split at hoperation
  · rename_i hpending
    rw [hpending] at hoperation
    cases hoperation
  · cases hoperation

/-- Every commit but a checkpoint changes the maps. -/
theorem Planned.finish_ne (h : Planned env store call c) (hk : store.maps.Keyed)
    (hsafe : ReplaySafe env store.maps call.operation)
    (hcompact : ∀ policy, call.operation ≠ .compact policy) : c.finish store.maps ≠ store.maps := by
  intro heq
  cases h with
  | create requested grant reply hop hnew =>
    refine insert_ne_self ?_ (congrArg PolicyMaps.grants heq)
    rw [hnew.fresh]
    exact (Option.some_ne_none _).symm
  | revoke grantId owner reason existing reply hop hexisting hstate =>
    refine insert_ne_self ?_ (congrArg PolicyMaps.grants heq)
    rw [show (revokedGrant existing _ reason).grantId = grantId from
      hk.grants grantId existing hexisting, hexisting]
    exact fun h => hstate (congrArg PermissionGrant.state (Option.some.inj h))
  | consume grantId existing hop hexisting hstate =>
    refine insert_ne_self ?_ (congrArg PolicyMaps.grants heq)
    rw [show (consumedGrant existing _).grantId = grantId from
      hk.grants grantId existing hexisting, hexisting]
    intro h
    have hexpired : existing.state = .expired :=
      congrArg PermissionGrant.state (Option.some.inj h)
    rw [hstate] at hexpired
    cases hexpired
  | upsert request hop hpending hvalid hunmatched =>
    rw [hop] at hsafe
    refine insert_ne_self ?_ (congrArg PolicyMaps.requests heq)
    rw [show store.maps.requests[request.requestId]? = none from hsafe]
    exact (Option.some_ne_none _).symm
  | resolve requested request operation hop hid hstep hauthority =>
    exact insert_ne_self hstep.changes (congrArg PolicyMaps.requests heq)
  | approveRepeated requested requestedGrant grant existing operation hop happroved hnormalized
      hresolves hfound hid hstep =>
    exact insert_ne_self hstep.changes (congrArg PolicyMaps.requests heq)
  | approveWithGrant requested requestedGrant grant operation hop happroved hresolves hnew hstep =>
    exact insert_ne_self hstep.changes (congrArg PolicyMaps.requests heq)
  | approveWithProof requested proof operation hop happroved hresolves hnew hstep =>
    exact insert_ne_self hstep.changes (congrArg PolicyMaps.requests heq)
  | putProof proof hop hnew =>
    refine insert_ne_self ?_ (congrArg PolicyMaps.proofs heq)
    rw [hnew.fresh]
    exact (Option.some_ne_none _).symm
  | consumeProof proofId proof hop hexisting hunconsumed =>
    apply hunconsumed
    rw [← congrArg PolicyMaps.consumedProofIds heq]
    exact Std.ExtTreeSet.mem_insert_self
  | checkpoint policy hop hpolicy => exact hcompact policy hop

end Changes

/-! ## One event -/

/-- The journal rebuilds the live maps. -/
structure InSync (env : Environment) (owner : String) (r : Running) (J : List JournalRecord) :
    Prop where
  journaled : Journaled env owner r J
  rebuilds : rebuild env J = .ok r.store.maps

section OneEvent

variable {env : Environment} {owner : String} {r : Running} {J : List JournalRecord}
variable {event : Event} {c : Commit}

/-- What is left on the disk when a call that writes stops. -/
abbrev keptRecords (env : Environment) (r : Running) (event : Event) (c : Commit) :
    List JournalRecord :=
  (callRecords env r.store event.call c).take
    (linesWritten event.stop.allowed c.entries.length)

theorem callLines_eq (hc : committed env r.store event.call = some c) :
    callLines env r.store event.call = c.entries.length := by
  simp [callLines, hc]

theorem callLines_pos (hc : committed env r.store event.call = some c) : 0 < c.entries.length :=
  List.length_pos_iff.2 (planned_of_committed hc).entries_ne_nil

/-- In a store whose journal rebuilds its maps, an event that writes nothing is atomic. -/
theorem InSync.atomic_of_none (hs : InSync env owner r J)
    (hc : committed env r.store event.call = none) : Atomic env owner r event := by
  intro now
  obtain ⟨r', hopen, hmaps, -, hhead⟩ := hs.journaled.opens hs.rebuilds now
  have hsame : (stopped env r event).1 = r := run_of_committed_none hc
  rw [hsame]
  exact ⟨r', hopen, Or.inl ⟨hmaps, hhead⟩, fun _ _ => hmaps.symm⟩

/-- The atomicity of an event that writes, in terms of what the records left on the disk rebuild. -/
theorem InSync.atomic_iff (hs : InSync env owner r J)
    (hc : committed env r.store event.call = some c) :
    Atomic env owner r event ↔
      ∃ maps, rebuild env (J ++ keptRecords env r event c) = .ok maps ∧
        (maps = r.store.maps ∧ (stopped env r event).1.store.headHash = r.store.headHash ∨
          maps = c.finish r.store.maps ∧ (stopped env r event).1.store.headHash =
            (run env none r event.call).1.store.headHash) ∧
        (event.stop.lives = true → (∃ error, (stopped env r event).2 = .error error) →
          (stopped env r event).1.store.maps = maps) := by
  have hstopped := (run_spec hs.journaled hc event.stop.allowed).journaled
  have hmaps : (run env none r event.call).1.store.maps = c.finish r.store.maps :=
    (run_spec hs.journaled hc none).maps_eq
  constructor
  · intro h
    obtain ⟨r', hopen, hstate, hlive⟩ := h 0
    obtain ⟨-, hrebuild, hhead⟩ := hstopped.reopen hopen
    refine ⟨r'.store.maps, hrebuild, ?_, hlive⟩
    rw [SameState, SameState, hmaps, hhead] at hstate
    exact hstate
  · rintro ⟨maps, hrebuild, hstate, hlive⟩ now
    obtain ⟨r', hopen, hr', -, hhead⟩ := hstopped.opens hrebuild now
    rw [← hr'] at hstate hlive
    refine ⟨r', hopen, ?_, hlive⟩
    rw [SameState, SameState, hmaps, hhead]
    exact hstate

/-- The head after the stop is that of the store before the call exactly when no record was
written, and that after the whole call exactly when all of them were. -/
theorem InSync.head_eq_iff (hlaws : env.Lawful) (hs : InSync env owner r J)
    (hc : committed env r.store event.call = some c) :
    ((stopped env r event).1.store.headHash = r.store.headHash ↔
        linesWritten event.stop.allowed c.entries.length = 0) ∧
      ((stopped env r event).1.store.headHash =
          (run env none r event.call).1.store.headHash ↔
        c.entries.length ≤ linesWritten event.stop.allowed c.entries.length) := by
  have hstopped := (run_spec hs.journaled hc event.stop.allowed).journaled
  have hwhole := (run_spec hs.journaled hc none).journaled
  have hrecords : (callRecords env r.store event.call c).take
      (linesWritten none c.entries.length) = callRecords env r.store event.call c := by
    rw [linesWritten, ← callRecords_length env r.store event.call c]
    exact List.take_length
  rw [hrecords] at hwhole
  have hlength : (callRecords env r.store event.call c).length = c.entries.length :=
    callRecords_length _ _ _ _
  have hpos := callLines_pos hc
  generalize hj : linesWritten event.stop.allowed c.entries.length = j at hstopped ⊢
  generalize callRecords env r.store event.call c = records at hstopped hwhole hlength
  have hstart := hs.journaled.chain
  have hhead := hstopped.chain
  have hend := hwhole.chain
  constructor
  · constructor
    · intro heq
      by_contra hne
      refine head_ne_of_append hstart hhead
        (hashes_nodup hlaws hstopped.numbered hstopped.sealed_all) ?_ heq.symm
      rw [Ne, List.take_eq_nil_iff]
      rintro (h | h)
      · exact hne h
      · rw [← hlength, h] at hpos
        exact Nat.lt_irrefl 0 hpos
    · rintro rfl
      rw [List.take_zero, List.append_nil] at hhead
      exact linked_end_unique hhead hstart
  · constructor
    · intro heq
      by_contra hlt
      have hsplit : J ++ records = (J ++ records.take j) ++ records.drop j := by
        rw [List.append_assoc, List.take_append_drop]
      have hdistinct := hashes_nodup hlaws hwhole.numbered hwhole.sealed_all
      rw [hsplit] at hend hdistinct
      refine head_ne_of_append hhead hend hdistinct ?_ heq
      rw [Ne, List.drop_eq_nil_iff, hlength]
      exact hlt
    · intro hle
      rw [List.take_of_length_le (hlength.trans_le hle)] at hhead
      exact linked_end_unique hhead hend

theorem committed_compact {policy : AccessControlCompactionPolicy}
    (hc : committed env r.store event.call = some c)
    (hop : event.call.operation = .compact policy) :
    c.entries.length = 1 ∧ c.finish r.store.maps = r.store.maps := by
  cases plan_compact hop (committed_eq_some hc).2
  exact ⟨rfl, rfl⟩

/-- No record was written: the state before the call. -/
theorem InSync.atomic_of_first (hlaws : env.Lawful) (hs : InSync env owner r J)
    (hc : committed env r.store event.call = some c)
    (hnone : linesWritten event.stop.allowed c.entries.length = 0) : Atomic env owner r event := by
  have hfail : completes event.stop.allowed c.entries.length = false := by
    have hpos := callLines_pos hc
    cases hallowed : event.stop.allowed with
    | none =>
      rw [hallowed, linesWritten] at hnone
      omega
    | some n =>
      rw [hallowed, linesWritten] at hnone
      simp only [completes, decide_eq_false_iff_not]
      omega
  refine (hs.atomic_iff hc).2 ⟨r.store.maps, ?_, Or.inl ⟨rfl, ?_⟩, fun _ _ => ?_⟩
  · rw [keptRecords, hnone, List.take_zero, List.append_nil]
    exact hs.rebuilds
  · exact (hs.head_eq_iff hlaws hc).1.2 hnone
  · have hmaps := (run_spec hs.journaled hc event.stop.allowed).maps_eq
    rw [hfail] at hmaps
    exact hmaps

/-- All records were written: the state after the call, if they replay. A live process must have
finished the call, or have nothing to change. -/
theorem InSync.atomic_iff_of_all (hlaws : env.Lawful) (hs : InSync env owner r J)
    (hc : committed env r.store event.call = some c)
    (hall : c.entries.length ≤ linesWritten event.stop.allowed c.entries.length) :
    Atomic env owner r event ↔
      ReplaySafe env r.store.maps event.call.operation ∧
        (event.stop.lives = false ∨ completes event.stop.allowed c.entries.length = true ∨
          ∃ policy, event.call.operation = .compact policy) := by
  have hplanned := planned_of_committed hc
  have hactor := (committed_eq_some hc).1
  have hoccurs := run_spec hs.journaled hc event.stop.allowed
  have hkept : keptRecords env r event c = callRecords env r.store event.call c :=
    List.take_of_length_le ((callRecords_length _ _ _ _).trans_le hall)
  have hpos := callLines_pos hc
  rw [hs.atomic_iff hc, hkept]
  constructor
  · rintro ⟨maps, hrebuild, hstate, hlive⟩
    have hfinish : maps = c.finish r.store.maps := by
      rcases hstate with ⟨-, hhead⟩ | ⟨hmaps, -⟩
      · have hnone := (hs.head_eq_iff hlaws hc).1.1 hhead
        omega
      · exact hmaps
    rw [hfinish] at hrebuild hlive
    have hsafe := (rebuild_append_iff hlaws hs.rebuilds hplanned hactor).1 hrebuild
    refine ⟨hsafe, ?_⟩
    by_contra hcontra
    simp only [not_or, Bool.not_eq_false, Bool.not_eq_true] at hcontra
    obtain ⟨hlives, hincomplete, hcompact⟩ := hcontra
    -- the process got an error, and its maps are still those before the call
    have hmaps := hlive hlives ⟨writeError, hoccurs.failed hincomplete⟩
    rw [stopped, hoccurs.maps_eq, hincomplete] at hmaps
    refine hplanned.finish_ne (rebuild_valid hs.rebuilds).2 hsafe ?_ hmaps.symm
    exact fun policy hop => hcompact ⟨policy, hop⟩
  · rintro ⟨hsafe, hend⟩
    refine ⟨c.finish r.store.maps,
      (rebuild_append_iff hlaws hs.rebuilds hplanned hactor).2 hsafe,
      Or.inr ⟨rfl, (hs.head_eq_iff hlaws hc).2.2 hall⟩, ?_⟩
    intro hlives herror
    rw [stopped, hoccurs.maps_eq]
    rcases hend with hdies | hcompletes | ⟨policy, hop⟩
    · rw [hlives] at hdies
      cases hdies
    · rw [if_pos hcompletes]
    · rw [(committed_compact hc hop).2, ite_self]

/-- Some of the records were written: neither state. -/
theorem InSync.not_atomic_of_some (hlaws : env.Lawful) (hs : InSync env owner r J)
    (hc : committed env r.store event.call = some c)
    (hsome : linesWritten event.stop.allowed c.entries.length ≠ 0)
    (hpart : linesWritten event.stop.allowed c.entries.length < c.entries.length) :
    ¬ Atomic env owner r event := by
  intro h
  obtain ⟨maps, -, hstate, -⟩ := (hs.atomic_iff hc).1 h
  obtain ⟨hbefore, hafter⟩ := hs.head_eq_iff hlaws hc
  rcases hstate with ⟨-, hhead⟩ | ⟨-, hhead⟩
  · exact hsome (hbefore.1 hhead)
  · exact Nat.not_le_of_lt hpart (hafter.1 hhead)

theorem linesWritten_eq_zero_iff {allowed : Option Nat} {lines : Nat} (hpos : 0 < lines) :
    linesWritten allowed lines = 0 ↔ allowed = some 0 := by
  cases allowed with
  | none => simp [linesWritten, hpos.ne']
  | some n =>
    simp only [linesWritten, Option.some.injEq]
    omega

/-- The last clause of `StopSafe`, once all records are written. -/
theorem stopSafe_iff_of_all (hc : committed env r.store event.call = some c)
    (hall : c.entries.length ≤ linesWritten event.stop.allowed c.entries.length) :
    StopSafe env r.store event ↔
      ReplaySafe env r.store.maps event.call.operation ∧
        (event.stop.lives = false ∨ completes event.stop.allowed c.entries.length = true ∨
          ∃ policy, event.call.operation = .compact policy) := by
  have hpos := callLines_pos hc
  have hfirst : event.stop.allowed ≠ some 0 := fun h => by
    rw [(linesWritten_eq_zero_iff hpos).2 h] at hall
    omega
  have hcompact : (∃ policy, event.call.operation = .compact policy) →
      ReplaySafe env r.store.maps event.call.operation := by
    rintro ⟨policy, hop⟩
    rw [hop]
    trivial
  simp only [StopSafe, callLines_eq hc, hpos.ne', hfirst, false_or]
  obtain ⟨call, stop⟩ := event
  cases stop with
  | undisturbed => simpa [Stop.lives, Stop.allowed, completes] using hcompact
  | writeFails n =>
    simp only [Stop.lives, Stop.allowed, completes, decide_eq_true_eq, Bool.true_eq_false,
      false_or]
    constructor
    · rintro (hop | ⟨hsafe, hwritten⟩)
      · exact ⟨hcompact hop, Or.inr hop⟩
      · exact ⟨hsafe, Or.inl hwritten⟩
    · rintro ⟨hsafe, hwritten | hop⟩
      · exact Or.inr ⟨hsafe, hwritten⟩
      · exact Or.inl hop
  | processDies n now =>
    have hlines : 2 * c.entries.length ≤ n + 1 := by
      simp only [Stop.allowed, linesWritten] at hall
      omega
    simpa [Stop.lives, hlines] using hcompact

/-- In a store whose journal rebuilds its maps, an event is atomic exactly when it is
`StopSafe`. -/
theorem InSync.atomic_iff_safe (hlaws : env.Lawful) (hs : InSync env owner r J)
    (event : Event) : Atomic env owner r event ↔ StopSafe env r.store event := by
  cases hc : committed env r.store event.call with
  | none =>
    refine iff_of_true (hs.atomic_of_none hc) (Or.inl ?_)
    simp [callLines, hc]
  | some c =>
    have hpos := callLines_pos hc
    by_cases hnone : linesWritten event.stop.allowed c.entries.length = 0
    · exact iff_of_true (hs.atomic_of_first hlaws hc hnone)
        (Or.inr (Or.inr (Or.inl ((linesWritten_eq_zero_iff hpos).1 hnone))))
    · rcases Nat.lt_or_ge (linesWritten event.stop.allowed c.entries.length) c.entries.length with
        hpart | hall
      · refine iff_of_false (hs.not_atomic_of_some hlaws hc hnone hpart) ?_
        rintro (hlines | ⟨policy, hop⟩ | hfirst | ⟨-, hstop⟩)
        · rw [callLines_eq hc] at hlines
          omega
        · rw [(committed_compact hc hop).1] at hpart hnone
          omega
        · exact hnone ((linesWritten_eq_zero_iff hpos).2 hfirst)
        · rw [callLines_eq hc] at hstop
          obtain ⟨call, stop⟩ := event
          cases stop <;> simp only [Stop.allowed, linesWritten] at hstop hpart <;> omega
      · rw [hs.atomic_iff_of_all hlaws hc hall, stopSafe_iff_of_all hc hall]

theorem Journaled.stopped (hj : Journaled env owner r J) (event : Event) :
    ∃ J', Journaled env owner (stopped env r event).1 J' := by
  cases hc : committed env r.store event.call with
  | none =>
    rw [Persistence.stopped, run_of_committed_none hc]
    exact ⟨J, hj⟩
  | some c => exact ⟨_, (run_spec hj hc event.stop.allowed).journaled⟩

/-- After an atomic event of a live process the journal still rebuilds the live maps. -/
theorem InSync.stopped (hlaws : env.Lawful) (hs : InSync env owner r J)
    (hatomic : Atomic env owner r event) (hlives : event.stop.lives = true) :
    ∃ J', InSync env owner (stopped env r event).1 J' := by
  cases hc : committed env r.store event.call with
  | none =>
    rw [Persistence.stopped, run_of_committed_none hc]
    exact ⟨J, hs⟩
  | some c =>
    have hoccurs := run_spec hs.journaled hc event.stop.allowed
    obtain ⟨maps, hrebuild, hstate, hlive⟩ := (hs.atomic_iff hc).1 hatomic
    refine ⟨_, hoccurs.journaled, ?_⟩
    rw [hrebuild]
    refine congrArg Except.ok ?_
    cases hdone : completes event.stop.allowed c.entries.length with
    | false => exact (hlive hlives ⟨writeError, hoccurs.failed hdone⟩).symm
    | true =>
      have hpos := callLines_pos hc
      have hall : linesWritten event.stop.allowed c.entries.length ≠ 0 := by
        rw [Ne, linesWritten_eq_zero_iff hpos]
        intro hfirst
        rw [hfirst] at hdone
        simp only [completes, decide_eq_true_eq] at hdone
        omega
      rw [Persistence.stopped, hoccurs.maps_eq, hdone]
      rcases hstate with ⟨-, hhead⟩ | ⟨hmaps, -⟩
      · exact absurd ((hs.head_eq_iff hlaws hc).1.1 hhead) hall
      · exact hmaps

/-- After an atomic event the store that the next call finds is in sync again. -/
theorem InSync.afterEvent {r' : Running} (hlaws : env.Lawful) (hs : InSync env owner r J)
    (hatomic : Atomic env owner r event) (h : afterEvent env owner r event = some r') :
    ∃ J', InSync env owner r' J' := by
  obtain ⟨call, stop⟩ := event
  cases stop with
  | undisturbed =>
    cases h
    exact hs.stopped hlaws hatomic rfl
  | writeFails n =>
    cases h
    exact hs.stopped hlaws hatomic rfl
  | processDies n now =>
    obtain ⟨J', hj'⟩ := hs.journaled.stopped ⟨call, .processDies n now⟩
    simp only [Persistence.afterEvent] at h
    cases hopen : openOrCreateAt env owner now
        (Persistence.stopped env r ⟨call, .processDies n now⟩).1.dir with
    | error e =>
      rw [hopen] at h
      cases h
    | ok opened =>
      rw [hopen] at h
      cases h
      obtain ⟨hj, hrebuild, -⟩ := hj'.reopen hopen
      exact ⟨J', hj, hrebuild⟩

end OneEvent

/-! ## Whole runs -/

section Runs

variable {env : Environment} {owner : String} {r : Running}

variable {now : Instant} (hopen : openOrCreateAt env owner now .empty = .ok r)

include hopen

/-- While every event is atomic in the state it finds, the journal rebuilds the live maps. -/
theorem runEvents_inSync (hlaws : env.Lawful) {events : List Event}
    (h : ∀ n r' J event, InSync env owner r' J →
      runEvents env owner r (events.take n) = some r' → events[n]? = some event →
        Atomic env owner r' event)
    {n : Nat} {r' : Running} (hrun : runEvents env owner r (events.take n) = some r') :
    ∃ J, InSync env owner r' J := by
  have hfresh : ∃ J, InSync env owner r J := by
    obtain ⟨hw, hempty⟩ := openOrCreateAt_empty hopen
    refine ⟨[], hw.journaled, ?_⟩
    rw [hempty]
    rfl
  refine runSteps_invariant (I := fun r => ∃ J, InSync env owner r J) ?_ (Nat.zero_le n) rfl hfresh
    hrun
  rintro n r₁ event r₂ hreach hevent hafter ⟨J, hs⟩
  exact hs.afterEvent hlaws (h n r₁ J event hs hreach hevent) hafter

/-- Every event of a run on a fresh store is atomic exactly when every event, in the store it finds,
is `StopSafe`. -/
theorem atomic_iff_stopSafe (hlaws : env.Lawful) (events : List Event) :
    (∀ n r' event, runEvents env owner r (events.take n) = some r' → events[n]? = some event →
        Atomic env owner r' event) ↔
      ∀ n r' event, runEvents env owner r (events.take n) = some r' → events[n]? = some event →
        StopSafe env r'.store event := by
  constructor
  · intro h n r' event hrun hevent
    obtain ⟨J, hs⟩ := runEvents_inSync hopen hlaws
      (fun n r' _ event _ hrun hevent => h n r' event hrun hevent) hrun
    exact (hs.atomic_iff_safe hlaws event).1 (h n r' event hrun hevent)
  · intro h n r' event hrun hevent
    obtain ⟨J, hs⟩ := runEvents_inSync hopen hlaws (fun n r' _ event hs hrun hevent =>
      (hs.atomic_iff_safe hlaws event).2 (h n r' event hrun hevent)) hrun
    exact (hs.atomic_iff_safe hlaws event).2 (h n r' event hrun hevent)

end Runs

/-! ## A grant without its audit record -/

section Sample

/-- The commit of a creation that passes its checks. -/
theorem committed_createGrant {env : Environment} {requested grant : PermissionGrant}
    (store : AccessControlStore) (call : Call)
    (hactor : validateRuntimeIdentityUra env call.actorUra "policy journal actor_ura" = .ok ())
    (hop : call.operation = .createGrant requested)
    (hnew : NewGrant env store.maps requested grant) :
    committed env store call = some
      (grantCommit grant (createdAudit env call.now grant call.actorUra) .created
        (.bound
          ⟨grant, false, (createdAudit env call.now grant call.actorUra).auditRecordId⟩)) := by
  have hactive : { grant with state := .active } = grant := by
    have hstate := normalizeGrantForCreate_state hnew.normalized
    cases grant
    simp only at hstate
    subst hstate
    rfl
  have hcontains : store.maps.grants.contains grant.grantId = false := by
    rw [Table.contains_eq_isSome, hnew.fresh]
    rfl
  simp only [committed, hactor, plan, hop, createGrant, hnew.normalized, hnew.valid, bind,
    Except.bind, hactive, hnew.unmatched, hcontains, bailIf, Bool.false_eq_true, if_false]

/-- One valid grant is a journal. -/
theorem rebuild_grant {env : Environment} {store : AccessControlStore} {actorUra : String}
    {t : Instant} {grant : PermissionGrant} (hvalid : validateGrant env grant = .ok ()) :
    rebuild env [nextRecord env store actorUra t
        ⟨.permissionGrant, grant.grantId, .created, .grant grant⟩] =
      .ok (PolicyMaps.empty.insertGrant grant) := by
  rw [rebuild_eq_ok_iff, validateAllResolutionAuthorities_eq_ok_iff]
  refine ⟨?_, ?_⟩
  · rw [foldChecked, applyRecord_grant, checkGrantRecord_of_fresh hvalid]
    · rfl
    · exact Table.getElem?_empty_eq _
  · intro k request hk
    rw [show (PolicyMaps.empty.insertGrant grant).requests[k]? = none from
      Table.getElem?_empty_eq k] at hk
    cases hk

theorem newGrant_bobGrant :
    NewGrant sampleEnvironment aliceStore.store.maps bobGrant bobGrant := by
  rw [show aliceStore.store.maps = .empty from rfl]
  refine ⟨by decide +kernel, by decide +kernel, ?_, Table.getElem?_empty_eq _⟩
  rw [findIdempotentGrant, PolicyMaps.empty, Table.values_empty]
  rfl

/-- Alice creates a grant, and the write of its audit record fails. -/
def creationWithoutAudit : Event := ⟨aliceCalls (.createGrant bobGrant), .writeFails 2⟩

/-- The write of the audit record fails after the grant was written: a reopen finds the grant
without an audit record, which is neither the state before nor after the creation, and the live
process, which got an error, does not have the grant. -/
theorem create_without_audit_not_atomic :
    openOrCreateAt sampleEnvironment alice newYear .empty = .ok aliceStore ∧
      (stopped sampleEnvironment aliceStore creationWithoutAudit).2 = .error writeError ∧
      (stopped sampleEnvironment aliceStore creationWithoutAudit).1.store.maps = .empty ∧
      (∃ r, openOrCreateAt sampleEnvironment alice newYear
          (stopped sampleEnvironment aliceStore creationWithoutAudit).1.dir = .ok r ∧
        r.store.maps = PolicyMaps.empty.insertGrant bobGrant) ∧
      ¬ Atomic sampleEnvironment alice aliceStore creationWithoutAudit := by
  have hw := (openOrCreateAt_empty openOrCreateAt_alice).1
  have hs : InSync sampleEnvironment alice aliceStore [] := ⟨hw.journaled, rfl⟩
  have hactor : validateRuntimeIdentityUra sampleEnvironment creationWithoutAudit.call.actorUra
      "policy journal actor_ura" = .ok () := by decide +kernel
  have hop : creationWithoutAudit.call.operation = .createGrant bobGrant := rfl
  have hc := committed_createGrant aliceStore.store creationWithoutAudit.call hactor hop
    newGrant_bobGrant
  have hoccurs := run_spec hw.journaled hc creationWithoutAudit.stop.allowed
  have hincomplete : completes creationWithoutAudit.stop.allowed 2 = false := rfl
  have hatomic := hs.not_atomic_of_some sampleEnvironment_lawful hc (by decide) (by decide)
  obtain ⟨r, hopen, hmaps, -⟩ := hoccurs.journaled.opens
    (rebuild_grant newGrant_bobGrant.valid) newYear
  rw [stopped]
  exact ⟨openOrCreateAt_alice, hoccurs.failed hincomplete, hoccurs.maps_eq, ⟨r, hopen, hmaps⟩,
    hatomic⟩

/-- Bob's request is recorded, and the process dies before the manifest is written. -/
def requestWithoutManifest : Event :=
  ⟨aliceCalls (.upsertPermissionRequest bobRequest), .processDies 1 newYear⟩

/-- A process that dies between the record of a request and the manifest leaves the state after the
request. -/
theorem request_without_manifest_atomic :
    openOrCreateAt sampleEnvironment alice newYear .empty = .ok aliceStore ∧
      ∀ n r event, runEvents sampleEnvironment alice aliceStore ([requestWithoutManifest].take n) =
        some r → [requestWithoutManifest][n]? = some event →
          Atomic sampleEnvironment alice r event := by
  have hruns := atomic_iff_stopSafe openOrCreateAt_alice sampleEnvironment_lawful
    [requestWithoutManifest]
  refine ⟨openOrCreateAt_alice, hruns.2 ?_⟩
  intro n r event hrun hevent
  match n with
  | 0 =>
    cases hrun
    cases hevent
    have hlines : callLines sampleEnvironment aliceStore.store requestWithoutManifest.call = 1 := by
      decide +kernel
    have hnew : aliceStore.store.maps.requests[bobRequest.requestId]? = none :=
      Table.getElem?_empty_eq _
    refine Or.inr (Or.inr (Or.inr ⟨hnew, ?_⟩))
    simp only [hlines]
    exact Nat.le_refl 2

end Sample

end EasyNetDaemon.Persistence
