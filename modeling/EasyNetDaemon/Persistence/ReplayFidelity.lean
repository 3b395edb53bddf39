import EasyNetDaemon.Persistence.ReplaySafety

/-!
# Replay fidelity

A run is a list of calls on a fresh store, with every write succeeding. After each call a reopen
either rebuilds exactly the live store or fails: it rebuilds it as long as every call so far wrote
nothing or was `ReplaySafe` (`reopensFaithfully_iff_stepSafe`).

`approve_then_revoke_does_not_reopen` is a run that ends in a directory that does not open: an owner
approves a permission request with a grant and revokes the grant later.
-/

namespace EasyNetDaemon.Persistence

open Library EasyNetDaemon.Core Admission

/-- The store after a list of calls, all of whose writes succeed. -/
def runCalls (env : Environment) (r : Running) (calls : List Call) : Running :=
  calls.foldl (fun r call => (run env none r call).1) r

/-- A reopen succeeds and gives the maps, the last sequence number and the head hash of the live
store. -/
def ReopensFaithfully (env : Environment) (owner : String) (r : Running) : Prop :=
  ∀ now, ∃ r', openOrCreateAt env owner now r.dir = .ok r' ∧ r'.store.maps = r.store.maps ∧
    r'.store.lastSequence = r.store.lastSequence ∧ r'.store.headHash = r.store.headHash

/-- The condition on a step: the call writes nothing, or its records replay. -/
def StepSafe (env : Environment) (store : AccessControlStore) (call : Call) : Prop :=
  committed env store call = none ∨ ReplaySafe env store.maps call.operation

/-- The journal of a store none of whose writes failed: no sequence number is skipped at its end. -/
structure Written (env : Environment) (owner : String) (r : Running) (J : List JournalRecord) :
    Prop where
  journaled : Journaled env owner r J
  last_eq : r.store.lastSequence = lastSequenceOf 0 J

section Fidelity

variable {env : Environment} {owner : String} {r : Running} {J : List JournalRecord}

/-- A fresh store has an empty journal. -/
theorem openOrCreateAt_empty {now : Instant} (h : openOrCreateAt env owner now .empty = .ok r) :
    Written env owner r [] ∧ r.store.maps = .empty := by
  simp only [openOrCreateAt, PolicyDir.empty, Option.getD_none, ↓check_bind_eq_ok_iff] at h
  obtain ⟨-, hmanifest, h⟩ := h
  cases h
  have hhead := validateManifest_withHead zeroHash hmanifest
  refine ⟨⟨⟨⟨rfl, rfl, rfl, rfl⟩, rfl, ⟨List.Pairwise.nil, by simp⟩, by simp, hhead,
    ⟨_, rfl, hhead⟩⟩, rfl⟩, rfl⟩

/-- A valid owner gets a fresh store. -/
theorem openOrCreateAt_new {now : Instant}
    (howner : validateUserPrincipalUra env owner "policy store owner_user_id" = .ok ())
    (hmanifest : validateManifest env (newManifest owner (env.formatMillis now)) owner = .ok ()) :
    openOrCreateAt env owner now .empty =
      .ok (reopened (newManifest owner (env.formatMillis now)) .empty [] zeroHash .empty) := by
  simp only [openOrCreateAt, howner, PolicyDir.empty, Option.getD_none, hmanifest]
  rfl

/-- The directory reopens to the live store exactly when its journal rebuilds the live maps. -/
theorem Written.reopensFaithfully_iff (hw : Written env owner r J) :
    ReopensFaithfully env owner r ↔ rebuild env J = .ok r.store.maps := by
  constructor
  · intro h
    obtain ⟨r', hopen, hmaps, -⟩ := h 0
    rw [← hmaps]
    exact (hw.journaled.reopen hopen).2.1
  · intro h now
    rw [hw.last_eq]
    exact hw.journaled.opens h now

theorem lastSequenceOf_append (J K : List JournalRecord) :
    lastSequenceOf 0 (J ++ K) = lastSequenceOf (lastSequenceOf 0 J) K := by
  simp [lastSequenceOf]

/-- A call that writes extends the journal by its records and updates the maps. -/
theorem Written.run_committed {call : Call} {c : Commit} (hw : Written env owner r J)
    (hc : committed env r.store call = some c) :
    Written env owner (run env none r call).1 (J ++ callRecords env r.store call c) ∧
      (run env none r call).1.store.maps = c.finish r.store.maps := by
  have houtcome := run_spec hw.journaled hc none
  have hall : (callRecords env r.store call c).take (linesWritten none c.entries.length) =
      callRecords env r.store call c := by
    rw [linesWritten, ← callRecords_length env r.store call c]
    exact List.take_length
  refine ⟨⟨hall ▸ houtcome.journaled, ?_⟩, houtcome.maps_eq⟩
  rw [houtcome.last_eq rfl, hw.last_eq, lastSequenceOf_append]

/-- Along a run the store keeps a journal without failed writes. -/
theorem Written.run (hw : Written env owner r J) (call : Call) :
    ∃ J', Written env owner (run env none r call).1 J' := by
  cases hc : committed env r.store call with
  | none =>
    rw [run_of_committed_none hc]
    exact ⟨J, hw⟩
  | some c => exact ⟨_, (hw.run_committed hc).1⟩

theorem Written.runCalls (calls : List Call) (hw : Written env owner r J) :
    ∃ J', Written env owner (runCalls env r calls) J' := by
  induction calls generalizing r J with
  | nil => exact ⟨J, hw⟩
  | cons call calls ih =>
    obtain ⟨J', hw'⟩ := hw.run call
    exact ih hw'

/-- A store that reopens faithfully does so after a call exactly when the call is safe. -/
theorem Written.step_iff (hlaws : env.Lawful) (hw : Written env owner r J)
    (hfaithful : ReopensFaithfully env owner r) (call : Call) :
    ReopensFaithfully env owner (Persistence.run env none r call).1 ↔
      StepSafe env r.store call := by
  cases hc : committed env r.store call with
  | none =>
    rw [run_of_committed_none hc]
    exact iff_of_true hfaithful (Or.inl hc)
  | some c =>
    obtain ⟨hw', hmaps⟩ := hw.run_committed hc
    have hactor := (committed_eq_some hc).1
    rw [hw'.reopensFaithfully_iff, hmaps,
      rebuild_append_iff hlaws (hw.reopensFaithfully_iff.1 hfaithful) (planned_of_committed hc)
        hactor]
    simp [StepSafe, hc]

/-- After an unsafe call that writes, the store does not open. -/
theorem Written.not_open (hlaws : env.Lawful) (hw : Written env owner r J)
    (hfaithful : ReopensFaithfully env owner r) {call : Call} {c : Commit}
    (hc : committed env r.store call = some c)
    (hbroken : ¬ ReplaySafe env r.store.maps call.operation) (now : Instant) (r' : Running) :
    openOrCreateAt env owner now (Persistence.run env none r call).1.dir ≠ .ok r' := by
  have hne := rebuild_append_ne_ok hlaws (hw.reopensFaithfully_iff.1 hfaithful)
    (planned_of_committed hc) (committed_eq_some hc).1 hbroken
  intro hopen
  exact hne r'.store.maps ((hw.run_committed hc).1.journaled.reopen hopen).2.1

variable {now : Instant} (hopen : openOrCreateAt env owner now .empty = .ok r)

include hopen

theorem runCalls_written (calls : List Call) : ∃ J, Written env owner (runCalls env r calls) J :=
  (openOrCreateAt_empty hopen).1.runCalls calls

omit hopen in
theorem runCalls_concat (calls : List Call) (call : Call) :
    runCalls env r (calls ++ [call]) =
      (Persistence.run env none (runCalls env r calls) call).1 := by
  simp [runCalls]

omit hopen in
theorem runCalls_take_succ {calls : List Call} {n : Nat} {call : Call} (h : calls[n]? = some call) :
    runCalls env r (calls.take (n + 1)) =
      (Persistence.run env none (runCalls env r (calls.take n)) call).1 := by
  rw [List.take_add_one, h]
  exact runCalls_concat _ _

/-- Safe calls keep the store faithful to its files. -/
theorem reopensFaithfully_of_stepSafe (hlaws : env.Lawful) {calls : List Call}
    (h : ∀ n call, calls[n]? = some call →
      StepSafe env (runCalls env r (calls.take n)).store call) (n : Nat) :
    ReopensFaithfully env owner (runCalls env r (calls.take n)) := by
  induction n with
  | zero =>
    obtain ⟨hw, hempty⟩ := openOrCreateAt_empty hopen
    refine hw.reopensFaithfully_iff.2 ?_
    rw [hempty]
    rfl
  | succ n ih =>
    cases hcall : calls[n]? with
    | none =>
      rw [List.take_add_one, hcall]
      simpa using ih
    | some call =>
      obtain ⟨J, hJ⟩ := runCalls_written hopen (calls.take n)
      rw [runCalls_take_succ hcall]
      exact (hJ.step_iff hlaws ih call).2 (h n call hcall)

/-- A run on a fresh store reopens faithfully after every one of its calls exactly when each call,
in the state it finds, is safe. -/
theorem reopensFaithfully_iff_stepSafe (hlaws : env.Lawful) (calls : List Call) :
    (∀ n, ReopensFaithfully env owner (runCalls env r (calls.take n))) ↔
      ∀ n call, calls[n]? = some call →
        StepSafe env (runCalls env r (calls.take n)).store call := by
  constructor
  · intro h n call hcall
    obtain ⟨J, hJ⟩ := runCalls_written hopen (calls.take n)
    refine (hJ.step_iff hlaws (h n) call).1 ?_
    rw [← runCalls_take_succ hcall]
    exact h (n + 1)
  · intro h n
    exact reopensFaithfully_of_stepSafe hopen hlaws h n

end Fidelity

/-! ## A run that does not reopen -/

section Sample

def alice : String := "easynet:///r/test/user/alice"

def bob : String := "easynet:///r/test/user/bob"

def device : String := "easynet:///r/test/device/dev-1"

/-- The start of 2026. -/
def newYear : Instant := 1767225600000000000

/-- The time formats and the URA parser on the values of the samples, and a hash without
collisions. -/
noncomputable def sampleEnvironment : Environment where
  parseRfc3339 := fun raw =>
    if raw = "2026-01-01T00:00:00.000Z" then some newYear
    else if raw = "2026-01-02T00:00:00.000Z" then some (newYear + days 1)
    else none
  formatMillis := fun _ => "2026-01-01T00:00:00.000Z"
  formatSecs := fun _ => "2026-01-01T00:00:00Z"
  parseUra := fun raw =>
    if raw = alice then .ok ⟨.user, "test", some "alice"⟩
    else if raw = bob then .ok ⟨.user, "test", some "bob"⟩
    else if raw = device then .ok ⟨.device, "test", none⟩
    else .error "not a URA"
  sha256Value := Classical.choose exists_collisionFree

theorem sampleEnvironment_lawful : sampleEnvironment.Lawful where
  parse_formatMillis := fun _ => by simp [sampleEnvironment]
  sha256_injective := (Classical.choose_spec exists_collisionFree).1
  sha256_ne_zero := (Classical.choose_spec exists_collisionFree).2

/-- Bob asks alice for one use of an ability. -/
def bobRequest : PermissionRequest where
  requestId := "req-1"
  ownerUserUra := alice
  callerUra := bob
  principalKind := .user
  principalId := bob
  tokenId := none
  tokenClass := none
  calleeUra := device
  subjectUra := alice
  abilityUra := "easynet:///r/test/ability/notes.write"
  action := .invoke
  nonce := some "n-1"
  canonicalHash := none
  requestedLifetimes := [.permanent]
  status := .pending
  createdAt := "2026-01-01T00:00:00.000Z"
  expiresAt := "2026-01-02T00:00:00.000Z"
  resolverUra := none
  resolvedLifetime := none
  createdGrantId := none
  authorityProofId := none
  resolvedAt := none
  decisionReason := none

/-- The grant that answers bob's request. -/
def bobGrant : PermissionGrant where
  grantId := "grant-1"
  ownerUserUra := alice
  principalKind := .user
  principalId := bob
  tokenId := none
  tokenClass := none
  sessionId := none
  sessionExpiresAt := none
  calleeUra := some device
  subjectUraPattern := some alice
  abilityUraPattern := some "easynet:///r/test/ability/notes.write"
  actions := [.invoke]
  constraints := none
  effect := .allow
  lifetime := .permanent
  state := .active
  expiresAt := none
  reviewRequiredAfter := none
  lastReviewedAt := none
  lastUsedAt := none
  createdBy := alice
  createdAt := "2026-01-01T00:00:00.000Z"
  updatedAt := none
  revokedAt := none
  reason := none

/-- A call of alice at the start of 2026. -/
def aliceCalls (operation : Operation) : Call :=
  ⟨operation, alice, ⟨newYear, newYear, fun _ => newYear⟩⟩

/-- Alice's store as it is created. -/
def aliceStore : Running :=
  reopened (newManifest alice "2026-01-01T00:00:00.000Z") .empty [] zeroHash .empty

/-- Bob's request is recorded, and alice approves it with a grant. -/
def approval : List Call :=
  [aliceCalls (.upsertPermissionRequest bobRequest),
    aliceCalls
      (.resolvePermissionRequestWithGrant { bobRequest with status := .approved } bobGrant)]

/-- Later alice revokes the grant. -/
def revocation : Call := aliceCalls (.revokeGrant "grant-1" alice none)

theorem openOrCreateAt_alice :
    openOrCreateAt sampleEnvironment alice newYear .empty = .ok aliceStore :=
  openOrCreateAt_new (by decide +kernel) (by decide +kernel)

/-- After the approval the grant backs the request, and the revocation is accepted. -/
theorem approval_backs :
    (((runCalls sampleEnvironment aliceStore approval).store.maps.requests["req-1"]?).map
        fun request => (request.status, request.createdGrantId)) =
          some (.approved, some "grant-1") ∧
      (runCalls sampleEnvironment aliceStore approval).store.maps.grants["grant-1"]?.isSome ∧
      (committed sampleEnvironment (runCalls sampleEnvironment aliceStore approval).store
        revocation).isSome := by
  decide +kernel

/-- The calls of the approval are safe. -/
theorem approval_stepSafe (n : Nat) (call : Call) (hcall : approval[n]? = some call) :
    StepSafe sampleEnvironment (runCalls sampleEnvironment aliceStore (approval.take n)).store
      call := by
  match n with
  | 0 =>
    cases hcall
    exact Or.inr rfl
  | 1 =>
    cases hcall
    exact Or.inr (Or.inr (by decide +kernel))

/-- Alice approves a request with a grant and revokes the grant. The store reopens faithfully before
the revocation, the revocation is written, and after it the store does not open. -/
theorem approve_then_revoke_does_not_reopen :
    openOrCreateAt sampleEnvironment alice newYear .empty = .ok aliceStore ∧
      ReopensFaithfully sampleEnvironment alice (runCalls sampleEnvironment aliceStore approval) ∧
      (committed sampleEnvironment (runCalls sampleEnvironment aliceStore approval).store
        revocation).isSome ∧
      ∀ now r, openOrCreateAt sampleEnvironment alice now
        (runCalls sampleEnvironment aliceStore (approval ++ [revocation])).dir ≠ .ok r := by
  obtain ⟨hrequest, hgrant, hcommitted⟩ := approval_backs
  have hfaithful : ReopensFaithfully sampleEnvironment alice
      (runCalls sampleEnvironment aliceStore approval) :=
    reopensFaithfully_of_stepSafe openOrCreateAt_alice sampleEnvironment_lawful approval_stepSafe 2
  refine ⟨openOrCreateAt_alice, hfaithful, hcommitted, ?_⟩
  obtain ⟨J, hJ⟩ := runCalls_written openOrCreateAt_alice approval
  obtain ⟨c, hc⟩ := Option.isSome_iff_exists.1 hcommitted
  obtain ⟨grant, hgrant⟩ := Option.isSome_iff_exists.1 hgrant
  obtain ⟨request, hlookup, hrequest⟩ := Option.map_eq_some_iff.1 hrequest
  have hbroken : ¬ ReplaySafe sampleEnvironment
      (runCalls sampleEnvironment aliceStore approval).store.maps revocation.operation := fun h =>
    (h grant hgrant).2 "req-1" request hlookup (congrArg Prod.fst hrequest)
      (congrArg Prod.snd hrequest)
  intro now r
  rw [runCalls_concat]
  exact hJ.not_open sampleEnvironment_lawful hfaithful hc hbroken now r

/-- The run up to the approval reopens faithfully after each of its calls. -/
theorem approval_reopensFaithfully :
    openOrCreateAt sampleEnvironment alice newYear .empty = .ok aliceStore ∧
      ∀ n, ReopensFaithfully sampleEnvironment alice
        (runCalls sampleEnvironment aliceStore (approval.take n)) :=
  ⟨openOrCreateAt_alice, (reopensFaithfully_iff_stepSafe openOrCreateAt_alice
    sampleEnvironment_lawful approval).2 approval_stepSafe⟩

end Sample

end EasyNetDaemon.Persistence
