import EasyNetDaemon.Persistence.AccessControl

/-!
# The journal of the access-control store

Execution and replay. `perform` runs the plan of an operation: `append` numbers a record, links it
to the head hash, writes its line and then the manifest. `openOrCreateAt` reads the four files,
sorts the records by sequence number, checks the chain and applies the records one by one; the
approved requests are checked against the final maps.
-/

namespace EasyNetDaemon.Persistence

open Library EasyNetDaemon.Core Admission

/-! ## Appending -/

/-- The text of a failed write; the source passes on the error of the operating system. -/
def writeError : String := "write failed"

/-- One write out of the writes that still succeed, if there is one. -/
def spend : Option Nat → Option (Option Nat)
  | none => some none
  | some 0 => none
  | some (n + 1) => some (some n)

section Append

variable (env : Environment)

/-- The record that the store appends next for an entry. -/
def nextRecord (store : AccessControlStore) (actorUra : String) (createdAt : Instant)
    (entry : Entry) : JournalRecord :=
  let body : RecordBody :=
    { recordKind := entry.recordKind
      schemaVersion
      sequence := store.lastSequence + 1
      ownerUserUra := store.manifest.policyStore.ownerUserUra
      recordId := entry.recordId
      operation := entry.operation
      payload := entry.payload
      previousRecordHash := store.headHash
      createdAt := env.formatMillis createdAt
      actorUra }
  { body with recordHash := computeRecordHash env body }

/-- The store after a record was written: the head moves in the store and in its manifest. -/
def AccessControlStore.advance (store : AccessControlStore) (record : JournalRecord) :
    AccessControlStore :=
  { store with
    lastSequence := record.sequence
    headHash := record.recordHash
    manifest := store.manifest.withHead record.recordHash }

/-- `append`. The sequence number is taken before the line is written, the head moves after it and
before the manifest is written. -/
def append (actorUra : String) (createdAt : Instant) (allowed : Option Nat) (r : Running)
    (entry : Entry) : Running × Except String (Option Nat) :=
  match validateRuntimeIdentityUra env actorUra "policy journal actor_ura" with
  | .error error => (r, .error error)
  | .ok () =>
    let record := nextRecord env r.store actorUra createdAt entry
    match spend allowed with
    | none => ({ r with store := { r.store with lastSequence := record.sequence } },
        .error writeError)
    | some allowed =>
      let store := r.store.advance record
      let dir := r.dir.appendLine record
      match spend allowed with
      | none => (⟨store, dir⟩, .error writeError)
      | some allowed => (⟨store, { dir with manifest := some store.manifest }⟩, .ok allowed)

/-- The appends of an operation, in order; `i` counts them. -/
def appendAll (actorUra : String) (createdAt : Nat → Instant) :
    Nat → Option Nat → Running → List Entry → Running × Except String (Option Nat)
  | _, allowed, r, [] => (r, .ok allowed)
  | i, allowed, r, entry :: entries =>
    match append env actorUra (createdAt i) allowed r entry with
    | (r, .error error) => (r, .error error)
    | (r, .ok allowed) => appendAll actorUra createdAt (i + 1) allowed r entries

/-- The end of an operation after its last append: the maps, and for a compaction the manifest. -/
def finishCommit (allowed : Option Nat) (r : Running) (commit : Commit) :
    Running × Except String Reply :=
  let store := { r.store with maps := commit.finish r.store.maps }
  match commit.lastCompactedAt with
  | none => (⟨store, r.dir⟩, .ok (commit.reply store))
  | some compactedAt =>
    let store := { store with manifest := { store.manifest with
      policyStore := { store.manifest.policyStore with lastCompactedAt := compactedAt } } }
    match spend allowed with
    | none => (⟨store, r.dir⟩, .error writeError)
    | some _ => (⟨store, { r.dir with manifest := some store.manifest }⟩, .ok (commit.reply store))

/-- Execution of a plan. -/
def perform (actorUra : String) (createdAt : Nat → Instant) (allowed : Option Nat) (r : Running) :
    Except String Plan → Running × Except String Reply
  | .error error => (r, .error error)
  | .ok (.answer reply) => (r, .ok reply)
  | .ok (.commit commit) =>
    match appendAll env actorUra createdAt 0 allowed r commit.entries with
    | (r, .error error) => (r, .error error)
    | (r, .ok allowed) => finishCommit allowed r commit

end Append

/-! ## Operations -/

/-- The operations of the store with their arguments, the actor apart. -/
inductive Operation
  | createGrant (grant : PermissionGrant)
  | revokeGrant (grantId ownerUserUra : String) (reason : Option String)
  | consumeOnceGrantIfApplicable (grantId : String)
  | upsertPermissionRequest (request : PermissionRequest)
  | resolvePermissionRequest (request : PermissionRequest)
  | resolvePermissionRequestWithGrant (request : PermissionRequest) (grant : PermissionGrant)
  | resolvePermissionRequestWithAuthorityProof (request : PermissionRequest)
      (proof : AuthorityProof)
  | putAuthorityProof (proof : AuthorityProof)
  | consumeAuthorityProofOnce (proofId : String)
  | compact (policy : AccessControlCompactionPolicy)

/-- A call of an operation: its arguments, the actor and the clock readings it sees. -/
structure Call where
  operation : Operation
  actorUra : String
  now : Readings

/-- The plan of a call in a store. -/
def plan (env : Environment) (store : AccessControlStore) (call : Call) : Except String Plan :=
  match call.operation with
  | .createGrant grant => createGrant env store call.now grant call.actorUra
  | .revokeGrant grantId owner reason =>
    revokeGrant env store call.now grantId owner call.actorUra reason
  | .consumeOnceGrantIfApplicable grantId =>
    consumeOnceGrantIfApplicable env store call.now grantId call.actorUra
  | .upsertPermissionRequest request => upsertPermissionRequest env store request
  | .resolvePermissionRequest request =>
    resolvePermissionRequest env store call.now request call.actorUra
  | .resolvePermissionRequestWithGrant request grant =>
    resolvePermissionRequestWithGrant env store call.now request grant call.actorUra
  | .resolvePermissionRequestWithAuthorityProof request proof =>
    resolvePermissionRequestWithAuthorityProof env store call.now request proof call.actorUra
  | .putAuthorityProof proof => putAuthorityProof env store proof
  | .consumeAuthorityProofOnce proofId => consumeAuthorityProofOnce store proofId
  | .compact policy => compact env store call.now policy

/-- A call on a running store, of whose writes only `allowed` succeed. -/
def run (env : Environment) (allowed : Option Nat) (r : Running) (call : Call) :
    Running × Except String Reply :=
  perform env call.actorUra call.now.appended allowed r (plan env r.store call)

/-! ## Replay -/

/-- The `Debug` text of a record operation. -/
def debugOperation : RecordOperation → String
  | .created => "Created"
  | .revoked => "Revoked"
  | .expired => "Expired"
  | .edited => "Edited"
  | .approved => "Approved"
  | .denied => "Denied"
  | .cancelled => "Cancelled"
  | .consumed => "Consumed"
  | .compacted => "Compacted"

/-- The lines of the four files, in the order in which they are read. -/
def PolicyDir.lines (dir : PolicyDir) : List JournalRecord :=
  dir.grantsFile ++ dir.requestsFile ++ dir.proofsFile ++ dir.auditFile

/-- The records of the directory, stably sorted by sequence number. -/
def PolicyDir.records (dir : PolicyDir) : List JournalRecord :=
  dir.lines.insertionSort fun a b => a.sequence ≤ b.sequence

section Replay

variable (env : Environment)

/-- The checks of `apply_record` on a grant. -/
def checkGrantRecord (maps : PolicyMaps) (grant : PermissionGrant) : Except String Unit := do
  validateGrant env grant
  bailIf (maps.grants[grant.grantId]?.any fun existing =>
      existing.state = .revoked && grant.state = .active)
    ("revoked grant `" ++ grant.grantId ++ "` cannot become active")

/-- The checks of `apply_record` on an audit record. -/
def checkAuditRecord (audit : GrantAuditRecord) : Except String Unit := do
  validateUserPrincipalUra env audit.ownerUserUra "policy audit owner_user_id"
  bailIf (isAllZeroPrincipalId audit.principalId)
    "policy audit principal_id must not be the all-zero principal placeholder"
  validateRuntimeIdentityUra env audit.actorUra "policy audit actor_ura"

/-- The checks of `apply_record` on a checkpoint. -/
def checkCheckpointRecord (checkpoint : CompactionCheckpoint) (sequence : Nat) :
    Except String Unit := do
  bailIf (checkpoint.lastSourceSequence ≥ sequence)
    ("compaction checkpoint `" ++ checkpoint.checkpointId ++ "` cannot reference sequence " ++
      toString checkpoint.lastSourceSequence ++ " from checkpoint sequence " ++ toString sequence)
  validateCompactionPolicy checkpoint.retentionFloor

/-- `apply_record`. A payload that is not of the record's kind does not deserialize. -/
def applyRecord (maps : PolicyMaps) (record : JournalRecord) : Except String PolicyMaps :=
  match record.recordKind, record.payload with
  | .permissionGrant, .grant grant => do
    checkGrantRecord env maps grant
    .ok (maps.insertGrant grant)
  | .permissionRequest, .request request => do
    validateRequestTransition env maps.requests[request.requestId]? request
    .ok (maps.insertRequest request)
  | .authorityProof, .proof proof => do
    validateAuthorityProofIdentity env proof
    match record.operation with
    | .consumed =>
      bailIf (!maps.proofs.contains proof.proofId)
        ("authority proof `" ++ proof.proofId ++ "` consumed before creation")
      .ok (maps.insertConsumed proof.proofId)
    | .created =>
      bailIf (maps.consumedProofIds.contains proof.proofId)
        ("authority proof `" ++ proof.proofId ++ "` recreated after consumption")
      .ok (maps.insertProof proof)
    | operation =>
      .error ("unsupported authority proof journal operation `" ++ debugOperation operation ++ "`")
  | .audit, .audit audit => do
    checkAuditRecord env audit
    .ok (maps.insertAudit audit)
  | .checkpoint, .checkpoint checkpoint => do
    checkCheckpointRecord checkpoint record.sequence
    .ok maps
  | _, _ => .error "payload does not deserialize"

/-- The checks of `replay` on a record before it is applied. -/
def checkRecord (manifest : AccessControlStoreManifest) (seen : List Nat) (headHash : String)
    (record : JournalRecord) : Except String Unit := do
  bailIf (seen.contains record.sequence)
    ("duplicate policy journal sequence " ++ toString record.sequence)
  validateUserPrincipalUra env record.ownerUserUra "policy journal owner_user_id"
  bailIf (record.ownerUserUra ≠ manifest.policyStore.ownerUserUra)
    "policy journal owner does not match store manifest"
  validateRuntimeIdentityUra env record.actorUra "policy journal actor_ura"
  bailIf (computeRecordHash env record.toRecordBody ≠ record.recordHash)
    ("policy journal record hash mismatch sequence=" ++ toString record.sequence ++
      " expected=" ++ computeRecordHash env record.toRecordBody ++ " got=" ++ record.recordHash)
  bailIf (record.previousRecordHash ≠ headHash)
    ("policy journal hash chain mismatch at sequence " ++ toString record.sequence)

/-- The loop of `replay`: the sequence numbers seen and the store built so far. -/
def replayStep (state : List Nat × AccessControlStore) (record : JournalRecord) :
    Except String (List Nat × AccessControlStore) := do
  let (seen, store) := state
  checkRecord env store.manifest seen store.headHash record
  let maps ← applyRecord env store.maps record
  .ok (record.sequence :: seen,
    { store with
      maps
      lastSequence := max store.lastSequence record.sequence
      headHash := record.recordHash })

/-- Every approved request is backed. -/
def validateAllResolutionAuthorities (maps : PolicyMaps) : Except String Unit :=
  checkAll (validateResolutionAuthority env maps) maps.requests.values

/-- `replay`: the store it ends with and the manifest it writes. -/
def replay (dir : PolicyDir) (store : AccessControlStore) : Except String Running := do
  let (_, store) ← foldChecked (replayStep env) ([], store) dir.records
  validateAllResolutionAuthorities env store.maps
  let store := { store with manifest := store.manifest.withHead store.headHash }
  .ok ⟨store, { dir with manifest := some store.manifest }⟩

/-- The manifest of a new store. -/
def newManifest (ownerUserUra now : String) : AccessControlStoreManifest where
  policyStore := ⟨storeFormat, schemaVersion, ownerUserUra, now, now, zeroHash⟩
  canonicalization := ⟨recordProfile, "sha256"⟩
  files := ⟨"grants.jsonl", "permission_requests.jsonl", "authority_proofs.jsonl", "audit.jsonl"⟩

/-- `open_or_create_at`. -/
def openOrCreateAt (ownerUserUra : String) (now : Instant) (dir : PolicyDir) :
    Except String Running := do
  validateUserPrincipalUra env ownerUserUra "policy store owner_user_id"
  let manifest := dir.manifest.getD (newManifest ownerUserUra (env.formatMillis now))
  validateManifest env manifest ownerUserUra
  replay env { dir with manifest := some manifest }
    { manifest := manifest, maps := .empty, lastSequence := 0, headHash := zeroHash }

end Replay

end EasyNetDaemon.Persistence
