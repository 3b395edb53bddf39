import EasyNetDaemon.Library.Table
import EasyNetDaemon.Persistence.PolicyChecks

/-!
# The access-control store

The model of `AccessControlStore`. A running store (`Running`) is the in-memory store together with
its directory: the manifest and the four journal files.

Every operation of the source first runs its checks and builds its records, then appends them one
after the other, and only then updates the maps. The model keeps this order: an operation is a
function of the store that is rejected, answers without writing, or commits a list of entries
(`Plan`), and `perform` executes the plan. Each append writes a line and then the manifest; the
argument `allowed` of `perform` is the number of these writes that succeed before one fails or the
process dies (`none`: all of them).

`openOrCreateAt` reads the directory and replays the journal.
-/

namespace EasyNetDaemon.Persistence

open Library EasyNetDaemon.Core Admission

/-! ## State -/

/-- The maps that the journal is replayed into. -/
structure PolicyMaps where
  grants : Table PermissionGrant
  requests : Table PermissionRequest
  proofs : Table AuthorityProof
  consumedProofIds : Std.ExtTreeSet String
  audit : Table GrantAuditRecord

def PolicyMaps.empty : PolicyMaps := ⟨∅, ∅, ∅, ∅, ∅⟩

/-- The in-memory store. -/
structure AccessControlStore where
  manifest : AccessControlStoreManifest
  maps : PolicyMaps
  lastSequence : Nat
  headHash : String

/-- The directory of a store. -/
structure PolicyDir where
  manifest : Option AccessControlStoreManifest
  grantsFile : List JournalRecord
  requestsFile : List JournalRecord
  proofsFile : List JournalRecord
  auditFile : List JournalRecord

def PolicyDir.empty : PolicyDir := ⟨none, [], [], [], []⟩

/-- A store and its directory. -/
structure Running where
  store : AccessControlStore
  dir : PolicyDir

/-- `append_jsonl` to the file of the record's kind. -/
def PolicyDir.appendLine (dir : PolicyDir) (record : JournalRecord) : PolicyDir :=
  match record.recordKind with
  | .permissionGrant => { dir with grantsFile := dir.grantsFile ++ [record] }
  | .permissionRequest => { dir with requestsFile := dir.requestsFile ++ [record] }
  | .authorityProof => { dir with proofsFile := dir.proofsFile ++ [record] }
  | .audit | .checkpoint => { dir with auditFile := dir.auditFile ++ [record] }

/-- The manifest with another head. -/
def AccessControlStoreManifest.withHead (manifest : AccessControlStoreManifest)
    (headHash : String) : AccessControlStoreManifest :=
  { manifest with policyStore := { manifest.policyStore with headHash := headHash } }

/-! ## Plans -/

/-- What one call of `append` is given. -/
structure Entry where
  recordKind : RecordKind
  recordId : String
  operation : RecordOperation
  payload : Payload

/-- The answer of a grant's creation. -/
structure AuthorityBindingGrantResult where
  grant : PermissionGrant
  idempotentReplay : Bool
  auditRecordId : String
  deriving DecidableEq, Repr

/-- The answer of a resolution. -/
structure PermissionRequestResolutionResult where
  request : PermissionRequest
  createdGrant : Option PermissionGrant
  authorityProof : Option AuthorityProof
  idempotentReplay : Bool
  deriving DecidableEq, Repr

/-- The answer of a compaction. -/
structure AccessControlCompactionResult where
  checkpointId : String
  compactedAt : String
  lastSourceSequence : Nat
  lastSourceRecordHash : String
  newSegmentHeadHash : String
  retainedActiveGrants : Nat
  retainedPendingRequests : Nat
  retainedUnexpiredProofs : Nat
  retainedAuditRecords : Nat
  deriving DecidableEq, Repr

/-- The value an operation returns. -/
inductive Reply
  | bound (result : AuthorityBindingGrantResult)
  | grant (grant : PermissionGrant)
  | consumedGrant (grant : Option PermissionGrant)
  | request (request : PermissionRequest)
  | resolution (result : PermissionRequestResolutionResult)
  | proof (proof : AuthorityProof)
  | compaction (result : AccessControlCompactionResult)
  deriving DecidableEq, Repr

/-- What an operation writes: the entries it appends, the update of the maps after the last append,
the compaction time that goes into the manifest, and the reply. -/
structure Commit where
  entries : List Entry
  finish : PolicyMaps → PolicyMaps
  lastCompactedAt : Option String
  reply : AccessControlStore → Reply

/-- The outcome of an operation's checks. -/
inductive Plan
  | answer (reply : Reply)
  | commit (commit : Commit)

/-- The clock readings of one operation: its own, the one of its audit record, and one for each
record it appends. -/
structure Readings where
  decided : Instant
  audited : Instant
  appended : Nat → Instant

section Operations

variable (env : Environment) (store : AccessControlStore) (now : Readings)

/-- The first active grant with the idempotency key of the given one. -/
def findIdempotentGrant (maps : PolicyMaps) (grant : PermissionGrant) : Option PermissionGrant :=
  maps.grants.values.find? fun existing =>
    existing.state = .active && grantIdempotencyKey env existing = grantIdempotencyKey env grant

/-- The append of a grant and of its audit record. -/
def grantEntries (grant : PermissionGrant) (audit : GrantAuditRecord)
    (operation : RecordOperation) : List Entry :=
  [⟨.permissionGrant, grant.grantId, operation, .grant grant⟩,
    ⟨.audit, audit.auditRecordId, operation, .audit audit⟩]

/-- Adds or replaces a grant. -/
def PolicyMaps.insertGrant (maps : PolicyMaps) (grant : PermissionGrant) : PolicyMaps :=
  { maps with grants := maps.grants.insert grant.grantId grant }

/-- Adds or replaces a request. -/
def PolicyMaps.insertRequest (maps : PolicyMaps) (request : PermissionRequest) : PolicyMaps :=
  { maps with requests := maps.requests.insert request.requestId request }

/-- Adds or replaces a proof. -/
def PolicyMaps.insertProof (maps : PolicyMaps) (proof : AuthorityProof) : PolicyMaps :=
  { maps with proofs := maps.proofs.insert proof.proofId proof }

/-- Marks a proof as consumed. -/
def PolicyMaps.insertConsumed (maps : PolicyMaps) (proofId : String) : PolicyMaps :=
  { maps with consumedProofIds := maps.consumedProofIds.insert proofId }

/-- Adds an audit record. -/
def PolicyMaps.insertAudit (maps : PolicyMaps) (audit : GrantAuditRecord) : PolicyMaps :=
  { maps with audit := maps.audit.insert audit.auditRecordId audit }

/-- The commit of a grant mutation: the grant, its audit record, and both maps. -/
def grantCommit (grant : PermissionGrant) (audit : GrantAuditRecord)
    (operation : RecordOperation) (reply : Reply) : Commit where
  entries := grantEntries grant audit operation
  finish := fun maps => (maps.insertGrant grant).insertAudit audit
  lastCompactedAt := none
  reply := fun _ => reply

/-- The grant after a revocation at `now`. -/
def revokedGrant (existing : PermissionGrant) (now : String) (reason : Option String) :
    PermissionGrant :=
  { existing with
    state := .revoked, revokedAt := some now, updatedAt := some now, reason := reason }

/-- The grant after its one use at `now`. -/
def consumedGrant (existing : PermissionGrant) (now : String) : PermissionGrant :=
  { existing with state := .expired, lastUsedAt := some now, updatedAt := some now }

/-- The audit record of a new grant. -/
def createdAudit (grant : PermissionGrant) (actorUra : String) : GrantAuditRecord :=
  auditRecord env grant .created actorUra zeroHash (grantHash env grant) now.audited

/-- The audit record of a change from `existing` to `grant`. -/
def changedAudit (existing grant : PermissionGrant) (mutation : GrantMutation)
    (actorUra : String) : GrantAuditRecord :=
  auditRecord env grant mutation actorUra (grantHash env existing) (grantHash env grant)
    now.audited

/-- `create_grant`. -/
def createGrant (grant : PermissionGrant) (actorUra : String) : Except String Plan := do
  let grant ← normalizeGrantForCreate env grant
  validateGrant env grant
  let grant := { grant with state := .active }
  match findIdempotentGrant env store.maps grant with
  | some existing =>
    .ok (.answer (.bound ⟨existing, true, "audit-idempotent-" ++ existing.grantId⟩))
  | none =>
    bailIf (store.maps.grants.contains grant.grantId)
      ("grant_id `" ++ grant.grantId ++ "` already exists")
    let audit := createdAudit env now grant actorUra
    .ok (.commit (grantCommit grant audit .created (.bound ⟨grant, false, audit.auditRecordId⟩)))

/-- `revoke_grant`. -/
def revokeGrant (grantId ownerUserUra actorUra : String) (reason : Option String) :
    Except String Plan :=
  match store.maps.grants[grantId]? with
  | none => .error ("grant_id `" ++ grantId ++ "` not found")
  | some existing =>
    if existing.ownerUserUra ≠ ownerUserUra then
      .error ("grant `" ++ grantId ++ "` does not belong to owner `" ++ ownerUserUra ++ "`")
    else if existing.state = .revoked then .ok (.answer (.grant existing))
    else
      let revoked := revokedGrant existing (env.formatMillis now.decided) reason
      let audit := changedAudit env now existing revoked .revoked actorUra
      .ok (.commit (grantCommit revoked audit .revoked (.grant revoked)))

/-- `consume_once_grant_if_applicable`. -/
def consumeOnceGrantIfApplicable (grantId actorUra : String) : Except String Plan :=
  match store.maps.grants[grantId]? with
  | none => .error ("grant_id `" ++ grantId ++ "` not found")
  | some existing =>
    if existing.lifetime ≠ .once then .ok (.answer (.consumedGrant none))
    else if existing.state ≠ .active || existing.lastUsedAt.isSome then
      .error ("once grant `" ++ grantId ++ "` is no longer active")
    else
      let consumed := consumedGrant existing (env.formatMillis now.decided)
      let audit := changedAudit env now existing consumed .consumed actorUra
      .ok (.commit (grantCommit consumed audit .consumed (.consumedGrant (some consumed))))

/-- The commit of one request record. -/
def requestCommit (request : PermissionRequest) (operation : RecordOperation) (reply : Reply) :
    Commit where
  entries := [⟨.permissionRequest, request.requestId, operation, .request request⟩]
  finish := fun maps => maps.insertRequest request
  lastCompactedAt := none
  reply := fun _ => reply

/-- `upsert_permission_request`. The request is checked as a new one, whatever the store holds
under its id. -/
def upsertPermissionRequest (request : PermissionRequest) : Except String Plan := do
  bailIf (request.status ≠ .pending)
    "policy.request.create requires a pending PermissionRequest"
  validateRequestTransition env none request
  match store.maps.requests.values.find? fun existing =>
      existing.status = .pending && permissionRequestIdempotencyKey env existing =
        permissionRequestIdempotencyKey env request with
  | some existing => .ok (.answer (.request existing))
  | none => .ok (.commit (requestCommit request .created (.request request)))

/-- `validate_resolution_authority`: an approved request is backed by exactly one grant or proof
of the store, which fits it. -/
def validateResolutionAuthority (maps : PolicyMaps) (request : PermissionRequest) :
    Except String Unit :=
  if request.status ≠ .approved then .ok ()
  else
    match request.createdGrantId, request.authorityProofId with
    | some grantId, none =>
      match maps.grants[grantId]? with
      | none =>
        .error ("approved PermissionRequest references missing grant `" ++ grantId ++ "`")
      | some grant => validateGrantResolvesRequest grant request
    | none, some proofId =>
      match maps.proofs[proofId]? with
      | none => .error
          ("approved PermissionRequest references missing authority proof `" ++ proofId ++ "`")
      | some proof => validateProofResolvesRequest env proof request
    | none, none => .error "approved PermissionRequest must create a grant or authority proof"
    | some _, some _ =>
      .error "approved PermissionRequest must be backed by exactly one authority source"

/-- `resolve_permission_request`. -/
def resolvePermissionRequest (request : PermissionRequest) (actorUra : String) :
    Except String Plan := do
  let request :=
    if request.status.isTerminal then
      normalizeTerminalResolutionFields request actorUra (env.formatMillis now.decided)
    else request
  let previous := store.maps.requests[request.requestId]?
  validateRequestTransition env previous request
  validateResolutionAuthority env store.maps request
  let operation ← requestTransitionOperation previous request
  .ok (.commit (requestCommit request operation (.request request)))

/-- The commit of an approval that creates a grant. -/
def grantApprovalCommit (request : PermissionRequest) (operation : RecordOperation)
    (grant : PermissionGrant) (audit : GrantAuditRecord) : Commit where
  entries := ⟨.permissionRequest, request.requestId, operation, .request request⟩ ::
    grantEntries grant audit .created
  finish := fun maps => ((maps.insertRequest request).insertGrant grant).insertAudit audit
  lastCompactedAt := none
  reply := fun _ => .resolution ⟨request, some grant, none, false⟩

/-- The approved request as it is recorded, with the id of its grant. -/
def grantApproval (request : PermissionRequest) (grantId actorUra : String) : PermissionRequest :=
  normalizeTerminalResolutionFields
    { request with createdGrantId := some grantId, authorityProofId := none }
    actorUra (env.formatMillis now.decided)

/-- `resolve_permission_request_with_grant`. -/
def resolvePermissionRequestWithGrant (request : PermissionRequest) (grant : PermissionGrant)
    (actorUra : String) : Except String Plan := do
  bailIf (request.status ≠ .approved)
    "grant-backed PermissionRequest resolution requires approved status"
  let grant ← normalizeGrantForCreate env grant
  validateGrantResolvesRequest grant request
  bailIf request.authorityProofId.isSome
    "grant-backed PermissionRequest resolution cannot include authority_proof_id"
  bailIf (request.createdGrantId.any fun grantId => grantId ≠ grant.grantId)
    "PermissionRequest created_grant_id does not match created grant"
  let request := grantApproval env now request grant.grantId actorUra
  let previous := store.maps.requests[request.requestId]?
  validateRequestTransition env previous request
  validateGrant env grant
  match findIdempotentGrant env store.maps grant with
  | some existing =>
    bailIf (request.createdGrantId ≠ some existing.grantId)
      "idempotent approval request must reference the existing grant id"
    let operation ← requestTransitionOperation previous request
    .ok
      (.commit (requestCommit request operation (.resolution ⟨request, some existing, none, true⟩)))
  | none =>
    bailIf (store.maps.grants.contains grant.grantId)
      ("grant_id `" ++ grant.grantId ++ "` already exists")
    let audit := createdAudit env now grant actorUra
    let operation ← requestTransitionOperation previous request
    .ok (.commit (grantApprovalCommit request operation grant audit))

/-- The two checks that a proof id is new. -/
def requireNewProof (maps : PolicyMaps) (proofId : String) : Except String Unit := do
  bailIf (maps.proofs.contains proofId) ("authority proof `" ++ proofId ++ "` already exists")
  bailIf (maps.consumedProofIds.contains proofId)
    ("authority proof `" ++ proofId ++ "` was already consumed")

/-- The commit of an approval that records a proof. -/
def proofApprovalCommit (request : PermissionRequest) (operation : RecordOperation)
    (proof : AuthorityProof) : Commit where
  entries :=
    [⟨.permissionRequest, request.requestId, operation, .request request⟩,
      ⟨.authorityProof, proof.proofId, .created, .proof proof⟩]
  finish := fun maps => (maps.insertRequest request).insertProof proof
  lastCompactedAt := none
  reply := fun _ => .resolution ⟨request, none, some proof, false⟩

/-- The approved request as it is recorded, with the id of its proof. -/
def proofApproval (request : PermissionRequest) (proofId actorUra : String) : PermissionRequest :=
  normalizeTerminalResolutionFields
    { request with createdGrantId := none, authorityProofId := some proofId }
    actorUra (env.formatMillis now.decided)

/-- `resolve_permission_request_with_authority_proof`. -/
def resolvePermissionRequestWithAuthorityProof (request : PermissionRequest)
    (proof : AuthorityProof) (actorUra : String) : Except String Plan := do
  bailIf (request.status ≠ .approved)
    "proof-backed PermissionRequest resolution requires approved status"
  validateAuthorityProofIdentity env proof
  validateProofResolvesRequest env proof request
  bailIf request.createdGrantId.isSome
    "proof-backed PermissionRequest resolution cannot include created_grant_id"
  bailIf (request.authorityProofId.any fun proofId => proofId ≠ proof.proofId)
    "PermissionRequest authority_proof_id does not match authority proof"
  let request := proofApproval env now request proof.proofId actorUra
  let previous := store.maps.requests[request.requestId]?
  validateRequestTransition env previous request
  requireNewProof store.maps proof.proofId
  let operation ← requestTransitionOperation previous request
  .ok (.commit (proofApprovalCommit request operation proof))

/-- The commit of a new proof. -/
def proofCommit (proof : AuthorityProof) : Commit where
  entries := [⟨.authorityProof, proof.proofId, .created, .proof proof⟩]
  finish := fun maps => maps.insertProof proof
  lastCompactedAt := none
  reply := fun _ => .proof proof

/-- The commit of the use of a proof. -/
def consumedProofCommit (proofId : String) (proof : AuthorityProof) : Commit where
  entries := [⟨.authorityProof, proofId, .consumed, .proof proof⟩]
  finish := fun maps => maps.insertConsumed proofId
  lastCompactedAt := none
  reply := fun _ => .proof proof

/-- `put_authority_proof`. -/
def putAuthorityProof (proof : AuthorityProof) : Except String Plan := do
  validateAuthorityProofIdentity env proof
  requireNewProof store.maps proof.proofId
  .ok (.commit (proofCommit proof))

/-- `consume_authority_proof_once`. -/
def consumeAuthorityProofOnce (proofId : String) : Except String Plan :=
  match store.maps.proofs[proofId]? with
  | none => .error ("authority proof `" ++ proofId ++ "` not found")
  | some proof => do
    bailIf (!isOneTimeAuthorityProof proof)
      ("authority proof `" ++ proofId ++ "` is not a one-time proof")
    bailIf (store.maps.consumedProofIds.contains proofId)
      ("authority proof `" ++ proofId ++ "` was already consumed")
    .ok (.commit (consumedProofCommit proofId proof))

/-- A time field that lies after `now`. -/
def expiresAfter (raw : String) (instant : Instant) : Bool :=
  (env.parseRfc3339 raw).any fun expiresAt => expiresAt > instant

/-- A request that is still open. -/
def pendingRequestUnexpiredAt (instant : Instant) (request : PermissionRequest) : Bool :=
  request.status = .pending && expiresAfter env request.expiresAt instant

/-- A proof that has not expired. -/
def authorityProofUnexpiredAt (instant : Instant) (proof : AuthorityProof) : Bool :=
  expiresAfter env proof.expiresAt instant

/-- The checkpoint that `compact` appends. -/
def compactionCheckpoint (policy : AccessControlCompactionPolicy) : CompactionCheckpoint :=
  let compactedAt := env.formatMillis now.decided
  { checkpointId := env.sha256Value (.checkpointKey
      ⟨store.manifest.policyStore.ownerUserUra, store.lastSequence, store.headHash, compactedAt⟩)
    compactedAt
    lastSourceSequence := store.lastSequence
    lastSourceRecordHash := store.headHash
    retainedActiveGrantHashes :=
      (store.maps.grants.values.filter fun grant =>
        grant.activeAt env.parseRfc3339 now.decided).map (grantHash env)
    retainedPendingRequestIds :=
      (store.maps.requests.values.filter (pendingRequestUnexpiredAt env now.decided)).map
        PermissionRequest.requestId
    retainedUnexpiredProofIds :=
      (store.maps.proofs.values.filter (authorityProofUnexpiredAt env now.decided)).map
        AuthorityProof.proofId
    retainedAuditRecordIds := store.maps.audit.keys
    retentionFloor := policy }

/-- The commit of a checkpoint. -/
def checkpointCommit (checkpoint : CompactionCheckpoint) : Commit where
  entries := [⟨.checkpoint, checkpoint.checkpointId, .compacted, .checkpoint checkpoint⟩]
  finish := id
  lastCompactedAt := some checkpoint.compactedAt
  reply := fun after => .compaction
    { checkpointId := checkpoint.checkpointId
      compactedAt := checkpoint.compactedAt
      lastSourceSequence := checkpoint.lastSourceSequence
      lastSourceRecordHash := checkpoint.lastSourceRecordHash
      newSegmentHeadHash := after.headHash
      retainedActiveGrants := checkpoint.retainedActiveGrantHashes.length
      retainedPendingRequests := checkpoint.retainedPendingRequestIds.length
      retainedUnexpiredProofs := checkpoint.retainedUnexpiredProofIds.length
      retainedAuditRecords := checkpoint.retainedAuditRecordIds.length }

/-- `compact`: one checkpoint record, and the compaction time in the manifest. -/
def compact (policy : AccessControlCompactionPolicy) : Except String Plan := do
  validateCompactionPolicy policy
  .ok (.commit (checkpointCommit (compactionCheckpoint env store now policy)))

end Operations

end EasyNetDaemon.Persistence
