import EasyNetDaemon.Admission.AuthorityProof
import EasyNetDaemon.Admission.GrantMatcher
import Mathlib.Data.Countable.Basic
import Mathlib.Logic.Equiv.List
import Mathlib.Tactic.DeriveCountable

/-!
# Records of the policy store

The data of `access_control.rs`: the manifest, the audit records, the journal records with their
payloads, and the material that is hashed. Serialization is not modelled: a payload is the typed
value it deserializes to, and `sha256Value` stands for the SHA-256 of the canonical JSON of one of
the values the code hashes (`HashMaterial`).

`Environment` collects what the store takes from other libraries: the time formats, the URA parser
and the hash.
-/

namespace EasyNetDaemon.Persistence

open Library EasyNetDaemon.Core Admission

/-! ## Manifest -/

/-- The canonical form of records. -/
def recordProfile : String := "canonical-json-v0"

/-- The format of the store. -/
def storeFormat : String := "easynet-rfc014-policy-store-v0"

/-- The version of the schema. -/
def schemaVersion : Nat := 1

/-- The hash before the first record. -/
def zeroHash : String :=
  "sha256:0000000000000000000000000000000000000000000000000000000000000000"

/-- The manifest's part on the store. -/
structure PolicyStoreSection where
  format : String
  schemaVersion : Nat
  ownerUserUra : String
  createdAt : String
  lastCompactedAt : String
  headHash : String
  deriving DecidableEq, Repr

/-- The manifest's part on records. -/
structure CanonicalizationSection where
  recordProfile : String
  hashAlgorithm : String
  deriving DecidableEq, Repr

/-- The four files. -/
structure PolicyStoreFiles where
  grants : String
  permissionRequests : String
  authorityProofs : String
  audit : String
  deriving DecidableEq, Repr

/-- The manifest of a store. -/
structure AccessControlStoreManifest where
  policyStore : PolicyStoreSection
  canonicalization : CanonicalizationSection
  files : PolicyStoreFiles
  deriving DecidableEq, Repr

/-! ## Journal records -/

/-- What was done to a grant. -/
inductive GrantMutation
  | created
  | revoked
  | expired
  | consumed
  | edited
  deriving DecidableEq, Repr

/-- The audit trail of one grant mutation. -/
structure GrantAuditRecord where
  auditRecordId : String
  grantId : String
  mutation : GrantMutation
  ownerUserUra : String
  principalId : String
  tokenId : Option String
  actions : List AccessAction
  abilityUraPattern : Option String
  subjectUraPattern : Option String
  effect : PermissionEffect
  actorUra : String
  timestamp : String
  reason : Option String
  previousGrantHash : String
  newGrantHash : String
  deriving DecidableEq, Repr

/-- How long records are kept. -/
structure AccessControlCompactionPolicy where
  grantMutationAuditRetentionDays : Int
  promptAuditRetentionDays : Int
  deniedAdmissionRetentionDays : Int
  completeNestedTraceRetentionDays : Int
  redactedProjectionRetentionDays : Int
  deriving DecidableEq, Repr

/-- What a compaction has covered. -/
structure CompactionCheckpoint where
  checkpointId : String
  compactedAt : String
  lastSourceSequence : Nat
  lastSourceRecordHash : String
  retainedActiveGrantHashes : List String
  retainedPendingRequestIds : List String
  retainedUnexpiredProofIds : List String
  retainedAuditRecordIds : List String
  retentionFloor : AccessControlCompactionPolicy
  deriving DecidableEq, Repr

/-- What a record is about. -/
inductive RecordKind
  | permissionGrant
  | permissionRequest
  | authorityProof
  | audit
  | checkpoint
  deriving DecidableEq, Repr

/-- What a record does. -/
inductive RecordOperation
  | created
  | revoked
  | expired
  | edited
  | approved
  | denied
  | cancelled
  | consumed
  | compacted
  deriving DecidableEq, Repr

/-- The payload of a record, as the value it deserializes to. -/
inductive Payload
  | grant (grant : PermissionGrant)
  | request (request : PermissionRequest)
  | proof (proof : AuthorityProof)
  | audit (audit : GrantAuditRecord)
  | checkpoint (checkpoint : CompactionCheckpoint)
  deriving DecidableEq, Repr

/-- A journal record without its own hash. -/
structure RecordBody where
  recordKind : RecordKind
  schemaVersion : Nat
  sequence : Nat
  ownerUserUra : String
  recordId : String
  operation : RecordOperation
  payload : Payload
  previousRecordHash : String
  createdAt : String
  actorUra : String
  deriving DecidableEq, Repr

/-- A record with its hash. -/
structure JournalRecord extends RecordBody where
  recordHash : String
  deriving DecidableEq, Repr

/-! ## Hashed material -/

/-- The fields of a grant that decide whether a request for it is a repetition. -/
structure GrantKeyMaterial where
  ownerUserUra : String
  principalKind : PrincipalKind
  principalId : String
  tokenId : Option String
  calleeUra : Option String
  subjectUraPattern : Option String
  abilityUraPattern : Option String
  actions : List AccessAction
  constraints : Option PermissionConstraints
  effect : PermissionEffect
  lifetime : PermissionGrantLifetime
  expiresAt : Option String
  createdBy : String
  deriving DecidableEq, Repr

/-- The fields of a permission request that decide whether it is a repetition. -/
structure RequestKeyMaterial where
  ownerUserUra : String
  principalId : String
  tokenId : Option String
  calleeUra : String
  subjectUra : String
  abilityUra : String
  action : AccessAction
  canonicalHash : Option String
  nonce : Option String
  deriving DecidableEq, Repr

/-- The material of an audit record id. -/
structure AuditKeyMaterial where
  grantId : String
  mutation : GrantMutation
  ownerUserUra : String
  principalId : String
  tokenId : Option String
  actions : List AccessAction
  abilityUraPattern : Option String
  subjectUraPattern : Option String
  effect : PermissionEffect
  actorUra : String
  previousGrantHash : String
  newGrantHash : String
  deriving DecidableEq, Repr

/-- The material of a checkpoint id. -/
structure CheckpointKeyMaterial where
  ownerUserUra : String
  lastSourceSequence : Nat
  lastSourceRecordHash : String
  compactedAt : String
  deriving DecidableEq, Repr

/-- The JSON values the store hashes. They have different shapes, so their texts are different. -/
inductive HashMaterial
  | grantKey (material : GrantKeyMaterial)
  | requestKey (material : RequestKeyMaterial)
  | grant (grant : PermissionGrant)
  | auditKey (material : AuditKeyMaterial)
  | record (body : RecordBody)
  | checkpointKey (material : CheckpointKeyMaterial)
  deriving DecidableEq, Repr

/-- What the store takes from other libraries. -/
structure Environment where
  /-- `DateTime::parse_from_rfc3339`. -/
  parseRfc3339 : String → Option Instant
  /-- `to_rfc3339_opts(SecondsFormat::Millis, true)`. -/
  formatMillis : Instant → String
  /-- `to_rfc3339_opts(SecondsFormat::Secs, true)`. -/
  formatSecs : Instant → String
  /-- `axon_sdk::ura::parse_ura`. -/
  parseUra : String → Except String Ura
  /-- The SHA-256 of the canonical JSON, in hexadecimal with its prefix. -/
  sha256Value : HashMaterial → String

/-- The documented behaviour of these libraries: a formatted time parses again, and the hash is
free of collisions and never the zero hash. -/
structure Environment.Lawful (env : Environment) : Prop where
  parse_formatMillis : ∀ t, (env.parseRfc3339 (env.formatMillis t)).isSome
  sha256_injective : Function.Injective env.sha256Value
  sha256_ne_zero : ∀ material, env.sha256Value material ≠ zeroHash

section Hashes

variable (env : Environment)

/-- The material of a grant's key. -/
def grantKeyMaterial (grant : PermissionGrant) : GrantKeyMaterial where
  ownerUserUra := grant.ownerUserUra
  principalKind := grant.principalKind
  principalId := grant.principalId
  tokenId := grant.tokenId
  calleeUra := grant.calleeUra
  subjectUraPattern := grant.subjectUraPattern
  abilityUraPattern := grant.abilityUraPattern
  actions := grant.actions
  constraints := grant.constraints
  effect := grant.effect
  lifetime := grant.lifetime
  expiresAt := grant.expiresAt
  createdBy := grant.createdBy

/-- The key by which a grant is repeated. -/
def grantIdempotencyKey (grant : PermissionGrant) : String :=
  env.sha256Value (.grantKey (grantKeyMaterial grant))

/-- The material of a request's key. -/
def requestKeyMaterial (request : PermissionRequest) : RequestKeyMaterial where
  ownerUserUra := request.ownerUserUra
  principalId := request.principalId
  tokenId := request.tokenId
  calleeUra := request.calleeUra
  subjectUra := request.subjectUra
  abilityUra := request.abilityUra
  action := request.action
  canonicalHash := request.canonicalHash
  nonce := request.nonce

/-- The key by which a request is repeated. -/
def permissionRequestIdempotencyKey (request : PermissionRequest) : String :=
  env.sha256Value (.requestKey (requestKeyMaterial request))

/-- The hash of a grant. -/
def grantHash (grant : PermissionGrant) : String := env.sha256Value (.grant grant)

/-- The hash of a record. -/
def computeRecordHash (body : RecordBody) : String := env.sha256Value (.record body)

/-- The audit record of a grant mutation, stamped at `now`. -/
def auditRecord (grant : PermissionGrant) (mutation : GrantMutation) (actorUra : String)
    (previousGrantHash newGrantHash : String) (now : Instant) : GrantAuditRecord where
  auditRecordId := env.sha256Value (.auditKey
    { grantId := grant.grantId
      mutation
      ownerUserUra := grant.ownerUserUra
      principalId := grant.principalId
      tokenId := grant.tokenId
      actions := grant.actions
      abilityUraPattern := grant.abilityUraPattern
      subjectUraPattern := grant.subjectUraPattern
      effect := grant.effect
      actorUra
      previousGrantHash
      newGrantHash })
  grantId := grant.grantId
  mutation
  ownerUserUra := grant.ownerUserUra
  principalId := grant.principalId
  tokenId := grant.tokenId
  actions := grant.actions
  abilityUraPattern := grant.abilityUraPattern
  subjectUraPattern := grant.subjectUraPattern
  effect := grant.effect
  actorUra
  timestamp := env.formatMillis now
  reason := grant.reason
  previousGrantHash
  newGrantHash

end Hashes

/-! ## The laws can be met

There are countably many values to hash, so a hash without collisions exists. -/

instance countableChar : Countable Char :=
  Function.Injective.countable fun _ _ h => Char.toNat_inj.1 h

instance countableString : Countable String :=
  Function.Injective.countable fun _ _ h => String.toList_inj.1 h

deriving instance Countable for PrincipalKind, AccessAction, TokenClass, NetworkScope,
  PermissionConstraints, PermissionEffect, PermissionGrantLifetime, PermissionGrantState,
  PermissionGrant, PermissionLifetime, PermissionRequestStatus, PermissionRequest, AuthorityProof,
  GrantMutation, GrantAuditRecord, AccessControlCompactionPolicy, CompactionCheckpoint, RecordKind,
  RecordOperation, Payload, RecordBody, GrantKeyMaterial, RequestKeyMaterial, AuditKeyMaterial,
  CheckpointKeyMaterial, HashMaterial

/-- A hash text with `n` digits. -/
def hashText (n : Nat) : String := String.ofList ('s' :: List.replicate n 'f')

theorem hashText_injective : Function.Injective hashText := by
  intro m n h
  have hchars := String.ofList_injective h
  exact List.replicate_left_injective 'f' (List.cons.inj hchars).2

theorem hashText_ne_zeroHash (n : Nat) : hashText n ≠ zeroHash := by
  intro h
  have hchars : 's' :: List.replicate n 'f' = zeroHash.toList := by
    rw [← h, hashText, String.toList_ofList]
  have hdigit : '0' ∈ 's' :: List.replicate n 'f' := by
    rw [hchars]
    decide
  rcases List.mem_cons.1 hdigit with h | h
  · cases h
  · cases (List.mem_replicate.1 h).2

/-- A hash without collisions. -/
theorem exists_collisionFree :
    ∃ hash : HashMaterial → String, Function.Injective hash ∧ ∀ material, hash material ≠
      zeroHash := by
  obtain ⟨index, hindex⟩ := Countable.exists_injective_nat HashMaterial
  exact ⟨fun material => hashText (index material), hashText_injective.comp hindex,
    fun material => hashText_ne_zeroHash _⟩

end EasyNetDaemon.Persistence
