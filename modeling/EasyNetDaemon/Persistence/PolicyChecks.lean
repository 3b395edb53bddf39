import EasyNetDaemon.Persistence.PolicyRecords

/-!
# Checks of the policy store

The validation functions of `access_control.rs`, in the order of their checks and with the texts
of their errors. A check returns `Except String Unit`.
-/

namespace EasyNetDaemon.Persistence

open Library EasyNetDaemon.Core Admission

/-- A text that is present and not blank. -/
def hasText (value : Option String) : Bool := value.any fun text => !RustText.isBlank text

section Identities

variable (env : Environment)

/-- The placeholder is no user id. -/
def validateNonzeroUserId (value field : String) : Except String Unit :=
  bailIf (isAllZeroPrincipalId value || containsAllZeroPrincipalPlaceholder value)
    (field ++ " must not contain the all-zero principal placeholder")

/-- A URA is a runtime identity. -/
def validateRuntimeIdentityUra (value field : String) : Except String Unit :=
  match RuntimeIdentityUra.parse env.parseUra value with
  | .error error => .error (field ++ " is not admissible: " ++ error)
  | .ok identity =>
    bailIf (identity.ura ≠ value) (field ++ " must not contain surrounding whitespace")

/-- A URA is a user's. -/
def validateUserPrincipalUra (value field : String) : Except String Unit := do
  validateNonzeroUserId value field
  validateRuntimeIdentityUra env value field
  match env.parseUra value with
  | .error error => .error (field ++ " must be a canonical User URA: " ++ error)
  | .ok parsed =>
    bailIf (parsed.kind ≠ .user || parsed.userId.isNone) (field ++ " must be a canonical User URA")

/-- A principal id fits its kind. -/
def validatePrincipalIdForKind (kind : PrincipalKind) (value field : String) : Except String Unit :=
  match kind with
  | .user => validateUserPrincipalUra env value field
  | .agent =>
    match env.parseUra value with
    | .error error => .error (field ++ " must be a canonical Agent URA: " ++ error)
    | .ok parsed => bailIf (parsed.kind ≠ .agent) (field ++ " must be a canonical Agent URA")
  | _ => .ok ()

/-- The identities of a proof are admissible. -/
def validateAuthorityProofIdentity (proof : AuthorityProof) : Except String Unit :=
  match proof.validateIdentityContract env.parseUra with
  | .error field => .error ("AuthorityProof contains inadmissible " ++ field)
  | .ok () => .ok ()

/-- The manifest fits the store and its owner. -/
def validateManifest (manifest : AccessControlStoreManifest) (ownerUserUra : String) :
    Except String Unit := do
  validateUserPrincipalUra env ownerUserUra "requested policy store owner_user_id"
  validateUserPrincipalUra env manifest.policyStore.ownerUserUra
    "manifest policy store owner_user_id"
  bailIf (manifest.policyStore.format ≠ storeFormat ||
      manifest.policyStore.schemaVersion ≠ schemaVersion ||
      manifest.canonicalization.recordProfile ≠ recordProfile ||
      manifest.canonicalization.hashAlgorithm ≠ "sha256")
    "unsupported RFC-014 policy store manifest"
  bailIf (manifest.policyStore.ownerUserUra ≠ ownerUserUra)
    ("policy store owner mismatch: manifest=" ++ manifest.policyStore.ownerUserUra ++
      " requested=" ++ ownerUserUra)

end Identities

/-! The result of an identity check does not depend on the field it names. -/

section Fields

variable {env : Environment} {value field : String}

theorem validateRuntimeIdentityUra_field (field' : String)
    (h : validateRuntimeIdentityUra env value field = .ok ()) :
    validateRuntimeIdentityUra env value field' = .ok () := by
  simp only [validateRuntimeIdentityUra] at h ⊢
  split at h
  · cases h
  · simpa using h

theorem validateUserPrincipalUra_field (field' : String)
    (h : validateUserPrincipalUra env value field = .ok ()) :
    validateUserPrincipalUra env value field' = .ok () := by
  simp only [validateUserPrincipalUra, validateNonzeroUserId, check_bind_eq_ok_iff,
    bailIf_eq_ok_iff] at h ⊢
  obtain ⟨hzero, hidentity, huser⟩ := h
  refine ⟨hzero, validateRuntimeIdentityUra_field field' hidentity, ?_⟩
  split at huser
  · cases huser
  · simpa using huser

/-- A valid manifest is for a valid owner, and for the requested one. -/
theorem validateManifest_ok (field : String) {manifest : AccessControlStoreManifest}
    {owner : String} (h : validateManifest env manifest owner = .ok ()) :
    validateUserPrincipalUra env owner field = .ok () ∧
      manifest.policyStore.ownerUserUra = owner := by
  simp only [validateManifest, check_bind_eq_ok_iff, bailIf_eq_ok_iff, decide_eq_false_iff_not,
    not_not] at h
  exact ⟨validateUserPrincipalUra_field field h.1, h.2.2.2⟩

/-- The head hash plays no part in the checks of a manifest. -/
theorem validateManifest_congr {manifest manifest' : AccessControlStoreManifest} {owner : String}
    (hformat : manifest'.policyStore.format = manifest.policyStore.format)
    (hversion : manifest'.policyStore.schemaVersion = manifest.policyStore.schemaVersion)
    (howner : manifest'.policyStore.ownerUserUra = manifest.policyStore.ownerUserUra)
    (hcanon : manifest'.canonicalization = manifest.canonicalization) :
    validateManifest env manifest' owner = validateManifest env manifest owner := by
  simp only [validateManifest, hformat, hversion, howner, hcanon]

end Fields

/-! ## Grants -/

/-- The patterns that cover too much. -/
def isBroadPattern (pattern : String) : Bool :=
  pattern = "*" || pattern = "device.*" || pattern = "manage.*" || pattern = "identity.*" ||
    pattern = "authority.*" || pattern = "policy.*"

/-- A pattern is not a broad one. -/
def rejectBroadPattern (pattern : Option String) : Except String Unit :=
  match pattern.map RustText.trim with
  | none => .ok ()
  | some pattern =>
    bailIf (isBroadPattern pattern)
      ("broad ability pattern `" ++ pattern ++ "` requires a later administrative RFC")

/-- A constraint that nothing checks is refused. -/
def rejectUnenforceableConstraints (constraints : Option PermissionConstraints) :
    Except String Unit :=
  match constraints with
  | none => .ok ()
  | some constraints =>
    bailIf (constraints.argsSchemaFilter.isSome || constraints.maxDurationMs.isSome ||
        constraints.maxInvocations.isSome || constraints.requiresUserPresent.isSome ||
        !constraints.resourceTypes.isEmpty)
      "grant constraints are not yet enforceable by this daemon admission profile"

/-- A field without the placeholder. -/
def rejectPlaceholder (field : String) (value : Option String) : Except String Unit :=
  bailIf (value.any containsAllZeroPrincipalPlaceholder)
    (field ++ " must not contain the all-zero principal placeholder")

section Grants

variable (env : Environment)

/-- A time field, if it is there, parses. -/
def requireTime (value : Option String) (message : String) : Except String Unit :=
  bailIf (value.any fun raw => (env.parseRfc3339 raw).isNone) message

/-- The session fields of a grant: both are needed for a session grant, with an end after the
creation of the grant, and neither is allowed for another lifetime. -/
def validateGrantSession (grant : PermissionGrant) (createdAt : Instant) : Except String Unit :=
  if grant.lifetime = .session then do
    bailIf (!hasText grant.sessionId) "PermissionGrant lifetime=session requires session_id"
    bailIf (!grant.sessionId.any fun sessionId =>
        isCanonicalSessionAuthorityId (RustText.trim sessionId))
      "PermissionGrant session_id must be canonical"
    bailIf (!hasText grant.sessionExpiresAt)
      "PermissionGrant lifetime=session requires session_expires_at"
    match grant.sessionExpiresAt.bind fun raw => env.parseRfc3339 (RustText.trim raw) with
    | none => .error "PermissionGrant session_expires_at must be RFC3339"
    | some sessionExpiresAt =>
      bailIf (sessionExpiresAt ≤ createdAt)
        "PermissionGrant session_expires_at must be after created_at"
  else
    bailIf (grant.sessionId.isSome || grant.sessionExpiresAt.isSome)
      "PermissionGrant session_id/session_expires_at require lifetime=session"

/-- `validate_grant`. -/
def validateGrant (grant : PermissionGrant) : Except String Unit := do
  bailIf (RustText.isBlank grant.grantId || RustText.isBlank grant.ownerUserUra ||
      RustText.isBlank grant.principalId || grant.actions.isEmpty ||
      RustText.isBlank grant.createdBy || RustText.isBlank grant.createdAt)
    ("PermissionGrant requires grant_id, owner_user_id, principal_id, actions, created_by, " ++
      "and created_at")
  validateUserPrincipalUra env grant.ownerUserUra "PermissionGrant owner_user_id"
  validatePrincipalIdForKind env grant.principalKind grant.principalId
    "PermissionGrant principal_id"
  validateRuntimeIdentityUra env grant.createdBy "PermissionGrant created_by"
  rejectPlaceholder "PermissionGrant callee_ura" grant.calleeUra
  rejectPlaceholder "PermissionGrant subject_ura_pattern" grant.subjectUraPattern
  rejectBroadPattern grant.abilityUraPattern
  rejectUnenforceableConstraints grant.constraints
  match env.parseRfc3339 grant.createdAt with
  | none => .error "PermissionGrant created_at must be RFC3339"
  | some createdAt => do
    requireTime env grant.expiresAt "PermissionGrant expires_at must be RFC3339"
    bailIf (grant.lifetime = .ttl && grant.expiresAt.isNone)
      "PermissionGrant lifetime=ttl requires expires_at"
    validateGrantSession env grant createdAt
    bailIf (grant.lifetime = .once && grant.lastUsedAt.isSome && grant.state = .active)
      "PermissionGrant lifetime=once cannot be active after last_used_at is set"
    requireTime env grant.reviewRequiredAfter
      "PermissionGrant review_required_after must be RFC3339"
    requireTime env grant.lastReviewedAt "PermissionGrant last_reviewed_at must be RFC3339"
    requireTime env grant.lastUsedAt "PermissionGrant last_used_at must be RFC3339"

/-- `normalize_grant_for_create`: the grant becomes active, and a permanent allow grant with a
reviewed action gets its default review deadline. -/
def normalizeGrantForCreate (grant : PermissionGrant) : Except String PermissionGrant :=
  let grant := { grant with state := .active }
  if grant.effect = .allow && grant.lifetime = .permanent && grant.reviewRequiredAfter.isNone &&
      grant.actions.any fun action =>
        action = .stream || action = .manage || action = .grant then
    match grant.defaultReconfirmationDeadline env.parseRfc3339 with
    | none => .error "PermissionGrant created_at must be RFC3339"
    | some deadline => .ok { grant with reviewRequiredAfter := some (env.formatSecs deadline) }
  else .ok grant

end Grants

/-- Retention times are long enough. -/
def validateCompactionPolicy (policy : AccessControlCompactionPolicy) : Except String Unit := do
  bailIf (policy.grantMutationAuditRetentionDays < 365)
    "grant mutation audit retention must be at least 365 days"
  bailIf (policy.promptAuditRetentionDays < 180)
    "prompt audit retention must be at least 180 days"
  bailIf (policy.deniedAdmissionRetentionDays < 90)
    "denied admission diagnostics retention must be at least 90 days"
  bailIf (policy.completeNestedTraceRetentionDays < 30)
    "complete nested trace retention must be at least 30 days"
  bailIf (policy.redactedProjectionRetentionDays < 180)
    "redacted projection retention must be at least 180 days"

/-! ## Permission requests -/

/-- The `Debug` text of a status. -/
def debugStatus : PermissionRequestStatus → String
  | .pending => "Pending"
  | .approved => "Approved"
  | .denied => "Denied"
  | .expired => "Expired"
  | .cancelled => "Cancelled"

/-- `request_transition_operation`: a new request is pending, a pending request becomes terminal,
and a terminal request does not change. -/
def requestTransitionOperation (previous : Option PermissionRequest)
    (request : PermissionRequest) : Except String RecordOperation :=
  match previous with
  | none =>
    if request.status = .pending then .ok .created
    else .error ("initial PermissionRequest record must be pending, got `" ++
      debugStatus request.status ++ "`")
  | some previous =>
    if previous.status = .pending then
      match request.status with
      | .approved => .ok .approved
      | .denied => .ok .denied
      | .expired => .ok .expired
      | .cancelled => .ok .cancelled
      | .pending => .error "PermissionRequest cannot remain pending after initial creation"
    else .error ("terminal PermissionRequest cannot transition from `" ++
      debugStatus previous.status ++ "` to `" ++ debugStatus request.status ++ "`")

section Requests

variable (env : Environment)

/-- A request expires after its creation. -/
def validateRequestTimestamps (request : PermissionRequest) : Except String Unit :=
  match env.parseRfc3339 request.createdAt with
  | none => .error "PermissionRequest created_at must be RFC3339"
  | some createdAt =>
    match env.parseRfc3339 request.expiresAt with
    | none => .error "PermissionRequest expires_at must be RFC3339"
    | some expiresAt => do
      bailIf (expiresAt ≤ createdAt) "PermissionRequest expires_at must be after created_at"
      requireTime env request.resolvedAt "PermissionRequest resolved_at must be RFC3339"

/-- `validate_request_transition`. -/
def validateRequestTransition (previous : Option PermissionRequest) (next : PermissionRequest) :
    Except String Unit := do
  bailIf (RustText.isBlank next.requestId || RustText.isBlank next.ownerUserUra ||
      RustText.isBlank next.principalId || RustText.isBlank next.callerUra ||
      RustText.isBlank next.calleeUra || RustText.isBlank next.subjectUra ||
      RustText.isBlank next.abilityUra)
    "PermissionRequest identity fields must not be empty"
  validateUserPrincipalUra env next.ownerUserUra "PermissionRequest owner_user_id"
  validatePrincipalIdForKind env next.principalKind next.principalId
    "PermissionRequest principal_id"
  validateRuntimeIdentityUra env next.callerUra "PermissionRequest caller_ura"
  validateRuntimeIdentityUra env next.calleeUra "PermissionRequest callee_ura"
  validateRuntimeIdentityUra env next.subjectUra "PermissionRequest subject_ura"
  bailIf next.requestedLifetimes.isEmpty "PermissionRequest requested_lifetimes must not be empty"
  bailIf (!hasText next.nonce && !hasText next.canonicalHash)
    "PermissionRequest must bind nonce or canonical_hash"
  validateRequestTimestamps env next
  let _ ← requestTransitionOperation previous next
  bailIf (next.status = .approved && next.createdGrantId.isNone && next.authorityProofId.isNone)
    "approved PermissionRequest must create a grant or authority proof"
  bailIf (next.createdGrantId.isSome && next.authorityProofId.isSome)
    "approved PermissionRequest must be backed by exactly one authority source"
  bailIf (next.status ≠ .approved &&
      (next.createdGrantId.isSome || next.authorityProofId.isSome))
    "only approved PermissionRequest records may reference authority source ids"
  bailIf (next.status.isTerminal && (!hasText next.resolverUra || !hasText next.resolvedAt))
    "terminal PermissionRequest requires resolver_ura and resolved_at"

end Requests

/-- `normalize_terminal_resolution_fields`: an absent or empty resolver becomes the actor, an
absent or empty resolution time becomes `now`. -/
def normalizeTerminalResolutionFields (request : PermissionRequest) (actorUra now : String) :
    PermissionRequest :=
  { request with
    resolverUra :=
      if request.resolverUra.all String.isEmpty then some actorUra else request.resolverUra
    resolvedAt :=
      if request.resolvedAt.all String.isEmpty then some now else request.resolvedAt }

/-- `validate_grant_resolves_request`. -/
def validateGrantResolvesRequest (grant : PermissionGrant) (request : PermissionRequest) :
    Except String Unit := do
  bailIf (grant.ownerUserUra ≠ request.ownerUserUra)
    "grant owner does not match PermissionRequest owner"
  bailIf (grant.principalKind ≠ request.principalKind ||
      grant.principalId ≠ request.principalId || grant.tokenId ≠ request.tokenId)
    "grant principal does not match PermissionRequest principal"
  bailIf (grant.effect ≠ .allow || grant.state ≠ .active)
    "PermissionRequest approval grant must be active allow"
  bailIf (!grant.actions.contains request.action)
    "grant actions do not include PermissionRequest action"
  bailIf (grant.calleeUra ≠ some request.calleeUra ||
      grant.subjectUraPattern ≠ some request.subjectUra ||
      grant.abilityUraPattern ≠ some request.abilityUra)
    "grant scope does not exactly match PermissionRequest scope"

/-- The proof's nonce or canonical hash, not blank and trimmed, is the request's. -/
def proofBindsPermissionRequestInvocation (proof : AuthorityProof)
    (request : PermissionRequest) : Bool :=
  (proof.nonce.any fun nonce =>
      !RustText.isBlank nonce && request.nonce = some (RustText.trim nonce)) ||
    proof.canonicalHash.any fun hash =>
      !RustText.isBlank hash && request.canonicalHash = some (RustText.trim hash)

/-- `validate_proof_resolves_request`. -/
def validateProofResolvesRequest (env : Environment) (proof : AuthorityProof)
    (request : PermissionRequest) : Except String Unit := do
  bailIf (proof.permissionRequestId ≠ some request.requestId)
    "authority proof does not reference PermissionRequest"
  bailIf (proof.ownerUserUra ≠ request.ownerUserUra ||
      proof.principalKind ≠ request.principalKind || proof.principalId ≠ request.principalId ||
      proof.tokenId ≠ request.tokenId || proof.calleeUra ≠ request.calleeUra ||
      proof.subjectUra ≠ request.subjectUra || proof.abilityUra ≠ request.abilityUra ||
      proof.action ≠ request.action)
    "authority proof binding does not match PermissionRequest"
  bailIf (proof.nonce.isSome && proof.nonce ≠ request.nonce)
    "authority proof nonce does not match PermissionRequest"
  bailIf (proof.canonicalHash.isSome && proof.canonicalHash ≠ request.canonicalHash)
    "authority proof canonical hash does not match PermissionRequest"
  bailIf (!proofBindsPermissionRequestInvocation proof request)
    "authority proof must bind PermissionRequest nonce or canonical_hash"
  bailIf (env.parseRfc3339 proof.expiresAt).isNone "authority proof expires_at must be RFC3339"

/-- A proof for one permission request, not tied to a grant or a session. -/
def isOneTimeAuthorityProof (proof : AuthorityProof) : Bool :=
  proof.permissionRequestId.isSome && proof.grantId.isNone && proof.sessionId.isNone

end EasyNetDaemon.Persistence
