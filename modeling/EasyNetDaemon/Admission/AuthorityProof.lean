import EasyNetDaemon.Admission.Decision
import EasyNetDaemon.Core.Identity

/-!
# Authority proofs

The record of `authority_proof.rs` and its identity contract: the owner, the principal and the
session owner are user URAs, and the four route identities are runtime identities without
surrounding white space. Signature verification is not part of the model.
-/

namespace EasyNetDaemon.Admission

open Library EasyNetDaemon.Core

/-- A signed proof of authority for one invocation or session. -/
structure AuthorityProof where
  proofId : String
  grantId : Option String
  permissionRequestId : Option String
  ownerUserUra : String
  principalKind : PrincipalKind
  principalId : String
  tokenId : Option String
  tokenClass : Option TokenClass
  calleeUra : String
  subjectUra : String
  abilityUra : String
  action : AccessAction
  nonce : Option String
  canonicalHash : Option String
  sessionId : Option String
  sessionOwnerUserUra : Option String
  allowedFollowupAbilities : List String
  sessionExpiresAt : Option String
  issuedAt : String
  expiresAt : String
  issuerUra : String
  audienceUra : String
  signature : String
  deriving DecidableEq, Repr

namespace AuthorityProof

section Identity

variable (parseUra : String → Except String Ura)

/-- The value is a user URA and not the all-zero placeholder; the error is the field name. -/
def validateUserPrincipalUra (value field : String) : Except String Unit := do
  bailIf (RustText.isBlank value || isAllZeroPrincipalId value) field
  match parseUra value with
  | .error _ => .error field
  | .ok parsed => bailIf (parsed.kind ≠ .user || parsed.userId.isNone) field

/-- The value is a runtime identity and equals its normal form; the error is the field name. -/
def validateRouteIdentity (field value : String) : Except String Unit :=
  match RuntimeIdentityUra.parse parseUra value with
  | .error _ => .error field
  | .ok identity => bailIf (identity.ura ≠ value) field

/-- `AuthorityProof::validate_identity_contract`. -/
def validateIdentityContract (proof : AuthorityProof) : Except String Unit := do
  validateUserPrincipalUra parseUra proof.ownerUserUra "owner_user_id"
  if proof.principalKind = .user then
    validateUserPrincipalUra parseUra proof.principalId "principal_id"
  if let some sessionOwnerUserUra := proof.sessionOwnerUserUra then
    validateUserPrincipalUra parseUra sessionOwnerUserUra "session_owner_user_id"
  validateRouteIdentity parseUra "callee_ura" proof.calleeUra
  validateRouteIdentity parseUra "subject_ura" proof.subjectUra
  validateRouteIdentity parseUra "issuer_ura" proof.issuerUra
  validateRouteIdentity parseUra "audience_ura" proof.audienceUra

end Identity

end AuthorityProof

end EasyNetDaemon.Admission
