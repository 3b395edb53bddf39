import Mathlib.Data.Nat.Notation

/-!
# Admission decision records

The data of `decision.rs`: the principals, tokens and actions a request names, the resolution of
its owner, the decision of the policy engine, and the permission requests that wait for an
interactive answer. Names follow the source in camel case; a URA is a `String`, as there.
-/

namespace EasyNetDaemon.Admission

/-- The kind of a caller principal. -/
inductive PrincipalKind
  | user
  | agent
  | token
  | hub
  | deviceCustody
  | service
  | automation
  deriving DecidableEq, Repr

/-- The class of a bearer token. -/
inductive TokenClass
  | hubLink
  | browserSession
  | devicePairing
  | automation
  | thirdParty
  | service
  deriving DecidableEq, Repr

/-- The access an ability needs. -/
inductive AccessAction
  | read
  | invoke
  | stream
  | manage
  | grant
  deriving DecidableEq, Repr

/-- Where the owner of a request was found. -/
inductive OwnerSource
  | subject
  | callee
  | device
  | session
  | unresolved
  deriving DecidableEq, Repr

/-- The resolved owner of a request. -/
structure OwnerResolution where
  ownerUserUra : Option String
  ownerUra : Option String
  ownerSource : OwnerSource
  auditWarnings : List String
  deriving DecidableEq, Repr

/-- What a decision says. -/
inductive PolicyDecisionOutcome
  | allow
  | deny
  | prompt
  deriving DecidableEq, Repr

/-- Why a decision was made. -/
inductive PolicyDecisionReason
  | ownerAllow
  | explicitGrantAllow
  | systemRuleAllow
  | authorityProofAllow
  | invocationLifecycleControlAllow
  | federationForwardAllow
  | explicitDeny
  | hubTokenReadAllow
  | missingGrant
  | grantReconfirmationRequired
  | tokenScopeDenied
  | callerNotOwner
  | ownerUnresolved
  | interactiveApprovalRequired
  | nonInteractiveDeny
  | authorityProofExpired
  | authorityProofMismatch
  deriving DecidableEq, Repr

/-- The decision of the policy engine, with the request it was taken on. -/
structure PolicyDecision where
  decision : PolicyDecisionOutcome
  reason : PolicyDecisionReason
  ownerUserUra : Option String
  ownerSource : OwnerSource
  callerUra : String
  principalKind : PrincipalKind
  principalId : String
  tokenId : Option String
  tokenClass : Option TokenClass
  calleeUra : String
  subjectUra : String
  abilityUra : String
  action : AccessAction
  rejectorUra : Option String
  policyRuleId : Option String
  grantId : Option String
  promptRequestId : Option String
  canonicalHash : Option String
  signatureKeyId : Option String
  authorityProofId : Option String
  deriving DecidableEq, Repr

/-- The status of an interactive permission request. -/
inductive PermissionRequestStatus
  | pending
  | approved
  | denied
  | expired
  | cancelled
  deriving DecidableEq, Repr

/-- A status after which a request is settled. -/
def PermissionRequestStatus.isTerminal : PermissionRequestStatus → Bool
  | .approved | .denied | .expired | .cancelled => true
  | .pending => false

/-- The lifetime an approver can choose. -/
inductive PermissionLifetime
  | once
  | session
  | ttl
  | permanent
  deriving DecidableEq, Repr

/-- A request for permission that waits for, or has got, the answer of its owner. -/
structure PermissionRequest where
  requestId : String
  ownerUserUra : String
  callerUra : String
  principalKind : PrincipalKind
  principalId : String
  tokenId : Option String
  tokenClass : Option TokenClass
  calleeUra : String
  subjectUra : String
  abilityUra : String
  action : AccessAction
  nonce : Option String
  canonicalHash : Option String
  requestedLifetimes : List PermissionLifetime
  status : PermissionRequestStatus
  createdAt : String
  expiresAt : String
  resolverUra : Option String
  resolvedLifetime : Option PermissionLifetime
  createdGrantId : Option String
  authorityProofId : Option String
  resolvedAt : Option String
  decisionReason : Option String
  deriving DecidableEq, Repr

end EasyNetDaemon.Admission
