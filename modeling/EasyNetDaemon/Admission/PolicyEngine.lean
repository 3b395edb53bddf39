import EasyNetDaemon.Admission.GrantMatcher

/-!
# The policy engine

The model of `policy_engine.rs`. `check` is the source's ladder of early returns, cut at the three
places where it consults the grants: the search for a deny grant comes first, then the rules that
need no grant (`standingAllow`), the rules of a resolved owner (`ownerAllow`), and last the
searches for an allow grant (`allowGrant`) and for a grant whose review is due (`reviewGrant`).

The decision depends on the grants only through these three searches
(`check_congr_searches`). `check_deny_overrides` puts together what follows: deny overrides, the
order of the grants is irrelevant, more allow grants never take an allow away, more deny grants
never add one, and grants of other owners or principals play no part.
-/

namespace EasyNetDaemon.Admission

open Library

/-- The purpose of a classified device caller. -/
inductive DeviceCallerPurpose
  | bootstrap
  | pairing
  | publicationCustody
  | deviceSelfSession
  | lifecycleSelfRevoke
  | hostedAgentRetraction
  | abilityCatalogDiff
  deriving DecidableEq, Repr

/-- The classifier's proof of one device purpose. -/
structure VerifiedDeviceInvocationPurpose where
  purpose : DeviceCallerPurpose
  deriving DecidableEq, Repr

/-- The verified purpose is this one. -/
def VerifiedDeviceInvocationPurpose.is (v : VerifiedDeviceInvocationPurpose)
    (expected : DeviceCallerPurpose) : Bool :=
  v.purpose = expected

/-- A system rule that matched the request before the engine ran. -/
inductive SystemPolicyRuleMatch
  | authoritySelfRead
  | authoritySelfManage
  | authoritySelfStream
  | authorityPeerDirectoryStream
  | realmAuthorityPublicRead
  | devicePublicationCustodyManage
  | deviceSelfSessionStream
  | deviceLifecycleSelfRevokeManage
  | deviceHostedAgentRetractionManage
  | remoteOwnerForward
  deriving DecidableEq, Repr

/-- Everything the engine decides on. -/
structure PolicyInput where
  owner : OwnerResolution
  callerUserUra : Option String
  callerUra : String
  principalKind : PrincipalKind
  principalId : String
  tokenId : Option String
  tokenClass : Option TokenClass
  deviceInvocationPurpose : Option VerifiedDeviceInvocationPurpose
  calleeUra : String
  subjectUra : String
  abilityUra : String
  action : AccessAction
  safeRead : Bool
  systemRuleMatches : List SystemPolicyRuleMatch
  invocationLifecycleControl : Bool
  interactiveContextAvailable : Bool
  canonicalHash : Option String
  signatureKeyId : Option String
  verifiedAuthorityId : Option String
  verifiedSessionId : Option String
  rejectorUra : Option String
  now : Instant
  grants : List PermissionGrant
  deriving DecidableEq, Repr

namespace SystemPolicyRuleMatch

/-- The id of a system rule. -/
def policyRuleId : SystemPolicyRuleMatch → String
  | authoritySelfRead => "system.authority.self_read"
  | authoritySelfManage => "system.authority.self_manage"
  | authoritySelfStream => "system.authority.self_stream"
  | authorityPeerDirectoryStream => "system.authority.peer_directory_stream"
  | realmAuthorityPublicRead => "system.realm_authority.public_read"
  | devicePublicationCustodyManage => "system.device.publication_custody_manage"
  | deviceSelfSessionStream => "system.device.self_session_stream"
  | deviceLifecycleSelfRevokeManage => "system.device.lifecycle_self_revoke_manage"
  | deviceHostedAgentRetractionManage => "system.device.hosted_agent_retraction_manage"
  | remoteOwnerForward => "system.federation.remote_owner_forward"

/-- The request is the action the rule is for, made by a device caller of the given purpose. -/
def allowsDevicePurpose (input : PolicyInput) (action : AccessAction)
    (purpose : DeviceCallerPurpose) : Option PolicyDecisionReason :=
  if input.action = action && input.deviceInvocationPurpose.any (·.is purpose) then
    some .systemRuleAllow
  else none

/-- The reason for which a matched rule allows the request, if it does. -/
def allowReason (input : PolicyInput) : SystemPolicyRuleMatch → Option PolicyDecisionReason
  | authoritySelfRead | realmAuthorityPublicRead =>
    if input.action = .read && input.safeRead then some .hubTokenReadAllow else none
  | authoritySelfManage => if input.action = .manage then some .systemRuleAllow else none
  | devicePublicationCustodyManage => allowsDevicePurpose input .manage .publicationCustody
  | deviceLifecycleSelfRevokeManage => allowsDevicePurpose input .manage .lifecycleSelfRevoke
  | deviceHostedAgentRetractionManage => allowsDevicePurpose input .manage .hostedAgentRetraction
  | authoritySelfStream | authorityPeerDirectoryStream =>
    if input.action = .stream then some .systemRuleAllow else none
  | deviceSelfSessionStream => allowsDevicePurpose input .stream .deviceSelfSession
  | remoteOwnerForward => some .federationForwardAllow

end SystemPolicyRuleMatch

/-! ## The decision ladder -/

namespace PolicyEngine

/-- The decision record of an outcome; a grant id is also the policy rule id. -/
def decision (input : PolicyInput) (outcome : PolicyDecisionOutcome)
    (reason : PolicyDecisionReason) (grantId : Option String) : PolicyDecision where
  decision := outcome
  reason
  ownerUserUra := input.owner.ownerUserUra
  ownerSource := input.owner.ownerSource
  callerUra := input.callerUra
  principalKind := input.principalKind
  principalId := input.principalId
  tokenId := input.tokenId
  tokenClass := input.tokenClass
  calleeUra := input.calleeUra
  subjectUra := input.subjectUra
  abilityUra := input.abilityUra
  action := input.action
  rejectorUra := input.rejectorUra
  policyRuleId := grantId
  grantId
  promptRequestId := none
  canonicalHash := input.canonicalHash
  signatureKeyId := input.signatureKeyId
  authorityProofId := input.verifiedAuthorityId

/-- The decision by a grant. -/
def explicitGrantDecision (input : PolicyInput) (grantId : String) : PolicyDecision :=
  { decision input .allow .explicitGrantAllow none with
    policyRuleId := some grantId
    grantId := some grantId }

/-- The decision by a system rule. -/
def systemRuleDecision (input : PolicyInput) (outcome : PolicyDecisionOutcome)
    (reason : PolicyDecisionReason) (ruleMatch : SystemPolicyRuleMatch) : PolicyDecision :=
  { decision input outcome reason none with policyRuleId := some ruleMatch.policyRuleId }

/-- The owner the engine works with: resolved and not blank. -/
def resolvedOwner (input : PolicyInput) : Option String :=
  input.owner.ownerUserUra.filter fun owner => !RustText.isBlank owner

/-- The request as the matcher sees it. -/
def grantMatchInput (input : PolicyInput) (ownerUserUra : String) : GrantMatchInput where
  ownerUserUra
  principalKind := input.principalKind
  principalId := input.principalId
  tokenId := input.tokenId
  tokenClass := input.tokenClass
  sessionId := input.verifiedSessionId
  calleeUra := input.calleeUra
  subjectUra := input.subjectUra
  abilityUra := input.abilityUra
  action := input.action
  now := input.now

/-- The rules that allow without looking at the owner or the grants: lifecycle control, the first
system rule that allows, and a verified authority. -/
def standingAllow (input : PolicyInput) : Option PolicyDecision :=
  if input.invocationLifecycleControl && input.action = .manage then
    some (decision input .allow .invocationLifecycleControlAllow none)
  else
    match input.systemRuleMatches.findSome? fun ruleMatch =>
        (ruleMatch.allowReason input).map fun reason => (ruleMatch, reason) with
    | some (ruleMatch, reason) => some (systemRuleDecision input .allow reason ruleMatch)
    | none =>
      if input.verifiedAuthorityId.isSome then
        some (decision input .allow .authorityProofAllow none)
      else none

/-- The rules of a resolved owner that need no grant: the caller is the owner, or a hub link does a
safe read. -/
def ownerAllow (input : PolicyInput) : Option PolicyDecision :=
  if input.owner.ownerUra.any fun ownerUra => input.callerUserUra = some ownerUra then
    some (decision input .allow .ownerAllow none)
  else if input.tokenClass = some .hubLink && input.action = .read && input.safeRead then
    some (decision input .allow .hubTokenReadAllow none)
  else none

/-- The end of the ladder, when neither a grant nor a review decides. -/
def fallback (input : PolicyInput) : PolicyDecision :=
  if input.interactiveContextAvailable then
    decision input .prompt .interactiveApprovalRequired none
  else if input.principalKind = .token && input.action ≠ .read then
    decision input .deny .tokenScopeDenied none
  else decision input .deny .nonInteractiveDeny none

section Check

variable (parseRfc3339 : String → Option Instant)

/-- The deny grant that decides the request, if the owner is resolved and one matches. -/
def denyGrant (input : PolicyInput) : Option PermissionGrant :=
  (resolvedOwner input).bind fun ownerUserUra =>
    find parseRfc3339 input.grants (grantMatchInput input ownerUserUra) .deny

/-- The allow grant that decides the request, if the owner is resolved and one is admissible. -/
def allowGrant (input : PolicyInput) : Option PermissionGrant :=
  (resolvedOwner input).bind fun ownerUserUra =>
    find parseRfc3339 input.grants (grantMatchInput input ownerUserUra) .allow

/-- The allow grant that matches but has to be reviewed first. -/
def reviewGrant (input : PolicyInput) : Option PermissionGrant :=
  (resolvedOwner input).bind fun ownerUserUra =>
    findReconfirmationRequired parseRfc3339 input.grants (grantMatchInput input ownerUserUra)

/-- The rungs below the deny grants. -/
def checkUndenied (input : PolicyInput) : PolicyDecision :=
  match standingAllow input with
  | some allowed => allowed
  | none =>
    match resolvedOwner input with
    | none => decision input .deny .ownerUnresolved none
    | some _ =>
      match ownerAllow input with
      | some allowed => allowed
      | none =>
        match allowGrant parseRfc3339 input with
        | some grant => explicitGrantDecision input grant.grantId
        | none =>
          match reviewGrant parseRfc3339 input with
          | some grant => decision input .deny .grantReconfirmationRequired (some grant.grantId)
          | none => fallback input

/-- `PolicyEngine::check`. -/
def check (input : PolicyInput) : PolicyDecision :=
  match denyGrant parseRfc3339 input with
  | some grant => decision input .deny .explicitDeny (some grant.grantId)
  | none => checkUndenied parseRfc3339 input

end Check

/-! ## How the decision depends on the grants -/

variable {grant : PermissionGrant} {effect : PermissionEffect}

section Dependence

variable {parseRfc3339 : String → Option Instant} {input : PolicyInput}
variable {grants' : List PermissionGrant}

/-- The decision reads the grants only through its three searches. -/
theorem check_congr_searches
    (hdeny : denyGrant parseRfc3339 { input with grants := grants' } =
      denyGrant parseRfc3339 input)
    (hallow : allowGrant parseRfc3339 { input with grants := grants' } =
      allowGrant parseRfc3339 input)
    (hreview : reviewGrant parseRfc3339 { input with grants := grants' } =
      reviewGrant parseRfc3339 input) :
    check parseRfc3339 { input with grants := grants' } = check parseRfc3339 input := by
  simp only [check, checkUndenied, hdeny, hallow, hreview]
  rfl

/-- A search through the candidates of the resolved owner gives the same grant when any search
among the sorted grants does. -/
theorem searches_congr (effect : PermissionEffect)
    (h : ∀ owner, resolvedOwner input = some owner → ∀ p : PermissionGrant → Bool,
      (matchingGrants parseRfc3339 grants' (grantMatchInput input owner) effect).find? p =
        (matchingGrants parseRfc3339 input.grants (grantMatchInput input owner) effect).find? p) :
    (effect = .deny → denyGrant parseRfc3339 { input with grants := grants' } =
      denyGrant parseRfc3339 input) ∧
    (effect = .allow → allowGrant parseRfc3339 { input with grants := grants' } =
      allowGrant parseRfc3339 input) ∧
    (effect = .allow → reviewGrant parseRfc3339 { input with grants := grants' } =
      reviewGrant parseRfc3339 input) := by
  refine ⟨?_, ?_, ?_⟩ <;>
  · rintro rfl
    rcases howner : resolvedOwner input with _ | owner
    · have howner' : resolvedOwner { input with grants := grants' } = none := howner
      simp [denyGrant, allowGrant, reviewGrant, howner, howner']
    · have howner' : resolvedOwner { input with grants := grants' } = some owner := howner
      simp only [denyGrant, allowGrant, reviewGrant, howner, howner', Option.bind_some]
      exact h owner howner _

/-- Grants with the same sorted candidates of both effects lead to the same decision. -/
theorem check_congr_matching
    (h : ∀ owner effect, resolvedOwner input = some owner → ∀ p : PermissionGrant → Bool,
      (matchingGrants parseRfc3339 grants' (grantMatchInput input owner) effect).find? p =
        (matchingGrants parseRfc3339 input.grants (grantMatchInput input owner) effect).find? p) :
    check parseRfc3339 { input with grants := grants' } = check parseRfc3339 input := by
  obtain ⟨hdeny, -, -⟩ := searches_congr .deny fun owner howner => h owner .deny howner
  obtain ⟨-, hallow, hreview⟩ := searches_congr .allow fun owner howner => h owner .allow howner
  exact check_congr_searches (hdeny rfl) (hallow rfl) (hreview rfl)

/-- Grants of the other effect do not change the candidates. -/
theorem matchingGrants_insert {before after : List PermissionGrant}
    (heffect : grant.effect ≠ effect) (request : GrantMatchInput) :
    matchingGrants parseRfc3339 (before ++ grant :: after) request effect =
      matchingGrants parseRfc3339 (before ++ after) request effect := by
  have hpass : passesFilters parseRfc3339 request effect grant = false := by
    simp [passesFilters, heffect]
  simp [matchingGrants, candidates, hpass]

/-- A search that succeeds keeps succeeding with more grants. -/
theorem find_isSome_insert {before after : List PermissionGrant} (grant : PermissionGrant)
    {request : GrantMatchInput} (h : (find parseRfc3339 (before ++ after) request effect).isSome) :
    (find parseRfc3339 (before ++ grant :: after) request effect).isSome := by
  rw [find_isSome_iff] at h ⊢
  obtain ⟨g, hg, hmatch⟩ := h
  refine ⟨g, ?_, hmatch⟩
  rcases List.mem_append.1 hg with hg | hg
  · exact List.mem_append_left _ hg
  · exact List.mem_append_right _ (List.mem_cons_of_mem _ hg)

end Dependence

/-! ## When the engine allows -/

section Allow

variable {parseRfc3339 : String → Option Instant} {input : PolicyInput}

theorem standingAllow_decision {allowed : PolicyDecision} (h : standingAllow input = some allowed) :
    allowed.decision = .allow := by
  simp only [standingAllow] at h
  split at h
  · cases h
    rfl
  · split at h
    · cases h
      rfl
    · split at h
      · cases h
        rfl
      · cases h

theorem ownerAllow_decision {allowed : PolicyDecision} (h : ownerAllow input = some allowed) :
    allowed.decision = .allow := by
  simp only [ownerAllow] at h
  split at h
  · cases h
    rfl
  · split at h
    · cases h
      rfl
    · cases h

theorem fallback_decision (input : PolicyInput) : (fallback input).decision ≠ .allow := by
  simp only [fallback]
  split
  · simp [decision]
  · split <;> simp [decision]

/-- Below the deny grants the engine allows by a standing rule, by a rule of the owner, or by an
allow grant. -/
theorem checkUndenied_allow_iff :
    (checkUndenied parseRfc3339 input).decision = .allow ↔
      (standingAllow input).isSome ∨
        ((resolvedOwner input).isSome ∧ (ownerAllow input).isSome) ∨
        (allowGrant parseRfc3339 input).isSome := by
  simp only [checkUndenied]
  cases hstanding : standingAllow input with
  | some allowed => simp [standingAllow_decision hstanding]
  | none =>
    cases howner : resolvedOwner input with
    | none => simp [decision, allowGrant, howner]
    | some owner =>
      cases hown : ownerAllow input with
      | some allowed => simp [ownerAllow_decision hown]
      | none =>
        cases hallow : allowGrant parseRfc3339 input with
        | some grant => simp [explicitGrantDecision, decision]
        | none =>
          cases hreview : reviewGrant parseRfc3339 input with
          | some grant => simp [decision]
          | none => simp [fallback_decision]

/-- The engine allows exactly when no deny grant matches and one of the allowing rules applies. -/
theorem check_allow_iff :
    (check parseRfc3339 input).decision = .allow ↔
      denyGrant parseRfc3339 input = none ∧
        ((standingAllow input).isSome ∨
          ((resolvedOwner input).isSome ∧ (ownerAllow input).isSome) ∨
          (allowGrant parseRfc3339 input).isSome) := by
  rw [← checkUndenied_allow_iff, check]
  cases hdeny : denyGrant parseRfc3339 input with
  | some grant => simp [decision]
  | none => simp

theorem isSome_bind_find {owner : Option String} {before after : List PermissionGrant}
    (grant : PermissionGrant)
    (h : (owner.bind fun o =>
      find parseRfc3339 (before ++ after) (grantMatchInput input o) effect).isSome) :
    (owner.bind fun o =>
      find parseRfc3339 (before ++ grant :: after) (grantMatchInput input o) effect).isSome := by
  cases owner with
  | none => simp at h
  | some o => exact find_isSome_insert grant h

end Allow

/-! ## Deny overrides and order independence -/

section Overrides

variable {parseRfc3339 : String → Option Instant} {input : PolicyInput}

theorem check_of_deny_match {owner : String} (howner : resolvedOwner input = some owner)
    (hmem : grant ∈ input.grants)
    (hmatch : grantMatches parseRfc3339 (grantMatchInput input owner) .deny grant = true) :
    (check parseRfc3339 input).decision = .deny ∧
      (check parseRfc3339 input).reason = .explicitDeny := by
  have hfilters := hmatch
  simp only [grantMatches, Bool.and_eq_true, passesFilters_iff] at hfilters
  have hadm : grant.admissibleFor parseRfc3339 input.action input.now = true := by
    rw [admissibleFor_of_deny parseRfc3339 hfilters.1.1]
    exact hfilters.1.2.1
  have hfound : (denyGrant parseRfc3339 input).isSome := by
    simp only [denyGrant, howner, Option.bind_some]
    exact (find_isSome_iff parseRfc3339 _ _ _).2 ⟨grant, hmem, hmatch, hadm⟩
  obtain ⟨found, hfound⟩ := Option.isSome_iff_exists.1 hfound
  simp [check, hfound, decision]

theorem check_perm {grants' : List PermissionGrant} (hperm : input.grants.Perm grants')
    (hids : (input.grants.map PermissionGrant.grantId).Nodup) :
    check parseRfc3339 { input with grants := grants' } = check parseRfc3339 input :=
  check_congr_matching fun _ _ _ p =>
    (matchingGrants_find?_perm parseRfc3339 _ _ hperm hids p).symm

/-- One more allow grant never takes an allow away. -/
theorem check_allow_insert_allow {before after : List PermissionGrant}
    (hgrants : input.grants = before ++ after) (heffect : grant.effect = .allow)
    (hallowed : (check parseRfc3339 input).decision = .allow) :
    (check parseRfc3339 { input with grants := before ++ grant :: after }).decision = .allow := by
  rw [check_allow_iff] at hallowed ⊢
  obtain ⟨hdeny, hrules⟩ := hallowed
  have hother : grant.effect ≠ .deny := by simp [heffect]
  refine ⟨?_, ?_⟩
  · rw [(searches_congr .deny fun owner _ p => ?_).1 rfl]
    · exact hdeny
    · rw [hgrants, matchingGrants_insert hother]
  · rcases hrules with hstanding | howned | hallow
    · exact Or.inl hstanding
    · exact Or.inr (Or.inl howned)
    · refine Or.inr (Or.inr ?_)
      simp only [allowGrant, hgrants] at hallow
      exact isSome_bind_find grant hallow

/-- One more deny grant never adds an allow. -/
theorem check_allow_of_insert_deny {before after : List PermissionGrant}
    (hgrants : input.grants = before ++ after) (heffect : grant.effect = .deny)
    (hallowed : (check parseRfc3339
      { input with grants := before ++ grant :: after }).decision = .allow) :
    (check parseRfc3339 input).decision = .allow := by
  rw [check_allow_iff] at hallowed ⊢
  obtain ⟨hdeny, hrules⟩ := hallowed
  have hother : grant.effect ≠ .allow := by simp [heffect]
  refine ⟨?_, ?_⟩
  · by_contra hsome
    have hfound := Option.isSome_iff_ne_none.2 hsome
    simp only [denyGrant, hgrants] at hfound
    have hmore : (denyGrant parseRfc3339
        { input with grants := before ++ grant :: after }).isSome := isSome_bind_find grant hfound
    rw [hdeny] at hmore
    cases hmore
  · rcases hrules with hstanding | howned | hallow
    · exact Or.inl hstanding
    · exact Or.inr (Or.inl howned)
    · refine Or.inr (Or.inr ?_)
      rwa [(searches_congr .allow fun owner _ p => ?_).2.1 rfl] at hallow
      rw [hgrants, matchingGrants_insert hother]

/-- The grant names the owner and the principal of the request. -/
def sameRequester (input : PolicyInput) (grant : PermissionGrant) : Bool :=
  input.owner.ownerUserUra = some grant.ownerUserUra &&
    grant.principalKind = input.principalKind && grant.principalId = input.principalId

theorem resolvedOwner_eq_some {owner : String} (h : resolvedOwner input = some owner) :
    input.owner.ownerUserUra = some owner :=
  (Option.filter_eq_some_iff.1 h).1

theorem check_congr_sameRequester {grants' : List PermissionGrant}
    (hsame : grants'.filter (sameRequester input) = input.grants.filter (sameRequester input)) :
    check parseRfc3339 { input with grants := grants' } = check parseRfc3339 input := by
  refine check_congr_matching fun owner effect howner p => ?_
  have hq : ∀ grant, passesFilters parseRfc3339 (grantMatchInput input owner) effect grant = true →
      sameRequester input grant = true := by
    intro grant hpass
    obtain ⟨-, -, hown, hkind, hid, -⟩ := (passesFilters_iff _ _ _ _).1 hpass
    simp only [grantMatchInput] at hown hkind hid
    simp [sameRequester, resolvedOwner_eq_some howner, hown, hkind, hid]
  simp only [matchingGrants]
  rw [← candidates_filter parseRfc3339 grants' _ _ _ hq,
    ← candidates_filter parseRfc3339 input.grants _ _ _ hq, hsame]

end Overrides

/-- Deny overrides, order independence and monotonicity of the engine, for every input: a matching
deny grant of a resolved owner denies; permuting grants with distinct ids changes nothing; one more
allow grant keeps an allow and one more deny grant adds none; and the grants of other owners and
principals can be replaced at will. -/
theorem check_deny_overrides (parseRfc3339 : String → Option Instant) (input : PolicyInput) :
    (∀ owner, resolvedOwner input = some owner → ∀ grant ∈ input.grants,
      grantMatches parseRfc3339 (grantMatchInput input owner) .deny grant = true →
        (check parseRfc3339 input).decision = .deny ∧
          (check parseRfc3339 input).reason = .explicitDeny) ∧
    (∀ grants', input.grants.Perm grants' →
      (input.grants.map PermissionGrant.grantId).Nodup →
        check parseRfc3339 { input with grants := grants' } = check parseRfc3339 input) ∧
    (∀ before grant after, input.grants = before ++ after →
      (grant.effect = .allow → (check parseRfc3339 input).decision = .allow →
        (check parseRfc3339
          { input with grants := before ++ grant :: after }).decision = .allow) ∧
      (grant.effect = .deny → (check parseRfc3339 input).decision ≠ .allow →
        (check parseRfc3339
          { input with grants := before ++ grant :: after }).decision ≠ .allow)) ∧
    (∀ grants', grants'.filter (sameRequester input) =
      input.grants.filter (sameRequester input) →
        check parseRfc3339 { input with grants := grants' } = check parseRfc3339 input) := by
  refine ⟨?_, ?_, ?_, ?_⟩
  · intro owner howner grant hmem hmatch
    exact check_of_deny_match howner hmem hmatch
  · intro grants' hperm hids
    exact check_perm hperm hids
  · intro before grant after hgrants
    refine ⟨?_, ?_⟩
    · intro heffect hallowed
      exact check_allow_insert_allow hgrants heffect hallowed
    · intro heffect hnot hallowed
      exact hnot (check_allow_of_insert_deny hgrants heffect hallowed)
  · intro grants' hsame
    exact check_congr_sameRequester hsame

/-- A permanent `invoke` grant of alice to a bot, for every subject and ability. -/
def botGrant (grantId : String) (effect : PermissionEffect) : PermissionGrant where
  grantId
  ownerUserUra := "easynet:///r/acme/user/alice"
  principalKind := .agent
  principalId := "easynet:///r/acme/agent/bot"
  tokenId := none
  tokenClass := none
  sessionId := none
  sessionExpiresAt := none
  calleeUra := none
  subjectUraPattern := none
  abilityUraPattern := none
  actions := [.invoke]
  constraints := none
  effect
  lifetime := .permanent
  state := .active
  expiresAt := none
  reviewRequiredAfter := none
  lastReviewedAt := none
  lastUsedAt := none
  createdBy := "easynet:///r/acme/user/alice"
  createdAt := "2026-01-01T00:00:00.000Z"
  updatedAt := none
  revokedAt := none
  reason := none

/-- The bot invokes an ability on a subject of alice. -/
def botInput (grants : List PermissionGrant) : PolicyInput where
  owner := ⟨some "easynet:///r/acme/user/alice", some "easynet:///r/acme/user/alice", .subject, []⟩
  callerUserUra := none
  callerUra := "easynet:///r/acme/agent/bot"
  principalKind := .agent
  principalId := "easynet:///r/acme/agent/bot"
  tokenId := none
  tokenClass := none
  deviceInvocationPurpose := none
  calleeUra := "easynet:///r/acme/device/d1"
  subjectUra := "easynet:///r/acme/user/alice/notes"
  abilityUra := "easynet:///r/acme/ability/notes.write"
  action := .invoke
  safeRead := false
  systemRuleMatches := []
  invocationLifecycleControl := false
  interactiveContextAvailable := false
  canonicalHash := none
  signatureKeyId := none
  verifiedAuthorityId := none
  verifiedSessionId := none
  rejectorUra := none
  now := 0
  grants

theorem check_deny_overrides_bot :
    (check (fun _ => none) (botInput [botGrant "a" .allow, botGrant "d" .deny])).reason =
        .explicitDeny ∧
      check (fun _ => none) (botInput [botGrant "d" .deny, botGrant "a" .allow]) =
        check (fun _ => none) (botInput [botGrant "a" .allow, botGrant "d" .deny]) ∧
      (check (fun _ => none) (botInput [botGrant "a" .allow, botGrant "b" .allow])).decision =
        .allow ∧
      (check (fun _ => none) (botInput [botGrant "d" .deny])).decision ≠ .allow ∧
      check (fun _ => none)
          (botInput [{ botGrant "x" .deny with ownerUserUra := "easynet:///r/acme/user/carol" }]) =
        check (fun _ => none) (botInput []) := by
  have hboth := check_deny_overrides (fun _ => none)
    (botInput [botGrant "a" .allow, botGrant "d" .deny])
  have hallow := check_deny_overrides (fun _ => none) (botInput [botGrant "a" .allow])
  have hnone := check_deny_overrides (fun _ => none) (botInput [])
  refine ⟨?_, ?_, ?_, ?_, ?_⟩
  · exact (hboth.1 "easynet:///r/acme/user/alice" (by decide) (botGrant "d" .deny) (by decide)
      (by decide)).2
  · exact hboth.2.1 [botGrant "d" .deny, botGrant "a" .allow] (by decide) (by decide)
  · exact (hallow.2.2.1 [botGrant "a" .allow] (botGrant "b" .allow) [] rfl).1 rfl (by decide)
  · exact (hnone.2.2.1 [] (botGrant "d" .deny) [] rfl).2 rfl (by decide)
  · exact hnone.2.2.2 [{ botGrant "x" .deny with ownerUserUra := "easynet:///r/acme/user/carol" }]
      (by decide)

end PolicyEngine

end EasyNetDaemon.Admission
