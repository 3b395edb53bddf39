import EasyNetDaemon.Admission.Decision
import EasyNetDaemon.Library.RankedSearch
import EasyNetDaemon.Library.RustText
import Mathlib.Data.String.Basic

/-!
# The grant matcher

The model of `grant_matcher.rs`: permission grants with their activity predicates, the selectors of
their subject and ability patterns, and the matcher that filters a list of grants, sorts what is
left by specificity and then by grant id, and takes the first admissible one.

`parseRfc3339` stands for `DateTime::parse_from_rfc3339`; an instant is its number of nanoseconds.
The stable sort of `matchingGrants` is Mathlib's insertion sort, which computes the same list as
the standard library's and reduces in the kernel. `find_eq_firstRanked` removes the sort: the
matcher returns the best ranked candidate of the list.
-/

namespace EasyNetDaemon.Admission

open Library

/-- An instant, in nanoseconds. -/
abbrev Instant := Int

/-- `Duration::days`. -/
def days (n : Int) : Int := n * 86400000000000

/-- How far a caller is away. -/
inductive NetworkScope
  | local
  | paired
  | federated
  deriving DecidableEq, Repr

/-- The constraints of a grant. The JSON value of `argsSchemaFilter` is its canonical text. -/
structure PermissionConstraints where
  argsSchemaFilter : Option String
  resourceTypes : List String
  networkScope : Option NetworkScope
  maxDurationMs : Option Nat
  maxInvocations : Option Nat
  requiresUserPresent : Option Bool
  deriving DecidableEq, Repr

/-- What a grant does. -/
inductive PermissionEffect
  | allow
  | deny
  deriving DecidableEq, Repr

/-- How long a grant lasts. -/
inductive PermissionGrantLifetime
  | once
  | session
  | ttl
  | permanent
  deriving DecidableEq, Repr

/-- Where a grant stands. -/
inductive PermissionGrantState
  | active
  | expired
  | revoked
  deriving DecidableEq, Repr

/-- A permission grant of an owner to a principal. -/
structure PermissionGrant where
  grantId : String
  ownerUserUra : String
  principalKind : PrincipalKind
  principalId : String
  tokenId : Option String
  tokenClass : Option TokenClass
  sessionId : Option String
  sessionExpiresAt : Option String
  calleeUra : Option String
  subjectUraPattern : Option String
  abilityUraPattern : Option String
  actions : List AccessAction
  constraints : Option PermissionConstraints
  effect : PermissionEffect
  lifetime : PermissionGrantLifetime
  state : PermissionGrantState
  expiresAt : Option String
  reviewRequiredAfter : Option String
  lastReviewedAt : Option String
  lastUsedAt : Option String
  createdBy : String
  createdAt : String
  updatedAt : Option String
  revokedAt : Option String
  reason : Option String
  deriving DecidableEq, Repr

/-- The request a grant is matched against. -/
structure GrantMatchInput where
  ownerUserUra : String
  principalKind : PrincipalKind
  principalId : String
  tokenId : Option String
  tokenClass : Option TokenClass
  sessionId : Option String
  calleeUra : String
  subjectUra : String
  abilityUra : String
  action : AccessAction
  now : Instant
  deriving DecidableEq, Repr

/-! ## Activity of a grant -/

/-- The review interval of a list of actions: 30 days with `manage` or `grant`, else 90 days with
`stream`. -/
def reviewIntervalForActions (actions : List AccessAction) : Option Int :=
  if actions.any fun action => action = .manage || action = .grant then some (days 30)
  else if actions.contains .stream then some (days 90)
  else none

namespace PermissionGrant

/-- A permanent grant of `stream`, `manage` or `grant` is reviewed periodically. -/
def requiresPeriodicReconfirmationFor (g : PermissionGrant) (action : AccessAction) : Bool :=
  g.lifetime = .permanent && (action = .stream || action = .manage || action = .grant)

section Activity

variable (parseRfc3339 : String → Option Instant)

/-- The session of the grant has not ended. -/
def sessionActiveAt (g : PermissionGrant) (now : Instant) : Bool :=
  match g.sessionExpiresAt.bind parseRfc3339 with
  | some expiry => expiry > now
  | none => false

/-- The grant is in force at `now`: active, not a used `once` grant, not past its session, and not
past its expiry. -/
def activeAt (g : PermissionGrant) (now : Instant) : Bool :=
  if g.state ≠ .active then false
  else if g.lifetime = .once ∧ g.lastUsedAt.isSome then false
  else if g.lifetime = .session ∧ !g.sessionActiveAt parseRfc3339 now then false
  else
    match g.expiresAt with
    | some raw =>
      match parseRfc3339 raw with
      | some expiry => expiry > now
      | none => false
    | none => true

/-- A session grant needs its session. -/
def sessionMatches (g : PermissionGrant) (sessionId : Option String) (now : Instant) : Bool :=
  if g.lifetime ≠ .session then true
  else g.activeAt parseRfc3339 now && g.sessionId = sessionId

/-- The review deadline that follows from the last review, or from the creation of the grant. -/
def defaultReconfirmationDeadline (g : PermissionGrant) : Option Instant :=
  if g.effect ≠ .allow ∨ g.lifetime ≠ .permanent then none
  else
    (reviewIntervalForActions g.actions).bind fun interval =>
      let anchor :=
        match g.lastReviewedAt with
        | some raw => if RustText.isBlank raw then g.createdAt else raw
        | none => g.createdAt
      (parseRfc3339 anchor).map fun timestamp => timestamp + interval

/-- When a grant must be confirmed again. -/
def reconfirmationDeadlineFor (g : PermissionGrant) (action : AccessAction) : Option Instant :=
  if !g.requiresPeriodicReconfirmationFor action then none
  else
    match g.reviewRequiredAfter with
    | some raw =>
      if RustText.isBlank raw then g.defaultReconfirmationDeadline parseRfc3339
      else parseRfc3339 raw
    | none => g.defaultReconfirmationDeadline parseRfc3339

/-- The grant is in force but its review is overdue; an unreadable deadline counts as overdue. -/
def reconfirmationRequiredFor (g : PermissionGrant) (action : AccessAction) (now : Instant) :
    Bool :=
  if !g.activeAt parseRfc3339 now || g.effect ≠ .allow || !g.actions.contains action ||
      !g.requiresPeriodicReconfirmationFor action then false
  else
    match g.reconfirmationDeadlineFor parseRfc3339 action with
    | some deadline => deadline ≤ now
    | none => true

/-- Active, and not due for review. -/
def admissibleFor (g : PermissionGrant) (action : AccessAction) (now : Instant) : Bool :=
  g.activeAt parseRfc3339 now && !g.reconfirmationRequiredFor parseRfc3339 action now

end Activity

end PermissionGrant

/-! ## Selectors -/

/-- The reading of a subject or ability pattern. -/
inductive GrantSelector
  | exact (expected : String)
  | segmentPrefix (pre : String)
  | classScope
  deriving DecidableEq, Repr

/-- How a selector names what it covers. -/
inductive GrantSelectorMatch
  | exact
  | segmentPrefix
  | classScope
  deriving DecidableEq, Repr

namespace GrantSelector

/-- The prefix of a pattern that ends in `/*` or `.*`, if it does. -/
def wildcardPrefix (raw : String) : Option (List Char) :=
  (RustText.stripSuffix raw.toList ['/', '*']).orElse fun _ =>
    RustText.stripSuffix raw.toList ['.', '*']

/-- `GrantSelector::parse`. -/
def parse : Option String → Option GrantSelector
  | none => some .classScope
  | some raw =>
    if raw = "" then some .classScope
    else if RustText.trim raw ≠ raw then none
    else
      match wildcardPrefix raw with
      | some pre => if pre.isEmpty then none else some (.segmentPrefix (String.ofList pre))
      | none => if raw.toList.getLast? = some '*' then none else some (.exact raw)

/-- `GrantSelector::matches`. A prefix selector looks only at what follows the byte length of its
prefix: the bytes before that are not compared. -/
def matchesValue : GrantSelector → String → Option GrantSelectorMatch
  | .exact expected, value => if expected = value then some .exact else none
  | .segmentPrefix pre, value =>
    match RustText.getFrom value.toList (RustText.byteLen pre.toList) with
    | none => none
    | some suffix =>
      match (RustText.stripPrefixChar '/' suffix).orElse
          fun _ => RustText.stripPrefixChar '.' suffix with
      | none => none
      | some rest => if rest.isEmpty then none else some .segmentPrefix
  | .classScope, _ => some .classScope

end GrantSelector

/-! ## The matcher -/

/-- How closely a grant fits a request, least specific first. -/
inductive GrantSpecificity
  | classLevel
  | subjectPrefixAbilityPrefix
  | subjectPrefixExactAbility
  | exactSubjectAbilityPrefix
  | exactSubjectExactAbility
  deriving DecidableEq, Repr

/-- The discriminant of the source's enumeration, which orders it. -/
def GrantSpecificity.score : GrantSpecificity → Nat
  | .classLevel => 1
  | .subjectPrefixAbilityPrefix => 2
  | .subjectPrefixExactAbility => 3
  | .exactSubjectAbilityPrefix => 4
  | .exactSubjectExactAbility => 5

/-- A grant with a token needs this token. -/
def tokenMatches (grantToken inputToken : Option String) : Bool :=
  match grantToken with
  | some expected => inputToken = some expected
  | none => true

/-- A grant with a token class needs it. -/
def tokenClassMatches (grantClass inputClass : Option TokenClass) : Bool :=
  match grantClass with
  | some expected => inputClass = some expected
  | none => true

/-- A grant with a callee needs it. -/
def calleeMatches (grantCallee : Option String) (callee : String) : Bool :=
  match grantCallee with
  | some expected => expected = callee
  | none => true

/-- The specificity of a pair of selector matches. -/
def combineMatches : GrantSelectorMatch → GrantSelectorMatch → GrantSpecificity
  | .exact, .exact => .exactSubjectExactAbility
  | .exact, .segmentPrefix => .exactSubjectAbilityPrefix
  | .segmentPrefix, .exact => .subjectPrefixExactAbility
  | .segmentPrefix, .segmentPrefix => .subjectPrefixAbilityPrefix
  | .classScope, _ => .classLevel
  | _, .classScope => .classLevel

/-- The specificity of a grant for a request, when both patterns match. -/
def specificity (grant : PermissionGrant) (input : GrantMatchInput) : Option GrantSpecificity := do
  let subject ← (← GrantSelector.parse grant.subjectUraPattern).matchesValue input.subjectUra
  let ability ← (← GrantSelector.parse grant.abilityUraPattern).matchesValue input.abilityUra
  return combineMatches subject ability

/-- The order of the candidates: higher specificity first, then the smaller grant id. -/
def ranksBefore (left right : GrantSpecificity × PermissionGrant) : Prop :=
  right.1.score < left.1.score ∨
    (right.1.score = left.1.score ∧ left.2.grantId ≤ right.2.grantId)

instance : DecidableRel ranksBefore := fun left right =>
  inferInstanceAs (Decidable (right.1.score < left.1.score ∨
    (right.1.score = left.1.score ∧ left.2.grantId ≤ right.2.grantId)))

section Matcher

variable (parseRfc3339 : String → Option Instant)

/-- The filters of `matching_grants` other than the patterns. -/
def passesFilters (input : GrantMatchInput) (effect : PermissionEffect) (grant : PermissionGrant) :
    Bool :=
  grant.effect = effect && grant.activeAt parseRfc3339 input.now &&
    grant.ownerUserUra = input.ownerUserUra && grant.principalKind = input.principalKind &&
    grant.principalId = input.principalId && tokenMatches grant.tokenId input.tokenId &&
    tokenClassMatches grant.tokenClass input.tokenClass &&
    grant.sessionMatches parseRfc3339 input.sessionId input.now &&
    grant.actions.contains input.action && calleeMatches grant.calleeUra input.calleeUra

/-- The candidates of a request with their specificity, in the order of the grants. -/
def candidates (grants : List PermissionGrant) (input : GrantMatchInput)
    (effect : PermissionEffect) : List (GrantSpecificity × PermissionGrant) :=
  (grants.filter (passesFilters parseRfc3339 input effect)).filterMap fun grant =>
    (specificity grant input).map fun s => (s, grant)

/-- `matching_grants`: the candidates, best first. -/
def matchingGrants (grants : List PermissionGrant) (input : GrantMatchInput)
    (effect : PermissionEffect) : List PermissionGrant :=
  ((candidates parseRfc3339 grants input effect).insertionSort ranksBefore).map Prod.snd

/-- The first matching grant that is admissible. -/
def findActive (grants : List PermissionGrant) (input : GrantMatchInput)
    (effect : PermissionEffect) : Option PermissionGrant :=
  (matchingGrants parseRfc3339 grants input effect).find? fun grant =>
    grant.admissibleFor parseRfc3339 input.action input.now

/-- The matcher's answer for an effect. -/
def find (grants : List PermissionGrant) (input : GrantMatchInput) (effect : PermissionEffect) :
    Option PermissionGrant :=
  findActive parseRfc3339 grants input effect

/-- The first matching grant that is due for review. -/
def findReconfirmationRequired (grants : List PermissionGrant) (input : GrantMatchInput) :
    Option PermissionGrant :=
  (matchingGrants parseRfc3339 grants input .allow).find? fun grant =>
    grant.reconfirmationRequiredFor parseRfc3339 input.action input.now

end Matcher

/-! ## The matcher without its sort -/

instance : IsTrans (GrantSpecificity × PermissionGrant) ranksBefore where
  trans a b c hab hbc := by
    simp only [ranksBefore] at hab hbc ⊢
    rcases hab with hab | ⟨hab, hids⟩
    · rcases hbc with hbc | ⟨hbc, -⟩
      · exact Or.inl (hbc.trans hab)
      · exact Or.inl (hbc ▸ hab)
    · rcases hbc with hbc | ⟨hbc, hids'⟩
      · exact Or.inl (hab ▸ hbc)
      · exact Or.inr ⟨hbc.trans hab, hids.trans hids'⟩

instance : Std.Total ranksBefore where
  total a b := by
    simp only [ranksBefore]
    rcases Nat.lt_trichotomy a.1.score b.1.score with h | h | h
    · exact Or.inr (Or.inl h)
    · rcases le_total a.2.grantId b.2.grantId with hid | hid
      · exact Or.inl (Or.inr ⟨h.symm, hid⟩)
      · exact Or.inr (Or.inr ⟨h, hid⟩)
    · exact Or.inl (Or.inl h)

section Ranked

variable (parseRfc3339 : String → Option Instant)
variable (grants : List PermissionGrant) (input : GrantMatchInput) (effect : PermissionEffect)

/-- A search among the sorted candidates returns the best ranked candidate with the property. -/
theorem matchingGrants_find? (p : PermissionGrant → Bool) :
    (matchingGrants parseRfc3339 grants input effect).find? p =
      (firstRanked ranksBefore (fun c => p c.2)
        (candidates parseRfc3339 grants input effect)).map Prod.snd := by
  rw [matchingGrants, List.find?_map, ← find?_insertionSort]
  rfl

theorem find_eq_firstRanked :
    find parseRfc3339 grants input effect =
      (firstRanked ranksBefore (fun c => c.2.admissibleFor parseRfc3339 input.action input.now)
        (candidates parseRfc3339 grants input effect)).map Prod.snd :=
  matchingGrants_find? parseRfc3339 grants input effect _

theorem mem_candidates (c : GrantSpecificity × PermissionGrant) :
    c ∈ candidates parseRfc3339 grants input effect ↔
      c.2 ∈ grants ∧ passesFilters parseRfc3339 input effect c.2 = true ∧
        specificity c.2 input = some c.1 := by
  obtain ⟨s, g⟩ := c
  simp only [candidates, List.mem_filterMap, List.mem_filter, Option.map_eq_some_iff,
    Prod.mk.injEq]
  constructor
  · rintro ⟨g', ⟨hmem, hpass⟩, s', hs, rfl, rfl⟩
    exact ⟨hmem, hpass, hs⟩
  · rintro ⟨hmem, hpass, hs⟩
    exact ⟨g, ⟨hmem, hpass⟩, s, hs, rfl, rfl⟩

/-- A match is a grant of the list that passes the filters. -/
theorem mem_of_find_eq_some {found : PermissionGrant}
    (h : find parseRfc3339 grants input effect = some found) :
    found ∈ grants ∧ passesFilters parseRfc3339 input effect found = true := by
  obtain ⟨c, hc, rfl⟩ := List.mem_map.1 (List.mem_of_find?_eq_some h)
  have hmem := (mem_candidates parseRfc3339 grants input effect c).1
    ((List.perm_insertionSort ranksBefore _).mem_iff.1 hc)
  exact ⟨hmem.1, hmem.2.1⟩

theorem passesFilters_iff (grant : PermissionGrant) :
    passesFilters parseRfc3339 input effect grant = true ↔
      grant.effect = effect ∧ grant.activeAt parseRfc3339 input.now = true ∧
        grant.ownerUserUra = input.ownerUserUra ∧ grant.principalKind = input.principalKind ∧
        grant.principalId = input.principalId ∧ tokenMatches grant.tokenId input.tokenId = true ∧
        tokenClassMatches grant.tokenClass input.tokenClass = true ∧
        grant.sessionMatches parseRfc3339 input.sessionId input.now = true ∧
        input.action ∈ grant.actions ∧ calleeMatches grant.calleeUra input.calleeUra = true := by
  simp only [passesFilters, Bool.and_eq_true, decide_eq_true_eq, List.contains_iff_mem, and_assoc]

/-- A grant that passes the filters and whose patterns match. -/
def grantMatches (grant : PermissionGrant) : Bool :=
  passesFilters parseRfc3339 input effect grant && (specificity grant input).isSome

theorem find_isSome_iff :
    (find parseRfc3339 grants input effect).isSome ↔
      ∃ grant ∈ grants, grantMatches parseRfc3339 input effect grant = true ∧
        grant.admissibleFor parseRfc3339 input.action input.now = true := by
  rw [find_eq_firstRanked, Option.isSome_map, firstRanked_isSome_iff]
  constructor
  · rintro ⟨c, hc, hadm⟩
    obtain ⟨hmem, hpass, hs⟩ := (mem_candidates parseRfc3339 grants input effect c).1 hc
    exact ⟨c.2, hmem, by simp [grantMatches, hpass, hs], hadm⟩
  · rintro ⟨grant, hmem, hmatch, hadm⟩
    simp only [grantMatches, Bool.and_eq_true] at hmatch
    obtain ⟨s, hs⟩ := Option.isSome_iff_exists.1 hmatch.2
    exact ⟨(s, grant), (mem_candidates parseRfc3339 grants input effect (s, grant)).2
      ⟨hmem, hmatch.1, hs⟩, hadm⟩

/-- The candidates come from the grants that satisfy any condition the filters imply. -/
theorem candidates_filter (q : PermissionGrant → Bool)
    (hq : ∀ grant, passesFilters parseRfc3339 input effect grant = true → q grant = true) :
    candidates parseRfc3339 (grants.filter q) input effect =
      candidates parseRfc3339 grants input effect := by
  simp only [candidates, List.filter_filter]
  congr 1
  refine List.filter_congr fun grant _ => ?_
  cases hpass : passesFilters parseRfc3339 input effect grant with
  | false => rfl
  | true => simp [hq grant hpass]

theorem candidates_perm {grants grants' : List PermissionGrant} (h : grants.Perm grants') :
    (candidates parseRfc3339 grants input effect).Perm
      (candidates parseRfc3339 grants' input effect) :=
  (h.filter _).filterMap _

/-- With distinct grant ids the rank separates the candidates. -/
theorem candidates_separated (hids : (grants.map PermissionGrant.grantId).Nodup) :
    ∀ a ∈ candidates parseRfc3339 grants input effect,
      ∀ b ∈ candidates parseRfc3339 grants input effect,
        ranksBefore a b → ranksBefore b a → a = b := by
  intro a ha b hb hab hba
  obtain ⟨hamem, -, haspec⟩ := (mem_candidates parseRfc3339 grants input effect a).1 ha
  obtain ⟨hbmem, -, hbspec⟩ := (mem_candidates parseRfc3339 grants input effect b).1 hb
  simp only [ranksBefore] at hab hba
  have hid : a.2.grantId = b.2.grantId := by
    rcases hab with hab | ⟨hab, hle⟩
    · rcases hba with hba | ⟨hba, -⟩ <;> omega
    · rcases hba with hba | ⟨-, hge⟩
      · omega
      · exact le_antisymm hle hge
  have hgrant : a.2 = b.2 := List.inj_on_of_nodup_map hids hamem hbmem hid
  have hspec : a.1 = b.1 := by
    rw [hgrant, hbspec] at haspec
    exact (Option.some.inj haspec).symm
  exact Prod.ext hspec hgrant

/-- A search among the candidates does not depend on the order of grants with distinct ids. -/
theorem matchingGrants_find?_perm {grants grants' : List PermissionGrant}
    (h : grants.Perm grants') (hids : (grants.map PermissionGrant.grantId).Nodup)
    (p : PermissionGrant → Bool) :
    (matchingGrants parseRfc3339 grants input effect).find? p =
      (matchingGrants parseRfc3339 grants' input effect).find? p := by
  rw [matchingGrants_find?, matchingGrants_find?,
    firstRanked_perm ranksBefore _ (candidates_perm parseRfc3339 input effect h)
      (candidates_separated parseRfc3339 grants input effect hids)]

end Ranked

/-! ## Deny grants -/

/-- A deny grant is never up for review, so every active one is admissible. -/
theorem admissibleFor_of_deny (parseRfc3339 : String → Option Instant) {grant : PermissionGrant}
    (hdeny : grant.effect = .deny) (action : AccessAction) (now : Instant) :
    grant.admissibleFor parseRfc3339 action now = grant.activeAt parseRfc3339 now := by
  have hreview : grant.reconfirmationRequiredFor parseRfc3339 action now = false := by
    simp [PermissionGrant.reconfirmationRequiredFor, hdeny]
  simp [PermissionGrant.admissibleFor, hreview]

end EasyNetDaemon.Admission
