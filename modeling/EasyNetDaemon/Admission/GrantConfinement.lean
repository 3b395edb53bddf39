import EasyNetDaemon.Admission.GrantMatcher

/-!
# Confinement of the grant matcher

What a returned grant says about the request it was returned for. `Covers` is the meaning of a
subject or ability pattern: an exact pattern covers itself, and `P/*` or `P.*` covers the strings
below `P`. `Confined` collects everything a grant fixes and the request must agree with.

The prefix selector of the matcher skips as many bytes as its prefix has and never compares them,
so a string of another subtree passes when its separator is at the same offset.
`find_confined_iff` says exactly when that reaches the result: the returned grant is confined
unless a grant that only passes in this way is ranked first among the eligible ones.
-/

namespace EasyNetDaemon.Admission

open Library

/-! ## What a pattern covers -/

/-- A path separator of a pattern or of a value. -/
def IsSeparator (c : Char) : Prop := c = '/' ∨ c = '.'

/-- The values a pattern covers: any value when the pattern is absent or empty, the pattern itself
when it does not end in `*`, and for `P/*` or `P.*` with non-empty `P` the strings that start with
`P`, a separator and at least one more character. -/
inductive Covers : Option String → String → Prop
  | absent (value : String) : Covers none value
  | empty (value : String) : Covers (some "") value
  | itself (value : String) (hlast : value.toList.getLast? ≠ some '*') :
      Covers (some value) value
  | subtree (pattern value : String) (pre rest : List Char) (sep sep' : Char)
      (hpre : pre ≠ []) (hsep : IsSeparator sep) (hsep' : IsSeparator sep') (hrest : rest ≠ [])
      (hpattern : pattern.toList = pre ++ [sep, '*'])
      (hvalue : value.toList = pre ++ sep' :: rest) : Covers (some pattern) value

/-- The pattern is a prefix pattern whose prefix the value does not start with. -/
def startsOutside (pattern : Option String) (value : String) : Bool :=
  match GrantSelector.parse pattern with
  | some (.segmentPrefix pre) => !pre.toList.isPrefixOf value.toList
  | _ => false

/-- One of the patterns of the grant is a prefix pattern whose prefix the request's value does not
start with. -/
def reachesOutside (grant : PermissionGrant) (input : GrantMatchInput) : Bool :=
  startsOutside grant.subjectUraPattern input.subjectUra ||
    startsOutside grant.abilityUraPattern input.abilityUra

variable {pattern : Option String}

/-- A prefix selector comes from a pattern with that prefix, a separator and a star. -/
theorem parse_eq_segmentPrefix {pre : String}
    (h : GrantSelector.parse pattern = some (.segmentPrefix pre)) :
    ∃ raw sep, pattern = some raw ∧ pre.toList ≠ [] ∧ IsSeparator sep ∧
      raw.toList = pre.toList ++ [sep, '*'] := by
  cases pattern with
  | none => simp [GrantSelector.parse] at h
  | some raw =>
    simp only [GrantSelector.parse] at h
    split at h
    · simp at h
    split at h
    · simp at h
    split at h
    · rename_i cs hcs
      split at h
      · simp at h
      · rename_i hne
        simp only [Option.some.injEq, GrantSelector.segmentPrefix.injEq] at h
        subst h
        have hpre : cs ≠ [] := by simpa using hne
        simp only [GrantSelector.wildcardPrefix] at hcs
        rcases hslash : RustText.stripSuffix raw.toList ['/', '*'] with _ | slash
        · rw [hslash] at hcs
          have hdot : RustText.stripSuffix raw.toList ['.', '*'] = some cs := by simpa using hcs
          exact ⟨raw, '.', rfl, by simpa using hpre, Or.inr rfl, by
            simpa using (RustText.stripSuffix_eq_some_iff _ _ _).1 hdot⟩
        · rw [hslash] at hcs
          have hcs' : slash = cs := by simpa using hcs
          subst hcs'
          exact ⟨raw, '/', rfl, by simpa using hpre, Or.inl rfl, by
            simpa using (RustText.stripSuffix_eq_some_iff _ _ _).1 hslash⟩
    · split at h <;> simp at h

/-- An exact selector comes from the pattern itself, which does not end in a star. -/
theorem parse_eq_exact {expected : String}
    (h : GrantSelector.parse pattern = some (.exact expected)) :
    pattern = some expected ∧ expected.toList.getLast? ≠ some '*' := by
  cases pattern with
  | none => simp [GrantSelector.parse] at h
  | some raw =>
    simp only [GrantSelector.parse] at h
    split at h
    · simp at h
    split at h
    · simp at h
    split at h
    · split at h <;> simp at h
    · split at h
      · simp at h
      · rename_i hlast
        simp only [Option.some.injEq, GrantSelector.exact.injEq] at h
        subst h
        exact ⟨rfl, hlast⟩

theorem parse_eq_classScope (h : GrantSelector.parse pattern = some .classScope) :
    pattern = none ∨ pattern = some "" := by
  cases pattern with
  | none => exact Or.inl rfl
  | some raw =>
    simp only [GrantSelector.parse] at h
    split at h
    · rename_i hempty
      exact Or.inr (congrArg some hempty)
    split at h
    · simp at h
    split at h
    · split at h <;> simp at h
    · split at h <;> simp at h

/-- A prefix selector accepts a value when the bytes after the prefix length are a separator and
something more. -/
theorem matchesValue_segmentPrefix {pre value : String} {m : GrantSelectorMatch}
    (h : (GrantSelector.segmentPrefix pre).matchesValue value = some m) :
    ∃ front sep rest, value.toList = front ++ sep :: rest ∧ IsSeparator sep ∧ rest ≠ [] ∧
      RustText.byteLen front = RustText.byteLen pre.toList := by
  simp only [GrantSelector.matchesValue] at h
  split at h
  · simp at h
  rename_i suffix hsuffix
  obtain ⟨front, hvalue, hlen⟩ := RustText.getFrom_eq_some hsuffix
  split at h
  · simp at h
  rename_i rest hrest
  split at h
  · simp at h
  rename_i hne
  have hsep : ∃ sep, IsSeparator sep ∧ suffix = sep :: rest := by
    rcases hslash : RustText.stripPrefixChar '/' suffix with _ | tail
    · rw [hslash] at hrest
      exact ⟨'.', Or.inr rfl, (RustText.stripPrefixChar_eq_some_iff _ _ _).1 (by simpa using hrest)⟩
    · rw [hslash] at hrest
      have htail : tail = rest := by simpa using hrest
      subst htail
      exact ⟨'/', Or.inl rfl, (RustText.stripPrefixChar_eq_some_iff _ _ _).1 hslash⟩
  obtain ⟨sep, hs, rfl⟩ := hsep
  exact ⟨front, sep, rest, hvalue, hs, by simpa using hne, hlen⟩

/-- Two splits of a string at the same byte offset have the same front when one front is a prefix
of the string. -/
theorem front_eq_of_byteLen {front pre tail : List Char} {cs : List Char}
    (hsplit : cs = front ++ tail) (hpre : pre <+: cs)
    (hlen : RustText.byteLen front = RustText.byteLen pre) : front = pre := by
  obtain ⟨tail', htail⟩ := hpre
  have hfront := RustText.getFrom_byteLen front tail
  have hpre' := RustText.getFrom_byteLen pre tail'
  rw [← hsplit, hlen] at hfront
  rw [htail, hfront] at hpre'
  have htails : tail = tail' := Option.some.inj hpre'
  subst htails
  exact List.append_cancel_right (hsplit.symm.trans htail.symm)

/-- A pattern that matched covers the value unless it is a prefix pattern of another subtree. -/
theorem covers_iff_of_matches {value : String} {sel : GrantSelector} {m : GrantSelectorMatch}
    (hparse : GrantSelector.parse pattern = some sel) (hmatch : sel.matchesValue value = some m) :
    Covers pattern value ↔ startsOutside pattern value = false := by
  cases sel with
  | classScope =>
    simp only [startsOutside, hparse, iff_true]
    rcases parse_eq_classScope hparse with rfl | rfl
    · exact .absent value
    · exact .empty value
  | exact expected =>
    simp only [startsOutside, hparse, iff_true]
    obtain ⟨rfl, hlast⟩ := parse_eq_exact hparse
    have hvalue : expected = value := by
      by_contra hne
      simp [GrantSelector.matchesValue, hne] at hmatch
    subst hvalue
    exact .itself expected hlast
  | segmentPrefix pre =>
    obtain ⟨raw, sep, rfl, hpre, hsep, hraw⟩ := parse_eq_segmentPrefix hparse
    simp only [startsOutside, hparse, Bool.not_eq_false', List.isPrefixOf_iff_prefix]
    constructor
    · intro hcov
      -- the other constructors do not fit a pattern that ends in a separator and a star
      cases hcov with
      | empty => simp at hraw
      | itself _ hlast => simp [hraw] at hlast
      | subtree _ _ pre' rest sepP sepV hpre' hsepP hsepV hrest hpattern hvalue =>
        have hsame : pre' = pre.toList := by
          rw [hraw] at hpattern
          exact (List.append_inj' hpattern rfl).1.symm
        exact ⟨sepV :: rest, by rw [hvalue, hsame]⟩
    · intro hstart
      obtain ⟨front, sep', rest, hvalue, hsep', hrest, hlen⟩ := matchesValue_segmentPrefix hmatch
      have hfront := front_eq_of_byteLen hvalue hstart hlen
      subst hfront
      exact .subtree raw value _ rest sep sep' hpre hsep hsep' hrest hraw hvalue

/-- The patterns of a grant with a specificity cover the request unless the grant reaches
outside. -/
theorem covers_iff_of_specificity {grant : PermissionGrant} {input : GrantMatchInput}
    {s : GrantSpecificity} (h : specificity grant input = some s) :
    (Covers grant.subjectUraPattern input.subjectUra ∧
      Covers grant.abilityUraPattern input.abilityUra) ↔ reachesOutside grant input = false := by
  simp only [specificity, bind, Option.bind_eq_some_iff] at h
  obtain ⟨subjectSel, hsubjectParse, subject, hsubject, abilitySel, habilityParse, ability,
    hability, -⟩ := h
  rw [covers_iff_of_matches hsubjectParse hsubject, covers_iff_of_matches habilityParse hability,
    reachesOutside, Bool.or_eq_false_iff]

/-! ## Confinement -/

section Confinement

variable (parseRfc3339 : String → Option Instant)

/-- The grant is in force for the request, fixes nothing the request disagrees with, and its
patterns cover the request. -/
structure Confined (grant : PermissionGrant) (input : GrantMatchInput)
    (effect : PermissionEffect) : Prop where
  effect_eq : grant.effect = effect
  active : grant.activeAt parseRfc3339 input.now = true
  owner : grant.ownerUserUra = input.ownerUserUra
  kind : grant.principalKind = input.principalKind
  principal : grant.principalId = input.principalId
  action : input.action ∈ grant.actions
  token : ∀ tokenId, grant.tokenId = some tokenId → input.tokenId = some tokenId
  tokenClass : ∀ cls, grant.tokenClass = some cls → input.tokenClass = some cls
  callee : ∀ callee, grant.calleeUra = some callee → input.calleeUra = callee
  session : grant.lifetime = .session → grant.sessionId = input.sessionId
  subject : Covers grant.subjectUraPattern input.subjectUra
  ability : Covers grant.abilityUraPattern input.abilityUra

/-- The grant passes every filter of the matcher and is admissible, with specificity `s`. -/
structure Eligible (input : GrantMatchInput) (effect : PermissionEffect) (s : GrantSpecificity)
    (grant : PermissionGrant) : Prop where
  passes : passesFilters parseRfc3339 input effect grant = true
  fits : specificity grant input = some s
  admissible : grant.admissibleFor parseRfc3339 input.action input.now = true

/-- Every eligible grant that reaches outside its patterns is outranked: an earlier eligible grant
ranks no later than it, or a later one ranks strictly before it. -/
def OutsideOutranked (grants : List PermissionGrant) (input : GrantMatchInput)
    (effect : PermissionEffect) : Prop :=
  ∀ before grant after s, grants = before ++ grant :: after →
    Eligible parseRfc3339 input effect s grant → reachesOutside grant input = true →
      (∃ h ∈ before, ∃ s', Eligible parseRfc3339 input effect s' h ∧
        ranksBefore (s', h) (s, grant)) ∨
      (∃ h ∈ after, ∃ s', Eligible parseRfc3339 input effect s' h ∧
        ¬ ranksBefore (s, grant) (s', h))

variable {parseRfc3339}
variable {grants : List PermissionGrant} {input : GrantMatchInput} {effect : PermissionEffect}
variable {grant : PermissionGrant}

theorem sessionMatches_session {sessionId : Option String} {now : Instant}
    (h : grant.sessionMatches parseRfc3339 sessionId now = true) (hs : grant.lifetime = .session) :
    grant.sessionId = sessionId := by
  simp only [PermissionGrant.sessionMatches, hs, ne_eq, not_true_eq_false, if_false,
    Bool.and_eq_true, decide_eq_true_eq] at h
  exact h.2

/-- A grant that passes the filters is confined up to its patterns. -/
theorem confined_of_passesFilters (hpass : passesFilters parseRfc3339 input effect grant = true)
    (hsubject : Covers grant.subjectUraPattern input.subjectUra)
    (hability : Covers grant.abilityUraPattern input.abilityUra) :
    Confined parseRfc3339 grant input effect := by
  obtain ⟨heffect, hactive, howner, hkind, hprincipal, htoken, hclass, hsession, haction,
    hcallee⟩ := (passesFilters_iff parseRfc3339 input effect grant).1 hpass
  refine ⟨heffect, hactive, howner, hkind, hprincipal, haction, ?_, ?_, ?_,
    sessionMatches_session hsession, hsubject, hability⟩
  · intro tokenId htokenId
    simpa [tokenMatches, htokenId] using htoken
  · intro cls hcls
    simpa [tokenClassMatches, hcls] using hclass
  · intro callee hcalleeEq
    simp only [calleeMatches, hcalleeEq, decide_eq_true_eq] at hcallee
    exact hcallee.symm

/-- The matcher returns the eligible grant that no earlier eligible grant ties or beats and no
later one beats. -/
theorem find_eq_some_iff :
    find parseRfc3339 grants input effect = some grant ↔
      ∃ before after s, grants = before ++ grant :: after ∧
        Eligible parseRfc3339 input effect s grant ∧
        (∀ h ∈ before, ∀ s', Eligible parseRfc3339 input effect s' h →
          ¬ ranksBefore (s', h) (s, grant)) ∧
        (∀ h ∈ after, ∀ s', Eligible parseRfc3339 input effect s' h →
          ranksBefore (s, grant) (s', h)) := by
  have himage : ∀ h s' h', (if passesFilters parseRfc3339 input effect h = true then
      (specificity h input).map fun s => (s, h) else none) = some (s', h') ↔
        h = h' ∧ passesFilters parseRfc3339 input effect h = true ∧
          specificity h input = some s' := by
    intro h s' h'
    split <;> simp_all [and_comm]
  rw [find_eq_firstRanked, Option.map_eq_some_iff]
  constructor
  · rintro ⟨⟨s, g⟩, hfirst, rfl⟩
    rw [candidates, List.filterMap_filter, firstRanked_filterMap_eq_some_iff] at hfirst
    obtain ⟨before, b, after, hgrants, hb, hadm, hbefore, hafter⟩ := hfirst
    obtain ⟨rfl, hpass, hfits⟩ := (himage b s g).1 hb
    refine ⟨before, after, s, hgrants, ⟨hpass, hfits, hadm⟩, ?_, ?_⟩
    · intro h hh s' helig
      exact hbefore h hh (s', h) ((himage h s' h).2 ⟨rfl, helig.passes, helig.fits⟩)
        helig.admissible
    · intro h hh s' helig
      exact hafter h hh (s', h) ((himage h s' h).2 ⟨rfl, helig.passes, helig.fits⟩)
        helig.admissible
  · rintro ⟨before, after, s, hgrants, helig, hbefore, hafter⟩
    refine ⟨(s, grant), ?_, rfl⟩
    rw [candidates, List.filterMap_filter, firstRanked_filterMap_eq_some_iff]
    refine ⟨before, grant, after, hgrants, (himage grant s grant).2 ⟨rfl, helig.passes,
      helig.fits⟩, helig.admissible, ?_, ?_⟩
    · rintro h hh ⟨s', h'⟩ himg hadm
      obtain ⟨rfl, hpass, hfits⟩ := (himage h s' h').1 himg
      exact hbefore h hh s' ⟨hpass, hfits, hadm⟩
    · rintro h hh ⟨s', h'⟩ himg hadm
      obtain ⟨rfl, hpass, hfits⟩ := (himage h s' h').1 himg
      exact hafter h hh s' ⟨hpass, hfits, hadm⟩

end Confinement

/-- The matcher returns only confined grants exactly when every eligible grant that reaches
outside its patterns is outranked by another eligible grant. -/
theorem find_confined_iff (parseRfc3339 : String → Option Instant) (grants : List PermissionGrant)
    (input : GrantMatchInput) (effect : PermissionEffect) :
    (∀ grant, find parseRfc3339 grants input effect = some grant →
        Confined parseRfc3339 grant input effect) ↔
      OutsideOutranked parseRfc3339 grants input effect := by
  constructor
  · intro hconfined before grant after s hgrants helig houtside
    by_contra hrank
    rw [not_or] at hrank
    -- an outside grant that nothing outranks would be returned
    have hfound : find parseRfc3339 grants input effect = some grant := by
      refine find_eq_some_iff.2 ⟨before, after, s, hgrants, helig, ?_, ?_⟩
      · intro h hh s' helig' hbefore
        exact hrank.1 ⟨h, hh, s', helig', hbefore⟩
      · intro h hh s' helig'
        by_contra hafter
        exact hrank.2 ⟨h, hh, s', helig', hafter⟩
    have hc := hconfined grant hfound
    have hinside := (covers_iff_of_specificity helig.fits).1 ⟨hc.subject, hc.ability⟩
    rw [hinside] at houtside
    cases houtside
  · intro houtranked grant hfound
    obtain ⟨before, after, s, hgrants, helig, hbefore, hafter⟩ := find_eq_some_iff.1 hfound
    have hinside : reachesOutside grant input = false := by
      by_contra houtside
      rcases houtranked before grant after s hgrants helig (by simpa using houtside) with
        ⟨h, hh, s', helig', hrank⟩ | ⟨h, hh, s', helig', hrank⟩
      · exact hbefore h hh s' helig' hrank
      · exact hrank (hafter h hh s' helig')
    obtain ⟨hsubject, hability⟩ := (covers_iff_of_specificity helig.fits).2 hinside
    exact confined_of_passesFilters helig.passes hsubject hability

/-- A permanent `invoke` grant on the subtree of one user. -/
def aliceSubtreeGrant : PermissionGrant where
  grantId := "grant-1"
  ownerUserUra := "easynet:///r/acme/user/alice"
  principalKind := .agent
  principalId := "easynet:///r/acme/agent/bot"
  tokenId := none
  tokenClass := none
  sessionId := none
  sessionExpiresAt := none
  calleeUra := none
  subjectUraPattern := some "easynet:///r/acme/user/alice/*"
  abilityUraPattern := none
  actions := [.invoke]
  constraints := none
  effect := .allow
  lifetime := .permanent
  state := .active
  expiresAt := none
  reviewRequiredAfter := none
  lastReviewedAt := none
  lastUsedAt := none
  createdBy := "easynet:///r/acme/user/alice"
  createdAt := "2026-01-01T00:00:00.000Z"
  updatedAt := none
  revokedAt := none
  reason := none

/-- A request on a subject of another user whose name has the same length. -/
def carolSubjectInput : GrantMatchInput where
  ownerUserUra := "easynet:///r/acme/user/alice"
  principalKind := .agent
  principalId := "easynet:///r/acme/agent/bot"
  tokenId := none
  tokenClass := none
  sessionId := none
  calleeUra := "easynet:///r/acme/device/d1"
  subjectUra := "easynet:///r/acme/user/carol/notes"
  abilityUra := "easynet:///r/acme/ability/notes.write"
  action := .invoke
  now := 0

/-- The grant on alice's subtree is returned for carol's subject, which it does not cover. -/
theorem find_admits_other_subtree :
    find (fun _ => none) [aliceSubtreeGrant] carolSubjectInput .allow = some aliceSubtreeGrant ∧
      ¬ Covers aliceSubtreeGrant.subjectUraPattern carolSubjectInput.subjectUra := by
  have hparse : GrantSelector.parse aliceSubtreeGrant.subjectUraPattern =
      some (.segmentPrefix "easynet:///r/acme/user/alice") := by decide
  have hmatch : (GrantSelector.segmentPrefix "easynet:///r/acme/user/alice").matchesValue
      carolSubjectInput.subjectUra = some .segmentPrefix := by decide
  refine ⟨by decide, ?_⟩
  rw [covers_iff_of_matches hparse hmatch]
  decide

end EasyNetDaemon.Admission
