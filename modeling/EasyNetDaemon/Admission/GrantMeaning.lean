import EasyNetDaemon.Admission.GrantMatcher
import Mathlib.Data.Int.ConditionallyCompleteOrder
import Mathlib.Order.ConditionallyCompleteLattice.Basic

/-!
# When two grants mean the same

Two grants of the same scope can still differ in their token class, their session and their review
deadline. `admissionEnd` is the instant at which a grant in force stops admitting an action: its
expiry, the end of its session or its review deadline, whichever comes first, with `⊥` for a time
that cannot be read and `⊤` for none.

From an instant on, two such grants are found for the same requests exactly when for each action
both have stopped admitting it, or they stop at the same instant and agree on the token class and,
for a session grant, on the session (`sameMatches_iff_agreeFrom`).
-/

namespace EasyNetDaemon.Admission

open Library

/-- An instant, `⊥` for one that has always passed and `⊤` for one that never comes. -/
abbrev End := WithBot (WithTop Instant)

/-- An instant as an end. -/
def endAt (t : Instant) : End := ((t : WithTop Instant) : WithBot (WithTop Instant))

theorem endAt_lt_endAt {s t : Instant} : endAt s < endAt t ↔ s < t := by
  simp [endAt]

theorem endAt_le_endAt {s t : Instant} : endAt s ≤ endAt t ↔ s ≤ t := by
  simp [endAt]

/-- An end after an instant and before another end is an instant. -/
theorem exists_endAt_of_lt {t : Instant} {x y : End} (ht : endAt t < x) (hxy : x < y) :
    ∃ s, x = endAt s := by
  cases x using WithBot.recBotCoe with
  | bot => exact absurd ht not_lt_bot
  | coe x =>
    cases x using WithTop.recTopCoe with
    | top => exact absurd hxy not_top_lt
    | coe s => exact ⟨s, rfl⟩

variable {action : AccessAction} {input : GrantMatchInput} {effect : PermissionEffect}

section Ends

variable (parseRfc3339 : String → Option Instant)

/-- The end given by a time that is read, if it can be. -/
def readEnd (time : Option Instant) : End :=
  match time with
  | some t => endAt t
  | none => ⊥

theorem lt_readEnd {time : Option Instant} {now : Instant} :
    endAt now < readEnd time ↔ ∃ t, time = some t ∧ now < t := by
  cases time with
  | none => simp [readEnd]
  | some t => simp [readEnd, endAt_lt_endAt]

namespace PermissionGrant

/-- When `expires_at` ends a grant. -/
def expiryEnd (g : PermissionGrant) : End :=
  match g.expiresAt with
  | none => ⊤
  | some raw => readEnd (parseRfc3339 raw)

/-- When its session ends a grant. -/
def sessionEnd (g : PermissionGrant) : End :=
  if g.lifetime = .session then readEnd (g.sessionExpiresAt.bind parseRfc3339) else ⊤

/-- When a missing review ends a grant. -/
def reviewEnd (g : PermissionGrant) (action : AccessAction) : End :=
  if g.effect = .allow ∧ g.requiresPeriodicReconfirmationFor action = true then
    readEnd (g.reconfirmationDeadlineFor parseRfc3339 action)
  else ⊤

/-- The instant at which the grant stops admitting the action. -/
def admissionEnd (g : PermissionGrant) (action : AccessAction) : End :=
  min (min (g.expiryEnd parseRfc3339) (g.sessionEnd parseRfc3339)) (g.reviewEnd parseRfc3339 action)

/-- The grant is active, and unused if it is for one use. -/
structure InForce (g : PermissionGrant) : Prop where
  active : g.state = .active
  unused : g.lifetime = .once → g.lastUsedAt = none

variable {parseRfc3339}
variable {g : PermissionGrant}

theorem endAt_lt_top (t : Instant) : endAt t < ⊤ := WithBot.coe_lt_coe.2 (WithTop.coe_lt_top t)

theorem lt_expiryEnd_iff (now : Instant) :
    (match g.expiresAt with
      | some raw =>
        match parseRfc3339 raw with
        | some expiry => decide (expiry > now)
        | none => false
      | none => true) = true ↔ endAt now < g.expiryEnd parseRfc3339 := by
  rw [expiryEnd]
  cases g.expiresAt with
  | none => simp [endAt_lt_top]
  | some raw =>
    simp only [lt_readEnd]
    cases parseRfc3339 raw <;> simp

theorem InForce.activeAt_iff (h : g.InForce) (now : Instant) :
    g.activeAt parseRfc3339 now = true ↔
      endAt now < g.expiryEnd parseRfc3339 ∧ endAt now < g.sessionEnd parseRfc3339 := by
  have hunused : ¬ (g.lifetime = .once ∧ g.lastUsedAt.isSome) := by
    rintro ⟨hlifetime, hused⟩
    rw [h.unused hlifetime] at hused
    cases hused
  have hsession : (g.lifetime = .session → g.sessionActiveAt parseRfc3339 now = true) ↔
      endAt now < g.sessionEnd parseRfc3339 := by
    rw [sessionEnd]
    split
    · rename_i hlifetime
      simp only [hlifetime, true_imp_iff, lt_readEnd, sessionActiveAt]
      cases g.sessionExpiresAt.bind parseRfc3339 <;> simp
    · rename_i hlifetime
      simp [hlifetime, endAt_lt_top]
  rw [activeAt, if_neg (not_not.2 h.active), if_neg hunused]
  split
  · rename_i hended
    simp only [Bool.not_eq_true'] at hended
    simp only [Bool.false_eq_true, false_iff, not_and, ← hsession]
    intro _ hactive
    rw [hactive hended.1] at hended
    cases hended.2
  · rename_i hrunning
    simp only [Bool.not_eq_true', not_and, Bool.not_eq_false] at hrunning
    refine Iff.trans (lt_expiryEnd_iff now) ?_
    rw [← hsession]
    exact ⟨fun h => ⟨h, hrunning⟩, fun h => h.1⟩

/-- A grant in force admits an action up to its end. -/
theorem InForce.admissibleFor_iff (h : g.InForce) (haction : action ∈ g.actions) (now : Instant) :
    g.admissibleFor parseRfc3339 action now = true ↔
      endAt now < g.admissionEnd parseRfc3339 action := by
  have hreview : g.activeAt parseRfc3339 now = true →
      (g.reconfirmationRequiredFor parseRfc3339 action now = false ↔
        endAt now < g.reviewEnd parseRfc3339 action) := by
    intro hactive
    have hcontains : g.actions.contains action = true := by simpa using haction
    simp only [reconfirmationRequiredFor, hactive, hcontains, reviewEnd]
    by_cases heffect : g.effect = .allow
    · cases hperiodic : g.requiresPeriodicReconfirmationFor action with
      | false => simp [endAt_lt_top]
      | true =>
        cases hdeadline : g.reconfirmationDeadlineFor parseRfc3339 action <;>
          simp [heffect, lt_readEnd]
    · simp [heffect, endAt_lt_top]
  rw [admissibleFor, Bool.and_eq_true, Bool.not_eq_true', admissionEnd, lt_min_iff, lt_min_iff,
    ← h.activeAt_iff now]
  exact and_congr_right hreview

end PermissionGrant

end Ends

/-! ## The scope of a grant -/

/-- The grants agree on all that decides which requests they are about: everything the matcher reads
but the token class, the session and the review. -/
structure SameScope (e g : PermissionGrant) : Prop where
  effect : e.effect = g.effect
  owner : e.ownerUserUra = g.ownerUserUra
  principalKind : e.principalKind = g.principalKind
  principalId : e.principalId = g.principalId
  tokenId : e.tokenId = g.tokenId
  callee : e.calleeUra = g.calleeUra
  subject : e.subjectUraPattern = g.subjectUraPattern
  ability : e.abilityUraPattern = g.abilityUraPattern
  actions : e.actions = g.actions
  lifetime : e.lifetime = g.lifetime
  expiresAt : e.expiresAt = g.expiresAt

/-- The request is in the scope of the grant. -/
structure InScope (g : PermissionGrant) (input : GrantMatchInput) (effect : PermissionEffect) :
    Prop where
  effect : g.effect = effect
  owner : g.ownerUserUra = input.ownerUserUra
  principalKind : g.principalKind = input.principalKind
  principalId : g.principalId = input.principalId
  tokenId : tokenMatches g.tokenId input.tokenId = true
  callee : calleeMatches g.calleeUra input.calleeUra = true
  action : input.action ∈ g.actions
  patterns : (specificity g input).isSome

/-- Both patterns of the grant can be read. -/
def SelectorsParse (g : PermissionGrant) : Prop :=
  (GrantSelector.parse g.subjectUraPattern).isSome ∧
    (GrantSelector.parse g.abilityUraPattern).isSome

section Scope

variable {parseRfc3339 : String → Option Instant} {e g : PermissionGrant}

theorem SameScope.symm (h : SameScope e g) : SameScope g e :=
  ⟨h.effect.symm, h.owner.symm, h.principalKind.symm, h.principalId.symm, h.tokenId.symm,
    h.callee.symm, h.subject.symm, h.ability.symm, h.actions.symm, h.lifetime.symm,
    h.expiresAt.symm⟩

theorem SameScope.inScope (h : SameScope e g) (hin : InScope e input effect) :
    InScope g input effect where
  effect := h.effect ▸ hin.effect
  owner := h.owner ▸ hin.owner
  principalKind := h.principalKind ▸ hin.principalKind
  principalId := h.principalId ▸ hin.principalId
  tokenId := h.tokenId ▸ hin.tokenId
  callee := h.callee ▸ hin.callee
  action := h.actions ▸ hin.action
  patterns := by
    have hpatterns := hin.patterns
    rwa [specificity, h.subject, h.ability] at hpatterns

/-- A request in the scope of a grant has been matched against its patterns. -/
theorem InScope.selectorsParse (h : InScope g input effect) : SelectorsParse g := by
  have hpatterns := h.patterns
  rw [specificity] at hpatterns
  constructor
  · cases hsubject : GrantSelector.parse g.subjectUraPattern <;> simp_all
  · cases hability : GrantSelector.parse g.abilityUraPattern <;> simp_all

/-- A grant alone is found when the request is in its scope, has its token class and its session,
and comes before the grant stops admitting it. -/
theorem find_singleton_isSome_iff (g : PermissionGrant) (input : GrantMatchInput)
    (effect : PermissionEffect) :
    (find parseRfc3339 [g] input effect).isSome ↔
      InScope g input effect ∧ tokenClassMatches g.tokenClass input.tokenClass = true ∧
        (g.lifetime = .session → g.sessionId = input.sessionId) ∧
        g.admissibleFor parseRfc3339 input.action input.now = true := by
  simp only [find_isSome_iff, List.mem_singleton, exists_eq_left, grantMatches, Bool.and_eq_true,
    passesFilters_iff]
  constructor
  · rintro ⟨⟨⟨heffect, -, howner, hkind, hid, htoken, hclass, hsession, haction, hcallee⟩,
      hpatterns⟩, hadmissible⟩
    refine ⟨⟨heffect, howner, hkind, hid, htoken, hcallee, haction, hpatterns⟩, hclass, ?_,
      hadmissible⟩
    intro hlifetime
    have hboth : g.activeAt parseRfc3339 input.now = true ∧ g.sessionId = input.sessionId := by
      simpa [PermissionGrant.sessionMatches, hlifetime] using hsession
    exact hboth.2
  · rintro ⟨⟨heffect, howner, hkind, hid, htoken, hcallee, haction, hpatterns⟩, hclass, hsession,
      hadmissible⟩
    have hactive : g.activeAt parseRfc3339 input.now = true := by
      rw [PermissionGrant.admissibleFor, Bool.and_eq_true] at hadmissible
      exact hadmissible.1
    refine ⟨⟨⟨heffect, hactive, howner, hkind, hid, htoken, hclass, ?_, haction, hcallee⟩,
      hpatterns⟩, hadmissible⟩
    rw [PermissionGrant.sessionMatches]
    split
    · rfl
    · rename_i hlifetime
      rw [hactive, hsession (not_not.1 hlifetime)]
      simp

theorem exists_matchesValue (selector : GrantSelector) :
    ∃ value, (selector.matchesValue value).isSome := by
  cases selector with
  | exact expected => exact ⟨expected, by simp [GrantSelector.matchesValue]⟩
  | segmentPrefix pre =>
    refine ⟨String.ofList (pre.toList ++ ['/', 'x']), ?_⟩
    simp [GrantSelector.matchesValue, RustText.getFrom_byteLen, RustText.stripPrefixChar]
  | classScope => exact ⟨"", by simp [GrantSelector.matchesValue]⟩

/-- A grant with readable patterns has a request in its scope, with any of its actions, any token
class and session, and at any time. -/
theorem exists_inScope (hparse : SelectorsParse g) (haction : action ∈ g.actions) (now : Instant)
    (tokenClass : Option TokenClass) (sessionId : Option String) :
    ∃ input, InScope g input g.effect ∧ input.action = action ∧ input.now = now ∧
      input.tokenClass = tokenClass ∧ input.sessionId = sessionId := by
  obtain ⟨subjectSelector, hsubject⟩ := Option.isSome_iff_exists.1 hparse.1
  obtain ⟨abilitySelector, hability⟩ := Option.isSome_iff_exists.1 hparse.2
  obtain ⟨subject, hsubjectValue⟩ := exists_matchesValue subjectSelector
  obtain ⟨ability, habilityValue⟩ := exists_matchesValue abilitySelector
  obtain ⟨m, hm⟩ := Option.isSome_iff_exists.1 hsubjectValue
  obtain ⟨m', hm'⟩ := Option.isSome_iff_exists.1 habilityValue
  refine ⟨⟨g.ownerUserUra, g.principalKind, g.principalId, g.tokenId, tokenClass, sessionId,
    g.calleeUra.getD "", subject, ability, action, now⟩, ?_, rfl, rfl, rfl, rfl⟩
  refine ⟨rfl, rfl, rfl, rfl, ?_, ?_, haction, ?_⟩
  · cases g.tokenId <;> simp [tokenMatches]
  · cases g.calleeUra <;> simp [calleeMatches]
  · simp [specificity, hsubject, hability, hm, hm']

/-- Token classes that match each other are equal. -/
theorem tokenClass_eq {a b : Option TokenClass} (hab : tokenClassMatches a b = true)
    (hba : tokenClassMatches b a = true) : a = b := by
  cases a <;> cases b <;> simp_all [tokenClassMatches]

theorem tokenClassMatches_self (a : Option TokenClass) : tokenClassMatches a a = true := by
  cases a <;> simp [tokenClassMatches]

end Scope

/-! ## When two grants match the same requests -/

/-- From the time `t₀` on the grants of one scope match the same requests: nothing can match them,
or for every action both have stopped before `t₀`, or they stop at the same time and have the same
token class and session. -/
def AgreeFrom (parseRfc3339 : String → Option Instant) (t₀ : Instant) (e g : PermissionGrant) :
    Prop :=
  SelectorsParse g → ∀ action ∈ g.actions,
    (e.admissionEnd parseRfc3339 action ≤ endAt t₀ ∧
      g.admissionEnd parseRfc3339 action ≤ endAt t₀) ∨
    (e.admissionEnd parseRfc3339 action = g.admissionEnd parseRfc3339 action ∧
      e.tokenClass = g.tokenClass ∧ (g.lifetime = .session → e.sessionId = g.sessionId))

section Agreement

variable {parseRfc3339 : String → Option Instant} {e g : PermissionGrant} {t₀ : Instant}

/-- The grants match the same requests from `t₀` on, each taken alone. -/
def SameMatches (parseRfc3339 : String → Option Instant) (t₀ : Instant) (e g : PermissionGrant) :
    Prop :=
  ∀ (input : GrantMatchInput) (effect : PermissionEffect), t₀ ≤ input.now →
    ((find parseRfc3339 [e] input effect).isSome ↔ (find parseRfc3339 [g] input effect).isSome)

theorem SameMatches.symm (h : SameMatches parseRfc3339 t₀ e g) : SameMatches parseRfc3339 t₀ g e :=
  fun input effect hnow => (h input effect hnow).symm

/-- What a grant in force admits at some time from `t₀` on, with its own token class and session,
the other one admits too: it has not stopped then, its token class is matched and its session is the
same. -/
theorem SameMatches.admits (h : SameMatches parseRfc3339 t₀ e g) (hscope : SameScope e g)
    (hin : PermissionGrant.InForce e) (hin' : PermissionGrant.InForce g)
    (hparse : SelectorsParse e) (haction : action ∈ e.actions) {now : Instant} (hnow : t₀ ≤ now)
    (hend : endAt now < e.admissionEnd parseRfc3339 action) :
    endAt now < g.admissionEnd parseRfc3339 action ∧
      tokenClassMatches g.tokenClass e.tokenClass = true ∧
      (g.lifetime = .session → g.sessionId = e.sessionId) := by
  obtain ⟨input, hinput, rfl, rfl, hclass, hsession⟩ :=
    exists_inScope hparse haction now e.tokenClass e.sessionId
  have hfound : (find parseRfc3339 [e] input e.effect).isSome := by
    rw [find_singleton_isSome_iff]
    exact ⟨hinput, hclass ▸ tokenClassMatches_self _, fun _ => hsession.symm,
      (hin.admissibleFor_iff haction _).2 hend⟩
  obtain ⟨-, hclass', hsession', hadmissible⟩ :=
    (find_singleton_isSome_iff _ _ _).1 ((h input e.effect hnow).1 hfound)
  exact ⟨(hin'.admissibleFor_iff (hscope.actions ▸ haction) _).1 hadmissible, hclass ▸ hclass',
    fun hlifetime => (hsession' hlifetime).trans hsession⟩

/-- A grant that still admits something at `t₀` or later does not outlast the other one. -/
theorem SameMatches.admissionEnd_le (h : SameMatches parseRfc3339 t₀ e g) (hscope : SameScope e g)
    (hin : PermissionGrant.InForce e) (hin' : PermissionGrant.InForce g)
    (hparse : SelectorsParse e) (haction : action ∈ e.actions)
    (hlate : endAt t₀ < e.admissionEnd parseRfc3339 action) :
    e.admissionEnd parseRfc3339 action ≤ g.admissionEnd parseRfc3339 action := by
  by_contra hlt
  have hat := (h.admits hscope hin hin' hparse haction le_rfl hlate).1
  obtain ⟨now, hnow⟩ := exists_endAt_of_lt hat (not_le.1 hlt)
  -- At the instant at which `g` stops, `e` still admits and `g` does not.
  have hafter : t₀ ≤ now := (endAt_lt_endAt.1 (hnow ▸ hat)).le
  have hstill := (h.admits hscope hin hin' hparse haction hafter (hnow ▸ not_le.1 hlt)).1
  exact lt_irrefl _ (hnow ▸ hstill)

theorem SameScope.selectorsParse (h : SameScope e g) (hparse : SelectorsParse g) :
    SelectorsParse e := by
  rwa [SelectorsParse, h.subject, h.ability]

/-- Grants that agree from `t₀` on answer every request from `t₀` on alike. -/
theorem AgreeFrom.found (h : AgreeFrom parseRfc3339 t₀ e g) (hscope : SameScope e g)
    (hin : PermissionGrant.InForce e) (hin' : PermissionGrant.InForce g) (hnow : t₀ ≤ input.now) :
    (find parseRfc3339 [e] input effect).isSome ↔ (find parseRfc3339 [g] input effect).isSome := by
  rw [find_singleton_isSome_iff, find_singleton_isSome_iff]
  have hscopes : InScope e input effect ↔ InScope g input effect :=
    ⟨hscope.inScope, hscope.symm.inScope⟩
  rw [hscopes, hscope.lifetime]
  refine and_congr_right fun hinput => ?_
  have haction : input.action ∈ e.actions := hscope.actions ▸ hinput.action
  rw [hin.admissibleFor_iff haction, hin'.admissibleFor_iff hinput.action]
  rcases h hinput.selectorsParse input.action hinput.action with ⟨hover, hover'⟩ |
    ⟨hend, hclass, hsession⟩
  · have hle : endAt t₀ ≤ endAt input.now := endAt_le_endAt.2 hnow
    exact ⟨fun hfound => absurd hfound.2.2 (not_lt.2 (hover.trans hle)),
      fun hfound => absurd hfound.2.2 (not_lt.2 (hover'.trans hle))⟩
  · rw [hend, hclass]
    refine and_congr_right fun _ => and_congr_left fun _ => ?_
    exact ⟨fun hsame hlifetime => (hsession hlifetime) ▸ hsame hlifetime,
      fun hsame hlifetime => (hsession hlifetime).symm ▸ hsame hlifetime⟩

/-- Two grants of one scope that are in force match the same requests from `t₀` on exactly when they
agree from `t₀` on. -/
theorem sameMatches_iff_agreeFrom (hscope : SameScope e g) (hin : PermissionGrant.InForce e)
    (hin' : PermissionGrant.InForce g) :
    SameMatches parseRfc3339 t₀ e g ↔ AgreeFrom parseRfc3339 t₀ e g := by
  refine ⟨fun h hparse action haction => ?_,
    fun h input effect hnow => h.found hscope hin hin' hnow⟩
  have hparse' := hscope.selectorsParse hparse
  have haction' : action ∈ e.actions := hscope.actions ▸ haction
  rcases le_or_gt (e.admissionEnd parseRfc3339 action) (endAt t₀) with hover | hlate
  · rcases le_or_gt (g.admissionEnd parseRfc3339 action) (endAt t₀) with hover' | hlate'
    · exact .inl ⟨hover, hover'⟩
    · have hle := h.symm.admissionEnd_le hscope.symm hin' hin hparse haction hlate'
      exact absurd (hlate'.trans_le hle) (not_lt.2 hover)
  · obtain ⟨hlate', hclass, hsession⟩ := h.admits hscope hin hin' hparse' haction' le_rfl hlate
    obtain ⟨-, hclass', -⟩ := h.symm.admits hscope.symm hin' hin hparse haction le_rfl hlate'
    refine .inr ⟨?_, tokenClass_eq hclass' hclass, fun hlifetime => (hsession hlifetime).symm⟩
    exact le_antisymm (h.admissionEnd_le hscope hin hin' hparse' haction' hlate)
      (h.symm.admissionEnd_le hscope.symm hin' hin hparse haction hlate')

end Agreement

end EasyNetDaemon.Admission
