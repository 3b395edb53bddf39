import EasyNetDaemon.Admission.GrantMeaning
import EasyNetDaemon.Persistence.PolicyLifecycle

/-!
# Idempotent creation of grants

`create_grant` and `resolve_permission_request_with_grant` answer a request for a grant with an
active grant of the same idempotency key, if the store has one. The key leaves out the token class,
the session and the review times, all of which the matcher reads. The returned grant matches the
requests that the requested one would have matched exactly when the two agree on these
(`returnedGrant_sameMatches_iff`).
-/

namespace EasyNetDaemon.Persistence

open Library EasyNetDaemon.Core Admission

/-! ## What is asked for and what is returned -/

/-- The grant that an operation is asked to create. -/
def requestedGrant : Operation → Option PermissionGrant
  | .createGrant grant => some grant
  | .resolvePermissionRequestWithGrant _ grant => some grant
  | _ => none

/-- The grant that a reply to a creation carries. -/
def returnedGrant : Reply → Option PermissionGrant
  | .bound result => some result.grant
  | .resolution result => result.createdGrant
  | _ => none

/-- The stored grant that answers the request, if there is one, agrees with the normalized requested
grant from `t₀` on: the two stop admitting at the same time and have the same token class and
session. -/
def AgreesWithStored (env : Environment) (maps : PolicyMaps) (t₀ : Instant)
    (requested : PermissionGrant) : Prop :=
  ∀ existing normalized, findIdempotentGrant env maps requested = some existing →
    normalizeGrantForCreate env requested = .ok normalized →
      AgreeFrom env.parseRfc3339 t₀ existing normalized

/-- The plan answers with the reply, at once or after its writes. -/
def Plan.Replies (p : Plan) (reply : Reply) : Prop :=
  p = .answer reply ∨ ∃ c, p = .commit c ∧ c.lastCompactedAt = none ∧ ∀ store, c.reply store = reply

/-! ## The plans of the two operations -/

section Plans

variable {env : Environment} {store : AccessControlStore} {call : Call} {p : Plan}

/-- What a creation that passes its checks answers: the stored grant with its key, or else the
normalized grant. -/
structure Creates (env : Environment) (maps : PolicyMaps) (requested : PermissionGrant) (p : Plan)
    (normalized : PermissionGrant) (reply : Reply) : Prop where
  normalized_eq : normalizeGrantForCreate env requested = .ok normalized
  valid : validateGrant env normalized = .ok ()
  replies : p.Replies reply
  returned : returnedGrant reply = some ((findIdempotentGrant env maps normalized).getD normalized)

variable {requested : PermissionGrant}

theorem plan_createGrant (hop : call.operation = .createGrant requested)
    (h : plan env store call = .ok p) :
    ∃ normalized reply, Creates env store.maps requested p normalized reply := by
  simp only [plan, hop, createGrant] at h
  simp only [↓check_bind_eq_ok_iff, bind_eq_ok_iff] at h
  obtain ⟨g, hnorm, hvalid, h⟩ := h
  rw [normalizeGrantForCreate_active hnorm] at h
  split at h
  · rename_i existing hfind
    cases h
    exact ⟨g, _, hnorm, hvalid, .inl rfl, by rw [hfind]; rfl⟩
  · rename_i hfind
    obtain ⟨-, h⟩ := check_bind_eq_ok_iff.1 h
    cases h
    exact ⟨g, _, hnorm, hvalid, .inr ⟨_, rfl, rfl, fun _ => rfl⟩, by rw [hfind]; rfl⟩

theorem plan_resolveWithGrant {request : PermissionRequest}
    (hop : call.operation = .resolvePermissionRequestWithGrant request requested)
    (h : plan env store call = .ok p) :
    ∃ normalized reply, Creates env store.maps requested p normalized reply := by
  simp only [plan, hop, resolvePermissionRequestWithGrant] at h
  simp only [↓check_bind_eq_ok_iff, bind_eq_ok_iff] at h
  obtain ⟨-, g, hnorm, -, -, -, -, hvalid, h⟩ := h
  -- the stored grant or the new one: both are committed with the request
  split at h
  all_goals
    rename_i hfind
    simp only [↓check_bind_eq_ok_iff, bind_eq_ok_iff] at h
    obtain ⟨-, operation, -, h⟩ := h
    cases h
    exact ⟨g, _, hnorm, hvalid, .inr ⟨_, rfl, rfl, fun _ => rfl⟩, by rw [hfind]; rfl⟩

theorem plan_creates (hrequested : requestedGrant call.operation = some requested)
    (h : plan env store call = .ok p) :
    ∃ normalized reply, Creates env store.maps requested p normalized reply := by
  cases hop : call.operation with
  | createGrant grant =>
    rw [hop] at hrequested
    cases hrequested
    exact plan_createGrant hop h
  | resolvePermissionRequestWithGrant request grant =>
    rw [hop] at hrequested
    cases hrequested
    exact plan_resolveWithGrant hop h
  | _ =>
    rw [hop] at hrequested
    cases hrequested

/-- The reply of a call that returns is the one of its plan. -/
theorem run_replies {owner : String} {allowed : Option Nat} {r : Running} {J : List JournalRecord}
    {reply : Reply} (hj : Journaled env owner r J) (h : (run env allowed r call).2 = .ok reply) :
    ∃ p, plan env r.store call = .ok p ∧ ∀ reply', p.Replies reply' → reply = reply' := by
  rcases run_eq_ok hj h with ⟨hplan, -⟩ | ⟨c, hplan, -, hreply⟩
  · refine ⟨_, hplan, ?_⟩
    rintro reply' (hanswer | ⟨c, hcommit, -⟩)
    · cases hanswer
      rfl
    · cases hcommit
  · refine ⟨_, hplan, ?_⟩
    rintro reply' (hanswer | ⟨c', hcommit, hcompacted, hconst⟩)
    · cases hanswer
    · cases hcommit
      rw [hreply hcompacted, hconst]

end Plans

/-! ## The grants of a reachable store are valid -/

/-- What an entry writes has passed the check of its kind. -/
def EntryValid (env : Environment) (entry : Entry) : Prop :=
  match entry.payload with
  | .grant grant => validateGrant env grant = .ok ()
  | .proof proof => validateAuthorityProofIdentity env proof = .ok ()
  | _ => True

variable {grant : PermissionGrant}

section LiveGrants

variable {env : Environment} {store : AccessControlStore} {call : Call} {c : Commit}
variable {maps : PolicyMaps}

theorem PolicyMaps.Valid.insertEntry (hv : maps.Valid env) {entry : Entry}
    (hentry : EntryValid env entry) : (insertEntry maps entry).Valid env := by
  obtain ⟨hgrants, hproofs⟩ := hv
  obtain ⟨kind, recordId, operation, payload⟩ := entry
  cases payload with
  | grant grant =>
    refine ⟨?_, hproofs⟩
    intro k stored hstored
    simp only [insertEntry_grants] at hstored
    split at hstored
    · cases hstored
      exact hentry
    · exact hgrants k stored hstored
  | proof proof =>
    simp only [Persistence.insertEntry]
    split
    · exact ⟨hgrants, hproofs⟩
    · refine ⟨hgrants, ?_⟩
      intro k stored hstored
      simp only [PolicyMaps.insertProof, Table.getElem?_insert_eq] at hstored
      split at hstored
      · cases hstored
        exact hentry
      · exact hproofs k stored hstored
  | _ => exact ⟨hgrants, hproofs⟩

theorem PolicyMaps.Valid.insertEntries (hv : maps.Valid env) {entries : List Entry}
    (hentries : ∀ entry ∈ entries, EntryValid env entry) :
    (entries.foldl Persistence.insertEntry maps).Valid env := by
  induction entries generalizing maps with
  | nil => exact hv
  | cons entry entries ih =>
    exact ih (hv.insertEntry (hentries entry List.mem_cons_self))
      fun later hlater => hentries later (List.mem_cons_of_mem _ hlater)

theorem grantEntries_valid {audit : GrantAuditRecord} {operation : RecordOperation}
    (hvalid : validateGrant env grant = .ok ()) :
    ∀ entry ∈ grantEntries grant audit operation, EntryValid env entry := by
  intro entry hentry
  rcases List.mem_pair.1 hentry with rfl | rfl
  · exact hvalid
  · trivial

/-- What a commit writes is valid, given that the store is. -/
theorem Planned.entry_valid (h : Planned env store call c) (hlaws : env.Lawful)
    (hv : store.maps.Valid env) : ∀ entry ∈ c.entries, EntryValid env entry := by
  intro entry hentry
  cases h with
  | create requested grant reply hop hnew => exact grantEntries_valid hnew.valid entry hentry
  | revoke grantId owner reason existing reply hop hexisting hstate =>
    exact grantEntries_valid
      (validateGrant_revoked _ reason (hv.grants grantId existing hexisting)) entry hentry
  | consume grantId existing hop hexisting hstate =>
    exact grantEntries_valid (validateGrant_consumed (hlaws.parse_formatMillis _)
      (hv.grants grantId existing hexisting)) entry hentry
  | approveWithGrant requested requestedGrant grant operation hop happroved hresolves hnew hstep =>
    rcases List.mem_cons.1 hentry with rfl | hentry
    · trivial
    · exact grantEntries_valid hnew.valid entry hentry
  | approveWithProof requested proof operation hop happroved hresolves hnew hstep =>
    rcases List.mem_pair.1 hentry with rfl | rfl
    · trivial
    · exact hnew.valid
  | putProof proof hop hnew =>
    cases List.mem_singleton.1 hentry
    exact hnew.valid
  | consumeProof proofId proof hop hexisting hunconsumed =>
    cases List.mem_singleton.1 hentry
    exact hv.proofs proofId proof hexisting
  | _ =>
    cases List.mem_singleton.1 hentry
    trivial

/-- The live maps of a run on a fresh store are valid. -/
theorem Reaches.valid {owner : String} {now : Instant} {r r' : Running} {moves : List Move}
    {n : Nat} (hlaws : env.Lawful) (hopen : openOrCreateAt env owner now .empty = .ok r)
    (h : Reaches env owner r moves n r') : r'.store.maps.Valid env := by
  have hfresh : r.store.maps.Valid env := by
    obtain ⟨-, hempty⟩ := openOrCreateAt_empty hopen
    rw [hempty]
    constructor <;> intro k v hk <;> simp [PolicyMaps.empty] at hk
  refine runSteps_invariant (I := fun r => r.store.maps.Valid env) ?_ (Nat.zero_le n) rfl hfresh h
  intro n r₁ move r₂ hreach _ hmove hv
  obtain ⟨J, hc⟩ := Reaches.consistent hopen hreach
  cases move with
  | call allowed call =>
    cases hmove
    cases hcommitted : committed env r₁.store call with
    | none =>
      rw [run_of_committed_none hcommitted]
      exact hv
    | some c =>
      have hplanned := planned_of_committed hcommitted
      rcases run_committed_cases hc hcommitted allowed with ⟨-, hmaps, -⟩ | ⟨-, hmaps, -⟩
      · rw [hmaps, hplanned.finish_eq hc.keyed]
        exact hv.insertEntries (hplanned.entry_valid hlaws hv)
      · rw [hmaps]
        exact hv
  | reopen now =>
    exact (rebuild_valid (hc.reopened hmove).2).1

/-- A valid grant that is active is in force. -/
theorem inForce_of_validateGrant (hactive : grant.state = .active)
    (h : validateGrant env grant = .ok ()) : grant.InForce := by
  refine ⟨hactive, fun honce => ?_⟩
  simp only [validateGrant, check_bind_eq_ok_iff] at h
  obtain ⟨-, -, -, -, -, -, -, -, h⟩ := h
  split at h
  · cases h
  · simp only [check_bind_eq_ok_iff, bailIf_eq_ok_iff] at h
    obtain ⟨-, -, -, hunused, -⟩ := h
    simpa [honce, hactive] using hunused

end LiveGrants

/-! ## The returned grant -/

section Returned

variable {env : Environment}

theorem sameScope_of_key {existing : PermissionGrant}
    (h : grantKeyMaterial existing = grantKeyMaterial grant) : SameScope existing grant := by
  simp only [grantKeyMaterial, GrantKeyMaterial.mk.injEq] at h
  obtain ⟨howner, hkind, hprincipal, htoken, hcallee, hsubject, hability, hactions, -, heffect,
    hlifetime, hexpires, -⟩ := h
  exact ⟨heffect, howner, hkind, hprincipal, htoken, hcallee, hsubject, hability, hactions,
    hlifetime, hexpires⟩

/-- In every store that a run on a fresh store reaches, a creation that returns answers with a
grant, and this grant matches the requests from `t₀` on that the normalized requested grant matches
exactly when the stored grant with its idempotency key, if there is one, agrees with it from `t₀`
on. -/
theorem returnedGrant_sameMatches_iff (hlaws : env.Lawful) {owner : String} {now : Instant}
    {r r' : Running} {moves : List Move} {n : Nat} {allowed : Option Nat} {call : Call}
    {requested : PermissionGrant} {reply : Reply}
    (hopen : openOrCreateAt env owner now .empty = .ok r)
    (hreach : Reaches env owner r moves n r')
    (hrequested : requestedGrant call.operation = some requested)
    (hreply : (run env allowed r' call).2 = .ok reply) :
    ∃ returned normalized, returnedGrant reply = some returned ∧
      normalizeGrantForCreate env requested = .ok normalized ∧
      ∀ t₀, SameMatches env.parseRfc3339 t₀ returned normalized ↔
        AgreesWithStored env r'.store.maps t₀ requested := by
  obtain ⟨J, hc⟩ := hreach.consistent hopen
  have hv := hreach.valid hlaws hopen
  obtain ⟨p, hplan, hreplies⟩ := run_replies hc.journaled hreply
  obtain ⟨normalized, reply', hcreates⟩ := plan_creates hrequested hplan
  obtain rfl := hreplies reply' hcreates.replies
  have hfind : findIdempotentGrant env r'.store.maps normalized =
      findIdempotentGrant env r'.store.maps requested :=
    findIdempotentGrant_normalized hcreates.normalized_eq
  refine ⟨_, normalized, hcreates.returned, hcreates.normalized_eq, fun t₀ => ?_⟩
  cases hfound : findIdempotentGrant env r'.store.maps normalized with
  | none =>
    have hagrees : AgreesWithStored env r'.store.maps t₀ requested := by
      intro existing _ hexisting
      rw [← hfind, hfound] at hexisting
      cases hexisting
    exact ⟨fun _ => hagrees, fun _ _ _ _ => Iff.rfl⟩
  | some existing =>
    obtain ⟨hexisting, hactive, hkey⟩ := findIdempotentGrant_eq_some hlaws hc.keyed hfound
    have hin := inForce_of_validateGrant hactive (hv.grants _ existing hexisting)
    have hin' := inForce_of_validateGrant (normalizeGrantForCreate_state hcreates.normalized_eq)
      hcreates.valid
    rw [Option.getD_some, sameMatches_iff_agreeFrom (sameScope_of_key hkey) hin hin']
    constructor
    · intro hagree existing' normalized' hexisting' hnormalized'
      cases (hfind.trans hexisting').symm.trans hfound
      cases hnormalized'.symm.trans hcreates.normalized_eq
      exact hagree
    · intro hagrees
      exact hagrees existing normalized (hfind.symm.trans hfound) hcreates.normalized_eq

end Returned

/-! ## A grant for another class of tokens -/

section Sample

/-- A grant for bob's browser sessions. -/
def browserGrant : PermissionGrant :=
  { bobGrant with principalKind := .token, tokenClass := some .browserSession }

/-- A grant for bob's automation tokens, otherwise like `browserGrant`. -/
def automationGrant : PermissionGrant :=
  { browserGrant with grantId := "grant-2", tokenClass := some .automation }

/-- An invocation with an automation token of bob. -/
def automationInput : GrantMatchInput where
  ownerUserUra := alice
  principalKind := .token
  principalId := bob
  tokenId := none
  tokenClass := some .automation
  sessionId := none
  calleeUra := device
  subjectUra := alice
  abilityUra := "easynet:///r/test/ability/notes.write"
  action := .invoke
  now := newYear

/-- Alice's store after she created the grant for browser sessions. -/
noncomputable def browserStore : Running :=
  runCalls sampleEnvironment aliceStore [aliceCalls (.createGrant browserGrant)]

theorem browserStore_grants : browserStore.store.maps.grants.values = [browserGrant] := by
  decide +kernel

/-- A creation with the hashed fields of the stored grant is answered with that grant. -/
theorem run_browserStore
    (hnormalize : normalizeGrantForCreate sampleEnvironment grant = .ok grant)
    (hvalid : validateGrant sampleEnvironment grant = .ok ()) (hstate : grant.state = .active)
    (hkey : grantKeyMaterial grant = grantKeyMaterial browserGrant) :
    findIdempotentGrant sampleEnvironment browserStore.store.maps grant = some browserGrant ∧
      (run sampleEnvironment none browserStore (aliceCalls (.createGrant grant))).2 =
        .ok (.bound ⟨browserGrant, true, "audit-idempotent-grant-1"⟩) := by
  have hfind : findIdempotentGrant sampleEnvironment browserStore.store.maps grant =
      some browserGrant := by
    rw [findIdempotentGrant, browserStore_grants, List.find?_cons_of_pos]
    simp only [Bool.and_eq_true, decide_eq_true_eq, grantIdempotencyKey, hkey, and_true]
    rfl
  have hactive : { grant with state := .active } = grant := by rw [← hstate]
  have hid : "audit-idempotent-" ++ browserGrant.grantId = "audit-idempotent-grant-1" := by decide
  have hplan : plan sampleEnvironment browserStore.store (aliceCalls (.createGrant grant)) =
      .ok (.answer (.bound ⟨browserGrant, true, "audit-idempotent-grant-1"⟩)) := by
    simp only [plan, aliceCalls, createGrant, hnormalize, hvalid, bind, Except.bind, hactive, hfind,
      hid]
  refine ⟨hfind, ?_⟩
  simp only [run, hplan, perform]

/-- Alice creates a grant for bob's browser sessions and asks for one for bob's automation tokens.
She is answered with the first one, which does not match what the second one would have matched. -/
theorem automation_answered_with_browser_grant :
    openOrCreateAt sampleEnvironment alice newYear .empty = .ok aliceStore ∧
      (run sampleEnvironment none browserStore (aliceCalls (.createGrant automationGrant))).2 =
        .ok (.bound ⟨browserGrant, true, "audit-idempotent-grant-1"⟩) ∧
      normalizeGrantForCreate sampleEnvironment automationGrant = .ok automationGrant ∧
      find sampleEnvironment.parseRfc3339 [automationGrant] automationInput .allow =
        some automationGrant ∧
      find sampleEnvironment.parseRfc3339 [browserGrant] automationInput .allow = none ∧
      ¬ SameMatches sampleEnvironment.parseRfc3339 newYear browserGrant automationGrant := by
  have hfound : find sampleEnvironment.parseRfc3339 [automationGrant] automationInput .allow =
      some automationGrant := by
    decide +kernel
  have hnone : find sampleEnvironment.parseRfc3339 [browserGrant] automationInput .allow =
      none := by
    decide +kernel
  have hnormalize : normalizeGrantForCreate sampleEnvironment automationGrant =
      .ok automationGrant := by
    decide +kernel
  refine ⟨openOrCreateAt_alice, (run_browserStore hnormalize (by decide +kernel) rfl rfl).2,
    hnormalize, hfound, hnone, ?_⟩
  intro hsame
  have hboth := hsame automationInput .allow (le_refl newYear)
  rw [hfound, hnone] at hboth
  simp at hboth

/-- The same request once more is answered with the stored grant, which matches the same. -/
theorem browser_grant_sameMatches :
    (run sampleEnvironment none browserStore (aliceCalls (.createGrant browserGrant))).2 =
        .ok (.bound ⟨browserGrant, true, "audit-idempotent-grant-1"⟩) ∧
      ∃ returned normalized,
        returnedGrant (.bound ⟨browserGrant, true, "audit-idempotent-grant-1"⟩) = some returned ∧
        normalizeGrantForCreate sampleEnvironment browserGrant = .ok normalized ∧
        SameMatches sampleEnvironment.parseRfc3339 newYear returned normalized := by
  have hnormalize : normalizeGrantForCreate sampleEnvironment browserGrant = .ok browserGrant := by
    decide +kernel
  obtain ⟨hfind, hrun⟩ := run_browserStore hnormalize (by decide +kernel) rfl rfl
  obtain ⟨returned, normalized, hreturned, hnormalized, hsame⟩ :=
    returnedGrant_sameMatches_iff sampleEnvironment_lawful openOrCreateAt_alice
      (show Reaches sampleEnvironment alice aliceStore
        [.call none (aliceCalls (.createGrant browserGrant))] 1 browserStore from rfl)
      (show requestedGrant (aliceCalls (.createGrant browserGrant)).operation = some browserGrant
        from rfl) hrun
  refine ⟨hrun, returned, normalized, hreturned, hnormalized, (hsame newYear).2 ?_⟩
  intro existing normalized' hexisting hnormalized'
  cases hexisting.symm.trans hfind
  cases hnormalized'.symm.trans hnormalize
  exact fun _ _ _ => .inr ⟨rfl, rfl, fun _ => rfl⟩

end Sample

end EasyNetDaemon.Persistence
