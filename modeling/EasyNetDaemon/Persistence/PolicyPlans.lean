import EasyNetDaemon.Persistence.JournalInvariant

/-!
# What the operations commit

`Planned env store call c` lists the commits an operation can arrive at, with the facts its checks
have established by then; `planned_of_plan` is the inversion of `plan`. The invariants of the store
are proved by cases on it.

`run_spec` is the effect of a call on the journal and on the maps, whichever of its writes succeed.
-/

namespace EasyNetDaemon.Persistence

open Library EasyNetDaemon.Core Admission

/-- A grant that passed the checks of a creation: normalized, valid, not a repetition and with a
new id. -/
structure NewGrant (env : Environment) (maps : PolicyMaps) (requested grant : PermissionGrant) :
    Prop where
  normalized : normalizeGrantForCreate env requested = .ok grant
  valid : validateGrant env grant = .ok ()
  unmatched : findIdempotentGrant env maps grant = none
  fresh : maps.grants[grant.grantId]? = none

/-- A request record that fits what the store holds under its id. -/
structure RequestStep (env : Environment) (maps : PolicyMaps) (request : PermissionRequest)
    (operation : RecordOperation) : Prop where
  valid : validateRequestTransition env maps.requests[request.requestId]? request = .ok ()
  operation_eq :
    requestTransitionOperation maps.requests[request.requestId]? request = .ok operation

/-- A proof with valid identities and a new id. -/
structure NewProof (env : Environment) (maps : PolicyMaps) (proof : AuthorityProof) : Prop where
  valid : validateAuthorityProofIdentity env proof = .ok ()
  fresh : maps.proofs[proof.proofId]? = none
  unconsumed : proof.proofId ∉ maps.consumedProofIds

/-- The commits of the operations. -/
inductive Planned (env : Environment) (store : AccessControlStore) (call : Call) :
    Commit → Prop where
  | create (requested grant : PermissionGrant) (reply : Reply)
      (hop : call.operation = .createGrant requested)
      (hnew : NewGrant env store.maps requested grant) :
      Planned env store call
        (grantCommit grant (createdAudit env call.now grant call.actorUra) .created reply)
  | revoke (grantId ownerUserUra : String) (reason : Option String) (existing : PermissionGrant)
      (reply : Reply) (hop : call.operation = .revokeGrant grantId ownerUserUra reason)
      (hexisting : store.maps.grants[grantId]? = some existing)
      (hstate : existing.state ≠ .revoked) :
      Planned env store call
        (grantCommit (revokedGrant existing (env.formatMillis call.now.decided) reason)
          (changedAudit env call.now existing
            (revokedGrant existing (env.formatMillis call.now.decided) reason) .revoked
            call.actorUra) .revoked reply)
  | consume (grantId : String) (existing : PermissionGrant)
      (hop : call.operation = .consumeOnceGrantIfApplicable grantId)
      (hexisting : store.maps.grants[grantId]? = some existing)
      (hstate : existing.state = .active) :
      Planned env store call
        (grantCommit (consumedGrant existing (env.formatMillis call.now.decided))
          (changedAudit env call.now existing
            (consumedGrant existing (env.formatMillis call.now.decided)) .consumed
            call.actorUra) .consumed
          (.consumedGrant (some (consumedGrant existing (env.formatMillis call.now.decided)))))
  | upsert (request : PermissionRequest)
      (hop : call.operation = .upsertPermissionRequest request)
      (hpending : request.status = .pending)
      (hvalid : validateRequestTransition env none request = .ok ())
      (hunmatched : ∀ existing ∈ store.maps.requests.values, existing.status = .pending →
        permissionRequestIdempotencyKey env existing ≠
          permissionRequestIdempotencyKey env request) :
      Planned env store call (requestCommit request .created (.request request))
  | resolve (requested request : PermissionRequest) (operation : RecordOperation)
      (hop : call.operation = .resolvePermissionRequest requested)
      (hid : request.requestId = requested.requestId)
      (hstep : RequestStep env store.maps request operation)
      (hauthority : validateResolutionAuthority env store.maps request = .ok ()) :
      Planned env store call (requestCommit request operation (.request request))
  | approveRepeated (requested : PermissionRequest)
      (requestedGrant grant existing : PermissionGrant)
      (operation : RecordOperation)
      (hop : call.operation = .resolvePermissionRequestWithGrant requested requestedGrant)
      (happroved : requested.status = .approved)
      (hnormalized : normalizeGrantForCreate env requestedGrant = .ok grant)
      (hresolves : validateGrantResolvesRequest grant requested = .ok ())
      (hfound : findIdempotentGrant env store.maps grant = some existing)
      (hid : existing.grantId = grant.grantId)
      (hstep : RequestStep env store.maps
        (grantApproval env call.now requested grant.grantId call.actorUra) operation) :
      Planned env store call
        (requestCommit (grantApproval env call.now requested grant.grantId call.actorUra) operation
          (.resolution ⟨grantApproval env call.now requested grant.grantId call.actorUra,
            some existing, none, true⟩))
  | approveWithGrant (requested : PermissionRequest) (requestedGrant grant : PermissionGrant)
      (operation : RecordOperation)
      (hop : call.operation = .resolvePermissionRequestWithGrant requested requestedGrant)
      (happroved : requested.status = .approved)
      (hresolves : validateGrantResolvesRequest grant requested = .ok ())
      (hnew : NewGrant env store.maps requestedGrant grant)
      (hstep : RequestStep env store.maps
        (grantApproval env call.now requested grant.grantId call.actorUra) operation) :
      Planned env store call
        (grantApprovalCommit (grantApproval env call.now requested grant.grantId call.actorUra)
          operation grant (createdAudit env call.now grant call.actorUra))
  | approveWithProof (requested : PermissionRequest) (proof : AuthorityProof)
      (operation : RecordOperation)
      (hop : call.operation = .resolvePermissionRequestWithAuthorityProof requested proof)
      (happroved : requested.status = .approved)
      (hresolves : validateProofResolvesRequest env proof requested = .ok ())
      (hnew : NewProof env store.maps proof)
      (hstep : RequestStep env store.maps
        (proofApproval env call.now requested proof.proofId call.actorUra) operation) :
      Planned env store call
        (proofApprovalCommit (proofApproval env call.now requested proof.proofId call.actorUra)
          operation proof)
  | putProof (proof : AuthorityProof) (hop : call.operation = .putAuthorityProof proof)
      (hnew : NewProof env store.maps proof) :
      Planned env store call (proofCommit proof)
  | consumeProof (proofId : String) (proof : AuthorityProof)
      (hop : call.operation = .consumeAuthorityProofOnce proofId)
      (hexisting : store.maps.proofs[proofId]? = some proof)
      (hunconsumed : proofId ∉ store.maps.consumedProofIds) :
      Planned env store call (consumedProofCommit proofId proof)
  | checkpoint (policy : AccessControlCompactionPolicy)
      (hop : call.operation = .compact policy)
      (hpolicy : validateCompactionPolicy policy = .ok ()) :
      Planned env store call
        (checkpointCommit (compactionCheckpoint env store call.now policy))

/-! ## Inversion of the plans -/

section Inversion

variable {env : Environment} {store : AccessControlStore} {call : Call} {c : Commit}

variable {grant : PermissionGrant} {grantId : String} {proof : AuthorityProof} {p : Plan}

theorem normalizeGrantForCreate_state {grant' : PermissionGrant}
    (h : normalizeGrantForCreate env grant = .ok grant') : grant'.state = .active := by
  simp only [normalizeGrantForCreate] at h
  split at h
  · split at h
    · cases h
    · cases h
      rfl
  · cases h
    rfl

theorem normalizeGrantForCreate_active {grant' : PermissionGrant}
    (h : normalizeGrantForCreate env grant = .ok grant') :
    { grant' with state := .active } = grant' := by
  rw [← normalizeGrantForCreate_state h]

theorem table_contains_eq_false {α : Type} {t : Table α} {k : String}
    (h : t.contains k = false) : t[k]? = none := by
  rw [Table.contains_eq_isSome] at h
  exact Option.isSome_eq_false_iff.1 h |> Option.isNone_iff_eq_none.1

theorem set_contains_eq_false {t : Std.ExtTreeSet String} {k : String}
    (h : t.contains k = false) : k ∉ t := by
  rw [Std.ExtTreeSet.mem_iff_contains, h]
  exact Bool.false_ne_true

theorem planned_createGrant (hop : call.operation = .createGrant grant)
    (h : createGrant env store call.now grant call.actorUra = .ok (.commit c)) :
    Planned env store call c := by
  simp only [createGrant] at h
  simp only [↓check_bind_eq_ok_iff, bind_eq_ok_iff] at h
  obtain ⟨g, hnorm, hvalid, h⟩ := h
  rw [normalizeGrantForCreate_active hnorm] at h
  split at h
  · cases h
  · rename_i hfind
    obtain ⟨hcontains, h⟩ := check_bind_eq_ok_iff.1 h
    cases h
    exact .create grant g _ hop
      ⟨hnorm, hvalid, hfind, table_contains_eq_false (bailIf_eq_ok_iff.1 hcontains)⟩

theorem planned_revokeGrant {owner : String} {reason : Option String}
    (hop : call.operation = .revokeGrant grantId owner reason)
    (h : revokeGrant env store call.now grantId owner call.actorUra reason = .ok (.commit c)) :
    Planned env store call c := by
  simp only [revokeGrant] at h
  split at h
  · cases h
  · rename_i existing hexisting
    split at h
    · cases h
    · split at h
      · cases h
      · rename_i hstate
        cases h
        exact .revoke grantId owner reason existing _ hop hexisting hstate

theorem planned_consumeOnce (hop : call.operation = .consumeOnceGrantIfApplicable grantId)
    (h : consumeOnceGrantIfApplicable env store call.now grantId call.actorUra = .ok (.commit c)) :
    Planned env store call c := by
  simp only [consumeOnceGrantIfApplicable] at h
  split at h
  · cases h
  · rename_i existing hexisting
    split at h
    · cases h
    · split at h
      · cases h
      · rename_i hstate
        cases h
        refine .consume grantId existing hop hexisting ?_
        simp only [Bool.or_eq_true, not_or, decide_eq_true_eq, not_not] at hstate
        exact hstate.1

theorem planned_upsert {request : PermissionRequest}
    (hop : call.operation = .upsertPermissionRequest request)
    (h : upsertPermissionRequest env store request = .ok (.commit c)) :
    Planned env store call c := by
  simp only [upsertPermissionRequest, check_bind_eq_ok_iff, bailIf_eq_ok_iff] at h
  obtain ⟨hpending, hvalid, h⟩ := h
  split at h
  · cases h
  · rename_i hfind
    cases h
    refine .upsert request hop (by simpa using hpending) hvalid ?_
    intro existing hmem hstatus hkey
    have hnone := List.find?_eq_none.1 hfind existing hmem
    simp [hstatus, hkey] at hnone

theorem planned_resolve {request : PermissionRequest}
    (hop : call.operation = .resolvePermissionRequest request)
    (h : resolvePermissionRequest env store call.now request call.actorUra = .ok (.commit c)) :
    Planned env store call c := by
  simp only [resolvePermissionRequest] at h
  simp only [↓check_bind_eq_ok_iff, bind_eq_ok_iff] at h
  obtain ⟨hvalid, hauthority, operation, hoperation, h⟩ := h
  cases h
  refine .resolve request _ operation hop ?_ ⟨hvalid, hoperation⟩ hauthority
  split <;> rfl

theorem planned_resolveWithGrant {request : PermissionRequest}
    (hop : call.operation = .resolvePermissionRequestWithGrant request grant)
    (h : resolvePermissionRequestWithGrant env store call.now request grant call.actorUra =
      .ok (.commit c)) : Planned env store call c := by
  simp only [resolvePermissionRequestWithGrant] at h
  simp only [↓check_bind_eq_ok_iff, bind_eq_ok_iff] at h
  obtain ⟨happroved, g, hnorm, hresolves, -, -, hvalid, hgrant, h⟩ := h
  have happroved : request.status = .approved := by simpa using happroved
  split at h
  · rename_i existing hfind
    simp only [↓check_bind_eq_ok_iff, bind_eq_ok_iff, bailIf_eq_ok_iff] at h
    obtain ⟨hid, operation, hoperation, h⟩ := h
    cases h
    refine .approveRepeated request grant g existing operation hop happroved hnorm hresolves hfind
      ?_ ⟨hvalid, hoperation⟩
    simp only [decide_eq_false_iff_not, not_not] at hid
    exact (Option.some.inj hid).symm
  · rename_i hfind
    simp only [↓check_bind_eq_ok_iff, bind_eq_ok_iff, bailIf_eq_ok_iff] at h
    obtain ⟨hcontains, operation, hoperation, h⟩ := h
    cases h
    exact .approveWithGrant request grant g operation hop happroved hresolves
      ⟨hnorm, hgrant, hfind, table_contains_eq_false hcontains⟩ ⟨hvalid, hoperation⟩

theorem newProof_of_requireNewProof (hvalid : validateAuthorityProofIdentity env proof = .ok ())
    (h : requireNewProof store.maps proof.proofId = .ok ()) : NewProof env store.maps proof := by
  simp only [requireNewProof, check_bind_eq_ok_iff, bailIf_eq_ok_iff] at h
  refine ⟨hvalid, table_contains_eq_false h.1, ?_⟩
  exact set_contains_eq_false h.2

theorem planned_resolveWithProof {request : PermissionRequest}
    (hop : call.operation = .resolvePermissionRequestWithAuthorityProof request proof)
    (h : resolvePermissionRequestWithAuthorityProof env store call.now request proof
      call.actorUra = .ok (.commit c)) : Planned env store call c := by
  simp only [resolvePermissionRequestWithAuthorityProof] at h
  simp only [↓check_bind_eq_ok_iff, bind_eq_ok_iff] at h
  obtain ⟨happroved, hidentity, hresolves, -, -, hvalid, hproof, operation, hoperation, h⟩ := h
  cases h
  exact .approveWithProof request proof operation hop (by simpa using happroved) hresolves
    (newProof_of_requireNewProof hidentity hproof) ⟨hvalid, hoperation⟩

theorem planned_putProof (hop : call.operation = .putAuthorityProof proof)
    (h : putAuthorityProof env store proof = .ok (.commit c)) : Planned env store call c := by
  simp only [putAuthorityProof, check_bind_eq_ok_iff] at h
  obtain ⟨hidentity, hproof, h⟩ := h
  cases h
  exact .putProof proof hop (newProof_of_requireNewProof hidentity hproof)

theorem planned_consumeProof {proofId : String}
    (hop : call.operation = .consumeAuthorityProofOnce proofId)
    (h : consumeAuthorityProofOnce store proofId = .ok (.commit c)) : Planned env store call c := by
  simp only [consumeAuthorityProofOnce] at h
  split at h
  · cases h
  · rename_i proof hproof
    simp only [check_bind_eq_ok_iff, bailIf_eq_ok_iff] at h
    obtain ⟨-, hconsumed, h⟩ := h
    cases h
    exact .consumeProof proofId proof hop hproof (set_contains_eq_false hconsumed)

theorem planned_compact {policy : AccessControlCompactionPolicy}
    (hop : call.operation = .compact policy)
    (h : compact env store call.now policy = .ok (.commit c)) : Planned env store call c := by
  simp only [compact, check_bind_eq_ok_iff] at h
  obtain ⟨hpolicy, h⟩ := h
  cases h
  exact .checkpoint policy hop hpolicy

/-- A commit of an operation is one of the planned ones. -/
theorem planned_of_plan (h : plan env store call = .ok (.commit c)) : Planned env store call c := by
  simp only [plan] at h
  cases hop : call.operation with
  | createGrant grant =>
    rw [hop] at h
    exact planned_createGrant hop h
  | revokeGrant grantId owner reason =>
    rw [hop] at h
    exact planned_revokeGrant hop h
  | consumeOnceGrantIfApplicable grantId =>
    rw [hop] at h
    exact planned_consumeOnce hop h
  | upsertPermissionRequest request =>
    rw [hop] at h
    exact planned_upsert hop h
  | resolvePermissionRequest request =>
    rw [hop] at h
    exact planned_resolve hop h
  | resolvePermissionRequestWithGrant request grant =>
    rw [hop] at h
    exact planned_resolveWithGrant hop h
  | resolvePermissionRequestWithAuthorityProof request proof =>
    rw [hop] at h
    exact planned_resolveWithProof hop h
  | putAuthorityProof proof =>
    rw [hop] at h
    exact planned_putProof hop h
  | consumeAuthorityProofOnce proofId =>
    rw [hop] at h
    exact planned_consumeProof hop h
  | compact policy =>
    rw [hop] at h
    exact planned_compact hop h

/-! What a plan of one operation is, for the operations that are followed through a run. -/

theorem plan_revokeGrant {owner : String} {reason : Option String}
    (hop : call.operation = .revokeGrant grantId owner reason) (h : plan env store call = .ok p) :
    ∃ existing, store.maps.grants[grantId]? = some existing ∧
      ((existing.state = .revoked ∧ p = .answer (.grant existing)) ∨
        ∃ revoked audit,
          revoked = revokedGrant existing (env.formatMillis call.now.decided) reason ∧
          p = .commit (grantCommit revoked audit .revoked (.grant revoked))) := by
  simp only [plan, hop, revokeGrant] at h
  split at h
  · cases h
  · rename_i existing hexisting
    refine ⟨existing, hexisting, ?_⟩
    split at h
    · cases h
    · split at h
      · rename_i hstate
        cases h
        exact Or.inl ⟨hstate, rfl⟩
      · cases h
        exact Or.inr ⟨_, _, rfl, rfl⟩

theorem plan_consumeOnce (hop : call.operation = .consumeOnceGrantIfApplicable grantId)
    (h : plan env store call = .ok p) :
    ∃ existing, store.maps.grants[grantId]? = some existing ∧
      (p = .answer (.consumedGrant none) ∨
        ∃ consumed audit, existing.state = .active ∧
          consumed = consumedGrant existing (env.formatMillis call.now.decided) ∧
          p = .commit (grantCommit consumed audit .consumed (.consumedGrant (some consumed)))) := by
  simp only [plan, hop, consumeOnceGrantIfApplicable] at h
  split at h
  · cases h
  · rename_i existing hexisting
    refine ⟨existing, hexisting, ?_⟩
    split at h
    · cases h
      exact Or.inl rfl
    · split at h
      · cases h
      · rename_i hstate
        cases h
        simp only [Bool.or_eq_true, not_or, decide_eq_true_eq, not_not] at hstate
        exact Or.inr ⟨_, _, hstate.1, rfl, rfl⟩

theorem plan_upsert {request : PermissionRequest}
    (hop : call.operation = .upsertPermissionRequest request) (h : plan env store call = .ok p) :
    (∃ existing, p = .answer (.request existing)) ∨
      (request.status = .pending ∧
        p = .commit (requestCommit request .created (.request request))) := by
  simp only [plan, hop, upsertPermissionRequest, check_bind_eq_ok_iff, bailIf_eq_ok_iff] at h
  obtain ⟨hpending, -, h⟩ := h
  split at h
  · cases h
    exact Or.inl ⟨_, rfl⟩
  · cases h
    exact Or.inr ⟨by simpa using hpending, rfl⟩

theorem plan_consumeProof {proofId : String}
    (hop : call.operation = .consumeAuthorityProofOnce proofId) (h : plan env store call = .ok p) :
    ∃ proof, proofId ∉ store.maps.consumedProofIds ∧
      p = .commit (consumedProofCommit proofId proof) := by
  simp only [plan, hop, consumeAuthorityProofOnce] at h
  split at h
  · cases h
  · simp only [check_bind_eq_ok_iff, bailIf_eq_ok_iff] at h
    obtain ⟨-, hconsumed, h⟩ := h
    cases h
    exact ⟨_, set_contains_eq_false hconsumed, rfl⟩

theorem plan_compact {policy : AccessControlCompactionPolicy}
    (hop : call.operation = .compact policy) (h : plan env store call = .ok p) :
    p = .commit (checkpointCommit (compactionCheckpoint env store call.now policy)) := by
  simp only [plan, hop, compact, check_bind_eq_ok_iff] at h
  cases h.2
  rfl

theorem Planned.entries_ne_nil (h : Planned env store call c) : c.entries ≠ [] := by
  cases h <;> exact List.cons_ne_nil _ _

end Inversion

/-! ## The effect of a call -/

/-- The commit of a call, if it gets as far as writing: the checks pass, the store does not answer
from what it has, and the actor is admissible. -/
def committed (env : Environment) (store : AccessControlStore) (call : Call) : Option Commit :=
  match validateRuntimeIdentityUra env call.actorUra "policy journal actor_ura" with
  | .error _ => none
  | .ok () =>
    match plan env store call with
    | .ok (.commit c) => some c
    | _ => none

/-- The records a call writes for a commit. -/
def callRecords (env : Environment) (store : AccessControlStore) (call : Call) (c : Commit) :
    List JournalRecord :=
  nextRecords env call.actorUra call.now.appended 0 store c.entries

theorem callRecords_length (env : Environment) (store : AccessControlStore) (call : Call)
    (c : Commit) : (callRecords env store call c).length = c.entries.length :=
  nextRecords_length _ _ _ _

theorem callRecords_entries (env : Environment) (store : AccessControlStore) (call : Call)
    (c : Commit) : (callRecords env store call c).map JournalRecord.entry = c.entries :=
  nextRecords_entries _ _ _ _

/-- What a call that writes does to the running store. -/
structure RunOutcome (env : Environment) (owner : String) (allowed : Option Nat) (r : Running)
    (J : List JournalRecord) (call : Call) (c : Commit) : Prop where
  journaled : Journaled env owner (run env allowed r call).1
    (J ++ (callRecords env r.store call c).take (linesWritten allowed c.entries.length))
  maps_eq : (run env allowed r call).1.store.maps =
    if completes allowed c.entries.length then c.finish r.store.maps else r.store.maps
  failed : completes allowed c.entries.length = false →
    (run env allowed r call).2 = .error writeError
  replied : completes allowed c.entries.length = true → c.lastCompactedAt = none →
    (run env allowed r call).2 = .ok (c.reply (run env allowed r call).1.store)
  last_eq : completes allowed c.entries.length = true →
    (run env allowed r call).1.store.lastSequence =
      lastSequenceOf r.store.lastSequence (callRecords env r.store call c)

section Run

variable {env : Environment} {owner : String} {allowed : Option Nat} {r : Running} {call : Call}
variable {J : List JournalRecord} {c : Commit}

theorem committed_eq_some (h : committed env r.store call = some c) :
    validateRuntimeIdentityUra env call.actorUra "policy journal actor_ura" = .ok () ∧
      plan env r.store call = .ok (.commit c) := by
  simp only [committed] at h
  split at h
  · cases h
  · rename_i hactor
    split at h
    · rename_i c' hplan
      cases h
      exact ⟨hactor, hplan⟩
    · cases h

theorem planned_of_committed (h : committed env r.store call = some c) :
    Planned env r.store call c :=
  planned_of_plan (committed_eq_some h).2

/-- A call that does not get as far as writing changes nothing. -/
theorem run_of_committed_none (h : committed env r.store call = none) :
    (run env allowed r call).1 = r := by
  simp only [committed] at h
  simp only [run]
  cases hplan : plan env r.store call with
  | error e => rfl
  | ok p =>
    cases p with
    | answer reply => rfl
    | commit c =>
      rw [hplan] at h
      cases hactor : validateRuntimeIdentityUra env call.actorUra "policy journal actor_ura" with
      | ok u =>
        rw [hactor] at h
        simp at h
      | error e =>
        -- the first append fails on the actor
        obtain ⟨entry, entries, hentries⟩ :=
          List.exists_cons_of_ne_nil (planned_of_plan hplan).entries_ne_nil
        simp [perform, hentries, appendAll, append, hactor]

theorem finishCommit_journaled (hj : Journaled env owner r J) :
    Journaled env owner (finishCommit allowed r c).1 J := by
  have hmanifest : ∀ compactedAt : String, validateManifest env
      { r.store.manifest with
        policyStore := { r.store.manifest.policyStore with lastCompactedAt := compactedAt } }
      owner = .ok () := by
    intro compactedAt
    rw [← hj.store_manifest]
    exact validateManifest_congr rfl rfl rfl rfl
  simp only [finishCommit]
  split
  · exact ⟨hj.holds, hj.chain, hj.numbered, hj.sealed_all, hj.store_manifest, hj.dir_manifest⟩
  · rename_i compactedAt _
    split
    · exact ⟨hj.holds, hj.chain, hj.numbered, hj.sealed_all, hmanifest compactedAt,
        hj.dir_manifest⟩
    · refine ⟨?_, hj.chain, hj.numbered, hj.sealed_all, hmanifest compactedAt,
        ⟨_, rfl, hmanifest compactedAt⟩⟩
      obtain ⟨hgrants, hrequests, hproofs, haudit⟩ := hj.holds
      exact ⟨hgrants, hrequests, hproofs, haudit⟩

theorem finishCommit_maps : (finishCommit allowed r c).1.store.maps = c.finish r.store.maps := by
  simp only [finishCommit]
  split
  · rfl
  · split <;> rfl

theorem finishCommit_lastSequence :
    (finishCommit allowed r c).1.store.lastSequence = r.store.lastSequence := by
  simp only [finishCommit]
  split
  · rfl
  · split <;> rfl

theorem finishCommit_reply (h : c.lastCompactedAt = none) :
    (finishCommit allowed r c).2 = .ok (c.reply (finishCommit allowed r c).1.store) := by
  simp only [finishCommit, h]

theorem run_of_plan (hplan : plan env r.store call = .ok (.commit c)) (allowed : Option Nat) :
    run env allowed r call =
      match appendAll env call.actorUra call.now.appended 0 allowed r c.entries with
      | (r, .error error) => (r, .error error)
      | (r, .ok allowed) => finishCommit allowed r c := by
  rw [run, hplan]
  rfl

/-- The effect of a call that writes, whichever of its writes succeed. -/
theorem run_spec (hj : Journaled env owner r J) (h : committed env r.store call = some c)
    (allowed : Option Nat) : RunOutcome env owner allowed r J call c := by
  obtain ⟨hactor, hplan⟩ := committed_eq_some h
  have happend := appendAll_spec call.now.appended hactor c.entries 0 allowed r J hj
  have hrun := run_of_plan hplan allowed
  obtain ⟨hjournal, hmaps, hresult, hlast⟩ := happend
  generalize appendAll env call.actorUra call.now.appended 0 allowed r c.entries = outcome
    at hrun hjournal hmaps hresult hlast
  obtain ⟨r', result⟩ := outcome
  simp only at hrun hjournal hmaps hresult hlast
  cases hdone : completes allowed c.entries.length with
  | false =>
    rw [hdone] at hresult
    simp only [Bool.false_eq_true, if_false] at hresult
    subst hresult
    simp only at hrun
    refine ⟨?_, ?_, ?_, ?_, ?_⟩
    · rw [hrun]
      exact hjournal
    · rw [hrun, hdone]
      exact hmaps
    · intro _
      rw [hrun]
    · intro hcomplete
      rw [hdone] at hcomplete
      cases hcomplete
    · intro hcomplete
      rw [hdone] at hcomplete
      cases hcomplete
  | true =>
    rw [hdone] at hresult
    simp only [if_true] at hresult
    subst hresult
    simp only at hrun
    refine ⟨?_, ?_, ?_, ?_, ?_⟩
    · rw [hrun]
      exact finishCommit_journaled hjournal
    · rw [hrun, hdone, finishCommit_maps, hmaps]
      rfl
    · intro hcomplete
      rw [hdone] at hcomplete
      cases hcomplete
    · intro _ hcompacted
      rw [hrun]
      exact finishCommit_reply hcompacted
    · intro _
      rw [hrun, finishCommit_lastSequence]
      exact hlast hdone

/-- A call that returns a value answered from what the store has, or made all its writes. -/
theorem run_eq_ok {reply : Reply} (hj : Journaled env owner r J)
    (h : (run env allowed r call).2 = .ok reply) :
    (plan env r.store call = .ok (.answer reply) ∧ (run env allowed r call).1 = r) ∨
      ∃ c, plan env r.store call = .ok (.commit c) ∧
        (run env allowed r call).1.store.maps = c.finish r.store.maps ∧
        (c.lastCompactedAt = none → reply = c.reply (run env allowed r call).1.store) := by
  cases hplan : plan env r.store call with
  | error e =>
    simp only [run, hplan, perform] at h
    cases h
  | ok p =>
    cases p with
    | answer answered =>
      simp only [run, hplan, perform] at h
      cases h
      refine Or.inl ⟨rfl, ?_⟩
      simp only [run, hplan, perform]
    | commit c =>
      cases hactor : validateRuntimeIdentityUra env call.actorUra "policy journal actor_ura" with
      | error e =>
        obtain ⟨entry, entries, hentries⟩ :=
          List.exists_cons_of_ne_nil (planned_of_plan hplan).entries_ne_nil
        simp [run, hplan, perform, hentries, appendAll, append, hactor] at h
      | ok u =>
        have hc : committed env r.store call = some c := by simp [committed, hactor, hplan]
        obtain ⟨-, hmaps, hfailed, hreplied, -⟩ := run_spec hj hc allowed
        cases hdone : completes allowed c.entries.length with
        | false =>
          rw [hfailed hdone] at h
          cases h
        | true =>
          rw [hdone] at hmaps
          refine Or.inr ⟨c, rfl, hmaps, fun hcompacted => ?_⟩
          rw [hreplied hdone hcompacted] at h
          exact (Except.ok.inj h).symm

end Run

end EasyNetDaemon.Persistence
