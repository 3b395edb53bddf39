import EasyNetDaemon.Persistence.PolicyReplay

/-!
# When the records of a call replay

Whether the new records of a call replay is decided by the state before the call and its arguments:
`ReplaySafe` is the condition, and `rebuild_append_iff` says that it is exact.
-/

namespace EasyNetDaemon.Persistence

open Library EasyNetDaemon.Core Admission

/-- The condition on the maps and on the arguments of a call under which its records replay: the
audit record names no all-zero principal, a revoked or consumed grant backs no approved request,
and a new permission request does not reuse an id. -/
def ReplaySafe (env : Environment) (maps : PolicyMaps) : Operation → Prop
  | .createGrant grant => isAllZeroPrincipalId grant.principalId = false
  | .revokeGrant grantId _ _ | .consumeOnceGrantIfApplicable grantId =>
    ∀ grant, maps.grants[grantId]? = some grant →
      isAllZeroPrincipalId grant.principalId = false ∧
        ∀ (k : String) request, maps.requests[k]? = some request → request.status = .approved →
          request.createdGrantId ≠ some grantId
  | .upsertPermissionRequest request => maps.requests[request.requestId]? = none
  | .resolvePermissionRequestWithGrant _ grant =>
    (findIdempotentGrant env maps grant).isSome ∨ isAllZeroPrincipalId grant.principalId = false
  | _ => True

/-- The records replay on the maps and end with the maps `maps'`, in which every approved request
is backed. -/
def ReplaysTo (env : Environment) (maps : PolicyMaps) (K : List JournalRecord)
    (maps' : PolicyMaps) : Prop :=
  foldChecked (applyRecord env) maps K = .ok maps' ∧
    validateAllResolutionAuthorities env maps' = .ok ()

variable {grant : PermissionGrant}

variable {requested existing : PermissionGrant}

section Replays

variable {env : Environment} {store : AccessControlStore} {call : Call} {maps : PolicyMaps}

/-! A new record goes through the checks of its kind. -/

variable {proof : AuthorityProof} {reply : Reply}

section NextRecord

variable (actorUra recordId : String) (t : Instant) (operation : RecordOperation)

theorem applyRecord_grant (grant : PermissionGrant) :
    applyRecord env maps
        (nextRecord env store actorUra t ⟨.permissionGrant, recordId, operation, .grant grant⟩) =
      (checkGrantRecord env maps grant >>= fun _ => .ok (maps.insertGrant grant)) := rfl

theorem applyRecord_audit (audit : GrantAuditRecord) :
    applyRecord env maps
        (nextRecord env store actorUra t ⟨.audit, recordId, operation, .audit audit⟩) =
      (checkAuditRecord env audit >>= fun _ => .ok (maps.insertAudit audit)) := rfl

theorem applyRecord_request (request : PermissionRequest) :
    applyRecord env maps (nextRecord env store actorUra t
        ⟨.permissionRequest, recordId, operation, .request request⟩) =
      (validateRequestTransition env maps.requests[request.requestId]? request >>= fun _ =>
        .ok (maps.insertRequest request)) := rfl

theorem applyRecord_newProof (hnew : NewProof env maps proof) :
    applyRecord env maps
        (nextRecord env store actorUra t ⟨.authorityProof, recordId, .created, .proof proof⟩) =
      .ok (maps.insertProof proof) := by
  have hcontains : maps.consumedProofIds.contains proof.proofId = false := by
    rw [← Bool.not_eq_true, ← Std.ExtTreeSet.mem_iff_contains]
    exact hnew.unconsumed
  simp [applyRecord, nextRecord, hnew.valid, hcontains, bailIf, bind, Except.bind]

theorem applyRecord_consumedProof (hvalid : validateAuthorityProofIdentity env proof = .ok ())
    (hexisting : maps.proofs[proof.proofId]? = some proof) :
    applyRecord env maps
        (nextRecord env store actorUra t ⟨.authorityProof, recordId, .consumed, .proof proof⟩) =
      .ok (maps.insertConsumed proof.proofId) := by
  have hcontains : maps.proofs.contains proof.proofId = true := by
    rw [Table.contains_eq_isSome, hexisting]
    rfl
  simp [applyRecord, nextRecord, hvalid, hcontains, bailIf, bind, Except.bind]

theorem applyRecord_checkpoint (checkpoint : CompactionCheckpoint) :
    applyRecord env maps
        (nextRecord env store actorUra t ⟨.checkpoint, recordId, operation,
          .checkpoint checkpoint⟩) =
      (checkCheckpointRecord checkpoint (store.lastSequence + 1) >>= fun _ => .ok maps) := rfl

end NextRecord

theorem replay_grantCommit {audit : GrantAuditRecord} {operation : RecordOperation} :
    foldChecked (applyRecord env) maps
        (callRecords env store call (grantCommit grant audit operation reply)) =
        .ok ((maps.insertGrant grant).insertAudit audit) ↔
      checkGrantRecord env maps grant = .ok () ∧ checkAuditRecord env audit = .ok () := by
  simp only [callRecords, grantCommit, grantEntries, nextRecords, foldChecked,
    applyRecord_grant, applyRecord_audit]
  cases checkGrantRecord env maps grant <;> cases checkAuditRecord env audit <;>
    simp [bind, Except.bind]

theorem normalizeGrantForCreate_key {grant' : PermissionGrant}
    (h : normalizeGrantForCreate env grant = .ok grant') :
    grantKeyMaterial grant' = grantKeyMaterial grant := by
  simp only [normalizeGrantForCreate] at h
  split at h
  · split at h
    · cases h
    · cases h
      rfl
  · cases h
    rfl

/-- The audit record of a valid grant by an admissible actor replays unless its principal is the
all-zero placeholder. -/
theorem checkAuditRecord_iff {actorUra : String} (mutation : GrantMutation)
    (previousHash newHash : String) (t : Instant) (hvalid : validateGrant env grant = .ok ())
    (hactor : validateRuntimeIdentityUra env actorUra "policy journal actor_ura" = .ok ()) :
    checkAuditRecord env (auditRecord env grant mutation actorUra previousHash newHash t) =
        .ok () ↔ isAllZeroPrincipalId grant.principalId = false := by
  simp [checkAuditRecord, check_bind_eq_ok_iff, auditRecord, validateGrant_owner hvalid,
    validateRuntimeIdentityUra_field _ hactor]

theorem checkGrantRecord_of_fresh (hvalid : validateGrant env grant = .ok ())
    (hfresh : maps.grants[grant.grantId]? = none) : checkGrantRecord env maps grant = .ok () := by
  simp [checkGrantRecord, check_bind_eq_ok_iff, hvalid, hfresh]

theorem checkGrantRecord_of_inactive (hvalid : validateGrant env grant = .ok ())
    (hstate : grant.state ≠ .active) : checkGrantRecord env maps grant = .ok () := by
  simp only [checkGrantRecord, check_bind_eq_ok_iff, hvalid, bailIf_eq_ok_iff, true_and]
  cases maps.grants[grant.grantId]? <;> simp [hstate]

theorem validateGrantResolvesRequest_active {request : PermissionRequest}
    (h : validateGrantResolvesRequest grant request = .ok ()) : grant.state = .active := by
  simp only [validateGrantResolvesRequest, check_bind_eq_ok_iff, bailIf_eq_ok_iff,
    Bool.or_eq_false_iff, decide_eq_false_iff_not, not_not] at h
  exact h.2.2.1.2

/-- A new grant leaves the approved requests backed. -/
theorem authorities_insertGrant_fresh (hall : validateAllResolutionAuthorities env maps = .ok ())
    (hfresh : maps.grants[grant.grantId]? = none) (audit : GrantAuditRecord) :
    validateAllResolutionAuthorities env ((maps.insertGrant grant).insertAudit audit) =
      .ok () := by
  rw [validateAllResolutionAuthorities_eq_ok_iff] at hall ⊢
  intro k request hk
  refine validateResolutionAuthority_mono (hall k request hk) ?_ (fun _ _ _ h => h)
  intro id _ existing hexisting
  have hne : grant.grantId ≠ id := by
    rintro rfl
    rw [hfresh] at hexisting
    cases hexisting
  exact (Table.getElem?_insert_ne maps.grants grant hne).trans hexisting

/-- A grant that stops being active leaves the approved requests backed exactly when it backs none
of them. -/
theorem authorities_insertGrant_inactive_iff
    (hall : validateAllResolutionAuthorities env maps = .ok ()) (hstate : grant.state ≠ .active)
    (audit : GrantAuditRecord) :
    validateAllResolutionAuthorities env ((maps.insertGrant grant).insertAudit audit) = .ok () ↔
      ∀ (k : String) request, maps.requests[k]? = some request → request.status = .approved →
        request.createdGrantId ≠ some grant.grantId := by
  rw [validateAllResolutionAuthorities_eq_ok_iff] at hall ⊢
  constructor
  · intro h k request hk happroved hbacked
    have hrequest := h k request hk
    have hgrant : ((maps.insertGrant grant).insertAudit audit).grants[grant.grantId]? =
        some grant := by
      simp [PolicyMaps.insertAudit, PolicyMaps.insertGrant]
    cases hproof : request.authorityProofId with
    | none =>
      simp only [validateResolutionAuthority, happroved, hbacked, hproof, ne_eq,
        not_true_eq_false, ↓reduceIte, hgrant] at hrequest
      exact hstate (validateGrantResolvesRequest_active hrequest)
    | some id => simp [validateResolutionAuthority, happroved, hbacked, hproof] at hrequest
  · intro h k request hk
    by_cases happroved : request.status = .approved
    · refine validateResolutionAuthority_mono (hall k request hk) ?_ (fun _ _ _ h => h)
      intro id hid existing hexisting
      have hne : grant.grantId ≠ id := by
        rintro rfl
        exact h k request hk happroved hid
      exact (Table.getElem?_insert_ne maps.grants grant hne).trans hexisting
    · simp [validateResolutionAuthority, happroved]

/-- A recorded request leaves all approved requests backed when it is backed itself. -/
theorem authorities_insertRequest {request : PermissionRequest}
    (hall : validateAllResolutionAuthorities env maps = .ok ())
    (hrequest : validateResolutionAuthority env maps request = .ok ()) :
    validateAllResolutionAuthorities env (maps.insertRequest request) = .ok () := by
  rw [validateAllResolutionAuthorities_eq_ok_iff] at hall ⊢
  intro k existing hk
  simp only [PolicyMaps.insertRequest, Table.getElem?_insert_eq] at hk
  split at hk
  · cases hk
    exact hrequest
  · exact hall k existing hk

/-- A new proof leaves the approved requests backed. -/
theorem authorities_insertProof_fresh (hall : validateAllResolutionAuthorities env maps = .ok ())
    (hfresh : maps.proofs[proof.proofId]? = none) :
    validateAllResolutionAuthorities env (maps.insertProof proof) = .ok () := by
  rw [validateAllResolutionAuthorities_eq_ok_iff] at hall ⊢
  intro k request hk
  refine validateResolutionAuthority_mono (hall k request hk) (fun _ _ _ h => h) ?_
  intro id _ existing hexisting
  have hne : proof.proofId ≠ id := by
    rintro rfl
    rw [hfresh] at hexisting
    cases hexisting
  exact (Table.getElem?_insert_ne maps.proofs proof hne).trans hexisting

/-! One lemma for each shape of commit. -/

variable (hactor : validateRuntimeIdentityUra env call.actorUra "policy journal actor_ura" = .ok ())
variable (hall : validateAllResolutionAuthorities env maps = .ok ())

include hactor hall

omit hall in
/-- The audit record of a new grant is accepted unless its principal is the placeholder. -/
theorem NewGrant.audit_iff (hnew : NewGrant env maps requested grant) :
    checkAuditRecord env (createdAudit env call.now grant call.actorUra) = .ok () ↔
      isAllZeroPrincipalId requested.principalId = false := by
  have hprincipal : grant.principalId = requested.principalId :=
    congrArg GrantKeyMaterial.principalId (normalizeGrantForCreate_key hnew.normalized)
  rw [createdAudit, checkAuditRecord_iff _ _ _ _ hnew.valid hactor, hprincipal]

theorem replays_newGrant (hnew : NewGrant env maps requested grant) :
    ReplaysTo env maps
        (callRecords env store call
          (grantCommit grant (createdAudit env call.now grant call.actorUra) .created reply))
        ((maps.insertGrant grant).insertAudit (createdAudit env call.now grant call.actorUra)) ↔
      isAllZeroPrincipalId requested.principalId = false := by
  rw [ReplaysTo, replay_grantCommit, hnew.audit_iff hactor]
  exact ⟨fun h => h.1.2, fun h => ⟨⟨checkGrantRecord_of_fresh hnew.valid hnew.fresh, h⟩,
    authorities_insertGrant_fresh hall hnew.fresh _⟩⟩

theorem replays_inactiveGrant {mutation : GrantMutation} {operation : RecordOperation}
    (hvalid : validateGrant env grant = .ok ()) (hstate : grant.state ≠ .active) :
    ReplaysTo env maps
        (callRecords env store call
          (grantCommit grant (changedAudit env call.now existing grant mutation call.actorUra)
            operation reply))
        ((maps.insertGrant grant).insertAudit
          (changedAudit env call.now existing grant mutation call.actorUra)) ↔
      isAllZeroPrincipalId grant.principalId = false ∧
        ∀ (k : String) request, maps.requests[k]? = some request → request.status = .approved →
          request.createdGrantId ≠ some grant.grantId := by
  have haudit := checkAuditRecord_iff mutation (grantHash env existing) (grantHash env grant)
    call.now.audited hvalid hactor
  rw [ReplaysTo, replay_grantCommit, changedAudit, haudit,
    authorities_insertGrant_inactive_iff hall hstate]
  simp only [checkGrantRecord_of_inactive hvalid hstate, true_and]

omit hactor in
theorem replays_request {request : PermissionRequest} {operation : RecordOperation}
    (hauthority : validateResolutionAuthority env maps request = .ok ()) :
    ReplaysTo env maps (callRecords env store call (requestCommit request operation reply))
        (maps.insertRequest request) ↔
      validateRequestTransition env maps.requests[request.requestId]? request = .ok () := by
  simp only [ReplaysTo, callRecords, requestCommit, nextRecords, foldChecked, applyRecord_request,
    authorities_insertRequest hall hauthority, and_true]
  cases validateRequestTransition env maps.requests[request.requestId]? request <;>
    simp [bind, Except.bind]

theorem replays_grantApproval {request : PermissionRequest} {operation : RecordOperation}
    (hnew : NewGrant env maps requested grant)
    (hvalid : validateRequestTransition env maps.requests[request.requestId]? request = .ok ())
    (happroved : request.status = .approved)
    (hgrantId : request.createdGrantId = some grant.grantId)
    (hproofId : request.authorityProofId = none)
    (hresolves : validateGrantResolvesRequest grant request = .ok ()) :
    ReplaysTo env maps
        (callRecords env store call
          (grantApprovalCommit request operation grant
            (createdAudit env call.now grant call.actorUra)))
        (((maps.insertRequest request).insertGrant grant).insertAudit
          (createdAudit env call.now grant call.actorUra)) ↔
      isAllZeroPrincipalId requested.principalId = false := by
  have hcheck : checkGrantRecord env (maps.insertRequest request) grant = .ok () :=
    checkGrantRecord_of_fresh hnew.valid hnew.fresh
  have hkept := authorities_insertGrant_fresh hall hnew.fresh
    (createdAudit env call.now grant call.actorUra)
  have hbacked : validateResolutionAuthority env
      ((maps.insertGrant grant).insertAudit (createdAudit env call.now grant call.actorUra))
      request = .ok () := by
    have hgrant : ((maps.insertGrant grant).insertAudit
        (createdAudit env call.now grant call.actorUra)).grants[grant.grantId]? = some grant := by
      simp [PolicyMaps.insertAudit, PolicyMaps.insertGrant]
    simp only [validateResolutionAuthority, happroved, hgrantId, hproofId, ne_eq,
      not_true_eq_false, ↓reduceIte, hgrant]
    exact hresolves
  have hfinal : validateAllResolutionAuthorities env (((maps.insertRequest request).insertGrant
      grant).insertAudit (createdAudit env call.now grant call.actorUra)) = .ok () :=
    authorities_insertRequest hkept hbacked
  simp only [ReplaysTo, hfinal, and_true, callRecords, grantApprovalCommit, grantEntries,
    nextRecords, foldChecked, applyRecord_request, applyRecord_grant, applyRecord_audit, hvalid]
  rw [← hnew.audit_iff hactor]
  cases checkAuditRecord env (createdAudit env call.now grant call.actorUra) <;>
    simp [bind, Except.bind, hcheck]

omit hactor in
theorem replays_proofApproval {request : PermissionRequest} {operation : RecordOperation}
    (hnew : NewProof env maps proof)
    (hvalid : validateRequestTransition env maps.requests[request.requestId]? request = .ok ())
    (happroved : request.status = .approved) (hgrantId : request.createdGrantId = none)
    (hproofId : request.authorityProofId = some proof.proofId)
    (hresolves : validateProofResolvesRequest env proof request = .ok ()) :
    ReplaysTo env maps
      (callRecords env store call (proofApprovalCommit request operation proof))
      ((maps.insertRequest request).insertProof proof) := by
  have hnew' : NewProof env (maps.insertRequest request) proof :=
    ⟨hnew.valid, hnew.fresh, hnew.unconsumed⟩
  have hkept := authorities_insertProof_fresh hall hnew.fresh
  have hbacked : validateResolutionAuthority env (maps.insertProof proof) request = .ok () := by
    have hproof : (maps.insertProof proof).proofs[proof.proofId]? = some proof := by
      simp [PolicyMaps.insertProof]
    simp only [validateResolutionAuthority, happroved, hgrantId, hproofId, ne_eq,
      not_true_eq_false, ↓reduceIte, hproof]
    exact hresolves
  have hfinal : validateAllResolutionAuthorities env
      ((maps.insertRequest request).insertProof proof) = .ok () :=
    authorities_insertRequest hkept hbacked
  refine ⟨?_, hfinal⟩
  simp only [callRecords, proofApprovalCommit, nextRecords, foldChecked, applyRecord_request,
    applyRecord_newProof _ _ _ hnew', hvalid, bind, Except.bind]

omit hactor in
theorem replays_newProof (hnew : NewProof env maps proof) :
    ReplaysTo env maps (callRecords env store call (proofCommit proof))
      (maps.insertProof proof) := by
  refine ⟨?_, authorities_insertProof_fresh hall hnew.fresh⟩
  simp only [callRecords, proofCommit, nextRecords, foldChecked, applyRecord_newProof _ _ _ hnew,
    bind, Except.bind]

omit hactor in
theorem replays_consumedProof (hvalid : validateAuthorityProofIdentity env proof = .ok ())
    (hexisting : maps.proofs[proof.proofId]? = some proof) :
    ReplaysTo env maps (callRecords env store call (consumedProofCommit proof.proofId proof))
      (maps.insertConsumed proof.proofId) := by
  refine ⟨?_, hall⟩
  simp only [callRecords, consumedProofCommit, nextRecords, foldChecked,
    applyRecord_consumedProof _ _ _ hvalid hexisting, bind, Except.bind]

omit hactor in
theorem replays_checkpoint {policy : AccessControlCompactionPolicy}
    (hpolicy : validateCompactionPolicy policy = .ok ()) :
    ReplaysTo env maps
      (callRecords env store call
        (checkpointCommit (compactionCheckpoint env store call.now policy)))
      maps := by
  have hcheck : checkCheckpointRecord (compactionCheckpoint env store call.now policy)
      (store.lastSequence + 1) = .ok () := by
    simp only [checkCheckpointRecord, check_bind_eq_ok_iff, bailIf_eq_ok_iff]
    exact ⟨by simp [compactionCheckpoint], hpolicy⟩
  refine ⟨?_, hall⟩
  simp only [callRecords, checkpointCommit, nextRecords, foldChecked, applyRecord_checkpoint,
    hcheck, bind, Except.bind]

end Replays

/-! ## The exact condition -/

section Exact

variable {env : Environment} {store : AccessControlStore} {call : Call} {c : Commit}

/-- A request can only be recorded as new under an unused id. -/
theorem validateRequestTransition_pending_iff {previous : Option PermissionRequest}
    {request : PermissionRequest} (hpending : request.status = .pending)
    (hvalid : validateRequestTransition env none request = .ok ()) :
    validateRequestTransition env previous request = .ok () ↔ previous = none := by
  constructor
  · intro h
    cases previous with
    | none => rfl
    | some previous =>
      exfalso
      simp only [validateRequestTransition, check_bind_eq_ok_iff] at h
      obtain ⟨-, -, -, -, -, -, -, -, -, h⟩ := h
      obtain ⟨operation, hoperation, -⟩ := bind_eq_ok_iff.1 h
      simp only [requestTransitionOperation, hpending] at hoperation
      split at hoperation <;> cases hoperation
  · rintro rfl
    exact hvalid

/-- The grant that answers a repetition is an active grant of the store, and agrees with the
requested one on the hashed fields. -/
theorem findIdempotentGrant_eq_some (hlaws : env.Lawful) (hk : store.maps.Keyed)
    (hfound : findIdempotentGrant env store.maps grant = some existing) :
    store.maps.grants[existing.grantId]? = some existing ∧ existing.state = .active ∧
      grantKeyMaterial existing = grantKeyMaterial grant := by
  obtain ⟨k, hkey⟩ := Table.mem_values_iff.1 (List.mem_of_find?_eq_some hfound)
  have hmatch := List.find?_some hfound
  simp only [Bool.and_eq_true, decide_eq_true_eq] at hmatch
  refine ⟨?_, hmatch.1, HashMaterial.grantKey.inj (hlaws.sha256_injective hmatch.2)⟩
  rw [hk.grants k existing hkey]
  exact hkey

theorem findIdempotentGrant_normalized (h : normalizeGrantForCreate env requested = .ok grant) :
    findIdempotentGrant env store.maps grant = findIdempotentGrant env store.maps requested := by
  have hkey : grantIdempotencyKey env grant = grantIdempotencyKey env requested := by
    rw [grantIdempotencyKey, normalizeGrantForCreate_key h]
    rfl
  rw [findIdempotentGrant, hkey]
  rfl

/-- A repeated approval is backed by the grant that was found: it agrees with the requested one on
everything an approval compares. -/
theorem validateResolutionAuthority_repeated (call : Call) (hlaws : env.Lawful)
    (hk : store.maps.Keyed) {requested : PermissionRequest}
    (happroved : requested.status = .approved) (hstate : grant.state = .active)
    (hresolves : validateGrantResolvesRequest grant requested = .ok ())
    (hfound : findIdempotentGrant env store.maps grant = some existing)
    (hid : existing.grantId = grant.grantId) :
    validateResolutionAuthority env store.maps
      (grantApproval env call.now requested grant.grantId call.actorUra) = .ok () := by
  obtain ⟨hexisting, hactive, hmaterial⟩ := findIdempotentGrant_eq_some hlaws hk hfound
  rw [hid] at hexisting
  simp only [grantKeyMaterial, GrantKeyMaterial.mk.injEq] at hmaterial
  obtain ⟨howner, hkind, hprincipal, htoken, hcallee, hsubject, hability, hactions, -,
    heffect, -⟩ :=
    hmaterial
  have hsame : validateGrantResolvesRequest existing
      (grantApproval env call.now requested grant.grantId call.actorUra) =
        validateGrantResolvesRequest grant requested := by
    simp only [validateGrantResolvesRequest, howner, hkind, hprincipal, htoken, hcallee, hsubject,
      hability, hactions, heffect, hactive, hstate]
    rfl
  simp only [validateResolutionAuthority, grantApproval, normalizeTerminalResolutionFields,
    happroved, ne_eq, not_true_eq_false, ↓reduceIte, hexisting]
  exact hsame.trans hresolves

/-- The records of a call replay on the live maps, and to the maps after the call, exactly when the
call is `ReplaySafe`. -/
theorem Planned.replaysTo_iff (h : Planned env store call c) (hlaws : env.Lawful)
    (hactor : validateRuntimeIdentityUra env call.actorUra "policy journal actor_ura" = .ok ())
    (hv : store.maps.Valid env) (hk : store.maps.Keyed)
    (hall : validateAllResolutionAuthorities env store.maps = .ok ()) :
    ReplaysTo env store.maps (callRecords env store call c) (c.finish store.maps) ↔
      ReplaySafe env store.maps call.operation := by
  cases h with
  | create requested grant reply hop hnew =>
    rw [hop]
    exact replays_newGrant hactor hall hnew
  | revoke grantId owner reason existing reply hop hexisting hstate =>
    have hvalid := validateGrant_revoked (env.formatMillis call.now.decided) reason
      (hv.grants grantId existing hexisting)
    rw [hop]
    refine (replays_inactiveGrant hactor hall hvalid (by simp [revokedGrant])).trans ?_
    have hid := hk.grants grantId existing hexisting
    simp [ReplaySafe, hexisting, revokedGrant, hid]
  | consume grantId existing hop hexisting hstate =>
    have hvalid := validateGrant_consumed (hlaws.parse_formatMillis call.now.decided)
      (hv.grants grantId existing hexisting)
    rw [hop]
    refine (replays_inactiveGrant hactor hall hvalid (by simp [consumedGrant])).trans ?_
    have hid := hk.grants grantId existing hexisting
    simp [ReplaySafe, hexisting, consumedGrant, hid]
  | upsert request hop hpending hvalid hunmatched =>
    have hauthority : validateResolutionAuthority env store.maps request = .ok () := by
      simp [validateResolutionAuthority, hpending]
    rw [hop]
    exact (replays_request hall hauthority).trans
      (validateRequestTransition_pending_iff hpending hvalid)
  | resolve requested request operation hop hid hstep hauthority =>
    rw [hop]
    exact iff_of_true ((replays_request hall hauthority).2 hstep.valid) trivial
  | approveRepeated requested requestedGrant grant existing operation hop happroved hnormalized
      hresolves hfound hid hstep =>
    have hauthority := validateResolutionAuthority_repeated call hlaws hk happroved
      (normalizeGrantForCreate_state hnormalized) hresolves hfound hid
    have hrepeated : findIdempotentGrant env store.maps requestedGrant = some existing :=
      (findIdempotentGrant_normalized hnormalized).symm.trans hfound
    rw [hop]
    refine iff_of_true ((replays_request hall hauthority).2 hstep.valid) ?_
    simp [ReplaySafe, hrepeated]
  | approveWithGrant requested requestedGrant grant operation hop happroved hresolves hnew hstep =>
    have hfresh : findIdempotentGrant env store.maps requestedGrant = none :=
      (findIdempotentGrant_normalized hnew.normalized).symm.trans hnew.unmatched
    rw [hop]
    refine (replays_grantApproval hactor hall hnew hstep.valid happroved rfl rfl hresolves).trans ?_
    simp [ReplaySafe, hfresh]
  | approveWithProof requested proof operation hop happroved hresolves hnew hstep =>
    rw [hop]
    exact iff_of_true
      (replays_proofApproval hall hnew hstep.valid happroved rfl rfl hresolves) trivial
  | putProof proof hop hnew =>
    rw [hop]
    exact iff_of_true (replays_newProof hall hnew) trivial
  | consumeProof proofId proof hop hexisting hunconsumed =>
    have hid := hk.proofs proofId proof hexisting
    subst hid
    rw [hop]
    exact iff_of_true (replays_consumedProof hall (hv.proofs _ proof hexisting) hexisting) trivial
  | checkpoint policy hop hpolicy =>
    rw [hop]
    exact iff_of_true (replays_checkpoint hall hpolicy) trivial

/-- After a journal that rebuilds the live maps, the journal with the records of a call rebuilds the
maps after the call exactly when the call is `ReplaySafe`; otherwise it does not rebuild. -/
theorem rebuild_append_iff {J : List JournalRecord} (hlaws : env.Lawful)
    (hrebuild : rebuild env J = .ok store.maps) (hplanned : Planned env store call c)
    (hactor : validateRuntimeIdentityUra env call.actorUra "policy journal actor_ura" = .ok ()) :
    rebuild env (J ++ callRecords env store call c) = .ok (c.finish store.maps) ↔
      ReplaySafe env store.maps call.operation := by
  obtain ⟨hv, hk⟩ := rebuild_valid hrebuild
  rw [← hplanned.replaysTo_iff hlaws hactor hv hk (rebuild_eq_ok_iff.1 hrebuild).2, ReplaysTo,
    rebuild_append hrebuild, bind_eq_ok_iff]
  constructor
  · rintro ⟨built, hfold, h⟩
    obtain ⟨hbuilt, h⟩ := check_bind_eq_ok_iff.1 h
    cases h
    exact ⟨hfold, hbuilt⟩
  · rintro ⟨hfold, hbuilt⟩
    exact ⟨_, hfold, check_bind_eq_ok_iff.2 ⟨hbuilt, rfl⟩⟩

/-- If a call is not `ReplaySafe`, the journal with its records does not rebuild at all. -/
theorem rebuild_append_ne_ok {J : List JournalRecord} (hlaws : env.Lawful)
    (hrebuild : rebuild env J = .ok store.maps) (hplanned : Planned env store call c)
    (hactor : validateRuntimeIdentityUra env call.actorUra "policy journal actor_ura" = .ok ())
    (hbroken : ¬ ReplaySafe env store.maps call.operation) (maps : PolicyMaps) :
    rebuild env (J ++ callRecords env store call c) ≠ .ok maps := by
  intro h
  have heffect := rebuild_eq_insertAll h
  rw [insertAll_append, ← rebuild_eq_insertAll hrebuild, insertAll_callRecords,
    ← hplanned.finish_eq (rebuild_valid hrebuild).2] at heffect
  rw [heffect] at h
  exact hbroken ((rebuild_append_iff hlaws hrebuild hplanned hactor).1 h)

end Exact

end EasyNetDaemon.Persistence
