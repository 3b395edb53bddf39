import EasyNetDaemon.Persistence.PolicyPlans

/-!
# Replaying what was committed

`insertEntry` is what an accepted record does to the maps. The update an operation makes to the live
maps is the effect of its entries (`Planned.finish_eq`), so a journal that replays at all rebuilds
the maps the live store had. What replay has accepted is valid (`rebuild_valid`).
-/

namespace EasyNetDaemon.Persistence

open Library EasyNetDaemon.Core Admission

/-! ## The effect of an accepted record -/

/-- The effect of a record on the maps, without its checks. -/
def insertEntry (maps : PolicyMaps) (entry : Entry) : PolicyMaps :=
  match entry.payload with
  | .grant grant => maps.insertGrant grant
  | .request request => maps.insertRequest request
  | .proof proof =>
    if entry.operation = .consumed then maps.insertConsumed proof.proofId
    else maps.insertProof proof
  | .audit audit => maps.insertAudit audit
  | .checkpoint _ => maps

/-- The effect of a journal on the maps, without its checks. -/
def insertAll (maps : PolicyMaps) (J : List JournalRecord) : PolicyMaps :=
  (J.map JournalRecord.entry).foldl insertEntry maps

/-- Every value stands under its own id. -/
structure PolicyMaps.Keyed (maps : PolicyMaps) : Prop where
  grants : ∀ (k : String) grant, maps.grants[k]? = some grant → grant.grantId = k
  requests : ∀ (k : String) request, maps.requests[k]? = some request → request.requestId = k
  proofs : ∀ (k : String) proof, maps.proofs[k]? = some proof → proof.proofId = k

variable {J : List JournalRecord}

section Effect

variable {env : Environment} {maps maps' : PolicyMaps}

theorem applyRecord_eq_ok {record : JournalRecord} (h : applyRecord env maps record = .ok maps') :
    maps' = insertEntry maps record.entry := by
  simp only [applyRecord] at h
  simp only [insertEntry, JournalRecord.entry]
  split at h
  · rename_i grant _ hpayload
    obtain ⟨-, h⟩ := check_bind_eq_ok_iff.1 h
    cases h
    simp [hpayload]
  · rename_i request _ hpayload
    obtain ⟨-, h⟩ := check_bind_eq_ok_iff.1 h
    cases h
    simp [hpayload]
  · rename_i proof _ hpayload
    obtain ⟨-, h⟩ := check_bind_eq_ok_iff.1 h
    split at h
    · rename_i hoperation
      obtain ⟨-, h⟩ := check_bind_eq_ok_iff.1 h
      cases h
      simp [hpayload, hoperation]
    · rename_i hoperation
      obtain ⟨-, h⟩ := check_bind_eq_ok_iff.1 h
      cases h
      simp [hpayload, hoperation]
    · cases h
  · rename_i audit _ hpayload
    obtain ⟨-, h⟩ := check_bind_eq_ok_iff.1 h
    cases h
    simp [hpayload]
  · rename_i checkpoint _ hpayload
    obtain ⟨-, h⟩ := check_bind_eq_ok_iff.1 h
    cases h
    simp [hpayload]
  · cases h

theorem insertEntry_grants (maps : PolicyMaps) (entry : Entry) (id : String) :
    (insertEntry maps entry).grants[id]? =
      match entry.payload with
      | .grant grant => if grant.grantId = id then some grant else maps.grants[id]?
      | _ => maps.grants[id]? := by
  obtain ⟨kind, recordId, operation, payload⟩ := entry
  cases payload with
  | grant grant => exact Table.getElem?_insert_eq _ _ _ _
  | proof proof =>
    simp only [insertEntry]
    split <;> rfl
  | _ => rfl

theorem insertEntry_requests (maps : PolicyMaps) (entry : Entry) (id : String) :
    (insertEntry maps entry).requests[id]? =
      match entry.payload with
      | .request request => if request.requestId = id then some request else maps.requests[id]?
      | _ => maps.requests[id]? := by
  obtain ⟨kind, recordId, operation, payload⟩ := entry
  cases payload with
  | request request => exact Table.getElem?_insert_eq _ _ _ _
  | proof proof =>
    simp only [insertEntry]
    split <;> rfl
  | _ => rfl

theorem mem_insertEntry_consumed {entry : Entry} {id : String} :
    id ∈ (insertEntry maps entry).consumedProofIds ↔
      id ∈ maps.consumedProofIds ∨
        ∃ proof, entry.payload = .proof proof ∧ entry.operation = .consumed ∧
          proof.proofId = id := by
  obtain ⟨kind, recordId, operation, payload⟩ := entry
  cases payload with
  | proof proof =>
    simp only [insertEntry, Payload.proof.injEq, exists_eq_left']
    split
    · rename_i hoperation
      simp only [PolicyMaps.insertConsumed, Std.ExtTreeSet.mem_insert,
        Std.LawfulEqCmp.compare_eq_iff_eq, hoperation, true_and]
      exact or_comm
    · rename_i hoperation
      simp [PolicyMaps.insertProof, hoperation]
  | grant grant => simp [insertEntry, PolicyMaps.insertGrant]
  | request request => simp [insertEntry, PolicyMaps.insertRequest]
  | audit audit => simp [insertEntry, PolicyMaps.insertAudit]
  | checkpoint checkpoint => simp [insertEntry]

theorem insertAll_append (J K : List JournalRecord) :
    insertAll maps (J ++ K) = insertAll (insertAll maps J) K := by
  simp [insertAll]

/-- The plain effect of the records of a call is that of its entries. -/
theorem insertAll_callRecords (store : AccessControlStore) (call : Call) (c : Commit) :
    insertAll maps (callRecords env store call c) = c.entries.foldl insertEntry maps := by
  rw [insertAll, callRecords_entries]

/-- Records that are accepted one after the other have their plain effect. -/
theorem foldChecked_applyRecord_eq (h : foldChecked (applyRecord env) maps J = .ok maps') :
    maps' = insertAll maps J := by
  induction J generalizing maps with
  | nil =>
    cases h
    rfl
  | cons record J ih =>
    obtain ⟨next, hnext, hrest⟩ := bind_eq_ok_iff.1 h
    rw [ih hrest, applyRecord_eq_ok hnext]
    rfl

theorem rebuild_eq_ok_iff :
    rebuild env J = .ok maps ↔
      foldChecked (applyRecord env) .empty J = .ok maps ∧
        validateAllResolutionAuthorities env maps = .ok () := by
  simp only [rebuild, bind_eq_ok_iff, ↓check_bind_eq_ok_iff]
  constructor
  · rintro ⟨built, hfold, hall, h⟩
    cases h
    exact ⟨hfold, hall⟩
  · rintro ⟨hfold, hall⟩
    exact ⟨maps, hfold, hall, rfl⟩

theorem rebuild_eq_insertAll (h : rebuild env J = .ok maps) : maps = insertAll .empty J :=
  foldChecked_applyRecord_eq (rebuild_eq_ok_iff.1 h).1

/-- After a journal that rebuilds `maps`, more records rebuild what they make of `maps`. -/
theorem rebuild_append {K : List JournalRecord} (h : rebuild env J = .ok maps) :
    rebuild env (J ++ K) = (do
      let built ← foldChecked (applyRecord env) maps K
      validateAllResolutionAuthorities env built
      .ok built) := by
  rw [rebuild, foldChecked_append, (rebuild_eq_ok_iff.1 h).1]
  rfl

theorem PolicyMaps.Keyed.empty : PolicyMaps.Keyed .empty := by
  constructor <;> intro k v h <;> simp [PolicyMaps.empty] at h

theorem PolicyMaps.Keyed.insertEntry (hk : maps.Keyed) (entry : Entry) :
    (insertEntry maps entry).Keyed := by
  obtain ⟨hgrants, hrequests, hproofs⟩ := hk
  simp only [Persistence.insertEntry]
  split
  · refine ⟨?_, hrequests, hproofs⟩
    intro k grant h
    simp only [PolicyMaps.insertGrant, Table.getElem?_insert_eq] at h
    split at h
    · rename_i hid
      cases h
      exact hid
    · exact hgrants k grant h
  · refine ⟨hgrants, ?_, hproofs⟩
    intro k request h
    simp only [PolicyMaps.insertRequest, Table.getElem?_insert_eq] at h
    split at h
    · rename_i hid
      cases h
      exact hid
    · exact hrequests k request h
  · split
    · exact ⟨hgrants, hrequests, hproofs⟩
    · refine ⟨hgrants, hrequests, ?_⟩
      intro k proof h
      simp only [PolicyMaps.insertProof, Table.getElem?_insert_eq] at h
      split at h
      · rename_i hid
        cases h
        exact hid
      · exact hproofs k proof h
  · exact ⟨hgrants, hrequests, hproofs⟩
  · exact ⟨hgrants, hrequests, hproofs⟩

theorem PolicyMaps.Keyed.insertEntries (hk : maps.Keyed) (entries : List Entry) :
    (entries.foldl Persistence.insertEntry maps).Keyed := by
  induction entries generalizing maps with
  | nil => exact hk
  | cons entry entries ih => exact ih (hk.insertEntry entry)

/-- The live update of a commit is the effect of its entries. -/
theorem Planned.finish_eq {store : AccessControlStore} {call : Call} {c : Commit}
    (h : Planned env store call c) (hk : store.maps.Keyed) (maps : PolicyMaps) :
    c.finish maps = c.entries.foldl insertEntry maps := by
  cases h with
  | consumeProof proofId proof hop hexisting hunconsumed =>
    have hid := hk.proofs proofId proof hexisting
    subst hid
    rfl
  | _ => rfl

/-- A commit keeps every value under its own id. -/
theorem Planned.finish_keyed {store : AccessControlStore} {call : Call} {c : Commit}
    (h : Planned env store call c) (hk : store.maps.Keyed) : (c.finish store.maps).Keyed := by
  rw [h.finish_eq hk]
  exact hk.insertEntries c.entries

end Effect

/-! ## What replay has validated -/

/-- The grants and the proofs of the maps pass their checks. -/
structure PolicyMaps.Valid (env : Environment) (maps : PolicyMaps) : Prop where
  grants : ∀ (k : String) grant, maps.grants[k]? = some grant → validateGrant env grant = .ok ()
  proofs : ∀ (k : String) proof, maps.proofs[k]? = some proof →
    validateAuthorityProofIdentity env proof = .ok ()

section Validated

variable {env : Environment} {maps maps' : PolicyMaps}

theorem PolicyMaps.Valid.applyRecord {record : JournalRecord} (hv : maps.Valid env)
    (h : applyRecord env maps record = .ok maps') : maps'.Valid env := by
  obtain ⟨hgrants, hproofs⟩ := hv
  simp only [Persistence.applyRecord] at h
  split at h
  · obtain ⟨hcheck, h⟩ := check_bind_eq_ok_iff.1 h
    cases h
    refine ⟨?_, hproofs⟩
    intro k grant hk
    simp only [PolicyMaps.insertGrant, Table.getElem?_insert_eq] at hk
    split at hk
    · cases hk
      exact (check_bind_eq_ok_iff.1 hcheck).1
    · exact hgrants k grant hk
  · obtain ⟨-, h⟩ := check_bind_eq_ok_iff.1 h
    cases h
    exact ⟨hgrants, hproofs⟩
  · obtain ⟨hcheck, h⟩ := check_bind_eq_ok_iff.1 h
    split at h
    · obtain ⟨-, h⟩ := check_bind_eq_ok_iff.1 h
      cases h
      exact ⟨hgrants, hproofs⟩
    · obtain ⟨-, h⟩ := check_bind_eq_ok_iff.1 h
      cases h
      refine ⟨hgrants, ?_⟩
      intro k proof hk
      simp only [PolicyMaps.insertProof, Table.getElem?_insert_eq] at hk
      split at hk
      · cases hk
        exact hcheck
      · exact hproofs k proof hk
    · cases h
  · obtain ⟨-, h⟩ := check_bind_eq_ok_iff.1 h
    cases h
    exact ⟨hgrants, hproofs⟩
  · obtain ⟨-, h⟩ := check_bind_eq_ok_iff.1 h
    cases h
    exact ⟨hgrants, hproofs⟩
  · cases h

/-- A rebuilt state has valid grants and proofs, each under its own id. -/
theorem rebuild_valid (h : rebuild env J = .ok maps) : maps.Valid env ∧ maps.Keyed := by
  refine ⟨?_, ?_⟩
  · refine foldChecked_invariant (P := fun built => built.Valid env)
      (fun _ _ _ hv => hv.applyRecord)
      ?_ (rebuild_eq_ok_iff.1 h).1
    constructor <;> intro k v hk <;> simp [PolicyMaps.empty] at hk
  · rw [rebuild_eq_insertAll h]
    exact PolicyMaps.Keyed.empty.insertEntries _

variable {grant : PermissionGrant}

/-- A revoked grant is as valid as the grant was. -/
theorem validateGrant_revoked (now : String) (reason : Option String)
    (h : validateGrant env grant = .ok ()) :
    validateGrant env (revokedGrant grant now reason) = .ok () := by
  simp only [validateGrant, check_bind_eq_ok_iff, revokedGrant] at h ⊢
  obtain ⟨hfields, howner, hprincipal, hcreator, hcallee, hsubject, hability, hconstraints, h⟩ := h
  refine ⟨hfields, howner, hprincipal, hcreator, hcallee, hsubject, hability, hconstraints, ?_⟩
  split at h
  · cases h
  · simp only [check_bind_eq_ok_iff] at h ⊢
    obtain ⟨hexpires, httl, hsession, -, hreview, hreviewed, hused⟩ := h
    exact ⟨hexpires, httl, hsession, by simp, hreview, hreviewed, hused⟩

/-- A consumed grant is valid when the time of its use parses. -/
theorem validateGrant_consumed {now : String} (hnow : (env.parseRfc3339 now).isSome)
    (h : validateGrant env grant = .ok ()) :
    validateGrant env (consumedGrant grant now) = .ok () := by
  simp only [validateGrant, check_bind_eq_ok_iff, consumedGrant] at h ⊢
  obtain ⟨hfields, howner, hprincipal, hcreator, hcallee, hsubject, hability, hconstraints, h⟩ := h
  refine ⟨hfields, howner, hprincipal, hcreator, hcallee, hsubject, hability, hconstraints, ?_⟩
  split at h
  · cases h
  · simp only [check_bind_eq_ok_iff] at h ⊢
    obtain ⟨hexpires, httl, hsession, -, hreview, hreviewed, -⟩ := h
    refine ⟨hexpires, httl, hsession, by simp, hreview, hreviewed, ?_⟩
    simpa [requireTime] using hnow

theorem validateGrant_owner (h : validateGrant env grant = .ok ()) (field : String) :
    validateUserPrincipalUra env grant.ownerUserUra field = .ok () := by
  simp only [validateGrant, check_bind_eq_ok_iff] at h
  exact validateUserPrincipalUra_field field h.2.1

/-! ## Approved requests and what backs them -/

theorem validateAllResolutionAuthorities_eq_ok_iff :
    validateAllResolutionAuthorities env maps = .ok () ↔
      ∀ (k : String) request, maps.requests[k]? = some request →
        validateResolutionAuthority env maps request = .ok () := by
  simp only [validateAllResolutionAuthorities, checkAll_eq_ok_iff, Table.mem_values_iff]
  constructor
  · intro h k request hk
    exact h request ⟨k, hk⟩
  · rintro h request ⟨k, hk⟩
    exact h k request hk

/-- An approved request stays backed while the grant and the proof it names stay. -/
theorem validateResolutionAuthority_mono {request : PermissionRequest}
    (h : validateResolutionAuthority env maps request = .ok ())
    (hgrants : ∀ id, request.createdGrantId = some id → ∀ grant,
      maps.grants[id]? = some grant → maps'.grants[id]? = some grant)
    (hproofs : ∀ id, request.authorityProofId = some id → ∀ proof,
      maps.proofs[id]? = some proof → maps'.proofs[id]? = some proof) :
    validateResolutionAuthority env maps' request = .ok () := by
  simp only [validateResolutionAuthority] at h ⊢
  split at h
  · rename_i hstatus
    simp [hstatus]
  · rename_i hstatus
    rw [if_neg hstatus]
    split at h
    · rename_i grantId hgrantId hproofId
      split at h
      · cases h
      · rename_i grant hgrant
        simp only [hgrants grantId hgrantId grant hgrant]
        exact h
    · rename_i proofId hgrantId hproofId
      split at h
      · cases h
      · rename_i proof hproof
        simp only [hproofs proofId hproofId proof hproof]
        exact h
    · cases h
    · cases h

end Validated

end EasyNetDaemon.Persistence
