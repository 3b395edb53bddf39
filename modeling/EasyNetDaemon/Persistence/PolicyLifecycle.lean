import EasyNetDaemon.Library.StepRun
import EasyNetDaemon.Persistence.ReplayFidelity

/-!
# Lifecycle of requests, grants and proofs

A move is a call, of whose writes some may fail, or a successful reopen. Over any run of moves a
grant that was revoked or consumed is never matched again, and a grant or a proof is consumed at
most once (`inactiveStays`, `consumedOnce`). A resolved request stays as it is unless an upsert
reuses its id: `upsert_permission_request` checks the request as a new one and overwrites the
resolved record (`lifecycle_monotone_iff`).

The live maps may lag behind the journal, when a record was written and the call failed after it.
What has to survive a reopen is therefore stated between the live maps and the plain effect of the
journal (`Lags`).
-/

namespace EasyNetDaemon.Persistence

open Library EasyNetDaemon.Core Admission

/-! ## Runs of moves -/

/-- A call, of whose writes `allowed` succeed, or a reopen. -/
inductive Move
  | call (allowed : Option Nat) (call : Call)
  | reopen (now : Instant)

/-- The store after a move; a reopen may fail. -/
def makeMove (env : Environment) (owner : String) (r : Running) : Move → Option Running
  | .call allowed call => some (run env allowed r call).1
  | .reopen now => (openOrCreateAt env owner now r.dir).toOption

/-- `Reaches r moves n r'`: the run of the moves from `r` is at `r'` after `n` moves. -/
def Reaches (env : Environment) (owner : String) (r : Running) (moves : List Move) (n : Nat)
    (r' : Running) : Prop :=
  runSteps (makeMove env owner) r (moves.take n) = some r'

/-- Move `n` of the run is a call of the operation that returns the reply. -/
def Returns (env : Environment) (owner : String) (r : Running) (moves : List Move) (n : Nat)
    (operation : Operation) (reply : Reply) : Prop :=
  ∃ r' allowed call, Reaches env owner r moves n r' ∧ moves[n]? = some (.call allowed call) ∧
    call.operation = operation ∧ (run env allowed r' call).2 = .ok reply

/-- A resolved request stays as it is. -/
def TerminalStays (env : Environment) (owner : String) (r : Running) (moves : List Move) : Prop :=
  ∀ m n r₁ r₂, m ≤ n → Reaches env owner r moves m r₁ → Reaches env owner r moves n r₂ →
    ∀ (id : String) request, r₁.store.maps.requests[id]? = some request →
      request.status.isTerminal = true → r₂.store.maps.requests[id]? = some request

/-- A grant that was revoked or consumed by move `m` is not matched at any time after it. -/
def InactiveStays (env : Environment) (owner : String) (r : Running) (moves : List Move) : Prop :=
  ∀ m n r' grantId, m < n → Reaches env owner r moves n r' →
    ((∃ grantOwner reason reply,
        Returns env owner r moves m (.revokeGrant grantId grantOwner reason) reply) ∨
      ∃ grant, Returns env owner r moves m (.consumeOnceGrantIfApplicable grantId)
        (.consumedGrant (some grant))) →
    ∀ input effect found, find env.parseRfc3339 r'.store.maps.grants.values input effect =
      some found → found.grantId ≠ grantId

/-- A grant is consumed at most once, and so is a proof. -/
def ConsumedOnce (env : Environment) (owner : String) (r : Running) (moves : List Move) : Prop :=
  (∀ m n grantId grant grant', m < n →
      Returns env owner r moves m (.consumeOnceGrantIfApplicable grantId)
        (.consumedGrant (some grant)) →
      ¬ Returns env owner r moves n (.consumeOnceGrantIfApplicable grantId)
        (.consumedGrant (some grant'))) ∧
    ∀ m n proofId reply reply', m < n →
      Returns env owner r moves m (.consumeAuthorityProofOnce proofId) reply →
      ¬ Returns env owner r moves n (.consumeAuthorityProofOnce proofId) reply'

/-- The call is an upsert that is accepted, completes, and reuses the id of a resolved request. -/
def RevivesRequest (env : Environment) (store : AccessControlStore) (allowed : Option Nat)
    (call : Call) : Prop :=
  ∃ request existing, call.operation = .upsertPermissionRequest request ∧
    store.maps.requests[request.requestId]? = some existing ∧
    existing.status.isTerminal = true ∧ (committed env store call).isSome ∧
    completes allowed 1 = true

/-! ## The live maps and the journal -/

/-- What the live maps have given up, the other maps have given up too: grants that are no longer
active and consumed proofs. -/
structure Lags (live written : PolicyMaps) : Prop where
  grants : ∀ (id : String) grant, live.grants[id]? = some grant → grant.state ≠ .active →
    ∃ grant', written.grants[id]? = some grant' ∧ grant'.state ≠ .active
  consumed : ∀ id ∈ live.consumedProofIds, id ∈ written.consumedProofIds

/-- A grant that an entry writes is new to the maps or not active. -/
def EntryFits (maps : PolicyMaps) (entry : Entry) : Prop :=
  ∀ grant, entry.payload = .grant grant →
    maps.grants[grant.grantId]? = none ∨ grant.state ≠ .active

variable {id : String} {grant : PermissionGrant}

section Lagging

variable {live written : PolicyMaps}

theorem Lags.refl (maps : PolicyMaps) : Lags maps maps :=
  ⟨fun _ grant h hstate => ⟨grant, h, hstate⟩, fun _ h => h⟩

theorem Lags.trans {later : PolicyMaps} (h : Lags live written) (h' : Lags written later) :
    Lags live later := by
  constructor
  · intro id grant hgrant hstate
    obtain ⟨grant', hgrant', hstate'⟩ := h.grants id grant hgrant hstate
    exact h'.grants id grant' hgrant' hstate'
  · intro id hid
    exact h'.consumed id (h.consumed id hid)

/-- The same entry in both maps. -/
theorem Lags.insertEntry (h : Lags live written) (entry : Entry) :
    Lags (insertEntry live entry) (insertEntry written entry) := by
  constructor
  · intro id grant hgrant hstate
    rw [insertEntry_grants] at hgrant ⊢
    split at hgrant
    · split at hgrant
      · rename_i hid
        rw [if_pos hid]
        exact ⟨grant, hgrant, hstate⟩
      · rename_i hid
        rw [if_neg hid]
        exact h.grants id grant hgrant hstate
    · exact h.grants id grant hgrant hstate
  · intro id hid
    rw [mem_insertEntry_consumed] at hid ⊢
    exact hid.imp_left (h.consumed id)

/-- An entry that only the journal has: it is new to the live maps or gives something up. -/
theorem Lags.insertEntry_written (h : Lags live written) {entry : Entry}
    (hfits : EntryFits live entry) : Lags live (Persistence.insertEntry written entry) := by
  constructor
  · intro id grant hgrant hstate
    rw [insertEntry_grants]
    split
    · rename_i new hpayload
      split
      · rename_i hid
        rcases hfits new hpayload with hnone | hinactive
        · rw [hid, hgrant] at hnone
          cases hnone
        · exact ⟨new, rfl, hinactive⟩
      · exact h.grants id grant hgrant hstate
    · exact h.grants id grant hgrant hstate
  · intro id hid
    exact mem_insertEntry_consumed.2 (Or.inl (h.consumed id hid))

theorem Lags.foldl_insertEntry (h : Lags live written) (entries : List Entry) :
    Lags (entries.foldl Persistence.insertEntry live)
      (entries.foldl Persistence.insertEntry written) := by
  induction entries generalizing live written with
  | nil => exact h
  | cons entry entries ih => exact ih (h.insertEntry entry)

theorem Lags.foldl_insertEntry_written (h : Lags live written) {entries : List Entry}
    (hfits : ∀ entry ∈ entries, EntryFits live entry) :
    Lags live (entries.foldl Persistence.insertEntry written) := by
  induction entries generalizing written with
  | nil => exact h
  | cons entry entries ih =>
    exact ih (h.insertEntry_written (hfits entry List.mem_cons_self)) fun entry hentry =>
      hfits entry (List.mem_cons_of_mem _ hentry)

/-- Entries that fit leave what was given up as it is. -/
theorem lags_foldl_insertEntry {maps : PolicyMaps} {entries : List Entry}
    (hfits : ∀ entry ∈ entries, EntryFits maps entry) :
    Lags maps (entries.foldl Persistence.insertEntry maps) :=
  (Lags.refl maps).foldl_insertEntry_written hfits

/-- A request in the maps after some entries was there before them or is written by one of them. -/
theorem foldl_insertEntry_requests {maps : PolicyMaps} {entries : List Entry}
    {request : PermissionRequest}
    (h : (entries.foldl Persistence.insertEntry maps).requests[id]? = some request) :
    maps.requests[id]? = some request ∨
      ∃ entry ∈ entries, entry.payload = .request request ∧ request.requestId = id := by
  induction entries generalizing maps with
  | nil => exact Or.inl h
  | cons entry entries ih =>
    rcases ih h with hmaps | ⟨later, hlater, hrecord⟩
    · rw [insertEntry_requests] at hmaps
      split at hmaps
      · rename_i new hpayload
        split at hmaps
        · rename_i hid
          cases hmaps
          exact Or.inr ⟨entry, List.mem_cons_self, hpayload, hid⟩
        · exact Or.inl hmaps
      · exact Or.inl hmaps
    · exact Or.inr ⟨later, List.mem_cons_of_mem _ hlater, hrecord⟩

/-- Entries without a request of this id keep the request. -/
theorem foldl_insertEntry_requests_of_ne {maps : PolicyMaps} {entries : List Entry}
    (h : ∀ entry ∈ entries, ∀ request, entry.payload = .request request → request.requestId ≠ id) :
    (entries.foldl Persistence.insertEntry maps).requests[id]? = maps.requests[id]? := by
  induction entries generalizing maps with
  | nil => rfl
  | cons entry entries ih =>
    rw [List.foldl_cons, ih fun entry hentry => h entry (List.mem_cons_of_mem _ hentry),
      insertEntry_requests]
    split
    · rename_i request hpayload
      rw [if_neg (h entry List.mem_cons_self request hpayload)]
    · rfl

end Lagging

/-! ## What the commits write -/

section Commits

variable {env : Environment} {store : AccessControlStore} {call : Call} {c : Commit}

/-- What the checks of a call have established about one of its entries. -/
def EntryChecked (env : Environment) (store : AccessControlStore) (call : Call) (c : Commit)
    (entry : Entry) : Prop :=
  match entry.payload with
  | .grant grant => store.maps.grants[grant.grantId]? = none ∨ grant.state ≠ .active
  | .request request =>
    (call.operation = .upsertPermissionRequest request ∧ request.status = .pending ∧
        c.entries.length = 1) ∨
      ∃ operation, RequestStep env store.maps request operation
  | _ => True

theorem grantEntries_checked {audit : GrantAuditRecord} {operation : RecordOperation}
    {entry : Entry} (hentry : entry ∈ grantEntries grant audit operation)
    (h : store.maps.grants[grant.grantId]? = none ∨ grant.state ≠ .active) :
    EntryChecked env store call c entry := by
  simp only [grantEntries, List.mem_cons, List.not_mem_nil, or_false] at hentry
  rcases hentry with rfl | rfl
  · exact h
  · trivial

theorem Planned.entry_checked (h : Planned env store call c) :
    ∀ entry ∈ c.entries, EntryChecked env store call c entry := by
  intro entry hentry
  cases h with
  | create requested grant reply hop hnew =>
    exact grantEntries_checked hentry (Or.inl hnew.fresh)
  | revoke grantId owner reason existing reply hop hexisting hstate =>
    exact grantEntries_checked hentry (Or.inr (by simp [revokedGrant]))
  | consume grantId existing hop hexisting hstate =>
    exact grantEntries_checked hentry (Or.inr (by simp [consumedGrant]))
  | upsert request hop hpending hvalid hunmatched =>
    cases List.mem_singleton.1 hentry
    exact Or.inl ⟨hop, hpending, rfl⟩
  | resolve requested request operation hop hid hstep hauthority =>
    cases List.mem_singleton.1 hentry
    exact Or.inr ⟨operation, hstep⟩
  | approveRepeated requested requestedGrant grant existing operation hop happroved hnormalized
      hresolves hfound hid hstep =>
    cases List.mem_singleton.1 hentry
    exact Or.inr ⟨operation, hstep⟩
  | approveWithGrant requested requestedGrant grant operation hop happroved hresolves hnew hstep =>
    rcases List.mem_cons.1 hentry with rfl | hentry
    · exact Or.inr ⟨operation, hstep⟩
    · exact grantEntries_checked hentry (Or.inl hnew.fresh)
  | approveWithProof requested proof operation hop happroved hresolves hnew hstep =>
    rcases List.mem_cons.1 hentry with rfl | hentry
    · exact Or.inr ⟨operation, hstep⟩
    · cases List.mem_singleton.1 hentry
      trivial
  | putProof proof hop hnew =>
    cases List.mem_singleton.1 hentry
    trivial
  | consumeProof proofId proof hop hexisting hunconsumed =>
    cases List.mem_singleton.1 hentry
    trivial
  | checkpoint policy hop hpolicy =>
    cases List.mem_singleton.1 hentry
    trivial

theorem Planned.entry_fits (h : Planned env store call c) :
    ∀ entry ∈ c.entries, EntryFits store.maps entry := by
  intro entry hentry grant hpayload
  have hchecked := h.entry_checked entry hentry
  rw [EntryChecked, hpayload] at hchecked
  exact hchecked

/-- No request record follows a resolved one. -/
theorem requestTransitionOperation_terminal {previous request : PermissionRequest}
    {operation : RecordOperation} (hterminal : previous.status.isTerminal = true) :
    requestTransitionOperation (some previous) request ≠ .ok operation := by
  have hstatus : previous.status ≠ .pending := by
    intro h
    rw [h] at hterminal
    cases hterminal
  simp [requestTransitionOperation, hstatus]

/-- A commit keeps a resolved request, unless it is an upsert that reuses the id. -/
theorem Planned.finish_terminal (h : Planned env store call c) (hk : store.maps.Keyed)
    {request : PermissionRequest} (hrequest : store.maps.requests[id]? = some request)
    (hterminal : request.status.isTerminal = true)
    (hupsert : ∀ new, call.operation = .upsertPermissionRequest new → new.requestId = id →
      c.entries.length ≠ 1) : (c.finish store.maps).requests[id]? = some request := by
  rw [h.finish_eq hk]
  -- no entry of the commit is a request record with this id
  have hother : ∀ entry ∈ c.entries, ∀ new, entry.payload = .request new → new.requestId ≠ id := by
    intro entry hentry new hpayload hid
    have hchecked := h.entry_checked entry hentry
    rw [EntryChecked, hpayload] at hchecked
    rcases hchecked with ⟨hop, -, hlength⟩ | ⟨operation, hstep⟩
    · exact hupsert new hop hid hlength
    · have hoperation := hstep.operation_eq
      rw [hid, hrequest] at hoperation
      exact requestTransitionOperation_terminal hterminal hoperation
  rw [foldl_insertEntry_requests_of_ne hother]
  exact hrequest

end Commits

/-! ## A resolved request in the journal -/

section Replayed

variable {env : Environment} {maps maps' : PolicyMaps} {request : PermissionRequest}

/-- An accepted record keeps a resolved request. -/
theorem applyRecord_terminal {record : JournalRecord}
    (h : applyRecord env maps record = .ok maps') (hterminal : request.status.isTerminal = true)
    (hrequest : maps.requests[id]? = some request) : maps'.requests[id]? = some request := by
  rw [applyRecord_eq_ok h, insertEntry_requests]
  split
  · rename_i new hpayload
    split
    · rename_i hid
      exfalso
      have hpayload : record.payload = .request new := hpayload
      cases hkind : record.recordKind with
      | permissionRequest =>
        simp only [applyRecord, hkind, hpayload] at h
        obtain ⟨htransition, -⟩ := check_bind_eq_ok_iff.1 h
        simp only [validateRequestTransition, check_bind_eq_ok_iff] at htransition
        obtain ⟨-, -, -, -, -, -, -, -, -, htransition⟩ := htransition
        obtain ⟨operation, hoperation, -⟩ := bind_eq_ok_iff.1 htransition
        rw [hid, hrequest] at hoperation
        exact requestTransitionOperation_terminal hterminal hoperation
      | _ => simp [applyRecord, hkind, hpayload] at h
    · exact hrequest
  · exact hrequest

/-- A resolved request that is written in a journal that replays is what the replay ends with. -/
theorem foldChecked_terminal {J : List JournalRecord} {record : JournalRecord}
    (h : foldChecked (applyRecord env) maps J = .ok maps') (hrecord : record ∈ J)
    (hpayload : record.payload = .request request) (hterminal : request.status.isTerminal = true) :
    maps'.requests[request.requestId]? = some request := by
  obtain ⟨before, after, rfl⟩ := List.append_of_mem hrecord
  rw [foldChecked_append] at h
  obtain ⟨built, -, h⟩ := bind_eq_ok_iff.1 h
  obtain ⟨next, hnext, h⟩ := bind_eq_ok_iff.1 h
  refine foldChecked_invariant (P := fun built => built.requests[request.requestId]? = some request)
    (fun _ _ _ hrequest happly => applyRecord_terminal happly hterminal hrequest) ?_ h
  rw [applyRecord_eq_ok hnext, insertEntry_requests]
  simp [JournalRecord.entry, hpayload]

end Replayed

/-! ## One move -/

/-- The journal behind a running store has all it has given up and all its requests. -/
structure Consistent (env : Environment) (owner : String) (r : Running) (J : List JournalRecord) :
    Prop where
  journaled : Journaled env owner r J
  keyed : r.store.maps.Keyed
  recorded : ∀ (id : String) request, r.store.maps.requests[id]? = some request →
    ∃ record ∈ J, record.payload = .request request ∧ request.requestId = id
  lags : Lags r.store.maps (insertAll .empty J)

section OneMove

variable {env : Environment} {owner : String} {r r' : Running} {J : List JournalRecord}

/-- A rebuilt store is consistent with the journal it was rebuilt from. -/
theorem Consistent.of_rebuild (hj : Journaled env owner r J)
    (hrebuild : rebuild env J = .ok r.store.maps) : Consistent env owner r J := by
  have heffect := rebuild_eq_insertAll hrebuild
  refine ⟨hj, (rebuild_valid hrebuild).2, ?_, ?_⟩
  · intro id request hrequest
    rw [heffect, insertAll] at hrequest
    rcases foldl_insertEntry_requests hrequest with hempty | ⟨entry, hentry, hpayload, hid⟩
    · cases (Table.getElem?_empty_eq id).symm.trans hempty
    · obtain ⟨record, hrecord, rfl⟩ := List.mem_map.1 hentry
      exact ⟨record, hrecord, hpayload, hid⟩
  · rw [← heffect]
    exact Lags.refl _

/-- The maps after a call that writes, next to what its records make of other maps. -/
theorem run_committed_cases {call : Call} {c : Commit} (hc : Consistent env owner r J)
    (hcommitted : committed env r.store call = some c) (allowed : Option Nat) :
    (completes allowed c.entries.length = true ∧
        (run env allowed r call).1.store.maps = c.finish r.store.maps ∧
        Journaled env owner (run env allowed r call).1 (J ++ callRecords env r.store call c)) ∨
      (completes allowed c.entries.length = false ∧
        (run env allowed r call).1.store.maps = r.store.maps ∧
        ∃ K, K <+: callRecords env r.store call c ∧
          Journaled env owner (run env allowed r call).1 (J ++ K)) := by
  obtain ⟨hjournal, hmaps, -, -, -⟩ := run_spec hc.journaled hcommitted allowed
  cases hdone : completes allowed c.entries.length with
  | true =>
    have hall : c.entries.length ≤ linesWritten allowed c.entries.length := by
      cases allowed with
      | none => exact Nat.le_refl _
      | some n =>
        simp only [completes, decide_eq_true_eq] at hdone
        simp only [linesWritten]
        omega
    rw [List.take_of_length_le ((callRecords_length _ _ _ _).trans_le hall)] at hjournal
    rw [hdone] at hmaps
    exact Or.inl ⟨rfl, hmaps, hjournal⟩
  | false =>
    rw [hdone] at hmaps
    exact Or.inr ⟨rfl, hmaps, _, List.take_prefix _ _, hjournal⟩

/-- A call keeps the store consistent with its journal. -/
theorem Consistent.run (hc : Consistent env owner r J) (allowed : Option Nat) (call : Call) :
    ∃ J', Consistent env owner (run env allowed r call).1 J' := by
  cases hcommitted : committed env r.store call with
  | none =>
    rw [run_of_committed_none hcommitted]
    exact ⟨J, hc⟩
  | some c =>
    have hplanned := planned_of_committed hcommitted
    rcases run_committed_cases hc hcommitted allowed with
      ⟨-, hmaps, hjournal⟩ | ⟨-, hmaps, K, ⟨rest, hK⟩, hjournal⟩
    · refine ⟨_, hjournal, ?_, ?_, ?_⟩
      · rw [hmaps]
        exact hplanned.finish_keyed hc.keyed
      · intro id request hrequest
        rw [hmaps, hplanned.finish_eq hc.keyed] at hrequest
        rcases foldl_insertEntry_requests hrequest with hbefore | ⟨entry, hentry, hpayload, hid⟩
        · obtain ⟨record, hrecord, hpayload⟩ := hc.recorded id request hbefore
          exact ⟨record, List.mem_append_left _ hrecord, hpayload⟩
        · rw [← callRecords_entries env r.store call c] at hentry
          obtain ⟨record, hrecord, rfl⟩ := List.mem_map.1 hentry
          exact ⟨record, List.mem_append_right _ hrecord, hpayload, hid⟩
      · rw [hmaps, hplanned.finish_eq hc.keyed, insertAll_append, insertAll_callRecords]
        exact hc.lags.foldl_insertEntry c.entries
    · refine ⟨_, hjournal, ?_, ?_, ?_⟩
      · rw [hmaps]
        exact hc.keyed
      · intro id request hrequest
        rw [hmaps] at hrequest
        obtain ⟨record, hrecord, hpayload⟩ := hc.recorded id request hrequest
        exact ⟨record, List.mem_append_left _ hrecord, hpayload⟩
      · rw [hmaps, insertAll_append]
        refine hc.lags.foldl_insertEntry_written ?_
        intro entry hentry
        apply hplanned.entry_fits
        rw [← callRecords_entries env r.store call c, ← hK, List.map_append]
        exact List.mem_append_left _ hentry

theorem Consistent.reopened {now : Instant} (hc : Consistent env owner r J)
    (h : makeMove env owner r (.reopen now) = some r') :
    Journaled env owner r' J ∧ rebuild env J = .ok r'.store.maps := by
  simp only [Persistence.makeMove] at h
  cases hopen : openOrCreateAt env owner now r.dir with
  | error e =>
    rw [hopen] at h
    cases h
  | ok opened =>
    rw [hopen] at h
    cases h
    obtain ⟨hj, hrebuild, -⟩ := hc.journaled.reopen hopen
    exact ⟨hj, hrebuild⟩

theorem Consistent.makeMove {move : Move} (hc : Consistent env owner r J)
    (h : makeMove env owner r move = some r') : ∃ J', Consistent env owner r' J' := by
  cases move with
  | call allowed call =>
    cases h
    exact hc.run allowed call
  | reopen now =>
    obtain ⟨hj, hrebuild⟩ := hc.reopened h
    exact ⟨J, Consistent.of_rebuild hj hrebuild⟩

/-- What is given up stays given up. -/
theorem Consistent.lags_makeMove {move : Move} (hc : Consistent env owner r J)
    (h : Persistence.makeMove env owner r move = some r') : Lags r.store.maps r'.store.maps := by
  cases move with
  | call allowed call =>
    cases h
    cases hcommitted : committed env r.store call with
    | none =>
      rw [run_of_committed_none hcommitted]
      exact Lags.refl _
    | some c =>
      have hplanned := planned_of_committed hcommitted
      rcases run_committed_cases hc hcommitted allowed with ⟨-, hmaps, -⟩ | ⟨-, hmaps, -⟩
      · rw [hmaps, hplanned.finish_eq hc.keyed]
        exact lags_foldl_insertEntry hplanned.entry_fits
      · rw [hmaps]
        exact Lags.refl _
  | reopen now =>
    obtain ⟨hj, hrebuild⟩ := hc.reopened h
    rw [rebuild_eq_insertAll hrebuild]
    exact hc.lags

/-- A resolved request stays, unless the move revives it. -/
theorem Consistent.terminal_makeMove {move : Move} (hc : Consistent env owner r J)
    (h : Persistence.makeMove env owner r move = some r')
    (hrevives : ∀ allowed call, move = .call allowed call →
      ¬ RevivesRequest env r.store allowed call) {request : PermissionRequest}
    (hrequest : r.store.maps.requests[id]? = some request)
    (hterminal : request.status.isTerminal = true) :
    r'.store.maps.requests[id]? = some request := by
  cases move with
  | call allowed call =>
    cases h
    cases hcommitted : committed env r.store call with
    | none =>
      rw [run_of_committed_none hcommitted]
      exact hrequest
    | some c =>
      have hplanned := planned_of_committed hcommitted
      rcases run_committed_cases hc hcommitted allowed with ⟨hdone, hmaps, -⟩ | ⟨-, hmaps, -⟩
      · rw [hmaps]
        refine hplanned.finish_terminal hc.keyed hrequest hterminal ?_
        intro new hop hid hlength
        refine hrevives allowed call rfl ⟨new, request, hop, hid ▸ hrequest, hterminal, ?_, ?_⟩
        · rw [hcommitted]
          rfl
        · rw [← hlength]
          exact hdone
      · rw [hmaps]
        exact hrequest
  | reopen now =>
    obtain ⟨hj, hrebuild⟩ := hc.reopened h
    obtain ⟨record, hrecord, hpayload, hid⟩ := hc.recorded id request hrequest
    rw [← hid]
    exact foldChecked_terminal (rebuild_eq_ok_iff.1 hrebuild).1 hrecord hpayload hterminal

/-- The upsert overwrites the resolved request with a pending one. -/
theorem Consistent.revived {allowed : Option Nat} {call : Call} (hc : Consistent env owner r J)
    (h : RevivesRequest env r.store allowed call) :
    ∃ (id : String) (existing request : PermissionRequest),
      r.store.maps.requests[id]? = some existing ∧ existing.status.isTerminal = true ∧
        (Persistence.run env allowed r call).1.store.maps.requests[id]? = some request ∧
        request.status = .pending := by
  obtain ⟨request, existing, hop, hexisting, hterminal, hcommitted, hdone⟩ := h
  obtain ⟨c, hcommitted⟩ := Option.isSome_iff_exists.1 hcommitted
  refine ⟨request.requestId, existing, request, hexisting, hterminal, ?_⟩
  have houtcome := run_spec hc.journaled hcommitted allowed
  rcases plan_upsert hop (committed_eq_some hcommitted).2 with ⟨_, hplan⟩ | ⟨hpending, hplan⟩
  · cases hplan
  · cases hplan
    refine ⟨?_, hpending⟩
    rw [houtcome.maps_eq]
    rw [show completes allowed (requestCommit request .created (.request request)).entries.length =
      true from hdone]
    exact (Table.getElem?_insert_eq _ _ _ _).trans (if_pos rfl)

/-! What the replies of three operations say about the maps before and after the call. -/

section Replies

variable {allowed : Option Nat} {call : Call}

/-- After a revocation the grant is not active. -/
theorem Consistent.revoked {grantId grantOwner : String} {reason : Option String} {reply : Reply}
    (hc : Consistent env owner r J) (hop : call.operation = .revokeGrant grantId grantOwner reason)
    (h : (Persistence.run env allowed r call).2 = .ok reply) :
    ∃ grant, (Persistence.run env allowed r call).1.store.maps.grants[grantId]? = some grant ∧
      grant.state ≠ .active := by
  rcases run_eq_ok hc.journaled h with ⟨hplan, hr⟩ | ⟨c, hplan, hmaps, -⟩
  · obtain ⟨existing, hexisting, ⟨hstate, -⟩ | ⟨_, _, -, hcommit⟩⟩ := plan_revokeGrant hop hplan
    · rw [hr]
      exact ⟨existing, hexisting, by simp [hstate]⟩
    · cases hcommit
  · obtain ⟨existing, hexisting, ⟨-, hanswer⟩ | ⟨revoked, audit, hrevoked, hcommit⟩⟩ :=
      plan_revokeGrant hop hplan
    · cases hanswer
    · cases hcommit
      have hid : revoked.grantId = grantId := by
        rw [hrevoked]
        exact hc.keyed.grants grantId existing hexisting
      refine ⟨revoked, ?_, by simp [hrevoked, revokedGrant]⟩
      rw [hmaps]
      exact (Table.getElem?_insert_eq _ _ _ _).trans (if_pos hid)

/-- A grant that is consumed was active before and is not after. -/
theorem Consistent.consumed {grantId : String} (hc : Consistent env owner r J)
    (hop : call.operation = .consumeOnceGrantIfApplicable grantId)
    (h : (Persistence.run env allowed r call).2 = .ok (.consumedGrant (some grant))) :
    (∃ existing, r.store.maps.grants[grantId]? = some existing ∧ existing.state = .active) ∧
      ∃ after, (Persistence.run env allowed r call).1.store.maps.grants[grantId]? = some after ∧
        after.state ≠ .active := by
  rcases run_eq_ok hc.journaled h with ⟨hplan, -⟩ | ⟨c, hplan, hmaps, -⟩
  · obtain ⟨existing, -, hanswer | ⟨_, _, -, -, hcommit⟩⟩ := plan_consumeOnce hop hplan
    · cases hanswer
    · cases hcommit
  · obtain ⟨existing, hexisting, hanswer | ⟨consumed, audit, hstate, hconsumed, hcommit⟩⟩ :=
      plan_consumeOnce hop hplan
    · cases hanswer
    · cases hcommit
      have hid : consumed.grantId = grantId := by
        rw [hconsumed]
        exact hc.keyed.grants grantId existing hexisting
      refine ⟨⟨existing, hexisting, hstate⟩, consumed, ?_, by simp [hconsumed, consumedGrant]⟩
      rw [hmaps]
      exact (Table.getElem?_insert_eq _ _ _ _).trans (if_pos hid)

/-- A proof that is consumed was not consumed before and is after. -/
theorem Consistent.consumedProof {proofId : String} {reply : Reply}
    (hc : Consistent env owner r J) (hop : call.operation = .consumeAuthorityProofOnce proofId)
    (h : (Persistence.run env allowed r call).2 = .ok reply) :
    proofId ∉ r.store.maps.consumedProofIds ∧
      proofId ∈ (Persistence.run env allowed r call).1.store.maps.consumedProofIds := by
  rcases run_eq_ok hc.journaled h with ⟨hplan, -⟩ | ⟨c, hplan, hmaps, -⟩
  · obtain ⟨_, -, hcommit⟩ := plan_consumeProof hop hplan
    cases hcommit
  · obtain ⟨proof, hunconsumed, hcommit⟩ := plan_consumeProof hop hplan
    cases hcommit
    refine ⟨hunconsumed, ?_⟩
    rw [hmaps]
    exact Std.ExtTreeSet.mem_insert_self

end Replies

/-- A grant that is not active is not matched. -/
theorem find_ne_of_inactive {maps : PolicyMaps} {parse : String → Option Instant}
    {grantId : String} (hk : maps.Keyed) (hgrant : maps.grants[grantId]? = some grant)
    (hstate : grant.state ≠ .active) {input : GrantMatchInput} {effect : PermissionEffect}
    {found : PermissionGrant} (h : find parse maps.grants.values input effect = some found) :
    found.grantId ≠ grantId := by
  rintro rfl
  obtain ⟨hmem, hpasses⟩ := mem_of_find_eq_some parse _ input effect h
  obtain ⟨k, hfound⟩ := Table.mem_values_iff.1 hmem
  rw [← hk.grants k found hfound] at hfound
  cases hgrant.symm.trans hfound
  have hactive := ((passesFilters_iff parse input effect grant).1 hpasses).2.1
  simp [PermissionGrant.activeAt, hstate] at hactive

end OneMove

/-! ## Whole runs -/

section Runs

variable {env : Environment} {owner : String} {r : Running} {moves : List Move}
variable {now : Instant} (hopen : openOrCreateAt env owner now .empty = .ok r)

include hopen

theorem Reaches.consistent {n : Nat} {r' : Running} (h : Reaches env owner r moves n r') :
    ∃ J, Consistent env owner r' J := by
  have hfresh : ∃ J, Consistent env owner r J := by
    obtain ⟨hw, hempty⟩ := openOrCreateAt_empty hopen
    refine ⟨[], Consistent.of_rebuild hw.journaled ?_⟩
    rw [hempty]
    rfl
  refine runSteps_invariant (I := fun r => ∃ J, Consistent env owner r J) ?_ (Nat.zero_le n) rfl
    hfresh h
  rintro n r₁ move r₂ - - hmove ⟨J, hc⟩
  exact hc.makeMove hmove

/-- Along a run what is given up stays given up. -/
theorem Reaches.lags {m n : Nat} {r₁ r₂ : Running} (hmn : m ≤ n)
    (h₁ : Reaches env owner r moves m r₁) (h₂ : Reaches env owner r moves n r₂) :
    Lags r₁.store.maps r₂.store.maps := by
  refine runSteps_invariant (I := fun r₂ => Lags r₁.store.maps r₂.store.maps) ?_ hmn h₁
    (Lags.refl _) h₂
  intro n r₁ move r₂ hreach hmove hstep hlags
  obtain ⟨J, hc⟩ := Reaches.consistent hopen hreach
  exact hlags.trans (hc.lags_makeMove hstep)

omit hopen in
/-- The state after a move that is a call. -/
theorem reaches_succ {n : Nat} {r₁ : Running} {allowed : Option Nat} {call : Call}
    (h : Reaches env owner r moves n r₁) (hmove : moves[n]? = some (.call allowed call)) :
    Reaches env owner r moves (n + 1) (run env allowed r₁ call).1 := by
  rw [Reaches, runSteps_take_succ r hmove, show runSteps _ r (moves.take n) = some r₁ from h]
  rfl

/-- The matcher finds no grant that was revoked or consumed earlier in the run. -/
theorem inactiveStays : InactiveStays env owner r moves := by
  intro m n r' grantId hmn hreach hended input effect found hfind
  have hinactive : ∃ r₁ grant, Reaches env owner r moves (m + 1) r₁ ∧
      r₁.store.maps.grants[grantId]? = some grant ∧ grant.state ≠ .active := by
    rcases hended with
      ⟨_, _, _, r₁, allowed, call, hr₁, hmove, hop, hreply⟩ |
        ⟨_, r₁, allowed, call, hr₁, hmove, hop, hreply⟩
    · obtain ⟨J, hc⟩ := hr₁.consistent hopen
      obtain ⟨grant, hgrant, hstate⟩ := hc.revoked hop hreply
      exact ⟨_, grant, reaches_succ hr₁ hmove, hgrant, hstate⟩
    · obtain ⟨J, hc⟩ := hr₁.consistent hopen
      obtain ⟨-, grant, hgrant, hstate⟩ := hc.consumed hop hreply
      exact ⟨_, grant, reaches_succ hr₁ hmove, hgrant, hstate⟩
  obtain ⟨r₁, grant, hr₁, hgrant, hstate⟩ := hinactive
  obtain ⟨grant', hgrant', hstate'⟩ :=
    (hr₁.lags hopen hmn hreach).grants grantId grant hgrant hstate
  obtain ⟨J, hc⟩ := hreach.consistent hopen
  exact find_ne_of_inactive hc.keyed hgrant' hstate' hfind

/-- Grants and proofs are consumed at most once. -/
theorem consumedOnce : ConsumedOnce env owner r moves := by
  constructor
  · rintro m n grantId grant grant' hmn ⟨r₁, allowed₁, call₁, hr₁, hmove₁, hop₁, hreply₁⟩
      ⟨r₂, allowed₂, call₂, hr₂, hmove₂, hop₂, hreply₂⟩
    obtain ⟨J₁, hc₁⟩ := hr₁.consistent hopen
    obtain ⟨J₂, hc₂⟩ := hr₂.consistent hopen
    obtain ⟨-, after, hafter, hstate⟩ := hc₁.consumed hop₁ hreply₁
    obtain ⟨⟨existing, hexisting, hactive⟩, -⟩ := hc₂.consumed hop₂ hreply₂
    obtain ⟨later, hlater, hinactive⟩ :=
      ((reaches_succ hr₁ hmove₁).lags hopen hmn hr₂).grants grantId after hafter hstate
    cases hexisting.symm.trans hlater
    exact hinactive hactive
  · rintro m n proofId reply reply' hmn ⟨r₁, allowed₁, call₁, hr₁, hmove₁, hop₁, hreply₁⟩
      ⟨r₂, allowed₂, call₂, hr₂, hmove₂, hop₂, hreply₂⟩
    obtain ⟨J₁, hc₁⟩ := hr₁.consistent hopen
    obtain ⟨J₂, hc₂⟩ := hr₂.consistent hopen
    have hconsumed := (hc₁.consumedProof hop₁ hreply₁).2
    exact (hc₂.consumedProof hop₂ hreply₂).1
      (((reaches_succ hr₁ hmove₁).lags hopen hmn hr₂).consumed proofId hconsumed)

/-- Resolved requests stay while no move revives one. -/
theorem terminalStays_of_no_revival
    (h : ∀ n r' allowed call, Reaches env owner r moves n r' →
      moves[n]? = some (.call allowed call) → ¬ RevivesRequest env r'.store allowed call) :
    TerminalStays env owner r moves := by
  intro m n r₁ r₂ hmn hr₁ hr₂ id request hrequest hterminal
  refine runSteps_invariant (I := fun r₂ => r₂.store.maps.requests[id]? = some request) ?_ hmn hr₁
    hrequest hr₂
  intro n r₁ move r₂ hreach hmove hstep hrequest
  obtain ⟨J, hc⟩ := Reaches.consistent hopen hreach
  refine hc.terminal_makeMove hstep ?_ hrequest hterminal
  rintro allowed call rfl
  exact h n r₁ allowed call hreach hmove

/-- Over a run on a fresh store, resolved requests stay, revoked and consumed grants are never
matched again and grants and proofs are consumed at most once, exactly when no move of the run is an
upsert that reuses the id of a resolved request. -/
theorem lifecycle_monotone_iff :
    (TerminalStays env owner r moves ∧ InactiveStays env owner r moves ∧
        ConsumedOnce env owner r moves) ↔
      ∀ n r' allowed call, Reaches env owner r moves n r' →
        moves[n]? = some (.call allowed call) → ¬ RevivesRequest env r'.store allowed call := by
  constructor
  · rintro ⟨hstays, -, -⟩ n r' allowed call hreach hmove hrevives
    obtain ⟨J, hc⟩ := hreach.consistent hopen
    obtain ⟨id, existing, request, hexisting, hterminal, hrequest, hpending⟩ :=
      hc.revived hrevives
    have hkept := hstays n (n + 1) r' _ (Nat.le_succ n) hreach (reaches_succ hreach hmove) id
      existing hexisting hterminal
    cases hkept.symm.trans hrequest
    rw [hpending] at hterminal
    cases hterminal
  · intro h
    exact ⟨terminalStays_of_no_revival hopen h, inactiveStays hopen, consumedOnce hopen⟩

end Runs

/-! ## A request that is denied and asked again -/

section Sample

/-- A run of calls without reopens and failing writes, as moves. -/
def undisturbed (calls : List Call) : List Move := calls.map (Move.call none)

theorem reaches_undisturbed (env : Environment) (owner : String) (r : Running) (calls : List Call)
    (n : Nat) : Reaches env owner r (undisturbed calls) n (runCalls env r (calls.take n)) := by
  rw [Reaches, undisturbed, ← List.map_take]
  generalize calls.take n = calls
  induction calls generalizing r with
  | nil => rfl
  | cons call calls ih => exact ih (run env none r call).1

/-- Bob's request is recorded and denied, and the same request is sent again. -/
def denialThenUpsert : List Call :=
  [aliceCalls (.upsertPermissionRequest bobRequest),
    aliceCalls (.resolvePermissionRequest { bobRequest with status := .denied }),
    aliceCalls (.upsertPermissionRequest bobRequest)]

theorem denialThenUpsert_statuses :
    (((runCalls sampleEnvironment aliceStore
      (denialThenUpsert.take 2)).store.maps.requests["req-1"]?).map
        fun request => request.status) = some .denied ∧
      (((runCalls sampleEnvironment aliceStore
        (denialThenUpsert.take 3)).store.maps.requests["req-1"]?).map
        fun request => request.status) = some .pending := by
  decide +kernel

/-- A denied request becomes pending again when it is sent a second time. -/
theorem upsert_revives_denied_request :
    openOrCreateAt sampleEnvironment alice newYear .empty = .ok aliceStore ∧
      (((runCalls sampleEnvironment aliceStore
        (denialThenUpsert.take 2)).store.maps.requests["req-1"]?).map
        fun request => request.status) = some .denied ∧
      (((runCalls sampleEnvironment aliceStore
        (denialThenUpsert.take 3)).store.maps.requests["req-1"]?).map
        fun request => request.status) = some .pending ∧
      ¬ TerminalStays sampleEnvironment alice aliceStore (undisturbed denialThenUpsert) := by
  obtain ⟨hdenied, hpending⟩ := denialThenUpsert_statuses
  refine ⟨openOrCreateAt_alice, hdenied, hpending, ?_⟩
  intro hstays
  obtain ⟨denied, hdenied, hstatus⟩ := Option.map_eq_some_iff.1 hdenied
  obtain ⟨pending, hpending, hstatus'⟩ := Option.map_eq_some_iff.1 hpending
  have hkept := hstays 2 3 _ _ (by decide)
    (reaches_undisturbed sampleEnvironment alice aliceStore denialThenUpsert 2)
    (reaches_undisturbed sampleEnvironment alice aliceStore denialThenUpsert 3) "req-1" denied
    hdenied (by rw [hstatus]; rfl)
  cases hkept.symm.trans hpending
  cases hstatus.symm.trans hstatus'

/-- The request and its approval revive nothing. -/
theorem approval_monotone :
    openOrCreateAt sampleEnvironment alice newYear .empty = .ok aliceStore ∧
      TerminalStays sampleEnvironment alice aliceStore (undisturbed approval) ∧
      InactiveStays sampleEnvironment alice aliceStore (undisturbed approval) ∧
      ConsumedOnce sampleEnvironment alice aliceStore (undisturbed approval) := by
  refine ⟨openOrCreateAt_alice, (lifecycle_monotone_iff openOrCreateAt_alice).2 ?_⟩
  rintro n r allowed call hreach hmove ⟨request, existing, hop, hexisting, -⟩
  match n with
  | 0 =>
    cases hreach
    cases hmove
    cases hop
    cases (Table.getElem?_empty_eq _).symm.trans hexisting
  | 1 =>
    cases hmove
    cases hop

end Sample

end EasyNetDaemon.Persistence
