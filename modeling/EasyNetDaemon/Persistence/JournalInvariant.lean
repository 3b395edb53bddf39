import EasyNetDaemon.Library.HashChain
import EasyNetDaemon.Persistence.PolicyJournal

/-!
# The journal behind a running store

`Journaled env owner r J` says that the four files of the running store `r` hold the records of the
journal `J`, each in the file of its kind, and that `J` is a hash chain from the zero hash to the
head of the store, with increasing sequence numbers and hashes that check. Every operation keeps
this, whichever of its writes fail (`run_spec`), and so does a reopen.

Behind such a directory a reopen is `rebuild` of the journal: apply the records, then check the
approved requests (`openOrCreateAt_eq`). The hashes along a journal are all different, so a journal
and its extension never end at the same head (`head_ne_of_append`).
-/

namespace EasyNetDaemon.Persistence

open Library EasyNetDaemon.Core Admission

/-- The chain from the zero hash to `headHash`. -/
abbrev ChainTo (J : List JournalRecord) (headHash : String) : Prop :=
  Linked (fun record : JournalRecord => record.previousRecordHash)
    (fun record => record.recordHash) zeroHash J headHash

/-- The record names the owner of the store and an admissible actor, and its hash checks. -/
structure Sealed (env : Environment) (owner : String) (record : JournalRecord) : Prop where
  owner_eq : record.ownerUserUra = owner
  actor_ok : validateRuntimeIdentityUra env record.actorUra "policy journal actor_ura" = .ok ()
  hash_eq : record.recordHash = computeRecordHash env record.toRecordBody

/-- Each file holds the records of its kinds. -/
structure PolicyDir.Holds (dir : PolicyDir) (J : List JournalRecord) : Prop where
  grants : dir.grantsFile = J.filter fun record => record.recordKind = .permissionGrant
  requests : dir.requestsFile = J.filter fun record => record.recordKind = .permissionRequest
  proofs : dir.proofsFile = J.filter fun record => record.recordKind = .authorityProof
  audit : dir.auditFile = J.filter fun record =>
    record.recordKind = .audit || record.recordKind = .checkpoint

/-- The records are numbered upwards, up to `lastSequence`. -/
structure Numbered (J : List JournalRecord) (lastSequence : Nat) : Prop where
  increasing : J.Pairwise fun a b => a.sequence < b.sequence
  bounded : ∀ record ∈ J, record.sequence ≤ lastSequence

/-- The journal behind a running store. -/
structure Journaled (env : Environment) (owner : String) (r : Running)
    (J : List JournalRecord) : Prop where
  holds : r.dir.Holds J
  chain : ChainTo J r.store.headHash
  numbered : Numbered J r.store.lastSequence
  sealed_all : ∀ record ∈ J, Sealed env owner record
  store_manifest : validateManifest env r.store.manifest owner = .ok ()
  dir_manifest : ∃ manifest, r.dir.manifest = some manifest ∧
    validateManifest env manifest owner = .ok ()

/-! ## Reading the files back -/

variable {dir : PolicyDir} {manifest : AccessControlStoreManifest}

theorem PolicyDir.Holds.appendLine {J : List JournalRecord} (h : dir.Holds J)
    (record : JournalRecord) : (dir.appendLine record).Holds (J ++ [record]) := by
  obtain ⟨hgrants, hrequests, hproofs, haudit⟩ := h
  cases hkind : record.recordKind <;>
    constructor <;> simp [PolicyDir.appendLine, hkind, hgrants, hrequests, hproofs, haudit]

theorem PolicyDir.Holds.lines_perm {J : List JournalRecord} (h : dir.Holds J) :
    dir.lines.Perm J := by
  obtain ⟨hgrants, hrequests, hproofs, haudit⟩ := h
  rw [List.perm_iff_count]
  intro record
  have hcount : ∀ p : JournalRecord → Bool,
      (J.filter p).count record = if p record then J.count record else 0 := by
    intro p
    split
    · rename_i hp
      exact List.count_filter hp
    · rename_i hp
      exact List.count_eq_zero.2 fun hmem => hp (List.mem_filter.1 hmem).2
  simp only [PolicyDir.lines, hgrants, hrequests, hproofs, haudit, List.count_append, hcount]
  cases hkind : record.recordKind <;> simp

theorem Numbered.eq_of_sequence {J : List JournalRecord} {n : Nat} (h : Numbered J n)
    {a b : JournalRecord} (ha : a ∈ J) (hb : b ∈ J) (hab : a.sequence = b.sequence) : a = b := by
  have hnodup : (J.map fun record => record.sequence).Nodup :=
    (List.pairwise_map.2 h.increasing).imp Nat.ne_of_lt
  exact List.inj_on_of_nodup_map hnodup ha hb hab

/-- Sorting the lines of the files by sequence number gives the journal back. -/
theorem PolicyDir.Holds.records_eq {J : List JournalRecord} {n : Nat} (h : dir.Holds J)
    (hn : Numbered J n) : dir.records = J := by
  have htrans : IsTrans JournalRecord fun a b => a.sequence ≤ b.sequence :=
    ⟨fun _ _ _ => Nat.le_trans⟩
  have htotal : Std.Total fun a b : JournalRecord => a.sequence ≤ b.sequence :=
    ⟨fun a b => Nat.le_total a.sequence b.sequence⟩
  have hperm : dir.records.Perm J := (List.perm_insertionSort _ _).trans h.lines_perm
  refine hperm.eq_of_pairwise ?_ (List.pairwise_insertionSort _ _)
    (hn.increasing.imp Nat.le_of_lt)
  intro a b ha hb hab hba
  exact hn.eq_of_sequence (hperm.mem_iff.1 ha) hb (Nat.le_antisymm hab hba)

/-! ## Reopening -/

/-- The largest sequence number of the records, and at least `n`. -/
def lastSequenceOf (n : Nat) (J : List JournalRecord) : Nat :=
  J.foldl (fun n record => max n record.sequence) n

section Reopen

variable (env : Environment)

/-- The maps a journal stands for: its records applied in order, and the approved requests
checked at the end. -/
def rebuild (J : List JournalRecord) : Except String PolicyMaps := do
  let maps ← foldChecked (applyRecord env) .empty J
  validateAllResolutionAuthorities env maps
  .ok maps

variable {env}
variable {owner : String}

theorem checkRecord_of_sealed {seen : List Nat} {record : JournalRecord}
    (hsealed : Sealed env owner record)
    (howner : validateUserPrincipalUra env owner "policy journal owner_user_id" = .ok ())
    (hmanifest : manifest.policyStore.ownerUserUra = owner) (hseen : record.sequence ∉ seen) :
    checkRecord env manifest seen record.previousRecordHash record = .ok () := by
  obtain ⟨hrecord, hactor, hhash⟩ := hsealed
  simp only [checkRecord, check_bind_eq_ok_iff, bailIf_eq_ok_iff, hrecord, howner, hactor,
    hmanifest, ← hhash]
  simpa using hseen

/-- On a chain of sealed records the loop of `replay` only applies the records. -/
theorem foldChecked_replayStep
    (howner : validateUserPrincipalUra env owner "policy journal owner_user_id" = .ok ())
    (rest : List JournalRecord) : ∀ (seen : List Nat) (store : AccessControlStore) (h : String),
      store.manifest.policyStore.ownerUserUra = owner →
      Linked (fun record : JournalRecord => record.previousRecordHash)
        (fun record => record.recordHash) store.headHash rest h →
      rest.Pairwise (fun a b => a.sequence < b.sequence) →
      (∀ record ∈ rest, ∀ n ∈ seen, n < record.sequence) →
      (∀ record ∈ rest, Sealed env owner record) →
      foldChecked (replayStep env) (seen, store) rest =
        (foldChecked (applyRecord env) store.maps rest).map fun maps =>
          ((rest.map fun record => record.sequence).reverse ++ seen,
            { store with
              maps
              lastSequence := lastSequenceOf store.lastSequence rest
              headHash := h }) := by
  induction rest with
  | nil =>
    intro seen store h _ hchain _ _ _
    cases hchain
    rfl
  | cons record rest ih =>
    intro seen store h hmanifest hchain hincreasing hseen hsealed
    obtain ⟨hprev, hchain⟩ := hchain
    obtain ⟨hlt, hincreasing⟩ := List.pairwise_cons.1 hincreasing
    have hnew : record.sequence ∉ seen := fun hmem =>
      Nat.lt_irrefl _ (hseen record List.mem_cons_self record.sequence hmem)
    have hcheck := checkRecord_of_sealed (hsealed record List.mem_cons_self) howner hmanifest hnew
    rw [show record.previousRecordHash = store.headHash from hprev] at hcheck
    simp only [foldChecked, replayStep, hcheck]
    cases happly : applyRecord env store.maps record with
    | error e => rfl
    | ok maps =>
      have hseen' : ∀ next ∈ rest, ∀ n ∈ record.sequence :: seen, n < next.sequence := by
        intro next hnext n hn
        rcases List.mem_cons.1 hn with rfl | hn
        · exact hlt next hnext
        · exact hseen next (List.mem_cons_of_mem _ hnext) n hn
      have hrest := ih (record.sequence :: seen)
        { store with
          maps
          lastSequence := max store.lastSequence record.sequence
          headHash := record.recordHash } h hmanifest hchain hincreasing hseen'
        (fun next hnext => hsealed next (List.mem_cons_of_mem _ hnext))
      simp only [bind, Except.bind, hrest, List.map_cons, List.reverse_cons, List.append_assoc,
        List.singleton_append, lastSequenceOf, List.foldl_cons]

/-- What a reopen of the directory ends with, when it rebuilds `maps`. -/
def reopened (manifest : AccessControlStoreManifest) (dir : PolicyDir) (J : List JournalRecord)
    (headHash : String) (maps : PolicyMaps) : Running where
  store :=
    { manifest := manifest.withHead headHash
      maps
      lastSequence := lastSequenceOf 0 J
      headHash }
  dir := { dir with manifest := some (manifest.withHead headHash) }

/-- A reopen of a directory whose records are a sealed chain rebuilds them, in whichever files they
stand. -/
theorem openOrCreateAt_of_records {J : List JournalRecord} {headHash : String} {n : Nat}
    (hrecords : dir.records = J) (hchain : ChainTo J headHash) (hnumbered : Numbered J n)
    (hsealed : ∀ record ∈ J, Sealed env owner record) (hdir : dir.manifest = some manifest)
    (hmanifest : validateManifest env manifest owner = .ok ()) (now : Instant) :
    openOrCreateAt env owner now dir =
      (rebuild env J).map (reopened manifest dir J headHash) := by
  obtain ⟨howner, hsame⟩ := validateManifest_ok "policy store owner_user_id" hmanifest
  have hrecords : PolicyDir.records { dir with manifest := some manifest } = J := hrecords
  have hfold := foldChecked_replayStep (validateUserPrincipalUra_field _ howner) J []
    { manifest := manifest, maps := .empty, lastSequence := 0, headHash := zeroHash } headHash
    hsame hchain hnumbered.increasing (by simp) hsealed
  simp only [openOrCreateAt, howner, hdir, Option.getD_some, hmanifest, replay, hrecords, hfold,
    rebuild]
  cases foldChecked (applyRecord env) PolicyMaps.empty J with
  | error e => rfl
  | ok maps =>
    simp only [bind, Except.bind, Except.map]
    cases validateAllResolutionAuthorities env maps with
    | error e => rfl
    | ok u => rfl

/-- A reopen of a running store rebuilds its journal. -/
theorem openOrCreateAt_eq {r : Running} {J : List JournalRecord} (hj : Journaled env owner r J)
    (now : Instant) :
    ∃ manifest, validateManifest env manifest owner = .ok () ∧
      openOrCreateAt env owner now r.dir =
        (rebuild env J).map (reopened manifest r.dir J r.store.headHash) := by
  obtain ⟨manifest, hdir, hmanifest⟩ := hj.dir_manifest
  exact ⟨manifest, hmanifest,
    openOrCreateAt_of_records (hj.holds.records_eq hj.numbered) hj.chain hj.numbered hj.sealed_all
      hdir hmanifest now⟩

theorem le_lastSequenceOf (n : Nat) (J : List JournalRecord) : n ≤ lastSequenceOf n J := by
  induction J generalizing n with
  | nil => exact Nat.le_refl n
  | cons record J ih => exact (Nat.le_max_left n record.sequence).trans (ih _)

theorem sequence_le_lastSequenceOf {J : List JournalRecord} {record : JournalRecord}
    (hrecord : record ∈ J) (n : Nat) : record.sequence ≤ lastSequenceOf n J := by
  induction J generalizing n with
  | nil => cases hrecord
  | cons first J ih =>
    rcases List.mem_cons.1 hrecord with rfl | hrecord
    · exact (Nat.le_max_right n record.sequence).trans (le_lastSequenceOf _ J)
    · exact ih hrecord _

/-- A journal that rebuilds opens, with the head of the store that wrote it. -/
theorem Journaled.opens {r : Running} {J : List JournalRecord} {maps : PolicyMaps}
    (hj : Journaled env owner r J) (h : rebuild env J = .ok maps) (now : Instant) :
    ∃ r', openOrCreateAt env owner now r.dir = .ok r' ∧ r'.store.maps = maps ∧
      r'.store.lastSequence = lastSequenceOf 0 J ∧ r'.store.headHash = r.store.headHash := by
  obtain ⟨manifest, -, heq⟩ := openOrCreateAt_eq hj now
  rw [h] at heq
  exact ⟨_, heq, rfl, rfl, rfl⟩

/-- A reopened store has the journal it was opened from, and the maps that the journal rebuilds. -/
theorem Journaled.reopen {r r' : Running} {J : List JournalRecord} {now : Instant}
    (hj : Journaled env owner r J) (h : openOrCreateAt env owner now r.dir = .ok r') :
    Journaled env owner r' J ∧ rebuild env J = .ok r'.store.maps ∧
      r'.store.headHash = r.store.headHash := by
  obtain ⟨manifest, hmanifest, heq⟩ := openOrCreateAt_eq hj now
  rw [heq] at h
  cases hrebuild : rebuild env J with
  | error e =>
    rw [hrebuild] at h
    cases h
  | ok maps =>
    rw [hrebuild] at h
    cases h
    have hhead : validateManifest env (manifest.withHead r.store.headHash) owner = .ok () :=
      (validateManifest_congr rfl rfl rfl rfl).trans hmanifest
    obtain ⟨hgrants, hrequests, hproofs, haudit⟩ := hj.holds
    exact ⟨⟨⟨hgrants, hrequests, hproofs, haudit⟩, hj.chain,
      ⟨hj.numbered.increasing, fun record hrecord => sequence_le_lastSequenceOf hrecord 0⟩,
      hj.sealed_all, hhead, ⟨_, rfl, hhead⟩⟩, rfl, rfl⟩

end Reopen

/-! ## The hashes of a journal -/

section Hashes

variable {env : Environment} {owner : String} {J K : List JournalRecord} {n : Nat}

/-- The hashes of a journal are different from each other and from the zero hash. -/
theorem hashes_nodup (hlaws : env.Lawful) (hnumbered : Numbered J n)
    (hsealed : ∀ record ∈ J, Sealed env owner record) :
    (zeroHash :: J.map fun record => record.recordHash).Nodup := by
  refine List.nodup_cons.2 ⟨?_, ?_⟩
  · intro hmem
    obtain ⟨record, hrecord, hzero⟩ := List.mem_map.1 hmem
    rw [(hsealed record hrecord).hash_eq] at hzero
    exact hlaws.sha256_ne_zero _ hzero
  · refine List.pairwise_map.2 (hnumbered.increasing.imp_of_mem ?_)
    intro a b ha hb hlt hhash
    rw [(hsealed a ha).hash_eq, (hsealed b hb).hash_eq] at hhash
    have hbody := HashMaterial.record.inj (hlaws.sha256_injective hhash)
    exact Nat.ne_of_lt hlt (congrArg RecordBody.sequence hbody)

/-- A journal and its extension end at different hashes. -/
theorem head_ne_of_append {h h' : String} (hJ : ChainTo J h) (hJK : ChainTo (J ++ K) h')
    (hdistinct : (zeroHash :: (J ++ K).map fun record => record.recordHash).Nodup)
    (hK : K ≠ []) : h ≠ h' := by
  obtain ⟨m, hm, hext⟩ := linked_append.1 hJK
  rw [linked_end_unique hJ hm]
  exact linked_end_ne hm hext hdistinct hK

end Hashes

/-! ## Writing -/

/-- The arguments of the append that wrote a record. -/
def JournalRecord.entry (record : JournalRecord) : Entry :=
  ⟨record.recordKind, record.recordId, record.operation, record.payload⟩

/-- The records that the appends of an operation write, the first one numbered `i`. -/
def nextRecords (env : Environment) (actorUra : String) (createdAt : Nat → Instant) :
    Nat → AccessControlStore → List Entry → List JournalRecord
  | _, _, [] => []
  | i, store, entry :: entries =>
    let record := nextRecord env store actorUra (createdAt i) entry
    record :: nextRecords env actorUra createdAt (i + 1) (store.advance record) entries

/-- The number of lines that get written out of `lines`, when only `allowed` writes succeed: every
line is followed by a write of the manifest. -/
def linesWritten (allowed : Option Nat) (lines : Nat) : Nat :=
  match allowed with
  | none => lines
  | some n => min lines ((n + 1) / 2)

/-- All writes of `lines` appends succeed. -/
def completes (allowed : Option Nat) (lines : Nat) : Bool :=
  match allowed with
  | none => true
  | some n => 2 * lines ≤ n

section Writing

variable {env : Environment} {owner actorUra : String} {r : Running} {J : List JournalRecord}

theorem nextRecords_entries (createdAt : Nat → Instant) (i : Nat) (store : AccessControlStore)
    (entries : List Entry) :
    (nextRecords env actorUra createdAt i store entries).map JournalRecord.entry = entries := by
  induction entries generalizing i store with
  | nil => rfl
  | cons entry entries ih =>
    simp only [nextRecords, List.map_cons, ih]
    rfl

theorem nextRecords_length (createdAt : Nat → Instant) (i : Nat) (store : AccessControlStore)
    (entries : List Entry) :
    (nextRecords env actorUra createdAt i store entries).length = entries.length := by
  rw [← List.length_map JournalRecord.entry, nextRecords_entries]

theorem validateManifest_withHead (headHash : String)
    (h : validateManifest env manifest owner = .ok ()) :
    validateManifest env (manifest.withHead headHash) owner = .ok () := by
  rw [← h]
  exact validateManifest_congr rfl rfl rfl rfl

/-- A used-up sequence number leaves the journal as it is. -/
theorem Journaled.skip (hj : Journaled env owner r J) {n : Nat} (hn : r.store.lastSequence ≤ n) :
    Journaled env owner { r with store := { r.store with lastSequence := n } } J where
  holds := hj.holds
  chain := hj.chain
  numbered := ⟨hj.numbered.increasing, fun record hrecord =>
    (hj.numbered.bounded record hrecord).trans hn⟩
  sealed_all := hj.sealed_all
  store_manifest := hj.store_manifest
  dir_manifest := hj.dir_manifest

/-- A written line extends the journal, whether or not the manifest is written after it. -/
theorem Journaled.extend (hj : Journaled env owner r J)
    (hactor : validateRuntimeIdentityUra env actorUra "policy journal actor_ura" = .ok ())
    (createdAt : Instant) (entry : Entry) {manifest : Option AccessControlStoreManifest}
    (hmanifest : ∃ m, manifest = some m ∧ validateManifest env m owner = .ok ()) :
    Journaled env owner
      ⟨r.store.advance (nextRecord env r.store actorUra createdAt entry),
        { r.dir.appendLine (nextRecord env r.store actorUra createdAt entry) with
          manifest := manifest }⟩
      (J ++ [nextRecord env r.store actorUra createdAt entry]) := by
  have hsequence : (nextRecord env r.store actorUra createdAt entry).sequence =
      r.store.lastSequence + 1 := rfl
  refine ⟨?_, ?_, ⟨?_, ?_⟩, ?_, ?_, hmanifest⟩
  · obtain ⟨hgrants, hrequests, hproofs, haudit⟩ := hj.holds.appendLine
      (nextRecord env r.store actorUra createdAt entry)
    exact ⟨hgrants, hrequests, hproofs, haudit⟩
  · exact linked_concat hj.chain rfl
  · refine List.pairwise_append.2 ⟨hj.numbered.increasing, List.pairwise_singleton _ _, ?_⟩
    intro a ha b hb
    rw [List.mem_singleton.1 hb, hsequence]
    exact Nat.lt_succ_of_le (hj.numbered.bounded a ha)
  · intro record hrecord
    rcases List.mem_append.1 hrecord with hrecord | hrecord
    · exact (hj.numbered.bounded record hrecord).trans (Nat.le_succ _)
    · rw [List.mem_singleton.1 hrecord]
      rfl
  · intro record hrecord
    rcases List.mem_append.1 hrecord with hrecord | hrecord
    · exact hj.sealed_all record hrecord
    · rw [List.mem_singleton.1 hrecord]
      exact ⟨(validateManifest_ok "" hj.store_manifest).2, hactor, rfl⟩
  · exact validateManifest_withHead _ hj.store_manifest

theorem appendLine_manifest (dir : PolicyDir) (record : JournalRecord) :
    (dir.appendLine record).manifest = dir.manifest := by
  cases hkind : record.recordKind <;> simp [PolicyDir.appendLine, hkind]

/-- What the appends of `entries` do: the lines that get written extend the journal, the maps stay,
and the result says whether all writes succeeded. -/
structure AppendOutcome (env : Environment) (owner actorUra : String) (createdAt : Nat → Instant)
    (i : Nat) (allowed : Option Nat) (r : Running) (J : List JournalRecord)
    (entries : List Entry) : Prop where
  journaled : Journaled env owner (appendAll env actorUra createdAt i allowed r entries).1
    (J ++ (nextRecords env actorUra createdAt i r.store entries).take
      (linesWritten allowed entries.length))
  maps_eq : (appendAll env actorUra createdAt i allowed r entries).1.store.maps = r.store.maps
  result_eq : (appendAll env actorUra createdAt i allowed r entries).2 =
    if completes allowed entries.length then .ok (allowed.map fun n => n - 2 * entries.length)
    else .error writeError
  last_eq : completes allowed entries.length →
    (appendAll env actorUra createdAt i allowed r entries).1.store.lastSequence =
      lastSequenceOf r.store.lastSequence (nextRecords env actorUra createdAt i r.store entries)

/-- An append with both its writes, followed by the appends of the other entries. -/
theorem AppendOutcome.cons {createdAt : Nat → Instant} {i : Nat} {allowed rest : Option Nat}
    {entry : Entry} {entries : List Entry}
    (happend : append env actorUra (createdAt i) allowed r entry =
      (⟨r.store.advance (nextRecord env r.store actorUra (createdAt i) entry),
        { r.dir.appendLine (nextRecord env r.store actorUra (createdAt i) entry) with
          manifest := some (r.store.advance
            (nextRecord env r.store actorUra (createdAt i) entry)).manifest }⟩, .ok rest))
    (hlines : linesWritten allowed (entries.length + 1) = linesWritten rest entries.length + 1)
    (hcompletes : completes allowed (entries.length + 1) = completes rest entries.length)
    (hrest : (allowed.map fun n => n - 2 * (entries.length + 1)) =
      (rest.map fun n => n - 2 * entries.length))
    (hentries : AppendOutcome env owner actorUra createdAt (i + 1) rest
      ⟨r.store.advance (nextRecord env r.store actorUra (createdAt i) entry),
        { r.dir.appendLine (nextRecord env r.store actorUra (createdAt i) entry) with
          manifest := some (r.store.advance
            (nextRecord env r.store actorUra (createdAt i) entry)).manifest }⟩
      (J ++ [nextRecord env r.store actorUra (createdAt i) entry]) entries) :
    AppendOutcome env owner actorUra createdAt i allowed r J (entry :: entries) := by
  obtain ⟨hjournal, hmaps, hresult, hlast⟩ := hentries
  constructor
  · simp only [appendAll, happend, List.length_cons, hlines, nextRecords, List.take_succ_cons]
    rw [← List.singleton_append, ← List.append_assoc]
    exact hjournal
  · simp only [appendAll, happend]
    exact hmaps
  · simp only [appendAll, happend, List.length_cons, hcompletes, hrest]
    exact hresult
  · intro hdone
    rw [List.length_cons, hcompletes] at hdone
    have hmax : max r.store.lastSequence
        (nextRecord env r.store actorUra (createdAt i) entry).sequence =
          (nextRecord env r.store actorUra (createdAt i) entry).sequence :=
      Nat.max_eq_right (Nat.le_succ _)
    simp only [appendAll, happend, nextRecords]
    rw [hlast hdone, lastSequenceOf, lastSequenceOf, List.foldl_cons, hmax]
    rfl

/-- The outcome of the appends of an operation by an admissible actor. -/
theorem appendAll_spec (createdAt : Nat → Instant)
    (hactor : validateRuntimeIdentityUra env actorUra "policy journal actor_ura" = .ok ())
    (entries : List Entry) : ∀ (i : Nat) (allowed : Option Nat) (r : Running)
      (J : List JournalRecord), Journaled env owner r J →
      AppendOutcome env owner actorUra createdAt i allowed r J entries := by
  induction entries with
  | nil =>
    intro i allowed r J hj
    constructor
    · simpa [appendAll, nextRecords] using hj
    · rfl
    · cases allowed <;> simp [appendAll, completes]
    · intro _
      rfl
  | cons entry entries ih =>
    intro i allowed r J hj
    have hmanifest : validateManifest env
        (r.store.advance (nextRecord env r.store actorUra (createdAt i) entry)).manifest owner =
          .ok () := validateManifest_withHead _ hj.store_manifest
    have hj' := hj.extend hactor (createdAt i) entry ⟨_, rfl, hmanifest⟩
    -- `allowed` pays for no write of this append, for its line only, or for both writes
    rcases allowed with _ | n
    · refine AppendOutcome.cons ?_ rfl rfl rfl (ih (i + 1) none _ _ hj')
      simp [append, hactor, spend]
    · rcases n with _ | _ | m
      · have happend : append env actorUra (createdAt i) (some 0) r entry =
            ({ r with store := { r.store with lastSequence := r.store.lastSequence + 1 } },
              .error writeError) := by
          simp [append, hactor, spend, nextRecord]
        constructor
        · simpa [appendAll, happend, linesWritten] using hj.skip (Nat.le_succ _)
        · simp [appendAll, happend]
        · simp [appendAll, happend, completes]
        · simp [completes]
      · have happend : append env actorUra (createdAt i) (some 1) r entry =
            (⟨r.store.advance (nextRecord env r.store actorUra (createdAt i) entry),
              r.dir.appendLine (nextRecord env r.store actorUra (createdAt i) entry)⟩,
              .error writeError) := by
          simp [append, hactor, spend]
        have hline := hj.extend hactor (createdAt i) entry hj.dir_manifest
        rw [← appendLine_manifest r.dir (nextRecord env r.store actorUra (createdAt i) entry)]
          at hline
        have hshort : ¬ 2 * (entries.length + 1) ≤ 1 := by omega
        constructor
        · simpa [appendAll, happend, linesWritten, nextRecords] using hline
        · simp only [appendAll, happend]
          rfl
        · simp [appendAll, happend, completes, hshort]
        · simp [completes, hshort]
      · refine AppendOutcome.cons ?_ ?_ ?_ ?_ (ih (i + 1) (some m) _ _ hj')
        · simp [append, hactor, spend]
        · simp only [linesWritten]
          omega
        · simp only [completes, decide_eq_decide]
          omega
        · simp only [Option.map_some, Option.some.injEq]
          omega

end Writing

end EasyNetDaemon.Persistence
