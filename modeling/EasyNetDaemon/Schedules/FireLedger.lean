import EasyNetDaemon.Schedules.ScheduleService

/-!
# The fires of one schedule

What `due` returns for one schedule out of the instants since its last fire (`dueEntry_eq`), how
reserving moves the last fire (`lastFire_reserves`), and that the schedules of a service do not
touch each other (`due_of_find`, `find_reserveAll`). The store and the clones that are still to be
saved have every schedule up to its ledger (`Stored`).
-/

namespace EasyNetDaemon.Schedules

open Library

/-! ## Missed instants -/

section Instants

variable {cron : Enumeration} {anchor now t : Int}

theorem mem_firesBetween : t ∈ firesBetween cron anchor now ↔
    ∃ s, t = s * nanosPerSec ∧ cron.Occurs s ∧ anchor < t ∧ t ≤ now := by
  simp only [firesBetween, List.mem_map, Enumeration.mem_between]
  constructor
  · rintro ⟨s, ⟨hs, hlow, hhigh⟩, rfl⟩
    refine ⟨s, rfl, hs, ?_, ?_⟩ <;> simp only [nanosPerSec] at * <;> omega
  · rintro ⟨s, rfl, hs, hlow, hhigh⟩
    refine ⟨s, ⟨hs, ?_, ?_⟩, rfl⟩ <;> simp only [nanosPerSec] at * <;> omega

theorem firesBetween_pairwise (cron : Enumeration) (anchor now : Int) :
    (firesBetween cron anchor now).Pairwise (· < ·) := by
  refine (Enumeration.between_pairwise _ _).map _ fun a b hab => ?_
  simp only [nanosPerSec]
  omega

/-- The last of a list in increasing order is its greatest element. -/
theorem le_getLast {l : List Int} (h : l.Pairwise (· < ·)) {last : Int}
    (hlast : l.getLast? = some last) {x : Int} (hx : x ∈ l) : x ≤ last := by
  obtain ⟨pre, rfl⟩ := List.getLast?_eq_some_iff.1 hlast
  rcases List.mem_append.1 hx with hx | hx
  · exact Int.le_of_lt ((List.pairwise_append.1 h).2.2 x hx last (by simp))
  · exact Int.le_of_eq (List.mem_singleton.1 hx)

end Instants

/-! ## One entry -/

/-- What an entry's policy selects out of the missed instants. -/
def selectFires (entry : ScheduleEntry) (now : DateTime) (missed : List Int) :
    Except DueError (List Int) :=
  if missed = [] then .ok []
  else
    match entry.misfirePolicy with
    | .skip => .ok missed.getLast?.toList
    | .fireOnce => .ok missed.head?.toList
    | .catchUpWindowed =>
      match durationSeconds (catchUpSecondsFor entry) with
      | none => .error .outOfRange
      | some window => .ok (missed.filter fun t => now.nanos - t ≤ window)

section Entry

variable {env : ScheduleEnv} {entry : ScheduleEntry} {now : DateTime} {cron : Enumeration}
  {anchor : Int}

theorem dueEntry_eq (hcron : parseEntryCron env entry = .ok cron)
    (hlast : entry.lastFire = some anchor) :
    dueEntry env entry now = (selectFires entry now (firesBetween cron anchor now.nanos)).map
      (List.map fun t =>
        ⟨entry.id, t, decide (1 < (firesBetween cron anchor now.nanos).length)⟩) := by
  have hanchor : anchorFor entry now = .ok anchor := by simp [anchorFor, hlast]
  simp only [dueEntry, hcron, hanchor, Bind.bind, Except.bind, selectFires]
  by_cases hnil : firesBetween cron anchor now.nanos = []
  · simp [hnil, Except.map, pure, Except.pure]
  · rw [if_neg hnil, if_neg (by simpa using hnil)]
    cases entry.misfirePolicy with
    | skip => rfl
    | fireOnce => rfl
    | catchUpWindowed => cases durationSeconds (catchUpSecondsFor entry) <;> rfl

/-- The fires of an entry carry its id. -/
theorem scheduleId_of_mem_dueEntry {fires : List DueFire} (h : dueEntry env entry now = .ok fires) :
    ∀ fire ∈ fires, fire.scheduleId = entry.id := by
  simp only [dueEntry] at h
  obtain ⟨cron, -, h⟩ := bind_eq_ok_iff.1 h
  obtain ⟨anchor, -, h⟩ := bind_eq_ok_iff.1 h
  have hall : ∀ (l : List Int) (catchUp : Bool),
      ∀ fire ∈ l.map (fun t => (⟨entry.id, t, catchUp⟩ : DueFire)), fire.scheduleId = entry.id := by
    intro l catchUp fire hfire
    obtain ⟨t, -, rfl⟩ := List.mem_map.1 hfire
    rfl
  split at h
  · cases h
    intro fire hfire
    cases hfire
  · split at h
    · cases h
      exact hall _ _
    · cases h
      exact hall _ _
    · split at h
      · cases h
      · cases h
        exact hall _ _

/-- What is selected are missed instants, in order. -/
theorem selectFires_sublist {missed sel : List Int} (h : selectFires entry now missed = .ok sel) :
    sel.Sublist missed := by
  unfold selectFires at h
  split at h
  · cases h
    exact List.nil_sublist _
  · split at h
    · cases h
      cases hlast : missed.getLast? with
      | none => exact List.nil_sublist _
      | some last => exact List.singleton_sublist.2 (List.mem_of_getLast? hlast)
    · cases h
      cases hhead : missed.head? with
      | none => exact List.nil_sublist _
      | some first => exact List.singleton_sublist.2 (List.mem_of_head? hhead)
    · split at h
      · cases h
      · cases h
        exact List.filter_sublist

/-! ## The last fire -/

/-- The entry after an update of its ledger; a refused one leaves it. -/
def ScheduleEntry.update (entry : ScheduleEntry) (record : ScheduleFireRecord) : ScheduleEntry :=
  match updateLedger entry.id entry.fireLedger record with
  | .ok ledger => { entry with fireLedger := ledger }
  | .error _ => entry

/-- An entry with another ledger. -/
def SameSchedule (entry entry' : ScheduleEntry) : Prop :=
  ∃ ledger, entry' = { entry with fireLedger := ledger }

theorem SameSchedule.refl (entry : ScheduleEntry) : SameSchedule entry entry := ⟨_, rfl⟩

theorem SameSchedule.trans {e₁ e₂ e₃ : ScheduleEntry} (h : SameSchedule e₁ e₂)
    (h' : SameSchedule e₂ e₃) : SameSchedule e₁ e₃ := by
  obtain ⟨l, rfl⟩ := h
  obtain ⟨l', rfl⟩ := h'
  exact ⟨l', rfl⟩

theorem sameSchedule_update (entry : ScheduleEntry) (record : ScheduleFireRecord) :
    SameSchedule entry (entry.update record) := by
  unfold ScheduleEntry.update
  split
  · exact ⟨_, rfl⟩
  · exact .refl entry

theorem lastFire_eq_some_iff : entry.lastFire = some anchor ↔ ∃ key, key ∈ entry.fireLedger.keys ∧
    (∀ k ∈ entry.fireLedger.keys, k ≤ key) ∧ anchor = key * nanosPerMilli ∧ minUtc ≤ anchor ∧
    anchor ≤ maxUtc := by
  simp only [ScheduleEntry.lastFire, Option.bind_eq_some_iff, List.max?_eq_some_iff,
    timestampMillisOpt]
  constructor
  · rintro ⟨key, ⟨hmem, hmax⟩, h⟩
    split at h
    · rename_i hrange
      cases h
      exact ⟨key, hmem, hmax, rfl, hrange.1, hrange.2⟩
    · cases h
  · rintro ⟨key, hmem, hmax, rfl, hlow, hhigh⟩
    exact ⟨key, ⟨hmem, hmax⟩, if_pos ⟨hlow, hhigh⟩⟩

/-- Reserving a later instant makes it the last fire. -/
theorem lastFire_reserve {fire : DueFire} {s : Int} (hlast : entry.lastFire = some anchor)
    (hwhole : fire.fireAt = s * nanosPerSec) (hlater : anchor < fire.fireAt)
    (hrange : fire.fireAt ≤ maxUtc) :
    (entry.update (reservedRecord fire)).lastFire = some fire.fireAt := by
  obtain ⟨key, hmem, hmax, rfl, hlow, -⟩ := lastFire_eq_some_iff.1 hlast
  have hmillis : fire.fireAt = timestampMillis fire.fireAt * nanosPerMilli := by
    rw [hwhole]
    simp only [timestampMillis, nanosPerSec, nanosPerMilli]
    omega
  have hkey : key < timestampMillis fire.fireAt := by
    simp only [nanosPerMilli] at *
    omega
  -- the new key is not in the ledger, as it is greater than all of them
  have hfresh : timestampMillis fire.fireAt ∉ entry.fireLedger := by
    intro h
    exact absurd (hmax _ (AList.mem_keys.1 h)) (by omega)
  have hledger : updateLedger entry.id entry.fireLedger (reservedRecord fire) =
      .ok (entry.fireLedger.insert (timestampMillis fire.fireAt) (reservedRecord fire)) := by
    simp [updateLedger, reservedRecord, AList.lookup_eq_none.2 hfresh, bailIf, Bind.bind,
      Except.bind, pure, Except.pure]
  simp only [ScheduleEntry.update, hledger]
  refine lastFire_eq_some_iff.2 ⟨timestampMillis fire.fireAt, ?_, ?_, hmillis, ?_, hrange⟩
  · simp [AList.keys_insert]
  · intro k hk
    rcases (AList.mem_insert _).1 (AList.mem_keys.2 hk) with rfl | hk
    · exact Int.le_refl _
    · exact Int.le_of_lt (Int.lt_of_le_of_lt (hmax k (AList.mem_keys.1 hk)) hkey)
  · omega

/-- The end of a fire keeps the last fire. -/
theorem lastFire_settle {record : ScheduleFireRecord} (hstate : record.state ≠ .reserved)
    (hlast : entry.lastFire = some anchor) : (entry.update record).lastFire = some anchor := by
  unfold ScheduleEntry.update
  split
  · rename_i ledger hledger
    simp only [updateLedger] at hledger
    split at hledger
    · rename_i previous hprevious
      obtain ⟨-, h⟩ := check_bind_eq_ok_iff.1 hledger
      cases h
      have hold : record.fireAtUnixMs ∈ entry.fireLedger :=
        AList.lookup_isSome.1 (by rw [hprevious]; rfl)
      obtain ⟨key, hmem, hmax, hkey⟩ := lastFire_eq_some_iff.1 hlast
      refine lastFire_eq_some_iff.2 ⟨key, ?_, ?_, hkey⟩
      · exact AList.mem_keys.1 ((AList.mem_insert _).2 (Or.inr (AList.mem_keys.2 hmem)))
      · intro k hk
        rcases (AList.mem_insert _).1 (AList.mem_keys.2 hk) with rfl | hk
        · exact hmax _ (AList.mem_keys.1 hold)
        · exact hmax k (AList.mem_keys.1 hk)
    · obtain ⟨hreserved, -⟩ := check_bind_eq_ok_iff.1 hledger
      simp [hstate] at hreserved
  · exact hlast

/-- Reserving instants in increasing order. -/
theorem lastFire_reserves {fires : List DueFire} (hlast : entry.lastFire = some anchor)
    (hwhole : ∀ fire ∈ fires, ∃ s, fire.fireAt = s * nanosPerSec)
    (hsorted : (fires.map DueFire.fireAt).Pairwise (· < ·))
    (hlater : ∀ fire ∈ fires, anchor < fire.fireAt)
    (hrange : ∀ fire ∈ fires, fire.fireAt ≤ maxUtc) :
    SameSchedule entry (fires.foldl (fun e fire => e.update (reservedRecord fire)) entry) ∧
      (fires.foldl (fun e fire => e.update (reservedRecord fire)) entry).lastFire =
        some ((fires.map DueFire.fireAt).getLast?.getD anchor) := by
  induction fires generalizing entry anchor with
  | nil => exact ⟨.refl entry, hlast⟩
  | cons fire rest ih =>
    obtain ⟨s, hs⟩ := hwhole fire List.mem_cons_self
    have hnext := lastFire_reserve hlast hs (hlater fire List.mem_cons_self)
      (hrange fire List.mem_cons_self)
    rw [List.map_cons, List.pairwise_cons] at hsorted
    obtain ⟨hsame, hend⟩ := ih hnext (fun f hf => hwhole f (List.mem_cons_of_mem _ hf)) hsorted.2
      (fun f hf => hsorted.1 _ (List.mem_map_of_mem hf))
      (fun f hf => hrange f (List.mem_cons_of_mem _ hf))
    refine ⟨(sameSchedule_update entry _).trans hsame, hend.trans ?_⟩
    rw [List.map_cons, List.getLast?_cons]
    rfl

end Entry

/-! ## The entries of the service -/

section Service

variable {env : ScheduleEnv} {id : String}

theorem find_id {t : ScheduleTable} {entry : ScheduleEntry} (h : t.find id = some entry) :
    entry.id = id := by
  simpa using List.find?_some h

/-- A replacement reaches the entry with its id only. -/
theorem find_put (t : ScheduleTable) (new : ScheduleEntry) :
    (t.put new).find id = (t.find id).map fun entry => if new.id = id then new else entry := by
  have hcomp : ((fun entry : ScheduleEntry => decide (entry.id = id)) ∘ fun entry : ScheduleEntry =>
      entry.replacedBy new) = fun entry : ScheduleEntry => decide (entry.id = id) := by
    funext entry
    simp only [Function.comp_apply, ScheduleEntry.replacedBy]
    split
    · next hid => rw [hid]
    · rfl
  simp only [ScheduleTable.find, ScheduleTable.put, List.find?_map, hcomp]
  refine Option.map_congr fun entry hentry => ?_
  have hid : entry.id = id := by simpa using List.find?_some hentry
  simp [ScheduleEntry.replacedBy, hid, eq_comm]

/-- What an update does: nothing, or it replaces the entry by one with another ledger, a clone of
which is to be saved. -/
theorem updateFireRecord_cases (s : ScheduleService) (id : String) (record : ScheduleFireRecord) :
    ((updateFireRecord s id record).toOption.getD s = s ∧
      ∀ entry, s.cache.find id = some entry → entry.update record = entry) ∨
    ∃ entry, s.cache.find id = some entry ∧ (updateFireRecord s id record).toOption.getD s =
      { s with
        cache := s.cache.put (entry.update record)
        unsaved := s.unsaved ++ [entry.update record] } := by
  simp only [updateFireRecord]
  cases hfind : s.cache.find id with
  | none => exact Or.inl ⟨rfl, by simp⟩
  | some entry =>
    have hentry := find_id hfind
    cases hledger : updateLedger id entry.fireLedger record with
    | error message =>
      refine Or.inl ⟨by simp [hledger, Except.toOption, Bind.bind, Except.bind], ?_⟩
      rintro _ ⟨⟩
      simp [ScheduleEntry.update, hentry, hledger]
    | ok ledger =>
      refine Or.inr ⟨entry, rfl, ?_⟩
      simp [hledger, Except.toOption, Bind.bind, Except.bind, pure, Except.pure,
        ScheduleEntry.update, hentry]

theorem id_update (entry : ScheduleEntry) (record : ScheduleFireRecord) :
    (entry.update record).id = entry.id := by
  obtain ⟨ledger, h⟩ := sameSchedule_update entry record
  rw [h]

/-- An update reaches the entry with its id only. -/
theorem find_updateFireRecord (s : ScheduleService) (id' : String) (record : ScheduleFireRecord) :
    ((updateFireRecord s id' record).toOption.getD s).cache.find id =
      (s.cache.find id).map fun entry => if id' = id then entry.update record else entry := by
  rcases updateFireRecord_cases s id' record with ⟨hsame, hkept⟩ | ⟨entry, hfind, hupdate⟩
  · rw [hsame]
    by_cases hid : id' = id
    · subst hid
      cases hfind : s.cache.find id' with
      | none => rfl
      | some entry => simp [hkept entry hfind]
    · simp [hid]
  · rw [hupdate]
    show (s.cache.put _).find id = _
    rw [find_put, id_update, find_id hfind]
    by_cases hid : id' = id
    · subst hid
      simp [hfind]
    · simp [hid]

theorem find_reserveAll (s : ScheduleService) (fires : List DueFire) :
    (reserveAll s fires).cache.find id = (s.cache.find id).map fun entry =>
      (fires.filter fun fire => fire.scheduleId = id).foldl
        (fun e fire => e.update (reservedRecord fire)) entry := by
  induction fires generalizing s with
  | nil => simp [reserveAll]
  | cons fire rest ih =>
    rw [reserveAll, List.foldl_cons, ← reserveAll, ih, reserveFire, find_updateFireRecord,
      Option.map_map]
    by_cases hid : fire.scheduleId = id
    · simp [hid, Function.comp_def]
    · simp [hid, Function.comp_def]

theorem due_append (l l' : List ScheduleEntry) (now : DateTime) :
    due env (l ++ l') now = (do
      let fires ← due env l now
      let others ← due env l' now
      return fires ++ others) := by
  induction l with
  | nil => cases h : due env l' now <;> simp [due, h, Bind.bind, Except.bind, pure, Except.pure]
  | cons entry rest ih =>
    simp only [List.cons_append, due, ih]
    split
    · cases dueEntry env entry now <;> cases due env rest now <;> cases due env l' now <;>
        simp [Bind.bind, Except.bind, pure, Except.pure]
    · rfl

/-- Entries with other ids, each of which is answered. -/
theorem due_others {l : List ScheduleEntry} {now : DateTime} (hids : ∀ e ∈ l, e.id ≠ id)
    (hreturn : ∀ e ∈ l, e.enabled = true → ∃ fires, dueEntry env e now = .ok fires) :
    ∃ fires, due env l now = .ok fires ∧ fires.filter (fun fire => fire.scheduleId = id) = [] := by
  induction l with
  | nil => exact ⟨[], rfl, rfl⟩
  | cons entry rest ih =>
    obtain ⟨others, hothers, hnone⟩ := ih (fun e he => hids e (List.mem_cons_of_mem _ he))
      (fun e he => hreturn e (List.mem_cons_of_mem _ he))
    simp only [due]
    split
    · rename_i henabled
      obtain ⟨fires, hfires⟩ := hreturn entry List.mem_cons_self henabled
      refine ⟨fires ++ others,
        by simp [hfires, hothers, Bind.bind, Except.bind, pure, Except.pure], ?_⟩
      rw [List.filter_append, hnone, List.append_nil, List.filter_eq_nil_iff]
      intro fire hfire
      rw [scheduleId_of_mem_dueEntry hfires fire hfire]
      simpa using hids entry List.mem_cons_self
    · exact ⟨others, hothers, hnone⟩

/-- The part of `due` that is about one schedule, when the other ones are answered. -/
theorem due_of_find {t : ScheduleTable} {entry : ScheduleEntry} {now : DateTime}
    (hfind : t.find id = some entry) (henabled : entry.enabled = true)
    (hothers : ∀ e ∈ t.entries, e.id ≠ id → e.enabled = true →
      ∃ fires, dueEntry env e now = .ok fires) :
    (∀ own, dueEntry env entry now = .ok own → ∃ fires, due env t.entries now = .ok fires ∧
      fires.filter (fun fire => fire.scheduleId = id) = own) ∧
      ∀ error, dueEntry env entry now = .error error → due env t.entries now = .error error := by
  obtain ⟨hid, before, after, hcache, hbefore⟩ := List.find?_eq_some_iff_append.1 hfind
  have hid : entry.id = id := by simpa using hid
  have hbefore : ∀ e ∈ before, e.id ≠ id := fun e he => by simpa using hbefore e he
  -- no later entry has the id, as the ids are distinct
  have hafter : ∀ e ∈ after, e.id ≠ id := by
    intro e he heq
    have hnodup := t.nodup
    rw [hcache, List.map_append, List.map_cons] at hnodup
    have hnot := (List.nodup_cons.1 (List.nodup_append.1 hnodup).2.1).1
    exact hnot (by rw [hid, ← heq]; exact List.mem_map_of_mem he)
  obtain ⟨fires₁, hfires₁, hnone₁⟩ := due_others hbefore
    (fun e he => hothers e (by rw [hcache]; simp [he]) (hbefore e he))
  obtain ⟨fires₂, hfires₂, hnone₂⟩ := due_others hafter
    (fun e he => hothers e (by rw [hcache]; simp [he]) (hafter e he))
  rw [hcache, due_append, hfires₁]
  simp only [due, henabled, if_true, hfires₂]
  constructor
  · intro own hown
    refine ⟨fires₁ ++ (own ++ fires₂),
      by simp [hown, Bind.bind, Except.bind, pure, Except.pure], ?_⟩
    have hall : own.filter (fun fire => fire.scheduleId = id) = own :=
      List.filter_eq_self.2 fun fire hfire => by
        simpa [hid] using scheduleId_of_mem_dueEntry hown fire hfire
    rw [List.filter_append, List.filter_append, hnone₁, hnone₂, hall, List.nil_append,
      List.append_nil]
  · intro error herror
    simp [herror, Bind.bind, Except.bind]

end Service

/-! ## Cache and store -/

/-- What the store and the clones have of a schedule, up to its ledger. -/
structure Stored (s : ScheduleService) (entry : ScheduleEntry) : Prop where
  store : ∃ e, s.store.find entry.id = some e ∧ SameSchedule entry e
  unsaved : ∀ e ∈ s.unsaved, e.id = entry.id → SameSchedule entry e

section Stored

variable {s s' : ScheduleService} {entry : ScheduleEntry}

theorem Stored.updateFireRecord (h : Stored s entry) {e : ScheduleEntry}
    (hfind : s.cache.find entry.id = some e) (hsame : SameSchedule entry e) (id : String)
    (record : ScheduleFireRecord) :
    Stored ((updateFireRecord s id record).toOption.getD s) entry := by
  rcases updateFireRecord_cases s id record with ⟨hkept, -⟩ | ⟨e', hfind', hupdate⟩
  · rwa [hkept]
  · rw [hupdate]
    refine ⟨h.store, fun clone hclone hid => ?_⟩
    rcases List.mem_append.1 hclone with hclone | hclone
    · exact h.unsaved clone hclone hid
    · rw [List.mem_singleton.1 hclone] at hid ⊢
      rw [id_update, find_id hfind'] at hid
      rw [hid, hfind] at hfind'
      cases hfind'
      exact hsame.trans (sameSchedule_update e record)

theorem Stored.reserveAll (h : Stored s entry) {e : ScheduleEntry}
    (hfind : s.cache.find entry.id = some e) (hsame : SameSchedule entry e)
    (fires : List DueFire) : Stored (reserveAll s fires) entry := by
  induction fires generalizing s e with
  | nil => exact h
  | cons fire rest ih =>
    have hnext := h.updateFireRecord hfind hsame fire.scheduleId (reservedRecord fire)
    refine ih hnext (e := if fire.scheduleId = entry.id then e.update (reservedRecord fire) else e)
      ?_ ?_
    · refine (find_updateFireRecord s fire.scheduleId (reservedRecord fire)).trans ?_
      rw [hfind]
      rfl
    · split
      · exact hsame.trans (sameSchedule_update e _)
      · exact hsame

theorem Stored.saveClone (h : Stored s entry) {i : Nat} (hsave : saveClone s i = some s') :
    Stored s' entry := by
  obtain ⟨clone, hclone, rfl⟩ := Option.map_eq_some_iff.1 hsave
  obtain ⟨e, hfind, hsame⟩ := h.store
  refine ⟨?_, fun e' he' => h.unsaved e' (List.mem_of_mem_eraseIdx he')⟩
  rw [find_put, hfind]
  refine ⟨_, rfl, ?_⟩
  split
  · next hid => exact h.unsaved clone (List.mem_of_getElem? hclone) hid
  · exact hsame

end Stored

/-! ## The ids -/

/-- The ids of the schedules in the cache and of those in the store. -/
def ids (s : ScheduleService) : List String × List String :=
  (s.cache.entries.map ScheduleEntry.id, s.store.entries.map ScheduleEntry.id)

end EasyNetDaemon.Schedules
