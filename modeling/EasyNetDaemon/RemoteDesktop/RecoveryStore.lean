import Mathlib.Data.List.MinMax
import Mathlib.Data.Prod.Lex
import EasyNetDaemon.Library.KeyedList
import EasyNetDaemon.Library.StepRun
import EasyNetDaemon.RemoteDesktop.Recovery

/-!
# The store of recovery snapshots

The store has one file for each session id. A snapshot gets there by `save`, or as a candidate that
is staged first and promoted later; both replace a file by a later snapshot only. Later means: of a
newer incarnation, then of a higher lifecycle rank, then with a later event, then changed later
(`RecoverySnapshot.key`).

Where the snapshots of a session can be told apart by this key, the order in which they come does
not matter: the file has the greatest of them.
-/

namespace EasyNetDaemon.RemoteDesktop

open Library

/-! ## The store -/

/-- The largest snapshot. -/
def maxRecoverySnapshotBytes : Nat := 4 * 1024 * 1024

/-- `char::is_control`. -/
def isControl (c : Char) : Bool := c.toNat < 0x20 || (0x7f ≤ c.toNat && c.toNat ≤ 0x9f)

/-- `validate_session_id_for_path`. -/
def sessionIdSafeForPath (sessionId : String) : Bool :=
  !RustText.isBlank sessionId && !sessionId.toList.any fun ch =>
    ch == '/' || ch == '\\' || isControl ch || RustText.isWhitespace ch

/-- The files by session id, and the candidates that are staged. -/
structure RecoveryStore where
  files : List (String × RecoverySnapshot)
  staged : List RecoverySnapshot
  deriving DecidableEq, Repr

variable {r : RecoverySnapshot} {sessionId : String} {st : RecoveryStore}

namespace RecoveryStore

def empty : RecoveryStore := ⟨[], []⟩

/-- The snapshot of a session. -/
def load (st : RecoveryStore) (sessionId : String) : Option RecoverySnapshot :=
  st.files.lookup sessionId

/-- The file of a session is replaced. -/
def put (st : RecoveryStore) (r : RecoverySnapshot) : RecoveryStore :=
  { st with files := insertByKey r.sessionId r st.files }

section

-- the length of a serialized snapshot
variable (size : RecoverySnapshot → Nat)

/-- Whether the snapshot can be written at all. -/
def storable (r : RecoverySnapshot) : Bool :=
  r.validate.isSome && sessionIdSafeForPath r.sessionId &&
    decide (size r ≤ maxRecoverySnapshotBytes)

/-- Whether it succeeded, and the store. -/
def save (st : RecoveryStore) (r : RecoverySnapshot) : Bool × RecoveryStore :=
  if r.validate = none then (false, st)
  else if sessionIdSafeForPath r.sessionId = false then (false, st)
  else
    let replace : Option Bool :=
      match st.load r.sessionId with
      | some existing => existing.shouldReplace r
      | none => some true
    match replace with
    | none => (false, st)
    | some false => (true, st)
    | some true => if size r ≤ maxRecoverySnapshotBytes then (true, st.put r) else (false, st)

/-- Writes a candidate, which recovery does not look at. -/
def stage (st : RecoveryStore) (r : RecoverySnapshot) : Bool × RecoveryStore :=
  if r.validate = none then (false, st)
  else if sessionIdSafeForPath r.sessionId = false then (false, st)
  else if size r ≤ maxRecoverySnapshotBytes then (true, { st with staged := r :: st.staged })
  else (false, st)

end

/-- Moves a candidate to the file of its session; a stale one is removed with an error. -/
def promote (st : RecoveryStore) (r : RecoverySnapshot) : Bool × RecoveryStore :=
  let st := { st with staged := st.staged.erase r }
  match st.load r.sessionId with
  | some existing =>
    if existing = r then (true, st)
    else
      match existing.shouldReplace r with
      | none => (false, st)
      | some false => (false, st)
      | some true => (true, st.put r)
  | none => (true, st.put r)

/-- What happens to a store. -/
inductive Op
  | save (r : RecoverySnapshot)
  | stage (r : RecoverySnapshot)
  | promote (r : RecoverySnapshot)
  deriving DecidableEq, Repr

section

variable (size : RecoverySnapshot → Nat)

/-- Only a staged candidate can be promoted. -/
def step (st : RecoveryStore) : Op → Option RecoveryStore
  | .save r => some (st.save size r).2
  | .stage r => some (st.stage size r).2
  | .promote r => if r ∈ st.staged then some (st.promote r).2 else none

/-! ## What a write does to a file -/

/-- The file of a session after a snapshot of it was saved or promoted. -/
def replaced : Option RecoverySnapshot → RecoverySnapshot → Option RecoverySnapshot
  | none, r => some r
  | some existing, r => if existing.shouldReplace r = some true then some r else some existing

theorem load_put_self (st : RecoveryStore) (r : RecoverySnapshot) :
    (st.put r).load r.sessionId = some r :=
  lookup_insertByKey_self r.sessionId r st.files

theorem load_put_of_ne (st : RecoveryStore) (h : sessionId ≠ r.sessionId) :
    (st.put r).load sessionId = st.load sessionId :=
  lookup_insertByKey_of_ne h r st.files

variable {size}

theorem storable_iff : storable size r = true ↔
    r.validate ≠ none ∧ sessionIdSafeForPath r.sessionId ≠ false ∧
      size r ≤ maxRecoverySnapshotBytes := by
  simp [storable, Option.isSome_iff_ne_none, and_assoc]

theorem load_save_self (h : storable size r = true) :
    (st.save size r).2.load r.sessionId = replaced (st.load r.sessionId) r := by
  obtain ⟨hvalid, hsafe, hsize⟩ := storable_iff.1 h
  rw [save, if_neg hvalid, if_neg hsafe]
  cases hload : st.load r.sessionId with
  | none => simp only [hsize, if_true, load_put_self, replaced]
  | some existing =>
    simp only [replaced]
    cases hreplace : existing.shouldReplace r with
    | none => simp [hload]
    | some later =>
      cases later with
      | false => simp [hload]
      | true => simp only [hsize, if_true, load_put_self]

/-- A snapshot that cannot be stored leaves the store as it is. -/
theorem save_of_not_storable (h : storable size r = false) : (st.save size r).2 = st := by
  unfold save
  split
  next => rfl
  next hvalid =>
    split
    next => rfl
    next hsafe =>
      have hsize : ¬ size r ≤ maxRecoverySnapshotBytes := fun hsize =>
        Bool.false_ne_true (h.symm.trans (storable_iff.2 ⟨hvalid, hsafe, hsize⟩))
      rw [if_neg hsize]
      dsimp only
      split <;> rfl

theorem load_save_of_ne (st : RecoveryStore) (h : sessionId ≠ r.sessionId) :
    (st.save size r).2.load sessionId = st.load sessionId := by
  unfold save
  split
  next => rfl
  next =>
    split
    next => rfl
    next =>
      dsimp only
      split
      next => rfl
      next => rfl
      next =>
        split
        next => exact load_put_of_ne st h
        next => rfl

theorem staged_save (st : RecoveryStore) (r : RecoverySnapshot) :
    (st.save size r).2.staged = st.staged := by
  unfold save
  split
  next => rfl
  next =>
    split
    next => rfl
    next =>
      dsimp only
      split
      next => rfl
      next => rfl
      next => split <;> rfl

theorem load_stage (st : RecoveryStore) (r : RecoverySnapshot) (sessionId : String) :
    (st.stage size r).2.load sessionId = st.load sessionId := by
  unfold stage
  repeat' split
  all_goals rfl

theorem load_promote_self (st : RecoveryStore) (r : RecoverySnapshot) :
    (st.promote r).2.load r.sessionId = replaced (st.load r.sessionId) r := by
  unfold promote
  have hsame : RecoveryStore.load { st with staged := st.staged.erase r } r.sessionId =
    st.load r.sessionId := rfl
  simp only [hsame]
  cases hload : st.load r.sessionId with
  | none => exact load_put_self _ r
  | some existing =>
    simp only [replaced]
    by_cases heq : existing = r
    · -- the same snapshot is in the file
      subst heq
      rw [if_pos rfl]
      exact hload.trans (ite_self _).symm
    · rw [if_neg heq]
      cases hreplace : existing.shouldReplace r with
      | none => exact hload
      | some later =>
        cases later with
        | false => exact hload
        | true => exact load_put_self _ r

theorem load_promote_of_ne (st : RecoveryStore) (h : sessionId ≠ r.sessionId) :
    (st.promote r).2.load sessionId = st.load sessionId := by
  unfold promote
  dsimp only
  split
  next =>
    split
    next => rfl
    next =>
      split
      next => rfl
      next => rfl
      next => exact load_put_of_ne _ h
  next => exact load_put_of_ne _ h

theorem staged_promote (st : RecoveryStore) (r : RecoverySnapshot) :
    (st.promote r).2.staged = st.staged.erase r := by
  unfold promote
  dsimp only
  split
  next =>
    split
    next => rfl
    next => split <;> rfl
  next => rfl

end

end RecoveryStore

/-! ## The order of snapshots -/

namespace RecoverySnapshot

/-- What a snapshot is ordered by: the creation time, the lifecycle rank, the last event and the
time of the last change. -/
def key (r : RecoverySnapshot) : Nat ×ₗ Nat ×ₗ Nat ×ₗ Nat :=
  toLex (r.createdAtMs, toLex (r.lifecycleRank, toLex (r.lastEventSequence, r.updatedAtMs)))

theorem key_lt_key_iff (a b : RecoverySnapshot) : a.key < b.key ↔ a.createdAtMs < b.createdAtMs ∨
    a.createdAtMs = b.createdAtMs ∧ (a.lifecycleRank < b.lifecycleRank ∨
      a.lifecycleRank = b.lifecycleRank ∧ (a.lastEventSequence < b.lastEventSequence ∨
        a.lastEventSequence = b.lastEventSequence ∧ a.updatedAtMs < b.updatedAtMs)) := by
  simp [key, Prod.Lex.lt_iff]

/-- Creation times tell the incarnations of a session apart, and the keys its snapshots. -/
structure Distinguished (l : List RecoverySnapshot) : Prop where
  incarnation : ∀ a ∈ l, ∀ b ∈ l, a.sessionToken = b.sessionToken ↔ a.createdAtMs = b.createdAtMs
  snapshot : ∀ a ∈ l, ∀ b ∈ l, a ≠ b → a.key ≠ b.key

theorem Distinguished.mono {l l' : List RecoverySnapshot} (h : Distinguished l) (hl : l' ⊆ l) :
    Distinguished l' :=
  ⟨fun a ha b hb => h.incarnation a (hl ha) b (hl hb),
    fun a ha b hb => h.snapshot a (hl ha) b (hl hb)⟩

/-- Between such snapshots the decision of the store is the comparison of their keys. -/
theorem shouldReplace_eq_some_true_iff {l : List RecoverySnapshot} (hl : Distinguished l)
    {a b : RecoverySnapshot} (ha : a ∈ l) (hb : b ∈ l) (hid : a.sessionId = b.sessionId) :
    a.shouldReplace b = some true ↔ a.key < b.key := by
  have hincarnation := hl.incarnation a ha b hb
  rw [key_lt_key_iff, shouldReplace, if_neg (not_not.2 hid)]
  by_cases htoken : a.sessionToken = b.sessionToken
  · -- one incarnation: the rank and the revision decide
    have hcreated := hincarnation.1 htoken
    rw [if_neg (not_not.2 htoken)]
    simp only [revision]
    grind
  · have hcreated : a.createdAtMs ≠ b.createdAtMs := fun h => htoken (hincarnation.2 h)
    rw [if_pos htoken]
    grind

end RecoverySnapshot

namespace RecoveryStore

section

variable (size : RecoverySnapshot → Nat)

/-- The snapshots of a session that are saved or promoted and can be written. -/
def written (sessionId : String) (ops : List Op) : List RecoverySnapshot :=
  (ops.filterMap fun
    | .save r => some r
    | .promote r => some r
    | .stage _ => none).filter fun r => decide (r.sessionId = sessionId) && storable size r

variable {size}

theorem written_append (sessionId : String) (ops ops' : List Op) :
    written size sessionId (ops ++ ops') =
      written size sessionId ops ++ written size sessionId ops' := by
  simp [written]

variable {ops : List Op}

theorem storable_of_staged (h : runSteps (step size) empty ops = some st) :
    ∀ r ∈ st.staged, storable size r = true := by
  refine runSteps_preserves (I := fun st => ∀ r ∈ st.staged, storable size r = true) ?_
    (List.forall_mem_nil _) h
  intro st op st' hst hstep
  cases op with
  | save r =>
    cases hstep
    rwa [staged_save]
  | stage r =>
    cases hstep
    unfold stage
    split
    next => exact hst
    next hvalid =>
      split
      next => exact hst
      next hsafe =>
        split
        next hsize =>
          exact List.forall_mem_cons.2 ⟨storable_iff.2 ⟨hvalid, hsafe, hsize⟩, hst⟩
        next => exact hst
  | promote r =>
    cases (Option.ite_none_right_eq_some.1 hstep).2
    rw [staged_promote]
    exact fun r' hr' => hst r' (List.mem_of_mem_erase hr')

/-- One more operation writes its snapshot, if it has one for this session, to the file. -/
theorem load_step {st' : RecoveryStore} {op : Op} (sessionId : String)
    (h : runSteps (step size) empty ops = some st) (hstep : st.step size op = some st') :
    (written size sessionId [op] = [] ∧ st'.load sessionId = st.load sessionId) ∨
      ∃ r, r.sessionId = sessionId ∧ written size sessionId [op] = [r] ∧
        st'.load sessionId = replaced (st.load sessionId) r := by
  cases op with
  | save r =>
    cases hstep
    by_cases hid : r.sessionId = sessionId
    · subst hid
      cases hstorable : storable size r with
      | true => exact Or.inr ⟨r, rfl, by simp [written, hstorable], load_save_self hstorable⟩
      | false =>
        exact Or.inl ⟨by simp [written, hstorable], by rw [save_of_not_storable hstorable]⟩
    · exact Or.inl ⟨by simp [written, hid], load_save_of_ne st (Ne.symm hid)⟩
  | stage r =>
    cases hstep
    exact Or.inl ⟨rfl, load_stage st r sessionId⟩
  | promote r =>
    obtain ⟨hstaged, hstep⟩ := Option.ite_none_right_eq_some.1 hstep
    cases hstep
    have hstorable := storable_of_staged h r hstaged
    by_cases hid : r.sessionId = sessionId
    · subst hid
      exact Or.inr ⟨r, rfl, by simp [written, hstorable], load_promote_self st r⟩
    · exact Or.inl ⟨by simp [written, hid], load_promote_of_ne st (Ne.symm hid)⟩

theorem sessionId_of_mem_written (h : r ∈ written size sessionId ops) :
    r.sessionId = sessionId := by
  have := (List.mem_filter.1 h).2
  simp only [Bool.and_eq_true, decide_eq_true_eq] at this
  exact this.1

/-- The file has the snapshot with the greatest key. -/
theorem load_eq_argmax (h : runSteps (step size) empty ops = some st)
    (hl : RecoverySnapshot.Distinguished (written size sessionId ops)) :
    st.load sessionId = (written size sessionId ops).argmax RecoverySnapshot.key := by
  induction ops using List.reverseRecOn generalizing st with
  | nil =>
    cases h
    rfl
  | append_singleton ops op ih =>
    rw [runSteps_append] at h
    obtain ⟨st₁, hst₁, h⟩ := Option.bind_eq_some_iff.1 h
    obtain ⟨st₂, hstep, h⟩ := Option.bind_eq_some_iff.1 h
    cases h
    rw [written_append] at hl ⊢
    have ih := ih hst₁ (hl.mono (List.subset_append_left _ _))
    rcases load_step sessionId hst₁ hstep with ⟨hnone, hload⟩ | ⟨r, hid, hone, hload⟩
    · rw [hload, ih, hnone, List.append_nil]
    · rw [hone] at hl ⊢
      rw [hload, ih, List.argmax_concat]
      cases hbest : (written size sessionId ops).argmax RecoverySnapshot.key with
      | none => rfl
      | some best =>
        have hmem : best ∈ written size sessionId ops := List.argmax_mem hbest
        have hsame := (sessionId_of_mem_written hmem).trans hid.symm
        simp only [replaced]
        exact if_congr (RecoverySnapshot.shouldReplace_eq_some_true_iff hl
          (List.mem_append_left _ hmem) (List.mem_append_right _ (List.mem_singleton_self r)) hsame)
          rfl rfl

/-- In whatever order the snapshots of a session are saved, or staged and promoted, the greatest of
them is left; and on the way its key only grows, so that within one incarnation the lifecycle rank
does not fall. -/
theorem saves_commute {sessionId : String} {ops : List Op} {st : RecoveryStore}
    (h : runSteps (step size) empty ops = some st)
    (hl : RecoverySnapshot.Distinguished (written size sessionId ops)) :
    (∀ r, st.load sessionId = some r ↔ r ∈ written size sessionId ops ∧
      ∀ r' ∈ written size sessionId ops, r'.key ≤ r.key) ∧
    ∀ m n, m ≤ n → ∀ stₘ stₙ, runSteps (step size) empty (ops.take m) = some stₘ →
      runSteps (step size) empty (ops.take n) = some stₙ → ∀ r, stₘ.load sessionId = some r →
        ∃ r', stₙ.load sessionId = some r' ∧ r.key ≤ r'.key ∧
          (r.sessionToken = r'.sessionToken → r.lifecycleRank ≤ r'.lifecycleRank) := by
  have hstart : ∀ {m n : Nat}, m ≤ n →
      written size sessionId (ops.take m) ⊆ written size sessionId (ops.take n) := by
    intro m n hmn
    rw [← List.take_append_drop m (ops.take n), List.take_take, min_eq_left hmn, written_append]
    exact List.subset_append_left _ _
  have hall : ∀ n, written size sessionId (ops.take n) ⊆ written size sessionId ops := by
    intro n
    conv_rhs => rw [← List.take_append_drop n ops, written_append]
    exact List.subset_append_left _ _
  refine ⟨fun r => ?_, fun m n hmn stₘ stₙ hₘ hₙ r hr => ?_⟩
  · rw [load_eq_argmax h hl]
    constructor
    · intro hbest
      exact ⟨List.argmax_mem hbest, fun r' hr' => List.le_of_mem_argmax hr' hbest⟩
    · rintro ⟨hr, hgreatest⟩
      cases hbest : (written size sessionId ops).argmax RecoverySnapshot.key with
      | none => exact absurd hr (List.argmax_eq_none.1 hbest ▸ List.not_mem_nil)
      | some best =>
        have hmem : best ∈ written size sessionId ops := List.argmax_mem hbest
        have heq := le_antisymm (hgreatest best hmem) (List.le_of_mem_argmax hr hbest)
        by_contra hne
        exact hl.snapshot best hmem r hr (fun h => hne (congrArg some h)) heq
  · rw [load_eq_argmax hₘ (hl.mono (hall m))] at hr
    have hmem : r ∈ written size sessionId (ops.take m) := List.argmax_mem hr
    have hmem' := hstart hmn hmem
    cases hbest : (written size sessionId (ops.take n)).argmax RecoverySnapshot.key with
    | none => exact absurd hmem' (List.argmax_eq_none.1 hbest ▸ List.not_mem_nil)
    | some best =>
      have hle := List.le_of_mem_argmax hmem' hbest
      refine ⟨best, by rw [load_eq_argmax hₙ (hl.mono (hall n)), hbest], hle, fun htoken => ?_⟩
      have hcreated :=
        (hl.incarnation r (hall m hmem) best (hall n (List.argmax_mem hbest))).1 htoken
      by_contra hrank
      refine absurd hle
        (not_le.2 ((RecoverySnapshot.key_lt_key_iff best r).2 (Or.inr ⟨?_, Or.inl ?_⟩)))
      · exact hcreated.symm
      · exact not_le.1 hrank

end

/-- A snapshot of the session with id `session`. -/
def sampleSnapshot (token : String) (createdAtMs updatedAtMs : Nat) (state : String) :
    RecoverySnapshot where
  schemaVersion := 2
  sessionId := "session"
  sessionToken := token
  creatorCallerUra := "easynet:///r/localhost/user/u1"
  selectedResourceUra := "easynet:///r/localhost/resource/device.dev/streams/window.1"
  subjectDisplayName := "Recovered window"
  targetBinding := ⟨true, "binding"⟩
  targetTracking := none
  consent := ⟨true, "consent"⟩
  mode := "view_only"
  transportPreferences := ["webrtc"]
  video := ⟨true, "video"⟩
  inputPolicy := ⟨true, "input"⟩
  createdAtMs
  updatedAtMs
  leaseExpiresAtMs := createdAtMs + 60000
  lifecycleState := state
  terminationReason := if state = "closing" then some "user_request" else none
  transportEpochHighWatermark := 0
  inputRuntimeBlockReason := none
  terminalReceipt := none
  events := []

/-- The closing intent of an incarnation is promoted last, behind a delayed active snapshot of
it. -/
def sampleOps : List Op :=
  [.stage (sampleSnapshot "first" 10 30 "closing"),
    .save (sampleSnapshot "first" 10 20 "connected"),
    .promote (sampleSnapshot "first" 10 30 "closing"),
      .save (sampleSnapshot "first" 10 40 "connected")]

theorem saves_commute_sampleOps :
    ∃ st, runSteps (step fun _ => 0) empty sampleOps = some st ∧
      st.load "session" = some (sampleSnapshot "first" 10 30 "closing") := by
  have hrun : (runSteps (step fun _ => 0) empty sampleOps).isSome = true := by decide +kernel
  obtain ⟨st, hst⟩ := Option.isSome_iff_exists.1 hrun
  have hl : RecoverySnapshot.Distinguished (written (fun _ => 0) "session" sampleOps) :=
    ⟨by decide +kernel, by decide +kernel⟩
  exact ⟨st, hst, ((saves_commute hst hl).1 _).2 ⟨by decide +kernel, by decide +kernel⟩⟩

end RecoveryStore

end EasyNetDaemon.RemoteDesktop
