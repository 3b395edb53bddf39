import EasyNetDaemon.Eal.Planner

/-!
# The ranges of the phases

The planner walks over the phases of the scheduled steps, which are in ascending order, and ends a
range whenever a larger phase begins. `Emitted` is what holds after any number of steps; the ranges
it yields follow one another without gap, and the range of phase `p` holds exactly the steps of
phase `p` (`phaseRanges_contiguous`, `mem_phaseRange_iff`).
-/

namespace EasyNetDaemon.Eal

/-- Ranges that follow one another from `start` to `stop`. -/
def Contiguous : Nat → List PhaseRange → Nat → Prop
  | start, [], stop => start = stop
  | start, r :: rest, stop => r.start = start ∧ r.start ≤ r.stop ∧ Contiguous r.stop rest stop

theorem Contiguous.append {start mid stop : Nat} {rs rs' : List PhaseRange}
    (h : Contiguous start rs mid) (h' : Contiguous mid rs' stop) :
    Contiguous start (rs ++ rs') stop := by
  induction rs generalizing start with
  | nil =>
    cases h
    exact h'
  | cons r rs ih => exact ⟨h.1, h.2.1, ih h.2.2⟩

theorem Contiguous.le {start stop : Nat} {rs : List PhaseRange} (h : Contiguous start rs stop) :
    start ≤ stop := by
  induction rs generalizing start with
  | nil => exact Nat.le_of_eq h
  | cons r rs ih =>
    obtain ⟨rfl, hle, hrest⟩ := h
    exact hle.trans (ih hrest)

theorem contiguous_replicate (n e : Nat) : Contiguous e (List.replicate n ⟨e, e⟩) e := by
  induction n with
  | zero => rfl
  | succ n ih => exact ⟨rfl, le_refl e, ih⟩

theorem curPhase_close_iterate (outIdx n : Nat) (em : PhaseEmission) :
    ((PhaseEmission.close outIdx)^[n] em).curPhase = em.curPhase + n := by
  induction n generalizing em with
  | zero => rfl
  | succ n ih =>
    rw [Function.iterate_succ_apply, ih]
    simp only [PhaseEmission.close]
    omega

/-- A larger phase becomes the current one. -/
theorem curPhase_advance {em : PhaseEmission} {phase : Nat} (outIdx : Nat)
    (h : em.curPhase ≤ phase) : (em.advance phase outIdx).curPhase = phase := by
  rw [PhaseEmission.advance, curPhase_close_iterate]
  exact Nat.add_sub_cancel' h

/-- After the steps whose phases are `levels`: the ended ranges hold the steps of their phases, and
the current phase holds the rest. -/
structure Emitted (levels : List Nat) (em : PhaseEmission) : Prop where
  length_eq : em.phases.length = em.curPhase
  contiguous : Contiguous 0 em.phases em.phaseStart
  start_le : em.phaseStart ≤ levels.length
  le_cur : ∀ k q : Nat, levels[k]? = some q → q ≤ em.curPhase
  current : ∀ k : Nat, levels[k]? = some em.curPhase ↔ em.phaseStart ≤ k ∧ k < levels.length
  ended : ∀ (p : Nat) (r : PhaseRange), em.phases[p]? = some r →
    ∀ k : Nat, levels[k]? = some p ↔ r.start ≤ k ∧ k < r.stop

namespace Emitted

theorem initial : Emitted [] { phases := [], curPhase := 0, phaseStart := 0 } where
  length_eq := rfl
  contiguous := rfl
  start_le := le_refl 0
  le_cur := by simp
  current := by simp
  ended := by simp

variable {levels : List Nat} {em : PhaseEmission}

/-- Ending the current phase. -/
theorem close (h : Emitted levels em) : Emitted levels (em.close levels.length) where
  length_eq := by simp [PhaseEmission.close, h.length_eq]
  contiguous := h.contiguous.append ⟨rfl, h.start_le, rfl⟩
  start_le := le_refl _
  le_cur := fun k q hk => Nat.le_succ_of_le (h.le_cur k q hk)
  current := by
    intro k
    -- no step has the new phase yet, and no index lies between the end and the end
    constructor
    · intro hk
      exact absurd (h.le_cur k _ hk) (Nat.not_succ_le_self _)
    · rintro ⟨hle, hlt⟩
      exact absurd hlt (Nat.not_lt.2 hle)
  ended := by
    intro p r hr k
    simp only [PhaseEmission.close, List.getElem?_append, h.length_eq] at hr
    split at hr
    · exact h.ended p r hr k
    · rename_i hp
      have hzero : p - em.curPhase = 0 := by
        by_contra hne
        obtain ⟨m, hm⟩ := Nat.exists_eq_succ_of_ne_zero hne
        rw [hm] at hr
        simp at hr
      have hpeq : p = em.curPhase := by omega
      rw [hzero, List.getElem?_cons_zero, Option.some.injEq] at hr
      subst hr
      rw [hpeq]
      exact h.current k

theorem close_iterate (n : Nat) (h : Emitted levels em) :
    Emitted levels ((PhaseEmission.close levels.length)^[n] em) := by
  induction n generalizing em with
  | zero => exact h
  | succ n ih =>
    rw [Function.iterate_succ_apply]
    exact ih h.close

/-- One more step of the current phase. -/
theorem push (h : Emitted levels em) : Emitted (levels ++ [em.curPhase]) em where
  length_eq := h.length_eq
  contiguous := h.contiguous
  start_le := by
    rw [List.length_append]
    exact Nat.le_add_right_of_le h.start_le
  le_cur := by
    intro k q hk
    rw [List.getElem?_append] at hk
    split at hk
    · exact h.le_cur k q hk
    · have := List.mem_of_getElem? hk
      exact le_of_eq (List.mem_singleton.1 this)
  current := by
    intro k
    have hstart := h.start_le
    rw [List.getElem?_append, List.length_append, List.length_singleton]
    split
    · rename_i hk
      rw [h.current k]
      omega
    · rename_i hk
      rw [List.getElem?_singleton]
      split
      · exact iff_of_true rfl (by omega)
      · exact iff_of_false (by simp) (by omega)
  ended := by
    intro p r hr k
    have hp : p < em.curPhase := by
      rw [← h.length_eq]
      exact (List.getElem?_eq_some_iff.1 hr).1
    rw [← h.ended p r hr k, List.getElem?_append]
    split
    · exact Iff.rfl
    · rename_i hk
      -- the new step has the current phase, which is not an ended one
      rw [List.getElem?_singleton, List.getElem?_eq_none (Nat.not_lt.1 hk)]
      refine iff_of_false ?_ (by simp)
      split
      · intro heq
        exact absurd (Option.some.inj heq) (Nat.ne_of_gt hp)
      · simp

end Emitted

/-- The walk over the remaining phases. -/
theorem emitted_emitPhases {rest done : List Nat} {em : PhaseEmission}
    (hsorted : rest.Pairwise (· ≤ ·)) (hle : ∀ q ∈ rest, em.curPhase ≤ q) (h : Emitted done em) :
    Emitted (done ++ rest) (emitPhases em done.length rest) := by
  induction rest generalizing done em with
  | nil =>
    rw [List.append_nil]
    exact h
  | cons phase rest ih =>
    obtain ⟨hfirst, hsorted⟩ := List.pairwise_cons.1 hsorted
    have hphase : em.curPhase ≤ phase := hle phase List.mem_cons_self
    have hcur := curPhase_advance done.length hphase
    have hpush := (h.close_iterate (phase - em.curPhase)).push
    rw [← PhaseEmission.advance, hcur] at hpush
    have hrest := ih hsorted (fun q hq => le_of_eq_of_le hcur (hfirst q hq)) hpush
    rw [List.append_assoc, List.singleton_append, List.length_append, List.length_singleton]
      at hrest
    exact hrest

/-- The walk ends in the last phase. -/
theorem curPhase_emitPhases {rest : List Nat} {em : PhaseEmission} (outIdx : Nat)
    (hsorted : rest.Pairwise (· ≤ ·)) (hle : ∀ q ∈ rest, em.curPhase ≤ q) :
    (emitPhases em outIdx rest).curPhase = rest.getLastD em.curPhase := by
  induction rest generalizing em outIdx with
  | nil => rfl
  | cons phase rest ih =>
    obtain ⟨hfirst, hsorted⟩ := List.pairwise_cons.1 hsorted
    have hcur := curPhase_advance outIdx (hle phase List.mem_cons_self)
    rw [emitPhases, ih (outIdx + 1) hsorted (fun q hq => le_of_eq_of_le hcur (hfirst q hq)), hcur,
      List.getLastD_cons]

section Ranges

variable {levels : List Nat} (hsorted : levels.Pairwise (· ≤ ·))

include hsorted

theorem emitted_levels :
    Emitted levels (emitPhases { phases := [], curPhase := 0, phaseStart := 0 } 0 levels) := by
  simpa using emitted_emitPhases hsorted (fun q _ => Nat.zero_le q) Emitted.initial

/-- Before the padding: the ended ranges and the last one. -/
theorem phaseRanges_eq (count : Nat) : ∃ em : PhaseEmission, Emitted levels em ∧
    em.phaseStart = levels.length ∧ (∀ k : Nat, levels[k]? ≠ some em.curPhase) ∧
    em.curPhase ≤ levels.getLastD 0 + 1 ∧
    phaseRanges levels count =
      em.phases ++ List.replicate (count - em.phases.length) ⟨levels.length, levels.length⟩ := by
  have hem := emitted_levels hsorted
  cases hlevels : levels with
  | nil => exact ⟨_, Emitted.initial, rfl, by simp, Nat.zero_le _, rfl⟩
  | cons q rest =>
    rw [← hlevels]
    refine ⟨_, hem.close, rfl, ?_, ?_, ?_⟩
    · intro k hk
      exact absurd (hem.le_cur k _ hk) (Nat.not_succ_le_self _)
    · exact Nat.succ_le_succ
        (le_of_eq (curPhase_emitPhases 0 hsorted fun q _ => Nat.zero_le q))
    · have hne : levels.isEmpty = false := by rw [hlevels]; rfl
      simp only [phaseRanges, hne, Bool.false_eq_true, if_false, PhaseEmission.close]

/-- The ranges partition the steps, in order. -/
theorem phaseRanges_contiguous (count : Nat) :
    Contiguous 0 (phaseRanges levels count) levels.length := by
  obtain ⟨em, hem, hstart, -, -, heq⟩ := phaseRanges_eq hsorted count
  have hfront := hem.contiguous
  rw [hstart] at hfront
  rw [heq]
  exact hfront.append (contiguous_replicate _ _)

/-- The range of phase `p` holds the steps of phase `p`. -/
theorem mem_phaseRange_iff {count p : Nat} {r : PhaseRange}
    (hr : (phaseRanges levels count)[p]? = some r) (k : Nat) :
    levels[k]? = some p ↔ r.start ≤ k ∧ k < r.stop := by
  obtain ⟨em, hem, -, hnone, -, heq⟩ := phaseRanges_eq hsorted count
  rw [heq, List.getElem?_append] at hr
  split at hr
  · exact hem.ended p r hr k
  · -- the padding is empty, and no step has a phase that large
    rename_i hp
    have hr' := List.eq_of_mem_replicate (List.mem_of_getElem? hr)
    subst hr'
    refine iff_of_false ?_ (fun h => absurd h.2 (Nat.not_lt.2 h.1))
    intro hk
    have hle := hem.le_cur k p hk
    rw [← hem.length_eq] at hle
    have hpeq : p = em.curPhase := by
      rw [← hem.length_eq]
      exact le_antisymm hle (Nat.not_lt.1 hp)
    exact hnone k (hpeq ▸ hk)

/-- Every step has the range of its phase. -/
theorem exists_phaseRange (count : Nat) {k p : Nat} (hk : levels[k]? = some p) :
    ∃ r, (phaseRanges levels count)[p]? = some r := by
  obtain ⟨em, hem, -, hnone, -, heq⟩ := phaseRanges_eq hsorted count
  have hlt : p < em.phases.length := by
    rw [hem.length_eq]
    exact lt_of_le_of_ne (hem.le_cur k p hk) fun h => hnone k (h ▸ hk)
  refine ⟨em.phases[p], ?_⟩
  rw [heq, List.getElem?_append_left hlt]
  exact List.getElem?_eq_getElem hlt

end Ranges

/-- When every step has its own phase, the ranges are the single steps. -/
theorem phaseRanges_range (n : Nat) :
    phaseRanges (List.range n) n = (List.range n).map fun k => ⟨k, k + 1⟩ := by
  have hsorted : (List.range n).Pairwise (· ≤ ·) := List.pairwise_lt_range.imp Nat.le_of_lt
  apply List.ext_getElem?
  intro p
  rw [List.getElem?_map]
  rcases Nat.lt_or_ge p n with hp | hp
  · have hlevel : (List.range n)[p]? = some p := List.getElem?_range hp
    obtain ⟨r, hr⟩ := exists_phaseRange hsorted n hlevel
    have hmem : ∀ k, r.start ≤ k ∧ k < r.stop → k = p := by
      intro k hk
      have hk := (mem_phaseRange_iff hsorted hr k).2 hk
      obtain ⟨hlt, heq⟩ := List.getElem?_eq_some_iff.1 hk
      rwa [List.getElem_range] at heq
    have hbounds := (mem_phaseRange_iff hsorted hr p).1 hlevel
    have hstart : r.start = p := hmem r.start ⟨le_refl _, lt_of_le_of_lt hbounds.1 hbounds.2⟩
    have hstop : r.stop - 1 = p := hmem (r.stop - 1) (by omega)
    rw [hr, hlevel, Option.map_some]
    congr 1
    obtain ⟨start, stop⟩ := r
    simp only [PhaseRange.mk.injEq] at hstart hstop hbounds ⊢
    omega
  · obtain ⟨em, hem, -, -, hcur, heq⟩ := phaseRanges_eq hsorted n
    have hlen : (phaseRanges (List.range n) n).length ≤ n := by
      cases n with
      | zero => exact le_refl 0
      | succ m =>
        rw [List.range_succ, List.getLastD_concat] at hcur
        rw [heq, List.length_append, List.length_replicate, hem.length_eq]
        omega
    rw [List.getElem?_eq_none (le_trans hlen hp),
      List.getElem?_eq_none (le_of_eq_of_le List.length_range hp), Option.map_none]

end EasyNetDaemon.Eal
