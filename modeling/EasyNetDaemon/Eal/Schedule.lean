import EasyNetDaemon.Eal.Analysis
import EasyNetDaemon.Eal.PhaseRanges
import EasyNetDaemon.Library.Layering
import Mathlib.Data.List.Perm.Basic

/-!
# The emitted schedule is correct

`compile_correctSchedule`: the steps of a compiled mission are the lowered statements, each once;
the phases partition them in order; every binding that a call reads is exported by exactly one step,
of a smaller phase; with a loop in the mission the phases are the single steps in source order, and
without one the phase of a call is zero or one more than the largest phase of a producer.
-/

namespace EasyNetDaemon.Eal

open Library EasyNetDaemon.Core

/-! ## Levels of the items -/

/-- Every dependency of an item is the binding of an earlier one. -/
def DependsBackward (items : List AnalyzedItem) : Prop :=
  ∀ (i : Nat) (it : AnalyzedItem), items[i]? = some it → ∀ d ∈ it.outerDeps,
    ∃ j < i, ∃ it' : AnalyzedItem, items[j]? = some it' ∧ it'.binding = some d

/-- No two items export the same binding. -/
def BindingsUnique (items : List AnalyzedItem) : Prop :=
  items.Pairwise fun it it' => ∀ b, it.binding = some b → it'.binding ≠ some b

/-- The phases of the items that export a dependency of `it`. -/
def producerLevels (pairs : List (Nat × AnalyzedItem)) (it : AnalyzedItem) : Set Nat :=
  {q | ∃ d ∈ it.outerDeps, ∃ it', (q, it') ∈ pairs ∧ it'.binding = some d}

/-- The phase of an item is zero, or one more than the largest phase of a producer. -/
def Levelled (pairs : List (Nat × AnalyzedItem)) (p : Nat) (it : AnalyzedItem) : Prop :=
  (it.outerDeps = [] → p = 0) ∧
    (it.outerDeps ≠ [] → ∃ m, IsGreatest (producerLevels pairs it) m ∧ p = m + 1)

theorem lookup_bindingIndex_iff {items : List AnalyzedItem} (h : BindingsUnique items) (b : String)
    (i : Nat) :
    (bindingIndex items).lookup b = some i ↔
      ∃ it : AnalyzedItem, items[i]? = some it ∧ it.binding = some b :=
  lookup_indexed_iff h b i

theorem length_assignPhases (items : List AnalyzedItem) :
    (assignPhases items).length = items.length := by
  unfold assignPhases
  rw [length_foldl_snoc, List.length_nil, Nat.zero_add]

variable {i q p k : Nat} {it : AnalyzedItem} {staticArgs : List (String × Json)}
  {out : List (String × Json) × List (String × String)} {ref : String × String} {b : String}
  {c : IrCall} {program : EalProgram} {stmt : Statement}

theorem getElem?_assignPhases {items : List AnalyzedItem} (h : items[i]? = some it) :
    (assignPhases items)[i]? =
      some (itemPhase (bindingIndex items) ((assignPhases items).take i) it) := by
  have hi := @getElem?_foldl_snoc _ _ items i (itemPhase (bindingIndex items)) [] it h
  simpa [assignPhases] using hi

theorem mem_zip_iff {levels : List Nat} {items : List AnalyzedItem} :
    (q, it) ∈ levels.zip items ↔ ∃ j : Nat, levels[j]? = some q ∧ items[j]? = some it := by
  simp only [List.mem_iff_getElem?, List.getElem?_zip_eq_some]

/-- Two positions that export the same binding are one. -/
theorem BindingsUnique.index_eq {items : List AnalyzedItem} (h : BindingsUnique items) {i j : Nat}
    {it it' : AnalyzedItem} {b : String} (hi : items[i]? = some it) (hj : items[j]? = some it')
    (hb : it.binding = some b) (hb' : it'.binding = some b) : i = j := by
  have hl := (lookup_bindingIndex_iff h b i).2 ⟨it, hi, hb⟩
  have hl' := (lookup_bindingIndex_iff h b j).2 ⟨it', hj, hb'⟩
  exact Option.some.inj (hl.symm.trans hl')

section Levels

variable {items : List AnalyzedItem} (hback : DependsBackward items) (huniq : BindingsUnique items)

include hback huniq

/-- A dependency has one producer; its phase is the one that the pass reads. -/
theorem exists_producer (hi : items[i]? = some it) {d : String} (hd : d ∈ it.outerDeps) :
    ∃ j, (bindingIndex items).lookup d = some j ∧
      ∀ q, (∃ it', (q, it') ∈ (assignPhases items).zip items ∧ it'.binding = some d) ↔
        ((assignPhases items).take i).getD j 0 = q := by
  obtain ⟨j, hj, it₁, hit₁, hb⟩ := hback i it hi d hd
  refine ⟨j, (lookup_bindingIndex_iff huniq d j).2 ⟨it₁, hit₁, hb⟩, ?_⟩
  have hread : ((assignPhases items).take i).getD j 0 =
      itemPhase (bindingIndex items) ((assignPhases items).take j) it₁ := by
    rw [List.getD_eq_getElem?_getD, List.getElem?_take_of_lt hj, getElem?_assignPhases hit₁,
      Option.getD_some]
  intro q
  rw [hread]
  constructor
  · rintro ⟨it', hmem, hb'⟩
    obtain ⟨j', hq, hit'⟩ := mem_zip_iff.1 hmem
    cases huniq.index_eq hit₁ hit' hb hb'
    rw [getElem?_assignPhases hit₁] at hq
    exact Option.some.inj hq
  · rintro rfl
    exact ⟨it₁, mem_zip_iff.2 ⟨j, getElem?_assignPhases hit₁, hit₁⟩, hb⟩

/-- The phases read for the producers of an item are their assigned phases. -/
theorem mem_producerPhases_iff (hi : items[i]? = some it) (q : Nat) :
    q ∈ producerPhases (bindingIndex items) ((assignPhases items).take i) it ↔
      q ∈ producerLevels ((assignPhases items).zip items) it := by
  unfold producerPhases producerLevels
  simp only [List.mem_map, List.mem_filterMap, Set.mem_ofPred_eq]
  constructor
  · rintro ⟨j, ⟨d, hd, hj⟩, hq⟩
    obtain ⟨j', hj', hiff⟩ := exists_producer hback huniq hi hd
    cases hj.symm.trans hj'
    exact ⟨d, hd, (hiff q).2 hq⟩
  · rintro ⟨d, hd, hprod⟩
    obtain ⟨j, hj, hiff⟩ := exists_producer hback huniq hi hd
    exact ⟨j, ⟨d, hd, hj⟩, (hiff q).1 hprod⟩

/-- The pass gives every item the level over its producers. -/
theorem levelled_assignPhases (h : (p, it) ∈ (assignPhases items).zip items) :
    Levelled ((assignPhases items).zip items) p it := by
  obtain ⟨i, hp, hi⟩ := mem_zip_iff.1 h
  rw [getElem?_assignPhases hi, Option.some.injEq] at hp
  have hmem := mem_producerPhases_iff hback huniq hi
  unfold itemPhase at hp
  refine ⟨?_, ?_⟩
  · intro hnone
    have hempty : producerPhases (bindingIndex items) ((assignPhases items).take i) it = [] := by
      rw [producerPhases, hnone]
      rfl
    rw [hempty] at hp
    exact hp.symm
  · intro hsome
    obtain ⟨d, hd⟩ := List.exists_mem_of_ne_nil _ hsome
    obtain ⟨j, hj, hiff⟩ := exists_producer hback huniq hi hd
    have hq : ((assignPhases items).take i).getD j 0 ∈
        producerPhases (bindingIndex items) ((assignPhases items).take i) it :=
      (hmem _).2 ⟨d, hd, (hiff _).2 rfl⟩
    have hset : producerLevels ((assignPhases items).zip items) it =
        {q | q ∈ producerPhases (bindingIndex items) ((assignPhases items).take i) it} :=
      Set.ext fun q => (hmem q).symm
    rw [hset]
    cases hlist : producerPhases (bindingIndex items) ((assignPhases items).take i) it with
    | nil =>
      rw [hlist] at hq
      exact absurd hq List.not_mem_nil
    | cons q rest =>
      rw [hlist] at hp
      exact ⟨_, isGreatest_foldl_max q rest, hp.symm⟩

end Levels

/-! ## The scheduled items -/

theorem any_isLoop_iff {items : List AnalyzedItem} :
    items.any AnalyzedItem.isLoop = true ↔ ∃ lp, .loop lp ∈ items := by
  rw [List.any_eq_true]
  constructor
  · rintro ⟨it, hit, hloop⟩
    cases it with
    | call step => cases hloop
    | loop lp => exact ⟨lp, hit⟩
  · rintro ⟨lp, hlp⟩
    exact ⟨_, hlp, rfl⟩

theorem schedule_of_loop {items : List AnalyzedItem} (h : items.any AnalyzedItem.isLoop = true) :
    schedule items = (List.range items.length).zip items := if_pos h

theorem schedule_of_calls {items : List AnalyzedItem} (h : items.any AnalyzedItem.isLoop = false) :
    schedule items = ((assignPhases items).zip items).insertionSort fun a b => a.1 ≤ b.1 := by
  unfold schedule
  rw [if_neg (by simp [h])]

/-- The scheduled items are the items, each once. -/
theorem schedule_perm (items : List AnalyzedItem) : ((schedule items).map Prod.snd).Perm items := by
  cases h : items.any AnalyzedItem.isLoop with
  | true =>
    rw [schedule_of_loop h, List.map_snd_zip (le_of_eq List.length_range.symm)]
  | false =>
    rw [schedule_of_calls h]
    refine ((List.perm_insertionSort _ _).map Prod.snd).trans ?_
    rw [List.map_snd_zip (le_of_eq (length_assignPhases items).symm)]

/-- They come in the order of their phases. -/
theorem schedule_sorted (items : List AnalyzedItem) :
    ((schedule items).map Prod.fst).Pairwise (· ≤ ·) := by
  cases h : items.any AnalyzedItem.isLoop with
  | true =>
    rw [schedule_of_loop h, List.map_fst_zip (le_of_eq List.length_range)]
    exact List.pairwise_lt_range.imp Nat.le_of_lt
  | false =>
    rw [schedule_of_calls h, List.pairwise_map]
    exact List.pairwise_insertionSort _ _

theorem mem_schedule_of_calls {items : List AnalyzedItem}
    (h : items.any AnalyzedItem.isLoop = false) (p : Nat × AnalyzedItem) :
    p ∈ schedule items ↔ p ∈ (assignPhases items).zip items := by
  rw [schedule_of_calls h]
  exact (List.perm_insertionSort _ _).mem_iff

/-- Without loops the phases are the levels. -/
theorem levelled_schedule {items : List AnalyzedItem} (hback : DependsBackward items)
    (huniq : BindingsUnique items) (hcalls : items.any AnalyzedItem.isLoop = false)
    (h : (p, it) ∈ schedule items) : Levelled (schedule items) p it := by
  rw [mem_schedule_of_calls hcalls] at h
  have hlev := levelled_assignPhases hback huniq h
  have hset : producerLevels (schedule items) it =
      producerLevels ((assignPhases items).zip items) it := by
    unfold producerLevels
    simp only [mem_schedule_of_calls hcalls]
  unfold Levelled
  rw [hset]
  exact hlev

/-- Every dependency of a scheduled item is exported by an item of a smaller phase. -/
theorem exists_smaller_phase {items : List AnalyzedItem} (hback : DependsBackward items)
    (huniq : BindingsUnique items) (h : (p, it) ∈ schedule items) {d : String}
    (hd : d ∈ it.outerDeps) : ∃ q < p, ∃ it', (q, it') ∈ schedule items ∧ it'.binding = some d := by
  cases hloop : items.any AnalyzedItem.isLoop with
  | true =>
    -- every item has its own phase, numbered in source order
    rw [schedule_of_loop hloop] at h ⊢
    obtain ⟨i, hp, hi⟩ := mem_zip_iff.1 h
    obtain ⟨j, hj, it', hit', hb⟩ := hback i it hi d hd
    obtain ⟨hilt, hpi⟩ := List.getElem?_eq_some_iff.1 hp
    rw [List.getElem_range] at hpi
    rw [List.length_range] at hilt
    subst hpi
    refine ⟨j, hj, it', mem_zip_iff.2 ⟨j, ?_, hit'⟩, hb⟩
    exact List.getElem?_range (lt_trans hj hilt)
  | false =>
    have hne : it.outerDeps ≠ [] := List.ne_nil_of_mem hd
    obtain ⟨m, ⟨-, hmax⟩, rfl⟩ := (levelled_schedule hback huniq hloop h).2 hne
    rw [mem_schedule_of_calls hloop] at h
    obtain ⟨i, hp, hi⟩ := mem_zip_iff.1 h
    obtain ⟨j, hj, it', hit', hb⟩ := hback i it hi d hd
    have hmem : (itemPhase (bindingIndex items) ((assignPhases items).take j) it', it') ∈
        schedule items :=
      (mem_schedule_of_calls hloop _).2 (mem_zip_iff.2 ⟨j, getElem?_assignPhases hit', hit'⟩)
    exact ⟨_, Nat.lt_succ_of_le (hmax ⟨d, hd, it', hmem, hb⟩), it', hmem, hb⟩

/-! ## References of a lowered call -/

/-- The keys under which a call takes references. -/
def referenceKeys (fields : List Field) : List String :=
  fields.filterMap fun field => if field.value.isVarRef then some field.key else none

/-- An argument is a reference or a literal. -/
theorem splitArguments_cons {key : String} {value : FieldValue} {rest : List Field}
    {inputRefs : List (String × String)}
    (h : splitArguments (⟨key, value⟩ :: rest) staticArgs inputRefs = .ok out) :
    (∃ varName, value = .varRef varName ∧
        splitArguments rest staticArgs (insertByKey key varName inputRefs) = .ok out) ∨
      (value.isVarRef = false ∧
        ∃ json, splitArguments rest (insertByKey key json staticArgs) inputRefs = .ok out) := by
  cases value with
  | varRef varName => exact Or.inl ⟨varName, rfl, h⟩
  | string s =>
    obtain ⟨json, -, h⟩ := bind_eq_ok_iff.1 h
    exact Or.inr ⟨rfl, json, h⟩
  | int n =>
    obtain ⟨json, -, h⟩ := bind_eq_ok_iff.1 h
    exact Or.inr ⟨rfl, json, h⟩
  | float text =>
    obtain ⟨json, -, h⟩ := bind_eq_ok_iff.1 h
    exact Or.inr ⟨rfl, json, h⟩
  | bool b =>
    obtain ⟨json, -, h⟩ := bind_eq_ok_iff.1 h
    exact Or.inr ⟨rfl, json, h⟩
  | object fields =>
    obtain ⟨json, -, h⟩ := bind_eq_ok_iff.1 h
    exact Or.inr ⟨rfl, json, h⟩

/-- Every lowered reference is an argument of the call. -/
theorem field_of_mem_inputRefs {fields : List Field} {inputRefs : List (String × String)}
    (h : splitArguments fields staticArgs inputRefs = .ok out) (href : ref ∈ out.2) :
    ref ∈ inputRefs ∨ (⟨ref.1, .varRef ref.2⟩ : Field) ∈ fields := by
  induction fields generalizing staticArgs inputRefs with
  | nil =>
    cases h
    exact Or.inl href
  | cons field rest ih =>
    rcases splitArguments_cons h with ⟨varName, hvalue, h⟩ | ⟨-, json, h⟩
    · rcases ih h with hmem | hmem
      · rcases mem_insertByKey hmem with rfl | hmem
        · exact Or.inr (List.mem_cons.2 (Or.inl (by rw [← hvalue])))
        · exact Or.inl hmem
      · exact Or.inr (List.mem_cons_of_mem _ hmem)
    · exact (ih h).imp_right (List.mem_cons_of_mem _)

/-- A reference is kept unless a later argument with the same key replaces it. -/
theorem mem_inputRefs_of_field {fields : List Field} {inputRefs : List (String × String)}
    (h : splitArguments fields staticArgs inputRefs = .ok out)
    (hkeys : (referenceKeys fields).Nodup)
    (href : (ref ∈ inputRefs ∧ ref.1 ∉ referenceKeys fields) ∨
      (⟨ref.1, .varRef ref.2⟩ : Field) ∈ fields) : ref ∈ out.2 := by
  induction fields generalizing staticArgs inputRefs with
  | nil =>
    cases h
    rcases href with ⟨href, -⟩ | href
    · exact href
    · exact absurd href List.not_mem_nil
  | cons field rest ih =>
    obtain ⟨key, value⟩ := field
    rcases splitArguments_cons h with ⟨varName, rfl, h⟩ | ⟨hlit, json, h⟩
    · have hcons : referenceKeys (⟨key, .varRef varName⟩ :: rest) = key :: referenceKeys rest := rfl
      rw [hcons] at hkeys href
      obtain ⟨hnot, hnodup⟩ := List.nodup_cons.1 hkeys
      rcases href with ⟨href, hne⟩ | href
      · obtain ⟨hkey, hrest⟩ := not_or.1 (fun hor => hne (List.mem_cons.2 hor))
        exact ih h hnodup (Or.inl ⟨mem_insertByKey_of_ne href hkey, hrest⟩)
      · rcases List.mem_cons.1 href with heq | href
        · have href : ref = (key, varName) := by
            cases heq
            rfl
          subst href
          exact ih h hnodup (Or.inl ⟨mem_insertByKey_self key varName inputRefs, hnot⟩)
        · exact ih h hnodup (Or.inr href)
    · have hcons : referenceKeys (⟨key, value⟩ :: rest) = referenceKeys rest := by
        simp [referenceKeys, hlit]
      rw [hcons] at hkeys href
      rcases href with href | href
      · exact ih h hkeys (Or.inl href)
      · rcases List.mem_cons.1 href with heq | href
        · cases heq
          cases hlit
        · exact ih h hkeys (Or.inr href)

theorem mem_references_iff {call : CallExpr} :
    b ∈ call.references ↔ ∃ key, (⟨key, .varRef b⟩ : Field) ∈ call.arguments := by
  unfold CallExpr.references
  rw [List.mem_filterMap]
  constructor
  · rintro ⟨⟨key, value⟩, hmem, hvalue⟩
    cases value <;> cases hvalue
    exact ⟨key, hmem⟩
  · rintro ⟨key, hmem⟩
    exact ⟨_, hmem, rfl⟩

/-- The bindings that a lowered call reads are references of the source call; all of them when no
two references share a key. -/
theorem inputRefs_references {step : AnalyzedStep} (h : lowerCall step = .ok c) :
    (∀ ref ∈ c.inputRefs, ref.2 ∈ step.call.references) ∧
      ((referenceKeys step.call.arguments).Nodup → ∀ b ∈ step.call.references,
        ∃ key, (key, b) ∈ c.inputRefs) := by
  obtain ⟨arguments, hargs, -, -, hrefs, -⟩ := lowerCall_eq_ok h
  rw [hrefs]
  refine ⟨?_, ?_⟩
  · intro ref href
    rcases field_of_mem_inputRefs hargs href with habs | hfield
    · exact absurd habs List.not_mem_nil
    · exact mem_references_iff.2 ⟨ref.1, hfield⟩
  · intro hkeys b hb
    obtain ⟨key, hfield⟩ := mem_references_iff.1 hb
    exact ⟨key, mem_inputRefs_of_field hargs hkeys (Or.inr hfield)⟩

/-! ## Correct schedules -/

/-- A step is what the planner makes of a statement. -/
inductive LowersTo : Statement → IrStep → Prop
  | letCall (name : String) (call : CallExpr) (c : IrCall)
      (h : lowerCall { stepId := name, binding := some name, call, deps := call.references }
        = .ok c) :
      LowersTo (.letCall name call) (.call c)
  | call (call : CallExpr) (n : Nat) (c : IrCall)
      (h : lowerCall { stepId := anonId n, binding := none, call, deps := call.references }
        = .ok c) :
      LowersTo (.call call) (.call c)
  | loop (block : LoopBlock) (lp : IrLoop) (n n' : Nat) (h : analyzeLoop block n = .ok (lp, n')) :
      LowersTo (.loop block) (.loop lp)

/-- The call of a statement. -/
def Statement.callExpr : Statement → Option CallExpr
  | .letCall _ expr => some expr
  | .call expr => some expr
  | _ => none

/-- The bindings that a statement refers to. -/
def Statement.references (stmt : Statement) : List String :=
  (stmt.callExpr.map CallExpr.references).getD []

/-- The keys under which a statement takes references. -/
def Statement.referenceKeys (stmt : Statement) : List String :=
  (stmt.callExpr.map fun call => Eal.referenceKeys call.arguments).getD []

/-- The step at position `k` belongs to phase `p`. -/
def MissionIr.InPhase (ir : MissionIr) (p k : Nat) : Prop :=
  ∃ r, ir.phases[p]? = some r ∧ r.start ≤ k ∧ k < r.stop

/-- The step at position `k` exports the binding `b`. -/
def MissionIr.Exports (ir : MissionIr) (k : Nat) (b : String) : Prop :=
  ∃ step : IrStep, ir.steps[k]? = some step ∧ step.exportedBinding = some b

/-- A mission is a correct schedule of a program whose statements were taken in the order
`source`. -/
structure CorrectSchedule (program : EalProgram) (ir : MissionIr) (source : List Statement) :
    Prop where
  /-- The statements other than `emit`, each once. -/
  perm : source.Perm (program.mission.statements.filter Statement.isStep)
  /-- The steps are these statements, lowered. -/
  lowered : List.Forall₂ LowersTo source ir.steps
  /-- The phases partition the steps, in order. -/
  contiguous : Contiguous 0 ir.phases ir.steps.length
  /-- What a call reads is exported by exactly one step, of a smaller phase. -/
  producers : ∀ (p k : Nat) (c : IrCall), ir.InPhase p k → ir.steps[k]? = some (.call c) →
    ∀ ref ∈ c.inputRefs, ∃ j, (∀ i, ir.Exports i ref.2 ↔ i = j) ∧ ∃ q < p, ir.InPhase q j
  /-- With a loop, every phase is one step, in source order. -/
  singlePhases : (∃ lp, IrStep.loop lp ∈ ir.steps) →
    source = program.mission.statements.filter Statement.isStep ∧
      ir.phases = (List.range ir.steps.length).map fun k => ⟨k, k + 1⟩
  /-- Without a loop, the phase of a call is the level over its producers. -/
  levels : (∀ lp, IrStep.loop lp ∉ ir.steps) → ∀ (p k : Nat) (stmt : Statement), ir.InPhase p k →
    source[k]? = some stmt →
    (stmt.references = [] → p = 0) ∧
      (stmt.references ≠ [] → ∃ m,
        IsGreatest {q | ∃ b ∈ stmt.references, ∃ j, ir.Exports j b ∧ ir.InPhase q j} m ∧ p = m + 1)
  /-- The references of a statement with distinct keys are those that its call reads. -/
  inputRefs : ∀ (k : Nat) (stmt : Statement) (c : IrCall), source[k]? = some stmt →
    ir.steps[k]? = some (.call c) → stmt.referenceKeys.Nodup →
    ∀ b, b ∈ stmt.references ↔ ∃ key, (key, b) ∈ c.inputRefs

/-! ## Compiled missions -/

/-- What a successful compilation did. -/
theorem compile_eq_ok {ir : MissionIr} (h : compile program = .ok ir) :
    ∃ scope, analyzeMission program = .ok scope ∧
      lowerItems ((schedule scope.items).map Prod.snd) = .ok ir.steps ∧
      ir.phases = phaseRanges ((schedule scope.items).map Prod.fst)
        (numPhases (schedule scope.items)) ∧
      ir.staticCallBound ≤ defaultMaxCalls := by
  obtain ⟨scope, hscope, h⟩ := bind_eq_ok_iff.1 h
  obtain ⟨steps, hsteps, h⟩ := bind_eq_ok_iff.1 h
  obtain ⟨hbound, h⟩ := check_bind_eq_ok_iff.1 h
  cases h
  refine ⟨scope, hscope, hsteps, rfl, ?_⟩
  rw [bailIf_eq_ok_iff, decide_eq_false_iff_not, Nat.not_lt] at hbound
  exact hbound

/-- The analysed items of a mission: unique bindings, and dependencies on earlier items only. -/
theorem analyzeMission_items {scope : Scope} (h : analyzeMission program = .ok scope) :
    BindingsUnique scope.items ∧ DependsBackward scope.items := by
  have hwalk := analyzeStatementsInner_analysed h
  refine ⟨hwalk.binding_unique.2, ?_⟩
  intro i it hi d hd
  rcases hwalk.deps_earlier i it hi d hd with habs | hearlier
  · exact absurd habs List.not_mem_nil
  · exact hearlier

theorem lowersTo_of_item {step : IrStep} {n n' : Nat} (hitem : ItemOf analyzeLoop n stmt it n')
    (hlower : lowerItem it = .ok step) : LowersTo stmt step := by
  cases hitem with
  | letCall name call hretry hopt =>
    obtain ⟨c, hc, h⟩ := bind_eq_ok_iff.1 hlower
    cases h
    exact .letCall name call c hc
  | call call hretry hopt =>
    obtain ⟨c, hc, h⟩ := bind_eq_ok_iff.1 hlower
    cases h
    exact .call call (n + 1) c hc
  | loop block lp _ h =>
    cases hlower
    exact .loop block lp n n' h

theorem outerDeps_of_item {n n' : Nat} (hitem : ItemOf analyzeLoop n stmt it n') :
    it.outerDeps = stmt.references := by
  cases hitem <;> rfl

/-- The references of a statement and those that its call reads. -/
theorem LowersTo.inputRefs {step : IrStep} (h : LowersTo stmt step) (hc : step = .call c) :
    (∀ ref ∈ c.inputRefs, ref.2 ∈ stmt.references) ∧
      (stmt.referenceKeys.Nodup → ∀ b ∈ stmt.references, ∃ key, (key, b) ∈ c.inputRefs) := by
  cases h with
  | letCall name call c' h =>
    cases hc
    exact inputRefs_references h
  | call call n c' h =>
    cases hc
    exact inputRefs_references h
  | loop block lp n n' h => cases hc

/-- The scheduled items of a compiled mission beside its steps and its statements. -/
structure Scheduled (ir : MissionIr) (pairs : List (Nat × AnalyzedItem))
    (source : List Statement) : Prop where
  items : List.Forall₂ (fun pair stmt => ∃ n n', ItemOf analyzeLoop n stmt pair.2 n') pairs source
  steps : List.Forall₂ (fun pair step => lowerItem pair.2 = .ok step) pairs ir.steps
  sorted : (pairs.map Prod.fst).Pairwise (· ≤ ·)
  unique : BindingsUnique (pairs.map Prod.snd)
  phases : ∃ count, ir.phases = phaseRanges (pairs.map Prod.fst) count

namespace Scheduled

variable {ir : MissionIr} {pairs : List (Nat × AnalyzedItem)} {source : List Statement}
  (h : Scheduled ir pairs source)

include h

theorem length_eq : pairs.length = ir.steps.length := h.steps.length_eq

/-- The phase of a step is the one scheduled. -/
theorem inPhase_iff (p k : Nat) : ir.InPhase p k ↔ ∃ it, pairs[k]? = some (p, it) := by
  obtain ⟨count, hphases⟩ := h.phases
  have hlevel : (pairs.map Prod.fst)[k]? = some p ↔ ∃ it, pairs[k]? = some (p, it) := by
    rw [List.getElem?_map, Option.map_eq_some_iff]
    constructor
    · rintro ⟨⟨q, it⟩, hk, rfl⟩
      exact ⟨it, hk⟩
    · rintro ⟨it, hk⟩
      exact ⟨(p, it), hk, rfl⟩
  unfold MissionIr.InPhase
  rw [hphases, ← hlevel]
  constructor
  · rintro ⟨r, hr, hk⟩
    exact (mem_phaseRange_iff h.sorted hr k).2 hk
  · intro hk
    obtain ⟨r, hr⟩ := exists_phaseRange h.sorted count hk
    exact ⟨r, hr, (mem_phaseRange_iff h.sorted hr k).1 hk⟩

/-- A step exports what its item exports. -/
theorem exports_iff (k : Nat) (b : String) :
    ir.Exports k b ↔ ∃ pair : Nat × AnalyzedItem, pairs[k]? = some pair ∧
      pair.2.binding = some b := by
  constructor
  · rintro ⟨step, hstep, hb⟩
    obtain ⟨pair, hpair, hlower⟩ := forall₂_getElem?_right h.steps hstep
    exact ⟨pair, hpair, (exportedBinding_of_lowerItem hlower).symm.trans hb⟩
  · rintro ⟨pair, hpair, hb⟩
    obtain ⟨step, hstep, hlower⟩ := forall₂_getElem?_left h.steps hpair
    exact ⟨step, hstep, (exportedBinding_of_lowerItem hlower).trans hb⟩

/-- Only one step exports a binding. -/
theorem exports_unique {j : Nat} (hi : ir.Exports i b) (hj : ir.Exports j b) : i = j := by
  obtain ⟨pair, hpair, hb⟩ := (h.exports_iff i b).1 hi
  obtain ⟨pair', hpair', hb'⟩ := (h.exports_iff j b).1 hj
  refine @BindingsUnique.index_eq _ h.unique i j pair.2 pair'.2 b ?_ ?_ hb hb'
  · rw [List.getElem?_map, hpair]
    rfl
  · rw [List.getElem?_map, hpair']
    rfl

/-- A member of the schedule that exports a binding is a step that exports it, in its phase. -/
theorem exports_of_mem (hmem : (q, it) ∈ pairs) (hb : it.binding = some b) :
    ∃ j, ir.Exports j b ∧ ir.InPhase q j := by
  obtain ⟨j, hj⟩ := List.mem_iff_getElem?.1 hmem
  exact ⟨j, (h.exports_iff j b).2 ⟨_, hj, hb⟩, (h.inPhase_iff q j).2 ⟨it, hj⟩⟩

theorem outerDeps_eq {pair : Nat × AnalyzedItem} (hpair : pairs[k]? = some pair)
    (hstmt : source[k]? = some stmt) : pair.2.outerDeps = stmt.references := by
  obtain ⟨stmt', hstmt', n, n', hitem⟩ := forall₂_getElem?_left h.items hpair
  cases hstmt.symm.trans hstmt'
  exact outerDeps_of_item hitem

/-- The steps are the lowered statements. -/
theorem lowersTo : List.Forall₂ LowersTo source ir.steps := by
  refine List.forall₂_iff_get.2 ⟨?_, ?_⟩
  · exact h.items.length_eq.symm.trans h.steps.length_eq
  · intro k hk hk'
    obtain ⟨pair, hpair, n, n', hitem⟩ :=
      forall₂_getElem?_right h.items (List.getElem?_eq_getElem hk)
    obtain ⟨step, hstep, hlower⟩ := forall₂_getElem?_left h.steps hpair
    rw [List.getElem?_eq_getElem hk', Option.some.injEq] at hstep
    subst hstep
    exact lowersTo_of_item hitem hlower

/-- What a call reads are dependencies of its item. -/
theorem mem_outerDeps {pair : Nat × AnalyzedItem} (hpair : pairs[k]? = some pair)
    (hc : ir.steps[k]? = some (.call c)) (href : ref ∈ c.inputRefs) : ref.2 ∈ pair.2.outerDeps := by
  obtain ⟨step, hstep, hlower⟩ := forall₂_getElem?_left h.steps hpair
  cases hc.symm.trans hstep
  obtain ⟨stmt, hstmt, n, n', hitem⟩ := forall₂_getElem?_left h.items hpair
  rw [outerDeps_of_item hitem]
  exact ((lowersTo_of_item hitem hlower).inputRefs rfl).1 ref href

/-- The phases of the steps that export a reference of a statement. -/
theorem producerLevels_eq (hdeps : it.outerDeps = stmt.references) :
    producerLevels pairs it =
      {q | ∃ b ∈ stmt.references, ∃ j, ir.Exports j b ∧ ir.InPhase q j} := by
  unfold producerLevels
  rw [hdeps]
  apply Set.ext
  intro q
  constructor
  · rintro ⟨b, hb, it', hmem, hit'⟩
    exact ⟨b, hb, h.exports_of_mem hmem hit'⟩
  · rintro ⟨b, hb, j, hexp, hphase⟩
    obtain ⟨pair, hpair, hbind⟩ := (h.exports_iff j b).1 hexp
    obtain ⟨it', hit'⟩ := (h.inPhase_iff q j).1 hphase
    rw [hpair, Option.some.injEq] at hit'
    subst hit'
    exact ⟨b, hb, it', List.mem_of_getElem? hpair, hbind⟩

end Scheduled

/-- The statements in the order of the schedule; with a loop that is the source order. -/
theorem exists_source {items : List AnalyzedItem} {stmts : List Statement}
    {R : AnalyzedItem → Statement → Prop} (h : List.Forall₂ R items stmts) :
    ∃ source, List.Forall₂ R ((schedule items).map Prod.snd) source ∧ source.Perm stmts ∧
      (items.any AnalyzedItem.isLoop = true → source = stmts) := by
  cases hloop : items.any AnalyzedItem.isLoop with
  | true =>
    refine ⟨stmts, ?_, List.Perm.refl _, fun _ => rfl⟩
    rw [schedule_of_loop hloop, List.map_snd_zip (le_of_eq List.length_range.symm)]
    exact h
  | false =>
    obtain ⟨source, hsource, hperm⟩ := List.perm_comp_forall₂ (schedule_perm items) h
    exact ⟨source, hsource, hperm, fun habs => by cases habs⟩

/-- With a loop there are as many phases as items. -/
theorem numPhases_of_loop {items : List AnalyzedItem}
    (h : items.any AnalyzedItem.isLoop = true) : numPhases (schedule items) = items.length := by
  rw [schedule_of_loop h]
  cases items with
  | nil => cases h
  | cons it items =>
    have hrange : (List.range (it :: items).length).zip (it :: items) =
        (0, it) :: ((List.range items.length).map Nat.succ).zip items := by
      rw [List.length_cons, List.range_succ_eq_map, List.zip_cons_cons]
    have hfold : ∀ (l : List (Nat × AnalyzedItem)) (m : Nat),
        l.foldl (fun m q => max m q.1) m = (l.map Prod.fst).foldl max m := by
      intro l m
      rw [List.foldl_map]
    rw [hrange, numPhases, hfold, List.map_fst_zip (by simp)]
    -- the largest of the numbers below the length is the one before it
    have hmax := isGreatest_foldl_max 0 ((List.range items.length).map Nat.succ)
    have hlast : IsGreatest {q | q ∈ 0 :: (List.range items.length).map Nat.succ}
        items.length := by
      rw [← List.range_succ_eq_map]
      refine ⟨List.mem_range.2 (Nat.lt_succ_self _), ?_⟩
      intro q hq
      exact Nat.le_of_lt_succ (List.mem_range.1 hq)
    rw [hmax.unique hlast, List.length_cons]

theorem exists_loop_iff {items : List AnalyzedItem} {steps : List IrStep}
    (h : List.Forall₂ (fun it step => lowerItem it = .ok step) items steps) :
    (∃ lp, IrStep.loop lp ∈ steps) ↔ items.any AnalyzedItem.isLoop = true := by
  rw [any_isLoop_iff]
  constructor
  · rintro ⟨lp, hlp⟩
    obtain ⟨k, hk⟩ := List.mem_iff_getElem?.1 hlp
    obtain ⟨it, hit, hlower⟩ := forall₂_getElem?_right h hk
    cases it with
    | call step =>
      obtain ⟨c, -, habs⟩ := bind_eq_ok_iff.1 hlower
      cases habs
    | loop lp' => exact ⟨lp', List.mem_of_getElem? hit⟩
  · rintro ⟨lp, hlp⟩
    obtain ⟨k, hk⟩ := List.mem_iff_getElem?.1 hlp
    obtain ⟨step, hstep, hlower⟩ := forall₂_getElem?_left h hk
    cases hlower
    exact ⟨lp, List.mem_of_getElem? hstep⟩

/-- The scheduled items of a compiled mission, and the statements that they come from. -/
theorem compile_scheduled {ir : MissionIr} (h : compile program = .ok ir) :
    ∃ scope source, analyzeMission program = .ok scope ∧
      Scheduled ir (schedule scope.items) source ∧
      source.Perm (program.mission.statements.filter Statement.isStep) ∧
      (scope.items.any AnalyzedItem.isLoop = true →
        source = program.mission.statements.filter Statement.isStep) := by
  obtain ⟨scope, hscope, hsteps, hphases, -⟩ := compile_eq_ok h
  obtain ⟨huniq, -⟩ := analyzeMission_items hscope
  obtain ⟨source, hsource, hperm, hsame⟩ :=
    exists_source (analyzeStatementsInner_analysed hscope).forall₂_items
  refine ⟨scope, source, hscope, ?_, hperm, hsame⟩
  exact {
    items := List.forall₂_map_left_iff.1 hsource
    steps := List.forall₂_map_left_iff.1 (forall₂_lowerItems hsteps)
    sorted := schedule_sorted scope.items
    unique := (schedule_perm scope.items).symm.pairwise huniq fun hab b hb hb' => hab b hb' hb
    phases := ⟨_, hphases⟩ }

/-- The phases of a compiled mission partition its steps. -/
theorem compile_contiguous {ir : MissionIr} (h : compile program = .ok ir) :
    Contiguous 0 ir.phases ir.steps.length := by
  obtain ⟨scope, source, -, hsched, -⟩ := compile_scheduled h
  obtain ⟨count, hphases⟩ := hsched.phases
  rw [hphases, ← hsched.length_eq, ← List.length_map (f := Prod.fst)]
  exact phaseRanges_contiguous hsched.sorted _

/-- Two steps of a compiled mission that export one binding are the same step. -/
theorem compile_exports_unique {ir : MissionIr} (h : compile program = .ok ir) {j : Nat}
    (hi : ir.Exports i b) (hj : ir.Exports j b) : i = j := by
  obtain ⟨scope, source, -, hsched, -⟩ := compile_scheduled h
  exact hsched.exports_unique hi hj

/-- A step of a compiled mission is in one phase. -/
theorem compile_inPhase_unique {ir : MissionIr} (h : compile program = .ok ir)
    (hp : ir.InPhase p k) (hq : ir.InPhase q k) : p = q := by
  obtain ⟨scope, source, -, hsched, -⟩ := compile_scheduled h
  obtain ⟨it, hit⟩ := (hsched.inPhase_iff p k).1 hp
  obtain ⟨it', hit'⟩ := (hsched.inPhase_iff q k).1 hq
  cases hit.symm.trans hit'
  rfl

/-- What a call of a compiled mission reads is exported by one step, of a smaller phase. -/
theorem compile_producers {ir : MissionIr} (h : compile program = .ok ir)
    (hphase : ir.InPhase p k) (hc : ir.steps[k]? = some (.call c)) (href : ref ∈ c.inputRefs) :
    ∃ j, (∀ i, ir.Exports i ref.2 ↔ i = j) ∧ ∃ q < p, ir.InPhase q j := by
  obtain ⟨scope, source, hscope, hsched, -⟩ := compile_scheduled h
  obtain ⟨huniq, hback⟩ := analyzeMission_items hscope
  obtain ⟨it, hit⟩ := (hsched.inPhase_iff p k).1 hphase
  obtain ⟨q, hq, it', hmem, hb⟩ := exists_smaller_phase hback huniq (List.mem_of_getElem? hit)
    (hsched.mem_outerDeps hit hc href)
  obtain ⟨j, hexp, hphase'⟩ := hsched.exports_of_mem hmem hb
  refine ⟨j, ?_, q, hq, hphase'⟩
  intro i
  constructor
  · intro hi
    exact hsched.exports_unique hi hexp
  · rintro rfl
    exact hexp

/-- A compiled mission is a correct schedule of its program. -/
theorem compile_correctSchedule {program : EalProgram} {ir : MissionIr}
    (h : compile program = .ok ir) : ∃ source, CorrectSchedule program ir source := by
  obtain ⟨scope, source, hscope, hsched, hperm, hsame⟩ := compile_scheduled h
  obtain ⟨huniq, hback⟩ := analyzeMission_items hscope
  have hlower : List.Forall₂ (fun it step => lowerItem it = .ok step)
      ((schedule scope.items).map Prod.snd) ir.steps := List.forall₂_map_left_iff.2 hsched.steps
  have hpermItems := schedule_perm scope.items
  have hloopIff : (∃ lp, IrStep.loop lp ∈ ir.steps) ↔
      scope.items.any AnalyzedItem.isLoop = true := by
    rw [exists_loop_iff hlower, any_isLoop_iff, any_isLoop_iff]
    simp only [hpermItems.mem_iff]
  refine ⟨source, hperm, ?_, ?_, ?_, ?_, ?_, ?_⟩
  · -- the steps are the lowered statements
    exact hsched.lowersTo
  · exact compile_contiguous h
  · intro p k c hphase hc ref href
    exact compile_producers h hphase hc href
  · intro hloop
    have hany := hloopIff.1 hloop
    refine ⟨hsame hany, ?_⟩
    have hlevels : (schedule scope.items).map Prod.fst = List.range scope.items.length := by
      rw [schedule_of_loop hany, List.map_fst_zip (le_of_eq List.length_range)]
    have hlen : ir.steps.length = scope.items.length := by
      rw [← hsched.length_eq, ← List.length_map (f := Prod.snd), hpermItems.length_eq]
    obtain ⟨scope', hscope', -, hphases, -⟩ := compile_eq_ok h
    cases hscope.symm.trans hscope'
    rw [hphases, numPhases_of_loop hany, hlevels, phaseRanges_range, hlen]
  · intro hcalls p k stmt hphase hstmt
    have hany : scope.items.any AnalyzedItem.isLoop = false := by
      rw [← Bool.not_eq_true, ← hloopIff]
      exact not_exists.2 hcalls
    obtain ⟨it, hit⟩ := (hsched.inPhase_iff p k).1 hphase
    have hdeps := hsched.outerDeps_eq hit hstmt
    have hlev := levelled_schedule hback huniq hany (List.mem_of_getElem? hit)
    unfold Levelled at hlev
    rw [hsched.producerLevels_eq hdeps, hdeps] at hlev
    exact hlev
  · intro k stmt c hstmt hc hkeys b
    obtain ⟨step, hstep, hlow⟩ := forall₂_getElem?_left hsched.lowersTo hstmt
    cases hc.symm.trans hstep
    obtain ⟨hsub, hall⟩ := hlow.inputRefs rfl
    constructor
    · exact hall hkeys b
    · rintro ⟨key, hkey⟩
      exact hsub _ hkey

/-- `let photo = call "photo.capture" on "cam"`, a call that reads it and one that reads nothing. -/
def sampleMission : EalProgram where
  mission := {
    name := "report"
    statements := [
      .letCall "photo" ⟨"photo.capture", some "cam", .device, [], {}⟩,
      .call ⟨"describe", some "claude", .agent, [⟨"image", .varRef "photo"⟩], {}⟩,
      .call ⟨"health.check", some "cam", .device, [⟨"deep", .bool true⟩], { optional := true }⟩] }

theorem compile_correctSchedule_sampleMission :
    ∃ ir, compile sampleMission = .ok ir ∧ ∃ source, CorrectSchedule sampleMission ir source := by
  have hok : (compile sampleMission).isOk = true := by decide +kernel
  cases h : compile sampleMission with
  | ok ir => exact ⟨ir, rfl, compile_correctSchedule h⟩
  | error e =>
    rw [h] at hok
    cases hok

end EasyNetDaemon.Eal
