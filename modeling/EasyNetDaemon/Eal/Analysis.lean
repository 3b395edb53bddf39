import EasyNetDaemon.Eal.Planner

/-!
# What the analysis of a scope establishes

`Analysed` describes a successful walk over the statements of a scope, one constructor for each way
to handle a statement; `analyzeStatementsInner_analysed` says that the walk of the planner is one.
By induction on it: the bindings of the items are pairwise distinct, every dependency is a name the
scope started with or the binding of an earlier item, and the items are those of the statements.
-/

namespace EasyNetDaemon.Eal

open Library EasyNetDaemon.Core

/-! ## One statement -/

/-- What a successful analysis of a call says. -/
theorem analyzeCall_eq_ok {binding : Option String} {call : CallExpr} {symbols : List String}
    {anon : Nat} {step : AnalyzedStep} (h : analyzeCall binding call symbols anon = .ok step) :
    step = { stepId := stepIdOf binding anon, binding, call, deps := call.references } ∧
      (∀ name, binding = some name → name ∉ symbols) ∧ (∀ d ∈ call.references, d ∈ symbols) ∧
      retryWithoutRetries call.options = false ∧ optionalAndAbort call.options = false := by
  unfold analyzeCall at h
  simp only [check_bind_eq_ok_iff, bailIf_eq_ok_iff, checkAll_eq_ok_iff] at h
  obtain ⟨hdup, hretry, hopt, hdeps, hstep⟩ := h
  refine ⟨(Except.ok.inj hstep).symm, ?_, ?_, hretry, hopt⟩
  · rintro name rfl
    simpa using hdup
  · intro d hd
    simpa using hdeps d hd

/-- The item that a statement other than `emit` is analysed into, and the counter after it. -/
inductive ItemOf (onLoop : LoopAnalysis) (anon : Nat) : Statement → AnalyzedItem → Nat → Prop
  | letCall (name : String) (call : CallExpr) (hretry : retryWithoutRetries call.options = false)
      (hopt : optionalAndAbort call.options = false) :
      ItemOf onLoop anon (.letCall name call)
        (.call { stepId := name, binding := some name, call, deps := call.references }) anon
  | call (call : CallExpr) (hretry : retryWithoutRetries call.options = false)
      (hopt : optionalAndAbort call.options = false) :
      ItemOf onLoop anon (.call call)
        (.call { stepId := anonId (anon + 1), binding := none, call, deps := call.references })
        (anon + 1)
  | loop (block : LoopBlock) (lp : IrLoop) (anon' : Nat) (h : onLoop block anon = .ok (lp, anon')) :
      ItemOf onLoop anon (.loop block) (.loop lp) anon'

/-- Whether a statement becomes a step. -/
def Statement.isStep : Statement → Bool
  | .emit _ => false
  | _ => true

/-- A successful walk over statements: from the names and the counter before to those after. -/
inductive Analysed (onLoop : LoopAnalysis) :
    List String → Nat → List Statement → List AnalyzedItem → List String → Nat → Prop where
  | nil (symbols : List String) (anon : Nat) : Analysed onLoop symbols anon [] [] symbols anon
  | emit {symbols symbols' : List String} {anon anon' : Nat} {stmts : List Statement}
      {items : List AnalyzedItem} (emit : EmitStatement)
      (rest : Analysed onLoop symbols anon stmts items symbols' anon') :
      Analysed onLoop symbols anon (.emit emit :: stmts) items symbols' anon'
  | step {symbols symbols' : List String} {anon anon₁ anon' : Nat} {stmt : Statement}
      {stmts : List Statement} {item : AnalyzedItem} {items : List AnalyzedItem}
      (hitem : ItemOf onLoop anon stmt item anon₁)
      (hfresh : ∀ b, item.binding = some b → b ∉ symbols)
      (hdeps : ∀ d ∈ item.outerDeps, d ∈ symbols)
      (rest : Analysed onLoop (addSymbol item.binding symbols) anon₁ stmts items symbols' anon') :
      Analysed onLoop symbols anon (stmt :: stmts) (item :: items) symbols' anon'

/-- A statement adds nothing but an `emit` record, or one item. -/
theorem analyzeStatement_eq_ok {onLoop : LoopAnalysis} {allowEmit : Bool} {scope scope' : Scope}
    {stmt : Statement} (h : analyzeStatement onLoop allowEmit scope stmt = .ok scope') :
    (stmt.isStep = false ∧ scope'.symbols = scope.symbols ∧ scope'.anon = scope.anon ∧
        scope'.items = scope.items) ∨
      ∃ item, ItemOf onLoop scope.anon stmt item scope'.anon ∧
        (∀ b, item.binding = some b → b ∉ scope.symbols) ∧
        (∀ d ∈ item.outerDeps, d ∈ scope.symbols) ∧
        scope'.symbols = addSymbol item.binding scope.symbols ∧
        scope'.items = scope.items ++ [item] := by
  cases stmt with
  | letCall name call =>
    obtain ⟨step, hstep, h⟩ := bind_eq_ok_iff.1 h
    cases h
    obtain ⟨rfl, hfresh, hdeps, hretry, hopt⟩ := analyzeCall_eq_ok hstep
    exact Or.inr ⟨_, .letCall name call hretry hopt, hfresh, hdeps, rfl, rfl⟩
  | call call =>
    obtain ⟨step, hstep, h⟩ := bind_eq_ok_iff.1 h
    cases h
    obtain ⟨rfl, hfresh, hdeps, hretry, hopt⟩ := analyzeCall_eq_ok hstep
    exact Or.inr ⟨_, .call call hretry hopt, hfresh, hdeps, rfl, rfl⟩
  | loop block =>
    obtain ⟨⟨lp, anon⟩, hloop, h⟩ := bind_eq_ok_iff.1 h
    obtain ⟨hdup, h⟩ := check_bind_eq_ok_iff.1 h
    cases h
    refine Or.inr ⟨.loop lp, .loop block lp anon hloop, ?_, ?_, rfl, rfl⟩
    · intro b hb
      have hb : lp.resultBinding = some b := hb
      rw [bailIf_eq_ok_iff, hb] at hdup
      simpa using hdup
    · intro d hd
      exact absurd hd List.not_mem_nil
  | emit emit =>
    obtain ⟨-, h⟩ := check_bind_eq_ok_iff.1 h
    obtain ⟨record, -, h⟩ := bind_eq_ok_iff.1 h
    cases h
    exact Or.inl ⟨rfl, rfl, rfl, rfl⟩

/-! ## A whole scope -/

theorem foldChecked_analysed {onLoop : LoopAnalysis} {allowEmit : Bool} {stmts : List Statement}
    {scope scope' : Scope}
    (h : foldChecked (analyzeStatement onLoop allowEmit) scope stmts = .ok scope') :
    ∃ items, scope'.items = scope.items ++ items ∧
      Analysed onLoop scope.symbols scope.anon stmts items scope'.symbols scope'.anon := by
  induction stmts generalizing scope with
  | nil =>
    cases h
    exact ⟨[], (List.append_nil _).symm, .nil _ _⟩
  | cons stmt stmts ih =>
    obtain ⟨scope₁, hstmt, hrest⟩ := bind_eq_ok_iff.1 h
    obtain ⟨items, hitems, hwalk⟩ := ih hrest
    rcases analyzeStatement_eq_ok hstmt with ⟨hemit, hsym, hanon, hsame⟩ |
      ⟨item, hitem, hfresh, hdeps, hsym, hadd⟩
    · rw [hsym, hanon] at hwalk
      refine ⟨items, by rw [hitems, hsame], ?_⟩
      cases stmt with
      | emit emit => exact .emit emit hwalk
      | letCall name call => cases hemit
      | call call => cases hemit
      | loop block => cases hemit
    · rw [hsym] at hwalk
      refine ⟨item :: items, ?_, .step hitem hfresh hdeps hwalk⟩
      rw [hitems, hadd, List.append_assoc, List.singleton_append]

/-- The walk of the planner over a scope. -/
theorem analyzeStatementsInner_analysed {onLoop : LoopAnalysis} {allowEmit : Bool}
    {stmts : List Statement} {anon : Nat} {seed : List String} {scope : Scope}
    (h : analyzeStatementsInner onLoop stmts anon seed allowEmit = .ok scope) :
    Analysed onLoop seed anon stmts scope.items scope.symbols scope.anon := by
  obtain ⟨scope', hscope, h⟩ := bind_eq_ok_iff.1 h
  obtain ⟨-, h⟩ := check_bind_eq_ok_iff.1 h
  cases h
  obtain ⟨items, hitems, hwalk⟩ := foldChecked_analysed hscope
  rw [List.nil_append] at hitems
  rw [hitems]
  exact hwalk

namespace Analysed

variable {onLoop : LoopAnalysis} {symbols symbols' : List String} {anon anon' : Nat}
  {stmts : List Statement} {items : List AnalyzedItem}

theorem mem_addSymbol {binding : Option String} {names : List String} {b : String} :
    b ∈ addSymbol binding names ↔ binding = some b ∨ b ∈ names := by
  cases binding with
  | none => simp [addSymbol]
  | some name => simp [addSymbol, eq_comm]

/-- The bindings of the items are new names, each exported by one item only. -/
theorem binding_unique (h : Analysed onLoop symbols anon stmts items symbols' anon') :
    (∀ it ∈ items, ∀ b, it.binding = some b → b ∉ symbols) ∧
      items.Pairwise fun it it' => ∀ b, it.binding = some b → it'.binding ≠ some b := by
  induction h with
  | nil symbols anon => exact ⟨by simp, List.Pairwise.nil⟩
  | emit emit rest ih => exact ih
  | step hitem hfresh hdeps rest ih =>
    obtain ⟨hnew, hpair⟩ := ih
    refine ⟨?_, ?_⟩
    · intro it hit b hb
      rcases List.mem_cons.1 hit with rfl | hit
      · exact hfresh b hb
      · intro hmem
        exact hnew it hit b hb (mem_addSymbol.2 (Or.inr hmem))
    · refine List.pairwise_cons.2 ⟨?_, hpair⟩
      intro it' hit' b hb hb'
      exact hnew it' hit' b hb' (mem_addSymbol.2 (Or.inl hb))

/-- Every dependency is a name of the scope or the binding of an earlier item. -/
theorem deps_earlier (h : Analysed onLoop symbols anon stmts items symbols' anon') :
    ∀ (i : Nat) (it : AnalyzedItem), items[i]? = some it → ∀ d ∈ it.outerDeps,
      d ∈ symbols ∨ ∃ j < i, ∃ it' : AnalyzedItem, items[j]? = some it' ∧ it'.binding = some d := by
  induction h with
  | nil symbols anon => intro i it hi; simp at hi
  | emit emit rest ih => exact ih
  | @step symbols _ anon _ _ stmt stmts item items hitem hfresh hdeps rest ih =>
    intro i it hi d hd
    cases i with
    | zero =>
      rw [List.getElem?_cons_zero] at hi
      cases hi
      exact Or.inl (hdeps d hd)
    | succ i =>
      rw [List.getElem?_cons_succ] at hi
      rcases ih i it hi d hd with hmem | ⟨j, hj, it', hit', hb⟩
      · -- the name came with the head item, or was there before
        rcases mem_addSymbol.1 hmem with hb | hmem
        · exact Or.inr ⟨0, Nat.succ_pos i, item, List.getElem?_cons_zero, hb⟩
        · exact Or.inl hmem
      · exact Or.inr ⟨j + 1, Nat.succ_lt_succ hj, it', by rwa [List.getElem?_cons_succ], hb⟩

/-- The items are those of the statements other than `emit`, in order. -/
theorem forall₂_items (h : Analysed onLoop symbols anon stmts items symbols' anon') :
    List.Forall₂ (fun it stmt => ∃ n n', ItemOf onLoop n stmt it n') items
      (stmts.filter Statement.isStep) := by
  induction h with
  | nil symbols anon => exact .nil
  | emit emit rest ih => exact ih
  | @step _ _ _ _ _ stmt _ _ _ hitem hfresh hdeps rest ih =>
    have hstep : stmt.isStep = true := by cases hitem <;> rfl
    rw [List.filter_cons_of_pos hstep]
    exact .cons ⟨_, _, hitem⟩ ih

end Analysed

/-- Lowering a list lowers its items one by one. -/
theorem forall₂_lowerItems {items : List AnalyzedItem} {steps : List IrStep}
    (h : lowerItems items = .ok steps) :
    List.Forall₂ (fun it step => lowerItem it = .ok step) items steps := by
  induction items generalizing steps with
  | nil =>
    cases h
    exact .nil
  | cons it items ih =>
    obtain ⟨step, hstep, h⟩ := bind_eq_ok_iff.1 h
    obtain ⟨rest, hrest, h⟩ := bind_eq_ok_iff.1 h
    cases h
    exact .cons hstep (ih hrest)

/-- A lowered call has the id, the binding and the options of its item. -/
theorem lowerCall_eq_ok {step : AnalyzedStep} {c : IrCall} (h : lowerCall step = .ok c) :
    ∃ arguments, splitArguments step.call.arguments [] [] = .ok arguments ∧
      c.stepId = step.stepId ∧ c.outputBinding = step.binding ∧ c.inputRefs = arguments.2 ∧
      c.onFailure = lowerPolicy step.call.options.onFailure ∧
      c.maxRetries = step.call.options.maxRetries.getD 0 ∧
      c.optional = step.call.options.optional := by
  obtain ⟨arguments, hargs, h⟩ := bind_eq_ok_iff.1 h
  obtain ⟨target, -, h⟩ := bind_eq_ok_iff.1 h
  obtain ⟨ability, -, h⟩ := bind_eq_ok_iff.1 h
  cases h
  exact ⟨arguments, hargs, rfl, rfl, rfl, rfl, rfl, rfl⟩

/-- A step exports the binding of its item. -/
theorem exportedBinding_of_lowerItem {it : AnalyzedItem} {step : IrStep}
    (h : lowerItem it = .ok step) : step.exportedBinding = it.binding := by
  cases it with
  | call s =>
    obtain ⟨c, hc, h⟩ := bind_eq_ok_iff.1 h
    cases h
    obtain ⟨_, _, _, hout, _⟩ := lowerCall_eq_ok hc
    exact hout
  | loop lp =>
    cases h
    rfl

/-- What a successful analysis of a loop did. -/
theorem analyzeLoop_eq_ok {block : LoopBlock} {anon anon' : Nat} {lp : IrLoop}
    (h : analyzeLoop block anon = .ok (lp, anon')) :
    ∃ body verify : Scope, checkLoopShape block = .ok () ∧
      analyzeStatementsInner noNestedLoop block.body anon [] false = .ok body ∧
      analyzeStatementsInner noNestedLoop block.verify body.anon
        (body.items.filterMap AnalyzedItem.binding) false = .ok verify ∧
      endsWithCall verify.items = true ∧
      lowerItems body.items = .ok lp.body ∧ lowerItems verify.items = .ok lp.verify ∧
      lp.name = block.name ∧ lp.maxIters = block.maxIters ∧
      lp.resultBinding = loopResultBinding block.name ∧ verify.anon = anon' := by
  obtain ⟨hshape, h⟩ := check_bind_eq_ok_iff.1 h
  obtain ⟨body, hbody, h⟩ := bind_eq_ok_iff.1 h
  obtain ⟨verify, hverify, h⟩ := bind_eq_ok_iff.1 h
  obtain ⟨hlast, h⟩ := check_bind_eq_ok_iff.1 h
  obtain ⟨bodyIr, hbodyIr, h⟩ := bind_eq_ok_iff.1 h
  obtain ⟨verifyIr, hverifyIr, h⟩ := bind_eq_ok_iff.1 h
  cases h
  rw [bailIf_eq_ok_iff, Bool.not_eq_false'] at hlast
  exact ⟨body, verify, hshape, hbody, hverify, hlast, hbodyIr, hverifyIr, rfl, rfl, rfl, rfl⟩

end EasyNetDaemon.Eal
