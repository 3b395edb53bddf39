import EasyNetDaemon.Eal.Parser

/-!
# The parser ends after linearly many steps

On every token stream, those that end inside a block or a literal included, each round of each loop
takes a token or leaves the loop, and the whole run makes at most eight looks for each token and one
more. The bound on nested calls that the model carries is not reached, however large it is taken.

Each function gets a bound in the sense of `Within`: what it costs beyond eight looks for
each token it takes. A negative cost says that it has taken a token that is not used up, and this is
what a loop lives on. The costs are composed along the code of the function.
-/

namespace EasyNetDaemon.Eal

open Library Library.CountedReader

namespace Parser

/-! ## How many looks -/

section Bounds

variable {allowed : ParseError → Prop} {input : List Token}

variable {α : Type} {failCost : Int} {fuel : Nat}

variable {f : Token → Reads α} {cost : α → Int}

/-- Taking a token, at the end of the input or before it. -/
theorem within_advance_bind
    (hnil : input = [] → Within 8 allowed (f .eof) [] (fun b => cost b + 0 - 1)
      (failCost + 0 - 1))
    (hcons : ∀ t rest, input = t :: rest → Within 8 allowed (f t) rest
      (fun b => cost b + (8 : Nat) - 1) (failCost + (8 : Nat) - 1)) :
    Within 8 allowed (advance >>= f) input cost failCost := by
  cases input with
  | nil => exact Within.advance_nil_bind (hnil rfl)
  | cons t rest => exact Within.advance_bind (hcons t rest rfl)

/-- Taking a token that was seen before. -/
theorem within_advance_seen {seen : Token} (hseen : input.headD .eof = seen) (hne : seen ≠ .eof)
    (h : ∀ rest, rest.length + 1 = input.length → Within 8 allowed (f seen) rest
      (fun b => cost b + (8 : Nat) - 1) (failCost + (8 : Nat) - 1)) :
    Within 8 allowed (advance >>= f) input cost failCost := by
  subst hseen
  cases input with
  | nil => exact absurd rfl hne
  | cons t rest => exact Within.advance_bind (h rest rfl)

theorem within_isMemberCallStart :
    Within 8 allowed isMemberCallStart input (fun _ => 1) 0 := by
  refine Within.peekAt_bind ?_
  exact Within.pure (by simp)

theorem within_inputEnded (stopAtEof : Bool) :
    Within 8 allowed (inputEnded stopAtEof) input (fun _ => 1) 0 := by
  cases stopAtEof with
  | false => exact Within.pure (by simp)
  | true =>
    refine Within.peek_bind ?_
    exact Within.pure (by simp)

section Calls

variable (hallowed : ∀ e, e ≠ .nesting → allowed e)

include hallowed

theorem within_bail {e : ParseError} (he : e ≠ .nesting) (h : 0 ≤ failCost) :
    Within 8 allowed (bail e : Reads α) input cost failCost :=
  Within.fail (hallowed e he) h

/-- A function that takes one token and returns a value for some tokens, none of them the end of the
input. -/
theorem within_oneToken (heof : ∃ e, f .eof = bail e ∧ e ≠ .nesting)
    (hf : ∀ t, (∃ a, f t = pure a) ∨ ∃ e, f t = bail e ∧ e ≠ .nesting) :
    Within 8 allowed (advance >>= f) input (fun _ => -7) 1 := by
  refine within_advance_bind (fun _ => ?_) (fun t rest _ => ?_)
  · obtain ⟨e, hfail, he⟩ := heof
    rw [hfail]
    exact within_bail hallowed he (by omega)
  · obtain ⟨a, hpure⟩ | ⟨e, hfail, he⟩ := hf t
    · rw [hpure]
      exact Within.pure (by simp)
    · rw [hfail]
      exact within_bail hallowed he (by omega)

theorem within_expect {expected : Token} (hexpected : expected ≠ .eof) :
    Within 8 allowed (expect expected) input (fun _ => -7) 1 := by
  refine within_oneToken hallowed ⟨_, if_neg hexpected.symm, nofun⟩ fun t => ?_
  by_cases h : t = expected
  · exact .inl ⟨(), if_pos h⟩
  · exact .inr ⟨_, if_neg h, nofun⟩

theorem within_expectString : Within 8 allowed expectString input (fun _ => -7) 1 := by
  refine within_oneToken hallowed ⟨_, rfl, nofun⟩ fun t => ?_
  cases t
  case stringLit s => exact .inl ⟨s, rfl⟩
  all_goals exact .inr ⟨_, rfl, nofun⟩

theorem within_expectIdent : Within 8 allowed expectIdent input (fun _ => -7) 1 := by
  refine within_oneToken hallowed ⟨_, rfl, nofun⟩ fun t => ?_
  cases t
  case ident s => exact .inl ⟨s, rfl⟩
  all_goals exact .inr ⟨_, rfl, nofun⟩

theorem within_expectInt : Within 8 allowed expectInt input (fun _ => -7) 1 := by
  refine within_oneToken hallowed ⟨_, rfl, nofun⟩ fun t => ?_
  cases t
  case intLit n => exact .inl ⟨n, rfl⟩
  all_goals exact .inr ⟨_, rfl, nofun⟩

theorem within_expectEmitKind : Within 8 allowed expectEmitKind input (fun _ => -7) 1 := by
  refine within_oneToken hallowed ⟨_, rfl, nofun⟩ fun t => ?_
  cases t
  case stringLit s => exact .inl ⟨s, rfl⟩
  case ident s => exact .inl ⟨s, rfl⟩
  all_goals exact .inr ⟨_, rfl, nofun⟩

theorem within_parsePolicy : Within 8 allowed parsePolicy input (fun _ => -7) 1 := by
  refine within_oneToken hallowed ⟨_, rfl, nofun⟩ fun t => ?_
  cases t
  case abort => exact .inl ⟨_, rfl⟩
  case skip => exact .inl ⟨_, rfl⟩
  case retry => exact .inl ⟨_, rfl⟩
  case continueKw => exact .inl ⟨_, rfl⟩
  all_goals exact .inr ⟨_, rfl, nofun⟩

theorem within_parseLiteral (site : ValueSite) :
    Within 8 allowed (parseLiteral site) input (fun _ => -7) 1 := by
  refine within_oneToken hallowed ⟨_, rfl, nofun⟩ fun t => ?_
  cases t
  case stringLit => exact .inl ⟨_, rfl⟩
  case intLit => exact .inl ⟨_, rfl⟩
  case floatLit => exact .inl ⟨_, rfl⟩
  case boolLit => exact .inl ⟨_, rfl⟩
  all_goals exact .inr ⟨_, rfl, nofun⟩

theorem within_parseAgent : Within 8 allowed parseAgent input (fun _ => -7) 1 := by
  refine within_oneToken hallowed ⟨_, rfl, nofun⟩ fun t => ?_
  cases t
  case ident s => exact .inl ⟨s, rfl⟩
  case stringLit s => exact .inl ⟨s, rfl⟩
  all_goals exact .inr ⟨_, rfl, nofun⟩

theorem within_expectContextualIdent (expected : String) :
    Within 8 allowed (expectContextualIdent expected) input (fun _ => -6) 1 := by
  refine Within.peek_bind ?_
  split
  · next hseen =>
    refine within_advance_seen hseen nofun fun rest _ => ?_
    exact Within.pure (by simp)
  · exact within_bail hallowed nofun (by omega)

theorem within_parseOptionalBlockName :
    Within 8 allowed parseOptionalBlockName input (fun _ => 1) 2 := by
  refine Within.peek_bind ?_
  split
  · refine Within.bind (within_expectString hallowed) (by omega) fun _ _ _ => ?_
    exact Within.pure (by simp)
  · exact Within.pure (by simp)

theorem within_expectU32 : Within 8 allowed expectU32 input (fun _ => -6) 1 := by
  refine Within.peek_bind ?_
  split
  · next n hseen =>
    refine within_advance_seen hseen nofun fun rest _ => ?_
    split
    · exact within_bail hallowed nofun (by omega)
    split
    · exact within_bail hallowed nofun (by omega)
    · exact Within.pure (by simp)
  · exact within_bail hallowed nofun (by omega)

theorem within_expectI32InRange (field : String) :
    Within 8 allowed (expectI32InRange field) input (fun _ => -7) 1 := by
  refine Within.bind (within_expectInt hallowed) (by omega) fun n rest _ => ?_
  split
  · exact within_bail hallowed nofun (by omega)
  · exact Within.pure (by simp)

theorem within_parseReference (site : ValueSite) :
    Within 8 allowed (parseReference site) input (fun _ => -20) 1 := by
  refine Within.bind (within_expectIdent hallowed) (by omega) fun ident rest _ => ?_
  refine Within.peek_bind ?_
  split
  · next hseen =>
    refine within_advance_seen hseen nofun fun rest _ => ?_
    refine Within.bind (within_expectIdent hallowed) (by omega) fun acc rest _ => ?_
    split
    · exact Within.pure (by simp)
    split
    · exact Within.pure (by simp)
    · exact within_bail hallowed nofun (by omega)
  · exact within_bail hallowed nofun (by omega)

theorem within_parseScalar (site : ValueSite) :
    Within 8 allowed (parseScalar site) input (fun _ => -6) 2 := by
  refine Within.peek_bind ?_
  split
  · exact (within_parseReference hallowed site).mono (fun _ => by simp) (by omega)
  · exact (within_parseLiteral hallowed site).mono (fun _ => by simp) (by omega)

/-! ### Values -/

theorem within_parseNamedArg {argValue : Reads FieldValue}
    (hvalue : ∀ rest : List Token, rest.length + 2 ≤ input.length →
      Within 8 allowed argValue rest (fun _ => -5) 3) :
    Within 8 allowed (parseNamedArg argValue) input (fun _ => -19) 1 := by
  refine Within.bind (within_expectIdent hallowed) (by omega) fun key rest hkey => ?_
  refine Within.bind (within_expect hallowed nofun) (by omega) fun _ rest' hcolon => ?_
  refine Within.bind (hvalue rest' (by omega)) (by omega) fun value _ _ => ?_
  exact Within.pure (by simp)

mutual

theorem within_parseArgValue : ∀ (fuel : Nat) {input : List Token},
    2 * input.length + 1 ≤ fuel ∨ allowed .nesting →
      Within 8 allowed (parseArgValue fuel) input (fun _ => -5) 3
  | 0, _, hfuel => Within.fail (hfuel.resolve_left (by omega)) (by omega)
  | fuel + 1, input, hfuel => by
    refine Within.peek_bind ?_
    split
    · next hseen =>
      refine within_advance_seen hseen nofun fun rest hrest => ?_
      refine Within.bind (within_parseNamedArgs .rBrace fuel
        (hfuel.imp_left fun h => by omega)) (by omega) fun fields rest _ => ?_
      refine Within.bind (within_expect hallowed nofun) (by omega) fun _ _ _ => ?_
      exact Within.pure (by simp)
    · exact (within_parseScalar hallowed .argument).mono (fun _ => by simp) (by omega)

theorem within_parseNamedArgs (close : Token) : ∀ (fuel : Nat) {input : List Token},
    2 * input.length + 1 ≤ fuel ∨ allowed .nesting →
      Within 8 allowed (parseNamedArgs close fuel) input (fun _ => 2) 3
  | 0, _, hfuel => Within.fail (hfuel.resolve_left (by omega)) (by omega)
  | fuel + 1, input, hfuel => by
    refine Within.peek_bind ?_
    split
    · exact Within.pure (by simp)
    refine Within.peek_bind ?_
    split
    · exact Within.pure (by simp)
    refine Within.bind (within_parseNamedArg hallowed fun rest hrest =>
      within_parseArgValue fuel (hfuel.imp_left fun h => by omega)) (by omega)
      fun field rest hround => ?_
    refine Within.peek_bind ?_
    split
    · next hseen =>
      refine within_advance_seen hseen nofun fun rest' hrest' => ?_
      -- the round has taken a token, so the call behind it has enough fuel
      refine Within.bind (within_parseNamedArgs close fuel
        (hfuel.imp_left fun h => by omega)) (by omega) fun fields rest _ => ?_
      exact Within.pure (by simp)
    · exact Within.pure (by simp)

end

theorem within_parseField : Within 8 allowed parseField input (fun _ => -19) 1 := by
  refine Within.bind (within_expectIdent hallowed) (by omega) fun key rest _ => ?_
  refine Within.bind (within_expect hallowed nofun) (by omega) fun _ rest _ => ?_
  refine Within.bind (within_parseScalar hallowed .field) (by omega) fun value rest _ => ?_
  refine Within.peek_bind ?_
  split
  · next hseen =>
    refine within_advance_seen hseen nofun fun rest _ => ?_
    exact Within.pure (by simp)
  · exact Within.pure (by simp)

theorem within_parseFields : ∀ (fuel : Nat) {input : List Token},
    input.length + 1 ≤ fuel ∨ allowed .nesting →
      Within 8 allowed (parseFields fuel) input (fun _ => 2) 3
  | 0, _, hfuel => Within.fail (hfuel.resolve_left (by omega)) (by omega)
  | fuel + 1, input, hfuel => by
    refine Within.peek_bind ?_
    split
    · exact Within.pure (by simp)
    refine Within.peek_bind ?_
    split
    · exact Within.pure (by simp)
    refine Within.bind (within_parseField hallowed) (by omega) fun field rest hround => ?_
    refine Within.bind (within_parseFields fuel (hfuel.imp_left fun h => by omega))
      (by omega) fun fields rest _ => ?_
    exact Within.pure (by simp)

/-! ### Calls -/

/-- What a round of the loop over options costs: a round that goes on has taken a token. -/
def optionCost : Option StepOptions → Int
  | some _ => -6
  | none => 1

theorem within_parseOption (opts : StepOptions) :
    Within 8 allowed (parseOption opts) input optionCost 0 := by
  refine Within.peek_bind ?_
  split
  · next hseen =>
    refine within_advance_seen hseen nofun fun rest _ => ?_
    refine Within.bind (within_expectI32InRange hallowed "timeout") (by omega) fun n rest _ => ?_
    exact Within.pure (by simp [optionCost])
  · next hseen =>
    refine within_advance_seen hseen nofun fun rest _ => ?_
    refine Within.bind (within_expectI32InRange hallowed "retries") (by omega) fun n rest _ => ?_
    exact Within.pure (by simp [optionCost])
  · next hseen =>
    refine within_advance_seen hseen nofun fun rest _ => ?_
    refine Within.bind (within_parsePolicy hallowed) (by omega) fun policy rest _ => ?_
    exact Within.pure (by simp [optionCost])
  · next hseen =>
    refine within_advance_seen hseen nofun fun rest _ => ?_
    exact Within.pure (by simp [optionCost])
  · exact Within.pure (by simp [optionCost])

theorem within_parseOptions : ∀ (fuel : Nat) (opts : StepOptions) {input : List Token},
    input.length + 1 ≤ fuel ∨ allowed .nesting →
      Within 8 allowed (parseOptions fuel opts) input (fun _ => 1) 0
  | 0, _, _, hfuel => Within.fail (hfuel.resolve_left (by omega)) (by omega)
  | fuel + 1, opts, input, hfuel => by
    refine Within.bind (within_parseOption hallowed opts) (by omega) fun next rest hround => ?_
    cases next with
    | some opts =>
      simp only [optionCost] at hround
      refine (within_parseOptions fuel opts (hfuel.imp_left fun h => by omega)).mono
        (fun _ => by simp [optionCost]) (by simp [optionCost])
    | none => exact Within.pure (by simp [optionCost])

theorem within_parseWithBlock (hfuel : input.length ≤ fuel ∨ allowed .nesting) :
    Within 8 allowed (parseWithBlock fuel) input (fun _ => 1) 0 := by
  refine Within.peek_bind ?_
  split
  · next hseen =>
    refine within_advance_seen hseen nofun fun rest hrest => ?_
    refine Within.bind (within_expect hallowed nofun) (by omega) fun _ rest hopen => ?_
    refine Within.bind (within_parseFields hallowed fuel (hfuel.imp_left fun h => by omega))
      (by omega) fun fields rest _ => ?_
    refine Within.bind (within_expect hallowed nofun) (by omega) fun _ rest _ => ?_
    exact Within.pure (by simp)
  · exact Within.pure (by simp)

theorem within_parseCallExpr (hfuel : input.length ≤ fuel ∨ allowed .nesting) :
    Within 8 allowed (parseCallExpr fuel) input (fun _ => -26) 1 := by
  refine Within.bind (within_expect hallowed nofun) (by omega) fun _ rest h₁ => ?_
  refine Within.bind (within_expectString hallowed) (by omega) fun functionName rest h₂ => ?_
  refine Within.bind (within_expect hallowed nofun) (by omega) fun _ rest h₃ => ?_
  refine Within.bind (within_expectString hallowed) (by omega) fun targetNode rest h₄ => ?_
  refine Within.bind (within_parseWithBlock hallowed (hfuel.imp_left fun h => by omega))
    (by omega) fun arguments rest h₅ => ?_
  refine Within.bind (within_parseOptions hallowed fuel {}
    (hfuel.imp_left fun h => by omega)) (by omega) fun options rest _ => ?_
  exact Within.pure (by simp)

theorem within_parseMemberCall (hfuel : 2 * input.length ≤ fuel ∨ allowed .nesting) :
    Within 8 allowed (parseMemberCall fuel) input (fun _ => -32) 1 := by
  refine Within.bind (within_parseAgent hallowed) (by omega) fun agent rest h₁ => ?_
  refine Within.bind (within_expect hallowed nofun) (by omega) fun _ rest h₂ => ?_
  refine Within.bind (within_expectIdent hallowed) (by omega) fun ability rest h₃ => ?_
  refine Within.bind (within_expect hallowed nofun) (by omega) fun _ rest h₄ => ?_
  refine Within.bind (within_parseNamedArgs hallowed .rParen fuel
    (hfuel.imp_left fun h => by omega)) (by omega) fun arguments rest h₅ => ?_
  refine Within.bind (within_expect hallowed nofun) (by omega) fun _ rest h₆ => ?_
  refine Within.bind (within_parseOptions hallowed fuel {}
    (hfuel.imp_left fun h => by omega)) (by omega) fun options rest _ => ?_
  exact Within.pure (by simp)

theorem within_parseMemberCallAt (t : Token) (hfuel : 2 * input.length ≤ fuel ∨ allowed .nesting) :
    Within 8 allowed (parseMemberCallAt fuel t) input (fun _ => -31) 2 := by
  refine Within.peekAt_bind ?_
  split
  · exact (within_parseMemberCall hallowed hfuel).mono (fun _ => by simp) (by omega)
  · exact within_bail hallowed nofun (by omega)

theorem within_parseRhs (hfuel : 2 * input.length ≤ fuel ∨ allowed .nesting) :
    Within 8 allowed (parseRhs fuel) input (fun _ => -25) 3 := by
  refine Within.peek_bind ?_
  split
  · exact (within_parseCallExpr hallowed (hfuel.imp_left fun h => by omega)).mono
      (fun _ => by simp) (by omega)
  · exact (within_parseMemberCallAt hallowed _ hfuel).mono (fun _ => by simp) (by omega)
  · exact (within_parseMemberCallAt hallowed _ hfuel).mono (fun _ => by simp) (by omega)
  · exact within_bail hallowed nofun (by omega)

/-! ### Statements -/

theorem within_parseIdentStatement (s : String)
    (hfuel : 2 * input.length ≤ fuel ∨ allowed .nesting) :
    Within 8 allowed (parseIdentStatement fuel s) input (fun _ => -24) 4 := by
  unfold parseIdentStatement
  split
  · refine Within.bind within_isMemberCallStart (by omega) fun starts rest hstart => ?_
    split
    · exact (within_parseRhs hallowed (hfuel.imp_left fun h => by omega)).mono (fun _ => by simp)
        (by omega)
    · exact within_bail hallowed nofun (by omega)
  · exact (within_parseRhs hallowed hfuel).mono (fun _ => by simp) (by omega)

theorem within_parseEmitStatement (hfuel : 2 * input.length ≤ fuel ∨ allowed .nesting) :
    Within 8 allowed (parseEmitStatement fuel) input (fun _ => -38) 1 := by
  refine Within.bind (within_expect hallowed nofun) (by omega) fun _ rest h₁ => ?_
  refine Within.bind (within_expectString hallowed) (by omega) fun name rest h₂ => ?_
  refine Within.bind (within_expectContextualIdent hallowed "kind") (by omega) fun _ rest h₃ => ?_
  refine Within.bind (within_expectEmitKind hallowed) (by omega) fun kind rest h₄ => ?_
  refine Within.bind (within_expectContextualIdent hallowed "value") (by omega) fun _ rest h₅ => ?_
  refine Within.bind (within_parseArgValue hallowed fuel
    (hfuel.imp_left fun h => by omega)) (by omega) fun value rest _ => ?_
  exact Within.pure (by simp)

theorem within_parseLoopHead : Within 8 allowed parseLoopHead input (fun _ => -32) 1 := by
  refine Within.bind (within_expect hallowed nofun) (by omega) fun _ rest _ => ?_
  refine Within.bind (within_parseOptionalBlockName hallowed) (by omega) fun name rest _ => ?_
  refine Within.bind (within_expectContextualIdent hallowed "max_iters") (by omega)
    fun _ rest _ => ?_
  refine Within.bind (within_expect hallowed nofun) (by omega) fun _ rest _ => ?_
  refine Within.bind (within_expectU32 hallowed) (by omega) fun maxIters rest _ => ?_
  refine Within.bind (within_expect hallowed nofun) (by omega) fun _ rest _ => ?_
  exact Within.pure (by simp)

theorem within_finishLoop (name : Option String) (maxIters : Nat) (blocks : SubBlocks) :
    Within 8 allowed (finishLoop name maxIters blocks) input (fun _ => 0) 0 := by
  obtain ⟨body, verify⟩ := blocks
  cases body with
  | none => exact within_bail hallowed nofun (by omega)
  | some body =>
    cases verify with
    | none => exact within_bail hallowed nofun (by omega)
    | some verify => exact Within.pure (by simp)

/-- A round of the loop over blocks, on the keyword that was seen. -/
theorem within_parseSubBlock {statements : Reads (List Statement)} (blocks : SubBlocks)
    {seen : Token} (hseen : input.headD .eof = seen)
    (hstatements : ∀ rest : List Token, rest.length + 2 ≤ input.length →
      Within 8 allowed statements rest (fun _ => 2) 7) :
    Within 8 allowed (parseSubBlock statements blocks seen) input (fun _ => -19) 0 := by
  unfold parseSubBlock
  split
  case h_3 => exact within_bail hallowed nofun (by omega)
  -- a body or a verify block
  all_goals
    split
    · exact within_bail hallowed nofun (by omega)
    refine within_advance_seen hseen nofun fun rest hrest => ?_
    refine Within.bind (within_expect hallowed nofun) (by omega) fun _ rest hopen => ?_
    refine Within.bind (hstatements rest (by omega)) (by omega) fun stmts rest _ => ?_
    refine Within.bind (within_expect hallowed nofun) (by omega) fun _ rest _ => ?_
    exact Within.pure (by simp)

end Calls

mutual

theorem within_parseStatement (hallowed : ∀ e, e ≠ .nesting → allowed e) :
    ∀ (fuel : Nat) {input : List Token},
    2 * input.length + 1 ≤ fuel ∨ allowed .nesting →
      Within 8 allowed (parseStatement fuel) input (fun _ => -23) 5
  | 0, _, hfuel => Within.fail (hfuel.resolve_left (by omega)) (by omega)
  | fuel + 1, input, hfuel => by
    refine Within.peek_bind ?_
    split
    · next hseen =>
      refine within_advance_seen hseen nofun fun rest hrest => ?_
      refine Within.bind (within_expectIdent hallowed) (by omega) fun binding rest hident => ?_
      refine Within.bind (within_expect hallowed nofun) (by omega) fun _ rest heq => ?_
      refine Within.bind (within_parseRhs hallowed (hfuel.imp_left fun h => by omega))
        (by omega) fun call rest _ => ?_
      exact Within.pure (by simp)
    · refine Within.bind (within_parseLoopHead hallowed) (by omega) fun head rest hhead => ?_
      refine Within.bind (within_parseSubBlocks hallowed fuel {}
        (hfuel.imp_left fun h => by omega)) (by omega) fun blocks rest _ => ?_
      refine Within.bind (within_expect hallowed nofun) (by omega) fun _ rest _ => ?_
      refine Within.bind (within_finishLoop hallowed head.1 head.2 blocks) (by omega)
        fun block rest _ => ?_
      exact Within.pure (by simp)
    · next s _ =>
      refine Within.bind (within_parseIdentStatement hallowed s
        (hfuel.imp_left fun h => by omega)) (by omega) fun call rest _ => ?_
      exact Within.pure (by simp)
    · refine Within.bind (within_parseEmitStatement hallowed
        (hfuel.imp_left fun h => by omega)) (by omega) fun emit rest _ => ?_
      exact Within.pure (by simp)
    · refine Within.bind (within_parseRhs hallowed (hfuel.imp_left fun h => by omega))
        (by omega) fun call rest _ => ?_
      exact Within.pure (by simp)

theorem within_parseStatements (hallowed : ∀ e, e ≠ .nesting → allowed e) (stopAtEof : Bool) :
    ∀ (fuel : Nat) {input : List Token},
    2 * input.length + 2 ≤ fuel ∨ allowed .nesting →
      Within 8 allowed (parseStatements stopAtEof fuel) input (fun _ => 2) 7
  | 0, _, hfuel => Within.fail (hfuel.resolve_left (by omega)) (by omega)
  | fuel + 1, input, hfuel => by
    refine Within.peek_bind ?_
    split
    · exact Within.pure (by simp)
    refine Within.bind (within_inputEnded stopAtEof) (by omega) fun ended rest hended => ?_
    split
    · exact Within.pure (by simp)
    -- the look at the end of the input takes nothing, and the statement takes a token
    refine Within.bind (within_parseStatement hallowed fuel
      (hfuel.imp_left fun h => by omega)) (by omega) fun stmt rest hround => ?_
    refine Within.bind (within_parseStatements hallowed stopAtEof fuel
      (hfuel.imp_left fun h => by omega)) (by omega) fun stmts rest _ => ?_
    exact Within.pure (by simp)

theorem within_parseSubBlocks (hallowed : ∀ e, e ≠ .nesting → allowed e) :
    ∀ (fuel : Nat) (blocks : SubBlocks) {input : List Token},
    2 * input.length + 1 ≤ fuel ∨ allowed .nesting →
      Within 8 allowed (parseSubBlocks fuel blocks) input (fun _ => 1) 2
  | 0, _, _, hfuel => Within.fail (hfuel.resolve_left (by omega)) (by omega)
  | fuel + 1, blocks, input, hfuel => by
    refine Within.peek_bind ?_
    split
    · exact Within.pure (by simp)
    refine Within.peek_bind ?_
    refine Within.bind (within_parseSubBlock hallowed blocks rfl fun rest hrest =>
      within_parseStatements hallowed false fuel (hfuel.imp_left fun h => by omega)) (by omega)
      fun blocks rest hround => ?_
    exact (within_parseSubBlocks hallowed fuel blocks (hfuel.imp_left fun h => by omega)).mono
      (fun _ => by simp) (by omega)

end

theorem within_parseProgram (hallowed : ∀ e, e ≠ .nesting → allowed e)
    (hfuel : 2 * input.length ≤ fuel ∨ allowed .nesting) :
    Within 8 allowed (parseProgram fuel) input (fun _ => -26) 1 := by
  have hmission : Within 8 allowed (parseMission fuel) input (fun _ => -26) 1 := by
    refine Within.bind (within_expect hallowed nofun) (by omega) fun _ rest h₁ => ?_
    refine Within.bind (within_expectString hallowed) (by omega) fun name rest h₂ => ?_
    refine Within.bind (within_expect hallowed nofun) (by omega) fun _ rest h₃ => ?_
    refine Within.bind (within_parseStatements hallowed true fuel
      (hfuel.imp_left fun h => by omega)) (by omega) fun statements rest _ => ?_
    refine Within.bind (within_expect hallowed nofun) (by omega) fun _ rest _ => ?_
    exact Within.pure (by simp)
  refine Within.bind hmission (by omega) fun mission rest _ => ?_
  exact Within.pure (by simp)

end Bounds

/-! ## Progress and the bound -/

/-- Every round of each loop of the parser that goes on has taken a token, whatever the tokens are:
a statement of a mission or a block, a named argument, a field of a `with` block, an option, and a
block of a loop. -/
structure RoundsTakeTokens (fuel : Nat) : Prop where
  statement : ∀ toks stmt rest,
    (parseStatement fuel toks).1 = .ok (stmt, rest) → rest.length < toks.length
  namedArg : ∀ toks field rest,
    (parseNamedArg (parseArgValue fuel) toks).1 = .ok (field, rest) → rest.length < toks.length
  field : ∀ toks field rest,
    (parseField toks).1 = .ok (field, rest) → rest.length < toks.length
  option : ∀ toks opts opts' rest,
    (parseOption opts toks).1 = .ok (some opts', rest) → rest.length < toks.length
  subBlock : ∀ toks blocks blocks' rest,
    (parseSubBlock (parseStatements false fuel) blocks (toks.headD .eof) toks).1 =
      .ok (blocks', rest) → rest.length < toks.length

theorem roundsTakeTokens (fuel : Nat) : RoundsTakeTokens fuel where
  statement _ _ _ hok :=
    (within_parseStatement (fun _ _ => trivial) fuel (.inr trivial)).length_lt hok (by omega)
  namedArg _ _ _ hok :=
    (within_parseNamedArg (fun _ _ => trivial) fun _ _ =>
      within_parseArgValue (fun _ _ => trivial) fuel (.inr trivial)).length_lt hok (by omega)
  field _ _ _ hok := (within_parseField fun _ _ => trivial).length_lt hok (by omega)
  option _ opts _ _ hok :=
    (within_parseOption (fun _ _ => trivial) opts).length_lt hok (by simp [optionCost])
  subBlock _ blocks _ _ hok :=
    (within_parseSubBlock (fun _ _ => trivial) blocks rfl fun _ _ =>
      within_parseStatements (fun _ _ => trivial) false fuel (.inr trivial)).length_lt hok
      (by omega)

/-- The parser ends on every list of tokens. The bound on nested calls is not reached, however much
is added to it; each round of each loop that goes on has taken a token; and a run looks at tokens at
most eight times for each of them, and once more. -/
theorem parseProgram_steps_linear (toks : List Token) (extra : Nat) :
    (parseProgram (2 * toks.length + extra) toks).1 ≠ .error .nesting ∧
      (parseProgram (2 * toks.length + extra) toks).2 ≤ 8 * toks.length + 1 ∧
      RoundsTakeTokens (2 * toks.length + extra) := by
  have hwithin : Within 8 (· ≠ .nesting) (parseProgram (2 * toks.length + extra)) toks
      (fun _ => -26) 1 :=
    within_parseProgram (fun _ h => h) (.inl (Nat.le_add_right _ _))
  obtain ⟨hok, herr⟩ := hwithin
  refine ⟨fun h => (herr _ h).1 rfl, ?_, roundsTakeTokens _⟩
  cases hrun : (parseProgram (2 * toks.length + extra) toks).1 with
  | ok p =>
    have hcount := hok p.1 p.2 hrun
    simp only at hcount
    omega
  | error e =>
    have hcount := (herr e hrun).2
    omega

end Parser

end EasyNetDaemon.Eal
