import Mathlib.Data.List.Basic

/-!
# Counting what a reader of a list does

A reader takes elements from the front of a list and may look ahead; it fails with an error or
returns a value and the elements left. `CountedReader` is such a reader together with the number of
its looks, and `Within` bounds that number: at most `rate` looks for each element taken, and `cost`
more. A negative cost says that elements have been taken that are not yet paid for; this is what a
loop needs whose every round takes an element. The rules for sequencing (`Within.bind`) and for the
two ways to look (`Within.peek_bind`, `Within.advance_bind`) let a bound be composed along the code
of the reader.
-/

namespace EasyNetDaemon.Library

/-- A reader of a list, with the number of looks it makes. -/
def CountedReader (τ ε α : Type) : Type := List τ → Except ε (α × List τ) × Nat

namespace CountedReader

variable {τ ε α β : Type}

instance : Monad (CountedReader τ ε) where
  pure a := fun input => (.ok (a, input), 0)
  bind x f := fun input =>
    match x input with
    | (.ok (a, rest), n) => ((f a rest).1, n + (f a rest).2)
    | (.error e, n) => (.error e, n)

/-- Looks at the element at a distance; past the end there is `last`. -/
def peekAt (last : τ) (offset : Nat) : CountedReader τ ε τ := fun input =>
  (.ok ((input.drop offset).headD last, input), 1)

/-- Looks at the next element. -/
def peek (last : τ) : CountedReader τ ε τ := fun input => (.ok (input.headD last, input), 1)

/-- Takes the next element. -/
def advance (last : τ) : CountedReader τ ε τ := fun input => (.ok (input.headD last, input.tail), 1)

/-- Fails without a look. -/
def fail (e : ε) : CountedReader τ ε α := fun _ => (.error e, 0)

/-! ## Bounds -/

section Bounds

variable (rate : Nat) (allowed : ε → Prop)

/-- On this input the reader looks at most `rate` times for each element it takes and `cost` times
more; where it fails it does so with an allowed error, after at most `rate` looks for each element
of the input and `failCost` more. -/
def Within (x : CountedReader τ ε α) (input : List τ) (cost : α → Int) (failCost : Int) : Prop :=
  (∀ a rest, (x input).1 = .ok (a, rest) →
    ((x input).2 : Int) + rate * rest.length ≤ rate * input.length + cost a) ∧
  ∀ e, (x input).1 = .error e → allowed e ∧ ((x input).2 : Int) ≤ rate * input.length + failCost

variable {rate : Nat} {allowed : ε → Prop} {x : CountedReader τ ε α} {input : List τ}
  {cost : α → Int}
  {failCost : Int}

variable {failCost' : Int} {cost' : β → Int} {last : τ} {f : τ → CountedReader τ ε β}

theorem Within.mono {cost' : α → Int} (h : Within rate allowed x input cost failCost)
    (hcost : ∀ a, cost a ≤ cost' a) (hfail : failCost ≤ failCost') :
    Within rate allowed x input cost' failCost' := by
  refine ⟨fun a rest hok => ?_, fun e herr => ?_⟩
  · exact Int.le_trans (h.1 a rest hok) (Int.add_le_add_left (hcost a) _)
  · exact ⟨(h.2 e herr).1, Int.le_trans (h.2 e herr).2 (Int.add_le_add_left hfail _)⟩

theorem Within.pure {a : α} (h : 0 ≤ cost a) :
    Within rate allowed (Pure.pure a : CountedReader τ ε α) input cost failCost := by
  refine ⟨?_, fun e herr => ?_⟩
  · intro b rest hok
    obtain ⟨rfl, rfl⟩ := Prod.mk.inj (Except.ok.inj hok)
    show ((0 : Nat) : Int) + _ ≤ _
    omega
  · cases herr

theorem Within.fail {e : ε} (he : allowed e) (h : 0 ≤ failCost) :
    Within rate allowed (CountedReader.fail e : CountedReader τ ε α) input cost failCost := by
  refine ⟨fun a rest hok => ?_, ?_⟩
  · cases hok
  · intro e' herr
    obtain rfl := Except.error.inj herr
    refine ⟨he, ?_⟩
    have hnonneg : (0 : Int) ≤ (rate : Int) * input.length :=
      Int.mul_nonneg (Int.natCast_nonneg _) (Int.natCast_nonneg _)
    show ((0 : Nat) : Int) ≤ _
    omega

/-- What is left over by the first reader pays for the second. -/
theorem Within.bind {f : α → CountedReader τ ε β} (hx : Within rate allowed x input cost failCost)
    (hfail : failCost ≤ failCost')
    (hf : ∀ a rest, (rate : Int) * rest.length ≤ rate * input.length + cost a →
      Within rate allowed (f a) rest (fun b => cost' b - cost a) (failCost' - cost a)) :
    Within rate allowed (x >>= f) input cost' failCost' := by
  cases hrun : x input with
  | mk result n =>
    cases result with
    | ok p =>
      obtain ⟨a, rest⟩ := p
      have hbind : (x >>= f) input = ((f a rest).1, n + (f a rest).2) := by
        show (match x input with
          | (.ok (a, rest), n) => ((f a rest).1, n + (f a rest).2)
          | (.error e, n) => (.error e, n)) = _
        rw [hrun]
      have hfirst := hx.1 a rest (by rw [hrun])
      rw [hrun] at hfirst
      have hcount : (0 : Int) ≤ n := Int.natCast_nonneg n
      obtain ⟨hok, herr⟩ := hf a rest (by simp only at hfirst; omega)
      rw [Within, hbind]
      simp only at hfirst hok ⊢
      refine ⟨fun b rest' hb => ?_, fun e he => ⟨(herr e he).1, ?_⟩⟩
      · have hsecond := hok b rest' hb
        omega
      · have hsecond := (herr e he).2
        omega
    | error e =>
      have hbind : (x >>= f) input = (.error e, n) := by
        show (match x input with
          | (.ok (a, rest), n) => ((f a rest).1, n + (f a rest).2)
          | (.error e, n) => (.error e, n)) = _
        rw [hrun]
      have hfirst := hx.2 e (by rw [hrun])
      rw [hrun] at hfirst
      rw [Within, hbind]
      refine ⟨fun b rest' hb => ?_, fun e' he => ?_⟩
      · cases hb
      · obtain rfl := Except.error.inj he
        exact ⟨hfirst.1, Int.le_trans hfirst.2 (Int.add_le_add_left hfail _)⟩

/-- A step that makes one look and goes on with other elements left, where `gain` elements have
been taken. -/
theorem Within.of_look {y : CountedReader τ ε β} {f : CountedReader τ ε β} {rest : List τ}
    {gain : Int} (hrun : y input = ((f rest).1, 1 + (f rest).2))
    (hgain : (rate : Int) * input.length = rate * rest.length + gain)
    (h : Within rate allowed f rest (fun b => cost' b + gain - 1) (failCost' + gain - 1)) :
    Within rate allowed y input cost' failCost' := by
  obtain ⟨hok, herr⟩ := h
  rw [Within, hrun]
  simp only at hok ⊢
  refine ⟨fun b rest' hb => ?_, fun e he => ⟨(herr e he).1, ?_⟩⟩
  · have hbound := hok b rest' hb
    omega
  · have hbound := (herr e he).2
    omega

/-- A look costs one. -/
theorem Within.peekAt_bind {offset : Nat}
    (h : Within rate allowed (f ((input.drop offset).headD last)) input
      (fun b => cost' b + 0 - 1) (failCost' + 0 - 1)) :
    Within rate allowed (CountedReader.peekAt last offset >>= f) input cost' failCost' :=
  Within.of_look rfl (Int.add_zero _).symm h

theorem Within.peek_bind
    (h : Within rate allowed (f (input.headD last)) input (fun b => cost' b + 0 - 1)
      (failCost' + 0 - 1)) :
    Within rate allowed (CountedReader.peek last >>= f) input cost' failCost' :=
  Within.of_look rfl (Int.add_zero _).symm h

/-- Taking an element costs one and earns `rate`. -/
theorem Within.advance_bind {t : τ} {rest : List τ}
    (h : Within rate allowed (f t) rest (fun b => cost' b + rate - 1) (failCost' + rate - 1)) :
    Within rate allowed (CountedReader.advance last >>= f) (t :: rest) cost' failCost' := by
  refine Within.of_look rfl ?_ h
  show (rate : Int) * (t :: rest).length = rate * rest.length + rate
  rw [List.length_cons, Int.natCast_add, Int.mul_add]
  omega

/-- At the end of the input nothing is taken. -/
theorem Within.advance_nil_bind
    (h : Within rate allowed (f last) [] (fun b => cost' b + 0 - 1) (failCost' + 0 - 1)) :
    Within rate allowed (CountedReader.advance last >>= f) [] cost' failCost' :=
  Within.of_look rfl (Int.add_zero _).symm h

/-- With a negative cost an element has been taken. -/
theorem Within.length_lt {a : α} {rest : List τ} (h : Within rate allowed x input cost failCost)
    (hok : (x input).1 = .ok (a, rest)) (hcost : cost a < 0) : rest.length < input.length := by
  have hbound := h.1 a rest hok
  have hcount : (0 : Int) ≤ (x input).2 := Int.natCast_nonneg _
  have hlt : (rate : Int) * rest.length < rate * input.length := by omega
  exact Int.ofNat_lt.1 (Int.lt_of_mul_lt_mul_left hlt (Int.natCast_nonneg _))

end Bounds

end CountedReader

end EasyNetDaemon.Library
