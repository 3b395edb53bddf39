import EasyNetDaemon.Library.Hex
import EasyNetDaemon.Library.JsonValue

/-!
# JSON text

The compact text of a JSON value, without blanks, with the short escapes and `\u00xx` for the other
control characters. What a text stands for can be read off it without looking behind it
(`write_append_inj`): every character of a string is written in a way that can be read back
(`readChar`), and a number ends where no further character of a number follows. Two values with the
same text are the same.

`Reordered` is equality up to the order of the fields of objects.
-/

namespace EasyNetDaemon.Library

namespace Json

/-! ## The writer -/

/-- A character inside a string. -/
def escapeChar (c : Char) : List Char :=
  if c = '"' then ['\\', '"']
  else if c = '\\' then ['\\', '\\']
  else if c = '\x08' then ['\\', 'b']
  else if c = '\x0c' then ['\\', 'f']
  else if c = '\n' then ['\\', 'n']
  else if c = '\r' then ['\\', 'r']
  else if c = '\t' then ['\\', 't']
  else if c.toNat < 32 then
    ['\\', 'u', '0', '0', hexDigit (c.toNat / 16), hexDigit (c.toNat % 16)]
  else [c]

/-- A string without its opening quote. -/
def writeChars (cs : List Char) : List Char := cs.flatMap escapeChar ++ ['"']

mutual

/-- The compact text of a value. -/
def write : Json → List Char
  | .null => ['n', 'u', 'l', 'l']
  | .bool true => ['t', 'r', 'u', 'e']
  | .bool false => ['f', 'a', 'l', 's', 'e']
  | .int n => (toString n).toList
  | .decimal text => text.toList
  | .string s => '"' :: writeChars s.toList
  | .array [] => ['[', ']']
  | .array (v :: items) => '[' :: (write v ++ writeItems items)
  | .object [] => ['{', '}']
  | .object ((key, v) :: fields) =>
    '{' :: '"' :: (writeChars key.toList ++ ':' :: (write v ++ writeFields fields))

/-- The items after the first, and the end of the array. -/
def writeItems : List Json → List Char
  | [] => [']']
  | v :: items => ',' :: (write v ++ writeItems items)

/-- The fields after the first, and the end of the object. -/
def writeFields : List (String × Json) → List Char
  | [] => ['}']
  | (key, v) :: fields =>
    ',' :: '"' :: (writeChars key.toList ++ ':' :: (write v ++ writeFields fields))

end

/-- A character that numbers are written with. -/
def isNumberChar (c : Char) : Bool :=
  c.isDigit || c == '-' || c == '+' || c == '.' || c == 'e' || c == 'E'

/-- The text of a decimal: it is made of the characters of a number, and is not the text of an
integer. -/
def isDecimalText (text : List Char) : Bool :=
  text.all isNumberChar && text.any fun c => !c.isDigit && c != '-'

mutual

/-- Every decimal in the value is the text of one. -/
def wellFormed : Json → Bool
  | .null | .bool _ | .int _ | .string _ => true
  | .decimal text => isDecimalText text.toList
  | .array items => wellFormedItems items
  | .object fields => wellFormedFields fields

def wellFormedItems : List Json → Bool
  | [] => true
  | v :: items => wellFormed v && wellFormedItems items

def wellFormedFields : List (String × Json) → Bool
  | [] => true
  | (_, v) :: fields => wellFormed v && wellFormedFields fields

end

mutual

/-- No object in the value has two fields with one key. -/
def distinctKeys : Json → Bool
  | .null | .bool _ | .int _ | .decimal _ | .string _ => true
  | .array items => distinctKeysItems items
  | .object fields => decide (fields.map Prod.fst).Nodup && distinctKeysFields fields

def distinctKeysItems : List Json → Bool
  | [] => true
  | v :: items => distinctKeys v && distinctKeysItems items

def distinctKeysFields : List (String × Json) → Bool
  | [] => true
  | (_, v) :: fields => distinctKeys v && distinctKeysFields fields

end

mutual

/-- Two values are equal up to the order of the fields of objects, at every depth. -/
inductive Reordered : Json → Json → Prop
  | null : Reordered .null .null
  | bool (b : Bool) : Reordered (.bool b) (.bool b)
  | int (n : Int) : Reordered (.int n) (.int n)
  | decimal (text : String) : Reordered (.decimal text) (.decimal text)
  | string (s : String) : Reordered (.string s) (.string s)
  | array {items items' : List Json} (h : ReorderedItems items items') :
      Reordered (.array items) (.array items')
  | object {fields between fields' : List (String × Json)} (h : ReorderedFields fields between)
      (hperm : between.Perm fields') : Reordered (.object fields) (.object fields')

inductive ReorderedItems : List Json → List Json → Prop
  | nil : ReorderedItems [] []
  | cons {v w : Json} {items items' : List Json} (h : Reordered v w)
      (hrest : ReorderedItems items items') : ReorderedItems (v :: items) (w :: items')

/-- The same keys in the same order, with values that are equal up to order. -/
inductive ReorderedFields : List (String × Json) → List (String × Json) → Prop
  | nil : ReorderedFields [] []
  | cons {key : String} {v w : Json} {fields fields' : List (String × Json)} (h : Reordered v w)
      (hrest : ReorderedFields fields fields') :
      ReorderedFields ((key, v) :: fields) ((key, w) :: fields')

end

theorem wellFormedFields_iff {fields : List (String × Json)} :
    wellFormedFields fields = true ↔ ∀ p ∈ fields, wellFormed p.2 = true := by
  induction fields with
  | nil => simp [wellFormedFields]
  | cons p fields ih => simp [wellFormedFields, ih]

theorem distinctKeysFields_iff {fields : List (String × Json)} :
    distinctKeysFields fields = true ↔ ∀ p ∈ fields, distinctKeys p.2 = true := by
  induction fields with
  | nil => simp [distinctKeysFields]
  | cons p fields ih => simp [distinctKeysFields, ih]

theorem ReorderedFields.keys_eq {fields fields' : List (String × Json)}
    (h : ReorderedFields fields fields') : fields.map Prod.fst = fields'.map Prod.fst := by
  induction fields generalizing fields' with
  | nil => cases h; rfl
  | cons p fields ih =>
    cases h with
    | cons _ hrest => rw [List.map_cons, List.map_cons, ih hrest]

/-! ## Characters and strings -/

/-- Reads one character of a string; the closing quote is none. -/
def readChar : List Char → Option (Char × List Char)
  | '\\' :: 'b' :: rest => some ('\x08', rest)
  | '\\' :: 'f' :: rest => some ('\x0c', rest)
  | '\\' :: 'n' :: rest => some ('\n', rest)
  | '\\' :: 'r' :: rest => some ('\r', rest)
  | '\\' :: 't' :: rest => some ('\t', rest)
  | '\\' :: 'u' :: '0' :: '0' :: high :: low :: rest => do
    let high ← hexValue high
    let low ← hexValue low
    some (Char.ofNat (16 * high + low), rest)
  | '\\' :: c :: rest => some (c, rest)
  | '"' :: _ => none
  | c :: rest => some (c, rest)
  | [] => none

theorem readChar_escapeChar (c : Char) (rest : List Char) :
    readChar (escapeChar c ++ rest) = some (c, rest) := by
  unfold escapeChar
  split
  · next h => rw [h]; rfl
  split
  · next h => rw [h]; rfl
  split
  · next h => rw [h]; rfl
  split
  · next h => rw [h]; rfl
  split
  · next h => rw [h]; rfl
  split
  · next h => rw [h]; rfl
  split
  · next h => rw [h]; rfl
  split
  · have hhigh := @hexValue_hexDigit (c.toNat / 16) (by omega)
    have hlow := @hexValue_hexDigit (c.toNat % 16) (by omega)
    have hsum : 16 * (c.toNat / 16) + c.toNat % 16 = c.toNat := by omega
    simp [readChar, hhigh, hlow, hsum, Char.ofNat_toNat]
  · next hquote hslash _ _ _ _ _ _ =>
    simp only [List.singleton_append]
    unfold readChar
    split <;> simp_all

theorem writeChars_append_inj {cs ds rest rest' : List Char}
    (h : writeChars cs ++ rest = writeChars ds ++ rest') : cs = ds ∧ rest = rest' := by
  have hcons : ∀ (c : Char) (cs rest : List Char),
      readChar (writeChars (c :: cs) ++ rest) = some (c, writeChars cs ++ rest) := by
    intro c cs rest
    simp only [writeChars, List.flatMap_cons, List.append_assoc]
    exact readChar_escapeChar c _
  have hnil : ∀ rest : List Char, readChar (writeChars [] ++ rest) = none := fun _ => rfl
  induction cs generalizing ds with
  | nil =>
    cases ds with
    | nil => exact ⟨rfl, List.append_cancel_left h⟩
    | cons d ds => cases (hnil rest).symm.trans ((congrArg readChar h).trans (hcons d ds rest'))
  | cons c cs ih =>
    cases ds with
    | nil => cases (hcons c cs rest).symm.trans ((congrArg readChar h).trans (hnil rest'))
    | cons d ds =>
      have hread := (hcons c cs rest).symm.trans ((congrArg readChar h).trans (hcons d ds rest'))
      simp only [Option.some.injEq, Prod.mk.injEq] at hread
      obtain ⟨hc, hrest⟩ := hread
      obtain ⟨hcs, hrest⟩ := ih hrest
      exact ⟨by rw [hc, hcs], hrest⟩

/-! ## Numbers -/

/-- A number ends here. -/
def Stops (rest : List Char) : Prop := ∀ c ∈ rest.head?, isNumberChar c = false

theorem number_append_inj {text text' rest rest' : List Char}
    (htext : ∀ c ∈ text, isNumberChar c = true) (htext' : ∀ c ∈ text', isNumberChar c = true)
    (hrest : Stops rest) (hrest' : Stops rest') (h : text ++ rest = text' ++ rest') :
    text = text' ∧ rest = rest' := by
  have htake : ∀ {text rest : List Char}, (∀ c ∈ text, isNumberChar c = true) → Stops rest →
      (text ++ rest).takeWhile isNumberChar = text := by
    intro text rest htext hrest
    rw [List.takeWhile_append_of_pos htext]
    cases rest with
    | nil => simp
    | cons c rest => simp [hrest c rfl]
  have heq : text = text' := by rw [← htake htext hrest, h, htake htext' hrest']
  subst heq
  exact ⟨rfl, List.append_cancel_left h⟩

theorem isDigit_or_minus_of_int (n : Int) :
    ∀ c ∈ (toString n).toList, c.isDigit = true ∨ c = '-' := by
  intro c hc
  have hnat : ∀ m : Nat, c ∈ (toString m).toList → c.isDigit = true := fun m hm =>
    Nat.isDigit_of_mem_toDigits (b := 10) (n := m) (by decide) (by decide) (by
      simpa [toString, Nat.repr] using hm)
  cases n with
  | ofNat m => exact .inl (hnat m hc)
  | negSucc m =>
    have hc' : c ∈ '-' :: (toString (m + 1)).toList := by
      simpa [toString, Int.repr] using hc
    obtain rfl | hc' := List.mem_cons.1 hc'
    · exact .inr rfl
    · exact .inl (hnat _ hc')

/-- An integer is read back from its text. -/
theorem int_text_inj {n m : Int} (h : (toString n).toList = (toString m).toList) : n = m := by
  have hrepr : n.repr = m.repr := String.toList_injective h
  have hnat : ∀ {i j : Nat}, i.repr = j.repr → i = j := by
    intro i j hij
    rw [← Nat.ofDigitChars_ten_toDigits (n := i), ← Nat.toList_repr, hij, Nat.toList_repr,
      Nat.ofDigitChars_ten_toDigits]
  -- only a negative number begins with a minus
  have hminus : ∀ i j : Nat, i.repr ≠ "-" ++ j.repr := by
    intro i j hij
    have hmem : '-' ∈ i.repr.toList := by simp [hij]
    rw [Nat.toList_repr] at hmem
    exact absurd (Nat.isDigit_of_mem_toDigits (b := 10) (by decide) (by decide) hmem) (by decide)
  cases n with
  | ofNat i =>
    cases m with
    | ofNat j => rw [hnat hrepr]
    | negSucc j => exact absurd hrepr (hminus i (j + 1))
  | negSucc i =>
    cases m with
    | ofNat j => exact absurd hrepr.symm (hminus j (i + 1))
    | negSucc j => rw [Nat.succ_injective (hnat ((String.append_right_inj _).1 hrepr))]

theorem isNumberChar_of_digit_or_minus {c : Char} (h : c.isDigit = true ∨ c = '-') :
    isNumberChar c = true := by
  rcases h with h | rfl
  · simp [isNumberChar, h]
  · rfl

/-! ## Values -/

/-- What a text begins with. -/
inductive Opening
  | null
  | yes
  | no
  | string
  | array
  | object
  | number
  deriving DecidableEq

/-- What a first character opens. -/
def openingOf (c : Char) : Option Opening :=
  if c = 'n' then some .null
  else if c = 't' then some .yes
  else if c = 'f' then some .no
  else if c = '"' then some .string
  else if c = '[' then some .array
  else if c = '{' then some .object
  else if isNumberChar c then some .number
  else none

/-- How the text of a value starts. -/
def opening : Json → Opening
  | .null => .null
  | .bool true => .yes
  | .bool false => .no
  | .int _ | .decimal _ => .number
  | .string _ => .string
  | .array _ => .array
  | .object _ => .object

theorem openingOf_number {c : Char} (h : isNumberChar c = true) : openingOf c = some .number := by
  have hne : ∀ d : Char, isNumberChar d = false → c ≠ d := by
    rintro d hd rfl
    rw [h] at hd
    cases hd
  simp [openingOf, h, hne 'n' (by decide), hne 't' (by decide), hne 'f' (by decide),
    hne '"' (by decide), hne '[' (by decide), hne '{' (by decide)]

theorem int_text (n : Int) :
    (toString n).toList ≠ [] ∧ ∀ c ∈ (toString n).toList, isNumberChar c = true := by
  refine ⟨?_, fun c hc => isNumberChar_of_digit_or_minus (isDigit_or_minus_of_int n c hc)⟩
  intro hnil
  cases n with
  | ofNat m => simp [toString, Int.repr, Nat.repr] at hnil
  | negSucc m => simp [toString, Int.repr] at hnil

theorem decimal_text {text : List Char} (h : isDecimalText text = true) :
    text ≠ [] ∧ ∀ c ∈ text, isNumberChar c = true := by
  simp only [isDecimalText, Bool.and_eq_true, List.all_eq_true] at h
  refine ⟨?_, h.1⟩
  rintro rfl
  exact absurd h.2 (by decide)

theorem int_ne_decimal {n : Int} {text : List Char} (h : isDecimalText text = true) :
    (toString n).toList ≠ text := by
  rintro rfl
  simp only [isDecimalText, Bool.and_eq_true, List.any_eq_true, Bool.not_eq_true', bne_iff_ne] at h
  obtain ⟨-, c, hc, hdigit, hminus⟩ := h
  obtain h | h := isDigit_or_minus_of_int n c hc
  · rw [h] at hdigit
    cases hdigit
  · exact hminus h

theorem number_head {text : List Char} (h : text ≠ [] ∧ ∀ c ∈ text, isNumberChar c = true) :
    ∃ c rest, text = c :: rest ∧ openingOf c = some .number := by
  obtain ⟨c, rest, rfl⟩ := List.exists_cons_of_ne_nil h.1
  exact ⟨c, rest, rfl, openingOf_number (h.2 c List.mem_cons_self)⟩

/-- The first character of a value's text tells what kind of value it is. -/
theorem write_head {v : Json} (h : wellFormed v = true) :
    ∃ c rest, write v = c :: rest ∧ openingOf c = some (opening v) := by
  cases v with
  | null => exact ⟨_, _, rfl, rfl⟩
  | bool b => cases b <;> exact ⟨_, _, rfl, rfl⟩
  | int n => exact number_head (int_text n)
  | decimal text => exact number_head (decimal_text h)
  | string s => exact ⟨_, _, rfl, rfl⟩
  | array items => cases items <;> exact ⟨_, _, rfl, rfl⟩
  | object fields => cases fields <;> exact ⟨_, _, rfl, rfl⟩

theorem opening_eq {a b : Json} {rest rest' : List Char} (ha : wellFormed a = true)
    (hb : wellFormed b = true) (h : write a ++ rest = write b ++ rest') :
    opening a = opening b := by
  obtain ⟨c, cs, hc, hopenA⟩ := write_head ha
  obtain ⟨d, ds, hd, hopenB⟩ := write_head hb
  rw [hc, hd] at h
  obtain rfl := (List.cons.inj h).1
  exact Option.some.inj (hopenA.symm.trans hopenB)

/-- No value's text begins where an array ends. -/
theorem write_ne_close {v : Json} {rest rest' : List Char} (h : wellFormed v = true) :
    write v ++ rest ≠ ']' :: rest' := by
  intro heq
  obtain ⟨c, cs, hc, hopen⟩ := write_head h
  rw [hc] at heq
  obtain rfl := (List.cons.inj heq).1
  cases hopen

theorem stops_writeItems (items : List Json) (rest : List Char) :
    Stops (writeItems items ++ rest) := by
  cases items <;> · intro c hc; obtain rfl := Option.some.inj hc; rfl

theorem stops_writeFields (fields : List (String × Json)) (rest : List Char) :
    Stops (writeFields fields ++ rest) := by
  cases fields with
  | nil => intro c hc; obtain rfl := Option.some.inj hc; rfl
  | cons field fields => intro c hc; obtain rfl := Option.some.inj hc; rfl

mutual

/-- A value can be read off the beginning of a text, whatever follows it that is no part of a
number. -/
theorem write_append_inj : ∀ (a b : Json) (rest rest' : List Char), wellFormed a = true →
    wellFormed b = true → Stops rest → Stops rest' → write a ++ rest = write b ++ rest' →
    a = b ∧ rest = rest' := by
  intro a b rest rest' ha hb hrest hrest' h
  have hopen := opening_eq ha hb h
  match a, b with
  | .null, .null => exact ⟨rfl, List.append_cancel_left h⟩
  | .bool true, .bool true => exact ⟨rfl, List.append_cancel_left h⟩
  | .bool false, .bool false => exact ⟨rfl, List.append_cancel_left h⟩
  | .int n, .int m =>
    obtain ⟨htext, hrests⟩ := number_append_inj (int_text n).2 (int_text m).2 hrest hrest' h
    exact ⟨congrArg _ (int_text_inj htext), hrests⟩
  | .int n, .decimal text =>
    obtain ⟨htext, -⟩ := number_append_inj (int_text n).2 (decimal_text hb).2 hrest hrest' h
    exact absurd htext (int_ne_decimal hb)
  | .decimal text, .int m =>
    obtain ⟨htext, -⟩ := number_append_inj (decimal_text ha).2 (int_text m).2 hrest hrest' h
    exact absurd htext.symm (int_ne_decimal ha)
  | .decimal text, .decimal text' =>
    obtain ⟨htext, hrests⟩ :=
      number_append_inj (decimal_text ha).2 (decimal_text hb).2 hrest hrest' h
    exact ⟨congrArg _ (String.toList_injective htext), hrests⟩
  | .string s, .string s' =>
    obtain ⟨htext, hrests⟩ := writeChars_append_inj (List.cons.inj h).2
    exact ⟨congrArg _ (String.toList_injective htext), hrests⟩
  | .array [], .array [] => exact ⟨rfl, List.append_cancel_left h⟩
  | .array [], .array (w :: items') =>
    simp only [wellFormed, wellFormedItems, Bool.and_eq_true] at hb
    simp only [write, List.cons_append, List.nil_append, List.append_assoc] at h
    exact absurd (List.cons.inj h).2.symm (write_ne_close hb.1)
  | .array (v :: items), .array [] =>
    simp only [wellFormed, wellFormedItems, Bool.and_eq_true] at ha
    simp only [write, List.cons_append, List.nil_append, List.append_assoc] at h
    exact absurd (List.cons.inj h).2 (write_ne_close ha.1)
  | .array (v :: items), .array (w :: items') =>
    simp only [wellFormed, wellFormedItems, Bool.and_eq_true] at ha hb
    simp only [write, List.cons_append, List.append_assoc] at h
    obtain ⟨rfl, hitems⟩ := write_append_inj v w _ _ ha.1 hb.1 (stops_writeItems items rest)
      (stops_writeItems items' rest') (List.cons.inj h).2
    obtain ⟨rfl, hrests⟩ := writeItems_append_inj items items' _ _ ha.2 hb.2 hitems
    exact ⟨rfl, hrests⟩
  | .object [], .object [] => exact ⟨rfl, List.append_cancel_left h⟩
  | .object [], .object ((key, w) :: fields') => simp [write] at h
  | .object ((key, v) :: fields), .object [] => simp [write] at h
  | .object ((key, v) :: fields), .object ((key', w) :: fields') =>
    simp only [wellFormed, wellFormedFields, Bool.and_eq_true] at ha hb
    simp only [write, List.cons_append, List.append_assoc] at h
    obtain ⟨hkey, hvalue⟩ := writeChars_append_inj (List.cons.inj (List.cons.inj h).2).2
    obtain ⟨rfl, hfields⟩ := write_append_inj v w _ _ ha.1 hb.1 (stops_writeFields fields rest)
      (stops_writeFields fields' rest') (List.cons.inj hvalue).2
    obtain ⟨rfl, hrests⟩ := writeFields_append_inj fields fields' _ _ ha.2 hb.2 hfields
    obtain rfl := String.toList_injective hkey
    exact ⟨rfl, hrests⟩

theorem writeItems_append_inj : ∀ (items items' : List Json) (rest rest' : List Char),
    wellFormedItems items = true → wellFormedItems items' = true →
    writeItems items ++ rest = writeItems items' ++ rest' → items = items' ∧ rest = rest'
  | [], [], _, _, _, _, h => ⟨rfl, List.append_cancel_left h⟩
  | [], _ :: _, _, _, _, _, h => by simp [writeItems] at h
  | _ :: _, [], _, _, _, _, h => by simp [writeItems] at h
  | v :: items, w :: items', rest, rest', ha, hb, h => by
    simp only [wellFormedItems, Bool.and_eq_true] at ha hb
    simp only [writeItems, List.cons_append, List.append_assoc] at h
    obtain ⟨rfl, hitems⟩ := write_append_inj v w _ _ ha.1 hb.1 (stops_writeItems items rest)
      (stops_writeItems items' rest') (List.cons.inj h).2
    obtain ⟨rfl, hrests⟩ := writeItems_append_inj items items' _ _ ha.2 hb.2 hitems
    exact ⟨rfl, hrests⟩

theorem writeFields_append_inj : ∀ (fields fields' : List (String × Json))
    (rest rest' : List Char), wellFormedFields fields = true → wellFormedFields fields' = true →
    writeFields fields ++ rest = writeFields fields' ++ rest' → fields = fields' ∧ rest = rest'
  | [], [], _, _, _, _, h => ⟨rfl, List.append_cancel_left h⟩
  | [], _ :: _, _, _, _, _, h => by simp [writeFields] at h
  | _ :: _, [], _, _, _, _, h => by simp [writeFields] at h
  | (key, v) :: fields, (key', w) :: fields', rest, rest', ha, hb, h => by
    simp only [wellFormedFields, Bool.and_eq_true] at ha hb
    simp only [writeFields, List.cons_append, List.append_assoc] at h
    obtain ⟨hkey, hvalue⟩ := writeChars_append_inj (List.cons.inj (List.cons.inj h).2).2
    obtain ⟨rfl, hfields⟩ := write_append_inj v w _ _ ha.1 hb.1 (stops_writeFields fields rest)
      (stops_writeFields fields' rest') (List.cons.inj hvalue).2
    obtain ⟨rfl, hrests⟩ := writeFields_append_inj fields fields' _ _ ha.2 hb.2 hfields
    obtain rfl := String.toList_injective hkey
    exact ⟨rfl, hrests⟩

end

/-- Two values with the same text are the same. -/
theorem write_inj {a b : Json} (ha : wellFormed a = true) (hb : wellFormed b = true)
    (h : write a = write b) : a = b := by
  have hnil : Stops [] := fun _ hc => by cases hc
  exact (write_append_inj a b [] [] ha hb hnil hnil (by rw [h])).1

end Json

end EasyNetDaemon.Library
