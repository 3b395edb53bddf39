import EasyNetDaemon.ShellGuard.Walker

/-!
# Quote removal

Bash removes the quotes of a word from left to right (`quoteRemoval`): outside quotes a backslash
keeps the next character, single quotes keep everything, and inside double quotes a backslash is
removed only before the four characters it can escape. The walker works on the nodes of the syntax
tree, by the kind of each part of the argument.

A reading compares the two texts of a part (`Reading`). The walker keeps the backslashes of words,
it turns each byte of a character that is not ASCII into a character of its own, and it leaves out a
dollar sign that is a token of a concatenation and the white space of a string that stands in none
of its nodes. The first two make the text longer and the others lose characters of these two kinds,
so they cannot make up for each other, and the texts agree exactly on the arguments where none of
them occurs.
-/

namespace EasyNetDaemon.ShellGuard

open Library

/-! ## The shell's rule -/

/-- Where the next character stands. -/
inductive Quoting
  | plain
  | escaped
  | single
  | double
  | doubleEscaped
  deriving DecidableEq, Repr

/-- One character: the state behind it and the text it leaves. -/
def quoteStep : Quoting → Char → Quoting × Text
  | .plain, c =>
    if c = '\\' then (.escaped, [])
    else if c = '\'' then (.single, [])
    else if c = '"' then (.double, [])
    else (.plain, [c])
  | .escaped, c => (.plain, [c])
  | .single, c => if c = '\'' then (.plain, []) else (.single, [c])
  | .double, c =>
    if c = '\\' then (.doubleEscaped, [])
    else if c = '"' then (.plain, [])
    else (.double, [c])
  | .doubleEscaped, c => if isDoubleQuoteEscape c then (.double, [c]) else (.double, ['\\', c])

/-- Quote removal of a text. -/
def quoteRun : Quoting → Text → Quoting × Text
  | q, [] => (q, [])
  | q, c :: cs =>
    ((quoteRun (quoteStep q c).1 cs).1, (quoteStep q c).2 ++ (quoteRun (quoteStep q c).1 cs).2)

/-- The text that the shell makes of a word without expansions; a backslash at the end stays. -/
def quoteRemoval (word : Text) : Text :=
  match quoteRun .plain word with
  | (.escaped, out) => out ++ ['\\']
  | (.doubleEscaped, out) => out ++ ['\\']
  | (_, out) => out

theorem quoteRun_append {q q' q'' : Quoting} {xs ys out out' : Text}
    (h : quoteRun q xs = (q', out)) (h' : quoteRun q' ys = (q'', out')) :
    quoteRun q (xs ++ ys) = (q'', out ++ out') := by
  induction xs generalizing q out with
  | nil =>
    cases h
    exact h'
  | cons c cs ih =>
    simp only [quoteRun, Prod.mk.injEq] at h
    obtain ⟨hstate, rfl⟩ := h
    have hrest := ih (Prod.ext hstate rfl)
    simp only [List.cons_append, quoteRun, hrest, List.append_assoc]

theorem quoteRemoval_of_plain {word out : Text} (h : quoteRun .plain word = (.plain, out)) :
    quoteRemoval word = out := by
  rw [quoteRemoval, h]

/-! ## Arguments without expansions -/

/-- A text in which a backslash comes with the character behind it, and no other character is one of
the stops. -/
inductive Escaped (stops : Char → Bool) : Text → Prop
  | nil : Escaped stops []
  | char {c : Char} {cs : Text} : c ≠ '\\' → stops c = false → Escaped stops cs →
      Escaped stops (c :: cs)
  | escape {cs : Text} (c : Char) : Escaped stops cs → Escaped stops ('\\' :: c :: cs)

def isQuote (c : Char) : Bool := c = '\'' || c = '"'

def isDoubleQuote (c : Char) : Bool := c = '"'

/-- The token of a double quote. -/
def quoteToken : Node := .mk (.other "\"") false ['"'] []

/-- The token of a dollar sign that begins no expansion. -/
def dollarToken : Node := .mk (.other "$") false ['$'] []

/-- What stands between the quotes of a string without expansions. -/
def StringPiece (piece : Node) : Prop :=
  (piece.kind = .stringContent ∧ Escaped isDoubleQuote piece.text) ∨ piece = dollarToken

/-- White space of ASCII, which the grammar leaves out between the nodes of a string. -/
def isGapChar (c : Char) : Bool :=
  c = ' ' || c = '\t' || c = '\n' || c = '\r' || c = '\x0b' || c = '\x0c'

/-- An argument of words, numbers, strings and concatenations of these, with the texts that the
grammar gives to such nodes. -/
inductive Plain : Node → Prop
  | word {named : Bool} {text : Text} {children : List Node} (h : Escaped isQuote text) :
      Plain (.mk .word named text children)
  | number {named : Bool} {text : Text} {children : List Node} (h : Escaped isQuote text) :
      Plain (.mk .number named text children)
  | rawString {named : Bool} {body : Text} {children : List Node} (h : '\'' ∉ body) :
      Plain (.mk .rawString named ('\'' :: body ++ ['\'']) children)
  /-- The pieces of a string with the gap before each, and the gap before the closing quote. -/
  | string {named : Bool} {pieces : List (Text × Node)} {last : Text}
      (h : ∀ piece ∈ pieces, StringPiece piece.2)
      (hgaps : ∀ c ∈ pieces.flatMap Prod.fst ++ last, isGapChar c = true) :
      Plain (.mk .string named
        ('"' :: (pieces.flatMap fun piece => piece.1 ++ piece.2.text) ++ last ++ ['"'])
        (quoteToken :: pieces.map Prod.snd ++ [quoteToken]))
  | concatenation {named : Bool} {parts : List Node}
      (h : ∀ part ∈ parts, part.named = true → Plain part)
      (hdollar : ∀ part ∈ parts, part.named = false → part = dollarToken) :
      Plain (.mk .concatenation named (parts.flatMap Node.text) parts)

def isAscii (c : Char) : Bool := c.toNat < 128

/-- The piece of a string has no character that the walker reads in parts. -/
def pieceExact (piece : Node) : Bool := piece.kind ≠ .stringContent || piece.text.all isAscii

mutual

/-- No backslash in a word, only ASCII between double quotes and nothing outside the nodes there,
and no dollar token. -/
def isExact : Node → Bool
  | .mk kind _ text children =>
    match kind with
    | .word | .number => !text.contains '\\'
    | .string => children.all pieceExact && decide (text = children.flatMap Node.text)
    | .concatenation => areExact children
    | _ => true

/-- The parts of a concatenation. -/
def areExact : List Node → Bool
  | [] => true
  | part :: rest => part.named && isExact part && areExact rest

end

/-! ## Readings -/

/-- The characters that the walker leaves out in places. -/
def isDroppable (c : Char) : Bool := c = '$' || isGapChar c

/-- The walker's text and the shell's text of the same source. Droppable characters are only lost by
the walker and the length is else only increased, so that the texts agree exactly when neither
happens. -/
def Reading (walked shell : Text) (exact : Prop) : Prop :=
  ∃ drops surplus, walked.countP isDroppable + drops = shell.countP isDroppable ∧
    walked.length + drops = shell.length + surplus ∧
    (drops = 0 ∧ surplus = 0 ↔ exact) ∧ (exact → walked = shell)

namespace Reading

variable {walked shell walked' shell' : Text} {exact exact' : Prop}

theorem refl (t : Text) : Reading t t True :=
  ⟨0, 0, rfl, rfl, by simp, fun _ => rfl⟩

theorem append (h : Reading walked shell exact) (h' : Reading walked' shell' exact') :
    Reading (walked ++ walked') (shell ++ shell') (exact ∧ exact') := by
  obtain ⟨d, s, hcount, hlen, hexact, heq⟩ := h
  obtain ⟨d', s', hcount', hlen', hexact', heq'⟩ := h'
  refine ⟨d + d', s + s', ?_, ?_, ?_, ?_⟩
  · rw [List.countP_append, List.countP_append]
    omega
  · rw [List.length_append, List.length_append]
    omega
  · rw [← hexact, ← hexact']
    omega
  · rintro ⟨he, he'⟩
    rw [heq he, heq' he']

theorem congr (h : Reading walked shell exact) (hiff : exact ↔ exact') :
    Reading walked shell exact' := propext hiff ▸ h

/-- Equal texts have equally many droppable characters, so none is lost, and then the lengths
agree. -/
theorem eq_iff (h : Reading walked shell exact) : walked = shell ↔ exact := by
  obtain ⟨d, s, hcount, hlen, hexact, heq⟩ := h
  refine ⟨?_, heq⟩
  rintro rfl
  exact hexact.1 ⟨by omega, by omega⟩

/-- The backslash of a word, which the walker keeps. -/
theorem keptBackslash (c : Char) : Reading ['\\', c] [c] False :=
  ⟨0, 1, by simp [List.countP_cons, show isDroppable '\\' = false from rfl], rfl, by simp,
    False.elim⟩

/-- Characters that the walker leaves out. -/
theorem dropped {t : Text} (h : ∀ c ∈ t, isDroppable c = true) : Reading [] t (t = []) :=
  ⟨t.length, 0, by simp [List.countP_eq_length.2 h], by simp, by simp, Eq.symm⟩

end Reading

/-! ## Words -/

variable {c : Char} {pieces : List (Text × Node)}

theorem quoteRun_plain_char (hc : c ≠ '\\') (hq : isQuote c = false) :
    quoteRun .plain [c] = (.plain, [c]) := by
  have h : c ≠ '\'' ∧ c ≠ '"' := by simpa [isQuote] using hq
  simp [quoteRun, quoteStep, hc, h.1, h.2]

theorem word_reading {text : Text} (h : Escaped isQuote text) :
    ∃ shell, quoteRun .plain text = (.plain, shell) ∧
      Reading text shell ((!text.contains '\\') = true) := by
  induction h with
  | nil => exact ⟨[], rfl, (Reading.refl []).congr (by simp)⟩
  | @char c cs hc hq _ ih =>
    obtain ⟨shell, hrun, hread⟩ := ih
    refine ⟨[c] ++ shell, quoteRun_append (quoteRun_plain_char hc hq) hrun, ?_⟩
    exact ((Reading.refl [c]).append hread).congr (by simp [Ne.symm hc])
  | @escape cs c _ ih =>
    obtain ⟨shell, hrun, hread⟩ := ih
    have hpair : quoteRun .plain ['\\', c] = (.plain, [c]) := rfl
    refine ⟨[c] ++ shell, quoteRun_append hpair hrun, ?_⟩
    exact ((Reading.keptBackslash c).append hread).congr (by simp)

/-! ## Single quotes -/

theorem quoteRun_single {body : Text} (h : '\'' ∉ body) :
    quoteRun .single body = (.single, body) := by
  induction body with
  | nil => rfl
  | cons c cs ih =>
    rw [List.mem_cons, not_or] at h
    have hstep : quoteStep .single c = (.single, [c]) := if_neg (Ne.symm h.1)
    simp only [quoteRun, hstep, ih h.2, List.singleton_append]

theorem rawString_run {body : Text} (h : '\'' ∉ body) :
    quoteRun .plain ('\'' :: body ++ ['\'']) = (.plain, body) := by
  have hopen : quoteRun .plain ['\''] = (.single, []) := rfl
  have hclose : quoteRun .single ['\''] = (.plain, []) := rfl
  have hall := quoteRun_append hopen (quoteRun_append (quoteRun_single h) hclose)
  rwa [List.append_nil, List.nil_append] at hall

theorem unquoteRawString_quoted (body : Text) :
    unquoteRawString ('\'' :: body ++ ['\'']) = body := by
  have hlen : 2 ≤ RustText.byteLen ('\'' :: body ++ ['\'']) := by
    have hquote : '\''.utf8Size = 1 := rfl
    rw [RustText.byteLen_append, RustText.byteLen, RustText.byteLen, RustText.byteLen, hquote]
    omega
  have hlast : ('\'' :: body ++ ['\'']).getLast? = some '\'' := by
    rw [List.getLast?_append, List.getLast?_singleton, Option.some_or]
  rw [unquoteRawString, if_pos (by simpa using ⟨hlen, hlast⟩)]
  simp

/-! ## Double quotes -/

theorem unescapeBytes_cons {byte : UInt8} (h : byteChar byte ≠ '\\') (rest : List UInt8) :
    unescapeBytes (byte :: rest) = byteChar byte :: unescapeBytes rest := by
  cases rest with
  | nil => rfl
  | cons next rest => simp [unescapeBytes, h]

theorem unescapeBytes_append {bytes : List UInt8} (h : ∀ byte ∈ bytes, byteChar byte ≠ '\\')
    (rest : List UInt8) :
    unescapeBytes (bytes ++ rest) = bytes.map byteChar ++ unescapeBytes rest := by
  induction bytes with
  | nil => rfl
  | cons byte bytes ih =>
    rw [List.forall_mem_cons] at h
    rw [List.cons_append, unescapeBytes_cons h.1, ih h.2, List.map_cons, List.cons_append]

theorem byteChar_ne_of_mem_encode {d : Char} (hc : 128 ≤ c.toNat) (hd : d.toNat < 128)
    {byte : UInt8} (h : byte ∈ String.utf8EncodeChar c) : byteChar byte ≠ d := by
  rintro rfl
  rw [toNat_byteChar] at hd
  have := le_of_mem_encode hc h
  omega

theorem two_le_length_encode (hc : 128 ≤ c.toNat) : 2 ≤ (String.utf8EncodeChar c).length := by
  rw [String.length_utf8EncodeChar, Char.utf8Size]
  split
  · rename_i hle
    have : c.toNat ≤ 127 := hle
    omega
  · split
    · exact Nat.le_refl 2
    · split <;> decide

/-- A character that begins no escape, as the walker reads its bytes. -/
theorem unescape_char (hc : c ≠ '\\') (rest : Text) :
    unescapeDoubleQuoted (c :: rest) =
      (String.utf8EncodeChar c).map byteChar ++ unescapeDoubleQuoted rest := by
  rw [unescapeDoubleQuoted, utf8_cons]
  refine unescapeBytes_append ?_ _
  intro byte hbyte
  by_cases hascii : c.toNat < 128
  · rw [encode_ascii hascii, List.mem_singleton] at hbyte
    rw [hbyte, byteChar_ofNat hascii]
    exact hc
  · exact byteChar_ne_of_mem_encode (Nat.le_of_not_lt hascii) (by decide) hbyte

theorem toNat_lt_of_isDroppable (h : isDroppable c = true) : c.toNat < 128 := by
  simp only [isDroppable, isGapChar, Bool.or_eq_true, decide_eq_true_eq] at h
  rcases h with rfl | ((((rfl | rfl) | rfl) | rfl) | rfl) | rfl <;> decide

/-- Each byte of the character is read on its own, which is right for ASCII only. -/
theorem char_reading (c : Char) :
    Reading ((String.utf8EncodeChar c).map byteChar) [c] (isAscii c = true) := by
  by_cases hascii : c.toNat < 128
  · rw [encode_ascii hascii, List.map_singleton, byteChar_ofNat hascii]
    exact (Reading.refl [c]).congr (by simp [isAscii, hascii])
  · have hle := Nat.le_of_not_lt hascii
    have hcount : ((String.utf8EncodeChar c).map byteChar).countP isDroppable = 0 := by
      rw [List.countP_eq_zero]
      intro d hmem hd
      obtain ⟨byte, hbyte, rfl⟩ := List.mem_map.1 hmem
      exact byteChar_ne_of_mem_encode hle (toNat_lt_of_isDroppable hd) hbyte rfl
    have hne : isDroppable c = false := by
      by_contra hdrop
      exact hascii (toNat_lt_of_isDroppable (eq_true_of_ne_false hdrop))
    have hsize : 2 ≤ (String.utf8EncodeChar c).length := two_le_length_encode hle
    refine ⟨0, (String.utf8EncodeChar c).length - 1, ?_, ?_, ?_, ?_⟩
    · simp [hcount, hne]
    · simp only [List.length_map, List.length_singleton]
      omega
    · simp only [isAscii, hascii, decide_false, Bool.false_eq_true, iff_false, not_and]
      omega
    · simp [isAscii, hascii]

theorem isDoubleQuoteEscape_high (c : Char) (hc : 128 ≤ c.toNat) :
    isDoubleQuoteEscape c = false := by
  have hne : ∀ d : Char, d.toNat < 128 → c ≠ d := by
    rintro d hd rfl
    omega
  simp [isDoubleQuoteEscape, hne '$' (by decide), hne '\x60' (by decide), hne '"' (by decide),
    hne '\\' (by decide)]

theorem utf8_backslash (rest : Text) : utf8 ('\\' :: rest) = 92 :: utf8 rest := rfl

theorem unescape_escape (hc : isDoubleQuoteEscape c = true) (rest : Text) :
    unescapeDoubleQuoted ('\\' :: c :: rest) = c :: unescapeDoubleQuoted rest := by
  obtain ⟨byte, hbyte, hchar⟩ := encode_of_test isDoubleQuoteEscape_high hc
  have hback : byteChar 92 = '\\' := rfl
  rw [unescapeDoubleQuoted, utf8_backslash, utf8_cons, hbyte, List.singleton_append, unescapeBytes,
    hback, hchar, hc]
  rfl

theorem unescape_backslash (hc : isDoubleQuoteEscape c = false) (rest : Text) :
    unescapeDoubleQuoted ('\\' :: c :: rest) = '\\' :: unescapeDoubleQuoted (c :: rest) := by
  obtain ⟨byte, bytes, hbytes, ⟨-, hchar, -⟩ | ⟨-, hhigh⟩⟩ := utf8_cons_eq c rest
  · rw [unescapeDoubleQuoted, unescapeDoubleQuoted, utf8_backslash, hbytes, unescapeBytes, hchar,
      hc]
    rfl
  · rw [unescapeDoubleQuoted, unescapeDoubleQuoted, utf8_backslash, hbytes, unescapeBytes,
      isDoubleQuoteEscape_high _ hhigh]
    rfl

theorem quoteRun_double_char (hc : c ≠ '\\') (hq : isDoubleQuote c = false) :
    quoteRun .double [c] = (.double, [c]) := by
  have h : c ≠ '"' := by simpa [isDoubleQuote] using hq
  simp [quoteRun, quoteStep, hc, h]

/-- The content between double quotes, by its escapes. -/
theorem content_reading {text : Text} (h : Escaped isDoubleQuote text) :
    ∃ shell, quoteRun .double text = (.double, shell) ∧
      Reading (unescapeDoubleQuoted text) shell (text.all isAscii = true) := by
  induction h with
  | nil => exact ⟨[], rfl, (Reading.refl []).congr (by simp)⟩
  | @char c cs hc hq _ ih =>
    obtain ⟨shell, hrun, hread⟩ := ih
    refine ⟨[c] ++ shell, quoteRun_append (quoteRun_double_char hc hq) hrun, ?_⟩
    rw [unescape_char hc]
    exact ((char_reading c).append hread).congr (by simp)
  | @escape cs c _ ih =>
    obtain ⟨shell, hrun, hread⟩ := ih
    have hback : isAscii '\\' = true := rfl
    by_cases hc : isDoubleQuoteEscape c = true
    · have hpair : quoteRun .double ['\\', c] = (.double, [c]) := by
        simp [quoteRun, quoteStep, hc]
      have hascii : isAscii c = true := by
        by_contra hnot
        have hhigh : 128 ≤ c.toNat := by simpa [isAscii] using hnot
        cases (isDoubleQuoteEscape_high c hhigh).symm.trans hc
      refine ⟨[c] ++ shell, quoteRun_append hpair hrun, ?_⟩
      rw [unescape_escape hc]
      exact ((Reading.refl [c]).append hread).congr (by simp [hback, hascii])
    · have hc' := eq_false_of_ne_true hc
      have hpair : quoteRun .double ['\\', c] = (.double, ['\\', c]) := by
        simp [quoteRun, quoteStep, hc']
      have hne : c ≠ '\\' := by
        rintro rfl
        exact hc rfl
      refine ⟨['\\', c] ++ shell, quoteRun_append hpair hrun, ?_⟩
      rw [unescape_backslash hc', unescape_char hne]
      exact ((Reading.refl ['\\']).append ((char_reading c).append hread)).congr
        (by simp [hback])

/-- One piece of a string: what the walker appends for it. -/
def pieceText (piece : Node) : Text :=
  if piece.kind = .stringContent then unescapeDoubleQuoted piece.text else piece.text

theorem piece_reading {piece : Node} (h : StringPiece piece) :
    ∃ shell, quoteRun .double piece.text = (.double, shell) ∧
      Reading (pieceText piece) shell (pieceExact piece = true) := by
  obtain ⟨hkind, htext⟩ | rfl := h
  · obtain ⟨shell, hrun, hread⟩ := content_reading htext
    refine ⟨shell, hrun, ?_⟩
    rw [pieceText, if_pos hkind]
    exact hread.congr (by simp [pieceExact, hkind])
  · exact ⟨['$'], rfl, (Reading.refl ['$']).congr (by decide)⟩

/-- The gaps of a string, which the walker leaves out. -/
theorem gap_reading {gap : Text} (h : ∀ c ∈ gap, isGapChar c = true) :
    quoteRun .double gap = (.double, gap) ∧ Reading [] gap (gap = []) := by
  refine ⟨?_, Reading.dropped fun c hc => by simp [isDroppable, h c hc]⟩
  induction gap with
  | nil => rfl
  | cons c cs ih =>
    rw [List.forall_mem_cons] at h
    have hc : c ≠ '\\' ∧ isDoubleQuote c = false := by
      have hgap := h.1
      simp only [isGapChar, Bool.or_eq_true, decide_eq_true_eq] at hgap
      rcases hgap with ((((rfl | rfl) | rfl) | rfl) | rfl) | rfl <;> decide
    exact quoteRun_append (quoteRun_double_char hc.1 hc.2) (ih h.2)

theorem pieces_reading (h : ∀ piece ∈ pieces, StringPiece piece.2)
    (hgaps : ∀ c ∈ pieces.flatMap Prod.fst, isGapChar c = true) :
    ∃ shell, quoteRun .double (pieces.flatMap fun piece => piece.1 ++ piece.2.text) =
        (.double, shell) ∧
      Reading ((pieces.map Prod.snd).flatMap pieceText) shell
        ((pieces.map Prod.snd).all pieceExact = true ∧ pieces.flatMap Prod.fst = []) := by
  induction pieces with
  | nil => exact ⟨[], rfl, (Reading.refl []).congr (by simp)⟩
  | cons piece pieces ih =>
    rw [List.forall_mem_cons] at h
    rw [List.flatMap_cons, List.forall_mem_append] at hgaps
    obtain ⟨hrun₀, hread₀⟩ := gap_reading hgaps.1
    obtain ⟨shell, hrun, hread⟩ := piece_reading h.1
    obtain ⟨shell', hrun', hread'⟩ := ih h.2 hgaps.2
    refine ⟨piece.1 ++ shell ++ shell',
      quoteRun_append (quoteRun_append hrun₀ hrun) hrun', ?_⟩
    refine ((hread₀.append hread).append hread').congr ?_
    simp only [List.map_cons, List.all_cons, Bool.and_eq_true, List.flatMap_cons,
      List.append_eq_nil_iff]
    tauto

/-- Nothing in such a string is known only at run time, so the walker accepts it. -/
theorem walkDoubleString_pieces (scope : VarScope) {pieces : List Node}
    (h : ∀ piece ∈ pieces, StringPiece piece) (out : Text) (sawLiteral : Bool) :
    walkDoubleString scope out false sawLiteral (pieces ++ [quoteToken]) =
      pure (out ++ pieces.flatMap pieceText) := by
  induction pieces generalizing out sawLiteral with
  | nil =>
    rw [List.nil_append, quoteToken, walkDoubleString, walkDoubleString, List.flatMap_nil,
      List.append_nil]
    rfl
  | cons piece pieces ih =>
    rw [List.forall_mem_cons] at h
    obtain ⟨hkind, -⟩ | rfl := h.1
    · rw [List.cons_append, walkDoubleString, hkind, List.flatMap_cons, pieceText, if_pos hkind,
        ← List.append_assoc]
      exact ih h.2 _ _
    · rw [List.cons_append, walkDoubleString, List.flatMap_cons, ← List.append_assoc]
      exact ih h.2 _ _

/-! ## Whole arguments -/

/-- The walker accepts the argument, the shell ends outside quotes, and the texts compare. -/
def Reads (scope : VarScope) (node : Node) : Prop :=
  ∃ walked shell, walkArgument scope node = pure walked ∧
    quoteRun .plain node.text = (.plain, shell) ∧ Reading walked shell (isExact node = true)

/-- The text of a string is that of its nodes exactly if it has no gaps. -/
theorem text_eq_iff {last : Text} :
    '"' :: (pieces.flatMap fun piece => piece.1 ++ piece.2.text) ++ last ++ ['"'] =
        (quoteToken :: pieces.map Prod.snd ++ [quoteToken]).flatMap Node.text ↔
      pieces.flatMap Prod.fst = [] ∧ last = [] := by
  have hlength : (pieces.flatMap fun piece => piece.1 ++ piece.2.text).length =
      (pieces.flatMap Prod.fst).length + ((pieces.map Prod.snd).flatMap Node.text).length := by
    induction pieces with
    | nil => rfl
    | cons piece pieces ih =>
      simp only [List.flatMap_cons, List.map_cons, List.length_append] at ih ⊢
      omega
  have hnodes : (quoteToken :: pieces.map Prod.snd ++ [quoteToken]).flatMap Node.text =
      '"' :: (pieces.map Prod.snd).flatMap Node.text ++ ['"'] := by simp [quoteToken, Node.text]
  rw [hnodes]
  constructor
  · intro h
    have hsame := congrArg List.length h
    simp only [List.length_append, List.length_cons, hlength] at hsame
    exact ⟨List.eq_nil_of_length_eq_zero (by omega), List.eq_nil_of_length_eq_zero (by omega)⟩
  · rintro ⟨hgaps, rfl⟩
    have hnone : ∀ piece ∈ pieces, piece.1 = [] := List.flatMap_eq_nil_iff.1 hgaps
    rw [List.append_nil, List.flatMap_map]
    congr 2
    exact List.flatMap_congr fun piece hpiece => by rw [hnone piece hpiece, List.nil_append]

theorem string_reads (scope : VarScope) {named : Bool} {last : Text}
    (h : ∀ piece ∈ pieces, StringPiece piece.2)
    (hgaps : ∀ c ∈ pieces.flatMap Prod.fst ++ last, isGapChar c = true) :
    Reads scope (.mk .string named
      ('"' :: (pieces.flatMap fun piece => piece.1 ++ piece.2.text) ++ last ++ ['"'])
      (quoteToken :: pieces.map Prod.snd ++ [quoteToken])) := by
  rw [List.forall_mem_append] at hgaps
  obtain ⟨shell, hrun, hread⟩ := pieces_reading h hgaps.1
  obtain ⟨hrunLast, hreadLast⟩ := gap_reading hgaps.2
  have hopen : quoteRun .plain ['"'] = (.double, []) := rfl
  have hclose : quoteRun .double ['"'] = (.plain, []) := rfl
  refine ⟨(pieces.map Prod.snd).flatMap pieceText, shell ++ last, ?_, ?_, ?_⟩
  · rw [walkArgument, List.cons_append, walkDoubleString]
    exact walkDoubleString_pieces scope (List.forall_mem_map.2 h) [] false
  · have hall := quoteRun_append hopen (quoteRun_append (quoteRun_append hrun hrunLast) hclose)
    simpa [Node.text] using hall
  · have hall := hread.append hreadLast
    rw [List.append_nil] at hall
    refine hall.congr ?_
    have hquote : pieceExact quoteToken = true := rfl
    rw [isExact, Bool.and_eq_true, decide_eq_true_eq, text_eq_iff, List.all_append, List.all_cons,
      List.all_cons, hquote]
    simp [and_assoc]

/-- The parts of a concatenation, the dollar tokens of which the walker passes over. -/
theorem parts_read (scope : VarScope) {parts : List Node}
    (h : ∀ part ∈ parts, part.named = true → Reads scope part)
    (hdollar : ∀ part ∈ parts, part.named = false → part = dollarToken) :
    ∃ walked shell, walkArguments scope parts = pure walked ∧
      quoteRun .plain (parts.flatMap Node.text) = (.plain, shell) ∧
      Reading walked.flatten shell (areExact parts = true) := by
  induction parts with
  | nil => exact ⟨[], [], rfl, rfl, (Reading.refl []).congr (by simp [areExact])⟩
  | cons part parts ih =>
    rw [List.forall_mem_cons] at h hdollar
    obtain ⟨walked, shell, hwalk, hrun, hread⟩ := ih h.2 hdollar.2
    cases hnamed : part.named with
    | true =>
      obtain ⟨text, shellText, hwalkPart, hrunPart, hreadPart⟩ := h.1 hnamed
      refine ⟨text :: walked, shellText ++ shell, ?_, quoteRun_append hrunPart hrun, ?_⟩
      · simp only [walkArguments, hnamed, hwalkPart, hwalk, pure_bind, Bool.not_true,
          Bool.false_eq_true, if_false]
      · rw [List.flatten_cons]
        exact (hreadPart.append hread).congr (by simp [areExact, hnamed])
    | false =>
      obtain rfl := hdollar.1 hnamed
      have hrunPart : quoteRun .plain ['$'] = (.plain, ['$']) := rfl
      refine ⟨walked, ['$'] ++ shell, ?_, quoteRun_append hrunPart hrun, ?_⟩
      · rw [walkArguments, hnamed]
        exact hwalk
      · have hdropped :=
          Reading.dropped (List.forall_mem_singleton.2 (rfl : isDroppable '$' = true))
        exact (hdropped.append hread).congr (by simp [areExact, hnamed])

theorem Plain.reads (scope : VarScope) {node : Node} (h : Plain node) : Reads scope node := by
  induction h with
  | @word named text children h =>
    obtain ⟨shell, hrun, hread⟩ := word_reading h
    exact ⟨text, shell, by rw [walkArgument], hrun, hread⟩
  | @number named text children h =>
    obtain ⟨shell, hrun, hread⟩ := word_reading h
    exact ⟨text, shell, by rw [walkArgument], hrun, hread⟩
  | @rawString named body children h =>
    refine ⟨body, body, ?_, rawString_run h, (Reading.refl body).congr (by simp [isExact])⟩
    rw [walkArgument, unquoteRawString_quoted]
  | string h hgaps => exact string_reads scope h hgaps
  | @concatenation named parts _ hdollar ih =>
    obtain ⟨walked, shell, hwalk, hrun, hread⟩ := parts_read scope ih hdollar
    refine ⟨walked.flatten, shell, ?_, hrun, hread⟩
    rw [walkArgument, hwalk, pure_bind]

/-- The walker accepts every argument without expansions, and its text is the shell's exactly when
no word has a backslash, everything between double quotes is ASCII and stands in a node of the
string, and no dollar sign is a token of its own in a concatenation. -/
theorem walkArgument_eq_quoteRemoval_iff (scope : VarScope) {node : Node} (h : Plain node) :
    ∃ text, walkArgument scope node = pure text ∧
      (text = quoteRemoval node.text ↔ isExact node = true) := by
  obtain ⟨walked, shell, hwalk, hrun, hread⟩ := h.reads scope
  refine ⟨walked, hwalk, ?_⟩
  rw [quoteRemoval_of_plain hrun]
  exact hread.eq_iff

/-- The content of the string in the sample argument. -/
def mixedContent : Node := .mk .stringContent true ['a', ' ', 'b'] []

/-- The parts of the argument `"a b"'c'd`. -/
def mixedParts : List Node :=
  [.mk .string true ['"', 'a', ' ', 'b', '"'] [quoteToken, mixedContent, quoteToken],
   .mk .rawString true ['\'', 'c', '\''] [], .mk .word true ['d'] []]

/-- An argument of several parts. -/
def mixedArgument : Node := .mk .concatenation true (mixedParts.flatMap Node.text) mixedParts

theorem plain_mixedArgument : Plain mixedArgument := by
  have hcontent : StringPiece mixedContent :=
    .inl ⟨rfl, .char (by decide) rfl (.char (by decide) rfl (.char (by decide) rfl .nil))⟩
  refine .concatenation ?_ ?_
  · simp only [mixedParts, List.forall_mem_cons, List.not_mem_nil, false_implies, implies_true,
      and_true]
    refine ⟨fun _ => ?_, fun _ => ?_, fun _ => ?_⟩
    · exact @Plain.string true [([], mixedContent)] [] (List.forall_mem_singleton.2 hcontent)
        (by simp)
    · exact @Plain.rawString true ['c'] [] (by decide)
    · exact .word (.char (by decide) rfl .nil)
  · simp [mixedParts, Node.named]

theorem walkArgument_eq_quoteRemoval_iff_mixedArgument :
    Plain mixedArgument ∧ ∃ text, walkArgument (fun _ => none) mixedArgument = pure text ∧
      (text = quoteRemoval mixedArgument.text ↔ isExact mixedArgument = true) :=
  ⟨plain_mixedArgument, walkArgument_eq_quoteRemoval_iff _ plain_mixedArgument⟩

/-- The word `\\rm` keeps its backslash, the string `"é"` becomes the two characters of its bytes,
`a$` loses its dollar sign, and a string of two lines its line feed. -/
theorem walkArgument_differs :
    walkArgument (fun _ => none) (.mk .word true "\\rm".toList []) = pure "\\rm".toList ∧
      quoteRemoval "\\rm".toList = "rm".toList ∧
      walkArgument (fun _ => none) (.mk .string true "\"é\"".toList
        [quoteToken, .mk .stringContent true "é".toList [], quoteToken]) = pure "Ã©".toList ∧
      quoteRemoval "\"é\"".toList = "é".toList ∧
      walkArgument (fun _ => none) (.mk .concatenation true "a$".toList
        [.mk .word true "a".toList [], dollarToken]) = pure "a".toList ∧
      quoteRemoval "a$".toList = "a$".toList ∧
      walkArgument (fun _ => none) (.mk .string true "\"a\nb\"".toList
        [quoteToken, .mk .stringContent true "a".toList [], .mk .stringContent true "b".toList [],
          quoteToken]) = pure "ab".toList ∧
      quoteRemoval "\"a\nb\"".toList = "a\nb".toList := by
  refine ⟨rfl, by decide, ?_, by decide, rfl, by decide, ?_, by decide⟩
  · rfl
  · rfl

end EasyNetDaemon.ShellGuard
