import EasyNetDaemon.Eal.Template
import EasyNetDaemon.Library.Utf8

/-!
# Rendering by a cursor over bytes

`render_with_bindings` moves a cursor through the bytes of a template. At two opening braces it
searches for the closing ones and goes on behind them; elsewhere it copies up to the next character
boundary (`renderFrom`). It does what replacing the pieces of the template does (`renderBytes_eq`).

A template may be put together from literal text and placeholders in several ways: the braces of
`\x7b\x7b\x7ba\x7d\x7d` open at the first or at the second one. Where there is one way only, the
result is the literal text with the values in place of the placeholders.
-/

namespace EasyNetDaemon.Eal

open Library

/-! ## The cursor -/

/-- `find` of two closing braces. -/
def findClose : List UInt8 → Option Nat
  | [] => none
  | 0x7d :: 0x7d :: _ => some 0
  | _ :: rest => (findClose rest).map (· + 1)

/-- `next_char_boundary`, counted from the cursor. -/
def charLength (bytes : List UInt8) : Nat := 1 + (bytes.tail.takeWhile isContinuation).length

/-- A slice of the template as text. -/
def sliceText (bytes : List UInt8) : String := (String.fromUTF8? bytes.toByteArray).getD ""

section Render

variable (toJsonText : Json → String) (bindings : Option (List (String × Json)))

/-- The loop of `render_with_bindings`: the bytes from the cursor on, and what is written so far. -/
def renderFrom (bytes : List UInt8) (out : String) : Except TemplateError String :=
  match bytes with
  | [] => .ok out
  | b :: rest =>
    if b = 0x7b ∧ rest.head? = some 0x7b then
      match findClose rest.tail with
      | none => .error .unclosed
      | some stop => do
        let value ← renderPiece toJsonText bindings
          (.placeholder (sliceText (rest.tail.take stop)).toList)
        renderFrom (rest.tail.drop (stop + 2)) (out ++ String.ofList value)
    else
      renderFrom (rest.drop (charLength (b :: rest) - 1))
        (out ++ sliceText ((b :: rest).take (charLength (b :: rest))))
termination_by bytes.length
decreasing_by
  all_goals
    simp only [List.length_drop, List.length_tail, List.length_cons]
    omega

end Render

/-- `render_template`. -/
def renderBytes (toJsonText : Json → String) (template : String) (args : Json) :
    Except TemplateError String := do
  let bindings ←
    match args with
    | .object fields => .ok (some fields)
    | .null => .ok none
    | other => .error (.argsNotObject (shortKind other))
  renderFrom toJsonText bindings (utf8 template.toList) ""

theorem sliceText_utf8 (cs : List Char) : sliceText (utf8 cs) = String.ofList cs := by
  have hread : String.fromUTF8? (utf8 cs).toByteArray = some (String.ofList cs) :=
    fromUTF8?_eq_some_iff.2 (by rw [String.toList_ofList])
  rw [sliceText, hread, Option.getD_some]

/-! ## Bytes and characters -/

theorem encode_brace :
    String.utf8EncodeChar '\x7b' = [0x7b] ∧ String.utf8EncodeChar '\x7d' = [0x7d] := by
  decide

variable {cs : List Char} {c : Char}

/-- An ASCII byte at the start of a text is the character. -/
theorem head?_utf8_eq {x : Char} (hx : x.toNat < 128) {cs : List Char} :
    (utf8 cs).head? = some (UInt8.ofNat x.toNat) ↔ cs.head? = some x := by
  cases cs with
  | nil => simp
  | cons c cs =>
    constructor
    · intro h
      by_cases hc : c.toNat < 128
      · rw [utf8_cons, encode_ascii hc] at h
        have hbyte := congrArg byteChar (Option.some.inj h)
        rw [byteChar_ofNat hc, byteChar_ofNat hx] at hbyte
        rw [List.head?_cons, hbyte]
      · obtain ⟨b, tail, hb, -⟩ := encode_eq_cons c
        have hle := le_of_mem_encode (Nat.le_of_not_lt hc) (hb ▸ List.mem_cons_self : b ∈ _)
        rw [utf8_cons, hb, List.cons_append, List.head?_cons, Option.some.injEq] at h
        rw [h, UInt8.toNat_ofNat_of_lt' (Nat.lt_trans hx (by decide))] at hle
        omega
    · intro h
      cases h
      rw [utf8_cons, encode_ascii hx]
      rfl

/-- No byte of another character is that of a closing brace. -/
theorem findClose_append {bytes rest : List UInt8} (h : (0x7d : UInt8) ∉ bytes) :
    findClose (bytes ++ rest) = (findClose rest).map (· + bytes.length) := by
  induction bytes with
  | nil => simp
  | cons b bytes ih =>
    rw [List.mem_cons, not_or] at h
    rw [List.cons_append, findClose.eq_3 b _ (fun _ hb _ => h.1 hb.symm), ih h.2, Option.map_map]
    refine Option.map_congr fun n _ => ?_
    simp only [Function.comp_apply, List.length_cons]
    omega

theorem brace_notMem_encode (hc : c ≠ '\x7d') : (0x7d : UInt8) ∉ String.utf8EncodeChar c := by
  intro h
  by_cases hascii : c.toNat < 128
  · rw [encode_ascii hascii, List.mem_singleton] at h
    have hbyte := congrArg byteChar h
    rw [byteChar_ofNat hascii] at hbyte
    exact hc (hbyte.symm.trans (by decide))
  · exact absurd (le_of_mem_encode (Nat.le_of_not_lt hascii) h) (by decide)

/-- The closing braces are found at the same place. -/
theorem findClose_utf8 (cs : List Char) :
    findClose (utf8 cs) = (splitClose cs).map fun p => (utf8 p.1).length := by
  fun_induction splitClose cs with
  | case1 => rfl
  | case2 rest => rfl
  | case3 c rest hopen ih =>
    rw [Option.map_map]
    by_cases hc : c = '\x7d'
    · subst hc
      have hhead : ∀ tail, utf8 rest ≠ 0x7d :: tail := by
        intro tail htail
        have hx : (utf8 rest).head? = some (UInt8.ofNat ('\x7d').toNat) := by rw [htail]; rfl
        obtain ⟨more, hmore⟩ := List.head?_eq_some_iff.1 ((head?_utf8_eq (by decide)).1 hx)
        exact hopen more rfl hmore
      rw [utf8_cons, encode_brace.2, List.singleton_append,
        findClose.eq_3 _ _ (fun tail _ htail => hhead tail htail), ih, Option.map_map]
      refine Option.map_congr fun p _ => ?_
      simp only [Function.comp_apply, utf8_cons, encode_brace.2, List.length_append,
        List.length_singleton]
      omega
    · rw [utf8_cons, findClose_append (brace_notMem_encode hc), ih, Option.map_map]
      refine Option.map_congr fun p _ => ?_
      simp only [Function.comp_apply, utf8_cons, List.length_append]
      omega

/-- The bytes of a template that opens braces. -/
theorem opens_utf8_iff {b : UInt8} {rest : List UInt8} (h : utf8 (c :: cs) = b :: rest) :
    (b = 0x7b ∧ rest.head? = some 0x7b) ↔ c = '\x7b' ∧ cs.head? = some '\x7b' := by
  have hb : b = 0x7b ↔ c = '\x7b' := by
    have hhead := @head?_utf8_eq '\x7b' (by decide) (c :: cs)
    rw [h, List.head?_cons, List.head?_cons, Option.some.injEq, Option.some.injEq] at hhead
    exact hhead
  constructor
  · rintro ⟨hb', hrest⟩
    obtain rfl := hb.1 hb'
    rw [utf8_cons, encode_brace.1, List.singleton_append] at h
    cases h
    exact ⟨rfl, (head?_utf8_eq (x := '\x7b') (by decide)).1 hrest⟩
  · rintro ⟨rfl, hcs⟩
    rw [utf8_cons, encode_brace.1, List.singleton_append] at h
    cases h
    exact ⟨rfl, (head?_utf8_eq (x := '\x7b') (by decide)).2 hcs⟩

/-- The cursor replaces the pieces one after the other. -/
theorem renderFrom_utf8 (toJsonText : Json → String) (bindings : Option (List (String × Json)))
    (cs : List Char) (out : String) :
    renderFrom toJsonText bindings (utf8 cs) out =
      (renderWithBindings toJsonText bindings (cut none cs)).map
        fun text => out ++ String.ofList text := by
  -- on the length: a placeholder is passed over at once
  induction hn : cs.length using Nat.strong_induction_on generalizing cs out with
  | _ n ih =>
    cases cs with
    | nil =>
      rw [utf8_nil, renderFrom]
      simp [cut, renderWithBindings, Except.map]
    | cons c cs =>
      obtain ⟨b, tail, hc, hb, htail⟩ := encode_eq_cons c
      have hbytes : utf8 (c :: cs) = b :: (tail ++ utf8 cs) := by
        rw [utf8_cons, hc, List.cons_append]
      rw [hbytes, renderFrom]
      by_cases hopen : c = '\x7b' ∧ cs.head? = some '\x7b'
      · rw [if_pos ((opens_utf8_iff hbytes).2 hopen)]
        obtain ⟨rfl, hhead⟩ := hopen
        obtain ⟨rest, rfl⟩ := List.head?_eq_some_iff.1 hhead
        obtain rfl : tail = [] := by
          rw [encode_brace.1] at hc
          cases hc
          rfl
        have hrest : (([] : List UInt8) ++ utf8 ('\x7b' :: rest)).tail = utf8 rest := rfl
        rw [hrest, findClose_utf8, cut, cut_some_eq]
        cases hsplit : splitClose rest with
        | none => rfl
        | some p =>
          obtain ⟨front, after⟩ := p
          have hrestEq := eq_of_splitClose hsplit
          have htake : (utf8 rest).take (utf8 front).length = utf8 front := by
            rw [hrestEq, utf8_append, List.take_left]
          have hdrop : (utf8 rest).drop ((utf8 front).length + 2) = utf8 after := by
            rw [hrestEq, utf8_append, ← List.drop_drop, List.drop_left]
            rfl
          have hshort : after.length < n := by
            have := congrArg List.length hrestEq
            simp only [List.length_append, List.length_cons] at this hn
            omega
          simp only [Option.map_some, htake, hdrop, sliceText_utf8, String.toList_ofList,
            List.nil_append, renderWithBindings]
          cases renderPiece toJsonText bindings (.placeholder front) with
          | error e => rfl
          | ok value =>
            simp only [bind, Except.bind, ih after.length hshort after _ rfl]
            cases renderWithBindings toJsonText bindings (cut none after) with
            | error e => rfl
            | ok text => simp [Except.map, pure, Except.pure, String.append_assoc]
      · rw [if_neg fun h => hopen ((opens_utf8_iff hbytes).1 h)]
        have hlength : charLength (b :: (tail ++ utf8 cs)) = (b :: tail).length := by
          rw [charLength, List.tail_cons, List.takeWhile_append_of_pos htail,
            takeWhile_isContinuation_utf8, List.append_nil, List.length_cons, Nat.add_comm]
        have htake : (b :: (tail ++ utf8 cs)).take (b :: tail).length = utf8 [c] := by
          rw [← List.cons_append, List.take_left, utf8_cons, hc, utf8_nil, List.append_nil]
        have hdrop : (tail ++ utf8 cs).drop ((b :: tail).length - 1) = utf8 cs := by
          rw [List.length_cons, Nat.add_sub_cancel, List.drop_left]
        rw [hlength, htake, hdrop, sliceText_utf8, ih cs.length (by
          rw [← hn]
          exact Nat.lt_succ_self _) cs _ rfl,
          cut.eq_3 c cs fun rest hc' hrest => hopen ⟨hc', by rw [hrest]; rfl⟩]
        simp only [renderWithBindings, renderPiece, bind, Except.bind]
        cases renderWithBindings toJsonText bindings (cut none cs) with
        | error e => rfl
        | ok text =>
          simp only [Except.map, pure, Except.pure, String.append_assoc, ← String.ofList_append]

theorem renderBytes_eq (toJsonText : Json → String) (template : String) (args : Json) :
    renderBytes toJsonText template args = renderTemplate toJsonText template args := by
  have hfrom : ∀ bindings, renderFrom toJsonText bindings (utf8 template.toList) "" = (do
      let out ← renderWithBindings toJsonText bindings (cut none template.toList)
      return String.ofList out) := by
    intro bindings
    rw [renderFrom_utf8]
    cases renderWithBindings toJsonText bindings (cut none template.toList) with
    | error e => rfl
    | ok text => simp [Except.map, bind, Except.bind, pure, Except.pure]
  unfold renderBytes renderTemplate
  cases args with
  | object fields => exact hfrom _
  | null => exact hfrom _
  | bool | int | decimal | string | array => rfl

/-! ## Literal text and placeholders -/

/-- A part of a template. -/
inductive Segment
  | literal (text : List Char)
  | placeholder (body : List Char)
  | unclosed (body : List Char)
  deriving DecidableEq, Repr

namespace Segment

/-- The text of a segment in a template. -/
def source : Segment → List Char
  | .literal text => text
  | .placeholder body => ['\x7b', '\x7b'] ++ body ++ ['\x7d', '\x7d']
  | .unclosed body => ['\x7b', '\x7b'] ++ body

/-- Literal text opens no braces and is as long as it can be, the text of a placeholder closes none,
and only the last placeholder may be left open. -/
def Alternating : List Segment → Prop
  | [] => True
  | .literal text :: rest => text ≠ [] ∧ ¬ ['\x7b', '\x7b'] <:+: text ∧
    (∀ text' rest', rest ≠ .literal text' :: rest') ∧ Alternating rest
  | .placeholder body :: rest => ¬ ['\x7d', '\x7d'] <:+: body ∧ Alternating rest
  | .unclosed body :: rest => ¬ ['\x7d', '\x7d'] <:+: body ∧ rest = []

/-- A template is put together from segments. -/
def Decompose (segments : List Segment) (template : List Char) : Prop :=
  Alternating segments ∧ segments.flatMap source = template

/-- What cannot be rendered: a placeholder that is unclosed, empty or names a missing argument. -/
def Fails (fields : List (String × Json)) : Segment → Prop
  | .literal _ => False
  | .placeholder body => placeholderKey body = "" ∨ fields.lookup (placeholderKey body) = none
  | .unclosed _ => True

/-- What stands in the result for a segment. -/
def inserted (toJsonText : Json → String) (fields : List (String × Json)) : Segment → List Char
  | .literal text => text
  | .placeholder body =>
    ((fields.lookup (placeholderKey body)).map (stringifyArg toJsonText)).elim [] String.toList
  | .unclosed _ => []

end Segment

/-- The pieces of a template, with the text between placeholders in one. -/
def segmentsOf : List Piece → List Segment
  | [] => []
  | .text c :: rest =>
    match segmentsOf rest with
    | .literal text :: segments => .literal (c :: text) :: segments
    | segments => .literal [c] :: segments
  | .placeholder body :: rest => .placeholder body :: segmentsOf rest
  | .unclosed body :: rest => .unclosed body :: segmentsOf rest

theorem flatMap_source_segmentsOf (pieces : List Piece) :
    (segmentsOf pieces).flatMap Segment.source = pieces.flatMap Piece.source := by
  induction pieces with
  | nil => rfl
  | cons piece rest ih =>
    rw [List.flatMap_cons, ← ih]
    cases piece with
    | text c =>
      rw [segmentsOf]
      split
      · next text segments hrest => rw [hrest]; rfl
      · rfl
    | placeholder body => rfl
    | unclosed body => rfl

/-! ## The segments that the cursor finds -/

theorem pair_infix_cons_iff {a : Char} :
    [a, a] <:+: c :: cs ↔ (c = a ∧ cs.head? = some a) ∨ [a, a] <:+: cs := by
  have hsingle : [a] <+: cs ↔ cs.head? = some a := by
    cases cs with
    | nil => simp
    | cons d cs => simp [eq_comm]
  rw [List.infix_cons_iff, List.cons_prefix_cons, hsingle, eq_comm]

/-- The text before the first closing braces has none in it. -/
theorem not_infix_of_splitClose :
    (∀ front after, splitClose cs = some (front, after) → ¬ ['\x7d', '\x7d'] <:+: front) ∧
      (splitClose cs = none → ¬ ['\x7d', '\x7d'] <:+: cs) := by
  fun_induction splitClose cs with
  | case1 => exact ⟨by simp, by simp⟩
  | case2 rest =>
    refine ⟨fun front after h => ?_, by simp⟩
    cases h
    simp
  | case3 c rest hopen ih =>
    constructor
    · intro front after h
      obtain ⟨⟨front', after'⟩, hsplit, hp⟩ := Option.map_eq_some_iff.1 h
      cases hp
      rw [pair_infix_cons_iff]
      rintro (⟨rfl, hhead⟩ | hinfix)
      · -- the text before the braces is the start of the rest
        obtain ⟨tail, rfl⟩ := List.head?_eq_some_iff.1 hhead
        exact hopen _ rfl (eq_of_splitClose hsplit)
      · exact ih.1 _ _ hsplit hinfix
    · intro h
      rw [pair_infix_cons_iff]
      rintro (⟨rfl, hhead⟩ | hinfix)
      · obtain ⟨tail, rfl⟩ := List.head?_eq_some_iff.1 hhead
        exact hopen tail rfl rfl
      · exact ih.2 (Option.map_eq_none_iff.1 h) hinfix

/-- Literal text at the start of a template's segments is the start of the template. -/
theorem head?_of_segmentsOf {text : List Char} {segments : List Segment}
    (h : segmentsOf (cut none cs) = .literal text :: segments) (hne : text ≠ []) :
    cs.head? = text.head? := by
  have hsource := flatMap_source_segmentsOf (cut none cs)
  rw [source_cut, h, List.flatMap_cons] at hsource
  obtain ⟨c, text, rfl⟩ := List.exists_cons_of_ne_nil hne
  have hcs : cs = (c :: text) ++ segments.flatMap Segment.source := hsource.symm
  rw [hcs]
  rfl

theorem alternating_segmentsOf_cut (cs : List Char) :
    Segment.Alternating (segmentsOf (cut none cs)) := by
  induction hn : cs.length using Nat.strong_induction_on generalizing cs with
  | _ n ih =>
    cases cs with
    | nil => trivial
    | cons c cs =>
      by_cases hopen : ∃ rest, c :: cs = '\x7b' :: '\x7b' :: rest
      · obtain ⟨rest, hrest⟩ := hopen
        rw [hrest, cut, cut_some_eq]
        cases hsplit : splitClose rest with
        | none => exact ⟨not_infix_of_splitClose.2 hsplit, rfl⟩
        | some p =>
          obtain ⟨front, after⟩ := p
          refine ⟨not_infix_of_splitClose.1 _ _ hsplit, ih after.length ?_ after rfl⟩
          have hlength := congrArg List.length (eq_of_splitClose hsplit)
          rw [hrest] at hn
          simp only [List.length_append, List.length_cons] at hlength hn
          omega
      · have hstep : cut none (c :: cs) = .text c :: cut none cs :=
          cut.eq_3 c cs fun rest hc hrest => hopen ⟨rest, by rw [hc, hrest]⟩
        have hih := ih cs.length (by
          rw [← hn]
          exact Nat.lt_succ_self _) cs rfl
        rw [hstep, segmentsOf]
        split
        · next text segments hsegments =>
          rw [hsegments] at hih
          obtain ⟨hne, hfree, hlong, hrest⟩ := hih
          refine ⟨List.cons_ne_nil c text, ?_, hlong, hrest⟩
          rw [pair_infix_cons_iff]
          rintro (⟨rfl, hhead⟩ | hinfix)
          · rw [← head?_of_segmentsOf hsegments hne] at hhead
            obtain ⟨rest, rfl⟩ := List.head?_eq_some_iff.1 hhead
            exact hopen ⟨rest, rfl⟩
          · exact hfree hinfix
        · next segments hsegments =>
          refine ⟨List.cons_ne_nil c [], ?_, ?_, hih⟩
          · rw [pair_infix_cons_iff]
            simp
          · intro text' rest' heq
            exact hsegments text' rest' heq

theorem decompose_segmentsOf_cut (cs : List Char) :
    Segment.Decompose (segmentsOf (cut none cs)) cs :=
  ⟨alternating_segmentsOf_cut cs, by rw [flatMap_source_segmentsOf, source_cut]; rfl⟩

/-! ## What is rendered -/

section Rendered

variable (toJsonText : Json → String) (fields : List (String × Json))

/-- A character in front of segments fails nothing and stands for itself. -/
theorem segmentsOf_text (c : Char) (rest : List Piece) :
    ((∃ segment ∈ segmentsOf (.text c :: rest), segment.Fails fields) ↔
      ∃ segment ∈ segmentsOf rest, segment.Fails fields) ∧
    (segmentsOf (.text c :: rest)).flatMap (Segment.inserted toJsonText fields) =
      c :: (segmentsOf rest).flatMap (Segment.inserted toJsonText fields) := by
  rw [segmentsOf]
  split
  · next text segments hsegments =>
    rw [hsegments]
    exact ⟨by simp [Segment.Fails], rfl⟩
  · exact ⟨by simp [Segment.Fails], rfl⟩

/-- Rendering segments is rendering their pieces: it fails if a segment fails, and otherwise gives
what stands for the segments. -/
theorem renderWithBindings_segmentsOf (pieces : List Piece) :
    ((∃ e, renderWithBindings toJsonText (some fields) pieces = .error e) ∧
      (∃ segment ∈ segmentsOf pieces, segment.Fails fields)) ∨
    (renderWithBindings toJsonText (some fields) pieces =
        .ok ((segmentsOf pieces).flatMap (Segment.inserted toJsonText fields)) ∧
      ∀ segment ∈ segmentsOf pieces, ¬ segment.Fails fields) := by
  induction pieces with
  | nil => exact Or.inr ⟨rfl, by simp [segmentsOf]⟩
  | cons piece rest ih =>
    cases piece with
    | text c =>
      obtain ⟨hfails, hinserted⟩ := segmentsOf_text toJsonText fields c rest
      rcases ih with ⟨⟨e, herror⟩, hrest⟩ | ⟨hok, hrest⟩
      · refine Or.inl ⟨⟨e, ?_⟩, hfails.2 hrest⟩
        simp only [renderWithBindings, renderPiece, herror, bind, Except.bind]
      · refine Or.inr ⟨?_, fun segment hmem hfail => ?_⟩
        · rw [hinserted]
          simp only [renderWithBindings, renderPiece, hok, bind, Except.bind, pure, Except.pure,
            List.singleton_append]
        · obtain ⟨segment', hmem', hfail'⟩ := hfails.1 ⟨segment, hmem, hfail⟩
          exact hrest segment' hmem' hfail'
    | placeholder body =>
      rw [segmentsOf, List.flatMap_cons]
      by_cases hkey : placeholderKey body = ""
      · refine Or.inl ⟨⟨.emptyPlaceholder, ?_⟩, _, List.mem_cons_self, Or.inl hkey⟩
        simp [renderWithBindings, renderPiece, hkey, bailIf, bind, Except.bind]
      · have hbail : bailIf (placeholderKey body == "") TemplateError.emptyPlaceholder = .ok () :=
          bailIf_eq_ok_iff.2 (by simpa using hkey)
        cases hvalue : fields.lookup (placeholderKey body) with
        | none =>
          refine Or.inl ⟨⟨.missingArg (placeholderKey body) (fields.map Prod.fst), ?_⟩, _,
            List.mem_cons_self, Or.inr hvalue⟩
          simp only [renderWithBindings, renderPiece, hbail, hvalue, bind, Except.bind]
        | some value =>
          have hself : ¬ (Segment.placeholder body).Fails fields := by
            rintro (hempty | hnone)
            · exact hkey hempty
            · cases hvalue.symm.trans hnone
          rcases ih with ⟨⟨e, herror⟩, segment, hmem, hfail⟩ | ⟨hok, hrest⟩
          · refine Or.inl ⟨⟨e, ?_⟩, segment, List.mem_cons_of_mem _ hmem, hfail⟩
            simp only [renderWithBindings, renderPiece, hbail, hvalue, herror, bind, Except.bind]
          · refine Or.inr ⟨?_, fun segment hmem => ?_⟩
            · simp only [renderWithBindings, renderPiece, hbail, hvalue, hok, bind, Except.bind,
                pure, Except.pure, Segment.inserted, Option.map_some, Option.elim_some]
            · rcases List.mem_cons.1 hmem with rfl | hmem
              · exact hself
              · exact hrest segment hmem
    | unclosed body =>
      exact Or.inl ⟨⟨_, rfl⟩, .unclosed body, List.mem_cons_self, trivial⟩

end Rendered

/-! ## Templates with one reading -/

namespace Segment

/-- No brace stands in the text of the segment. -/
def Braceless : Segment → Prop
  | .literal text | .placeholder text | .unclosed text =>
    '\x7b' ∉ text ∧ '\x7d' ∉ text

variable {tail : List Char}

/-- Segments that start with no literal text but with a brace, start with two. -/
theorem opens_twice {segments : List Segment}
    (hlong : ∀ text rest, segments ≠ .literal text :: rest)
    (h : segments.flatMap source = '\x7b' :: tail) : ∃ more, tail = '\x7b' :: more := by
  cases segments with
  | nil => cases h
  | cons segment rest =>
    cases segment with
    | literal text => exact absurd rfl (hlong text rest)
    | placeholder body =>
      cases h
      exact ⟨_, rfl⟩
    | unclosed body =>
      cases h
      exact ⟨_, rfl⟩

/-- Literal text does not take the first of two braces that no third one follows. -/
theorem not_literal_of_opens {text : List Char} {rest : List Segment}
    (h : Alternating (.literal text :: rest))
    (hsource : text ++ rest.flatMap source = '\x7b' :: '\x7b' :: tail)
    (htail : tail.head? ≠ some '\x7b') : False := by
  obtain ⟨hne, hfree, hlong, -⟩ := h
  match text, hne with
  | [c], _ =>
    obtain ⟨-, hrest⟩ := List.cons.inj hsource
    obtain ⟨more, rfl⟩ := opens_twice hlong hrest
    exact htail rfl
  | c :: d :: text, _ =>
    obtain ⟨rfl, hrest⟩ := List.cons.inj hsource
    obtain ⟨rfl, -⟩ := List.cons.inj hrest
    exact hfree (pair_infix_cons_iff.2 (Or.inl ⟨rfl, rfl⟩))

theorem head?_append_ne {text : List Char} (htext : c ∉ text) (htail : tail.head? ≠ some c) :
    (text ++ tail).head? ≠ some c := by
  cases text with
  | nil => exact htail
  | cons d text =>
    rintro ⟨⟩
    exact htext List.mem_cons_self

/-- Segments that start with no literal text start with no other character than an opening brace. -/
theorem eq_open_of_cons {segments : List Segment}
    (hlong : ∀ text rest, segments ≠ .literal text :: rest)
    (h : segments.flatMap source = c :: tail) : c = '\x7b' := by
  cases segments with
  | nil => cases h
  | cons segment rest =>
    cases segment with
    | literal text => exact absurd rfl (hlong text rest)
    | placeholder body =>
      cases h
      rfl
    | unclosed body =>
      cases h
      rfl

/-- No third brace follows the two of a placeholder. -/
theorem third_ne {segments : List Segment} (h : Alternating segments)
    (hbraceless : ∀ segment ∈ segments, segment.Braceless)
    (hlong : ∀ text rest, segments ≠ .literal text :: rest)
    (hsource : segments.flatMap source = '\x7b' :: '\x7b' :: tail) : tail.head? ≠ some '\x7b' := by
  cases segments with
  | nil => cases hsource
  | cons segment rest =>
    have hbody := hbraceless segment List.mem_cons_self
    cases segment with
    | literal text => exact absurd rfl (hlong text rest)
    | placeholder body =>
      have htail : tail = body ++ ('\x7d' :: '\x7d' :: rest.flatMap source) := by
        simpa [source] using hsource.symm
      rw [htail]
      exact head?_append_ne hbody.1 (by simp)
    | unclosed body =>
      obtain ⟨-, rfl⟩ := h
      have htail : tail = body ++ [] := by
        simpa [source] using hsource.symm
      rw [htail]
      exact head?_append_ne hbody.1 (by simp)

/-- Where braces stand around placeholders only, literal text ends where it has to. -/
theorem literal_unique {text text' : List Char} {rest rest' : List Segment}
    (h : Alternating (.literal text :: rest)) (h' : Alternating (.literal text' :: rest'))
    (htext : '\x7b' ∉ text) (hrest : ∀ segment ∈ rest, segment.Braceless)
    (hsource : text' ++ rest'.flatMap source = text ++ rest.flatMap source) :
    text' = text ∧ rest'.flatMap source = rest.flatMap source := by
  obtain ⟨-, -, hlong, halternating⟩ := h
  obtain ⟨-, hfree', hlong', -⟩ := h'
  rcases List.append_eq_append_iff.1 hsource with ⟨u, hu, hmore⟩ | ⟨u, hu, hmore⟩
  · cases u with
    | nil => exact ⟨by rw [hu, List.append_nil], hmore⟩
    | cons d u =>
      -- the other text ends early, before a character that opens nothing
      obtain rfl := eq_open_of_cons hlong' hmore
      exact absurd (by rw [hu]; simp) htext
  · match u, hu, hmore with
    | [], hu, hmore => exact ⟨by rw [hu, List.append_nil], hmore.symm⟩
    | [d], hu, hmore =>
      -- the other text takes one of the braces: then a third one follows
      obtain rfl := eq_open_of_cons hlong hmore
      obtain ⟨tail, htail⟩ := opens_twice hlong hmore
      obtain ⟨more, rfl⟩ := opens_twice hlong' htail
      exact absurd rfl (third_ne halternating hrest hlong
        (hmore.trans (congrArg ('\x7b' :: ·) htail)))
    | d :: e :: u, hu, hmore =>
      -- or both
      obtain rfl := eq_open_of_cons hlong hmore
      obtain ⟨more, hbraces⟩ := opens_twice hlong hmore
      obtain ⟨rfl, -⟩ := List.cons.inj hbraces
      exact absurd ⟨text, u, by rw [hu]; simp⟩ hfree'

/-- And a placeholder ends at the first closing braces. -/
theorem body_unique {body body' tail' : List Char} (hbody : '\x7d' ∉ body)
    (hbody' : ¬ ['\x7d', '\x7d'] <:+: body') (htail : tail.head? ≠ some '\x7d')
    (hsource : body' ++ '\x7d' :: '\x7d' :: tail' = body ++ '\x7d' :: '\x7d' :: tail) :
    body' = body ∧ tail' = tail := by
  rcases List.append_eq_append_iff.1 hsource with ⟨u, hu, hmore⟩ | ⟨u, hu, hmore⟩
  · cases u with
    | nil =>
      rw [List.append_nil] at hu
      exact ⟨hu.symm, by simpa using hmore⟩
    | cons d u =>
      obtain ⟨rfl, -⟩ := List.cons.inj hmore
      exact absurd (by rw [hu]; simp) hbody
  · match u, hu, hmore with
    | [], hu, hmore => exact ⟨by rw [hu, List.append_nil], by simpa using hmore.symm⟩
    | [d], hu, hmore =>
      obtain ⟨-, hmore⟩ := List.cons.inj hmore
      obtain ⟨-, hmore⟩ := List.cons.inj hmore
      exact absurd (by rw [hmore]; rfl) htail
    | d :: e :: u, hu, hmore =>
      obtain ⟨rfl, hsecond⟩ := List.cons.inj hmore
      obtain ⟨rfl, -⟩ := List.cons.inj hsecond
      exact absurd ⟨body, u, by rw [hu]; simp⟩ hbody'

/-- Segments without braces in their text do not start with a closing one. -/
theorem head?_ne_close {segments : List Segment} (h : Alternating segments)
    (hbraceless : ∀ segment ∈ segments, segment.Braceless) :
    (segments.flatMap source).head? ≠ some '\x7d' := by
  cases segments with
  | nil => simp
  | cons segment rest =>
    cases segment with
    | literal text =>
      obtain ⟨c, text, rfl⟩ := List.exists_cons_of_ne_nil h.1
      rintro hhead
      obtain rfl : c = '\x7d' := by simpa [source] using hhead
      exact (hbraceless _ List.mem_cons_self).2 List.mem_cons_self
    | placeholder body => simp [source]
    | unclosed body => simp [source]

/-- Where braces stand around placeholders only, there is one way to put the template together. -/
theorem unique_of_braceless {segments segments' : List Segment} (h : Alternating segments)
    (hbraceless : ∀ segment ∈ segments, segment.Braceless) (h' : Alternating segments')
    (hsource : segments'.flatMap source = segments.flatMap source) : segments' = segments := by
  induction segments generalizing segments' with
  | nil =>
    cases segments' with
    | nil => rfl
    | cons segment rest =>
      cases segment with
      | literal text => exact absurd (List.append_eq_nil_iff.1 hsource).1 h'.1
      | placeholder body => cases hsource
      | unclosed body => cases hsource
  | cons segment rest ih =>
    have hself := hbraceless segment List.mem_cons_self
    have hrest := fun s hs => hbraceless s (List.mem_cons_of_mem segment hs)
    cases segment with
    | literal text =>
      cases segments' with
      | nil => exact absurd (List.append_eq_nil_iff.1 hsource.symm).1 h.1
      | cons segment' rest' =>
      cases segment' with
      | literal text' =>
        obtain ⟨rfl, htails⟩ := literal_unique h h' hself.1 hrest (by simpa [source] using hsource)
        rw [ih h.2.2.2 hrest h'.2.2.2 htails]
      | placeholder body =>
        obtain ⟨c, text, rfl⟩ := List.exists_cons_of_ne_nil h.1
        obtain ⟨rfl, -⟩ := List.cons.inj hsource
        exact absurd List.mem_cons_self hself.1
      | unclosed body =>
        obtain ⟨c, text, rfl⟩ := List.exists_cons_of_ne_nil h.1
        obtain ⟨rfl, -⟩ := List.cons.inj hsource
        exact absurd List.mem_cons_self hself.1
    | placeholder body =>
      cases segments' with
      | nil => cases hsource
      | cons segment' rest' =>
      cases segment' with
      | literal text' =>
        exact (not_literal_of_opens h' (by simpa [source] using hsource)
          (head?_append_ne hself.1 (by simp))).elim
      | placeholder body' =>
        obtain ⟨rfl, htails⟩ := body_unique hself.2 h'.1 (head?_ne_close h.2 hrest)
          (by simpa [source] using hsource)
        rw [ih h.2 hrest h'.2 htails]
      | unclosed body' =>
        obtain ⟨hfree, rfl⟩ := h'
        have hbody : body' = body ++ (['\x7d', '\x7d'] ++ rest.flatMap source) := by
          simpa [source] using hsource
        exact absurd ⟨body, rest.flatMap source, by rw [hbody]; simp⟩ hfree
    | unclosed body =>
      obtain ⟨-, rfl⟩ := h
      cases segments' with
      | nil => cases hsource
      | cons segment' rest' =>
      cases segment' with
      | literal text' =>
        exact (not_literal_of_opens h' (by simpa [source] using hsource)
          (by simpa using head?_append_ne hself.1 (by simp : ([] : List Char).head? ≠ _))).elim
      | placeholder body' =>
        have hbody : body' ++ ('\x7d' :: '\x7d' :: rest'.flatMap source) = body := by
          simpa [source] using hsource
        exact absurd (by rw [← hbody]; simp) hself.2
      | unclosed body' =>
        obtain ⟨-, rfl⟩ := h'
        have hbody : body' = body := by simpa [source] using hsource
        rw [hbody]

end Segment

/-- A template that is put together from literal text and placeholders in one way only is rendered
as the literal text with the values in place of the placeholders, and fails exactly if a placeholder
is unclosed, empty or names a missing argument. -/
theorem renderBytes_single_pass (toJsonText : Json → String) (template : String)
    (segments : List Segment) (fields : List (String × Json))
    (hsegments : Segment.Decompose segments template.toList)
    (honly : ∀ segments', Segment.Decompose segments' template.toList → segments' = segments) :
    ((∃ e, renderBytes toJsonText template (.object fields) = .error e) ↔
      ∃ segment ∈ segments, segment.Fails fields) ∧
    ∀ rendered, renderBytes toJsonText template (.object fields) = .ok rendered →
      rendered.toList = segments.flatMap (Segment.inserted toJsonText fields) := by
  -- the segments that the cursor finds are the only ones
  obtain rfl := honly _ (decompose_segmentsOf_cut template.toList)
  have hrender : renderBytes toJsonText template (.object fields) =
      (renderWithBindings toJsonText (some fields) (cut none template.toList)).map
        String.ofList := by
    have hloop : renderBytes toJsonText template (.object fields) =
        renderFrom toJsonText (some fields) (utf8 template.toList) "" := rfl
    rw [hloop, renderFrom_utf8]
    simp only [String.empty_append]
  rw [hrender]
  rcases renderWithBindings_segmentsOf toJsonText fields (cut none template.toList) with
    ⟨⟨e, herror⟩, hfails⟩ | ⟨hok, hgood⟩
  · rw [herror]
    exact ⟨⟨fun _ => hfails, fun _ => ⟨e, rfl⟩⟩, fun rendered h => by cases h⟩
  · rw [hok]
    refine ⟨⟨?_, ?_⟩, fun rendered h => ?_⟩
    · rintro ⟨e, h⟩
      cases h
    · rintro ⟨segment, hmem, hfail⟩
      exact absurd hfail (hgood segment hmem)
    · cases h
      rw [String.toList_ofList]

/-- A value with braces of its own is inserted as it is. -/
theorem renderBytes_single_pass_bracesInValue :
    ∃ rendered, renderBytes (fun _ => "") "Hi \x7b\x7b who \x7d\x7d!"
        (.object [("who", .string "\x7b\x7bx\x7d\x7d")]) = .ok rendered ∧
      rendered.toList = "Hi \x7b\x7bx\x7d\x7d!".toList := by
  have hsegments : Segment.Alternating
      [.literal "Hi ".toList, .placeholder " who ".toList, .literal "!".toList] :=
    ⟨by decide, by decide, nofun, by decide, by decide, by decide, nofun, trivial⟩
  have hbraceless : ∀ segment ∈ [Segment.literal "Hi ".toList, .placeholder " who ".toList,
      .literal "!".toList], segment.Braceless := by
    simp [Segment.Braceless]
  have hsource : [Segment.literal "Hi ".toList, .placeholder " who ".toList,
      .literal "!".toList].flatMap Segment.source = "Hi \x7b\x7b who \x7d\x7d!".toList := by
    decide
  obtain ⟨herror, hok⟩ := renderBytes_single_pass (fun _ => "") _ _
    [("who", .string "\x7b\x7bx\x7d\x7d")] ⟨hsegments, hsource⟩ fun segments' h' =>
      Segment.unique_of_braceless hsegments hbraceless h'.1 (h'.2.trans hsource.symm)
  have hkey : placeholderKey " who ".toList = "who" := by decide +kernel
  cases hrender : renderBytes (fun _ => "") "Hi \x7b\x7b who \x7d\x7d!"
      (.object [("who", .string "\x7b\x7bx\x7d\x7d")]) with
  | ok rendered => exact ⟨rendered, rfl, hok rendered hrender⟩
  | error e =>
    obtain ⟨segment, hmem, hfail⟩ := herror.1 ⟨e, hrender⟩
    simp only [List.mem_cons, List.not_mem_nil, or_false] at hmem
    rcases hmem with rfl | rfl | rfl
    · exact hfail.elim
    · rw [Segment.Fails, hkey] at hfail
      simp at hfail
    · exact hfail.elim

end EasyNetDaemon.Eal
