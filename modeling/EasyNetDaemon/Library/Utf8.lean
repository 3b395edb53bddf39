import Mathlib.Data.List.Basic
import Mathlib.Data.List.TakeWhile

/-!
# Text and its bytes

A text as a program that works on bytes sees it. An ASCII character is one byte, its number; every
byte of another character is at least 128 (`encode_ascii`, `le_of_mem_encode`). A program that tests
bytes for ASCII characters therefore reads a text as if it read its characters (`encode_of_test`).
-/

namespace EasyNetDaemon.Library

/-- The bytes of a text. -/
def utf8 (cs : List Char) : List UInt8 := cs.flatMap String.utf8EncodeChar

/-- A byte as a character of its own, `b as char`. -/
def byteChar (b : UInt8) : Char := Char.ofNat b.toNat

@[simp] theorem utf8_nil : utf8 [] = [] := rfl

@[simp] theorem utf8_cons (c : Char) (cs : List Char) :
    utf8 (c :: cs) = String.utf8EncodeChar c ++ utf8 cs :=
  List.flatMap_cons

@[simp] theorem utf8_append (cs ds : List Char) : utf8 (cs ++ ds) = utf8 cs ++ utf8 ds :=
  List.flatMap_append

theorem toByteArray_utf8 (cs : List Char) :
    (utf8 cs).toByteArray = (String.ofList cs).toByteArray :=
  String.toByteArray_ofList.symm

/-- Different texts have different bytes. -/
theorem utf8_injective {cs ds : List Char} (h : utf8 cs = utf8 ds) : cs = ds := by
  have hbytes : (String.ofList cs).toByteArray = (String.ofList ds).toByteArray := by
    rw [← toByteArray_utf8, ← toByteArray_utf8, h]
  exact String.ofList_injective (String.toByteArray_inj.1 hbytes)

/-! ## ASCII -/

variable {c : Char} {b : UInt8}

theorem encode_ascii (h : c.toNat < 128) :
    String.utf8EncodeChar c = [UInt8.ofNat c.toNat] :=
  if_pos (Nat.le_of_lt_succ h)

theorem le_of_mem_encode (h : 128 ≤ c.toNat) (hb : b ∈ String.utf8EncodeChar c) :
    128 ≤ b.toNat := by
  have hc : ¬ c.val.toNat ≤ 127 := Nat.not_le.2 h
  simp only [String.utf8EncodeChar, if_neg hc] at hb
  split at hb
  · simp only [List.mem_cons, List.not_mem_nil, or_false] at hb
    obtain rfl | rfl := hb <;> rw [UInt8.toNat_ofNat'] <;> omega
  · split at hb
    · simp only [List.mem_cons, List.not_mem_nil, or_false] at hb
      obtain rfl | rfl | rfl := hb <;> rw [UInt8.toNat_ofNat'] <;> omega
    · simp only [List.mem_cons, List.not_mem_nil, or_false] at hb
      obtain rfl | rfl | rfl | rfl := hb <;> rw [UInt8.toNat_ofNat'] <;> omega

theorem encode_ne_nil (c : Char) : String.utf8EncodeChar c ≠ [] := by
  unfold String.utf8EncodeChar
  dsimp only
  split_ifs <;> exact List.cons_ne_nil _ _

theorem length_le_length_utf8 (cs : List Char) : cs.length ≤ (utf8 cs).length := by
  induction cs with
  | nil => exact Nat.le_refl 0
  | cons c cs ih =>
    have hpos := List.length_pos_iff.2 (encode_ne_nil c)
    rw [utf8_cons, List.length_append, List.length_cons]
    omega

theorem byteChar_ofNat (h : c.toNat < 128) : byteChar (UInt8.ofNat c.toNat) = c := by
  rw [byteChar, UInt8.toNat_ofNat_of_lt' (Nat.lt_trans h (by decide)), Char.ofNat_toNat]

theorem toNat_byteChar (b : UInt8) : (byteChar b).toNat = b.toNat := by
  have hb := b.toNat_lt
  have hvalid : b.toNat.isValidChar := .inl (by omega)
  rw [byteChar, Char.ofNat, dif_pos hvalid]
  rfl

/-- A character that passes a test for ASCII characters is one byte that passes it. -/
theorem encode_of_test {q : Char → Bool} (hq : ∀ c, 128 ≤ c.toNat → q c = false) (hc : q c = true) :
    ∃ b, String.utf8EncodeChar c = [b] ∧ byteChar b = c := by
  have hascii : c.toNat < 128 := by
    by_contra h
    cases (hq c (Nat.le_of_not_lt h)).symm.trans hc
  exact ⟨_, encode_ascii hascii, byteChar_ofNat hascii⟩

/-- The first byte of a text, as far as tests for ASCII characters see it. -/
theorem utf8_cons_eq (c : Char) (cs : List Char) :
    ∃ b rest, utf8 (c :: cs) = b :: rest ∧
      ((c.toNat < 128 ∧ byteChar b = c ∧ rest = utf8 cs) ∨
        (128 ≤ c.toNat ∧ 128 ≤ (byteChar b).toNat)) := by
  by_cases hascii : c.toNat < 128
  · refine ⟨_, _, ?_, .inl ⟨hascii, byteChar_ofNat hascii, rfl⟩⟩
    rw [utf8_cons, encode_ascii hascii]
    rfl
  · have hhigh := Nat.le_of_not_lt hascii
    obtain ⟨b, rest, hb⟩ := List.exists_cons_of_ne_nil (encode_ne_nil c)
    refine ⟨b, rest ++ utf8 cs, by rw [utf8_cons, hb, List.cons_append], .inr ⟨hhigh, ?_⟩⟩
    rw [toNat_byteChar]
    exact le_of_mem_encode hhigh (hb ▸ List.mem_cons_self)

/-! ## Character boundaries -/

/-- A byte inside a character: no boundary stands before it. -/
def isContinuation (b : UInt8) : Bool := 128 ≤ b.toNat && b.toNat < 192

/-- A character is one byte and continuation bytes. -/
theorem encode_eq_cons (c : Char) : ∃ b tail, String.utf8EncodeChar c = b :: tail ∧
    isContinuation b = false ∧ ∀ x ∈ tail, isContinuation x = true := by
  have hcont (n : Nat) : isContinuation (UInt8.ofNat (n % 64 + 128)) = true := by
    simp only [isContinuation, UInt8.toNat_ofNat', Bool.and_eq_true, decide_eq_true_eq]
    omega
  have hlead (n : Nat) (h : n < 128 ∨ 192 ≤ n ∧ n < 256) :
      isContinuation (UInt8.ofNat n) = false := by
    simp only [isContinuation, UInt8.toNat_ofNat', Bool.and_eq_false_iff, decide_eq_false_iff_not]
    omega
  unfold String.utf8EncodeChar
  dsimp only
  split_ifs with h₁ h₂ h₃
  · exact ⟨_, _, rfl, hlead _ (by omega), by simp⟩
  · exact ⟨_, _, rfl, hlead _ (by omega), by
    simp only [List.mem_cons, List.not_mem_nil, or_false, forall_eq, hcont]⟩
  · exact ⟨_, _, rfl, hlead _ (by omega), by
    simp only [List.mem_cons, List.not_mem_nil, or_false, forall_eq_or_imp, forall_eq, hcont,
      and_self]⟩
  · exact ⟨_, _, rfl, hlead _ (by omega), by
    simp only [List.mem_cons, List.not_mem_nil, or_false, forall_eq_or_imp, forall_eq, hcont,
      and_self]⟩

/-- Text starts with no continuation byte. -/
theorem takeWhile_isContinuation_utf8 (cs : List Char) :
    (utf8 cs).takeWhile isContinuation = [] := by
  cases cs with
  | nil => rfl
  | cons c cs =>
    obtain ⟨b, tail, hc, hb, -⟩ := encode_eq_cons c
    rw [utf8_cons, hc, List.cons_append, List.takeWhile_cons_of_neg (by simp [hb])]

/-- The length of a character, given by its first byte. -/
def leadLength (b : UInt8) : Nat :=
  if b.toNat < 128 then 1 else if b.toNat < 224 then 2 else if b.toNat < 240 then 3 else 4

theorem length_encode {tail : List UInt8} (h : String.utf8EncodeChar c = b :: tail) :
    (b :: tail).length = leadLength b := by
  unfold String.utf8EncodeChar at h
  dsimp only at h
  split_ifs at h with h₁ h₂ h₃ <;> cases h <;>
    simp only [leadLength, UInt8.toNat_ofNat', List.length_cons, List.length_nil] <;>
    split_ifs <;> omega

/-- Bytes up to a boundary are the bytes of the characters up to it. -/
theorem exists_take_utf8 {cs : List Char} {n : Nat}
    (h : ∀ b, (utf8 cs)[n]? = some b → isContinuation b = false) :
    ∃ m, (utf8 cs).take n = utf8 (cs.take m) := by
  induction cs generalizing n with
  | nil => exact ⟨0, by simp⟩
  | cons c cs ih =>
    obtain ⟨b, tail, hc, -, htail⟩ := encode_eq_cons c
    rw [utf8_cons, hc] at h ⊢
    rcases Nat.eq_zero_or_pos n with rfl | hpos
    · exact ⟨0, by simp⟩
    rcases Nat.lt_or_ge n (b :: tail).length with hlt | hge
    · -- the cut would be inside the first character
      obtain ⟨k, rfl⟩ : ∃ k, n = k + 1 := ⟨n - 1, by omega⟩
      rw [List.length_cons, Nat.add_lt_add_iff_right] at hlt
      have hbyte : (b :: tail ++ utf8 cs)[k + 1]? = some tail[k] := by
        rw [List.cons_append, List.getElem?_cons_succ, List.getElem?_append_left hlt,
          List.getElem?_eq_getElem hlt]
      cases (htail _ (List.getElem_mem hlt)).symm.trans (h _ hbyte)
    · obtain ⟨m, hm⟩ := @ih (n - (b :: tail).length) (by
        intro x hx
        apply h x
        rw [List.getElem?_append_right hge]
        exact hx)
      refine ⟨m + 1, ?_⟩
      rw [List.take_append, List.take_of_length_le hge, hm, List.take_succ_cons, utf8_cons, hc]

/-- Bytes that are cut inside a character are no text. -/
theorem take_utf8_ne {cs kept : List Char} {n : Nat} (hb : (utf8 cs)[n]? = some b)
    (hcont : isContinuation b = true) : utf8 kept ≠ (utf8 cs).take n := by
  induction cs generalizing kept n with
  | nil => simp at hb
  | cons c cs ih =>
    obtain ⟨lead, tail, hc, hlead, -⟩ := encode_eq_cons c
    rw [utf8_cons, hc] at hb ⊢
    intro hkept
    have hpos : 0 < n := by
      rcases Nat.eq_zero_or_pos n with rfl | hpos
      · rw [List.cons_append, List.getElem?_cons_zero] at hb
        cases hb
        cases hlead.symm.trans hcont
      · exact hpos
    -- what is kept starts with a character of the same first byte, hence of the same length
    obtain ⟨k, rfl⟩ : ∃ k, n = k + 1 := ⟨n - 1, by omega⟩
    cases kept with
    | nil => simp at hkept
    | cons d kept =>
      obtain ⟨lead', tail', hd, -, -⟩ := encode_eq_cons d
      rw [utf8_cons, hd, List.cons_append, List.cons_append, List.take_succ_cons] at hkept
      obtain ⟨rfl, htails⟩ := List.cons.inj hkept
      have hlength : tail'.length = tail.length := by
        have h₁ := length_encode hc
        have h₂ := length_encode hd
        simp only [List.length_cons] at h₁ h₂
        omega
      rcases Nat.lt_or_ge k tail.length with hlt | hge
      · have := congrArg List.length htails
        simp only [List.length_append, List.length_take] at this
        omega
      · rw [List.take_append, List.take_of_length_le hge] at htails
        have hrest := (List.append_inj htails hlength).2
        refine ih ?_ hrest
        rw [List.cons_append, List.getElem?_cons_succ, List.getElem?_append_right hge] at hb
        exact hb

/-! ## Back to text -/

/-- Bytes are read as the text that they are the encoding of. -/
theorem fromUTF8?_eq_some_iff {bytes : List UInt8} {s : String} :
    String.fromUTF8? bytes.toByteArray = some s ↔ utf8 s.toList = bytes := by
  have hself (t : String) : (utf8 t.toList).toByteArray = t.toByteArray := by
    rw [toByteArray_utf8, String.ofList_toList]
  constructor
  · intro h
    unfold String.fromUTF8? at h
    split at h
    · cases h
      exact List.toByteArray_inj.1 (hself _)
    · cases h
  · intro h
    have hvalid : bytes.toByteArray.IsValidUTF8 := by
      rw [← h, hself]
      exact s.isValidUTF8
    rw [String.fromUTF8?, dif_pos hvalid, Option.some.injEq]
    apply String.toByteArray_inj.1
    rw [← hself s, h]
    rfl

end EasyNetDaemon.Library
