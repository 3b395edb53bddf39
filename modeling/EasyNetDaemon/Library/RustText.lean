import Mathlib.Data.List.DropRight

/-!
# Text operations of the Rust standard library

The fragment of `str` that the daemon uses: trimming of Unicode white space, byte lengths, slicing
from a byte offset, and stripping of prefixes and suffixes. A string is read as its list of
characters; a byte offset counts the UTF-8 sizes of the characters before it, so a slice at an
offset inside a character fails, as `str::get` does.
-/

namespace EasyNetDaemon.Library.RustText

/-- The Unicode `White_Space` class, which `char::is_whitespace` tests. -/
def isWhitespace (c : Char) : Bool :=
  let n := c.toNat
  (0x09 ≤ n && n ≤ 0x0D) || n == 0x20 || n == 0x85 || n == 0xA0 || n == 0x1680 ||
    (0x2000 ≤ n && n ≤ 0x200A) || n == 0x2028 || n == 0x2029 || n == 0x202F || n == 0x205F ||
    n == 0x3000

/-- `str::trim` on characters. -/
def trimChars (cs : List Char) : List Char :=
  ((cs.dropWhile isWhitespace).reverse.dropWhile isWhitespace).reverse

/-- `str::trim`. -/
def trim (s : String) : String := String.ofList (trimChars s.toList)

/-- `s.trim().is_empty()`. -/
def isBlank (s : String) : Bool := (trimChars s.toList).isEmpty

/-- Length in UTF-8 bytes. -/
def byteLen : List Char → Nat
  | [] => 0
  | c :: cs => c.utf8Size + byteLen cs

/-- `str::get(n..)`: the rest of the string after `n` bytes, when `n` is a character boundary. -/
def getFrom : List Char → Nat → Option (List Char)
  | cs, 0 => some cs
  | [], _ + 1 => none
  | c :: cs, n + 1 => if n + 1 < c.utf8Size then none else getFrom cs (n + 1 - c.utf8Size)

/-- `str::strip_suffix`. -/
def stripSuffix (cs suffix : List Char) : Option (List Char) :=
  if suffix.isSuffixOf cs then some (cs.take (cs.length - suffix.length)) else none

/-- `str::strip_prefix` with a character pattern. -/
def stripPrefixChar (c : Char) : List Char → Option (List Char)
  | [] => none
  | d :: cs => if d = c then some cs else none

theorem byteLen_append (xs ys : List Char) : byteLen (xs ++ ys) = byteLen xs + byteLen ys := by
  induction xs with
  | nil => simp [byteLen]
  | cons c cs ih => simp only [List.cons_append, byteLen, ih, Nat.add_assoc]

/-- A successful slice splits the string at the offset. -/
theorem getFrom_eq_some {cs rest : List Char} {n : Nat} (h : getFrom cs n = some rest) :
    ∃ pre, cs = pre ++ rest ∧ byteLen pre = n := by
  induction cs generalizing n with
  | nil =>
    cases n with
    | zero =>
      simp only [getFrom, Option.some.injEq] at h
      subst h
      exact ⟨[], rfl, rfl⟩
    | succ n => simp [getFrom] at h
  | cons c cs ih =>
    cases n with
    | zero =>
      simp only [getFrom, Option.some.injEq] at h
      subst h
      exact ⟨[], rfl, rfl⟩
    | succ n =>
      simp only [getFrom] at h
      split at h
      · simp at h
      · rename_i hle
        obtain ⟨pre, hcs, hpre⟩ := ih h
        refine ⟨c :: pre, by rw [hcs]; rfl, ?_⟩
        simp only [byteLen, hpre]
        omega

/-- Slicing at the byte length of a prefix drops the prefix. -/
theorem getFrom_byteLen (pre rest : List Char) :
    getFrom (pre ++ rest) (byteLen pre) = some rest := by
  induction pre with
  | nil => cases rest <;> rfl
  | cons c cs ih =>
    have hc : 0 < c.utf8Size := Char.utf8Size_pos c
    obtain ⟨m, hm⟩ : ∃ m, byteLen (c :: cs) = m + 1 := ⟨byteLen (c :: cs) - 1, by
      simp only [byteLen]; omega⟩
    have hlt : ¬ m + 1 < c.utf8Size := by
      rw [← hm]
      simp only [byteLen]
      omega
    have hsub : m + 1 - c.utf8Size = byteLen cs := by
      rw [← hm]
      simp only [byteLen]
      omega
    rw [hm]
    simp only [List.cons_append, getFrom, hlt, if_false, hsub, ih]

/-! ## Stripping -/

theorem stripSuffix_eq_some_iff (cs suffix pre : List Char) :
    stripSuffix cs suffix = some pre ↔ cs = pre ++ suffix := by
  constructor
  · intro h
    simp only [stripSuffix] at h
    split at h
    · rename_i hs
      obtain ⟨front, rfl⟩ := List.isSuffixOf_iff_suffix.1 hs
      simp only [List.length_append, Nat.add_sub_cancel, List.take_left, Option.some.injEq] at h
      rw [h]
    · simp at h
  · rintro rfl
    have hs : suffix.isSuffixOf (pre ++ suffix) = true :=
      List.isSuffixOf_iff_suffix.2 ⟨pre, rfl⟩
    simp [stripSuffix, hs]

theorem stripPrefixChar_eq_some_iff (c : Char) (cs rest : List Char) :
    stripPrefixChar c cs = some rest ↔ cs = c :: rest := by
  cases cs with
  | nil => simp [stripPrefixChar]
  | cons d ds =>
    by_cases hd : d = c
    · simp [stripPrefixChar, hd]
    · simp [stripPrefixChar, hd]

end EasyNetDaemon.Library.RustText
