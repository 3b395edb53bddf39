import EasyNetDaemon.Files.FileAbilities
import EasyNetDaemon.Library.Utf8

/-!
# Reading text

`fs.read` with the encoding `utf8` takes at most `max_bytes` of a file, decodes them and cuts the
text into lines. The byte cap comes first: where it falls inside a character, what is left is no
text and the call fails.
-/

namespace EasyNetDaemon.Files

open Library

/-! ## What is to be returned -/

/-- The longest start of a text with at most `n` bytes. -/
structure LongestWithin (n : Nat) (text kept : List Char) : Prop where
  isPrefix : kept <+: text
  fits : (utf8 kept).length ≤ n
  longest : ∀ other, other <+: text → (utf8 other).length ≤ n → other <+: kept

/-- The lines of a text: each ends with its only line feed, the last one possibly without. -/
structure IsLines (lines : List (List Char)) (text : List Char) : Prop where
  flatten : lines.flatten = text
  nonempty : ∀ line ∈ lines, line ≠ []
  feed : ∀ line ∈ lines, '\n' ∉ line.dropLast
  ended : ∀ line ∈ lines.dropLast, line.getLast? = some '\n'

/-- The content is that of the lines from `offset` on, at most `limit` of them, of the longest start
that fits into the cap. -/
def ReadsExactly (text : List Char) (cap offset : Nat) (limit : Option Nat)
    (reply : Except String ReadReply) : Prop :=
  ∃ r kept lines, reply = .ok r ∧ LongestWithin cap text kept ∧ IsLines lines kept ∧
    r.content.toList =
      ((limit.elim (lines.drop (offset - 1)) fun l => (lines.drop (offset - 1)).take l).flatten) ∧
    (r.truncated = true ↔ cap < (utf8 text).length)

/-! ## Lines -/

theorem splitInclusive_eq_nil_iff {cs : List Char} : splitInclusive cs = [] ↔ cs = [] := by
  cases cs with
  | nil => simp [splitInclusive]
  | cons c cs =>
    simp only [splitInclusive, reduceCtorEq, iff_false]
    split
    · simp
    · split <;> simp

theorem isLines_splitInclusive (cs : List Char) : IsLines (splitInclusive cs) cs := by
  induction cs with
  | nil => exact ⟨rfl, by simp [splitInclusive], by simp [splitInclusive], by simp [splitInclusive]⟩
  | cons c cs ih =>
    obtain ⟨hflatten, hnonempty, hfeed, hended⟩ := ih
    rw [splitInclusive]
    split
    · next hc =>
      subst hc
      refine ⟨by rw [List.flatten_cons, hflatten]; rfl, ?_, ?_, ?_⟩
      · intro line hline
        rcases List.mem_cons.1 hline with rfl | hline
        · simp
        · exact hnonempty line hline
      · intro line hline
        rcases List.mem_cons.1 hline with rfl | hline
        · simp
        · exact hfeed line hline
      · intro line hline
        cases hsplit : splitInclusive cs with
        | nil => simp [hsplit] at hline
        | cons first rest =>
          rw [hsplit, List.dropLast_cons_cons] at hline
          rcases List.mem_cons.1 hline with rfl | hline
          · rfl
          · exact hended line (hsplit ▸ hline)
    · next hc =>
      split
      · next hsplit =>
        obtain rfl := splitInclusive_eq_nil_iff.1 hsplit
        refine ⟨rfl, by simp, by simp, by simp⟩
      · next first rest hsplit =>
        rw [hsplit] at hflatten hnonempty hfeed hended
        have hfirst := hnonempty first List.mem_cons_self
        refine ⟨by rw [← hflatten]; rfl, ?_, ?_, ?_⟩
        · intro line hline
          rcases List.mem_cons.1 hline with rfl | hline
          · simp
          · exact hnonempty line (List.mem_cons_of_mem _ hline)
        · intro line hline
          rcases List.mem_cons.1 hline with rfl | hline
          · rw [List.dropLast_cons_of_ne_nil hfirst, List.mem_cons, not_or]
            exact ⟨fun h => hc h.symm, hfeed first List.mem_cons_self⟩
          · exact hfeed line (List.mem_cons_of_mem _ hline)
        · intro line hline
          cases rest with
          | nil => simp at hline
          | cons second rest =>
            rw [List.dropLast_cons_cons] at hline hended
            rcases List.mem_cons.1 hline with rfl | hline
            · rw [List.getLast?_cons_of_ne_nil hfirst]
              exact hended first List.mem_cons_self
            · exact hended line (List.mem_cons_of_mem _ hline)

theorem sliceLines_eq (text : String) {offset : Nat} (hoffset : 1 ≤ offset) (limit : Option Nat) :
    (sliceLines text offset limit).toList =
      (limit.elim ((splitInclusive text.toList).drop (offset - 1))
      fun l => ((splitInclusive text.toList).drop (offset - 1)).take l).flatten := by
  rw [sliceLines, if_neg (by omega), String.toList_ofList]

/-! ## The cap -/

/-- The cap does not fall inside a character. -/
def CapAtBoundary (cap : Nat) (bytes : List UInt8) : Prop :=
  ∀ b, bytes[cap]? = some b → isContinuation b = false

theorem fromUtf8_eq_some_iff {bytes : List UInt8} {s : String} :
    fromUtf8 bytes = some s ↔ utf8 s.toList = bytes := by
  have hbytes : (⟨bytes.toArray⟩ : ByteArray) = bytes.toByteArray := by
    apply ByteArray.ext
    rw [List.data_toByteArray]
  rw [fromUtf8, hbytes, fromUTF8?_eq_some_iff]

/-- What a cap leaves of a text. -/
theorem longestWithin_of_take {text kept : List Char} {cap m : Nat} (hkept : kept = text.take m)
    (htake : (utf8 text).take cap = utf8 kept) : LongestWithin cap text kept := by
  have hfits : (utf8 kept).length = min cap (utf8 text).length := by
    rw [← htake, List.length_take]
  have hstart : kept <+: text := hkept ▸ List.take_prefix m text
  refine ⟨hstart, by omega, fun other hother hlength => ?_⟩
  rcases List.prefix_or_prefix_of_prefix hother hstart with h | ⟨more, rfl⟩
  · exact h
  · -- a longer start has more bytes than the cap, unless nothing is left
    obtain ⟨rest, hrest⟩ := hother
    have htotal : (utf8 text).length =
        (utf8 kept).length + (utf8 more).length + (utf8 rest).length := by
      rw [← hrest, utf8_append, utf8_append, List.length_append, List.length_append]
    rw [utf8_append, List.length_append] at hlength
    have hmore := length_le_length_utf8 more
    obtain rfl : more = [] := List.eq_nil_of_length_eq_zero (by omega)
    exact (List.append_nil kept).symm ▸ List.prefix_rfl

/-- The bytes that are decoded. -/
theorem captured_eq (bytes : List UInt8) (cap : Nat) :
    (if decide ((bytes.take (cap + 1)).length > cap) = true then (bytes.take (cap + 1)).take cap
      else bytes.take (cap + 1)) = bytes.take cap ∧
    (decide ((bytes.take (cap + 1)).length > cap) = true ↔ cap < bytes.length) := by
  simp only [List.length_take, decide_eq_true_eq]
  refine ⟨?_, by omega⟩
  split
  · rw [List.take_take, Nat.min_eq_left (by omega)]
  · rw [List.take_of_length_le (by omega), List.take_of_length_le (by omega)]

/-! ## The handler -/

section Handler

variable (env : FilesEnv) (t : FileTree FileAttributes)

/-- The arguments of a text read, which lead to a file with this text. -/
structure ReadsText (args : ReadArgs) (text : String) : Prop where
  encoding : args.encoding = some "utf8"
  cap_le : args.maxBytes.getD defaultReadMaxBytes ≤ readMaxBytesHardCap
  offset : ∀ o ∈ args.offsetLines, 1 ≤ o
  file : ∃ resolved loc attributes,
    resolveFilesystemPath env.plane t args.resourceRef .read = .ok resolved ∧
    isBlockedReadPath env t resolved.localPath = false ∧
    resolve env.plane.scope t resolved.localPath = .ok loc ∧
    t.entry loc = some (.file attributes (utf8 text.toList))

variable {env t}

theorem handlerRead_eq {args : ReadArgs} {text : String} (h : ReadsText env t args text) :
    ∃ pathLabel attributes,
      handlerRead env t args = readReply env args pathLabel attributes (utf8 text.toList) := by
  obtain ⟨hencoding, hcap, -, resolved, loc, attributes, hresolved, hblocked, hloc, hfile⟩ := h
  refine ⟨resolved.displayPath, attributes, ?_⟩
  have hbail : decide (args.maxBytes.getD defaultReadMaxBytes > readMaxBytesHardCap) = false :=
    decide_eq_false (Nat.not_lt.2 hcap)
  simp [handlerRead, bailIf, hbail, hencoding, hresolved, hblocked, hloc, hfile, bind, Except.bind,
    Except.mapError]

/-- A text read is exact exactly if the cap does not fall inside a character. -/
theorem handlerRead_exact_iff {args : ReadArgs} {text : String} (h : ReadsText env t args text) :
    ReadsExactly text.toList (args.maxBytes.getD defaultReadMaxBytes) (args.offsetLines.getD 1)
        args.limitLines (handlerRead env t args) ↔
      CapAtBoundary (args.maxBytes.getD defaultReadMaxBytes) (utf8 text.toList) := by
  obtain ⟨pathLabel, attributes, hread⟩ := handlerRead_eq h
  generalize hn : args.maxBytes.getD defaultReadMaxBytes = cap at *
  have hoffset : 1 ≤ args.offsetLines.getD 1 := by
    cases hargs : args.offsetLines with
    | none => exact Nat.le_refl 1
    | some o => exact h.offset o hargs
  obtain ⟨hcontent, htruncated⟩ := captured_eq (utf8 text.toList) cap
  rw [hread, readReply]
  simp only [hn, h.encoding, Option.getD_some, if_true, hcontent]
  constructor
  · rintro ⟨r, kept, lines, hr, -⟩ b hb
    by_contra hcont
    cases hdecode : fromUtf8 ((utf8 text.toList).take cap) with
    | none =>
      rw [hdecode] at hr
      cases hr
    | some s =>
      exact take_utf8_ne hb (by simpa using hcont) (fromUtf8_eq_some_iff.1 hdecode)
  · intro hboundary
    obtain ⟨m, hm⟩ := exists_take_utf8 hboundary
    have hdecode :
        fromUtf8 ((utf8 text.toList).take cap) = some (String.ofList (text.toList.take m)) :=
      fromUtf8_eq_some_iff.2 (by rw [String.toList_ofList, hm])
    rw [hdecode]
    dsimp only
    split
    · refine ⟨_, text.toList.take m, splitInclusive (text.toList.take m), rfl,
        longestWithin_of_take rfl hm, isLines_splitInclusive _, ?_, htruncated⟩
      rw [sliceLines_eq _ hoffset, String.toList_ofList]
    · next hnone =>
      -- without line arguments all lines are returned
      refine ⟨_, text.toList.take m, splitInclusive (text.toList.take m), rfl,
        longestWithin_of_take rfl hm, isLines_splitInclusive _, ?_, htruncated⟩
      simp only [Bool.not_eq_true, Bool.or_eq_false_iff, Option.isSome_eq_false_iff,
        Option.isNone_iff_eq_none] at hnone
      rw [hnone.1, hnone.2, String.toList_ofList]
      exact (isLines_splitInclusive _).flatten.symm

end Handler

/-! ## A file to read -/

def sampleAttributes : FileAttributes := ⟨420, some 1000⟩

/-- The parser's answer on the resource URAs of the sample device. -/
def sampleParseUra (ura : String) : Except String ResourceUra :=
  let owner := "easynet:///r/acme/resource/device.d1/"
  if owner.toList.isPrefixOf ura.toList then
    .ok ⟨.resource, "acme", some "device.d1", some (String.ofList (ura.toList.drop owner.length))⟩
  else .error "unknown URA"

/-- A device with the root `tmp`. -/
def samplePlane : ResourcePlane where
  parseUra := sampleParseUra
  deviceUra realm device := "easynet:///r/" ++ realm ++ "/device/" ++ device
  uraKindText _ := "resource"
  ownerUra := "easynet:///r/acme/device/d1"
  nowUnixMs := 1000
  scope := {}
  currentDir := none
  tempDir := .ofString "/srv/root"
  homeDir := .ofString "/srv"

def sampleFilesEnv : FilesEnv where
  plane := samplePlane
  base64Encode _ := ""
  sha256Hex _ := ""

/-- A reference below `tmp`. -/
def sampleRef (path : String) : FilesystemResourceRef where
  resourceUra := "easynet:///r/acme/resource/device.d1/fs/tmp/" ++ path
  ownerUra := "easynet:///r/acme/device/d1"
  resourceNamespace := "fs"
  capability := .write
  expiresUnixMs := 2000
  revision := "fs-local-mapping-v1"

/-- A directory with one file, of the bytes `61 0a c3 a9 0a`. -/
def textTree : FileTree FileAttributes :=
  .ofTable sampleAttributes
    [(["srv"], .dir sampleAttributes), (["srv", "root"], .dir sampleAttributes),
      (["srv", "root", "c"], .file sampleAttributes (utf8 ['a', '\n', 'é', '\n']))] (by decide)

/-- A read of the file `c`. -/
def textRead (maxBytes : Nat) (offsetLines : Option Nat) : ReadArgs where
  resourceRef := .given (sampleRef "c")
  maxBytes := some maxBytes
  encoding := some "utf8"
  offsetLines

theorem readsText_textTree {maxBytes : Nat} {offsetLines : Option Nat}
    (hmax : maxBytes ≤ readMaxBytesHardCap) (hoffset : ∀ o ∈ offsetLines, 1 ≤ o) :
    ReadsText sampleFilesEnv textTree (textRead maxBytes offsetLines) "a\né\n" := by
  have hresolved : ((resolveFilesystemPath sampleFilesEnv.plane textTree (.given (sampleRef "c"))
      .read).toOption.any fun resolved => resolved.localPath = .ofString "/srv/root/c") = true := by
    decide +kernel
  obtain ⟨resolved, hok, hpath⟩ := exists_ok_of_any hresolved
  have hpath : resolved.localPath = .ofString "/srv/root/c" := by simpa using hpath
  refine ⟨rfl, hmax, hoffset, resolved, ["srv", "root", "c"], sampleAttributes, hok, ?_, ?_, ?_⟩
  · rw [hpath]
    decide +kernel
  · rw [hpath]
    decide +kernel
  · decide +kernel

/-- The cap of four bytes ends behind the second character of the second line. -/
theorem handlerRead_exact_iff_secondLine :
    ReadsExactly "a\né\n".toList 4 2 none
      (handlerRead sampleFilesEnv textTree (textRead 4 (some 2))) :=
  (handlerRead_exact_iff (readsText_textTree (by decide) (by simp))).2 (by
    intro b hb
    have hbyte : (utf8 "a\né\n".toList)[4]? = some 10 := by decide +kernel
    cases hb.symm.trans hbyte
    decide)

/-- With a cap of three bytes, inside of the character, the read fails. -/
theorem read_fails_inside_character :
    (handlerRead sampleFilesEnv textTree (textRead 3 none)).isOk = false ∧
      ¬ ReadsExactly "a\né\n".toList 3 1 none
        (handlerRead sampleFilesEnv textTree (textRead 3 none)) := by
  have hfails : (handlerRead sampleFilesEnv textTree (textRead 3 none)).isOk = false := by
    decide +kernel
  refine ⟨hfails, ?_⟩
  rintro ⟨r, kept, lines, hr, -⟩
  rw [hr] at hfails
  cases hfails

end EasyNetDaemon.Files
