import EasyNetDaemon.Library.BigEndian
import EasyNetDaemon.Library.Fallible
import EasyNetDaemon.Library.Utf8

/-!
# Input frames of a carrier

The model of the binary codec in `bidi/session_wire`: a frame of a remote stream's input is a header
of 16 bytes, a content type and a payload. Frames share their channel with JSON documents
(`SessionDispatch`), and are told from them by the magic.
-/

namespace EasyNetDaemon.Bidi

open Library

/-! ## The codec -/

/-- `CARRIER_BIDI_INPUT_MAGIC`, the text `EBI1`. -/
def carrierBidiInputMagic : List UInt8 := [0x45, 0x42, 0x49, 0x31]

/-- The length of the fixed header. -/
def carrierBidiInputHeaderBytes : Nat := 16

/-- The flag of the last frame. -/
def carrierBidiInputEof : UInt8 := 0x01

/-- The bound on the content type. -/
def maxCarrierBidiContentTypeBytes : Nat := 1024

/-- A frame that starts with the magic. -/
def isCarrierBidiInput (frame : List UInt8) : Bool := carrierBidiInputMagic.isPrefixOf frame

/-- A decoded input frame. -/
structure CarrierBidiInput where
  callId : UInt64
  contentType : String
  payload : List UInt8
  eof : Bool
  deriving DecidableEq, Repr

/-- The header of an input frame. -/
structure CarrierBidiInputMetadata where
  callId : UInt64
  contentType : String
  payloadOffset : Nat
  eof : Bool

/-- An input frame of a call. -/
def encodeCarrierBidiInput (callId : UInt64) (contentType : String) (payload : List UInt8)
    (eof : Bool) : Except String (List UInt8) := do
  let contentType := utf8 contentType.toList
  bailIf (maxCarrierBidiContentTypeBytes < contentType.length)
    "carrier Bidi content type exceeds 1024 bytes"
  bailIf (2 ^ 16 ≤ contentType.length) "carrier Bidi content type length overflow"
  return carrierBidiInputMagic ++ ((if eof then carrierBidiInputEof else 0) :: 0 ::
    (u16Bytes (UInt16.ofNat contentType.length) ++ (u64Bytes callId ++ (contentType ++ payload))))

/-- `utf8Error` is the text of the error of `from_utf8`. -/
def decodeCarrierBidiInputMetadata (utf8Error : List UInt8 → String) (frame : List UInt8) :
    Except String (Option CarrierBidiInputMetadata) :=
  if isCarrierBidiInput frame then do
    bailIf (frame.length < carrierBidiInputHeaderBytes) "carrier Bidi input frame is truncated"
    let flags := frame.getD 4 0
    bailIf (!(flags &&& ~~~carrierBidiInputEof == 0 && frame.getD 5 0 == 0))
      "carrier Bidi input frame has unsupported flags"
    let contentLen := (u16OfBytes (slice frame 6 8)).toNat
    bailIf (!(contentLen ≤ maxCarrierBidiContentTypeBytes &&
        carrierBidiInputHeaderBytes + contentLen ≤ frame.length))
      "carrier Bidi input content type is invalid"
    let callId := u64OfBytes (slice frame 8 16)
    let contentEnd := carrierBidiInputHeaderBytes + contentLen
    let content := slice frame carrierBidiInputHeaderBytes contentEnd
    match String.fromUTF8? content.toByteArray with
    | none => .error ("carrier Bidi content type is not UTF-8: " ++ utf8Error content)
    | some contentType =>
      return some {
        callId
        contentType
        payloadOffset := contentEnd
        eof := flags &&& carrierBidiInputEof != 0 }
  else .ok none

/-- An input frame, read back. -/
def decodeCarrierBidiInput (utf8Error : List UInt8 → String) (frame : List UInt8) :
    Except String (Option CarrierBidiInput) := do
  match ← decodeCarrierBidiInputMetadata utf8Error frame with
  | none => return none
  | some metadata => return some {
      callId := metadata.callId
      contentType := metadata.contentType
      payload := frame.drop metadata.payloadOffset
      eof := metadata.eof }

/-! ## JSON documents on the same channel -/

/-- The white space of JSON. -/
def isJsonWhitespace (b : UInt8) : Bool := b == 0x20 || b == 0x09 || b == 0x0a || b == 0x0d

/-- The first byte of a JSON value: of a literal, a number, a string, an array or an object. -/
def startsJsonValue (b : UInt8) : Bool :=
  b == 0x6e || b == 0x74 || b == 0x66 || b == 0x2d || (0x30 ≤ b && b ≤ 0x39) || b == 0x22 ||
    b == 0x5b || b == 0x7b

/-- `SessionDispatch::decode_frame`, which is `serde_json::from_slice`: a value behind white space;
`readValue` reads it as a `SessionDispatch` once its first byte is that of a value. -/
def decodeFrame {D : Type} (readValue : List UInt8 → Option D) (bytes : List UInt8) : Option D :=
  match bytes.dropWhile isJsonWhitespace with
  | [] => none
  | b :: rest => if startsJsonValue b then readValue (b :: rest) else none

/-- Nothing that begins with the magic is a document. -/
theorem decodeFrame_magic {D : Type} (readValue : List UInt8 → Option D) (rest : List UInt8) :
    decodeFrame readValue (carrierBidiInputMagic ++ rest) = none := rfl

/-! ## Frames -/

/-- The bytes of a frame. -/
def CarrierBidiInput.frame (input : CarrierBidiInput) : List UInt8 :=
  carrierBidiInputMagic ++ ((if input.eof then carrierBidiInputEof else 0) :: 0 ::
    (u16Bytes (UInt16.ofNat (utf8 input.contentType.toList).length) ++ (u64Bytes input.callId ++
      (utf8 input.contentType.toList ++ input.payload))))

theorem encodeCarrierBidiInput_eq_ok_iff {input : CarrierBidiInput} {frame : List UInt8} :
    encodeCarrierBidiInput input.callId input.contentType input.payload input.eof = .ok frame ↔
      (utf8 input.contentType.toList).length ≤ maxCarrierBidiContentTypeBytes ∧
        frame = input.frame := by
  have hmax : maxCarrierBidiContentTypeBytes = 1024 := rfl
  simp only [encodeCarrierBidiInput, check_bind_eq_ok_iff, bailIf_eq_ok_iff,
    decide_eq_false_iff_not, CarrierBidiInput.frame, pure, Except.pure, Except.ok.injEq]
  constructor
  · rintro ⟨hlength, -, rfl⟩
    exact ⟨by omega, rfl⟩
  · rintro ⟨hlength, rfl⟩
    exact ⟨by omega, by omega, rfl⟩

/-- The ranges of a frame. -/
theorem CarrierBidiInput.frame_ranges (input : CarrierBidiInput)
    (h : (utf8 input.contentType.toList).length ≤ maxCarrierBidiContentTypeBytes) :
    isCarrierBidiInput input.frame = true ∧
    input.frame.length = 16 + (utf8 input.contentType.toList).length + input.payload.length ∧
    input.frame.getD 4 0 = (if input.eof then carrierBidiInputEof else 0) ∧
    input.frame.getD 5 0 = 0 ∧
    (u16OfBytes (slice input.frame 6 8)).toNat = (utf8 input.contentType.toList).length ∧
    u64OfBytes (slice input.frame 8 16) = input.callId ∧
    input.frame.drop 16 = utf8 input.contentType.toList ++ input.payload := by
  have hmax : maxCarrierBidiContentTypeBytes = 1024 := rfl
  have hlen : (UInt16.ofNat (utf8 input.contentType.toList).length).toNat =
      (utf8 input.contentType.toList).length := UInt16.toNat_ofNat_of_lt' (by
    have : UInt16.size = 65536 := rfl
    omega)
  have hu16 := u16OfBytes_u16Bytes (UInt16.ofNat (utf8 input.contentType.toList).length)
  have hu64 := u64OfBytes_u64Bytes input.callId
  obtain ⟨a, b, hab⟩ := u16Bytes_eq_cons (UInt16.ofNat (utf8 input.contentType.toList).length)
  obtain ⟨c₀, c₁, c₂, c₃, c₄, c₅, c₆, c₇, hc⟩ := u64Bytes_eq_cons input.callId
  rw [hab] at hu16
  rw [hc] at hu64
  have hframe : input.frame = 0x45 :: 0x42 :: 0x49 :: 0x31 ::
      (if input.eof then carrierBidiInputEof else 0) :: 0 :: a :: b :: c₀ :: c₁ :: c₂ :: c₃ ::
        c₄ :: c₅ :: c₆ :: c₇ :: (utf8 input.contentType.toList ++ input.payload) := by
    rw [CarrierBidiInput.frame, hab, hc]
    rfl
  rw [hframe]
  refine ⟨rfl, ?_, rfl, rfl, ?_, hu64, rfl⟩
  · simp only [List.length_cons, List.length_append]
    omega
  · exact (congrArg UInt16.toNat hu16).trans hlen

theorem decodeCarrierBidiInput_frame (utf8Error : List UInt8 → String) (input : CarrierBidiInput)
    (h : (utf8 input.contentType.toList).length ≤ maxCarrierBidiContentTypeBytes) :
    decodeCarrierBidiInput utf8Error input.frame = .ok (some input) := by
  obtain ⟨hmagic, hlength, hflags, hreserved, hlen, hid, hrest⟩ := input.frame_ranges h
  have hcontent : slice input.frame 16 (16 + (utf8 input.contentType.toList).length) =
      utf8 input.contentType.toList := by
    rw [slice, hrest, Nat.add_sub_cancel_left, List.take_left]
  have hpayload : input.frame.drop (16 + (utf8 input.contentType.toList).length) =
      input.payload := by
    rw [← List.drop_drop, hrest, List.drop_left]
  have hread : String.fromUTF8? (utf8 input.contentType.toList).toByteArray =
      some input.contentType := fromUTF8?_eq_some_iff.2 rfl
  have hflag : ∀ eof : Bool,
      ((if eof then carrierBidiInputEof else 0) &&& ~~~carrierBidiInputEof == 0) = true ∧
        ((if eof then carrierBidiInputEof else 0) &&& carrierBidiInputEof != 0) = eof := by
    decide
  refine bind_eq_ok_iff.2 ⟨some ⟨input.callId, input.contentType,
    16 + (utf8 input.contentType.toList).length, input.eof⟩, ?_, ?_⟩
  · rw [decodeCarrierBidiInputMetadata, if_pos hmagic, hflags, hreserved, hlen, hid]
    refine check_bind_eq_ok_iff.2 ⟨?_, check_bind_eq_ok_iff.2 ⟨?_, check_bind_eq_ok_iff.2 ⟨?_, ?_⟩⟩⟩
    · rw [bailIf_eq_ok_iff, decide_eq_false_iff_not, hlength, carrierBidiInputHeaderBytes]
      omega
    · rw [bailIf_eq_ok_iff, (hflag input.eof).1]
      rfl
    · rw [bailIf_eq_ok_iff, hlength, carrierBidiInputHeaderBytes]
      simp only [Bool.not_eq_false', Bool.and_eq_true, decide_eq_true_eq]
      exact ⟨h, by omega⟩
    · simp only [carrierBidiInputHeaderBytes, hcontent, hread, (hflag input.eof).2]
      rfl
  · simp only [hpayload]
    rfl

/-- The flag bytes that the reader accepts are those that the writer makes. -/
theorem eofFlag_of_known {flags : UInt8} (h : flags &&& ~~~carrierBidiInputEof = 0) :
    (if flags &&& carrierBidiInputEof != 0 then carrierBidiInputEof else 0) = flags := by
  revert h
  refine forall_byte ?_ flags
  decide +kernel

/-- A frame is put together again from its ranges. -/
theorem header_append {frame : List UInt8} (hmagic : isCarrierBidiInput frame = true)
    (hlength : 16 ≤ frame.length) :
    carrierBidiInputMagic ++ (frame.getD 4 0 :: frame.getD 5 0 ::
      (slice frame 6 8 ++ (slice frame 8 16 ++ frame.drop 16))) = frame := by
  have hlead : slice frame 0 4 = carrierBidiInputMagic :=
    (List.prefix_iff_eq_take.1 (List.isPrefixOf_iff_prefix.1 hmagic)).symm
  have hflags : slice frame 4 6 = [frame.getD 4 0, frame.getD 5 0] := by
    rw [← @slice_append_slice _ frame 4 5 6 (by decide) (by decide), slice_succ 0 (by omega),
      slice_succ 0 (by omega)]
    rfl
  calc _ = slice frame 0 4 ++ (slice frame 4 6 ++ (slice frame 6 8 ++ (slice frame 8 16 ++
        frame.drop 16))) := by
        rw [hlead, hflags]
        rfl
    _ = slice frame 0 16 ++ frame.drop 16 := by
        rw [← List.append_assoc (slice frame 6 8), slice_append_slice _ (by decide) (by decide),
          ← List.append_assoc (slice frame 4 6), slice_append_slice _ (by decide) (by decide),
          ← List.append_assoc, slice_append_slice _ (by decide) (by decide)]
    _ = frame := List.take_append_drop 16 frame

/-- A frame that is accepted is that of its values. -/
theorem eq_frame_of_decode {utf8Error : List UInt8 → String} {frame : List UInt8}
    {input : CarrierBidiInput} (h : decodeCarrierBidiInput utf8Error frame = .ok (some input)) :
    (utf8 input.contentType.toList).length ≤ maxCarrierBidiContentTypeBytes ∧
      frame = input.frame := by
  obtain ⟨metadata, hmetadata, hinput⟩ := bind_eq_ok_iff.1 h
  cases metadata with
  | none => cases hinput
  | some metadata =>
  cases hinput
  rw [decodeCarrierBidiInputMetadata] at hmetadata
  split at hmetadata
  · next hmagic =>
    obtain ⟨hlength, h₁⟩ := check_bind_eq_ok_iff.1 hmetadata
    obtain ⟨hflags, h₂⟩ := check_bind_eq_ok_iff.1 h₁
    obtain ⟨hcontent, h₃⟩ := check_bind_eq_ok_iff.1 h₂
    simp only [bailIf_eq_ok_iff, decide_eq_false_iff_not, not_lt, Bool.not_eq_false',
      Bool.and_eq_true, beq_iff_eq, decide_eq_true_eq] at hlength hflags hcontent
    dsimp only [carrierBidiInputHeaderBytes] at hlength hcontent h₃
    split at h₃
    · cases h₃
    · next contentType hread =>
      cases h₃
      have hutf8 := fromUTF8?_eq_some_iff.1 hread
      have hlen : (utf8 contentType.toList).length = (u16OfBytes (slice frame 6 8)).toNat := by
        rw [hutf8, length_slice hcontent.2, Nat.add_sub_cancel_left]
      refine ⟨hlen ▸ hcontent.1, ?_⟩
      have hrest : utf8 contentType.toList ++
          frame.drop (16 + (u16OfBytes (slice frame 6 8)).toNat) = frame.drop 16 := by
        rw [hutf8, slice, Nat.add_sub_cancel_left, ← List.drop_drop, List.take_append_drop]
      rw [CarrierBidiInput.frame]
      dsimp only
      rw [eofFlag_of_known hflags.1, hlen, UInt16.ofNat_toNat,
        u16Bytes_u16OfBytes (length_slice (by omega)), u64Bytes_u64OfBytes (length_slice hlength),
        hrest]
      have happend := header_append hmagic hlength
      rw [hflags.2] at happend
      exact happend.symm
  · cases hmetadata

/-- The codec: encoded values are read back, an accepted frame is what its values are encoded as,
and no byte string is both accepted and a JSON document. -/
theorem carrierBidiInput_codec {D : Type} (utf8Error : List UInt8 → String)
    (readValue : List UInt8 → Option D) :
    (∀ (callId : UInt64) (contentType : String) (payload : List UInt8) (eof : Bool),
      (utf8 contentType.toList).length ≤ maxCarrierBidiContentTypeBytes →
        ∃ frame, encodeCarrierBidiInput callId contentType payload eof = .ok frame ∧
          decodeCarrierBidiInput utf8Error frame = .ok (some ⟨callId, contentType, payload, eof⟩)) ∧
    (∀ frame input, decodeCarrierBidiInput utf8Error frame = .ok (some input) →
      encodeCarrierBidiInput input.callId input.contentType input.payload input.eof = .ok frame) ∧
    (∀ document dispatch, decodeFrame readValue document = some dispatch →
      decodeCarrierBidiInput utf8Error document = .ok none) ∧
    ∀ callId contentType payload eof frame,
      encodeCarrierBidiInput callId contentType payload eof = .ok frame →
        decodeFrame readValue frame = none := by
  refine ⟨fun callId contentType payload eof hlength => ?_, fun frame input hdecode => ?_,
    fun document dispatch hdocument => ?_, fun callId contentType payload eof frame hencode => ?_⟩
  · exact ⟨_, (@encodeCarrierBidiInput_eq_ok_iff ⟨callId, contentType, payload, eof⟩ _).2
      ⟨hlength, rfl⟩, decodeCarrierBidiInput_frame utf8Error _ hlength⟩
  · exact encodeCarrierBidiInput_eq_ok_iff.2 (eq_frame_of_decode hdecode)
  · have hmagic : ¬ isCarrierBidiInput document = true := by
      intro hmagic
      obtain ⟨rest, rfl⟩ := List.isPrefixOf_iff_prefix.1 hmagic
      rw [decodeFrame_magic] at hdocument
      cases hdocument
    rw [decodeCarrierBidiInput, decodeCarrierBidiInputMetadata, if_neg hmagic]
    rfl
  · obtain ⟨-, rfl⟩ := (@encodeCarrierBidiInput_eq_ok_iff ⟨callId, contentType, payload, eof⟩ _).1
      hencode
    exact decodeFrame_magic readValue _

/-- The last input of a call, with a payload that looks like a document, read back. -/
theorem carrierBidiInput_codec_lastInput :
    ∃ frame, encodeCarrierBidiInput 7 "application/json" [0x7b, 0x7d] true = .ok frame ∧
      decodeCarrierBidiInput (fun _ => "") frame =
        .ok (some ⟨7, "application/json", [0x7b, 0x7d], true⟩) :=
  (carrierBidiInput_codec (fun _ => "") (fun _ => some ())).1 7 "application/json" [0x7b, 0x7d] true
    (by decide)

end EasyNetDaemon.Bidi
