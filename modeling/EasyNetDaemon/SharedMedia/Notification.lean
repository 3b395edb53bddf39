import EasyNetDaemon.Library.BigEndian
import EasyNetDaemon.Library.Fallible

/-!
# Slot tickets and their notifications

A producer of the shared media lane tells its consumer about each frame with a fixed notification of
56 bytes: the ticket of a published frame, or the identity of a dropped one. `writeTo` and
`readFrom` are written separately in the source, over one layout with reserved ranges. Here they are
shown to be inverse to each other: what is written is read back (`decodeNotification_of_writeTo`),
and what is read for a lane is byte for byte what would be written
(`writeTo_of_decodeNotification`), for this lane only (`lane_eq_of_decodeNotification`).
-/

namespace EasyNetDaemon.SharedMedia

open Library

/-- The physical lanes of a media session. -/
inductive MediaLane
  | control
  | video
  | audio
deriving DecidableEq, Repr

/-- `lane_code`. -/
def laneCode : MediaLane → UInt32
  | .control => 0
  | .video => 1
  | .audio => 2

/-- Distinct lanes have distinct codes, also after the cast to one byte. -/
theorem laneCode_toUInt8_inj {lane lane' : MediaLane}
    (h : (laneCode lane).toUInt8 = (laneCode lane').toUInt8) : lane = lane' := by
  revert h
  cases lane <;> cases lane' <;> decide

/-- `SharedMediaLaneError`. -/
inductive SharedMediaLaneError
  | io (detail : String)
  | invalid (detail : String)
  | staleTicket
  | slotUnavailable
deriving DecidableEq, Repr

/-- What identifies one frame of a lane. -/
structure SharedFrameIdentity where
  sequence : UInt64
  observedAtMs : UInt64
  mediaGate : UInt32
deriving DecidableEq, Repr

/-- `SharedFrameIdentity::validate`. -/
def SharedFrameIdentity.validate (identity : SharedFrameIdentity) :
    Except SharedMediaLaneError SharedFrameIdentity :=
  if identity.sequence = 0 ∨ identity.observedAtMs = 0 ∨ identity.mediaGate = 0 then
    .error (.invalid "shared media frame identity must be positive")
  else .ok identity

/-- Every field of the identity is positive. -/
def SharedFrameIdentity.Positive (identity : SharedFrameIdentity) : Prop :=
  identity.sequence ≠ 0 ∧ identity.observedAtMs ≠ 0 ∧ identity.mediaGate ≠ 0

instance (identity : SharedFrameIdentity) : Decidable identity.Positive :=
  inferInstanceAs (Decidable (_ ∧ _ ∧ _))

theorem SharedFrameIdentity.validate_eq_ok {identity valid : SharedFrameIdentity} :
    identity.validate = .ok valid ↔ identity.Positive ∧ identity = valid := by
  by_cases h : identity.sequence = 0 ∨ identity.observedAtMs = 0 ∨ identity.mediaGate = 0
  · simp only [validate, if_pos h, reduceCtorEq, false_iff, not_and]
    intro hpos
    exact absurd h (by simpa [Positive] using hpos)
  · simp only [validate, if_neg h, Except.ok.injEq, iff_and_self]
    intro _
    simpa [Positive] using h

/-- What a published frame is claimed by. -/
structure SharedSlotTicket where
  slotIndex : UInt32
  ticket : UInt64
  identity : SharedFrameIdentity
  replacedTicket : Option UInt64
deriving DecidableEq, Repr

/-- `SharedSlotNotification`. -/
inductive SharedSlotNotification
  | published (ticket : SharedSlotTicket)
  | dropped (identity : SharedFrameIdentity)
deriving DecidableEq, Repr

/-! ## The codec -/

/-- `NOTIFICATION_MAGIC`, the text `RSNT`. -/
def notificationMagic : List UInt8 := [82, 83, 78, 84]

/-- `VERSION as u8`. -/
def version : UInt8 := 2

/-- `SHARED_SLOT_NOTIFICATION_BYTES`. -/
def sharedSlotNotificationBytes : Nat := 56

/-- The kind of a published frame. -/
def notificationPublished : UInt8 := 1

/-- The kind of a dropped frame. -/
def notificationDropped : UInt8 := 2

/-- The flag of a replaced frame. -/
def notificationReplaced : UInt8 := 1

/-- `u32::MAX`, the slot index of a notification without a slot. -/
def noSlot : UInt32 := 4294967295

/-- The bytes of a notification, range by range: magic `0..4`, version, lane, kind and flags `4..8`,
slot `8..12`, reserved `12..16`, ticket `16..24`, sequence `24..32`, time `32..40`, gate `40..44`,
reserved `44..48`, replaced ticket `48..56`. -/
def notificationBytes (lane kind flags : UInt8) (slotIndex : UInt32) (ticket : UInt64)
    (identity : SharedFrameIdentity) (replaced : UInt64) : List UInt8 :=
  notificationMagic ++ [version] ++ [lane] ++ [kind] ++ [flags] ++ u32Bytes slotIndex ++
    [0, 0, 0, 0] ++ u64Bytes ticket ++ u64Bytes identity.sequence ++
    u64Bytes identity.observedAtMs ++ u32Bytes identity.mediaGate ++ [0, 0, 0, 0] ++
    u64Bytes replaced

/-- The error of the control lane. -/
def controlRefused : SharedMediaLaneError :=
  .invalid "control events cannot use shared slot notifications"

/-- `SharedSlotNotification::write_to`: the bytes given to the writer. -/
def SharedSlotNotification.writeTo (notification : SharedSlotNotification) (lane : MediaLane) :
    Except SharedMediaLaneError (List UInt8) :=
  if lane = .control then .error controlRefused
  else
    let (kind, slotIndex, ticket, identity, replacedTicket) := match notification with
      | .published ticket =>
        (notificationPublished, ticket.slotIndex, ticket.ticket, ticket.identity,
          ticket.replacedTicket)
      | .dropped identity => (notificationDropped, noSlot, 0, identity, none)
    do
      let identity ← identity.validate
      .ok (notificationBytes (laneCode lane).toUInt8 kind
        (if replacedTicket.isSome then notificationReplaced else 0) slotIndex ticket identity
        (replacedTicket.getD 0))

/-- The checks of `read_from` once the 56 bytes are there. -/
def decodeNotification (lane : MediaLane) (bytes : List UInt8) :
    Except SharedMediaLaneError SharedSlotNotification :=
  let flags := bytes.getD 7 0
  if slice bytes 0 4 ≠ notificationMagic ∨ bytes.getD 4 0 ≠ version ∨
      bytes.getD 5 0 ≠ (laneCode lane).toUInt8 ∨ flags &&& ~~~notificationReplaced ≠ 0 ∨
      slice bytes 12 16 ≠ [0, 0, 0, 0] ∨ slice bytes 44 48 ≠ [0, 0, 0, 0] then
    .error (.invalid "shared slot notification envelope is invalid")
  else do
    let identity ← SharedFrameIdentity.validate
      { sequence := u64OfBytes (slice bytes 24 32)
        observedAtMs := u64OfBytes (slice bytes 32 40)
        mediaGate := u32OfBytes (slice bytes 40 44) }
    let slotIndex := u32OfBytes (slice bytes 8 12)
    let ticket := u64OfBytes (slice bytes 16 24)
    let replacedTicket := u64OfBytes (slice bytes 48 56)
    if bytes.getD 6 0 = notificationPublished ∧ slotIndex ≠ noSlot ∧ ticket ≠ 0 ∧
        (flags &&& notificationReplaced ≠ 0 ↔ replacedTicket ≠ 0) then
      .ok (.published
        { slotIndex, ticket, identity
          replacedTicket := if replacedTicket ≠ 0 then some replacedTicket else none })
    else if bytes.getD 6 0 = notificationDropped ∧ slotIndex = noSlot ∧ ticket = 0 ∧
        replacedTicket = 0 ∧ flags = 0 then
      .ok (.dropped identity)
    else .error (.invalid "shared slot notification body is invalid")

/-- `SharedSlotNotification::read_from`: the result, and what is left in the reader. A reader at its
end gives no notification; one that ends inside a notification fails as `read_exact` does. -/
def readFrom (reader : List UInt8) (lane : MediaLane) :
    Except SharedMediaLaneError (Option SharedSlotNotification) × List UInt8 :=
  if lane = .control then (.error controlRefused, reader)
  else if reader.length = 0 then (.ok none, reader)
  else if reader.length < sharedSlotNotificationBytes then
    (.error (.io "failed to fill whole buffer"), [])
  else
    ((decodeNotification lane (reader.take sharedSlotNotificationBytes)).map some,
      reader.drop sharedSlotNotificationBytes)

/-! ## The layout -/

section Layout

variable (lane kind flags : UInt8) (slotIndex : UInt32) (ticket : UInt64)
  (identity : SharedFrameIdentity) (replaced : UInt64)

@[simp] theorem length_notificationBytes :
    (notificationBytes lane kind flags slotIndex ticket identity replaced).length =
      sharedSlotNotificationBytes := by
  simp [notificationBytes, notificationMagic, sharedSlotNotificationBytes]

/-- Every range of the layout, read back. -/
structure Ranges (bytes : List UInt8) : Prop where
  magic : slice bytes 0 4 = notificationMagic
  version : bytes.getD 4 0 = version
  lane : bytes.getD 5 0 = lane
  kind : bytes.getD 6 0 = kind
  flags : bytes.getD 7 0 = flags
  slotIndex : slice bytes 8 12 = u32Bytes slotIndex
  reserved : slice bytes 12 16 = [0, 0, 0, 0]
  ticket : slice bytes 16 24 = u64Bytes ticket
  sequence : slice bytes 24 32 = u64Bytes identity.sequence
  observedAtMs : slice bytes 32 40 = u64Bytes identity.observedAtMs
  mediaGate : slice bytes 40 44 = u32Bytes identity.mediaGate
  reserved' : slice bytes 44 48 = [0, 0, 0, 0]
  replaced : slice bytes 48 56 = u64Bytes replaced

theorem ranges_notificationBytes :
    Ranges lane kind flags slotIndex ticket identity replaced
      (notificationBytes lane kind flags slotIndex ticket identity replaced) := by
  -- a number's bytes are a list of known length whatever the number, so the ranges compute
  obtain ⟨s₀, s₁, s₂, s₃, hslot⟩ := u32Bytes_eq_cons slotIndex
  obtain ⟨g₀, g₁, g₂, g₃, hgate⟩ := u32Bytes_eq_cons identity.mediaGate
  obtain ⟨t₀, t₁, t₂, t₃, t₄, t₅, t₆, t₇, hticket⟩ := u64Bytes_eq_cons ticket
  obtain ⟨q₀, q₁, q₂, q₃, q₄, q₅, q₆, q₇, hsequence⟩ := u64Bytes_eq_cons identity.sequence
  obtain ⟨o₀, o₁, o₂, o₃, o₄, o₅, o₆, o₇, hobserved⟩ := u64Bytes_eq_cons identity.observedAtMs
  obtain ⟨r₀, r₁, r₂, r₃, r₄, r₅, r₆, r₇, hreplaced⟩ := u64Bytes_eq_cons replaced
  constructor <;>
    simp only [notificationBytes, hslot, hgate, hticket, hsequence, hobserved, hreplaced] <;> rfl

end Layout

/-- The ranges of the layout make up the whole string. -/
theorem Ranges.eq_notificationBytes {lane kind flags : UInt8} {slotIndex : UInt32} {ticket : UInt64}
    {identity : SharedFrameIdentity} {replaced : UInt64} {bytes : List UInt8}
    (hlength : bytes.length = sharedSlotNotificationBytes)
    (h : Ranges lane kind flags slotIndex ticket identity replaced bytes) :
    notificationBytes lane kind flags slotIndex ticket identity replaced = bytes := by
  have hbyte : ∀ i < 56, [bytes.getD i 0] = slice bytes i (i + 1) :=
    fun i hi => (slice_succ 0 (hlength ▸ hi)).symm
  calc notificationBytes lane kind flags slotIndex ticket identity replaced
      = slice bytes 0 4 ++ slice bytes 4 5 ++ slice bytes 5 6 ++ slice bytes 6 7 ++
          slice bytes 7 8 ++ slice bytes 8 12 ++ slice bytes 12 16 ++ slice bytes 16 24 ++
          slice bytes 24 32 ++ slice bytes 32 40 ++ slice bytes 40 44 ++ slice bytes 44 48 ++
          slice bytes 48 56 := by
        rw [h.magic, ← hbyte 4 (by decide), ← hbyte 5 (by decide), ← hbyte 6 (by decide),
          ← hbyte 7 (by decide), h.version, h.lane, h.kind, h.flags, h.slotIndex, h.reserved,
          h.ticket, h.sequence, h.observedAtMs, h.mediaGate, h.reserved', h.replaced]
        rfl
    _ = slice bytes 0 56 := by simp (disch := decide) only [slice_append_slice]
    _ = slice bytes 0 bytes.length := by rw [hlength]; rfl
    _ = bytes := slice_zero_length bytes

/-! ## The two directions -/

/-- What a lane can send: a positive identity and, for a published frame, a slot, a ticket and a
replaced ticket other than the values that stand for their absence. -/
def SharedSlotNotification.WellFormed : SharedSlotNotification → Prop
  | .published ticket =>
    ticket.identity.Positive ∧ ticket.slotIndex ≠ noSlot ∧ ticket.ticket ≠ 0 ∧
      ticket.replacedTicket ≠ some 0
  | .dropped identity => identity.Positive

instance : DecidablePred SharedSlotNotification.WellFormed
  | .published _ => inferInstanceAs (Decidable (_ ∧ _ ∧ _ ∧ _))
  | .dropped _ => inferInstanceAs (Decidable (SharedFrameIdentity.Positive _))

/-- The flag byte of a replaced ticket, which the value `0` duplicates. -/
def replacedFlag (replacedTicket : Option UInt64) : UInt8 :=
  if replacedTicket.isSome then notificationReplaced else 0

theorem writeTo_published {lane : MediaLane} (hlane : lane ≠ .control) {ticket : SharedSlotTicket}
    (h : ticket.identity.Positive) :
    (SharedSlotNotification.published ticket).writeTo lane =
      .ok (notificationBytes (laneCode lane).toUInt8 notificationPublished
        (replacedFlag ticket.replacedTicket) ticket.slotIndex ticket.ticket ticket.identity
        (ticket.replacedTicket.getD 0)) := by
  simp only [SharedSlotNotification.writeTo, if_neg hlane,
    SharedFrameIdentity.validate_eq_ok.2 ⟨h, rfl⟩]
  rfl

theorem writeTo_dropped {lane : MediaLane} (hlane : lane ≠ .control)
    {identity : SharedFrameIdentity} (h : identity.Positive) :
    (SharedSlotNotification.dropped identity).writeTo lane =
      .ok
        (notificationBytes (laneCode lane).toUInt8 notificationDropped 0 noSlot 0 identity 0) := by
  simp only [SharedSlotNotification.writeTo, if_neg hlane,
    SharedFrameIdentity.validate_eq_ok.2 ⟨h, rfl⟩]
  rfl

variable {notification : SharedSlotNotification}

/-- What the checks of `read_from` accept, in terms of the fields of the layout. -/
theorem decodeNotification_eq_ok {lane : MediaLane} {code kind flags : UInt8} {slotIndex : UInt32}
    {ticket : UInt64} {identity : SharedFrameIdentity} {replaced : UInt64} {bytes : List UInt8}
    (h : Ranges code kind flags slotIndex ticket identity replaced bytes) :
    decodeNotification lane bytes = .ok notification ↔
      code = (laneCode lane).toUInt8 ∧ flags &&& ~~~notificationReplaced = 0 ∧
        identity.Positive ∧
        ((kind = notificationPublished ∧ slotIndex ≠ noSlot ∧ ticket ≠ 0 ∧
            (flags &&& notificationReplaced ≠ 0 ↔ replaced ≠ 0) ∧
            notification = .published
              { slotIndex, ticket, identity
                replacedTicket := if replaced ≠ 0 then some replaced else none }) ∨
          (kind = notificationDropped ∧ slotIndex = noSlot ∧ ticket = 0 ∧ replaced = 0 ∧
            flags = 0 ∧ notification = .dropped identity)) := by
  simp only [decodeNotification, h.magic, h.version, h.lane, h.kind, h.flags, h.slotIndex,
    h.reserved, h.ticket, h.sequence, h.observedAtMs, h.mediaGate, h.reserved', h.replaced,
    u32OfBytes_u32Bytes, u64OfBytes_u64Bytes]
  by_cases henvelope : code = (laneCode lane).toUInt8 ∧ flags &&& ~~~notificationReplaced = 0
  · rw [if_neg (by simp [henvelope.1, henvelope.2]), bind_eq_ok_iff]
    simp only [SharedFrameIdentity.validate_eq_ok, henvelope.1, henvelope.2, true_and]
    constructor
    · rintro ⟨_, ⟨hpos, rfl⟩, hbody⟩
      refine ⟨hpos, ?_⟩
      split at hbody
      · rename_i hpublished
        obtain ⟨hkind, hslot, hticket, hflag⟩ := hpublished
        exact Or.inl ⟨hkind, hslot, hticket, hflag, (Except.ok.inj hbody).symm⟩
      · split at hbody
        · rename_i hdropped
          obtain ⟨hkind, hslot, hticket, hreplaced, hflags⟩ := hdropped
          exact Or.inr ⟨hkind, hslot, hticket, hreplaced, hflags, (Except.ok.inj hbody).symm⟩
        · cases hbody
    · rintro ⟨hpos, hbody⟩
      refine ⟨identity, ⟨hpos, rfl⟩, ?_⟩
      rcases hbody with ⟨hkind, hslot, hticket, hflag, rfl⟩ | ⟨hkind, hslot, hticket, hreplaced,
        hflags, rfl⟩
      · rw [if_pos ⟨hkind, hslot, hticket, hflag⟩]
      · rw [if_neg (fun hpublished => absurd hslot hpublished.2.1),
          if_pos ⟨hkind, hslot, hticket, hreplaced, hflags⟩]
  · rw [if_pos]
    · simp only [reduceCtorEq, false_iff]
      rintro ⟨hcode, hflags, -⟩
      exact henvelope ⟨hcode, hflags⟩
    · simp only [ne_eq, not_true_eq_false, false_or, or_false]
      by_contra hnone
      push Not at hnone
      exact henvelope hnone

/-- Every string of 56 bytes has the ranges of its own fields. -/
theorem exists_ranges {bytes : List UInt8} {lane : MediaLane}
    (hlength : bytes.length = sharedSlotNotificationBytes)
    (h : decodeNotification lane bytes = .ok notification) :
    ∃ code kind flags slotIndex ticket identity replaced,
      Ranges code kind flags slotIndex ticket identity replaced bytes := by
  have hrange : ∀ i j, j ≤ 56 → (slice bytes i j).length = j - i := fun i j hj =>
    length_slice (hlength ▸ hj)
  have henvelope : slice bytes 0 4 = notificationMagic ∧ bytes.getD 4 0 = version ∧
      slice bytes 12 16 = [0, 0, 0, 0] ∧ slice bytes 44 48 = [0, 0, 0, 0] := by
    by_contra hbad
    rw [decodeNotification, if_pos] at h
    · cases h
    · by_contra hgood
      push Not at hgood
      exact hbad ⟨hgood.1, hgood.2.1, hgood.2.2.2.2.1, hgood.2.2.2.2.2⟩
  obtain ⟨hmagic, hversion, hreserved, hreserved'⟩ := henvelope
  exact ⟨bytes.getD 5 0, bytes.getD 6 0, bytes.getD 7 0, u32OfBytes (slice bytes 8 12),
    u64OfBytes (slice bytes 16 24),
    { sequence := u64OfBytes (slice bytes 24 32)
      observedAtMs := u64OfBytes (slice bytes 32 40)
      mediaGate := u32OfBytes (slice bytes 40 44) },
    u64OfBytes (slice bytes 48 56),
    { magic := hmagic
      version := hversion
      lane := rfl
      kind := rfl
      flags := rfl
      slotIndex := (u32Bytes_u32OfBytes (hrange 8 12 (by decide))).symm
      reserved := hreserved
      ticket := (u64Bytes_u64OfBytes (hrange 16 24 (by decide))).symm
      sequence := (u64Bytes_u64OfBytes (hrange 24 32 (by decide))).symm
      observedAtMs := (u64Bytes_u64OfBytes (hrange 32 40 (by decide))).symm
      mediaGate := (u32Bytes_u32OfBytes (hrange 40 44 (by decide))).symm
      reserved' := hreserved'
      replaced := (u64Bytes_u64OfBytes (hrange 48 56 (by decide))).symm }⟩

/-- The flag byte that passes the envelope check is determined by the replaced ticket. -/
theorem flags_eq_replacedFlag {flags : UInt8} {replaced : UInt64}
    (hbits : flags &&& ~~~notificationReplaced = 0)
    (hflag : flags &&& notificationReplaced ≠ 0 ↔ replaced ≠ 0) :
    flags = replacedFlag (if replaced ≠ 0 then some replaced else none) := by
  have hvalue : flags &&& ~~~notificationReplaced = 0 →
      flags = if flags &&& notificationReplaced ≠ 0 then notificationReplaced else 0 := by
    refine forall_byte ?_ flags
    decide +kernel
  rw [hvalue hbits]
  by_cases hreplaced : replaced ≠ 0
  · rw [if_pos (hflag.2 hreplaced), if_pos hreplaced]
    rfl
  · rw [if_neg (fun h => hreplaced (hflag.1 h)), if_neg hreplaced]
    rfl

/-- The bytes of an accepted notification are those that would be written for it. -/
theorem writeTo_of_decodeNotification {lane : MediaLane} (hlane : lane ≠ .control)
    {bytes : List UInt8} (hlength : bytes.length = sharedSlotNotificationBytes)
    (h : decodeNotification lane bytes = .ok notification) :
    notification.writeTo lane = .ok bytes := by
  obtain ⟨code, kind, flags, slotIndex, ticket, identity, replaced, hranges⟩ :=
    exists_ranges hlength h
  obtain ⟨rfl, hbits, hpos, hbody⟩ := (decodeNotification_eq_ok hranges).1 h
  rw [← hranges.eq_notificationBytes hlength]
  rcases hbody with ⟨rfl, -, -, hflag, rfl⟩ | ⟨rfl, rfl, rfl, rfl, rfl, rfl⟩
  · rw [writeTo_published hlane hpos, flags_eq_replacedFlag hbits hflag]
    by_cases hreplaced : replaced ≠ 0
    · simp only [if_pos hreplaced, Option.getD_some]
    · simp only [if_neg hreplaced, Option.getD_none]
      rw [not_not.1 hreplaced]
  · exact writeTo_dropped hlane hpos

/-- A notification whose bytes are all there is read off the front of the stream. -/
theorem readFrom_append {lane : MediaLane} (hlane : lane ≠ .control) {bytes : List UInt8}
    (hlength : bytes.length = sharedSlotNotificationBytes) (rest : List UInt8) :
    readFrom (bytes ++ rest) lane = ((decodeNotification lane bytes).map some, rest) := by
  have hlong : sharedSlotNotificationBytes ≤ (bytes ++ rest).length := by
    rw [List.length_append, hlength]
    exact Nat.le_add_right _ _
  have hpos : (bytes ++ rest).length ≠ 0 :=
    Nat.ne_of_gt (Nat.lt_of_lt_of_le (by decide) hlong)
  rw [readFrom, if_neg hlane, if_neg hpos, if_neg (Nat.not_lt.2 hlong), ← hlength,
    List.take_left, List.drop_left]

theorem decodeNotification_of_writeTo {lane : MediaLane} (hlane : lane ≠ .control)
    (h : notification.WellFormed) {bytes : List UInt8}
    (hbytes : notification.writeTo lane = .ok bytes) :
    decodeNotification lane bytes = .ok notification := by
  cases notification with
  | published ticket =>
    obtain ⟨hpos, hslot, hticket, hreplaced⟩ := h
    rw [writeTo_published hlane hpos] at hbytes
    cases hbytes
    refine (decodeNotification_eq_ok (ranges_notificationBytes ..)).2
      ⟨rfl, ?_, hpos, Or.inl ⟨rfl, hslot, hticket, ?_⟩⟩
    -- the flag and the replaced ticket say the same unless a frame replaced the ticket `0`
    · cases ticket.replacedTicket with
      | none => rfl
      | some t => exact (by decide : notificationReplaced &&& ~~~notificationReplaced = 0)
    · obtain ⟨slotIndex, number, identity, replacedTicket⟩ := ticket
      cases replacedTicket with
      | none =>
        exact ⟨(by decide : (0 : UInt8) &&& notificationReplaced ≠ 0 ↔ (0 : UInt64) ≠ 0), rfl⟩
      | some t =>
        have ht : t ≠ 0 := fun h0 => hreplaced (h0 ▸ rfl)
        have hbit : notificationReplaced &&& notificationReplaced ≠ 0 := by decide
        refine ⟨⟨fun _ => ht, fun _ => hbit⟩, ?_⟩
        simp only [Option.getD_some, if_pos ht]
  | dropped identity =>
    rw [writeTo_dropped hlane h] at hbytes
    cases hbytes
    exact (decodeNotification_eq_ok (ranges_notificationBytes ..)).2
      ⟨rfl, rfl, h, Or.inr ⟨rfl, rfl, rfl, rfl, rfl, rfl⟩⟩

theorem length_of_writeTo {lane : MediaLane} {bytes : List UInt8}
    (hbytes : notification.writeTo lane = .ok bytes) :
    lane ≠ .control ∧ bytes.length = sharedSlotNotificationBytes := by
  by_cases hlane : lane = .control
  · simp only [SharedSlotNotification.writeTo, if_pos hlane] at hbytes
    cases hbytes
  · refine ⟨hlane, ?_⟩
    simp only [SharedSlotNotification.writeTo, if_neg hlane] at hbytes
    obtain ⟨identity, -, hok⟩ := bind_eq_ok_iff.1 hbytes
    cases hok
    exact length_notificationBytes ..

/-- No two lanes accept the same bytes. -/
theorem lane_eq_of_decodeNotification {lane lane' : MediaLane} {bytes : List UInt8}
    (hlength : bytes.length = sharedSlotNotificationBytes)
    {notification' : SharedSlotNotification}
    (h : decodeNotification lane bytes = .ok notification)
    (h' : decodeNotification lane' bytes = .ok notification') : lane' = lane := by
  obtain ⟨code, kind, flags, slotIndex, ticket, identity, replaced, hranges⟩ :=
    exists_ranges hlength h
  have hcode := ((decodeNotification_eq_ok hranges).1 h).1
  have hcode' := ((decodeNotification_eq_ok hranges).1 h').1
  exact laneCode_toUInt8_inj (hcode'.symm.trans hcode)

/-- Writing and reading a notification are inverse to each other. What is written on a lane is read
back on it, whatever follows in the stream. A string of 56 bytes that is read on a lane is what
writing the decoded notification gives, and on every other lane it is refused. -/
theorem notification_round_trip (lane : MediaLane) :
    (∀ notification : SharedSlotNotification, notification.WellFormed →
      (lane ≠ .control → ∃ bytes, notification.writeTo lane = .ok bytes) ∧
      ∀ bytes rest, notification.writeTo lane = .ok bytes →
        bytes.length = sharedSlotNotificationBytes ∧
        readFrom (bytes ++ rest) lane = (.ok (some notification), rest)) ∧
    ∀ bytes notification, bytes.length = sharedSlotNotificationBytes →
      (readFrom bytes lane).1 = .ok (some notification) →
        notification.writeTo lane = .ok bytes ∧
        ∀ lane', lane' ≠ lane → ∃ error, (readFrom bytes lane').1 = .error error := by
  constructor
  · intro notification hwf
    constructor
    · intro hlane
      cases notification with
      | published ticket => exact ⟨_, writeTo_published hlane hwf.1⟩
      | dropped identity => exact ⟨_, writeTo_dropped hlane hwf⟩
    · intro bytes rest hbytes
      obtain ⟨hlane, hlength⟩ := length_of_writeTo hbytes
      refine ⟨hlength, ?_⟩
      rw [readFrom_append hlane hlength, decodeNotification_of_writeTo hlane hwf hbytes]
      rfl
  · intro bytes notification hlength hread
    have hlane : lane ≠ .control := by
      intro hcontrol
      rw [readFrom, if_pos hcontrol] at hread
      cases hread
    have hreads : ∀ lane' ≠ MediaLane.control,
        (readFrom bytes lane').1 = (decodeNotification lane' bytes).map some := by
      intro lane' hlane'
      have happend := readFrom_append hlane' hlength []
      rw [List.append_nil] at happend
      rw [happend]
    rw [hreads lane hlane] at hread
    have hdecode : decodeNotification lane bytes = .ok notification := by
      cases hother : decodeNotification lane bytes with
      | error error => rw [hother] at hread; cases hread
      | ok other => rw [hother] at hread; cases hread; rfl
    refine ⟨writeTo_of_decodeNotification hlane hlength hdecode, ?_⟩
    intro lane' hne
    by_cases hcontrol : lane' = .control
    · exact ⟨controlRefused, by rw [readFrom, if_pos hcontrol]⟩
    · rw [hreads lane' hcontrol]
      cases hother : decodeNotification lane' bytes with
      | error error => exact ⟨error, rfl⟩
      | ok other => exact absurd (lane_eq_of_decodeNotification hlength hdecode hother) hne

/-- A ticket of the source's own test, with a replaced ticket. -/
def sampleTicket : SharedSlotTicket where
  slotIndex := 2
  ticket := 77
  identity := { sequence := 12, observedAtMs := 1012, mediaGate := 1 }
  replacedTicket := some 71

theorem notification_round_trip_sampleTicket :
    (SharedSlotNotification.published sampleTicket).WellFormed ∧
      ∃ bytes, (SharedSlotNotification.published sampleTicket).writeTo .video = .ok bytes ∧
        readFrom (bytes ++ [82, 83]) .video = (.ok (some (.published sampleTicket)), [82, 83]) := by
  have hwf : (SharedSlotNotification.published sampleTicket).WellFormed := by decide
  obtain ⟨hwrite, hread⟩ := (notification_round_trip .video).1 _ hwf
  obtain ⟨bytes, hbytes⟩ := hwrite (by decide)
  exact ⟨hwf, bytes, hbytes, (hread bytes [82, 83] hbytes).2⟩

end EasyNetDaemon.SharedMedia
