import Mathlib.Data.List.Infix
import Mathlib.Data.List.Chain
import EasyNetDaemon.MediaSession.ValidatorSteps

/-!
# Access units in Annex-B form

An access unit is a sequence of units, each behind a start code of three or four bytes. No start
code stands inside a unit, and a zero byte in front of three further bytes `0 0 1` belongs to the
start code. The validator's scanner finds these units exactly (`inspectH264AnnexB_text`), so its
flags and its bound are about all of them. Of the sequence parameter sets it keeps the last one
only.
-/

namespace EasyNetDaemon.MediaSession

open Library
open SharedMedia (MediaLane)

/-! ## Units and start codes -/

/-- A unit with the start code before it, which is long or short. -/
structure AnnexBPiece where
  long : Bool
  nal : List UInt8
deriving DecidableEq, Repr

namespace AnnexBPiece

/-- The start code before a unit. -/
def startCode (p : AnnexBPiece) : List UInt8 := if p.long then [0, 0, 0, 1] else [0, 0, 1]

/-- The unit is not empty and has no start code inside. -/
def IsUnit (nal : List UInt8) : Prop := nal ≠ [] ∧ ¬ [0, 0, 1] <:+: nal

/-- A unit that ends in a zero byte is followed by a long start code: a zero byte before a short one
is read as part of it. -/
def Follows (p q : AnnexBPiece) : Prop := q.long = true ∨ p.nal.getLast? ≠ some 0

instance : DecidablePred IsUnit := fun _ => inferInstanceAs (Decidable (_ ∧ _))

instance : DecidableRel Follows := fun _ _ => inferInstanceAs (Decidable (_ ∨ _))

end AnnexBPiece

open AnnexBPiece

/-- The bytes of an access unit. -/
def annexBText (pieces : List AnnexBPiece) : List UInt8 :=
  pieces.flatMap fun p => p.startCode ++ p.nal

/-- The pieces of an access unit as they stand in its bytes. -/
structure AnnexB (pieces : List AnnexBPiece) : Prop where
  ne_nil : pieces ≠ []
  units : ∀ p ∈ pieces, IsUnit p.nal
  follows : pieces.IsChain Follows

/-! ## The scanner -/

theorem findAnnexBStartCode_startCode (p : AnnexBPiece) (rest : List UInt8) :
    findAnnexBStartCode (p.startCode ++ rest) = some ([], rest) := by
  obtain ⟨long, nal⟩ := p
  cases long <;> rfl

/-- Where no start code begins, the scanner goes on to the next byte. -/
theorem findAnnexBStartCode_cons {b : UInt8} {rest : List UInt8}
    (hlong : ¬ [0, 0, 0, 1] <+: b :: rest) (hshort : ¬ [0, 0, 1] <+: b :: rest) :
    findAnnexBStartCode (b :: rest) =
      (findAnnexBStartCode rest).map fun (before, after) => (b :: before, after) := by
  rw [findAnnexBStartCode]
  · rintro rest' rfl rfl
    exact hlong ⟨rest', rfl⟩
  · rintro rest' rfl rfl
    exact hshort ⟨rest', rfl⟩

theorem not_infix_of_cons {b : UInt8} {nal : List UInt8} (h : ¬ [0, 0, 1] <:+: b :: nal) :
    ¬ [0, 0, 1] <:+: nal :=
  fun hin => h (hin.trans (List.infix_cons (List.infix_refl _)))

/-- A long start code has a short one inside. -/
theorem short_infix_of_long {l : List UInt8} (h : [0, 0, 0, 1] <+: l) : [0, 0, 1] <:+: l :=
  List.IsInfix.trans ⟨[0], [], rfl⟩ h.isInfix

theorem findAnnexBStartCode_eq_none {nal : List UInt8} (h : ¬ [0, 0, 1] <:+: nal) :
    findAnnexBStartCode nal = none := by
  induction nal with
  | nil => rfl
  | cons b nal ih =>
    rw [findAnnexBStartCode_cons (fun hin => h (short_infix_of_long hin))
      (fun hin => h hin.isInfix), ih (not_infix_of_cons h)]
    rfl

/-- Inside a unit no start code begins, whatever start code follows it. -/
theorem not_startCode_of_unit {b : UInt8} {nal rest : List UInt8} {q : AnnexBPiece}
    (h : ¬ [0, 0, 1] <:+: b :: nal) (hlast : q.long = true ∨ (b :: nal).getLast? ≠ some 0) :
    ¬ [0, 0, 0, 1] <+: b :: nal ++ (q.startCode ++ rest) ∧
      ¬ [0, 0, 1] <+: b :: nal ++ (q.startCode ++ rest) := by
  obtain ⟨long, nal'⟩ := q
  match nal, h, hlast with
  | [], _, hlast =>
    cases long with
    | true => simp [startCode]
    | false =>
      have hb : (0 : UInt8) ≠ b := fun hzero =>
        hlast.elim Bool.false_ne_true fun hne => hne (by rw [← hzero]; rfl)
      simp [startCode, hb]
  | [c], _, _ => cases long <;> simp [startCode]
  | [c, d], h, _ =>
    have hsplit : ¬ (b = 0 ∧ c = 0 ∧ d = 1) := by
      rintro ⟨rfl, rfl, rfl⟩
      exact h (List.infix_refl _)
    cases long <;> simp [startCode] <;> tauto
  | c :: d :: e :: nal, h, _ =>
    have hshort : ¬ (b = 0 ∧ c = 0 ∧ d = 1) := by
      rintro ⟨rfl, rfl, rfl⟩
      exact h ⟨[], e :: nal, rfl⟩
    have hlong : ¬ (c = 0 ∧ d = 0 ∧ e = 1) := by
      rintro ⟨rfl, rfl, rfl⟩
      exact h ⟨[b], nal, rfl⟩
    simp only [List.cons_append, List.cons_prefix_cons]
    constructor
    · rintro ⟨-, hc, hd, he, -⟩
      exact hlong ⟨hc.symm, hd.symm, he.symm⟩
    · rintro ⟨hb, hc, hd, -⟩
      exact hshort ⟨hb.symm, hc.symm, hd.symm⟩

/-- The scanner finds the end of a unit. -/
theorem findAnnexBStartCode_unit {nal : List UInt8} (rest : List UInt8) {q : AnnexBPiece}
    (h : ¬ [0, 0, 1] <:+: nal) (hlast : q.long = true ∨ nal.getLast? ≠ some 0) :
    findAnnexBStartCode (nal ++ (q.startCode ++ rest)) = some (nal, rest) := by
  induction nal with
  | nil => exact findAnnexBStartCode_startCode q rest
  | cons b nal ih =>
    have hunit : ¬ [0, 0, 0, 1] <+: b :: nal ++ (q.startCode ++ rest) ∧
        ¬ [0, 0, 1] <+: b :: nal ++ (q.startCode ++ rest) :=
      not_startCode_of_unit h hlast
    obtain ⟨hlong, hshort⟩ := hunit
    have hlast' : q.long = true ∨ nal.getLast? ≠ some 0 := by
      refine hlast.imp_right fun hne => ?_
      cases nal with
      | nil => simp
      | cons c nal => simpa [List.getLast?_cons_cons] using hne
    rw [List.cons_append] at hlong hshort ⊢
    rw [findAnnexBStartCode_cons hlong hshort, ih (not_infix_of_cons h) hlast']
    rfl

/-- The loop over the units behind a start code finds the units of all pieces. -/
theorem nalUnits_text {p : AnnexBPiece} {pieces : List AnnexBPiece} {fuel : Nat}
    (h : AnnexB (p :: pieces)) (hfuel : (p.nal ++ annexBText pieces).length ≤ fuel) :
    nalUnits fuel (p.nal ++ annexBText pieces) = .ok ((p :: pieces).map nal) := by
  induction pieces generalizing p fuel with
  | nil =>
    obtain ⟨hne, hunit⟩ := h.units p List.mem_cons_self
    rw [annexBText, List.flatMap_nil, List.append_nil] at hfuel ⊢
    obtain ⟨fuel, rfl⟩ : ∃ n, fuel = n + 1 :=
      Nat.exists_eq_succ_of_ne_zero (Nat.ne_zero_of_lt
        ((List.length_pos_iff.2 hne).trans_le hfuel))
    rw [nalUnits, findAnnexBStartCode_eq_none hunit]
    simp [bailIf, hne]
    rfl
  | cons q pieces ih =>
    obtain ⟨hne, hunit⟩ := h.units p List.mem_cons_self
    have htail : AnnexB (q :: pieces) :=
      ⟨List.cons_ne_nil _ _, fun r hr => h.units r (List.mem_cons_of_mem _ hr),
        (List.isChain_cons_cons.1 h.follows).2⟩
    have htext : annexBText (q :: pieces) = q.startCode ++ (q.nal ++ annexBText pieces) := by
      rw [annexBText, List.flatMap_cons, List.append_assoc]
      rfl
    rw [htext] at hfuel ⊢
    have hpos := List.length_pos_iff.2 hne
    obtain ⟨fuel, rfl⟩ : ∃ n, fuel = n + 1 :=
      Nat.exists_eq_succ_of_ne_zero (by simp only [List.length_append] at hfuel; omega)
    rw [nalUnits, findAnnexBStartCode_unit _ hunit (List.isChain_cons_cons.1 h.follows).1]
    have hrest : (q.nal ++ annexBText pieces).length ≤ fuel := by
      simp only [List.length_append] at hfuel ⊢
      omega
    dsimp only
    rw [ih htail hrest]
    simp [bailIf, hne]
    rfl

/-! ## The inspection -/

namespace H264Inspection

def empty : H264Inspection :=
  { hasIdr := false, hasSps := false, hasPps := false, sps := none, maxNalUnitBytes := 0 }

/-- What the loop has collected after some units. -/
structure Collects (inspection : H264Inspection) (nals : List (List UInt8)) : Prop where
  idr : inspection.hasIdr = nals.any fun nal => nalType nal == 5
  sps : inspection.hasSps = nals.any fun nal => nalType nal == 7
  pps : inspection.hasPps = nals.any fun nal => nalType nal == 8
  last : inspection.sps = (nals.filter fun nal => nalType nal == 7).getLast?
  bound : ∀ nal ∈ nals, nal.length ≤ inspection.maxNalUnitBytes

theorem Collects.add {inspection : H264Inspection} {nals : List (List UInt8)}
    (h : Collects inspection nals) (nal : List UInt8) :
    Collects (inspection.add nal) (nals ++ [nal]) where
  idr := by simp [H264Inspection.add, h.idr]
  sps := by simp [H264Inspection.add, h.sps]
  pps := by simp [H264Inspection.add, h.pps]
  last := by
    cases hsps : nalType nal == 7 <;> simp [H264Inspection.add, h.last, hsps]
  bound := by
    intro nal' hmem
    rcases List.mem_append.1 hmem with hmem | hmem
    · exact (h.bound nal' hmem).trans (le_max_left _ _)
    · rw [List.mem_singleton.1 hmem]
      exact le_max_right _ _

theorem collects_foldl (nals : List (List UInt8)) : Collects (nals.foldl add empty) nals := by
  induction nals using List.reverseRecOn with
  | nil => exact ⟨rfl, rfl, rfl, rfl, List.forall_mem_nil _⟩
  | append_singleton nals nal ih =>
    rw [List.foldl_concat]
    exact ih.add nal

end H264Inspection

/-- The inspection of an access unit collects all of its units. -/
theorem inspectH264AnnexB_text {pieces : List AnnexBPiece} (h : AnnexB pieces) :
    ∃ inspection, inspectH264AnnexB (annexBText pieces) = .ok inspection ∧
      inspection.Collects (pieces.map nal) := by
  cases pieces with
  | nil => exact absurd rfl h.ne_nil
  | cons p pieces =>
    have htext : annexBText (p :: pieces) = p.startCode ++ (p.nal ++ annexBText pieces) := by
      rw [annexBText, List.flatMap_cons, List.append_assoc]
      rfl
    have hunits : nalUnits (annexBText (p :: pieces)).length (p.nal ++ annexBText pieces) =
        .ok ((p :: pieces).map nal) := by
      refine nalUnits_text h ?_
      rw [htext]
      exact (List.suffix_append _ _).length_le
    refine ⟨_, ?_, H264Inspection.collects_foldl ((p :: pieces).map nal)⟩
    unfold inspectH264AnnexB
    rw [htext, findAnnexBStartCode_startCode] at *
    dsimp only
    rw [hunits]
    rfl

/-! ## Accepted frames -/

/-- The parameters that were negotiated, as a parameter set states them. -/
def VideoConfig.parameters (config : VideoConfig) : ParsedSps where
  profileIdc := config.h264ProfileIdc
  levelIdc := config.h264LevelIdc
  width := config.width.toNat
  height := config.height.toNat

/-- The units of a frame agree with its event and with the negotiation. -/
structure MatchesNegotiation (config : VideoConfig) (frame : VideoH264) (nals : List (List UInt8)) :
    Prop where
  bound : ∀ nal ∈ nals, nal.length ≤ config.maxNalUnitBytes.toNat
  keyframe : frame.keyframe = nals.any fun nal => nalType nal == 5
  spsPps : frame.spsPpsPresent =
    ((nals.any fun nal => nalType nal == 7) && nals.any fun nal => nalType nal == 8)
  parameters : ∀ nal ∈ nals, nalType nal = 7 → parseBaselineSps nal = .ok config.parameters

/-- All sequence parameter sets state the same parameters. -/
def SpsAgree (nals : List (List UInt8)) : Prop :=
  ∀ nal ∈ nals, ∀ nal' ∈ nals, nalType nal = 7 → nalType nal' = 7 →
    parseBaselineSps nal = parseBaselineSps nal'

namespace MediaConversationValidator

variable {v v' : MediaConversationValidator}

/-- What the checks of a payload establish. -/
theorem checkPayload_eq_ok {config : VideoConfig} {frame : VideoH264} {payload : List UInt8}
    {inspection : H264Inspection} (h : checkPayload config frame payload = .ok inspection) :
    inspectH264AnnexB payload = .ok inspection ∧
      inspection.maxNalUnitBytes ≤ config.maxNalUnitBytes.toNat ∧
      frame.keyframe = inspection.hasIdr ∧
      frame.spsPpsPresent = (inspection.hasSps && inspection.hasPps) ∧
      ∀ sps, inspection.sps = some sps → parseBaselineSps sps = .ok config.parameters := by
  unfold checkPayload at h
  obtain ⟨annexB, hinspect, h⟩ := bind_eq_ok_iff.1 h
  obtain ⟨hbound, h⟩ := check_bind_eq_ok_iff.1 h
  obtain ⟨hflags, h⟩ := check_bind_eq_ok_iff.1 h
  simp only [bailIf_eq_ok_iff, decide_eq_false_iff_not, not_lt, Bool.or_eq_false_iff,
    bne_eq_false_iff_eq] at hbound hflags
  dsimp only at h
  split at h
  next sps hlast =>
    obtain ⟨parsed, hparsed, h⟩ := bind_eq_ok_iff.1 h
    obtain ⟨hsame, h⟩ := check_bind_eq_ok_iff.1 h
    cases h
    simp only [bailIf_eq_ok_iff, Bool.or_eq_false_iff, bne_eq_false_iff_eq] at hsame
    obtain ⟨⟨⟨hprofile, hlevel⟩, hwidth⟩, hheight⟩ := hsame
    refine ⟨hinspect, hbound, hflags.1, hflags.2, fun sps' hlast' => ?_⟩
    cases hlast.symm.trans hlast'
    rw [hparsed, VideoConfig.parameters, ← hprofile, ← hlevel, ← hwidth, ← hheight]
  next hnone =>
    cases h
    exact ⟨hinspect, hbound, hflags.1, hflags.2,
      fun sps hlast => absurd (hnone.symm.trans hlast) (Option.some_ne_none sps).symm⟩

/-- A video frame that is accepted was checked against the contract. -/
theorem checked_of_accepted {lane : MediaLane} {metadata : BinaryMediaEvent} {frame : VideoH264}
    {payload : List UInt8} (hbody : metadata.body = .videoH264 frame)
    (h : v.observeBinaryMedia lane metadata payload = (.ok .accepted, v')) :
    ∃ contract inspection, v.contract = some contract ∧
      checkPayload contract.video frame payload = .ok inspection := by
  obtain ⟨-, h⟩ := guarded_eq_ok.1 h
  obtain ⟨-, h⟩ := check_bind_eq_ok_iff.1 h
  obtain ⟨-, -, v₁, hobserve, -⟩ := observeValidated_eq_ok.1 h
  rw [hbody] at hobserve
  cases shows_of_observeVideo hobserve with
  | accepted contract annexB h => exact ⟨contract, annexB, h.negotiated, h.inspected⟩

/-- An accepted frame agrees with the negotiation in all of its units exactly if its sequence
parameter sets agree with each other: only the last of them is looked at. -/
theorem accepted_matches_iff {lane : MediaLane} {metadata : BinaryMediaEvent} {frame : VideoH264}
    {pieces : List AnnexBPiece} (hbody : metadata.body = .videoH264 frame)
    (hpieces : AnnexB pieces)
    (h : v.observeBinaryMedia lane metadata (annexBText pieces) = (.ok .accepted, v')) :
    ∃ contract, v.contract = some contract ∧
      (MatchesNegotiation contract.video frame (pieces.map nal) ↔ SpsAgree (pieces.map nal)) := by
  obtain ⟨contract, inspection, hcontract, hcheck⟩ := checked_of_accepted hbody h
  obtain ⟨hinspect, hbound, hkey, hflags, hlast⟩ := checkPayload_eq_ok hcheck
  obtain ⟨inspection', hinspect', hcollects⟩ := inspectH264AnnexB_text hpieces
  cases hinspect.symm.trans hinspect'
  refine ⟨contract, hcontract, fun hmatches => ?_, fun hagree => ?_⟩
  · intro nal hnal nal' hnal' hsps hsps'
    rw [hmatches.parameters nal hnal hsps, hmatches.parameters nal' hnal' hsps']
  · refine ⟨fun nal hnal => (hcollects.bound nal hnal).trans hbound, hkey.trans hcollects.idr,
      by rw [hflags, hcollects.sps, hcollects.pps], fun nal hnal hsps => ?_⟩
    -- there is a last parameter set, since there is one
    have hmem : nal ∈ (pieces.map AnnexBPiece.nal).filter fun nal => nalType nal == 7 :=
      List.mem_filter.2 ⟨hnal, beq_iff_eq.2 hsps⟩
    obtain ⟨sps, hsome⟩ :=
      List.getLast?_isSome.2 (List.ne_nil_of_mem hmem) |> Option.isSome_iff_exists.1
    have hspsMem := List.mem_filter.1 (List.mem_of_getLast? hsome)
    rw [hagree nal hnal sps hspsMem.1 hsps (beq_iff_eq.1 hspsMem.2)]
    exact hlast sps (hcollects.last.trans hsome)

/-! ## A frame with two parameter sets -/

def sampleTarget : NativeTargetPlan where
  kind := .display
  displayId := some 1
  windowId := none
  pid := none
  processInstanceId := none
  appIdentity := none
  bundleId := none
  application := none

def sampleVideo : VideoConfig where
  width := 640
  height := 480
  fps := 30
  bitrateKbps := 1000
  keyframeIntervalFrames := 30
  maxPendingFrames := 1
  maxAccessUnitBytes := 65536
  maxNalUnitBytes := 1200
  h264ProfileIdc := 66
  h264LevelIdc := 31

def sampleContract : StartContract where
  target := sampleTarget
  video := sampleVideo
  audio :=
    some { sampleRateHz := 48000, channels := 2, frameDurationMs := 20, maxPendingPackets := 1 }

def sampleDigest (_ : StartContract) : String := String.ofList (List.replicate 64 'd')

def sampleFence : GenerationFence where
  processGeneration := 1
  buildId := String.ofList (List.replicate 64 'b')
  sessionNonce := String.ofList (List.replicate 32 'e')
  transportEpoch := 1
  mediaSourceEpoch := 1
  contractDigest := String.ofList (List.replicate 64 'd')

def sampleCommand (sequence : UInt64) (body : CommandBody) : Command where
  schemaVersion
  protocol := protocolName
  fence := sampleFence
  sequence
  body

def sampleProof : CaptureProof where
  backend := .xcapX11
  observedTarget := sampleTarget
  nativeWidth := 640
  nativeHeight := 480
  verifiedAtMs := 1

def sampleEvent (sequence : UInt64) (body : EventBody) : EventMetadata where
  schemaVersion
  protocol := protocolName
  fence := sampleFence
  sequence
  observedAtMs := sequence
  body

/-- The validator of a conversation whose first gate has been opened. -/
def sampleActive : MediaConversationValidator :=
  let v := ((new sampleFence).registerCommand sampleDigest
    (sampleCommand 1 (.startPrepared sampleContract))).2
  let v := (v.observe .control (sampleEvent 1 (.prepared 1 sampleProof)) []).2
  let v := (v.registerCommand sampleDigest (sampleCommand 2 .activate)).2
  let v := (v.observe .control (sampleEvent 2 (.activated 2)) []).2
  (v.registerCommand sampleDigest (sampleCommand 3 (.beginMedia 2))).2

/-- The first frame of the gate. -/
def sampleKeyframe : VideoH264 where
  mediaGate := 1
  pts90khz := 1
  duration90khz := 3000
  keyframe := true
  spsPpsPresent := true
  discontinuity := true
  codecGeneration := 1
  width := 640
  height := 480
  encodeSubmittedAtMs := 1
  encodedAtMs := 1

/-- A parameter set for 640 by 480, as negotiated, and one for 320 by 240. -/
def negotiatedSps : List UInt8 := [103, 66, 192, 31, 218, 2, 128, 246, 64]

/-- A parameter set of another size. -/
def foreignSps : List UInt8 := [103, 66, 192, 31, 218, 5, 7, 228]

/-- A key frame behind the given parameter sets. -/
def keyframePieces (spss : List (List UInt8)) : List AnnexBPiece :=
  (spss ++ [[104, 206, 60, 128], [101, 136, 132]]).map fun nal => ⟨true, nal⟩

/-- The frame is accepted with a parameter set for other dimensions before the negotiated one. -/
theorem foreign_sps_accepted :
    AnnexB (keyframePieces [foreignSps, negotiatedSps]) ∧
      (sampleActive.observeBinaryMedia .video ⟨1, 1, .videoH264 sampleKeyframe⟩
        (annexBText (keyframePieces [foreignSps, negotiatedSps]))).1 = .ok .accepted ∧
      ∃ contract, sampleActive.contract = some contract ∧ ∃ parsed,
        parseBaselineSps foreignSps = .ok parsed ∧
          (parsed.width, parsed.height) ≠
            (contract.video.width.toNat, contract.video.height.toNat) :=
  ⟨⟨by decide, by decide, by decide⟩, by decide +kernel, sampleContract, by decide +kernel,
    ⟨66, 31, 320, 240⟩, by decide +kernel, by decide +kernel⟩

theorem accepted_matches_iff_oneSps :
    ∃ contract, sampleActive.contract = some contract ∧
      MatchesNegotiation contract.video sampleKeyframe
        ((keyframePieces [negotiatedSps]).map nal) := by
  have haccepted : (sampleActive.observeBinaryMedia .video ⟨1, 1, .videoH264 sampleKeyframe⟩
      (annexBText (keyframePieces [negotiatedSps]))).1 = .ok .accepted := by decide +kernel
  obtain ⟨contract, hcontract, hiff⟩ := accepted_matches_iff rfl
    (⟨by decide, by decide, by decide⟩ : AnnexB (keyframePieces [negotiatedSps]))
    (Prod.ext haccepted rfl)
  refine ⟨contract, hcontract, hiff.2 ?_⟩
  unfold SpsAgree
  decide +kernel

end MediaConversationValidator

end EasyNetDaemon.MediaSession
