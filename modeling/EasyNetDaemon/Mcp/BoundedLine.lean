import Mathlib.Data.List.Basic
import Mathlib.Data.List.TakeWhile

/-!
# The line reader of the MCP server

The server reads newline-delimited requests through a buffered reader, which hands out the input in
pieces of any size. A line of more than the permitted length is read to its end and refused; of a
carriage return at the end of a piece it is not known yet whether it belongs to the line.

The lines that the server handles are the lines of the byte stream, whatever the pieces: in order,
without their line ends, and each one once.
-/

namespace EasyNetDaemon.Mcp

def lf : UInt8 := 10

def cr : UInt8 := 13

/-- How a read of a line ends. -/
inductive BoundedLineRead
  | eof
  | line
  | tooLong
  deriving DecidableEq, Repr

/-- A buffered reader: the pieces that `fill_buf` will return. An empty one would mean the end. -/
structure Reader where
  pieces : List (List UInt8)
  nonempty : ∀ piece ∈ pieces, piece ≠ []

/-- The unread bytes. -/
def Reader.bytes (r : Reader) : List UInt8 := r.pieces.flatten

/-! ## Reading one line -/

/-- The local variables of `read_bounded_line`. -/
structure LineState where
  line : List UInt8
  sawInput : Bool
  tooLong : Bool
  pendingCr : Bool

namespace LineState

def start : LineState := { line := [], sawInput := false, tooLong := false, pendingCr := false }

/-- Adds bytes up to the bound. -/
def appendBounded (maxLength : Nat) (s : LineState) (bytes : List UInt8) : LineState :=
  if s.tooLong then s
  else
    let copied := min bytes.length (maxLength - s.line.length)
    { s with line := s.line ++ bytes.take copied, tooLong := copied < bytes.length }

/-- The result at the end of a line. -/
def result (s : LineState) : BoundedLineRead := if s.tooLong then .tooLong else .line

/-- Appends the carriage return that was held back. -/
def flushCr (maxLength : Nat) (s : LineState) : LineState :=
  if s.pendingCr then { s.appendBounded maxLength [cr] with pendingCr := false } else s

end LineState

/-- The pieces after a piece of which `left` was not consumed. -/
def unread (left : List UInt8) (rest : List (List UInt8)) : List (List UInt8) :=
  if left.isEmpty then rest else left :: rest

/-- The loop of `read_bounded_line`: the result, the line, and the pieces that are left. -/
def readLoop (maxLength : Nat) :
    LineState → List (List UInt8) → BoundedLineRead × List UInt8 × List (List UInt8)
  | s, [] =>
    let s := s.flushCr maxLength
    (if !s.sawInput then .eof else s.result, s.line, [])
  | s, available :: rest =>
    let s := { s with sawInput := true }
    if s.pendingCr && available.head? == some lf then
      (s.result, s.line, unread (available.drop 1) rest)
    else
      let s := s.flushCr maxLength
      match available.findIdx? (· == lf) with
      | some index =>
        let payloadLen :=
          if 0 < index && available[index - 1]? == some cr then index - 1 else index
        let s := s.appendBounded maxLength (available.take payloadLen)
        (s.result, s.line, unread (available.drop (index + 1)) rest)
      | none =>
        if available.getLast? == some cr then
          readLoop maxLength
            { s.appendBounded maxLength available.dropLast with pendingCr := true } rest
        else readLoop maxLength (s.appendBounded maxLength available) rest

/-! ## The lines of a byte stream -/

/-- The text without one carriage return at its end. -/
def stripCr (text : List UInt8) : List UInt8 :=
  if text.getLast? = some cr then text.dropLast else text

/-- The first line of a stream. A carriage return that no newline follows belongs to the line. -/
def firstLine (input : List UInt8) : List UInt8 :=
  if lf ∈ input then stripCr (input.takeWhile (· != lf)) else input

/-- What follows the first line. -/
def afterLine (input : List UInt8) : List UInt8 := (input.dropWhile (· != lf)).tail

theorem length_afterLine_lt {input : List UInt8} (h : input ≠ []) :
    (afterLine input).length < input.length := by
  have hle := (List.dropWhile_suffix (l := input) (· != lf)).length_le
  have hpos := List.length_pos_iff.2 h
  rw [afterLine, List.length_tail]
  omega

/-- The lines of a stream. -/
def linesOf (input : List UInt8) : List (List UInt8) :=
  if input = [] then [] else firstLine input :: linesOf (afterLine input)
termination_by input.length
decreasing_by exact length_afterLine_lt ‹_›

/-- What reading the first line of a stream answers. -/
def lineRead (maxLength : Nat) (input : List UInt8) : BoundedLineRead :=
  if input = [] then .eof else if maxLength < (firstLine input).length then .tooLong else .line

theorem ne_lf_of_mem {before : List UInt8} (h : lf ∉ before) : ∀ b ∈ before, (b != lf) = true := by
  intro b hb
  simpa using ne_of_mem_of_not_mem hb h

theorem firstLine_of_newline {before : List UInt8} (h : lf ∉ before) (after : List UInt8) :
    firstLine (before ++ lf :: after) = stripCr before := by
  rw [firstLine, if_pos (by simp), List.takeWhile_append_of_pos (ne_lf_of_mem h)]
  simp

theorem afterLine_of_newline {before : List UInt8} (h : lf ∉ before) (after : List UInt8) :
    afterLine (before ++ lf :: after) = after := by
  rw [afterLine, List.dropWhile_append_of_pos (ne_lf_of_mem h)]
  simp

theorem afterLine_of_not_mem {input : List UInt8} (h : lf ∉ input) : afterLine input = [] := by
  rw [afterLine, List.dropWhile_eq_nil_iff.2 (ne_lf_of_mem h), List.tail_nil]

theorem stripCr_append {bytes : List UInt8} (h : bytes ≠ []) (text : List UInt8) :
    stripCr (text ++ bytes) = text ++ stripCr bytes := by
  simp only [stripCr, List.getLast?_append_of_ne_nil text h, List.dropLast_append_of_ne_nil h]
  split <;> rfl

/-! ## The loop against the stream -/

namespace LineState

/-- The state has taken `text` into the line, as far as it fits. -/
structure Holds (maxLength : Nat) (s : LineState) (text : List UInt8) : Prop where
  line : s.line = text.take maxLength
  tooLong : s.tooLong = decide (maxLength < text.length)

variable {maxLength : Nat} {s : LineState} {text : List UInt8}

theorem Holds.appendBounded (h : s.Holds maxLength text) (bytes : List UInt8) :
    (s.appendBounded maxLength bytes).Holds maxLength (text ++ bytes) := by
  unfold LineState.appendBounded
  by_cases hlong : maxLength < text.length
  · rw [if_pos (by rw [h.tooLong]; simpa using hlong)]
    constructor
    · rw [h.line, List.take_append_of_le_length hlong.le]
    · rw [h.tooLong, List.length_append]
      simp only [decide_eq_decide]
      omega
  · rw [if_neg (by rw [h.tooLong]; simpa using hlong)]
    have hline : s.line = text := by rw [h.line, List.take_of_length_le (by omega)]
    constructor
    · simp only [hline, List.take_append, List.take_of_length_le (Nat.le_of_not_lt hlong)]
      rw [Nat.min_comm, ← List.take_eq_take_min]
    · simp only [hline, List.length_append, decide_eq_decide]
      omega

theorem Holds.result_eq (h : s.Holds maxLength text) :
    s.result = if maxLength < text.length then .tooLong else .line := by
  simp only [result, h.tooLong, decide_eq_true_eq]

@[simp] theorem appendBounded_sawInput (bytes : List UInt8) :
    (s.appendBounded maxLength bytes).sawInput = s.sawInput := by
  unfold LineState.appendBounded
  split <;> rfl

@[simp] theorem appendBounded_pendingCr (bytes : List UInt8) :
    (s.appendBounded maxLength bytes).pendingCr = s.pendingCr := by
  unfold LineState.appendBounded
  split <;> rfl

/-- The state after the pieces `seen`, none of which had a newline: all of them is in the line but
the carriage return at the end. -/
structure Read (maxLength : Nat) (s : LineState) (seen : List UInt8) : Prop where
  holds : s.Holds maxLength (stripCr seen)
  pendingCr : s.pendingCr = decide (seen.getLast? = some cr)

theorem Read.flushCr {seen : List UInt8} (h : s.Read maxLength seen) :
    (s.flushCr maxLength).Holds maxLength seen := by
  unfold LineState.flushCr
  by_cases hlast : seen.getLast? = some cr
  · rw [if_pos (by rw [h.pendingCr]; simpa using hlast)]
    have happend := h.holds.appendBounded [cr]
    rw [stripCr, if_pos hlast, List.dropLast_append_getLast? cr hlast] at happend
    exact ⟨happend.line, happend.tooLong⟩
  · rw [if_neg (by rw [h.pendingCr]; simpa using hlast)]
    have hholds := h.holds
    rwa [stripCr, if_neg hlast] at hholds

/-- Taking in the next bytes. A carriage return that is held back is followed by some byte. -/
theorem Read.append {seen bytes : List UInt8} (h : s.Read maxLength seen)
    (hfollowed : bytes = [] → seen.getLast? ≠ some cr) :
    ((s.flushCr maxLength).appendBounded maxLength (stripCr bytes)).Holds maxLength
      (stripCr (seen ++ bytes)) := by
  have happend := h.flushCr.appendBounded (stripCr bytes)
  by_cases hbytes : bytes = []
  · subst hbytes
    rw [List.append_nil]
    rwa [show seen ++ stripCr [] = stripCr seen by simp [stripCr, hfollowed rfl]] at happend
  · rwa [stripCr_append hbytes]

@[simp] theorem flushCr_sawInput : (s.flushCr maxLength).sawInput = s.sawInput := by
  unfold LineState.flushCr
  split <;> simp

@[simp] theorem flushCr_pendingCr : (s.flushCr maxLength).pendingCr = false := by
  unfold LineState.flushCr
  split <;> simp_all

end LineState

/-- What `read_bounded_line` is to return on a stream. -/
structure ReadsLine (maxLength : Nat) (input : List UInt8)
    (r : BoundedLineRead × List UInt8 × List (List UInt8)) : Prop where
  status : r.1 = lineRead maxLength input
  line : r.2.1 = (firstLine input).take maxLength
  rest : r.2.2.flatten = afterLine input
  nonempty : ∀ piece ∈ r.2.2, piece ≠ []

/-- The return at a newline, with `before` read before it. -/
theorem readsLine_of_newline {maxLength : Nat} {s : LineState} {before : List UInt8}
    {rest : List (List UInt8)} (left : List UInt8) (hs : s.Holds maxLength (stripCr before))
    (hbefore : lf ∉ before) (hrest : ∀ piece ∈ rest, piece ≠ []) :
    ReadsLine maxLength (before ++ lf :: (left ++ rest.flatten))
      (s.result, s.line, unread left rest) := by
  constructor
  · rw [lineRead, if_neg (by simp), firstLine_of_newline hbefore, hs.result_eq]
  · rw [firstLine_of_newline hbefore, hs.line]
  · rw [afterLine_of_newline hbefore, unread]
    split
    · simp_all
    · rfl
  · intro piece hpiece
    rw [unread] at hpiece
    split at hpiece
    · exact hrest piece hpiece
    · rename_i hleft
      rcases List.mem_cons.1 hpiece with rfl | hpiece
      · simpa using hleft
      · exact hrest piece hpiece

theorem take_payload (available : List UInt8) {index : Nat} (hindex : index < available.length) :
    available.take
        (if 0 < index && available[index - 1]? == some cr then index - 1 else index) =
      stripCr (available.take index) := by
  cases index with
  | zero => simp [stripCr]
  | succ n =>
    have hlast : (available.take (n + 1)).getLast? = available[n]? := by
      rw [List.getLast?_take, if_neg (Nat.succ_ne_zero n), Nat.add_sub_cancel,
        List.getElem?_eq_getElem (by omega), Option.some_or]
    rw [stripCr, hlast, List.dropLast_take hindex]
    simp only [Nat.zero_lt_succ, decide_true, Bool.true_and, Nat.add_sub_cancel, beq_iff_eq]
    split <;> rfl

theorem split_at_newline {available : List UInt8} {index : Nat}
    (h : available.findIdx? (· == lf) = some index) : index < available.length ∧
      available = available.take index ++ lf :: available.drop (index + 1) ∧
      lf ∉ available.take index := by
  obtain ⟨hindex, hlf, hbefore⟩ := List.findIdx?_eq_some_iff_getElem.1 h
  refine ⟨hindex, ?_, fun hmem => ?_⟩
  · rw [← beq_iff_eq.1 hlf, ← List.drop_eq_getElem_cons hindex, List.take_append_drop]
  · obtain ⟨j, hj, hget⟩ := List.mem_take_iff_getElem.1 hmem
    exact absurd (beq_iff_eq.2 hget) (hbefore j (by omega))

/-- The loop reads the first line of what was seen and of what is still to come. The induction is
over the pieces; `seen` collects those without a newline. -/
theorem readLoop_readsLine (maxLength : Nat) (pieces : List (List UInt8)) {s : LineState}
    {seen : List UInt8} (hs : s.Read maxLength seen) (hsaw : s.sawInput = !seen.isEmpty)
    (hseen : lf ∉ seen) (hpieces : ∀ piece ∈ pieces, piece ≠ []) :
    ReadsLine maxLength (seen ++ pieces.flatten) (readLoop maxLength s pieces) := by
  induction pieces generalizing s seen with
  | nil =>
    have hflush := hs.flushCr
    rw [List.flatten_nil, List.append_nil]
    simp only [readLoop, LineState.flushCr_sawInput, hsaw, hflush.result_eq]
    refine ⟨?_, ?_, ?_, by simp⟩
    · simp [lineRead, firstLine, hseen]
    · rw [hflush.line, firstLine, if_neg hseen]
    · rw [afterLine_of_not_mem hseen, List.flatten_nil]
  | cons available rest ih =>
    have hne := hpieces available List.mem_cons_self
    have hrest := fun piece hp => hpieces piece (List.mem_cons_of_mem available hp)
    have hs' : { s with sawInput := true : LineState }.Read maxLength seen :=
      ⟨⟨hs.holds.line, hs.holds.tooLong⟩, hs.pendingCr⟩
    simp only [readLoop, List.flatten_cons]
    by_cases hcr : (s.pendingCr && available.head? == some lf) = true
    · -- the newline that the carriage return waited for
      rw [if_pos hcr]
      simp only [Bool.and_eq_true, beq_iff_eq] at hcr
      obtain ⟨left, rfl⟩ := List.head?_eq_some_iff.1 hcr.2
      exact readsLine_of_newline left hs'.holds hseen hrest
    rw [if_neg hcr]
    cases hfind : available.findIdx? (· == lf) with
    | some index =>
      obtain ⟨hindex, hsplit, hbefore⟩ := split_at_newline hfind
      have hfollowed : available.take index = [] → seen.getLast? ≠ some cr := by
        intro hnil hlast
        rw [hnil, List.nil_append] at hsplit
        apply hcr
        rw [hsplit, hs.pendingCr]
        simpa using hlast
      have hclean : lf ∉ seen ++ available.take index := by
        simp [List.mem_append, hseen, hbefore]
      have hread := readsLine_of_newline (available.drop (index + 1)) (hs'.append hfollowed)
        hclean hrest
      simp only [take_payload available hindex]
      rwa [← List.cons_append, ← List.append_assoc, List.append_assoc seen, ← hsplit,
        List.append_assoc] at hread
    | none =>
      have hclean : lf ∉ seen ++ available := by
        rw [List.mem_append, not_or]
        exact ⟨hseen, fun hmem => by simpa using List.findIdx?_eq_none_iff.1 hfind lf hmem⟩
      have hholds := hs'.append (fun hnil : available = [] => absurd hnil hne)
      have hlast := List.getLast?_append_of_ne_nil seen hne
      rw [← List.append_assoc]
      by_cases hend : available.getLast? = some cr
      · rw [stripCr, if_pos hend] at hholds
        simp only [hend, beq_self_eq_true, if_true]
        refine ih ⟨⟨hholds.line, hholds.tooLong⟩, ?_⟩ ?_ hclean hrest
        · simp [hlast, hend]
        · simp [hne]
      · rw [stripCr, if_neg hend] at hholds
        simp only [beq_iff_eq, hend, if_false]
        refine ih ⟨hholds, ?_⟩ ?_ hclean hrest
        · simp [hlast, hend]
        · simp [hne]

theorem read_start (maxLength : Nat) : LineState.start.Read maxLength [] :=
  ⟨⟨by simp [LineState.start, stripCr], by simp [LineState.start, stripCr]⟩, rfl⟩

theorem readLoop_start (maxLength : Nat) (r : Reader) :
    ReadsLine maxLength r.bytes (readLoop maxLength .start r.pieces) :=
  readLoop_readsLine maxLength r.pieces (read_start maxLength) rfl List.not_mem_nil r.nonempty

/-- `read_bounded_line`. -/
def readBoundedLine (maxLength : Nat) (r : Reader) : BoundedLineRead × List UInt8 × Reader :=
  let read := readLoop maxLength .start r.pieces
  (read.1, read.2.1, ⟨read.2.2, (readLoop_start maxLength r).nonempty⟩)

theorem readBoundedLine_eq {maxLength : Nat} {r rest : Reader} {status : BoundedLineRead}
    {line : List UInt8} (h : readBoundedLine maxLength r = (status, line, rest)) :
    status = lineRead maxLength r.bytes ∧ line = (firstLine r.bytes).take maxLength ∧
      rest.bytes = afterLine r.bytes := by
  have hread := readLoop_start maxLength r
  cases h
  exact ⟨hread.status, hread.line, hread.rest⟩

theorem lineRead_spec (maxLength : Nat) (input : List UInt8) :
    match lineRead maxLength input with
    | .eof => input = []
    | .tooLong => input ≠ [] ∧ maxLength < (firstLine input).length
    | .line => input ≠ [] ∧ (firstLine input).length ≤ maxLength := by
  unfold lineRead
  split_ifs with hnil hlong
  · exact hnil
  · exact ⟨hnil, hlong⟩
  · exact ⟨hnil, Nat.le_of_not_lt hlong⟩

/-! ## The server loop -/

/-- What the server does with a line and with a line that is too long; both write to the output, and
an error ends the loop. -/
structure LineHandler (σ E : Type) where
  handleLine : σ → List UInt8 → Except E σ
  refuse : σ → Except E σ

variable {σ E : Type}

/-- `StdioMcpServer::run`. -/
def run (maxLength : Nat) (server : LineHandler σ E) (s : σ) (r : Reader) : Except E σ :=
  match _h : readBoundedLine maxLength r with
  | (.eof, _, _) => .ok s
  | (.tooLong, _, rest) => server.refuse s >>= fun s => run maxLength server s rest
  | (.line, line, rest) => server.handleLine s line >>= fun s => run maxLength server s rest
termination_by r.bytes.length
decreasing_by
  all_goals
    obtain ⟨hstatus, -, hrest⟩ := readBoundedLine_eq _h
    have hspec := lineRead_spec maxLength r.bytes
    rw [← hstatus] at hspec
    rw [hrest]
    exact length_afterLine_lt hspec.1

/-- What the server does with one line of the stream. -/
def LineHandler.onLine (server : LineHandler σ E) (maxLength : Nat) (s : σ) (line : List UInt8) :
    Except E σ :=
  if maxLength < line.length then server.refuse s else server.handleLine s line

theorem run_step (maxLength : Nat) (server : LineHandler σ E) (s : σ) (r : Reader) :
    run maxLength server s r =
      if r.bytes = [] then .ok s
      else server.onLine maxLength s (firstLine r.bytes) >>= fun s =>
        run maxLength server s (readBoundedLine maxLength r).2.2 := by
  rcases hread : readBoundedLine maxLength r with ⟨status, line, rest⟩
  obtain ⟨hstatus, hline, -⟩ := readBoundedLine_eq hread
  have hspec := lineRead_spec maxLength r.bytes
  rw [← hstatus] at hspec
  rw [run, hread]
  cases status with
  | eof => rw [if_pos hspec]
  | tooLong => rw [if_neg hspec.1, LineHandler.onLine, if_pos hspec.2]
  | line =>
    rw [if_neg hspec.1, LineHandler.onLine, if_neg (Nat.not_lt.2 hspec.2), hline,
      List.take_of_length_le hspec.2]

/-- Whatever the pieces in which its input arrives, the server handles the lines of the byte stream:
every line once, in order, in full or not at all. -/
theorem run_eq_foldlM_lines (maxLength : Nat) (server : LineHandler σ E) (s : σ) (r : Reader) :
    run maxLength server s r = (linesOf r.bytes).foldlM (server.onLine maxLength) s := by
  -- each read takes the first line off the stream
  generalize hn : r.bytes.length = n
  induction n using Nat.strong_induction_on generalizing s r with
  | _ n ih =>
    rw [run_step, linesOf]
    by_cases hnil : r.bytes = []
    · rw [if_pos hnil, if_pos hnil]
      rfl
    · rw [if_neg hnil, if_neg hnil, List.foldlM_cons]
      have hrest := (readLoop_start maxLength r).rest
      refine bind_congr fun s => ?_
      rw [ih _ ?_ s (readBoundedLine maxLength r).2.2 rfl]
      · exact congrArg (fun bytes => (linesOf bytes).foldlM (server.onLine maxLength) s) hrest
      · rw [← hn]
        exact (congrArg List.length hrest).trans_lt (length_afterLine_lt hnil)

end EasyNetDaemon.Mcp
