import EasyNetDaemon.Eal.StepExecution
import Mathlib.Data.List.DropRight

/-!
# The capped trace buffer

The report of a mission keeps the first traces and a window of the last ones. Whatever is pushed,
the buffer holds the beginning of the pushed traces and the end of what did not fit there, and it
has counted the rest (`CappedTraceBuffer.Keeps`).
-/

namespace EasyNetDaemon.Eal

namespace CappedTraceBuffer

/-- `into_parts`: the kept traces and the number of dropped ones. -/
def intoParts (buffer : CappedTraceBuffer) :
    List StepTrace × Nat := (buffer.entries, buffer.dropped)

/-- What a buffer holds of the traces pushed into it. -/
structure Keeps (buffer : CappedTraceBuffer) (pushed : List StepTrace) : Prop where
  head : buffer.head = pushed.take traceCapHead
  tail : buffer.tail = (pushed.drop traceCapHead).rtake traceCapTail
  dropped : buffer.dropped = pushed.length - traceCapHead - traceCapTail

theorem keeps_empty : Keeps empty [] :=
  ⟨List.take_nil.symm, by rw [List.drop_nil, List.rtake_nil]; rfl, rfl⟩

/-- The window of the last `n` entries of a list, after one more entry. -/
theorem rtake_concat_of_lt {l : List StepTrace} {n : Nat} (h : l.length < n) (trace : StepTrace) :
    (l ++ [trace]).rtake n = l.rtake n ++ [trace] := by
  have hall : ∀ {xs : List StepTrace}, xs.length ≤ n → xs.rtake n = xs := by
    intro xs hxs
    rw [List.rtake, Nat.sub_eq_zero_of_le hxs, List.drop_zero]
  rw [hall (Nat.le_of_lt h), hall]
  rw [List.length_append, List.length_singleton]
  exact h

theorem rtake_concat_of_le {l : List StepTrace} {n : Nat} (hpos : 0 < n) (h : n ≤ l.length)
    (trace : StepTrace) : (l ++ [trace]).rtake n = (l.rtake n).tail ++ [trace] := by
  obtain ⟨m, rfl⟩ := Nat.exists_eq_succ_of_ne_zero (Nat.ne_of_gt hpos)
  rw [List.rtake_concat_succ, List.rtake, List.rtake, List.tail_drop]
  congr 2
  omega

theorem length_window {buffer : CappedTraceBuffer} {pushed : List StepTrace}
    (h : Keeps buffer pushed) :
    buffer.head.length = min traceCapHead pushed.length ∧
      buffer.tail.length = min traceCapTail (pushed.length - traceCapHead) := by
  rw [h.head, h.tail, List.length_take, List.rtake, List.length_drop, List.length_drop]
  refine ⟨rfl, ?_⟩
  omega

/-- Every push keeps the correspondence. -/
theorem Keeps.push {buffer : CappedTraceBuffer} {pushed : List StepTrace} (h : Keeps buffer pushed)
    (trace : StepTrace) : Keeps (buffer.push trace) (pushed ++ [trace]) := by
  obtain ⟨hhead, htail⟩ := length_window h
  have hlen : (pushed ++ [trace]).length = pushed.length + 1 := by
    rw [List.length_append, List.length_singleton]
  have hroom : 0 < traceCapTail := Nat.succ_pos _
  unfold CappedTraceBuffer.push
  by_cases hfront : pushed.length < traceCapHead
  · -- the head has room, and nothing has reached the tail
    rw [if_pos (by omega)]
    refine ⟨?_, ?_, ?_⟩
    · rw [h.head, List.take_of_length_le (Nat.le_of_lt hfront), List.take_of_length_le (by omega)]
    · rw [h.tail, List.drop_of_length_le (Nat.le_of_lt hfront), List.drop_of_length_le (by omega)]
    · rw [h.dropped]
      omega
  · have hsplit : (pushed ++ [trace]).drop traceCapHead = pushed.drop traceCapHead ++ [trace] :=
      List.drop_append_of_le_length (Nat.le_of_not_lt hfront)
    have hkept : (pushed ++ [trace]).take traceCapHead = pushed.take traceCapHead :=
      List.take_append_of_le_length (Nat.le_of_not_lt hfront)
    rw [if_neg (by omega)]
    by_cases hfull : buffer.tail.length = traceCapTail
    · -- the window moves by one trace
      rw [if_pos hfull]
      refine ⟨by rw [h.head, hkept], ?_, ?_⟩
      · have hlong : traceCapTail ≤ (pushed.drop traceCapHead).length := by
          rw [List.length_drop]
          omega
        rw [h.tail, hsplit, rtake_concat_of_le hroom hlong]
      · show buffer.dropped + 1 = _
        rw [h.dropped, hlen]
        omega
    · rw [if_neg hfull]
      refine ⟨by rw [h.head, hkept], ?_, ?_⟩
      · have hshort : (pushed.drop traceCapHead).length < traceCapTail := by
          rw [List.length_drop]
          omega
        rw [h.tail, hsplit, rtake_concat_of_lt hshort]
      · rw [h.dropped]
        omega

/-- The buffer after any sequence of pushes. -/
theorem keeps_foldl_push (traces : List StepTrace) : Keeps (traces.foldl push empty) traces := by
  induction traces using List.reverseRecOn with
  | nil => exact keeps_empty
  | append_singleton traces trace ih =>
    rw [List.foldl_concat]
    exact ih.push trace

/-- After `n` pushes the first `min n H` traces are returned and after them the last
`min (n - H) T` ones, in the order of the pushes; all others are counted as dropped. -/
theorem intoParts_foldl_push (traces : List StepTrace) :
    (traces.foldl push empty).intoParts.1 =
        traces.take (min traces.length traceCapHead) ++
          traces.rtake (min (traces.length - traceCapHead) traceCapTail) ∧
      (traces.foldl push empty).intoParts.2 =
        traces.length - (traces.foldl push empty).intoParts.1.length := by
  have h := keeps_foldl_push traces
  obtain ⟨hhead, htail⟩ := length_window h
  refine ⟨?_, ?_⟩
  · show (traces.foldl push empty).head ++ (traces.foldl push empty).tail = _
    have hstart : traceCapHead + (traces.length - traceCapHead - traceCapTail) =
        traces.length - min (traces.length - traceCapHead) traceCapTail ∨
          traces.length ≤ traceCapHead := by
      omega
    have hwindow : (traces.drop traceCapHead).rtake traceCapTail =
        traces.rtake (min (traces.length - traceCapHead) traceCapTail) := by
      rw [List.rtake, List.rtake, List.drop_drop, List.length_drop]
      obtain heq | hshort := hstart
      · rw [heq]
      · rw [List.drop_of_length_le (by omega), List.drop_of_length_le (by omega)]
    rw [h.head, h.tail, hwindow, Nat.min_comm traces.length, ← List.take_eq_take_min]
  · show (traces.foldl push empty).dropped =
      traces.length - ((traces.foldl push empty).head ++ (traces.foldl push empty).tail).length
    rw [List.length_append, h.dropped]
    omega

end CappedTraceBuffer

end EasyNetDaemon.Eal
