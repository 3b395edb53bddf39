import Mathlib.Data.List.Basic

/-!
# Bounded channels with senders that wait

A channel of bounded capacity hands its messages over in order. A place in it is taken by a message
or by a sender that was granted one; a sender that finds no place stands in line, and the first in
line is granted the place of a message that was taken out. A sender that does not wait gives up when
no place is free. `Channel.Fair` says that places are never given out twice and that nobody stands
in line while one is free.
-/

namespace EasyNetDaemon.Library

universe u v

/-- The messages of a channel in order, the senders that hold a place, and those in line for one. -/
structure Channel (α : Type u) (τ : Type v) where
  queue : List α
  granted : List τ
  waiting : List τ
deriving DecidableEq, Repr

namespace Channel

variable {α : Type u} {τ : Type v}

def empty : Channel α τ where
  queue := []
  granted := []
  waiting := []

/-- The places that are taken. -/
def taken (c : Channel α τ) : Nat := c.queue.length + c.granted.length

/-- Nobody stands in line while a place is free. -/
structure Fair (capacity : Nat) (c : Channel α τ) : Prop where
  fits : c.taken ≤ capacity
  line : c.waiting ≠ [] → c.taken = capacity

/-- Sends if a place is free. -/
def trySend (capacity : Nat) (m : α) (c : Channel α τ) : Option (Channel α τ) :=
  if c.taken < capacity then some { c with queue := c.queue ++ [m] } else none

/-- Stands in line. -/
def standInLine (t : τ) (c : Channel α τ) : Channel α τ := { c with waiting := c.waiting ++ [t] }

/-- Sends into the place that a sender was granted. -/
def sendGranted [DecidableEq τ] (t : τ) (m : α) (c : Channel α τ) : Channel α τ :=
  { c with queue := c.queue ++ [m], granted := c.granted.erase t }

/-- The place of a message that was taken out goes to the first in line. -/
def recv (c : Channel α τ) : Option (α × Channel α τ) :=
  match c.queue with
  | [] => none
  | m :: rest =>
    some (m, {
      queue := rest
      granted := c.granted ++ c.waiting.head?.toList
      waiting := c.waiting.tail })

variable {capacity : Nat} {c c' : Channel α τ}

theorem trySend_eq_some_iff {m : α} :
    c.trySend capacity m = some c' ↔
      c.taken < capacity ∧ c' = { c with queue := c.queue ++ [m] } := by
  unfold trySend
  split
  · rename_i hlt
    simp only [Option.some.injEq, hlt, true_and, eq_comm]
  · rename_i hfull
    simp [hfull]

theorem Fair.trySend {m : α} (h : c.Fair capacity) (hc : c.trySend capacity m = some c') :
    c'.Fair capacity := by
  obtain ⟨hlt, rfl⟩ := trySend_eq_some_iff.1 hc
  refine ⟨?_, fun hline => absurd (h.line hline) (Nat.ne_of_lt hlt)⟩
  simp only [taken, List.length_append, List.length_singleton] at hlt ⊢
  omega

theorem Fair.standInLine (h : c.Fair capacity) {m : α} (hfull : c.trySend capacity m = none)
    (t : τ) : (c.standInLine t).Fair capacity := by
  refine ⟨h.fits, fun _ => ?_⟩
  have hnot : ¬ c.taken < capacity := by
    intro hlt
    rw [Channel.trySend, if_pos hlt] at hfull
    cases hfull
  exact Nat.le_antisymm h.fits (Nat.le_of_not_lt hnot)

theorem taken_sendGranted [DecidableEq τ] {t : τ} (ht : t ∈ c.granted) (m : α) :
    (c.sendGranted t m).taken = c.taken := by
  have hpos := List.length_pos_of_mem ht
  simp only [sendGranted, taken, List.length_append, List.length_singleton,
    List.length_erase_of_mem ht]
  omega

theorem Fair.sendGranted [DecidableEq τ] (h : c.Fair capacity) {t : τ} (ht : t ∈ c.granted)
    (m : α) : (c.sendGranted t m).Fair capacity := by
  constructor
  · rw [taken_sendGranted ht]
    exact h.fits
  · rw [taken_sendGranted ht]
    exact h.line

theorem recv_eq_some {m : α} (hc : c.recv = some (m, c')) :
    c.queue = m :: c'.queue ∧ c'.granted ++ c'.waiting = c.granted ++ c.waiting := by
  unfold recv at hc
  split at hc
  · cases hc
  · rename_i hq
    cases hc
    refine ⟨hq, ?_⟩
    cases c.waiting with
    | nil => simp
    | cons t ts => simp

theorem queue_of_recv_none (hc : c.recv = none) : c.queue = [] := by
  unfold recv at hc
  split at hc
  · assumption
  · cases hc

theorem taken_recv_le {m : α} (hc : c.recv = some (m, c')) : c'.taken ≤ c.taken := by
  unfold recv at hc
  split at hc
  · cases hc
  · rename_i hq
    cases hc
    have hhead : c.waiting.head?.toList.length ≤ 1 := by
      cases c.waiting with
      | nil => exact Nat.zero_le 1
      | cons t ts => exact Nat.le_refl 1
    simp only [taken, hq, List.length_cons, List.length_append]
    omega

/-- A sender in line for an empty channel means that another one holds a place. -/
theorem Fair.granted_of_queue_nil (h : c.Fair capacity) (hcap : 0 < capacity) (hq : c.queue = [])
    (hline : c.waiting ≠ []) : c.granted ≠ [] := by
  intro hnone
  have hfull := h.line hline
  simp only [taken, hq, hnone, List.length_nil] at hfull
  omega

theorem Fair.recv {m : α} (h : c.Fair capacity) (hc : c.recv = some (m, c')) :
    c'.Fair capacity := by
  unfold Channel.recv at hc
  cases hq : c.queue with
  | nil =>
    rw [hq] at hc
    cases hc
  | cons m' rest =>
    rw [hq] at hc
    cases hc
    have hfits := h.fits
    have hline := h.line
    simp only [taken, hq, List.length_cons] at hfits hline
    cases hw : c.waiting with
    | nil =>
      refine ⟨?_, fun habs => absurd rfl habs⟩
      simp only [taken, List.head?_nil, Option.toList_none, List.append_nil]
      omega
    | cons t ts =>
      have hfull := hline (by simp [hw])
      constructor <;>
        simp only [taken, List.head?_cons, Option.toList_some, List.length_append,
          List.length_singleton] <;>
        omega

end Channel

end EasyNetDaemon.Library
