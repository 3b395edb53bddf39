import Mathlib.Data.List.Basic

/-!
# Several queues, one of them popped at a time

Tasks that emit their messages one by one are a list of queues; a step pops the head of one of them.
When the messages of a key are all in one queue (`KeysApart`), popping takes the messages of each
key in the order in which the queues hold them (`filter_flatten_pop`).
-/

namespace EasyNetDaemon.Library

universe u v

section Split

variable {α : Type u}

/-- A list around one of its positions, and after the element there was replaced. -/
theorem exists_split_set {l : List α} {i : Nat} {a : α} (h : l[i]? = some a) :
    ∃ l₁ l₂, l = l₁ ++ a :: l₂ ∧ ∀ b, l.set i b = l₁ ++ b :: l₂ := by
  obtain ⟨hi, rfl⟩ := List.getElem?_eq_some_iff.1 h
  refine ⟨l.take i, l.drop (i + 1), ?_, fun b => ?_⟩
  · rw [← List.drop_eq_getElem_cons hi, List.take_append_drop]
  · exact List.set_eq_take_append_cons_drop ▸ if_pos hi

theorem exists_split_eraseIdx {l : List α} {i : Nat} {a : α} (h : l[i]? = some a) :
    ∃ l₁ l₂, l = l₁ ++ a :: l₂ ∧ l.eraseIdx i = l₁ ++ l₂ := by
  obtain ⟨hi, rfl⟩ := List.getElem?_eq_some_iff.1 h
  refine ⟨l.take i, l.drop (i + 1), ?_, List.eraseIdx_eq_take_drop_succ l i⟩
  rw [← List.drop_eq_getElem_cons hi, List.take_append_drop]

end Split

variable {α : Type u} {κ : Type v} (key : α → κ)

/-- Two queues with messages of one key are the same queue. -/
def KeysApart (queues : List (List α)) : Prop :=
  queues.Pairwise fun q q' => ∀ x ∈ q, ∀ y ∈ q', key x ≠ key y

variable {key}

theorem KeysApart.pop {queues : List (List α)} {i : Nat} {x : α} {rest : List α}
    (h : KeysApart key queues) (hi : queues[i]? = some (x :: rest)) :
    KeysApart key (queues.set i rest) := by
  obtain ⟨l₁, l₂, rfl, hset⟩ := exists_split_set hi
  rw [hset]
  rw [KeysApart, List.pairwise_append, List.pairwise_cons] at h ⊢
  obtain ⟨h₁, ⟨hhead, h₂⟩, hcross⟩ := h
  refine ⟨h₁, ⟨?_, h₂⟩, ?_⟩
  · intro q hq y hy
    exact hhead q hq y (List.mem_cons_of_mem x hy)
  · intro q hq q' hq' y hy z hz
    rcases List.mem_cons.1 hq' with rfl | hq'
    · exact hcross q hq _ List.mem_cons_self y hy z (List.mem_cons_of_mem x hz)
    · exact hcross q hq q' (List.mem_cons_of_mem _ hq') y hy z hz

theorem KeysApart.append_queue {queues : List (List α)} {q : List α} (h : KeysApart key queues)
    (hq : ∀ q' ∈ queues, ∀ x ∈ q', ∀ y ∈ q, key x ≠ key y) : KeysApart key (queues ++ [q]) := by
  refine List.pairwise_append.2 ⟨h, List.pairwise_singleton _ _, ?_⟩
  intro q' hq' q'' hq'' x hx y hy
  rw [List.mem_singleton] at hq''
  subst hq''
  exact hq q' hq' x hx y hy

/-- A queue that was empty may be filled with messages of keys that no queue has. -/
theorem KeysApart.fill {queues : List (List α)} {i : Nat} {q : List α} (h : KeysApart key queues)
    (hi : queues[i]? = some []) (hq : ∀ q' ∈ queues, ∀ x ∈ q', ∀ y ∈ q, key x ≠ key y) :
    KeysApart key (queues.set i q) := by
  obtain ⟨l₁, l₂, rfl, hset⟩ := exists_split_set hi
  rw [hset]
  rw [KeysApart, List.pairwise_append, List.pairwise_cons] at h ⊢
  obtain ⟨h₁, ⟨-, h₂⟩, hcross⟩ := h
  refine ⟨h₁, ⟨?_, h₂⟩, ?_⟩
  · intro q' hq' y hy x hx
    exact (hq q' (by simp [hq']) x hx y hy).symm
  · intro q₁ hq₁ q₂ hq₂ x hx y hy
    rcases List.mem_cons.1 hq₂ with rfl | hq₂
    · exact hq q₁ (by simp [hq₁]) x hx y hy
    · exact hcross q₁ hq₁ q₂ (List.mem_cons_of_mem _ hq₂) x hx y hy

/-- The popped message comes first among the messages of its key. -/
theorem filter_flatten_pop [DecidableEq κ] {queues : List (List α)} {i : Nat} {x : α}
    {rest : List α} (h : KeysApart key queues) (hi : queues[i]? = some (x :: rest)) (k : κ) :
    queues.flatten.filter (fun y => key y = k) =
      [x].filter (fun y => key y = k) ++
        (queues.set i rest).flatten.filter (fun y => key y = k) := by
  obtain ⟨l₁, l₂, rfl, hset⟩ := exists_split_set hi
  rw [hset]
  by_cases hk : key x = k
  · -- the queues before this one have no message of the key
    have hnone : l₁.flatten.filter (fun y => key y = k) = [] := by
      rw [List.filter_eq_nil_iff]
      intro y hy
      obtain ⟨q, hq, hyq⟩ := List.mem_flatten.1 hy
      have hne := (List.pairwise_append.1 h).2.2 q hq _ List.mem_cons_self y hyq x
        List.mem_cons_self
      simpa [hk] using hne
    simp [hk, hnone]
  · simp [hk]

section Fill

variable {queues : List (List α)} {i : Nat} {p : α → Bool}

/-- Filling an empty queue, seen by a test that no queued message passes. -/
theorem filter_flatten_fill (hi : queues[i]? = some []) (hnone : queues.flatten.filter p = [])
    (q : List α) : (queues.set i q).flatten.filter p = q.filter p := by
  obtain ⟨l₁, l₂, rfl, hset⟩ := exists_split_set hi
  rw [hset]
  simp only [List.flatten_append, List.flatten_cons, List.nil_append, List.filter_append,
    List.append_eq_nil_iff] at hnone ⊢
  rw [hnone.1, hnone.2, List.nil_append, List.append_nil]

/-- Filling an empty queue with messages that fail a test. -/
theorem filter_flatten_fill_of_none (hi : queues[i]? = some []) {q : List α}
    (hq : q.filter p = []) : (queues.set i q).flatten.filter p = queues.flatten.filter p := by
  obtain ⟨l₁, l₂, rfl, hset⟩ := exists_split_set hi
  rw [hset]
  simp only [List.flatten_append, List.flatten_cons, List.nil_append, List.filter_append, hq]

end Fill

end EasyNetDaemon.Library
