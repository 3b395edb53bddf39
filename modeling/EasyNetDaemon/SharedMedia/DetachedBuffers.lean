import Mathlib.Algebra.BigOperators.Group.List.Basic
import Mathlib.Algebra.Ring.Nat
import Mathlib.Data.List.Induction

/-!
# Buffers that outlive their slot

The model of `DetachedMediaBufferPool`. A call of `copy_from_slice` takes a vector out of the pool
under the lock and copies the payload into it without the lock; the drop of the returned buffer
clears the vector and gives it back under the lock. Steps of different calls and drops interleave.

A vector is a handle: its identity, by which its bytes are found in memory, and its capacity.
Writing through one handle would be seen through another one with the same identity.
-/

namespace EasyNetDaemon.SharedMedia

/-! ## Vectors -/

/-- A `Vec<u8>` without its bytes. -/
structure VecHandle where
  id : Nat
  capacity : Nat
  deriving DecidableEq, Repr

/-- `Vec::swap_remove`: the last element takes the place of the removed one. -/
def swapRemove (l : List VecHandle) (index : Nat) : List VecHandle :=
  match l.getLast? with
  | none => []
  | some last => (l.set index last).dropLast

theorem swapRemove_perm {l : List VecHandle} {index : Nat} {v : VecHandle}
    (h : l[index]? = some v) : l.Perm (v :: swapRemove l index) := by
  induction l using List.reverseRecOn with
  | nil => cases h
  | append_singleton init last =>
    simp only [swapRemove, List.getLast?_append, List.getLast?_singleton, Option.some_or]
    rcases Nat.lt_or_ge index init.length with hlt | hge
    · have hv : init[index] = v := by
        rw [List.getElem?_append_left hlt, List.getElem?_eq_getElem hlt] at h
        exact Option.some.inj h
      rw [List.set_append_left _ _ hlt, List.dropLast_concat, ← hv]
      -- both sides are the rest of `init` with the two vectors
      have hrest : (last :: init).Perm (last :: init[index] :: init.eraseIdx index) :=
        (List.getElem_cons_eraseIdx_perm hlt).symm.cons last
      have hset : (last :: init.eraseIdx index).Perm (init.set index last) :=
        (List.set_perm_cons_eraseIdx hlt last).symm
      exact (List.perm_append_singleton last init).trans
        (hrest.trans ((List.Perm.swap _ _ _).trans (hset.cons _)))
    · have hindex : index = init.length := by
        have := (List.getElem?_eq_some_iff.1 h).1
        rw [List.length_append, List.length_singleton] at this
        omega
      subst hindex
      have hv : last = v := by simpa using h
      simp only [hv, List.set_append_right _ _ (Nat.le_refl _), Nat.sub_self, List.set_cons_zero,
        List.dropLast_concat]
      exact List.perm_append_singleton v init

/-- `min_by_key` of the capacity: the first of the smallest. -/
def minByCapacity (l : List (VecHandle × Nat)) : Option (VecHandle × Nat) :=
  l.foldl (fun best x => match best with
    | none => some x
    | some b => if x.1.capacity < b.1.capacity then some x else some b) none

/-- `max_by_key` of the capacity: the last of the greatest. -/
def maxByCapacity (l : List (VecHandle × Nat)) : Option (VecHandle × Nat) :=
  l.foldl (fun best x => match best with
    | none => some x
    | some b => if b.1.capacity ≤ x.1.capacity then some x else some b) none

/-- A fold that keeps its value or takes the element ends with an element of the list. -/
theorem foldl_choice_mem {α : Type} {choose : Option α → α → Option α}
    (hchoose : ∀ best x, choose best x = some x ∨ choose best x = best) {l : List α}
    {best : Option α} {y : α} (h : l.foldl choose best = some y) : best = some y ∨ y ∈ l := by
  induction l generalizing best with
  | nil => exact Or.inl h
  | cons x l ih =>
    rcases ih h with hstep | hmem
    · rcases hchoose best x with hx | hbest
      · rw [hx] at hstep
        cases hstep
        exact Or.inr List.mem_cons_self
      · exact Or.inl (hbest.symm.trans hstep)
    · exact Or.inr (List.mem_cons_of_mem x hmem)

theorem minByCapacity_mem {l : List (VecHandle × Nat)} {y : VecHandle × Nat}
    (h : minByCapacity l = some y) : y ∈ l := by
  refine (foldl_choice_mem (fun best x => ?_) h).resolve_left (by simp)
  cases best with
  | none => exact Or.inl rfl
  | some b =>
    dsimp only
    split
    · exact Or.inl rfl
    · exact Or.inr rfl

theorem maxByCapacity_mem {l : List (VecHandle × Nat)} {y : VecHandle × Nat}
    (h : maxByCapacity l = some y) : y ∈ l := by
  refine (foldl_choice_mem (fun best x => ?_) h).resolve_left (by simp)
  cases best with
  | none => exact Or.inl rfl
  | some b =>
    dsimp only
    split
    · exact Or.inl rfl
    · exact Or.inr rfl

/-- The free vector for a payload and its index: the smallest that is large enough, or else the
largest. -/
def selectFree (free : List VecHandle) (length : Nat) : Option (VecHandle × Nat) :=
  (minByCapacity (free.zipIdx.filter fun x => length ≤ x.1.capacity)).or
    (maxByCapacity free.zipIdx)

theorem getElem?_of_selectFree {free : List VecHandle} {length : Nat} {x : VecHandle × Nat}
    (h : selectFree free length = some x) : free[x.2]? = some x.1 := by
  have hmem : x ∈ free.zipIdx := by
    rcases Option.or_eq_some_iff.1 h with hmin | ⟨-, hmax⟩
    · exact (List.mem_filter.1 (minByCapacity_mem hmin)).1
    · exact maxByCapacity_mem hmax
  exact List.mem_zipIdx_iff_getElem?.1 hmem

/-! ## The pool -/

/-- The bounds of a pool, which `new` checks to be positive. -/
structure PoolBounds where
  maxRetainedBuffers : Nat
  maxRetainedBytes : Nat
  buffers_pos : 0 < maxRetainedBuffers
  bytes_pos : 0 < maxRetainedBytes

/-- A vector in the hands of one owner, with the payload that was or is to be copied. -/
structure HeldVec where
  vec : VecHandle
  payload : List UInt8
  deriving DecidableEq, Repr

/-- The pool, the memory and who holds a vector. -/
structure DetachedMediaBufferPool where
  free : List VecHandle
  retainedBytes : Nat
  /-- The bytes of a vector. -/
  memory : Nat → List UInt8
  /-- The next identity of a new vector. -/
  next : Nat
  /-- Calls of `copy_from_slice` between the lock and their return. -/
  copying : List HeldVec
  /-- The buffers that were returned and not dropped. -/
  buffers : List HeldVec
  /-- Drops before they take the lock. -/
  dropping : List VecHandle

/-- The steps of calls on a pool. -/
inductive PoolStep
  /-- `copy_from_slice` takes a vector. -/
  | take (payload : List UInt8)
  /-- It copies into the vector and returns; a vector that is too small gets a capacity that the
  allocator chooses. -/
  | copy (call : Nat) (grown : Nat)
  /-- A buffer is dropped and its vector cleared. -/
  | drop (buffer : Nat)
  /-- The drop gives the vector back. -/
  | giveBack (drop : Nat)

namespace DetachedMediaBufferPool

def new : DetachedMediaBufferPool where
  free := []
  retainedBytes := 0
  memory _ := []
  next := 0
  copying := []
  buffers := []
  dropping := []

/-- The first part of `copy_from_slice`. -/
def take (p : DetachedMediaBufferPool) (payload : List UInt8) : DetachedMediaBufferPool :=
  match selectFree p.free payload.length with
  | some (vec, index) => { p with
      free := swapRemove p.free index
      retainedBytes := p.retainedBytes - vec.capacity
      copying := p.copying ++ [⟨vec, payload⟩] }
  -- `Vec::new`
  | none => { p with
      next := p.next + 1
      copying := p.copying ++ [⟨⟨p.next, 0⟩, payload⟩] }

/-- The capacity after `extend_from_slice` into a cleared vector. -/
def extendedCapacity (capacity length grown : Nat) : Nat :=
  if length ≤ capacity then capacity else max length grown

/-- The second part: `clear` and `extend_from_slice`. -/
def copy (p : DetachedMediaBufferPool) (call grown : Nat) : DetachedMediaBufferPool :=
  match p.copying[call]? with
  | none => p
  | some held => { p with
      copying := p.copying.eraseIdx call
      memory := Function.update p.memory held.vec.id held.payload
      buffers := p.buffers ++ [⟨⟨held.vec.id,
        extendedCapacity held.vec.capacity held.payload.length grown⟩, held.payload⟩] }

/-- `as_ref`. -/
def read (p : DetachedMediaBufferPool) (buffer : HeldVec) : List UInt8 := p.memory buffer.vec.id

/-- The first part of `drop`. -/
def drop (p : DetachedMediaBufferPool) (buffer : Nat) : DetachedMediaBufferPool :=
  match p.buffers[buffer]? with
  | none => p
  | some held => { p with
      buffers := p.buffers.eraseIdx buffer
      memory := Function.update p.memory held.vec.id []
      dropping := p.dropping ++ [held.vec] }

/-- `usize::checked_add` is within the bound. -/
def withinBytes (bounds : PoolBounds) (retainedBytes capacity : Nat) : Bool :=
  retainedBytes + capacity < 2 ^ 64 && retainedBytes + capacity ≤ bounds.maxRetainedBytes

/-- The second part. -/
def giveBack (bounds : PoolBounds) (p : DetachedMediaBufferPool) (drop : Nat) :
    DetachedMediaBufferPool :=
  match p.dropping[drop]? with
  | none => p
  | some vec =>
    if p.free.length < bounds.maxRetainedBuffers ∧
        withinBytes bounds p.retainedBytes vec.capacity = true then
      { p with
        dropping := p.dropping.eraseIdx drop
        retainedBytes := p.retainedBytes + vec.capacity
        free := p.free ++ [vec] }
    else { p with dropping := p.dropping.eraseIdx drop }

/-- One step of a pool. -/
def step (bounds : PoolBounds) (p : DetachedMediaBufferPool) : PoolStep → DetachedMediaBufferPool
  | .take payload => p.take payload
  | .copy call grown => p.copy call grown
  | .drop buffer => p.drop buffer
  | .giveBack drop => p.giveBack bounds drop

/-- A run of a pool. -/
def run (bounds : PoolBounds) (steps : List PoolStep) : DetachedMediaBufferPool :=
  steps.foldl (step bounds) new

/-! ## Invariant -/

/-- All vectors, free or held. -/
def vecIds (p : DetachedMediaBufferPool) : List Nat :=
  p.free.map VecHandle.id ++ (p.copying.map (·.vec.id) ++
    (p.buffers.map (·.vec.id) ++ p.dropping.map VecHandle.id))

/-- The accounting is exact and within bounds, every vector is in one place, and returned buffers
hold their payload. -/
structure Consistent (bounds : PoolBounds) (p : DetachedMediaBufferPool) : Prop where
  retained_eq : p.retainedBytes = (p.free.map VecHandle.capacity).sum
  retained_le : p.retainedBytes ≤ bounds.maxRetainedBytes
  length_le : p.free.length ≤ bounds.maxRetainedBuffers
  nodup : p.vecIds.Nodup
  ids_lt : ∀ id ∈ p.vecIds, id < p.next
  read_eq : ∀ buffer ∈ p.buffers, p.read buffer = buffer.payload

theorem consistent_new (bounds : PoolBounds) : new.Consistent bounds where
  retained_eq := rfl
  retained_le := Nat.zero_le _
  length_le := Nat.zero_le _
  nodup := List.nodup_nil
  ids_lt := by simp [new, vecIds]
  read_eq := by simp [new]

theorem eraseIdx_perm {α : Type} {l : List α} {i : Nat} {v : α} (h : l[i]? = some v) :
    l.Perm (v :: l.eraseIdx i) := by
  obtain ⟨hlt, rfl⟩ := List.getElem?_eq_some_iff.1 h
  exact (List.getElem_cons_eraseIdx_perm hlt).symm

section Steps

variable {bounds : PoolBounds} {p : DetachedMediaBufferPool}

/-- A step that moves vectors keeps them distinct. -/
theorem Consistent.ids_of_perm {p' : DetachedMediaBufferPool} (h : p.Consistent bounds)
    (hperm : p'.vecIds.Perm p.vecIds) (hnext : p'.next = p.next) :
    p'.vecIds.Nodup ∧ ∀ id ∈ p'.vecIds, id < p'.next := by
  refine ⟨hperm.nodup_iff.2 h.nodup, fun id hid => ?_⟩
  rw [hnext]
  exact h.ids_lt id (hperm.subset hid)

theorem vecIds_take {payload : List UInt8} {vec : VecHandle} {index : Nat}
    (h : selectFree p.free payload.length = some (vec, index)) :
    (p.take payload).vecIds.Perm p.vecIds := by
  have hfree := ((swapRemove_perm (getElem?_of_selectFree h)).map VecHandle.id)
  refine List.perm_iff_count.2 fun id => ?_
  have hcount := hfree.count_eq id
  simp only [take, h, vecIds, List.map_append, List.map_cons, List.map_nil, List.count_append,
    List.count_cons, List.count_nil] at hcount ⊢
  omega

theorem Consistent.take (h : p.Consistent bounds) (payload : List UInt8) :
    (p.take payload).Consistent bounds := by
  cases hselect : selectFree p.free payload.length with
  | none =>
    have htake : p.take payload = { p with
        next := p.next + 1
        copying := p.copying ++ [⟨⟨p.next, 0⟩, payload⟩] } := by
      simp only [DetachedMediaBufferPool.take, hselect]
    have hids : (p.take payload).vecIds.Perm (p.next :: p.vecIds) := by
      refine List.perm_iff_count.2 fun id => ?_
      simp only [htake, vecIds, List.map_append, List.map_cons, List.map_nil, List.count_append,
        List.count_cons, List.count_nil]
      omega
    have hnew : p.next ∉ p.vecIds := fun hmem => Nat.lt_irrefl _ (h.ids_lt _ hmem)
    refine ⟨?_, ?_, ?_, hids.nodup_iff.2 (List.nodup_cons.2 ⟨hnew, h.nodup⟩), ?_, ?_⟩
    · rw [htake]
      exact h.retained_eq
    · rw [htake]
      exact h.retained_le
    · rw [htake]
      exact h.length_le
    · intro id hid
      have hlt : id < p.next + 1 := by
        rcases List.mem_cons.1 (hids.subset hid) with rfl | hold
        · exact Nat.lt_succ_self _
        · exact Nat.lt_succ_of_lt (h.ids_lt id hold)
      rw [htake]
      exact hlt
    · rw [htake]
      exact h.read_eq
  | some selected =>
    obtain ⟨vec, index⟩ := selected
    have htake : p.take payload = { p with
        free := swapRemove p.free index
        retainedBytes := p.retainedBytes - vec.capacity
        copying := p.copying ++ [⟨vec, payload⟩] } := by
      simp only [DetachedMediaBufferPool.take, hselect]
    have hfree : p.free.Perm (vec :: swapRemove p.free index) :=
      swapRemove_perm (getElem?_of_selectFree hselect)
    have hsum : p.retainedBytes = vec.capacity +
        ((swapRemove p.free index).map VecHandle.capacity).sum := by
      rw [h.retained_eq, (hfree.map VecHandle.capacity).sum_eq, List.map_cons, List.sum_cons]
    have hlength := hfree.length_eq
    rw [List.length_cons] at hlength
    obtain ⟨hnodup, hlt⟩ := h.ids_of_perm (vecIds_take hselect) (by rw [htake])
    refine ⟨?_, ?_, ?_, hnodup, hlt, ?_⟩
    · rw [htake]
      dsimp only
      omega
    · rw [htake]
      exact Nat.le_trans (Nat.sub_le _ _) h.retained_le
    · rw [htake]
      have := h.length_le
      dsimp only
      omega
    · rw [htake]
      exact h.read_eq

/-- The vector of a buffer is not that of a call or of another buffer. -/
theorem Consistent.copying_disjoint (h : p.Consistent bounds) {held buffer : HeldVec}
    (hheld : held ∈ p.copying) (hbuffer : buffer ∈ p.buffers) : buffer.vec.id ≠ held.vec.id := by
  have hrest := (List.nodup_append.1 (List.nodup_append.1 h.nodup).2.1).2.2
  intro heq
  refine hrest _ (List.mem_map_of_mem hheld) buffer.vec.id ?_ heq.symm
  exact List.mem_append_left _ (List.mem_map_of_mem hbuffer)

theorem Consistent.copy (h : p.Consistent bounds) (call grown : Nat) :
    (p.copy call grown).Consistent bounds := by
  cases hheld : p.copying[call]? with
  | none =>
    simp only [DetachedMediaBufferPool.copy, hheld]
    exact h
  | some held =>
    have hperm := (eraseIdx_perm hheld).map fun held => held.vec.id
    have hids : (p.copy call grown).vecIds.Perm p.vecIds := by
      refine List.perm_iff_count.2 fun id => ?_
      have hcount := hperm.count_eq id
      simp only [DetachedMediaBufferPool.copy, hheld, vecIds, List.map_append, List.map_cons,
        List.map_nil, List.count_append, List.count_cons, List.count_nil] at hcount ⊢
      omega
    obtain ⟨hnodup, hlt⟩ := h.ids_of_perm hids
      (by simp only [DetachedMediaBufferPool.copy, hheld])
    have hmem : held ∈ p.copying := List.mem_of_getElem? hheld
    simp only [DetachedMediaBufferPool.copy, hheld] at hnodup hlt ⊢
    refine ⟨h.retained_eq, h.retained_le, h.length_le, hnodup, hlt, fun buffer hbuffer => ?_⟩
    rcases List.mem_append.1 hbuffer with hold | hnew
    · -- the copy writes to another vector
      have hread := h.read_eq buffer hold
      exact (Function.update_of_ne (h.copying_disjoint hmem hold) _ _).trans hread
    · rw [List.mem_singleton.1 hnew]
      exact Function.update_self _ _ _

theorem Consistent.drop (h : p.Consistent bounds) (buffer : Nat) :
    (p.drop buffer).Consistent bounds := by
  cases hheld : p.buffers[buffer]? with
  | none =>
    simp only [DetachedMediaBufferPool.drop, hheld]
    exact h
  | some held =>
    have hperm := (eraseIdx_perm hheld).map fun held => held.vec.id
    have hids : (p.drop buffer).vecIds.Perm p.vecIds := by
      refine List.perm_iff_count.2 fun id => ?_
      have hcount := hperm.count_eq id
      simp only [DetachedMediaBufferPool.drop, hheld, vecIds, List.map_append, List.map_cons,
        List.map_nil, List.count_append, List.count_cons, List.count_nil] at hcount ⊢
      omega
    obtain ⟨hnodup, hlt⟩ := h.ids_of_perm hids
      (by simp only [DetachedMediaBufferPool.drop, hheld])
    -- the buffers that are left have other vectors than the dropped one
    have hothers : held.vec.id ∉ (p.buffers.eraseIdx buffer).map fun held => held.vec.id := by
      have hbuffers := (List.nodup_append.1 (List.nodup_append.1 (List.nodup_append.1
        h.nodup).2.1).2.1).1
      exact (List.nodup_cons.1 (hperm.nodup_iff.1 hbuffers)).1
    simp only [DetachedMediaBufferPool.drop, hheld] at hnodup hlt ⊢
    refine ⟨h.retained_eq, h.retained_le, h.length_le, hnodup, hlt, fun other hother => ?_⟩
    have hread := h.read_eq other (List.mem_of_mem_eraseIdx hother)
    have hne : other.vec.id ≠ held.vec.id := by
      intro heq
      exact hothers (heq ▸ List.mem_map_of_mem hother)
    exact (Function.update_of_ne hne _ _).trans hread

theorem Consistent.giveBack (h : p.Consistent bounds) (drop : Nat) :
    (p.giveBack bounds drop).Consistent bounds := by
  cases hvec : p.dropping[drop]? with
  | none =>
    simp only [DetachedMediaBufferPool.giveBack, hvec]
    exact h
  | some vec =>
    have hperm := (eraseIdx_perm hvec).map VecHandle.id
    simp only [DetachedMediaBufferPool.giveBack, hvec]
    split
    · next hwithin =>
      simp only [withinBytes, Bool.and_eq_true, decide_eq_true_eq] at hwithin
      obtain ⟨hcount, -, hbytes⟩ := hwithin
      have hids : ({ p with
          dropping := p.dropping.eraseIdx drop
          retainedBytes := p.retainedBytes + vec.capacity
          free := p.free ++ [vec] } : DetachedMediaBufferPool).vecIds.Perm p.vecIds := by
        refine List.perm_iff_count.2 fun id => ?_
        have hcountId := hperm.count_eq id
        simp only [vecIds, List.map_append, List.map_cons, List.map_nil, List.count_append,
          List.count_cons, List.count_nil] at hcountId ⊢
        omega
      obtain ⟨hnodup, hlt⟩ := h.ids_of_perm hids rfl
      refine ⟨?_, hbytes, ?_, hnodup, hlt, h.read_eq⟩
      · rw [List.map_append, List.sum_append, ← h.retained_eq, List.map_singleton,
          List.sum_singleton]
      · rw [List.length_append, List.length_singleton]
        exact hcount
    · -- the vector is deallocated
      have hsub : ({ p with dropping := p.dropping.eraseIdx drop } :
          DetachedMediaBufferPool).vecIds.Sublist p.vecIds :=
        (((((List.eraseIdx_sublist _ _).map VecHandle.id).append_left _).append_left _).append_left
          _)
      exact ⟨h.retained_eq, h.retained_le, h.length_le, h.nodup.sublist hsub,
        fun id hid => h.ids_lt id (hsub.subset hid), h.read_eq⟩

theorem Consistent.step (h : p.Consistent bounds) (step : PoolStep) :
    (p.step bounds step).Consistent bounds := by
  cases step with
  | take payload => exact h.take payload
  | copy call grown => exact h.copy call grown
  | drop buffer => exact h.drop buffer
  | giveBack drop => exact h.giveBack drop

end Steps

theorem consistent_run (bounds : PoolBounds) (steps : List PoolStep) :
    (run bounds steps).Consistent bounds := by
  induction steps using List.reverseRecOn with
  | nil => exact consistent_new bounds
  | append_singleton steps step ih =>
    rw [run, List.foldl_append]
    exact ih.step step

/-- After every sequence of steps of calls and drops: each returned buffer holds its payload, no
vector is in two hands or in a hand and in the pool, and the bytes and the number of the free
vectors are accounted for and within their bounds. -/
theorem buffers_consistent (bounds : PoolBounds) (steps : List PoolStep) :
    (∀ buffer ∈ (run bounds steps).buffers, (run bounds steps).read buffer = buffer.payload) ∧
    (run bounds steps).vecIds.Nodup ∧
    (run bounds steps).retainedBytes = ((run bounds steps).free.map VecHandle.capacity).sum ∧
    (run bounds steps).retainedBytes ≤ bounds.maxRetainedBytes ∧
    (run bounds steps).free.length ≤ bounds.maxRetainedBuffers :=
  have h := consistent_run bounds steps
  ⟨h.read_eq, h.nodup, h.retained_eq, h.retained_le, h.length_le⟩

/-- A vector that grew is given back with its new capacity, and taken again for a smaller
payload. -/
example :
    let p := run ⟨2, 16, by decide, by decide⟩
      [.take [1, 2, 3], .copy 0 8, .drop 0, .giveBack 0, .take [4], .copy 0 0]
    p.retainedBytes = 0 ∧ p.buffers = [⟨⟨0, 8⟩, [4]⟩] := by
  decide

end DetachedMediaBufferPool

end EasyNetDaemon.SharedMedia
