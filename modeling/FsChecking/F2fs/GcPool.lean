import FsChecking.Lib.Selection

/-!
# Victim pool of garbage collection

`GcPoolHeap<N, SEG_TYPE>`: a large-top heap that keeps the `N - 1` segments with the fewest valid
blocks pushed so far, and hands them out in ascending order after sorting. The key of a segment is
read when segments are compared, so it is a parameter of every operation.
-/

namespace FsChecking.F2fs

open FsChecking.Lib

variable {κ : Type}

/-- `GcPoolHeap` before sorting: the large-top heap. -/
structure GcPool (κ : Type) where
  /-- `large_heap`. -/
  heap : Nat → κ
  /-- `large_len`. -/
  len : Nat

namespace GcPool

/-- Store a segment at a place of the heap. -/
def put (pool : GcPool κ) (place : Nat) (seg : κ) : GcPool κ :=
  { pool with heap := Function.update pool.heap place seg }

/-- The loop of `large_add`: move smaller parents down until the new segment fits. A round at least
halves the place, which bounds the rounds. -/
def siftUp (validBlkNr : κ → Nat) (seg : κ) : Nat → Nat → GcPool κ → GcPool κ
  | 0, cur, pool => pool.put cur seg
  | fuel + 1, cur, pool =>
    if cur = 0 then pool.put cur seg
    else
      let parent := (cur - 1) / 2
      if validBlkNr seg ≤ validBlkNr (pool.heap parent) then pool.put cur seg
      else siftUp validBlkNr seg fuel parent (pool.put cur (pool.heap parent))

/-- `large_add`. -/
def largeAdd (validBlkNr : κ → Nat) (pool : GcPool κ) (seg : κ) : GcPool κ :=
  { siftUp validBlkNr seg pool.len pool.len pool with len := pool.len + 1 }

/-- The larger child of a place, if it is larger than the segment that is being placed. -/
def largerChild (validBlkNr : κ → Nat) (seg : κ) (pool : GcPool κ) (cur : Nat) : Nat :=
  let left := cur * 2 + 1
  let right := left + 1
  let largest :=
    if left < pool.len ∧ validBlkNr (pool.heap left) > validBlkNr seg then left else cur
  let largestVal := if largest = cur then validBlkNr seg else validBlkNr (pool.heap left)
  if right < pool.len ∧ validBlkNr (pool.heap right) > largestVal then right else largest

/-- The loop of `large_heapify`: move larger children up until the segment fits. -/
def siftDown (validBlkNr : κ → Nat) (seg : κ) : Nat → Nat → GcPool κ → GcPool κ
  | 0, cur, pool => pool.put cur seg
  | fuel + 1, cur, pool =>
    let largest := largerChild validBlkNr seg pool cur
    if largest = cur then pool.put cur seg
    else siftDown validBlkNr seg fuel largest (pool.put cur (pool.heap largest))

/-- `large_heapify`. -/
def largeHeapify (validBlkNr : κ → Nat) (pool : GcPool κ) (seg : κ) : GcPool κ :=
  siftDown validBlkNr seg pool.len 0 pool

/-- `Push`, in a pool of size `capacity`. It has a root to compare with from two on: a pool of size one
would read `large_heap[0]` before anything was stored there. -/
def push (capacity : Nat) (validBlkNr : κ → Nat) (pool : GcPool κ) (seg : κ) : GcPool κ :=
  if pool.len < capacity - 1 then pool.largeAdd validBlkNr seg
  else if validBlkNr seg < validBlkNr (pool.heap 0) then pool.largeHeapify validBlkNr seg
  else pool

/-- The loop of `Sort`, which fills `small_heap` from its end. -/
def drain (validBlkNr : κ → Nat) : Nat → GcPool κ → List κ → List κ
  | 0, _, small => small
  | len + 1, pool, small =>
    if len = 0 then pool.heap 0 :: small
    else drain validBlkNr len
      ({ pool with len }.largeHeapify validBlkNr (pool.heap len)) (pool.heap 0 :: small)

/-- `Sort`: the segments in the order in which `Pop` returns them. -/
def sort (validBlkNr : κ → Nat) (pool : GcPool κ) : List κ := drain validBlkNr pool.len pool []

/-- `Pop` after `Sort`: the next segment of `small_heap`, from `pop_ptr` on. -/
def pop (small : List κ) (popPtr : Nat) : Option κ × Nat :=
  if h : popPtr < small.length then (some small[popPtr], popPtr + 1) else (none, popPtr)

/-- The answers to successive calls of `Pop`. -/
def pops (small : List κ) : Nat → Nat → List (Option κ)
  | 0, _ => []
  | calls + 1, popPtr => (pop small popPtr).1 :: pops small calls (pop small popPtr).2

/-! ## The order of the heap -/

section Order

variable (validBlkNr : κ → Nat)

/-- Moving parents into the hole brings the segment up. -/
theorem siftUp_eq (seg : κ) (fuel cur : Nat) (pool : GcPool κ) :
    siftUp validBlkNr seg fuel cur pool =
      { pool with
        heap := bubbleUp (Larger validBlkNr) fuel cur (Function.update pool.heap cur seg) } := by
  induction fuel generalizing cur pool with
  | zero => rfl
  | succ fuel ih =>
    unfold siftUp bubbleUp
    dsimp only
    by_cases root : cur = 0
    · rw [if_pos root, if_pos root]
      rfl
    · rw [if_neg root, if_neg root]
      have apart : parentOf cur ≠ cur := by
        show (cur - 1) / 2 ≠ cur
        omega
      rw [Function.update_self, Function.update_of_ne apart, exchange_update apart]
      by_cases fits : validBlkNr seg ≤ validBlkNr (pool.heap ((cur - 1) / 2))
      · rw [if_pos fits, if_neg (Nat.not_lt_of_le fits)]
        rfl
      · rw [if_neg fits, if_pos (Nat.lt_of_not_le fits), ih]
        rfl

/-- The larger child is the highest of the place and its children. -/
theorem largerChild_eq (seg : κ) (pool : GcPool κ) (cur : Nat) :
    largerChild validBlkNr seg pool cur =
      highestOf (Larger validBlkNr) (Function.update pool.heap cur seg) pool.len cur := by
  have left : cur * 2 + 1 ≠ cur := by omega
  have right : cur * 2 + 1 + 1 ≠ cur := by omega
  unfold largerChild highestOf
  dsimp only
  rw [Function.update_self, Function.update_of_ne left, Function.update_of_ne right]
  by_cases higher : cur * 2 + 1 < pool.len ∧
      validBlkNr (pool.heap (cur * 2 + 1)) > validBlkNr seg
  · rw [if_pos higher, if_neg left, Function.update_of_ne left]
  · rw [if_neg higher, if_pos rfl, Function.update_self]

/-- Moving children into the hole brings the segment down. -/
theorem siftDown_eq (seg : κ) (fuel cur : Nat) (pool : GcPool κ) :
    siftDown validBlkNr seg fuel cur pool =
      { pool with
        heap := bubbleDown (Larger validBlkNr) pool.len fuel cur
          (Function.update pool.heap cur seg) } := by
  induction fuel generalizing cur pool with
  | zero => rfl
  | succ fuel ih =>
    unfold siftDown bubbleDown
    dsimp only
    rw [largerChild_eq]
    by_cases stays :
        highestOf (Larger validBlkNr) (Function.update pool.heap cur seg) pool.len cur = cur
    · rw [if_pos stays, if_pos stays]
      rfl
    · rw [if_neg stays, if_neg stays, ih, exchange_comm, exchange_update stays]
      rfl

/-- The loop of `large_add` makes a heap with the segment in it. -/
theorem siftUp_sifted {pool : GcPool κ} (seg : κ)
    (isHeap : IsHeap (Above (Larger validBlkNr)) pool.heap pool.len) :
    Sifted (Larger validBlkNr) (Function.update pool.heap pool.len seg)
      (siftUp validBlkNr seg pool.len pool.len pool).heap (pool.len + 1) := by
  rw [siftUp_eq]
  exact isHeap.pushed (larger_ranking validBlkNr) seg

/-- The loop of `large_heapify` makes a heap with the segment in place of the root. -/
theorem largeHeapify_sifted (pool : GcPool κ) (seg : κ) (positive : 0 < pool.len)
    (isHeap : IsHeap (Above (Larger validBlkNr)) pool.heap pool.len) :
    Sifted (Larger validBlkNr) (Function.update pool.heap 0 seg)
      (largeHeapify validBlkNr pool seg).heap pool.len := by
  unfold largeHeapify
  rw [siftDown_eq]
  exact isHeap.replaced (larger_ranking validBlkNr) positive seg

/-- `large_heapify` keeps the length. -/
theorem largeHeapify_len (pool : GcPool κ) (seg : κ) :
    (largeHeapify validBlkNr pool seg).len = pool.len := by
  unfold largeHeapify
  rw [siftDown_eq]

end Order

/-! ## Pushing -/

/-- After segments were pushed, the pool holds those with the fewest valid blocks. -/
abbrev HoldsLeast (validBlkNr : κ → Nat) (capacity : Nat) (pushed : List κ) (pool : GcPool κ) :
    Prop :=
  LargeTop validBlkNr pushed (capacity - 1) pool.heap pool.len

section Push

variable {validBlkNr : κ → Nat} {capacity : Nat} {pushed : List κ} {pool : GcPool κ}

/-- `Push` keeps the segments with the fewest valid blocks. -/
theorem HoldsLeast.push (holds : HoldsLeast validBlkNr capacity pushed pool) (seg : κ) :
    HoldsLeast validBlkNr capacity (pushed ++ [seg]) (pool.push capacity validBlkNr seg) := by
  unfold GcPool.push
  by_cases room : pool.len < capacity - 1
  · rw [if_pos room]
    exact holds.add room (siftUp_sifted validBlkNr seg holds.isHeap)
  · have full : pool.len = capacity - 1 := by
      have bound := holds.len_eq
      omega
    rw [if_neg room]
    by_cases smaller : validBlkNr seg < validBlkNr (pool.heap 0)
    · rw [if_pos smaller]
      unfold HoldsLeast
      rw [largeHeapify_len]
      by_cases positive : 0 < pool.len
      · exact holds.replace full positive smaller
          (largeHeapify_sifted validBlkNr pool seg positive holds.isHeap)
      · have noRoom : pool.len = 0 := Nat.eq_zero_of_not_pos positive
        rw [noRoom, ← full, noRoom]
        exact LargeTop.noRoom ..
    · rw [if_neg smaller]
      exact holds.skip full smaller

/-- Pushing segments after each other keeps those with the fewest valid blocks. -/
theorem HoldsLeast.pushAll (holds : HoldsLeast validBlkNr capacity pushed pool) (segs : List κ) :
    HoldsLeast validBlkNr capacity (pushed ++ segs)
      (segs.foldl (GcPool.push capacity validBlkNr) pool) := by
  induction segs generalizing pushed pool with
  | nil => rwa [List.append_nil]
  | cons seg segs ih =>
    rw [List.foldl_cons, List.append_cons]
    exact ih (holds.push seg)

end Push

/-! ## Sorting -/

section Drain

variable {validBlkNr : κ → Nat}

/-- The loop of `Sort` puts the segments of the heap in ascending order in front of those that were
taken out before. -/
theorem drain_sorted {len : Nat} {pool : GcPool κ} {small : List κ}
    (isHeap : IsHeap (Above (Larger validBlkNr)) pool.heap len) (same : pool.len = len)
    (sorted : small.Pairwise fun first second => validBlkNr first ≤ validBlkNr second)
    (below : ∀ seg ∈ cells pool.heap len, ∀ other ∈ small, validBlkNr seg ≤ validBlkNr other) :
    (drain validBlkNr len pool small).Perm (cells pool.heap len ++ small) ∧
      (drain validBlkNr len pool small).Pairwise
        fun first second => validBlkNr first ≤ validBlkNr second := by
  induction len generalizing pool small with
  | zero => exact ⟨List.Perm.refl _, sorted⟩
  | succ len ih =>
    have order := larger_ranking validBlkNr
    have top : ∀ seg ∈ cells pool.heap (len + 1), validBlkNr seg ≤ validBlkNr (pool.heap 0) := by
      intro seg member
      obtain ⟨place, inside, rfl⟩ := mem_cells.mp member
      exact Nat.le_of_not_lt (isHeap.root order.refl order.above_trans inside)
    have root : pool.heap 0 ∈ cells pool.heap (len + 1) :=
      mem_cells.mpr ⟨0, Nat.succ_pos len, rfl⟩
    have sorted' : (pool.heap 0 :: small).Pairwise
        fun first second => validBlkNr first ≤ validBlkNr second :=
      List.pairwise_cons.mpr ⟨below _ root, sorted⟩
    unfold drain
    by_cases last : len = 0
    · subst last
      rw [if_pos rfl]
      exact ⟨List.Perm.refl _, sorted'⟩
    · rw [if_neg last]
      have positive := Nat.pos_of_ne_zero last
      have sifted : Sifted (Larger validBlkNr) (Function.update pool.heap 0 (pool.heap len))
          (largeHeapify validBlkNr { pool with len } (pool.heap len)).heap len :=
        largeHeapify_sifted validBlkNr { pool with len } (pool.heap len) positive isHeap.shorter
      have taken := sifted.takeRoot positive
      have below' : ∀ seg ∈ cells (largeHeapify validBlkNr { pool with len } (pool.heap len)).heap len,
          ∀ other ∈ pool.heap 0 :: small, validBlkNr seg ≤ validBlkNr other := by
        intro seg member other after
        have before := taken.mem_iff.mp (List.mem_cons_of_mem (pool.heap 0) member)
        obtain rfl | after := List.mem_cons.mp after
        · exact top seg before
        · exact below seg before other after
      obtain ⟨perm, ascending⟩ := ih sifted.isHeap (largeHeapify_len ..) sorted' below'
      refine ⟨perm.trans (List.perm_middle.trans ?_), ascending⟩
      exact taken.append_right small

/-- `Sort` orders the segments the pool holds. -/
theorem HoldsLeast.sort {capacity : Nat} {pushed : List κ} {pool : GcPool κ}
    (holds : HoldsLeast validBlkNr capacity pushed pool) :
    Selects validBlkNr pushed (capacity - 1) (pool.sort validBlkNr) := by
  obtain ⟨perm, sorted⟩ := drain_sorted holds.isHeap rfl List.Pairwise.nil
    (fun _ _ _ member => absurd member List.not_mem_nil)
  rw [List.append_nil] at perm
  exact ⟨holds.keeps.perm perm, sorted⟩

/-- Successive calls of `Pop` return the sorted segments and then nothing. -/
theorem pops_eq (small : List κ) (calls popPtr : Nat) :
    pops small calls popPtr = (List.range calls).map fun call => small[popPtr + call]? := by
  induction calls generalizing popPtr with
  | zero => rfl
  | succ calls ih =>
    rw [List.range_succ_eq_map, List.map_cons, List.map_map]
    unfold pops
    rw [ih]
    by_cases more : popPtr < small.length
    · unfold pop
      rw [dif_pos more]
      congr 1
      · exact (List.getElem?_eq_getElem more).symm
      · apply List.map_congr_left
        intro call _
        rw [Nat.succ_add, ← Nat.add_succ]
        rfl
    · have past : ∀ call, small[popPtr + call]? = none := fun call =>
        List.getElem?_eq_none (Nat.le_trans (Nat.le_of_not_lt more) (Nat.le_add_right popPtr call))
      unfold pop
      rw [dif_neg more]
      congr 1
      · exact (past 0).symm
      · apply List.map_congr_left
        intro call _
        rw [past]
        exact (past _).symm

end Drain

/-- After any segments, at least one, were pushed into a new pool of size two or more and sorted, the
successive calls of `Pop` return as many of them as the pool holds, at least one, those with the
fewest valid blocks, in ascending order, and then nothing any more. -/
theorem pops_selects (validBlkNr : κ → Nat) {capacity : Nat} (roomy : 2 ≤ capacity)
    (heap : Nat → κ) (first : κ) (rest : List κ) :
    ∃ victims, victims ≠ [] ∧ Selects validBlkNr (first :: rest) (capacity - 1) victims ∧ ∀ calls,
      pops (((first :: rest).foldl (push capacity validBlkNr) ⟨heap, 0⟩).sort validBlkNr) calls 0 =
        (List.range calls).map fun call => victims[call]? := by
  have fresh : HoldsLeast validBlkNr capacity [] ⟨heap, 0⟩ :=
    LargeTop.empty validBlkNr (capacity - 1) heap
  have selects := (fresh.pushAll (first :: rest)).sort
  refine ⟨_, ?_, selects, fun calls => ?_⟩
  · have length := selects.length
    rw [List.nil_append, List.length_cons] at length
    exact List.ne_nil_of_length_pos (by omega)
  · rw [pops_eq]
    simp only [Nat.zero_add]

/-- Of four segments a pool of size three returns the two with the fewest valid blocks. -/
theorem pops_selects_four :
    (∃ victims, victims ≠ [] ∧ Selects id [5, 2, 9, 2] 2 victims ∧ ∀ calls,
      pops (([5, 2, 9, 2].foldl (push 3 id) ⟨fun _ => 0, 0⟩).sort id) calls 0 =
        (List.range calls).map fun call => victims[call]?) ∧
      pops (([5, 2, 9, 2].foldl (push 3 id) ⟨fun _ => 0, 0⟩).sort id) 4 0 =
        [some 2, some 2, none, none] :=
  ⟨pops_selects id (show 2 ≤ 3 by decide) (fun _ => 0) 5 [2, 9, 2], by decide⟩

end GcPool

end FsChecking.F2fs
