import FsChecking.F2fs.GcPool

/-!
# Victim pools with two heaps

`GcPool` and `GcPoolHeap` of the performance simulator: a large-top heap keeps the segments with the
fewest valid blocks, and a small-top heap hands them out. The arrays of both heaps are not
initialised, so that an operation that reads a place behind a heap has no result.
-/

namespace FsChecking.PerfSim

open FsChecking.Lib

variable {κ : Type}

/-! ## The small-top heap of both pools -/

/-- A place of an array that is only initialised as far as it is used. -/
def readBelow (heap : Nat → κ) (len place : Nat) : Option κ :=
  if place < len then some (heap place) else none

/-- `small_heap` and `small_len`. -/
structure SmallHeap (κ : Type) where
  /-- `small_heap`. -/
  heap : Nat → κ
  /-- `small_len`. -/
  len : Nat

namespace SmallHeap

/-- Store a segment behind the heap, and `small_add`. -/
def add (validBlkNr : κ → Nat) (small : SmallHeap κ) (seg : κ) : SmallHeap κ where
  heap := bubbleUp (Smaller validBlkNr) small.len small.len
    (Function.update small.heap small.len seg)
  len := small.len + 1

/-- Move the last segment of the heap to its root, and `small_heapify`. -/
def removeRoot (validBlkNr : κ → Nat) (small : SmallHeap κ) : SmallHeap κ where
  heap := bubbleDown (Smaller validBlkNr) (small.len - 1) (small.len - 1) 0
    (Function.update small.heap 0 (small.heap (small.len - 1)))
  len := small.len - 1

/-- The loop of `LargeToSmall`: add the segments of the large-top heap, from its end. -/
def addAll (validBlkNr : κ → Nat) (read : Nat → Option κ) : Nat → SmallHeap κ → Option (SmallHeap κ)
  | 0, small => some small
  | ii + 1, small => (read ii).bind fun seg => addAll validBlkNr read ii (small.add validBlkNr seg)

end SmallHeap

/-- The segments in the order in which their removal from the root yields them. -/
def SmallHeap.drained (validBlkNr : κ → Nat) : Nat → SmallHeap κ → List κ
  | 0, _ => []
  | len + 1, small => small.heap 0 :: drained validBlkNr len (small.removeRoot validBlkNr)

/-- A heap with the smallest key at its root, which holds segments. -/
structure SmallTop (validBlkNr : κ → Nat) (segs : List κ) (small : SmallHeap κ) : Prop where
  /-- No key is below that of the parent. -/
  isHeap : IsHeap (Above (Smaller validBlkNr)) small.heap small.len
  /-- The segments. -/
  perm : (cells small.heap small.len).Perm segs

section Small

variable {validBlkNr : κ → Nat} {segs : List κ} {small : SmallHeap κ}

/-- Adding a segment. -/
theorem SmallTop.add (top : SmallTop validBlkNr segs small) (seg : κ) :
    SmallTop validBlkNr (seg :: segs) (small.add validBlkNr seg) := by
  have sifted := top.isHeap.pushed (smaller_ranking validBlkNr) seg
  refine ⟨sifted.isHeap, sifted.perm.trans ?_⟩
  rw [cells_succ, cells_update_of_le (Nat.le_refl small.len), Function.update_self]
  exact (List.perm_append_singleton ..).trans (top.perm.cons seg)

/-- Adding all segments of an array. -/
theorem SmallTop.addAll {read : Nat → Option κ} {heap : Nat → κ} {count : Nat}
    (top : SmallTop validBlkNr segs small) (reads : ∀ place < count, read place = some (heap place)) :
    ∃ small', SmallHeap.addAll validBlkNr read count small = some small' ∧
      SmallTop validBlkNr (cells heap count ++ segs) small' := by
  induction count generalizing segs small with
  | zero => exact ⟨small, rfl, top⟩
  | succ count ih =>
    unfold SmallHeap.addAll
    rw [reads count (Nat.lt_succ_self count), Option.bind_some, cells_succ, List.append_assoc]
    exact ih (top.add (heap count)) fun place inside => reads place (Nat.lt_succ_of_lt inside)

/-- Removing the root, which has the smallest key. -/
theorem SmallTop.removeRoot (top : SmallTop validBlkNr segs small) (positive : 0 < small.len) :
    (∀ seg ∈ segs, validBlkNr (small.heap 0) ≤ validBlkNr seg) ∧
      ∃ rest, (small.heap 0 :: rest).Perm segs ∧
        SmallTop validBlkNr rest (small.removeRoot validBlkNr) := by
  have order := smaller_ranking validBlkNr
  constructor
  · intro seg member
    obtain ⟨place, inside, rfl⟩ := mem_cells.mp (top.perm.mem_iff.mpr member)
    exact Nat.le_of_not_lt (top.isHeap.root order.refl order.above_trans inside)
  · obtain ⟨heap, size⟩ := small
    obtain ⟨len, rfl⟩ := Nat.exists_eq_succ_of_ne_zero (Nat.ne_of_gt positive)
    obtain ⟨isHeap, perm⟩ := top
    by_cases last : len = 0
    · subst last
      exact ⟨[], perm, fun _ _ inside => absurd inside (Nat.not_lt_zero _), List.Perm.refl _⟩
    · have more := Nat.pos_of_ne_zero last
      have sifted : Sifted (Smaller validBlkNr) (Function.update heap 0 (heap len))
          (SmallHeap.removeRoot validBlkNr ⟨heap, len + 1⟩).heap len :=
        isHeap.shorter.replaced order more (heap len)
      exact ⟨_, (sifted.takeRoot more).trans perm, sifted.isHeap, List.Perm.refl _⟩

/-- The segments are drained in the order of their keys. -/
theorem SmallTop.drained (top : SmallTop validBlkNr segs small) :
    (small.drained validBlkNr small.len).Perm segs ∧ (small.drained validBlkNr small.len).Pairwise
      fun first second => validBlkNr first ≤ validBlkNr second := by
  obtain ⟨len, same⟩ : ∃ len, small.len = len := ⟨_, rfl⟩
  rw [same]
  induction len generalizing segs small with
  | zero =>
    have perm := top.perm
    rw [same] at perm
    exact ⟨perm, List.Pairwise.nil⟩
  | succ len ih =>
    obtain ⟨least, rest, perm, top'⟩ := top.removeRoot (by omega)
    have less : (small.removeRoot validBlkNr).len = len := by
      show small.len - 1 = len
      omega
    obtain ⟨perm', sorted⟩ := ih top' less
    refine ⟨(perm'.cons (small.heap 0)).trans perm, List.pairwise_cons.mpr ⟨?_, sorted⟩⟩
    intro seg member
    exact least seg (perm.mem_iff.mp (List.mem_cons_of_mem _ (perm'.mem_iff.mp member)))

/-- The segments of a full large-top heap are added. -/
theorem addAll_selects {capacity : Nat} {pushed : List κ} {heap : Nat → κ} {len : Nat}
    (holds : LargeTop validBlkNr pushed (capacity - 1) heap len)
    (enough : capacity - 1 ≤ pushed.length) (small : SmallHeap κ) :
    ∃ small', SmallHeap.addAll validBlkNr (readBelow heap len) (capacity - 1)
        { small with len := 0 } = some small' ∧
      Selects validBlkNr pushed (capacity - 1) (small'.drained validBlkNr small'.len) := by
  have full : len = capacity - 1 := by rw [holds.len_eq, Nat.min_eq_right enough]
  subst full
  have reads : ∀ place < capacity - 1, readBelow heap (capacity - 1) place = some (heap place) :=
    fun place inside => if_pos inside
  have empty : SmallTop validBlkNr [] { small with len := 0 } :=
    ⟨fun _ _ inside => absurd inside (Nat.not_lt_zero _), List.Perm.refl _⟩
  obtain ⟨small', adds, top⟩ := empty.addAll reads
  obtain ⟨perm, sorted⟩ := top.drained
  rw [List.append_nil] at perm
  exact ⟨small', adds, holds.keeps.perm perm, sorted⟩

/-- A large-top heap that is not full is read behind its end. -/
theorem addAll_none (validBlkNr : κ → Nat) {heap : Nat → κ} {len count : Nat} (few : len < count)
    {small : SmallHeap κ} : SmallHeap.addAll validBlkNr (readBelow heap len) count small = none := by
  obtain ⟨before, rfl⟩ := Nat.exists_eq_succ_of_ne_zero (Nat.ne_of_gt (Nat.zero_lt_of_lt few))
  unfold SmallHeap.addAll
  rw [readBelow, if_neg (Nat.not_lt_of_le (Nat.le_of_lt_succ few))]
  rfl

/-- The number of segments that are drained. -/
theorem length_drained (validBlkNr : κ → Nat) (len : Nat) (small : SmallHeap κ) :
    (small.drained validBlkNr len).length = len := by
  induction len generalizing small with
  | zero => rfl
  | succ len ih => exact congrArg (· + 1) (ih (small.removeRoot validBlkNr))

end Small

/-! ## The pool of segment numbers -/

/-- `GcPool`. -/
structure GcPool (κ : Type) where
  /-- `large_heap`. -/
  largeHeap : Nat → κ
  /-- `large_len`. -/
  largeLen : Nat
  /-- `small_heap` and `small_len`. -/
  small : SmallHeap κ

namespace GcPool

/-- A new pool, with whatever its memory holds. -/
def new (largeHeap smallHeap : Nat → κ) : GcPool κ := ⟨largeHeap, 0, ⟨smallHeap, 0⟩⟩

/-- Store a segment behind the heap, and `large_add`. -/
def largeAdd (validBlkNr : κ → Nat) (pool : GcPool κ) (id : κ) : GcPool κ :=
  { pool with
    largeHeap := bubbleUp (Larger validBlkNr) pool.largeLen pool.largeLen
      (Function.update pool.largeHeap pool.largeLen id)
    largeLen := pool.largeLen + 1 }

/-- Store a segment at the root, and `large_heapify`. -/
def largeHeapify (validBlkNr : κ → Nat) (pool : GcPool κ) (id : κ) : GcPool κ :=
  { pool with
    largeHeap := bubbleDown (Larger validBlkNr) pool.largeLen pool.largeLen 0
      (Function.update pool.largeHeap 0 id) }

/-- `Push`. -/
def push (capacity : Nat) (validBlkNr : κ → Nat) (pool : GcPool κ) (id : κ) : Option (GcPool κ) :=
  if pool.largeLen < capacity - 1 then some (pool.largeAdd validBlkNr id)
  else
    (readBelow pool.largeHeap pool.largeLen 0).map fun max =>
      if validBlkNr max ≤ validBlkNr id then pool else pool.largeHeapify validBlkNr id

/-- `LargeToSmall`, which moves as many segments as the pool is made for. -/
def largeToSmall (capacity : Nat) (validBlkNr : κ → Nat) (pool : GcPool κ) : Option (GcPool κ) :=
  (SmallHeap.addAll validBlkNr (readBelow pool.largeHeap pool.largeLen) (capacity - 1)
    { pool.small with len := 0 }).map fun small => { pool with small }

/-- `Pop`. -/
def pop (validBlkNr : κ → Nat) (pool : GcPool κ) : Option κ × GcPool κ :=
  if pool.small.len = 0 then (none, pool)
  else (some (pool.small.heap 0), { pool with small := pool.small.removeRoot validBlkNr })

/-- The answers to a number of calls of `Pop`. -/
def pops (validBlkNr : κ → Nat) : Nat → GcPool κ → List (Option κ)
  | 0, _ => []
  | calls + 1, pool => (pool.pop validBlkNr).1 :: pops validBlkNr calls (pool.pop validBlkNr).2

/-- A number of calls of `Push`. -/
def pushAll (capacity : Nat) (validBlkNr : κ → Nat) : List κ → GcPool κ → Option (GcPool κ)
  | [], pool => some pool
  | id :: ids, pool => (pool.push capacity validBlkNr id).bind (pushAll capacity validBlkNr ids)

/-- Pushing segments and `LargeToSmall` have a result, and successive calls of `Pop` return the
selected segments and then the invalid number. -/
def Agrees (validBlkNr : κ → Nat) (capacity : Nat) (pushed : List κ) (start : GcPool κ) : Prop :=
  ∃ pool, start.pushAll capacity validBlkNr pushed = some pool ∧
    ∃ sorted, pool.largeToSmall capacity validBlkNr = some sorted ∧
      ∃ victims, Selects validBlkNr pushed (capacity - 1) victims ∧
        ∀ calls, sorted.pops validBlkNr calls = (List.range calls).map fun call => victims[call]?

section Pool

variable {validBlkNr : κ → Nat} {capacity : Nat} {pushed : List κ} {pool : GcPool κ}

/-- After segments were pushed, the large-top heap holds those with the fewest valid blocks. -/
abbrev HoldsLeast (validBlkNr : κ → Nat) (capacity : Nat) (pushed : List κ) (pool : GcPool κ) :
    Prop :=
  LargeTop validBlkNr pushed (capacity - 1) pool.largeHeap pool.largeLen

/-- `Push` keeps the segments with the fewest valid blocks, if there is a place for one. -/
theorem HoldsLeast.push (holds : HoldsLeast validBlkNr capacity pushed pool) (two : 2 ≤ capacity)
    (id : κ) :
    ∃ pool', pool.push capacity validBlkNr id = some pool' ∧
      HoldsLeast validBlkNr capacity (pushed ++ [id]) pool' := by
  unfold GcPool.push
  by_cases room : pool.largeLen < capacity - 1
  · rw [if_pos room]
    exact ⟨_, rfl, holds.add room (holds.isHeap.pushed (larger_ranking validBlkNr) id)⟩
  · have full : pool.largeLen = capacity - 1 := by
      have bound := holds.len_eq
      omega
    have positive : 0 < pool.largeLen := by omega
    rw [if_neg room, readBelow, if_pos positive]
    refine ⟨_, rfl, ?_⟩
    dsimp only
    by_cases large : validBlkNr (pool.largeHeap 0) ≤ validBlkNr id
    · rw [if_pos large]
      exact holds.skip full (Nat.not_lt_of_le large)
    · rw [if_neg large]
      have sifted := holds.isHeap.replaced (larger_ranking validBlkNr) positive id
      exact holds.replace full positive (Nat.lt_of_not_le large) sifted

/-- Pushing segments after each other. -/
theorem HoldsLeast.pushAll (holds : HoldsLeast validBlkNr capacity pushed pool)
    (two : 2 ≤ capacity) (ids : List κ) :
    ∃ pool', GcPool.pushAll capacity validBlkNr ids pool = some pool' ∧
      HoldsLeast validBlkNr capacity (pushed ++ ids) pool' := by
  induction ids generalizing pushed pool with
  | nil => exact ⟨pool, rfl, by rwa [List.append_nil]⟩
  | cons id ids ih =>
    obtain ⟨next, result, holds'⟩ := holds.push two id
    unfold GcPool.pushAll
    rw [result, Option.bind_some, List.append_cons]
    exact ih holds'

/-- Successive calls of `Pop` drain the small-top heap. -/
theorem pops_eq (calls : Nat) (pool : GcPool κ) :
    pool.pops validBlkNr calls = (List.range calls).map fun call =>
      (pool.small.drained validBlkNr pool.small.len)[call]? := by
  induction calls generalizing pool with
  | zero => rfl
  | succ calls ih =>
    rw [List.range_succ_eq_map, List.map_cons, List.map_map]
    unfold pops
    rw [ih]
    by_cases empty : pool.small.len = 0
    · unfold pop
      rw [if_pos empty, empty]
      rfl
    · obtain ⟨len, more⟩ := Nat.exists_eq_succ_of_ne_zero empty
      have less : (pool.small.removeRoot validBlkNr).len = len := by
        show pool.small.len - 1 = len
        omega
      unfold pop
      rw [if_neg empty, more]
      dsimp only
      rw [less]
      rfl

/-- `GcPool` selects the right segments. -/
theorem selects_iff (validBlkNr : κ → Nat) (capacity : Nat) (largeHeap smallHeap : Nat → κ)
    (first : κ) (rest : List κ) :
    Agrees validBlkNr capacity (first :: rest) (new largeHeap smallHeap) ↔
      2 ≤ capacity ∧ capacity - 1 ≤ (first :: rest).length := by
  have fresh : HoldsLeast validBlkNr capacity [] (new largeHeap smallHeap) :=
    LargeTop.empty validBlkNr (capacity - 1) largeHeap
  constructor
  · rintro ⟨pool, pushes, sorted, sorts, _⟩
    by_cases two : 2 ≤ capacity
    · obtain ⟨pool', pushes', holds⟩ := fresh.pushAll two (first :: rest)
      obtain rfl := Option.some.inj (pushes.symm.trans pushes')
      refine ⟨two, Nat.le_of_not_lt fun few => ?_⟩
      have short : pool.largeLen < capacity - 1 := by
        rw [holds.len_eq]
        exact Nat.lt_of_le_of_lt (Nat.min_le_left ..) few
      unfold largeToSmall at sorts
      rw [addAll_none validBlkNr short] at sorts
      exact absurd sorts.symm (Option.some_ne_none sorted)
    · have small : ¬ (0 < capacity - 1) := by omega
      unfold pushAll push at pushes
      rw [new, if_neg small] at pushes
      exact absurd pushes.symm (Option.some_ne_none pool)
  · rintro ⟨two, enough⟩
    obtain ⟨pool, pushes, holds⟩ := fresh.pushAll two (first :: rest)
    obtain ⟨small, adds, selects⟩ := addAll_selects holds enough pool.small
    refine ⟨pool, pushes, { pool with small }, ?_, _, selects, fun calls => pops_eq calls _⟩
    unfold largeToSmall
    rw [adds]
    rfl

end Pool

end GcPool

/-! ## The pool of pointers -/

/-- `GcPoolHeap`. -/
structure GcPoolHeap (κ : Type) where
  /-- `large_heap` and `large_len`, with the same operations as in the exhaustive tester. -/
  large : F2fs.GcPool κ
  /-- `small_heap` and `small_len`. -/
  small : SmallHeap κ
  /-- `pop_ptr`, which nothing initialises or changes. -/
  popPtr : Int

namespace GcPoolHeap

/-- A new pool, with whatever its memory holds. -/
def new (largeHeap smallHeap : Nat → κ) (popPtr : Int) : GcPoolHeap κ :=
  ⟨⟨largeHeap, 0⟩, ⟨smallHeap, 0⟩, popPtr⟩

/-- `Push`. -/
def push (capacity : Nat) (validBlkNr : κ → Nat) (pool : GcPoolHeap κ) (seg : κ) :
    Option (GcPoolHeap κ) :=
  if pool.large.len < capacity - 1 then
    some { pool with large := pool.large.largeAdd validBlkNr seg }
  else
    (readBelow pool.large.heap pool.large.len 0).map fun root =>
      if validBlkNr seg < validBlkNr root then
        { pool with large := pool.large.largeHeapify validBlkNr seg }
      else pool

/-- `Sort`, which moves as many segments as the pool is made for. -/
def sort (capacity : Nat) (validBlkNr : κ → Nat) (pool : GcPoolHeap κ) : Option (GcPoolHeap κ) :=
  (SmallHeap.addAll validBlkNr (readBelow pool.large.heap pool.large.len) (capacity - 1)
    { pool.small with len := 0 }).map fun small => { pool with small }

/-- `Pop`, which reads in front of `small_heap` when that is empty. -/
def pop (validBlkNr : κ → Nat) (pool : GcPoolHeap κ) : Option (Option κ × GcPoolHeap κ) :=
  if (pool.small.len : Int) ≤ pool.popPtr then some (none, pool)
  else if pool.small.len = 0 then none
  else some (some (pool.small.heap 0), { pool with small := pool.small.removeRoot validBlkNr })

/-- The answers to a number of calls of `Pop`. -/
def pops (validBlkNr : κ → Nat) : Nat → GcPoolHeap κ → Option (List (Option κ))
  | 0, _ => some []
  | calls + 1, pool =>
    (pool.pop validBlkNr).bind fun first =>
      (pops validBlkNr calls first.2).map fun rest => first.1 :: rest

/-- A number of calls of `Push`. -/
def pushAll (capacity : Nat) (validBlkNr : κ → Nat) :
    List κ → GcPoolHeap κ → Option (GcPoolHeap κ)
  | [], pool => some pool
  | seg :: segs, pool => (pool.push capacity validBlkNr seg).bind (pushAll capacity validBlkNr segs)

/-- Pushing segments, `Sort` and successive calls of `Pop` have results, and the calls return the
selected segments and then null. -/
def Agrees (validBlkNr : κ → Nat) (capacity : Nat) (pushed : List κ) (start : GcPoolHeap κ) :
    Prop :=
  ∃ pool, start.pushAll capacity validBlkNr pushed = some pool ∧
    ∃ sorted, pool.sort capacity validBlkNr = some sorted ∧
      ∃ victims, Selects validBlkNr pushed (capacity - 1) victims ∧ ∀ calls,
        sorted.pops validBlkNr calls = some ((List.range calls).map fun call => victims[call]?)

section Pool

variable {validBlkNr : κ → Nat} {capacity : Nat} {pushed : List κ} {pool : GcPoolHeap κ}

/-- `Push` is that of the exhaustive tester, if there is a place for a segment. -/
theorem push_eq (two : 2 ≤ capacity) (seg : κ) :
    pool.push capacity validBlkNr seg =
      some { pool with large := pool.large.push capacity validBlkNr seg } := by
  unfold GcPoolHeap.push F2fs.GcPool.push
  by_cases more : pool.large.len < capacity - 1
  · rw [if_pos more, if_pos more]
  · have positive : 0 < pool.large.len := by omega
    rw [if_neg more, if_neg more, readBelow, if_pos positive, Option.map_some]
    by_cases smaller : validBlkNr seg < validBlkNr (pool.large.heap 0)
    · rw [if_pos smaller, if_pos smaller]
    · rw [if_neg smaller, if_neg smaller]

/-- Pushing segments after each other. -/
theorem pushAll_eq (holds : F2fs.GcPool.HoldsLeast validBlkNr capacity pushed pool.large)
    (two : 2 ≤ capacity) (segs : List κ) :
    ∃ large, pool.pushAll capacity validBlkNr segs = some { pool with large } ∧
      F2fs.GcPool.HoldsLeast validBlkNr capacity (pushed ++ segs) large := by
  induction segs generalizing pushed pool with
  | nil => exact ⟨pool.large, rfl, by rwa [List.append_nil]⟩
  | cons seg segs ih =>
    unfold pushAll
    rw [push_eq two seg, Option.bind_some, List.append_cons]
    exact ih (holds.push seg)

/-- If `pop_ptr` happens to be zero, successive calls of `Pop` drain the small-top heap. -/
theorem pops_eq (calls : Nat) (zero : pool.popPtr = 0) :
    pool.pops validBlkNr calls = some ((List.range calls).map fun call =>
      (pool.small.drained validBlkNr pool.small.len)[call]?) := by
  induction calls generalizing pool with
  | zero => rfl
  | succ calls ih =>
    rw [List.range_succ_eq_map, List.map_cons, List.map_map]
    unfold pops pop
    by_cases empty : pool.small.len = 0
    · have past : (pool.small.len : Int) ≤ pool.popPtr := by omega
      rw [if_pos past, Option.bind_some, ih zero, empty]
      rfl
    · have more : ¬ (pool.small.len : Int) ≤ pool.popPtr := by omega
      have next := @ih { pool with small := pool.small.removeRoot validBlkNr } zero
      rw [if_neg more, if_neg empty, Option.bind_some]
      dsimp only at next ⊢
      rw [next]
      obtain ⟨len, same⟩ := Nat.exists_eq_succ_of_ne_zero empty
      have less : (pool.small.removeRoot validBlkNr).len = len := by
        show pool.small.len - 1 = len
        omega
      rw [less, same]
      rfl

/-- If `pop_ptr` happens to be negative, a call of `Pop` after the last segment has no result. -/
theorem pops_none (validBlkNr : κ → Nat) (pool : GcPoolHeap κ) (negative : pool.popPtr < 0) :
    pool.pops validBlkNr (pool.small.len + 1) = none := by
  obtain ⟨len, same⟩ : ∃ len, pool.small.len = len := ⟨_, rfl⟩
  rw [same]
  have more : ¬ (pool.small.len : Int) ≤ pool.popPtr := by omega
  induction len generalizing pool with
  | zero =>
    unfold pops pop
    rw [if_neg more, if_pos same]
    rfl
  | succ len ih =>
    have notEmpty : pool.small.len ≠ 0 := by omega
    have less : (pool.small.removeRoot validBlkNr).len = len := by
      show pool.small.len - 1 = len
      omega
    have more' : ¬ ((pool.small.removeRoot validBlkNr).len : Int) ≤ pool.popPtr := by omega
    have next := @ih { pool with small := pool.small.removeRoot validBlkNr } negative less more'
    unfold pops pop
    rw [if_neg more, if_neg notEmpty, Option.bind_some]
    dsimp only
    rw [next]
    rfl

/-- Once `pop_ptr` is not below the number of segments, `Pop` returns null. -/
theorem pops_past (past : (pool.small.len : Int) ≤ pool.popPtr) (calls : Nat) :
    pool.pops validBlkNr calls = some (List.replicate calls none) := by
  induction calls with
  | zero => rfl
  | succ calls ih =>
    unfold pops pop
    rw [if_pos past, Option.bind_some, ih]
    rfl

/-- If `pop_ptr` happens to be positive, as many calls of `Pop` as there are segments do not return
all of them. -/
theorem pops_last (validBlkNr : κ → Nat) (pool : GcPoolHeap κ) (positive : 0 < pool.popPtr)
    {calls : Nat} (some_left : 0 < pool.small.len) (enough : pool.small.len ≤ calls) :
    ∃ answers, pool.pops validBlkNr calls = some answers ∧
      answers[pool.small.len - 1]? = some none := by
  induction calls generalizing pool with
  | zero => exact absurd enough (Nat.not_le_of_lt some_left)
  | succ calls ih =>
    by_cases past : (pool.small.len : Int) ≤ pool.popPtr
    · refine ⟨_, pops_past past (calls + 1), ?_⟩
      rw [List.getElem?_replicate, if_pos (by omega)]
    · have notEmpty : pool.small.len ≠ 0 := by omega
      obtain ⟨answers, result, last⟩ :=
        @ih { pool with small := pool.small.removeRoot validBlkNr } positive
          (show 0 < pool.small.len - 1 by omega) (show pool.small.len - 1 ≤ calls by omega)
      refine ⟨some (pool.small.heap 0) :: answers, ?_, ?_⟩
      · unfold pops pop
        rw [if_neg past, if_neg notEmpty, Option.bind_some]
        dsimp only
        rw [result]
        rfl
      · have index : pool.small.len - 1 = pool.small.len - 1 - 1 + 1 := by omega
        rw [index, List.getElem?_cons_succ]
        exact last

/-- `GcPoolHeap` selects the right segments. -/
theorem selects_iff (validBlkNr : κ → Nat) (capacity : Nat) (largeHeap smallHeap : Nat → κ)
    (popPtr : Int) (first : κ) (rest : List κ) :
    Agrees validBlkNr capacity (first :: rest) (new largeHeap smallHeap popPtr) ↔
      2 ≤ capacity ∧ capacity - 1 ≤ (first :: rest).length ∧ popPtr = 0 := by
  have fresh : F2fs.GcPool.HoldsLeast validBlkNr capacity []
      (new largeHeap smallHeap popPtr).large := LargeTop.empty validBlkNr (capacity - 1) largeHeap
  constructor
  · rintro ⟨pool, pushes, sorted, sorts, victims, selected, answers⟩
    by_cases two : 2 ≤ capacity
    · obtain ⟨large, pushes', holds⟩ := pushAll_eq fresh two (first :: rest)
      obtain rfl := Option.some.inj (pushes'.symm.trans pushes)
      unfold GcPoolHeap.sort at sorts
      by_cases few : (first :: rest).length < capacity - 1
      · have short : large.len < capacity - 1 := by
          rw [holds.len_eq]
          exact Nat.lt_of_le_of_lt (Nat.min_le_left ..) few
        rw [addAll_none validBlkNr short] at sorts
        exact absurd sorts.symm (Option.some_ne_none sorted)
      · have enough := Nat.le_of_not_lt few
        obtain ⟨small, adds, selects⟩ := addAll_selects holds enough ⟨smallHeap, 0⟩
        have length : small.len = capacity - 1 := by
          rw [← length_drained validBlkNr small.len small, selects.length]
          exact Nat.min_eq_right enough
        have length' : victims.length = capacity - 1 := by
          rw [selected.length]
          exact Nat.min_eq_right enough
        change (SmallHeap.addAll validBlkNr (readBelow large.heap large.len) (capacity - 1)
          ⟨smallHeap, 0⟩).map _ = _ at sorts
        rw [adds] at sorts
        obtain rfl := Option.some.inj sorts
        refine ⟨two, enough, ?_⟩
        obtain negative | zero | positive := Int.lt_trichotomy popPtr 0
        · have stuck := pops_none validBlkNr ⟨large, small, popPtr⟩ negative
          exact absurd ((answers _).symm.trans stuck) (Option.some_ne_none _)
        · exact zero
        · have some_left : 0 < small.len := by omega
          obtain ⟨found, result, last⟩ := pops_last validBlkNr
            ⟨large, small, popPtr⟩ positive some_left (Nat.le_refl _)
          have same := Option.some.inj (result.symm.trans (answers _))
          rw [same, List.getElem?_map] at last
          dsimp only at last
          have index : small.len - 1 < small.len := by omega
          have inside : small.len - 1 < victims.length := by omega
          rw [List.getElem?_range index, Option.map_some, List.getElem?_eq_getElem inside] at last
          exact absurd (Option.some.inj last) (Option.some_ne_none _)
    · have small : ¬ (0 < capacity - 1) := by omega
      unfold pushAll push at pushes
      rw [new, if_neg small] at pushes
      exact absurd pushes.symm (Option.some_ne_none pool)
  · rintro ⟨two, enough, zero⟩
    obtain ⟨large, pushes, holds⟩ := pushAll_eq fresh two (first :: rest)
    obtain ⟨small, adds, selects⟩ := addAll_selects holds enough ⟨smallHeap, 0⟩
    refine ⟨_, pushes, ⟨large, small, popPtr⟩, ?_, _, selects, fun calls => pops_eq calls zero⟩
    unfold GcPoolHeap.sort
    exact congrArg (Option.map _) adds

end Pool

end GcPoolHeap

end FsChecking.PerfSim
