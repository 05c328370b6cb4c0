import FsChecking.Lib.Selection
import Mathlib.Algebra.GroupWithZero.Nat

/-!
# Victim pool with a partial quicksort

`GcPoolQuick<N, SEG_TYPE>`: a buffer with room for all segments, which is kept from one garbage
collection to the next. Segments with few valid blocks are pushed to its low end and the others to
its high end; `Sort` sorts as much of it as is needed for the first `N` places to be right. An
operation that would follow a null pointer or leave the buffer has no result.
-/

namespace FsChecking.PerfSim

open FsChecking.Lib

variable {κ : Type}

/-- `GcPoolQuick`. -/
structure GcPoolQuick (κ : Type) where
  /-- `buf`: pointers to segments, or null. -/
  buf : Nat → Option κ
  /-- `buf_size`. -/
  bufSize : Nat
  /-- `data_size`. -/
  dataSize : Nat
  /-- `pop_ptr`. -/
  popPtr : Nat
  /-- `low`. -/
  low : Nat
  /-- `high`. -/
  high : Nat
  /-- `pth`. -/
  pth : Nat

namespace GcPoolQuick

/-- The number of values of `size_t`. -/
abbrev sizeLimit : Nat := 2 ^ 64

/-- Subtract one from a `size_t`. -/
def dec (size : Nat) : Nat := (size + (sizeLimit - 1)) % sizeLimit

/-- Add one to a `size_t`. -/
def inc (size : Nat) : Nat := (size + 1) % sizeLimit

/-- The constructor, with whatever the memory of `data_size`, `pop_ptr`, `low` and `high` holds. -/
def new (segNr dataSize popPtr low high : Nat) : GcPoolQuick κ where
  buf := fun _ => none
  bufSize := segNr
  dataSize := dataSize
  popPtr := popPtr
  low := low
  high := high
  pth := 500

/-- `init`. -/
def init (pool : GcPoolQuick κ) : GcPoolQuick κ :=
  { pool with low := 0, high := dec pool.bufSize, dataSize := 0 }

/-- Store a segment in the buffer. -/
def store (pool : GcPoolQuick κ) (place : Nat) (seg : κ) : Option (GcPoolQuick κ) :=
  if place < pool.bufSize then some { pool with buf := Function.update pool.buf place (some seg) }
  else none

/-- `Push`. -/
def push (validBlkNr : κ → Nat) (pool : GcPoolQuick κ) (seg : κ) : Option (GcPoolQuick κ) :=
  if pool.pth ≤ validBlkNr seg then
    (pool.store pool.high seg).map fun pool =>
      { pool with high := dec pool.high, dataSize := pool.dataSize + 1 }
  else
    (pool.store pool.low seg).map fun pool =>
      { pool with low := inc pool.low, dataSize := pool.dataSize + 1 }

/-- The loop of `partition` that decrements `right`, for a number of rounds. -/
def scanDown (validBlkNr : κ → Nat) (pivot : Nat) (buf : Nat → Option κ) (left : Nat) :
    Nat → Nat → Option Nat
  | 0, _ => none
  | rounds + 1, right => do
    let seg ← buf right
    if pivot ≤ validBlkNr seg ∧ left < right then
      scanDown validBlkNr pivot buf left rounds (right - 1)
    else some right

/-- The loop of `partition` that increments `left`, for a number of rounds. -/
def scanUp (validBlkNr : κ → Nat) (pivot : Nat) (buf : Nat → Option κ) (right : Nat) :
    Nat → Nat → Option Nat
  | 0, _ => none
  | rounds + 1, left => do
    let seg ← buf left
    if validBlkNr seg < pivot ∧ left < right then
      scanUp validBlkNr pivot buf right rounds (left + 1)
    else some left

/-- Move the segment at `right` down and the key up. -/
def moveDown (key : κ) (left right : Nat) (buf : Nat → Option κ) : Nat × (Nat → Option κ) :=
  if left < right then
    (left + 1, Function.update (Function.update buf left (buf right)) right (some key))
  else (left, buf)

/-- Move the segment at `left` up and the key down. -/
def moveUp (key : κ) (left right : Nat) (buf : Nat → Option κ) : Nat × (Nat → Option κ) :=
  if left < right then
    (right - 1, Function.update (Function.update buf right (buf left)) left (some key))
  else (right, buf)

/-- The body of the outer loop of `partition`: the new `left` and `right`, and the buffer. -/
def partitionRound (validBlkNr : κ → Nat) (key : κ) (left right : Nat) (buf : Nat → Option κ) :
    Option (Nat × Nat × (Nat → Option κ)) := do
  let right ← scanDown validBlkNr (validBlkNr key) buf left (right - left + 1) right
  let down := moveDown key left right buf
  let left ← scanUp validBlkNr (validBlkNr key) down.2 right (right - down.1 + 1) down.1
  let up := moveUp key left right down.2
  some (left, up.1, up.2)

/-- The outer loop of `partition`, for a number of rounds. -/
def partitionLoop (validBlkNr : κ → Nat) (key : κ) :
    Nat → Nat → Nat → (Nat → Option κ) → Option (Nat × (Nat → Option κ))
  | 0, _, _, _ => none
  | rounds + 1, left, right, buf =>
    if left < right then
      (partitionRound validBlkNr key left right buf).bind fun next =>
        partitionLoop validBlkNr key rounds next.1 next.2.1 next.2.2
    else some (left, buf)

/-- `partition`. -/
def partition (validBlkNr : κ → Nat) (left right : Nat) (buf : Nat → Option κ) :
    Option (Nat × (Nat → Option κ)) := do
  let key ← buf left
  partitionLoop validBlkNr key (right - left + 1) left right buf

/-- `partial_qsort` of two neighbours. -/
def sortTwo (validBlkNr : κ → Nat) (left right : Nat) (buf : Nat → Option κ) :
    Option (Nat → Option κ) := do
  let first ← buf left
  let second ← buf right
  if validBlkNr second < validBlkNr first then
    some (Function.update (Function.update buf left (some second)) right (some first))
  else some buf

/-- `partial_qsort`, to a number of calls in depth. -/
def partialQsort (validBlkNr : κ → Nat) (capacity : Nat) :
    Nat → Nat → Nat → (Nat → Option κ) → Option (Nat → Option κ)
  | 0, _, _, _ => none
  | depth + 1, left, right, buf =>
    if left < right then
      if left + 1 = right then sortTwo validBlkNr left right buf
      else do
        let parted ← partition validBlkNr left right buf
        let sorted ← partialQsort validBlkNr capacity depth left parted.1 parted.2
        if parted.1 < capacity then
          partialQsort validBlkNr capacity depth (parted.1 + 1) right sorted
        else some sorted
    else some buf

/-- `partial_qsort`, to the depth that it can need. -/
def qsort (validBlkNr : κ → Nat) (capacity left right : Nat) (buf : Nat → Option κ) :
    Option (Nat → Option κ) :=
  partialQsort validBlkNr capacity (2 * (right - left) + 2) left right buf

/-- The loop of `Sort` that moves the high part down, for a number of rounds. -/
def copyDown : Nat → Nat → Nat → (Nat → Option κ) → (Nat → Option κ)
  | 0, _, _, buf => buf
  | rounds + 1, tt, ii, buf => copyDown rounds (tt + 1) (ii + 1) (Function.update buf tt (buf ii))

/-- The first step of `Sort`, for the low part. -/
def sortLow (validBlkNr : κ → Nat) (capacity : Nat) (pool : GcPoolQuick κ) :
    Option (GcPoolQuick κ) :=
  if 0 < pool.low then
    (qsort validBlkNr capacity 0 (pool.low - 1) pool.buf).map fun buf => { pool with buf }
  else some pool

/-- Move the high part to the end of the low part. -/
def alignHigh (pool : GcPoolQuick κ) : GcPoolQuick κ :=
  if pool.low ≤ pool.high then
    let count := pool.bufSize - inc pool.high
    { pool with
      buf := copyDown count pool.low (inc pool.high) pool.buf
      dataSize := pool.low + count }
  else { pool with dataSize := pool.bufSize }

/-- The second step of `Sort`, for the high part. -/
def sortHigh (validBlkNr : κ → Nat) (capacity : Nat) (pool : GcPoolQuick κ) :
    Option (GcPoolQuick κ) :=
  if pool.low < capacity then
    let pool := pool.alignHigh
    (qsort validBlkNr capacity pool.low (dec pool.dataSize) pool.buf).map fun buf =>
      { pool with buf }
  else some pool

/-- `Sort`, which last looks at the first and at the last of `N` places. -/
def sort (validBlkNr : κ → Nat) (capacity : Nat) (pool : GcPoolQuick κ) :
    Option (GcPoolQuick κ) := do
  let pool ← pool.sortLow validBlkNr capacity
  let pool ← pool.sortHigh validBlkNr capacity
  if 0 < capacity ∧ capacity ≤ pool.bufSize then some { pool with popPtr := 0 } else none

/-- `Pop`. -/
def pop (capacity : Nat) (pool : GcPoolQuick κ) : Option κ × GcPoolQuick κ :=
  if capacity ≤ pool.popPtr then (none, pool)
  else (pool.buf pool.popPtr, { pool with popPtr := pool.popPtr + 1 })

/-- The answers to a number of calls of `Pop`, and the pool after them. -/
def pops (capacity : Nat) : Nat → GcPoolQuick κ → List (Option κ) × GcPoolQuick κ
  | 0, pool => ([], pool)
  | calls + 1, pool =>
    let first := pool.pop capacity
    let rest := pops capacity calls first.2
    (first.1 :: rest.1, rest.2)

/-- A number of calls of `Push`. -/
def pushAll (validBlkNr : κ → Nat) : List κ → GcPoolQuick κ → Option (GcPoolQuick κ)
  | [], pool => some pool
  | seg :: segs, pool => (pool.push validBlkNr seg).bind (pushAll validBlkNr segs)

/-! ## Partitioning -/

/-- The key of the segment at a place. -/
def keyAt (validBlkNr : κ → Nat) (buf : Nat → Option κ) (place : Nat) : Nat :=
  (buf place).elim 0 validBlkNr

/-- There is a segment at every place between two bounds. -/
def Filled (buf : Nat → Option κ) (left right : Nat) : Prop :=
  ∀ place, left ≤ place → place ≤ right → (buf place).isSome

/-- The key of a segment that is there. -/
theorem keyAt_of_some {validBlkNr : κ → Nat} {buf : Nat → Option κ} {place : Nat} {seg : κ}
    (here : buf place = some seg) : keyAt validBlkNr buf place = validBlkNr seg := by
  rw [keyAt, here]
  rfl

section Scan

variable {validBlkNr : κ → Nat} {buf : Nat → Option κ} {left right rounds : Nat} (pivot : Nat)

/-- The place of a segment below the pivot, or the lower bound. -/
theorem scanDown_spec (filled : Filled buf left right) (order : left ≤ right)
    (enough : right - left < rounds) :
    ∃ stop, scanDown validBlkNr pivot buf left rounds right = some stop ∧ left ≤ stop ∧
      stop ≤ right ∧ (∀ place, stop < place → place ≤ right → pivot ≤ keyAt validBlkNr buf place) ∧
      (left < stop → keyAt validBlkNr buf stop < pivot) := by
  induction rounds generalizing right with
  | zero => exact absurd enough (Nat.not_lt_zero _)
  | succ rounds ih =>
    obtain ⟨seg, here⟩ := Option.isSome_iff_exists.mp (filled right order (Nat.le_refl right))
    unfold scanDown
    rw [here, Option.bind_eq_bind, Option.bind_some]
    by_cases passes : pivot ≤ validBlkNr seg ∧ left < right
    · rw [if_pos passes]
      obtain ⟨large, apart⟩ := passes
      have shorter : Filled buf left (right - 1) :=
        fun place low high => filled place low (by omega)
      obtain ⟨stop, result, low, high, above, found⟩ := ih shorter (by omega) (by omega)
      refine ⟨stop, result, low, by omega, fun place after inside => ?_, found⟩
      by_cases last : place = right
      · rwa [last, keyAt_of_some here]
      · exact above place after (by omega)
    · rw [if_neg passes]
      refine ⟨right, rfl, order, Nat.le_refl right, fun place after inside => ?_, fun apart => ?_⟩
      · exact absurd inside (Nat.not_le_of_lt after)
      · rw [keyAt_of_some here]
        exact Nat.lt_of_not_le fun large => passes ⟨large, apart⟩

/-- The place of a segment not below the pivot, or the upper bound. -/
theorem scanUp_spec (filled : Filled buf left right) (order : left ≤ right)
    (enough : right - left < rounds) :
    ∃ stop, scanUp validBlkNr pivot buf right rounds left = some stop ∧ left ≤ stop ∧
      stop ≤ right ∧ (∀ place, left ≤ place → place < stop → keyAt validBlkNr buf place < pivot) ∧
      (stop < right → pivot ≤ keyAt validBlkNr buf stop) := by
  induction rounds generalizing left with
  | zero => exact absurd enough (Nat.not_lt_zero _)
  | succ rounds ih =>
    obtain ⟨seg, here⟩ := Option.isSome_iff_exists.mp (filled left (Nat.le_refl left) order)
    unfold scanUp
    rw [here, Option.bind_eq_bind, Option.bind_some]
    by_cases passes : validBlkNr seg < pivot ∧ left < right
    · rw [if_pos passes]
      obtain ⟨small, apart⟩ := passes
      have shorter : Filled buf (left + 1) right :=
        fun place low high => filled place (by omega) high
      obtain ⟨stop, result, low, high, below, found⟩ := ih shorter apart (by omega)
      refine ⟨stop, result, by omega, high, fun place inside before => ?_, found⟩
      by_cases first : place = left
      · rwa [first, keyAt_of_some here]
      · exact below place (by omega) before
    · rw [if_neg passes]
      refine ⟨left, rfl, Nat.le_refl left, order, fun place inside before => ?_, fun apart => ?_⟩
      · exact absurd inside (Nat.not_le_of_lt before)
      · rw [keyAt_of_some here]
        exact Nat.le_of_not_lt fun small => passes ⟨small, apart⟩

end Scan

/-- What rounds of `partition` do: between the bounds segments are rearranged, the key is at the
new lower bound, smaller keys are below it and the others above the new upper bound. -/
structure Narrowed (validBlkNr : κ → Nat) (key : κ) (left right : Nat) (buf : Nat → Option κ)
    (low high : Nat) (buf' : Nat → Option κ) : Prop where
  /-- The lower bound does not decrease. -/
  lower : left ≤ low
  /-- The bounds do not cross. -/
  order : low ≤ high
  /-- The upper bound does not increase. -/
  upper : high ≤ right
  /-- Segments are rearranged. -/
  rearranged : Rearranged left right buf buf'
  /-- The key is at the lower bound. -/
  stored : buf' low = some key
  /-- Smaller keys are below it. -/
  smaller : ∀ place, left ≤ place → place < low → keyAt validBlkNr buf' place < validBlkNr key
  /-- The others are above the upper bound. -/
  larger : ∀ place, high < place → place ≤ right → validBlkNr key ≤ keyAt validBlkNr buf' place

section Partition

variable {validBlkNr : κ → Nat} {key : κ} {left right : Nat} {buf : Nat → Option κ}

/-- Nothing has been done. -/
theorem Narrowed.start (here : buf left = some key) (order : left ≤ right) :
    Narrowed validBlkNr key left right buf left right buf where
  lower := Nat.le_refl left
  order := order
  upper := Nat.le_refl right
  rearranged := .refl
  stored := here
  smaller := fun _ inside before => absurd inside (Nat.not_le_of_lt before)
  larger := fun _ after inside => absurd inside (Nat.not_le_of_lt after)

/-- Rounds after each other. -/
theorem Narrowed.trans {low high low' high' : Nat} {buf' buf'' : Nat → Option κ}
    (before : Narrowed validBlkNr key left right buf low high buf')
    (after : Narrowed validBlkNr key low high buf' low' high' buf'') :
    Narrowed validBlkNr key left right buf low' high' buf'' where
  lower := Nat.le_trans before.lower after.lower
  order := after.order
  upper := Nat.le_trans after.upper before.upper
  rearranged := before.rearranged.trans (after.rearranged.widen before.lower before.upper)
  stored := after.stored
  smaller := by
    intro place inside below
    by_cases earlier : place < low
    · unfold keyAt
      rw [after.rearranged.outside (Or.inl earlier)]
      exact before.smaller place inside earlier
    · exact after.smaller place (Nat.le_of_not_lt earlier) below
  larger := by
    intro place above inside
    by_cases earlier : high < place
    · unfold keyAt
      rw [after.rearranged.outside (Or.inr earlier)]
      exact before.larger place earlier inside
    · exact after.larger place above (Nat.le_of_not_lt earlier)

/-- There are still segments between the bounds. -/
theorem Narrowed.filled {low high : Nat} {buf' : Nat → Option κ}
    (narrowed : Narrowed validBlkNr key left right buf low high buf')
    (filled : Filled buf left right) : Filled buf' low high := by
  intro place inside inside'
  refine narrowed.rearranged.all (fun stored => stored.isSome) filled place (Nat.le_trans narrowed.lower inside) (Nat.le_trans inside' narrowed.upper)

/-- The first half of a round: the key goes to where a smaller one was found. -/
theorem moveDown_spec {stop : Nat} (here : buf left = some key) (low : left ≤ stop)
    (high : stop ≤ right)
    (above : ∀ place, stop < place → place ≤ right → validBlkNr key ≤ keyAt validBlkNr buf place)
    (found : left < stop → keyAt validBlkNr buf stop < validBlkNr key) :
    left ≤ (moveDown key left stop buf).1 ∧ (moveDown key left stop buf).1 ≤ stop ∧
      (left < stop → left < (moveDown key left stop buf).1) ∧
      Rearranged left right buf (moveDown key left stop buf).2 ∧
      (moveDown key left stop buf).2 stop = some key ∧
      (∀ place, left ≤ place → place < (moveDown key left stop buf).1 →
        keyAt validBlkNr (moveDown key left stop buf).2 place < validBlkNr key) ∧
      (∀ place, stop < place → place ≤ right →
        validBlkNr key ≤ keyAt validBlkNr (moveDown key left stop buf).2 place) := by
  unfold moveDown
  by_cases apart : left < stop
  · rw [if_pos apart]
    have moved : Function.update (Function.update buf left (buf stop)) stop (some key) =
        exchange buf left stop := by rw [exchange, here]
    simp only [moved]
    refine ⟨Nat.le_succ left, apart, fun _ => Nat.lt_succ_self left, ?_, ?_, ?_, ?_⟩
    · exact Rearranged.refl.exchange ⟨Nat.le_refl left, by omega⟩ ⟨low, high⟩
    · rw [exchange_second, here]
    · intro place inside before
      obtain rfl : place = left := by omega
      rw [keyAt, exchange_first]
      exact found apart
    · intro place after inside
      rw [keyAt, exchange_of_ne (by omega) (by omega)]
      exact above place after inside
  · rw [if_neg apart]
    obtain rfl : stop = left := Nat.le_antisymm (Nat.le_of_not_lt apart) low
    exact ⟨low, low, fun less => absurd less apart, .refl, here,
      fun place inside before => absurd inside (Nat.not_le_of_lt before), above⟩

/-- The second half of a round: the key goes to where a segment that is not smaller was found. -/
theorem moveUp_spec {stop : Nat} (here : buf right = some key) (low : left ≤ stop)
    (high : stop ≤ right)
    (below : ∀ place, left ≤ place → place < stop → keyAt validBlkNr buf place < validBlkNr key)
    (found : stop < right → validBlkNr key ≤ keyAt validBlkNr buf stop) :
    Narrowed validBlkNr key left right buf stop (moveUp key stop right buf).1
      (moveUp key stop right buf).2 := by
  unfold moveUp
  by_cases apart : stop < right
  · rw [if_pos apart]
    have moved : Function.update (Function.update buf right (buf stop)) stop (some key) =
        exchange buf right stop := by rw [exchange, here]
    simp only [moved]
    refine ⟨low, Nat.le_sub_one_of_lt apart, Nat.sub_le right 1, ?_, ?_, ?_, ?_⟩
    · exact Rearranged.refl.exchange ⟨Nat.le_trans low high, Nat.le_refl right⟩ ⟨low, high⟩
    · rw [exchange_second, here]
    · intro place inside before
      rw [keyAt, exchange_of_ne (by omega) (by omega)]
      exact below place inside before
    · intro place after inside
      obtain rfl : place = right := by omega
      rw [keyAt, exchange_first]
      exact found apart
  · rw [if_neg apart]
    obtain rfl : stop = right := Nat.le_antisymm high (Nat.le_of_not_lt apart)
    exact ⟨low, high, high, .refl, here, below,
      fun place after inside => absurd inside (Nat.not_le_of_lt after)⟩

/-- A round of `partition` narrows the bounds; it decrements the upper one if the last segment does
not go below the key. -/
theorem partitionRound_spec (here : buf left = some key) (filled : Filled buf left right)
    (apart : left < right) :
    ∃ next, partitionRound validBlkNr key left right buf = some next ∧
      Narrowed validBlkNr key left right buf next.1 next.2.1 next.2.2 ∧
      next.2.1 - next.1 < right - left ∧
      (validBlkNr key ≤ keyAt validBlkNr buf right → next.2.1 < right) := by
  obtain ⟨stop, scanned, low, high, above, found⟩ :=
    scanDown_spec (validBlkNr key) filled (Nat.le_of_lt apart) (Nat.lt_succ_self _)
  obtain ⟨lower, order, moves, rearranged, stored, smaller, larger⟩ :=
    moveDown_spec here low high above found
  have filled' : Filled (moveDown key left stop buf).2 (moveDown key left stop buf).1 stop := by
    intro place inside inside'
    exact rearranged.all (fun stored => stored.isSome) filled place (Nat.le_trans lower inside)
      (Nat.le_trans inside' high)
  obtain ⟨stop', scanned', low', high', below, found'⟩ :=
    scanUp_spec (validBlkNr key) filled' order (Nat.lt_succ_self _)
  have half := moveUp_spec stored low' high' below found'
  refine ⟨(stop', moveUp key stop' stop (moveDown key left stop buf).2), ?_, ?_, ?_, ?_⟩
  · unfold partitionRound
    rw [scanned, Option.bind_eq_bind, Option.bind_some]
    dsimp only
    rw [scanned']
    rfl
  · refine ⟨Nat.le_trans lower half.lower, half.order, Nat.le_trans half.upper high,
      rearranged.trans (half.rearranged.widen lower high), half.stored, ?_, ?_⟩
    · intro place inside before
      by_cases earlier : place < (moveDown key left stop buf).1
      · rw [keyAt, half.rearranged.outside (Or.inl earlier)]
        exact smaller place inside earlier
      · exact half.smaller place (Nat.le_of_not_lt earlier) before
    · intro place after inside
      by_cases later : stop < place
      · rw [keyAt, half.rearranged.outside (Or.inr later)]
        exact larger place later inside
      · exact half.larger place after (Nat.le_of_not_lt later)
  · have narrower := half.upper
    have ordered := half.order
    dsimp only
    by_cases moved : left < stop
    · have next := moves moved
      omega
    · omega
  · intro large
    have narrower := half.upper
    dsimp only
    by_cases last : stop = right
    · subst last
      exact absurd large (Nat.not_le_of_lt (found apart))
    · omega

/-- The outer loop of `partition` ends when the bounds have met. -/
theorem partitionLoop_spec (rounds : Nat) (here : buf left = some key)
    (filled : Filled buf left right) (order : left ≤ right) (enough : right - left < rounds) :
    ∃ pi buf', partitionLoop validBlkNr key rounds left right buf = some (pi, buf') ∧
      Narrowed validBlkNr key left right buf pi pi buf' ∧
      (left < right → validBlkNr key ≤ keyAt validBlkNr buf right → pi < right) := by
  induction rounds generalizing left right buf with
  | zero => exact absurd enough (Nat.not_lt_zero _)
  | succ rounds ih =>
    unfold partitionLoop
    by_cases apart : left < right
    · rw [if_pos apart]
      obtain ⟨next, result, narrowed, shorter, drops⟩ := partitionRound_spec here filled apart
      obtain ⟨pi, buf', result', narrowed', _⟩ :=
        ih narrowed.stored (narrowed.filled filled) narrowed.order (by omega)
      refine ⟨pi, buf', ?_, narrowed.trans narrowed', fun _ large => ?_⟩
      · rw [result, Option.bind_some, result']
      · exact Nat.lt_of_le_of_lt narrowed'.upper (drops large)
    · rw [if_neg apart]
      obtain rfl : left = right := Nat.le_antisymm order (Nat.le_of_not_lt apart)
      exact ⟨left, buf, rfl, .start here (Nat.le_refl left), fun less => absurd less apart⟩

/-- `partition` finds the place of its key. The place is not the last one if the last segment does
not go below the key. -/
theorem partition_spec (validBlkNr : κ → Nat) (filled : Filled buf left right) (order : left ≤ right) :
    ∃ key pi buf', buf left = some key ∧
      partition validBlkNr left right buf = some (pi, buf') ∧
      Narrowed validBlkNr key left right buf pi pi buf' ∧
      (left < right → validBlkNr key ≤ keyAt validBlkNr buf right → pi < right) := by
  obtain ⟨key, here⟩ := Option.isSome_iff_exists.mp (filled left (Nat.le_refl left) order)
  obtain ⟨pi, buf', result, narrowed, drops⟩ :=
    partitionLoop_spec (right - left + 1) here filled order (Nat.lt_succ_self _)
  refine ⟨key, pi, buf', here, ?_, narrowed, drops⟩
  unfold partition
  rw [here, Option.bind_eq_bind, Option.bind_some]
  exact result

end Partition

/-! ## Sorting -/

/-- The segments between two bounds, before a cut, are in order: none of them has a larger key than
one behind it. -/
def SortedUpTo (validBlkNr : κ → Nat) (cut left right : Nat) (buf : Nat → Option κ) : Prop :=
  ∀ first second, left ≤ first → first < second → second ≤ right → first < cut →
    keyAt validBlkNr buf first ≤ keyAt validBlkNr buf second

section Sorting

variable {validBlkNr : κ → Nat} {capacity left right : Nat} {buf : Nat → Option κ}

/-- Two neighbours are sorted. -/
theorem sortTwo_spec (filled : Filled buf left right) (next : left + 1 = right) :
    ∃ buf', sortTwo validBlkNr left right buf = some buf' ∧ Rearranged left right buf buf' ∧
      SortedUpTo validBlkNr capacity left right buf' := by
  obtain ⟨first, here⟩ :=
    Option.isSome_iff_exists.mp (filled left (Nat.le_refl left) (by omega))
  obtain ⟨second, there⟩ :=
    Option.isSome_iff_exists.mp (filled right (by omega) (Nat.le_refl right))
  unfold sortTwo
  rw [here, there, Option.bind_eq_bind, Option.bind_some, Option.bind_some]
  by_cases inverted : validBlkNr second < validBlkNr first
  · have swapped : Function.update (Function.update buf left (some second)) right (some first) =
        exchange buf left right := by rw [exchange, here, there]
    rw [if_pos inverted, swapped]
    refine ⟨_, rfl, Rearranged.refl.exchange ⟨Nat.le_refl left, by omega⟩
      ⟨by omega, Nat.le_refl right⟩, ?_⟩
    intro place place' low before high _
    obtain ⟨rfl, rfl⟩ : place = left ∧ place' = right := by omega
    rw [keyAt, keyAt, exchange_first, exchange_second, here, there]
    exact Nat.le_of_lt inverted
  · rw [if_neg inverted]
    refine ⟨buf, rfl, .refl, ?_⟩
    intro place place' low before high _
    obtain ⟨rfl, rfl⟩ : place = left ∧ place' = right := by omega
    rw [keyAt, keyAt, here, there]
    exact Nat.le_of_not_lt inverted

/-- A segment between bounds after a rearrangement was there before. -/
theorem rearranged_filled {buf' : Nat → Option κ} (filled : Filled buf left right)
    (rearranged : Rearranged left right buf buf') : Filled buf' left right :=
  rearranged.all (fun stored => stored.isSome) filled

/-- A bound of the keys between bounds still holds after a rearrangement. -/
theorem rearranged_keyAt {buf' : Nat → Option κ} (rearranged : Rearranged left right buf buf')
    (holds : Nat → Prop)
    (before : ∀ place, left ≤ place → place ≤ right → holds (keyAt validBlkNr buf place)) :
    ∀ place, left ≤ place → place ≤ right → holds (keyAt validBlkNr buf' place) :=
  rearranged.all (fun stored => holds (stored.elim 0 validBlkNr)) before

/-- Sorting both sides of a partition, the upper one only if it is not behind the cut, sorts the
whole. -/
theorem Narrowed.sorted {key : κ} {pi : Nat} {parted lowSorted sorted : Nat → Option κ}
    (narrowed : Narrowed validBlkNr key left right buf pi pi parted)
    (rearrangedLow : Rearranged left pi parted lowSorted)
    (sortedLow : SortedUpTo validBlkNr capacity left pi lowSorted)
    (rearrangedHigh : Rearranged (pi + 1) right lowSorted sorted)
    (sortedHigh : pi < capacity → SortedUpTo validBlkNr capacity (pi + 1) right sorted) :
    SortedUpTo validBlkNr capacity left right sorted := by
  have lowKeys : ∀ place, left ≤ place → place ≤ pi →
      keyAt validBlkNr lowSorted place ≤ validBlkNr key := by
    refine rearranged_keyAt rearrangedLow (fun found => found ≤ validBlkNr key) ?_
    intro place inside inside'
    by_cases last : place = pi
    · exact Nat.le_of_eq (last ▸ keyAt_of_some narrowed.stored)
    · exact Nat.le_of_lt (narrowed.smaller place inside (Nat.lt_of_le_of_ne inside' last))
  have highKeys : ∀ place, pi + 1 ≤ place → place ≤ right →
      validBlkNr key ≤ keyAt validBlkNr sorted place := by
    refine rearranged_keyAt rearrangedHigh (fun found => validBlkNr key ≤ found) ?_
    intro place inside inside'
    rw [keyAt, rearrangedLow.outside (Or.inr inside)]
    exact narrowed.larger place inside inside'
  have lowKept : ∀ place, place ≤ pi →
      keyAt validBlkNr sorted place = keyAt validBlkNr lowSorted place := by
    intro place inside
    rw [keyAt, rearrangedHigh.outside (Or.inl (Nat.lt_succ_of_le inside))]
    rfl
  intro first second low before high cut
  by_cases firstLow : first ≤ pi
  · rw [lowKept first firstLow]
    by_cases secondLow : second ≤ pi
    · rw [lowKept second secondLow]
      exact sortedLow first second low before secondLow cut
    · exact Nat.le_trans (lowKeys first low firstLow)
        (highKeys second (Nat.lt_of_not_le secondLow) high)
  · have behind := Nat.lt_of_not_le firstLow
    exact sortedHigh (Nat.lt_trans behind cut) first second behind before high cut

/-- `partial_qsort` ends, and sorts the segments between the bounds before the cut. A key that is
larger than all others may take one more call to go to its place. -/
theorem partialQsort_spec (depth : Nat) (filled : Filled buf left right)
    (enough : 2 * (right - left) < depth)
    (slack : keyAt validBlkNr buf right < keyAt validBlkNr buf left →
      2 * (right - left) + 1 < depth) :
    ∃ buf', partialQsort validBlkNr capacity depth left right buf = some buf' ∧
      Rearranged left right buf buf' ∧ SortedUpTo validBlkNr capacity left right buf' := by
  induction depth generalizing left right buf with
  | zero => exact absurd enough (Nat.not_lt_zero _)
  | succ depth ih =>
    unfold partialQsort
    by_cases apart : left < right
    · rw [if_pos apart]
      by_cases next : left + 1 = right
      · rw [if_pos next]
        exact sortTwo_spec filled next
      · rw [if_neg next]
        obtain ⟨key, pi, parted, here, result, narrowed, drops⟩ :=
          partition_spec validBlkNr filled (Nat.le_of_lt apart)
        have low := narrowed.lower
        have high := narrowed.upper
        have filledParted := rearranged_filled filled narrowed.rearranged
        have filledLow : Filled parted left pi :=
          fun place inside inside' => filledParted place inside (Nat.le_trans inside' high)
        obtain ⟨lowSorted, resultLow, rearrangedLow, sortedLow⟩ :
            ∃ lowSorted, partialQsort validBlkNr capacity depth left pi parted = some lowSorted ∧
              Rearranged left pi parted lowSorted ∧
              SortedUpTo validBlkNr capacity left pi lowSorted := by
          by_cases last : pi = right
          · have larger : keyAt validBlkNr buf right < keyAt validBlkNr buf left := by
              rw [keyAt_of_some here]
              apply Nat.lt_of_not_le
              exact fun large => absurd last (Nat.ne_of_lt (drops apart large))
            have more := slack larger
            refine ih filledLow (by omega) fun inverted => ?_
            rw [keyAt_of_some narrowed.stored] at inverted
            exact absurd inverted
              (Nat.not_lt_of_gt (narrowed.smaller left (Nat.le_refl left) (by omega)))
          · exact ih filledLow (by omega) fun _ => by omega
        have filledHigh : Filled lowSorted (pi + 1) right := by
          intro place inside inside'
          rw [rearrangedLow.outside (Or.inr inside)]
          exact filledParted place (by omega) inside'
        rw [result, Option.bind_eq_bind, Option.bind_some]
        dsimp only
        rw [resultLow, Option.bind_eq_bind, Option.bind_some]
        have soFar := narrowed.rearranged.trans (rearrangedLow.widen (Nat.le_refl left) high)
        by_cases cut : pi < capacity
        · rw [if_pos cut]
          obtain ⟨sorted, resultHigh, rearrangedHigh, sortedHigh⟩ :=
            ih filledHigh (by omega) fun _ => by omega
          refine ⟨sorted, resultHigh, ?_, ?_⟩
          · exact soFar.trans (rearrangedHigh.widen (by omega) (Nat.le_refl right))
          · exact narrowed.sorted rearrangedLow sortedLow rearrangedHigh fun _ => sortedHigh
        · rw [if_neg cut]
          refine ⟨lowSorted, rfl, soFar, ?_⟩
          exact narrowed.sorted rearrangedLow sortedLow .refl fun less => absurd less cut
    · rw [if_neg apart]
      refine ⟨buf, rfl, .refl, ?_⟩
      intro first second low before high _
      omega

/-- `partial_qsort` never needs more depth than it has. -/
theorem qsort_spec (validBlkNr : κ → Nat) (capacity : Nat) (filled : Filled buf left right) :
    ∃ buf', qsort validBlkNr capacity left right buf = some buf' ∧
      Rearranged left right buf buf' ∧ SortedUpTo validBlkNr capacity left right buf' :=
  partialQsort_spec _ filled (by omega) fun _ => by omega

end Sorting

/-! ## Pushing -/

/-- Subtracting one from a positive size. -/
theorem dec_succ {size : Nat} (small : size < sizeLimit) : dec (size + 1) = size := by
  unfold dec
  have same : size + 1 + (sizeLimit - 1) = size + sizeLimit := by
    show size + 1 + (2 ^ 64 - 1) = size + 2 ^ 64
    omega
  rw [same, Nat.add_mod_right, Nat.mod_eq_of_lt small]

/-- Adding one to what was subtracted. -/
theorem inc_dec {size : Nat} (small : size < sizeLimit) : inc (dec size) = size := by
  cases size with
  | zero => rfl
  | succ size =>
    rw [dec_succ (Nat.lt_of_succ_lt small), inc, Nat.mod_eq_of_lt small]

/-- The segments that are pushed to the low end. -/
def lows (validBlkNr : κ → Nat) (pth : Nat) (pushed : List κ) : List κ :=
  pushed.filter fun seg => validBlkNr seg < pth

/-- The segments that are pushed to the high end. -/
def highs (validBlkNr : κ → Nat) (pth : Nat) (pushed : List κ) : List κ :=
  pushed.filter fun seg => pth ≤ validBlkNr seg

/-- Every segment is pushed to one end. -/
theorem lows_highs_perm (validBlkNr : κ → Nat) (pth : Nat) (pushed : List κ) :
    (lows validBlkNr pth pushed ++ highs validBlkNr pth pushed).Perm pushed := by
  have same : highs validBlkNr pth pushed =
      pushed.filter fun seg => !decide (validBlkNr seg < pth) := by
    apply List.filter_congr
    intro seg _
    rw [← decide_not]
    exact decide_eq_decide.mpr Nat.not_lt.symm
  rw [same]
  exact List.filter_append_perm _ pushed

/-- Where the segments are after they were pushed into a pool that had been initialised. -/
structure Pushed (validBlkNr : κ → Nat) (start : GcPoolQuick κ) (pushed : List κ)
    (pool : GcPoolQuick κ) : Prop where
  /-- The size of the buffer does not change. -/
  bufSize : pool.bufSize = start.bufSize
  /-- The bound of the low segments does not change. -/
  pth : pool.pth = start.pth
  /-- The number of segments at the low end. -/
  low : pool.low = (lows validBlkNr start.pth pushed).length
  /-- The last free place. -/
  high : pool.high = dec (start.bufSize - (highs validBlkNr start.pth pushed).length)
  /-- The segments at the low end. -/
  atLow : ∀ place < (lows validBlkNr start.pth pushed).length,
    pool.buf place = (lows validBlkNr start.pth pushed)[place]?
  /-- The segments at the high end. -/
  atHigh : ∀ place < (highs validBlkNr start.pth pushed).length,
    pool.buf (start.bufSize - 1 - place) = (highs validBlkNr start.pth pushed)[place]?
  /-- What is between them stays there. -/
  between : ∀ place, (lows validBlkNr start.pth pushed).length ≤ place →
    place < start.bufSize - (highs validBlkNr start.pth pushed).length →
    pool.buf place = start.buf place

section Push

variable {validBlkNr : κ → Nat} {start pool : GcPoolQuick κ} {pushed : List κ}

/-- `init` empties both ends. -/
theorem init_pushed (validBlkNr : κ → Nat) (start : GcPoolQuick κ) :
    Pushed validBlkNr start [] start.init where
  bufSize := rfl
  pth := rfl
  low := rfl
  high := rfl
  atLow := fun _ inside => absurd inside (Nat.not_lt_zero _)
  atHigh := fun _ inside => absurd inside (Nat.not_lt_zero _)
  between := fun _ _ _ => rfl

/-- `Push` stores a segment at the low or at the high end. -/
theorem Pushed.push (held : Pushed validBlkNr start pushed pool) (seg : κ)
    (room : pushed.length < start.bufSize) (small : start.bufSize < sizeLimit) :
    ∃ pool', pool.push validBlkNr seg = some pool' ∧
      Pushed validBlkNr start (pushed ++ [seg]) pool' := by
  have total := (lows_highs_perm validBlkNr start.pth pushed).length_eq
  rw [List.length_append] at total
  unfold GcPoolQuick.push
  rw [held.pth]
  by_cases large : start.pth ≤ validBlkNr seg
  · rw [if_pos large]
    have sameLows : lows validBlkNr start.pth (pushed ++ [seg]) =
        lows validBlkNr start.pth pushed := by
      simp [lows, Nat.not_lt_of_le large]
    have moreHighs : highs validBlkNr start.pth (pushed ++ [seg]) =
        highs validBlkNr start.pth pushed ++ [seg] := by
      simp [highs, large]
    have place : pool.high =
        start.bufSize - 1 - (highs validBlkNr start.pth pushed).length := by
      rw [held.high, show start.bufSize - (highs validBlkNr start.pth pushed).length =
        start.bufSize - 1 - (highs validBlkNr start.pth pushed).length + 1 by omega]
      exact dec_succ (by omega)
    have inside : pool.high < pool.bufSize := by
      rw [place, held.bufSize]
      omega
    unfold store
    rw [if_pos inside]
    refine ⟨_, rfl, held.bufSize, held.pth, ?_, ?_, ?_, ?_, ?_⟩
    · rw [sameLows]
      exact held.low
    · show dec pool.high = _
      rw [moreHighs, List.length_append, List.length_singleton, place]
      congr 1
      omega
    · rw [sameLows]
      intro index within
      rw [← held.atLow index within]
      exact Function.update_of_ne (by omega) ..
    · rw [moreHighs, List.length_append, List.length_singleton]
      intro index within
      by_cases last : index = (highs validBlkNr start.pth pushed).length
      · rw [last, ← place, List.getElem?_concat_length]
        exact Function.update_self ..
      · rw [List.getElem?_append_left (by omega), ← held.atHigh index (by omega)]
        exact Function.update_of_ne (by omega) ..
    · rw [sameLows, moreHighs, List.length_append, List.length_singleton]
      intro index behind before
      rw [← held.between index behind (by omega)]
      exact Function.update_of_ne (by omega) ..
  · rw [if_neg large]
    have moreLows : lows validBlkNr start.pth (pushed ++ [seg]) =
        lows validBlkNr start.pth pushed ++ [seg] := by
      simp [lows, Nat.lt_of_not_le large]
    have sameHighs : highs validBlkNr start.pth (pushed ++ [seg]) =
        highs validBlkNr start.pth pushed := by
      simp [highs, large]
    have inside : pool.low < pool.bufSize := by
      rw [held.low, held.bufSize]
      omega
    unfold store
    rw [if_pos inside]
    refine ⟨_, rfl, held.bufSize, held.pth, ?_, ?_, ?_, ?_, ?_⟩
    · show inc pool.low = _
      rw [moreLows, List.length_append, List.length_singleton, held.low, inc,
        Nat.mod_eq_of_lt (by omega)]
    · rw [sameHighs]
      exact held.high
    · rw [moreLows, List.length_append, List.length_singleton]
      intro index within
      by_cases last : index = (lows validBlkNr start.pth pushed).length
      · rw [last, List.getElem?_concat_length, ← held.low]
        exact Function.update_self ..
      · rw [List.getElem?_append_left (by omega), ← held.atLow index (by omega)]
        refine Function.update_of_ne ?_ ..
        rw [held.low]
        exact last
    · rw [sameHighs]
      intro index within
      rw [← held.atHigh index within]
      refine Function.update_of_ne ?_ ..
      rw [held.low]
      omega
    · rw [moreLows, sameHighs, List.length_append, List.length_singleton]
      intro index behind before
      rw [← held.between index (by omega) before]
      refine Function.update_of_ne ?_ ..
      rw [held.low]
      omega

/-- Segments that fit into the buffer are pushed after each other. -/
theorem Pushed.pushAll (held : Pushed validBlkNr start pushed pool) (segs : List κ)
    (room : pushed.length + segs.length ≤ start.bufSize) (small : start.bufSize < sizeLimit) :
    ∃ pool', GcPoolQuick.pushAll validBlkNr segs pool = some pool' ∧
      Pushed validBlkNr start (pushed ++ segs) pool' := by
  induction segs generalizing pushed pool with
  | nil => exact ⟨pool, rfl, by rwa [List.append_nil]⟩
  | cons seg segs ih =>
    rw [List.length_cons] at room
    obtain ⟨next, result, held'⟩ := held.push seg (by omega) small
    rw [List.append_cons]
    unfold GcPoolQuick.pushAll
    rw [result, Option.bind_some]
    refine ih held' ?_
    rw [List.length_append, List.length_singleton]
    omega

end Push

/-! ## Sorting what was pushed -/

/-- The loop that moves the high part down copies every segment before it is overwritten. -/
theorem copyDown_apply (rounds : Nat) {tt ii : Nat} (behind : tt ≤ ii) (buf : Nat → Option κ)
    (place : Nat) :
    copyDown rounds tt ii buf place =
      if tt ≤ place ∧ place < tt + rounds then buf (ii + (place - tt)) else buf place := by
  induction rounds generalizing tt ii buf with
  | zero =>
    have outside : ¬ (tt ≤ place ∧ place < tt + 0) := by omega
    rw [if_neg outside]
    rfl
  | succ rounds ih =>
    unfold copyDown
    rw [ih (Nat.succ_le_succ behind)]
    by_cases here : place = tt
    · have before : ¬ (tt + 1 ≤ place ∧ place < tt + 1 + rounds) := by omega
      have inside : tt ≤ place ∧ place < tt + (rounds + 1) := by omega
      rw [if_neg before, if_pos inside, here, Function.update_self, Nat.sub_self]
      rfl
    · by_cases inside : tt ≤ place ∧ place < tt + (rounds + 1)
      · have inside' : tt + 1 ≤ place ∧ place < tt + 1 + rounds := by omega
        rw [if_pos inside, if_pos inside', Function.update_of_ne (by omega)]
        congr 1
        omega
      · have outside : ¬ (tt + 1 ≤ place ∧ place < tt + 1 + rounds) := by omega
        rw [if_neg inside, if_neg outside, Function.update_of_ne here]

section Select

variable {validBlkNr : κ → Nat} {capacity : Nat} {buf : Nat → Option κ}

/-- The first places of a buffer that is sorted before the cut hold the selected segments. -/
theorem selects_of_sorted {pushed elements rest : List κ}
    (perm : (cells buf elements.length).Perm (elements.map some))
    (sorted : SortedUpTo validBlkNr capacity 0 (elements.length - 1) buf)
    (split : (elements ++ rest).Perm pushed)
    (apart : ∀ element ∈ elements, ∀ other ∈ rest, validBlkNr element ≤ validBlkNr other)
    (enough : rest = [] ∨ capacity ≤ elements.length) :
    ∃ victims, Selects validBlkNr pushed capacity victims ∧
      ∀ place < victims.length, buf place = victims[place]? := by
  obtain ⟨segs, stored, same⟩ := map_some_of_perm perm
  have length : segs.length = elements.length := same.length_eq
  have at_place : ∀ (place : Nat) (inside : place < segs.length), buf place = some segs[place] := by
    intro place inside
    have inside' : place < elements.length := length ▸ inside
    have entry := getElem?_cells buf inside'
    rw [stored, List.getElem?_map, List.getElem?_eq_getElem inside] at entry
    exact (Option.some.inj entry).symm
  have select : Selects validBlkNr pushed capacity (segs.take capacity) := by
    apply Selects.take ((same.append_right rest).trans split)
    · intro first second inside before cut
      have order := sorted first second (Nat.zero_le first) before (by omega) cut
      rwa [keyAt_of_some (at_place first (Nat.lt_trans before inside)),
        keyAt_of_some (at_place second inside)] at order
    · exact fun element member => apart element (same.mem_iff.mp member)
    · rwa [length]
  refine ⟨_, select, fun place inside => ?_⟩
  rw [List.length_take] at inside
  have inside' : place < segs.length := by omega
  rw [at_place place inside', List.getElem?_take_of_lt (by omega), List.getElem?_eq_getElem inside']

end Select

section Arrange

variable {validBlkNr : κ → Nat} {start pool : GcPoolQuick κ} {pushed : List κ}

/-- Aligning the high part with the low part, in a buffer that is large enough. -/
theorem alignHigh_spec (pool : GcPoolQuick κ) {highCount : Nat} (high : pool.high = dec (pool.bufSize - highCount))
    (fits : pool.low + highCount ≤ pool.bufSize) (small : pool.bufSize < sizeLimit) :
    ∃ buf, pool.alignHigh = { pool with buf, dataSize := pool.low + highCount } ∧
      ∀ place, buf place =
        if pool.low ≤ place ∧ place < pool.low + highCount then
          pool.buf (pool.bufSize - highCount + (place - pool.low))
        else pool.buf place := by
  have next : inc pool.high = pool.bufSize - highCount := by
    rw [high]
    exact inc_dec (by omega)
  unfold alignHigh
  by_cases gap : pool.low ≤ pool.high
  · rw [if_pos gap, next]
    have count : pool.bufSize - (pool.bufSize - highCount) = highCount := by omega
    simp only [count]
    refine ⟨_, rfl, fun place => ?_⟩
    exact copyDown_apply highCount (by omega) pool.buf place
  · rw [if_neg gap]
    have full : pool.bufSize - highCount = pool.low := by
      by_cases full : pool.bufSize - highCount = 0
      · rw [high, full] at gap
        have large : dec 0 = sizeLimit - 1 := rfl
        rw [large] at gap
        exact absurd (show pool.low ≤ 2 ^ 64 - 1 by
          have small : pool.bufSize < 2 ^ 64 := small
          omega) gap
      · obtain ⟨before, same⟩ := Nat.exists_eq_succ_of_ne_zero full
        rw [high, same, dec_succ (by omega)] at gap
        omega
    refine ⟨pool.buf, ?_, fun place => ?_⟩
    · congr 1
      omega
    · rw [full]
      by_cases inside : pool.low ≤ place ∧ place < pool.low + highCount
      · rw [if_pos inside]
        congr 1
        omega
      · rw [if_neg inside]

/-- The segments at the low end. -/
theorem Pushed.cells_low (held : Pushed validBlkNr start pushed pool) :
    cells pool.buf pool.low = (lows validBlkNr start.pth pushed).map some := by
  rw [held.low]
  exact cells_eq_map_some held.atLow

/-- The low part is sorted by the first step. -/
theorem sortLow_spec (capacity : Nat) (held : Pushed validBlkNr start pushed pool) :
    ∃ buf, pool.sortLow validBlkNr capacity = some { pool with buf } ∧
      (cells buf pool.low).Perm ((lows validBlkNr start.pth pushed).map some) ∧
      SortedUpTo validBlkNr capacity 0 (pool.low - 1) buf ∧
      ∀ place, pool.low ≤ place → buf place = pool.buf place := by
  rw [← held.cells_low]
  unfold sortLow
  by_cases some_low : 0 < pool.low
  · rw [if_pos some_low]
    have filled : Filled pool.buf 0 (pool.low - 1) := by
      intro place _ inside
      have within : place < (lows validBlkNr start.pth pushed).length := by
        rw [← held.low]
        omega
      rw [held.atLow place within, List.getElem?_eq_getElem within]
      rfl
    obtain ⟨buf, result, rearranged, sorted⟩ := qsort_spec validBlkNr capacity filled
    rw [result]
    refine ⟨buf, rfl, rearranged.perm (by omega), sorted, fun place behind => ?_⟩
    exact rearranged.outside (Or.inr (by omega))
  · rw [if_neg some_low]
    refine ⟨pool.buf, rfl, List.Perm.refl _, ?_, fun _ _ => rfl⟩
    intro first second _ before high _
    omega

/-- The aligned segments of the high end. -/
theorem Pushed.cells_high (held : Pushed validBlkNr start pushed pool) {buf : Nat → Option κ}
    (fits : pushed.length ≤ start.bufSize)
    (same : ∀ place < (highs validBlkNr start.pth pushed).length, buf place =
      pool.buf (start.bufSize - (highs validBlkNr start.pth pushed).length + place)) :
    cells buf (highs validBlkNr start.pth pushed).length =
      (highs validBlkNr start.pth pushed).reverse.map some := by
  have total := (lows_highs_perm validBlkNr start.pth pushed).length_eq
  rw [List.length_append] at total
  rw [← List.length_reverse]
  apply cells_eq_map_some
  intro place inside
  rw [List.length_reverse] at inside
  have there := held.atHigh ((highs validBlkNr start.pth pushed).length - 1 - place) (by omega)
  rw [same place inside, List.getElem?_reverse inside, ← there]
  congr 1
  omega

/-- A place of a prefix holds one of the segments. -/
theorem stored_of_cells {buf : Nat → Option κ} {len : Nat} (place : Nat) {segs : List κ}
    (perm : (cells buf len).Perm (segs.map some)) (inside : place < len) :
    ∃ seg ∈ segs, buf place = some seg := by
  have member := perm.mem_iff.mp (mem_cells.mpr ⟨place, inside, rfl⟩)
  obtain ⟨seg, within, same⟩ := List.mem_map.mp member
  exact ⟨seg, within, same.symm⟩

/-- The high part is moved down and sorted by the second step, if it is needed. -/
theorem sortHigh_spec {capacity : Nat} {buf : Nat → Option κ}
    (held : Pushed validBlkNr start pushed pool) (someone : pushed ≠ [])
    (fits : pushed.length ≤ start.bufSize) (small : start.bufSize < sizeLimit)
    (perm : (cells buf pool.low).Perm ((lows validBlkNr start.pth pushed).map some))
    (sorted : SortedUpTo validBlkNr capacity 0 (pool.low - 1) buf)
    (kept : ∀ place, pool.low ≤ place → buf place = pool.buf place)
    (few : pool.low < capacity) :
    ∃ arranged dataSize, sortHigh validBlkNr capacity { pool with buf } =
        some { pool with buf := arranged, dataSize } ∧
      (cells arranged pushed.length).Perm
        ((lows validBlkNr start.pth pushed ++ highs validBlkNr start.pth pushed).map some) ∧
      SortedUpTo validBlkNr capacity 0 (pushed.length - 1) arranged ∧
      ∀ place, pushed.length ≤ place → arranged place = pool.buf place := by
  have positive := List.length_pos_of_ne_nil someone
  have total : pool.low + (highs validBlkNr start.pth pushed).length = pushed.length := by
    rw [held.low, ← List.length_append]
    exact (lows_highs_perm validBlkNr start.pth pushed).length_eq
  have high := held.high
  rw [← held.bufSize] at high fits small
  obtain ⟨aligned, result, same⟩ :=
    alignHigh_spec { pool with buf } high (by rw [total]; exact fits) small
  dsimp only at same
  rw [total] at same result
  have lowSame : ∀ place < pool.low, aligned place = buf place := by
    intro place inside
    rw [same, if_neg (by omega)]
  have highCells : cells (fun place => aligned (pool.low + place))
      (highs validBlkNr start.pth pushed).length =
      (highs validBlkNr start.pth pushed).reverse.map some := by
    apply held.cells_high (held.bufSize ▸ fits)
    intro place inside
    rw [same, if_pos (by omega), Nat.add_sub_cancel_left, held.bufSize]
    apply kept
    rw [held.bufSize] at fits
    omega
  have highStored : ∀ place, pool.low ≤ place → place ≤ pushed.length - 1 →
      ∃ seg ∈ highs validBlkNr start.pth pushed, aligned place = some seg := by
    intro place low inside
    obtain ⟨seg, member, there⟩ :=
      stored_of_cells (place - pool.low) (List.Perm.of_eq highCells) (by omega)
    rw [Nat.add_sub_cancel' low] at there
    exact ⟨seg, List.mem_reverse.mp member, there⟩
  have filled : Filled aligned pool.low (pushed.length - 1) := by
    intro place low inside
    obtain ⟨seg, _, there⟩ := highStored place low inside
    rw [there]
    rfl
  obtain ⟨arranged, resultSort, rearranged, sortedHigh⟩ := qsort_spec validBlkNr capacity filled
  refine ⟨arranged, pushed.length, ?_, ?_, ?_, ?_⟩
  · unfold sortHigh
    dsimp only
    rw [if_pos few, result]
    dsimp only
    obtain ⟨before, more⟩ := Nat.exists_eq_succ_of_ne_zero (Nat.ne_of_gt positive)
    rw [more, dec_succ (by omega), ← Nat.succ_sub_one before, ← more, resultSort]
    rfl
  · refine (rearranged.perm (by omega)).trans ?_
    rw [← total, cells_add, highCells, cells_congr lowSame, List.map_append]
    exact perm.append ((List.reverse_perm _).map some)
  · have lowKept : ∀ place < pool.low,
        keyAt validBlkNr arranged place = keyAt validBlkNr buf place := by
      intro place inside
      rw [keyAt, rearranged.outside (Or.inl inside), lowSame place inside]
      rfl
    have lowKeys : ∀ place < pool.low, keyAt validBlkNr buf place < start.pth := by
      intro place inside
      obtain ⟨seg, member, there⟩ := stored_of_cells place perm inside
      rw [keyAt_of_some there]
      exact of_decide_eq_true (List.mem_filter.mp member).2
    have highKeys : ∀ place, pool.low ≤ place → place ≤ pushed.length - 1 →
        start.pth ≤ keyAt validBlkNr arranged place := by
      refine rearranged_keyAt rearranged (fun found => start.pth ≤ found) ?_
      intro place low inside
      obtain ⟨seg, member, there⟩ := highStored place low inside
      rw [keyAt_of_some there]
      exact of_decide_eq_true (List.mem_filter.mp member).2
    intro first second _ before inside cut
    by_cases firstLow : first < pool.low
    · rw [lowKept first firstLow]
      by_cases secondLow : second < pool.low
      · rw [lowKept second secondLow]
        exact sorted first second (Nat.zero_le first) before (by omega) cut
      · have below := lowKeys first firstLow
        have above := highKeys second (Nat.le_of_not_lt secondLow) inside
        omega
    · exact sortedHigh first second (Nat.le_of_not_lt firstLow) before inside cut
  · intro place behind
    rw [rearranged.outside (Or.inr (by omega)), same, if_neg (by omega)]
    exact kept place (by omega)

/-- What `Sort` leaves: the selected segments are in the first places. A place behind all pushed
segments is null if it was null before and no segment was pushed to it. -/
theorem sort_spec {capacity : Nat} (held : Pushed validBlkNr start pushed pool)
    (someone : pushed ≠ []) (fits : pushed.length ≤ start.bufSize)
    (small : start.bufSize < sizeLimit) (positive : 0 < capacity)
    (wide : capacity ≤ start.bufSize) :
    ∃ sorted, pool.sort validBlkNr capacity = some sorted ∧ sorted.popPtr = 0 ∧
      sorted.bufSize = start.bufSize ∧ sorted.pth = start.pth ∧
      (∃ victims, Selects validBlkNr pushed capacity victims ∧
        ∀ place < victims.length, sorted.buf place = victims[place]?) ∧
      ∀ place < capacity, sorted.buf place = none ↔ pushed.length ≤ place ∧
        place < start.bufSize - (highs validBlkNr start.pth pushed).length ∧
        start.buf place = none := by
  have total := (lows_highs_perm validBlkNr start.pth pushed).length_eq
  obtain ⟨buf, resultLow, perm, sortedLow, kept⟩ := sortLow_spec capacity held
  have checks : 0 < capacity ∧ capacity ≤ pool.bufSize := ⟨positive, held.bufSize ▸ wide⟩
  unfold GcPoolQuick.sort
  rw [resultLow, Option.bind_eq_bind, Option.bind_some]
  by_cases few : pool.low < capacity
  · obtain ⟨arranged, dataSize, resultHigh, perm', sorted', behind⟩ :=
      sortHigh_spec held someone fits small perm sortedLow kept few
    rw [resultHigh, Option.bind_some, if_pos checks]
    refine ⟨_, rfl, rfl, held.bufSize, held.pth, ?_, fun place inside => ?_⟩
    · have perm'' := perm'
      rw [← total] at perm'' sorted'
      have split := lows_highs_perm validBlkNr start.pth pushed
      rw [← List.append_nil (lows validBlkNr start.pth pushed ++ _)] at split
      apply selects_of_sorted perm'' sorted' split
      · exact fun _ _ _ member => absurd member List.not_mem_nil
      · exact Or.inl rfl
    · show arranged place = none ↔ _
      by_cases within : place < pushed.length
      · obtain ⟨seg, _, there⟩ := stored_of_cells place perm' within
        rw [there]
        exact iff_of_false (Option.some_ne_none seg) fun empty =>
          absurd empty.1 (Nat.not_le_of_lt within)
      · have after := Nat.le_of_not_lt within
        rw [behind place after]
        rw [List.length_append] at total
        by_cases free : place < start.bufSize - (highs validBlkNr start.pth pushed).length
        · rw [held.between place (by omega) free]
          exact ⟨fun empty => ⟨after, free, empty⟩, fun empty => empty.2.2⟩
        · have within' : start.bufSize - 1 - place <
              (highs validBlkNr start.pth pushed).length := by omega
          have there := held.atHigh (start.bufSize - 1 - place) within'
          rw [show start.bufSize - 1 - (start.bufSize - 1 - place) = place by omega,
            List.getElem?_eq_getElem within'] at there
          rw [there]
          exact iff_of_false (Option.some_ne_none _) fun empty => free empty.2.1
  · have resultHigh : sortHigh validBlkNr capacity { pool with buf } = some { pool with buf } :=
      if_neg few
    rw [resultHigh, Option.bind_some, if_pos checks]
    refine ⟨_, rfl, rfl, held.bufSize, held.pth, ?_, fun place inside => ?_⟩
    · rw [held.low] at perm sortedLow few
      apply selects_of_sorted perm sortedLow (lows_highs_perm ..)
      · intro low member high member'
        have below := of_decide_eq_true (List.mem_filter.mp member).2
        have above := of_decide_eq_true (List.mem_filter.mp member').2
        exact Nat.le_of_lt (Nat.lt_of_lt_of_le below above)
      · exact Or.inr (Nat.le_of_not_lt few)
    · obtain ⟨seg, _, there⟩ := stored_of_cells place perm (by omega)
      have within : place < pushed.length := by
        rw [List.length_append, ← held.low] at total
        omega
      show buf place = none ↔ _
      rw [there]
      exact iff_of_false (Option.some_ne_none seg) fun empty =>
        absurd empty.1 (Nat.not_le_of_lt within)

end Arrange

end GcPoolQuick

end FsChecking.PerfSim
