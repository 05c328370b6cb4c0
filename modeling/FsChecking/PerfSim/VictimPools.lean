import FsChecking.PerfSim.GcPool
import FsChecking.PerfSim.GcPoolQuick

/-!
# Agreement of the victim pools

A `GcPoolQuick` is used for one garbage collection after another, and keeps in its buffer what
earlier ones left there. The three pools select the same segments when there are enough of them.
-/

namespace FsChecking.PerfSim

open FsChecking.Lib

variable {κ : Type}

namespace GcPoolQuick

/-! ## Rounds of a partial quicksort -/

/-- `init`, a number of calls of `Push`, and `Sort`. -/
def collect (validBlkNr : κ → Nat) (capacity : Nat) (pushed : List κ) (pool : GcPoolQuick κ) :
    Option (GcPoolQuick κ) :=
  (pushAll validBlkNr pushed pool.init).bind (sort validBlkNr capacity)

/-- A garbage collection that uses the pool. -/
structure Round (κ : Type) where
  /-- The numbers of valid blocks at that time. -/
  validBlkNr : κ → Nat
  /-- The segments that are pushed. -/
  pushed : List κ
  /-- The number of calls of `Pop`. -/
  calls : Nat

/-- Successive calls of `Pop` return the selected segments and then null. -/
def Answers (validBlkNr : κ → Nat) (capacity : Nat) (pushed : List κ) (sorted : GcPoolQuick κ) :
    Prop :=
  ∃ victims, Selects validBlkNr pushed capacity victims ∧
    ∀ calls, (sorted.pops capacity calls).1 = (List.range calls).map fun call => victims[call]?

/-- In every round on a pool, sorting ends and `Pop` returns the selected segments. -/
def RoundsAnswer (capacity : Nat) : List (Round κ) → GcPoolQuick κ → Prop
  | [], _ => True
  | round :: rounds, pool =>
    ∃ sorted, pool.collect round.validBlkNr capacity round.pushed = some sorted ∧
      Answers round.validBlkNr capacity round.pushed sorted ∧
      RoundsAnswer capacity rounds (sorted.pops capacity round.calls).2

/-- The buffer has at least `N` places. If fewer segments are pushed than `N`, then in no round so far
more were pushed, and the segments at the high end did not reach the first `N` places. -/
def Clean (capacity pth bufSize : Nat) (before : List (Round κ)) (round : Round κ) : Prop :=
  (0 < capacity ∧ capacity ≤ bufSize) ∧
    (round.pushed.length < capacity → ∀ earlier ∈ before ++ [round],
      earlier.pushed.length ≤ round.pushed.length ∧
      capacity + (highs earlier.validBlkNr pth earlier.pushed).length ≤ bufSize)

/-- A place is null as long as no round has stored a segment there. -/
structure Untouched (capacity pth bufSize : Nat) (before : List (Round κ)) (pool : GcPoolQuick κ) :
    Prop where
  /-- The size of the buffer. -/
  sameSize : pool.bufSize = bufSize
  /-- The bound of the low segments. -/
  samePth : pool.pth = pth
  /-- What rounds store in the first places. -/
  free : ∀ place < capacity, pool.buf place = none ↔ ∀ earlier ∈ before,
    earlier.pushed.length ≤ place ∧
    place < bufSize - (highs earlier.validBlkNr pth earlier.pushed).length

section Rounds

variable {validBlkNr : κ → Nat} {capacity pth bufSize : Nat} {pushed : List κ}
  {pool sorted : GcPoolQuick κ}

/-- Calls of `Pop` return the places of the buffer, and only move the pointer. -/
theorem pops_spec (capacity calls : Nat) (pool : GcPoolQuick κ) :
    (pool.pops capacity calls).1 = ((List.range calls).map fun call =>
        if pool.popPtr + call < capacity then pool.buf (pool.popPtr + call) else none) ∧
      ∃ popPtr, (pool.pops capacity calls).2 = { pool with popPtr } := by
  induction calls generalizing pool with
  | zero => exact ⟨rfl, pool.popPtr, rfl⟩
  | succ calls ih =>
    rw [List.range_succ_eq_map, List.map_cons, List.map_map]
    unfold pops pop
    by_cases past : capacity ≤ pool.popPtr
    · rw [if_pos past]
      obtain ⟨answers, moved⟩ := ih pool
      refine ⟨?_, moved⟩
      dsimp only
      rw [answers, if_neg (by omega)]
      congr 1
      apply List.map_congr_left
      intro call _
      have past' : ¬ pool.popPtr + call < capacity := by omega
      have past'' : ¬ pool.popPtr + (call + 1) < capacity := by omega
      exact (if_neg past').trans (if_neg past'').symm
    · rw [if_neg past]
      obtain ⟨answers, popPtr, moved⟩ := ih { pool with popPtr := pool.popPtr + 1 }
      refine ⟨?_, popPtr, moved⟩
      dsimp only at answers ⊢
      rw [answers, if_pos (show pool.popPtr + 0 < capacity by omega)]
      congr 1
      apply List.map_congr_left
      intro call _
      rw [Nat.succ_add, ← Nat.add_succ]
      rfl

/-- The answers are right if the places behind the selected segments are null. -/
theorem answers_iff (start : sorted.popPtr = 0)
    (first : ∃ victims, Selects validBlkNr pushed capacity victims ∧
      ∀ place < victims.length, sorted.buf place = victims[place]?) :
    Answers validBlkNr capacity pushed sorted ↔
      ∀ place, pushed.length ≤ place → place < capacity → sorted.buf place = none := by
  constructor
  · rintro ⟨victims, selects, answers⟩ place behind inside
    have length := selects.length
    have last := answers (place + 1)
    rw [(pops_spec capacity (place + 1) sorted).1, start] at last
    have entry := congrArg (fun entries => entries[place]?) last
    simp only [List.getElem?_map, List.getElem?_range (Nat.lt_succ_self place), Nat.zero_add,
      Option.map_some, if_pos inside] at entry
    rw [Option.some.inj entry]
    exact List.getElem?_eq_none (by omega)
  · intro empty
    obtain ⟨victims, selects, stored⟩ := first
    have length := selects.length
    refine ⟨victims, selects, fun calls => ?_⟩
    rw [(pops_spec capacity calls sorted).1, start]
    apply List.map_congr_left
    intro call _
    rw [Nat.zero_add]
    by_cases within : call < victims.length
    · rw [if_pos (by omega), stored call within]
    · rw [List.getElem?_eq_none (Nat.le_of_not_lt within)]
      by_cases inside : call < capacity
      · rw [if_pos inside]
        exact empty call (by omega) inside
      · rw [if_neg inside]

/-- `Sort` keeps the size of the buffer, which has to have `N` places. -/
theorem sort_wide {result : GcPoolQuick κ} (sorts : pool.sort validBlkNr capacity = some result) :
    0 < capacity ∧ capacity ≤ pool.bufSize := by
  unfold GcPoolQuick.sort at sorts
  obtain ⟨lowSorted, first, sorts⟩ := Option.bind_eq_some_iff.mp sorts
  obtain ⟨highSorted, second, sorts⟩ := Option.bind_eq_some_iff.mp sorts
  have sameLow : lowSorted.bufSize = pool.bufSize := by
    unfold sortLow at first
    split at first
    · obtain ⟨buf, _, rfl⟩ := Option.map_eq_some_iff.mp first
      rfl
    · rw [← Option.some.inj first]
  have sameHigh : highSorted.bufSize = lowSorted.bufSize := by
    unfold sortHigh at second
    split at second
    · obtain ⟨buf, _, rfl⟩ := Option.map_eq_some_iff.mp second
      unfold alignHigh
      dsimp only
      split <;> rfl
    · rw [← Option.some.inj second]
  rw [← sameLow, ← sameHigh]
  by_cases wide : 0 < capacity ∧ capacity ≤ highSorted.bufSize
  · exact wide
  · rw [if_neg wide] at sorts
    exact absurd sorts.symm (Option.some_ne_none result)

/-- Pushing the segments of a round and sorting them. -/
theorem collect_spec (sameSize : pool.bufSize = bufSize) (someone : pushed ≠ [])
    (fits : pushed.length ≤ bufSize) (small : bufSize < sizeLimit) (positive : 0 < capacity)
    (wide : capacity ≤ bufSize) :
    ∃ sorted, pool.collect validBlkNr capacity pushed = some sorted ∧ sorted.popPtr = 0 ∧
      sorted.bufSize = pool.bufSize ∧ sorted.pth = pool.pth ∧
      (∃ victims, Selects validBlkNr pushed capacity victims ∧
        ∀ place < victims.length, sorted.buf place = victims[place]?) ∧
      ∀ place < capacity, sorted.buf place = none ↔ pushed.length ≤ place ∧
        place < bufSize - (highs validBlkNr pool.pth pushed).length ∧ pool.buf place = none := by
  subst sameSize
  obtain ⟨filled, result, held⟩ := (init_pushed validBlkNr pool).pushAll pushed
    (by rwa [List.length_nil, Nat.zero_add]) small
  rw [List.nil_append] at held
  unfold collect
  rw [result, Option.bind_some]
  exact sort_spec held someone fits small positive wide

/-- A round on a pool with too few places has no result. -/
theorem collect_wide {result : GcPoolQuick κ}
    (collects : pool.collect validBlkNr capacity pushed = some result)
    (fits : pushed.length ≤ pool.bufSize) (small : pool.bufSize < sizeLimit) :
    0 < capacity ∧ capacity ≤ pool.bufSize := by
  obtain ⟨filled, pushes, held⟩ := (init_pushed validBlkNr pool).pushAll pushed
    (by rwa [List.length_nil, Nat.zero_add]) small
  unfold collect at collects
  rw [pushes, Option.bind_some] at collects
  rw [← held.bufSize]
  exact sort_wide collects

/-- After another round, its segments have been stored as well. -/
theorem Untouched.next {before : List (Round κ)} {round : Round κ}
    (untouched : Untouched capacity pth bufSize before pool) (popPtr : Nat)
    (sameSize : sorted.bufSize = pool.bufSize) (samePth : sorted.pth = pool.pth)
    (stores : ∀ place < capacity, sorted.buf place = none ↔ round.pushed.length ≤ place ∧
      place < bufSize - (highs round.validBlkNr pool.pth round.pushed).length ∧
      pool.buf place = none) :
    Untouched capacity pth bufSize (before ++ [round]) { sorted with popPtr } := by
  refine ⟨sameSize.trans untouched.sameSize, samePth.trans untouched.samePth, ?_⟩
  intro place inside
  refine (stores place inside).trans ?_
  rw [untouched.free place inside, untouched.samePth, List.forall_mem_append,
    List.forall_mem_singleton]
  exact ⟨fun ⟨behind, free, earlier⟩ => ⟨earlier, behind, free⟩,
    fun ⟨earlier, behind, free⟩ => ⟨behind, free, earlier⟩⟩

/-- The places behind the segments of a round are null if the round is clean. -/
theorem Untouched.null_iff {before : List (Round κ)} {round : Round κ}
    (untouched : Untouched capacity pth bufSize (before ++ [round]) sorted)
    (positive : 0 < capacity) (wide : capacity ≤ bufSize) :
    (∀ place, round.pushed.length ≤ place → place < capacity → sorted.buf place = none) ↔
      Clean capacity pth bufSize before round := by
  constructor
  · refine fun empty => ⟨⟨positive, wide⟩, fun few earlier member => ?_⟩
    have first := (untouched.free _ few).mp (empty _ (Nat.le_refl _) few) earlier member
    have last := (untouched.free (capacity - 1) (by omega)).mp
      (empty _ (by omega) (by omega)) earlier member
    exact ⟨first.1, by omega⟩
  · rintro ⟨_, clean⟩ place behind inside
    refine (untouched.free place inside).mpr fun earlier member => ?_
    have free := clean (by omega) earlier member
    omega

/-- What holds at every position of a list holds at its head and at every position of its tail. -/
theorem forall_split_cons {holds : List (Round κ) → Round κ → Prop} {round : Round κ}
    {rounds : List (Round κ)} :
    (∀ earlier now later, round :: rounds = earlier ++ now :: later → holds earlier now) ↔
      holds [] round ∧ ∀ earlier now later, rounds = earlier ++ now :: later →
        holds (round :: earlier) now := by
  constructor
  · intro all
    refine ⟨all [] round rounds rfl, fun earlier now later same => ?_⟩
    exact all (round :: earlier) now later (congrArg (round :: ·) same)
  · rintro ⟨first, others⟩ earlier now later same
    cases earlier with
    | nil =>
      obtain ⟨rfl, _⟩ := List.cons.inj same
      exact first
    | cons head earlier =>
      obtain ⟨rfl, rest⟩ := List.cons.inj same
      exact others earlier now later rest

/-- Rounds on a pool that has been used before. -/
theorem roundsAnswer_iff {before rounds : List (Round κ)}
    (untouched : Untouched capacity pth bufSize before pool) (small : bufSize < sizeLimit)
    (formed : ∀ round ∈ rounds, round.pushed ≠ [] ∧ round.pushed.length ≤ bufSize) :
    RoundsAnswer capacity rounds pool ↔ ∀ earlier round later,
      rounds = earlier ++ round :: later → Clean capacity pth bufSize (before ++ earlier) round := by
  induction rounds generalizing before pool with
  | nil =>
    refine iff_of_true trivial fun earlier round later same => ?_
    exact absurd same.symm (by simp)
  | cons round rounds ih =>
    obtain ⟨someone, fits⟩ := formed round List.mem_cons_self
    rw [forall_split_cons, List.append_nil]
    by_cases wide : 0 < capacity ∧ capacity ≤ bufSize
    · obtain ⟨sorted, result, start, sameSize, samePth, first, stores⟩ :=
        collect_spec untouched.sameSize someone fits small wide.1 wide.2
      obtain ⟨popPtr, moved⟩ := (pops_spec capacity round.calls sorted).2
      have after := untouched.next sorted.popPtr sameSize samePth stores
      have here := (answers_iff start first).trans (after.null_iff wide.1 wide.2)
      have others := ih (untouched.next popPtr sameSize samePth stores)
        fun other member => formed other (List.mem_cons_of_mem round member)
      simp only [List.append_assoc, List.singleton_append] at others
      rw [← others, ← here, ← moved]
      constructor
      · rintro ⟨sorted', result', answers, rest⟩
        obtain rfl := Option.some.inj (result.symm.trans result')
        exact ⟨answers, rest⟩
      · exact fun ⟨answers, rest⟩ => ⟨sorted, result, answers, rest⟩
    · refine iff_of_false ?_ fun clean => wide clean.1.1
      rintro ⟨sorted, result, _⟩
      rw [← untouched.sameSize] at wide fits small
      exact wide (collect_wide result fits small)

/-- A new buffer is null everywhere. -/
theorem new_untouched (capacity segNr dataSize popPtr low high : Nat) :
    Untouched capacity 500 segNr [] (new segNr dataSize popPtr low high : GcPoolQuick κ) where
  sameSize := rfl
  samePth := rfl
  free := fun _ _ => iff_of_true rfl fun _ member => absurd member List.not_mem_nil

end Rounds

end GcPoolQuick

/-! ## All pools -/

/-- When the three pools, made for `N` segments, select the right ones. The heaps read what was never
stored unless they are full, and `GcPoolHeap` also depends on what the memory of `pop_ptr` holds. A
`GcPoolQuick`, whose buffer is made for all segments, returns what is behind the pushed segments if
there are fewer than `N`. -/
theorem pools_agree_iff (validBlkNr : κ → Nat) (capacity : Nat) (largeHeap smallHeap : Nat → κ)
    (popPtr : Int) (first : κ) (rest : List κ) (segNr dataSize nextPtr low high : Nat)
    (rounds : List (GcPoolQuick.Round κ)) (small : segNr < GcPoolQuick.sizeLimit)
    (formed : ∀ round ∈ rounds, round.pushed ≠ [] ∧ round.pushed.length ≤ segNr) :
    (GcPool.Agrees validBlkNr capacity (first :: rest) (.new largeHeap smallHeap) ↔
      2 ≤ capacity ∧ capacity - 1 ≤ (first :: rest).length) ∧
    (GcPoolHeap.Agrees validBlkNr capacity (first :: rest) (.new largeHeap smallHeap popPtr) ↔
      2 ≤ capacity ∧ capacity - 1 ≤ (first :: rest).length ∧ popPtr = 0) ∧
    (GcPoolQuick.RoundsAnswer capacity rounds (.new segNr dataSize nextPtr low high) ↔
      ∀ earlier round later, rounds = earlier ++ round :: later →
        GcPoolQuick.Clean capacity 500 segNr earlier round) := by
  refine ⟨GcPool.selects_iff .., GcPoolHeap.selects_iff .., ?_⟩
  exact GcPoolQuick.roundsAnswer_iff (GcPoolQuick.new_untouched ..) small formed

/-- With one segment in each heap for 64 segments, and in the second round of a pool in whose first
round there were two. -/
theorem pools_disagree :
    ¬ GcPool.Agrees id 64 [5] (.new (fun _ => 0) fun _ => 0) ∧
    ¬ GcPoolHeap.Agrees id 64 [5] (.new (fun _ => 0) (fun _ => 0) 0) ∧
    ¬ GcPoolQuick.RoundsAnswer 64 [⟨id, [1, 2], 2⟩, ⟨id, [1], 2⟩] (.new 100 0 0 0 0) := by
  refine ⟨?_, ?_, ?_⟩
  · rw [GcPool.selects_iff]
    decide
  · rw [GcPoolHeap.selects_iff]
    decide
  · rw [GcPoolQuick.roundsAnswer_iff (GcPoolQuick.new_untouched ..) (by decide) (by decide)]
    intro clean
    have few := (clean [⟨id, [1, 2], 2⟩] ⟨id, [1], 2⟩ [] rfl).2 (by decide)
    exact absurd (few ⟨id, [1, 2], 2⟩ List.mem_cons_self).1 (by decide)

/-- Heaps for four segments with five pushed ones, two of them alike, and three rounds on one buffer, in
which more segments are pushed each time and one of them is high. -/
theorem pools_agree_rounds :
    GcPool.Agrees id 4 [5, 3, 9, 3, 600] (.new (fun _ => 0) fun _ => 0) ∧
    GcPoolHeap.Agrees id 4 [5, 3, 9, 3, 600] (.new (fun _ => 0) (fun _ => 0) 0) ∧
    GcPoolQuick.RoundsAnswer 4 [⟨id, [7, 2], 3⟩, ⟨id, [4, 8, 1], 4⟩, ⟨id, [5, 3, 9, 3, 600], 5⟩]
      (.new 8 0 0 0 0) := by
  obtain ⟨ids, pointers, quick⟩ := pools_agree_iff id 4 (fun _ => 0) (fun _ => 0) 0 5
    [3, 9, 3, 600] 8 0 0 0 0 [⟨id, [7, 2], 3⟩, ⟨id, [4, 8, 1], 4⟩, ⟨id, [5, 3, 9, 3, 600], 5⟩]
    (by decide) (by decide)
  refine ⟨ids.mpr (by decide), pointers.mpr (by decide), quick.mpr ?_⟩
  refine GcPoolQuick.forall_split_cons.mpr ⟨⟨by decide, fun _ => by decide⟩, ?_⟩
  refine GcPoolQuick.forall_split_cons.mpr ⟨⟨by decide, fun _ => by decide⟩, ?_⟩
  refine GcPoolQuick.forall_split_cons.mpr ⟨⟨by decide, fun few => absurd few (by decide)⟩, ?_⟩
  exact fun earlier round later same => absurd same.symm (by simp)

end FsChecking.PerfSim
