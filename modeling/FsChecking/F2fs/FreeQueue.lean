import FsChecking.F2fs.Invalidate
import FsChecking.Lib.Circle

/-!
# The free queue

The queue of free segments as a list from `m_free_tail`, where segments leave, to `m_free_head`,
where they enter, and what `FreeSegment` and the de-queue do to it.
-/

namespace FsChecking.F2fs

open Lib

namespace SegmentManager

/-- A change that leaves the temperature leaves every temperature. -/
theorem segTemp_updateSeg (manager : SegmentManager) (seg other : Nat)
    (change : SegmentInfo → SegmentInfo) (same : ∀ info, (change info).segTemp = info.segTemp) :
    ((manager.updateSeg seg change).segments other).segTemp =
      (manager.segments other).segTemp := by
  by_cases here : other = seg
  · subst here
    rw [updateSeg_self]
    exact same _
  · rw [updateSeg_of_ne here]

/-- Entering the queue leaves the temperatures. -/
theorem segTemp_freeEnQueue (manager : SegmentManager) (seg other : Nat) :
    ((manager.freeEnQueue seg).segments other).segTemp = (manager.segments other).segTemp := by
  unfold freeEnQueue
  dsimp only
  split
  · exact (segTemp_updateSeg _ manager.freeHead other
        (fun info => { info with freeNext := seg }) fun _ => rfl).trans
      (segTemp_updateSeg manager seg other
        (fun info => { info with freeNext := (manager.segments manager.freeHead).freeNext })
        fun _ => rfl)
  · exact segTemp_updateSeg manager seg other (fun info => { info with freeNext := seg })
      fun _ => rfl

/-- The segments after entering a queue that is not empty. -/
theorem segments_freeEnQueue_of_some {manager : SegmentManager} {seg : Nat}
    (some : manager.freeHead ≠ invalidBlk) :
    (manager.freeEnQueue seg).segments =
      ((manager.updateSeg seg fun info =>
          { info with freeNext := (manager.segments manager.freeHead).freeNext }).updateSeg
        manager.freeHead fun info => { info with freeNext := seg }).segments := by
  unfold freeEnQueue
  dsimp only
  rw [if_pos some]

/-- The segments after entering an empty queue. -/
theorem segments_freeEnQueue_of_none {manager : SegmentManager} {seg : Nat}
    (none : ¬ manager.freeHead ≠ invalidBlk) :
    (manager.freeEnQueue seg).segments =
      (manager.updateSeg seg fun info => { info with freeNext := seg }).segments := by
  unfold freeEnQueue
  dsimp only
  rw [if_neg none]

/-- The segment that entered the queue is its last one. -/
theorem freeHead_freeEnQueue (manager : SegmentManager) (seg : Nat) :
    (manager.freeEnQueue seg).freeHead = seg := by
  unfold freeEnQueue
  dsimp only
  split <;> rfl

/-- The other segments after entering the queue: the former last one points to the new one. -/
theorem freeEnQueue_of_ne {manager : SegmentManager} {seg other : Nat} (apart : other ≠ seg) :
    (manager.freeEnQueue seg).segments other =
      if manager.freeHead ≠ invalidBlk ∧ other = manager.freeHead then
        { manager.segments other with freeNext := seg }
      else manager.segments other := by
  by_cases some : manager.freeHead ≠ invalidBlk
  · rw [segments_freeEnQueue_of_some some]
    by_cases last : other = manager.freeHead
    · rw [if_pos ⟨some, last⟩, ← last, updateSeg_self, updateSeg_of_ne apart]
    · rw [if_neg fun both => last both.2, updateSeg_of_ne last, updateSeg_of_ne apart]
  · rw [segments_freeEnQueue_of_none some, if_neg fun both => some both.1, updateSeg_of_ne apart]

/-- The other segments after `FreeSegment`. -/
theorem freeSegment_of_ne {manager : SegmentManager} {seg other : Nat} (apart : other ≠ seg) :
    (manager.freeSegment seg).segments other =
      if manager.freeHead ≠ invalidBlk ∧ other = manager.freeHead then
        { manager.segments other with freeNext := seg }
      else manager.segments other := by
  have entered : ((manager.updateSeg seg fun info =>
      { info with segTemp := btTempNr }).freeEnQueue seg).segments other = _ :=
    freeEnQueue_of_ne apart
  rw [updateSeg_of_ne apart] at entered
  exact entered

/-- The free queue lists these segments, from its tail to its head. -/
structure Queued (manager : SegmentManager) (queue : List Nat) : Prop where
  /-- Segments leave in front. -/
  tail : manager.freeTail = queue.headD invalidBlk
  /-- Segments enter behind the last one. -/
  head : manager.freeHead = queue.getLastD invalidBlk
  /-- The segments are linked to a circle. -/
  circle : queue ≠ [] → Circle (fun seg => (manager.segments seg).freeNext) queue
  /-- No segment is queued twice. -/
  nodup : queue.Nodup
  /-- The queue lists segments. -/
  inside : ∀ seg ∈ queue, seg < mainSegNr
  /-- The length is counted. -/
  number : manager.freeNr = queue.length

namespace Queued

variable {manager manager' : SegmentManager} {queue : List Nat} {seg : Nat}

/-- There are at most as many free segments as segments. -/
theorem length_le (queued : Queued manager queue) : queue.length ≤ mainSegNr := by
  have listed : queue ⊆ List.range mainSegNr := fun seg member =>
    List.mem_range.mpr (queued.inside seg member)
  simpa using (queued.nodup.subperm listed).length_le

/-- The queue depends on its ends, its length and the links of its segments. -/
theorem congr (queued : Queued manager queue) (tail : manager'.freeTail = manager.freeTail)
    (head : manager'.freeHead = manager.freeHead) (number : manager'.freeNr = manager.freeNr)
    (links : ∀ seg ∈ queue, (manager'.segments seg).freeNext = (manager.segments seg).freeNext) :
    Queued manager' queue where
  tail := tail.trans queued.tail
  head := head.trans queued.head
  circle some := (queued.circle some).congr links
  nodup := queued.nodup
  inside := queued.inside
  number := number.trans queued.number

/-- A queued segment points to a queued segment. -/
theorem freeNext_mem (queued : Queued manager queue) (member : seg ∈ queue) :
    (manager.segments seg).freeNext ∈ queue :=
  (queued.circle (List.ne_nil_of_mem member)).next_mem member

/-- A queued segment does not look like a used one. -/
theorem freeNext_ne (queued : Queued manager queue) (member : seg ∈ queue) :
    (manager.segments seg).freeNext ≠ invalidBlk := by
  have small : _ < 60 := queued.inside _ (queued.freeNext_mem member)
  show _ ≠ 0xFFFF
  omega

end Queued

/-- Redirecting one segment redirects one link. -/
theorem freeNext_redirect (manager : SegmentManager) (seg next : Nat) :
    (fun other => ((manager.updateSeg seg fun info => { info with freeNext := next }).segments
        other).freeNext) =
      Function.update (fun other => (manager.segments other).freeNext) seg next := by
  funext other
  by_cases here : other = seg
  · rw [here, updateSeg_self, Function.update_self]
  · rw [updateSeg_of_ne here, Function.update_of_ne here]

/-- A segment enters the queue. -/
theorem Queued.freeEnQueue {manager : SegmentManager} {queue : List Nat} {seg : Nat}
    (queued : Queued manager queue) (small : seg < mainSegNr) (fresh : seg ∉ queue) :
    Queued (manager.freeEnQueue seg) (queue ++ [seg]) := by
  have nodup : (queue ++ [seg]).Nodup :=
    List.nodup_append.mpr ⟨queued.nodup, List.nodup_singleton seg, fun other member _ last same =>
      fresh (by rwa [← List.mem_singleton.mp last, ← same])⟩
  have inside : ∀ other ∈ queue ++ [seg], other < mainSegNr := by
    intro other member
    rcases List.mem_append.mp member with before | last
    · exact queued.inside other before
    · rwa [List.mem_singleton.mp last]
  have number : word (manager.freeNr + 1) = (queue ++ [seg]).length := by
    have few : queue.length ≤ 60 := queued.length_le
    rw [queued.number, List.length_append, List.length_singleton]
    unfold word
    omega
  have last : (queue ++ [seg]).getLastD invalidBlk = seg := by simp
  rcases List.eq_nil_or_concat' queue with rfl | ⟨front, former, rfl⟩
  · have none : ¬ manager.freeHead ≠ invalidBlk := not_not.mpr queued.head
    unfold SegmentManager.freeEnQueue
    dsimp only
    rw [if_neg none]
    refine ⟨rfl, rfl, fun _ => ?_, nodup, inside, number⟩
    rw [List.nil_append]
    refine Circle.singleton_iff.mpr ?_
    exact (congrFun (freeNext_redirect manager seg seg) seg).trans (Function.update_self ..)
  · have head : manager.freeHead = former := by rw [queued.head]; simp
    have some : manager.freeHead ≠ invalidBlk := by
      have small : former < 60 := queued.inside former (by simp)
      rw [head]
      show former ≠ 0xFFFF
      omega
    have circle := (queued.circle (by simp)).enqueue queued.nodup fresh
    unfold SegmentManager.freeEnQueue
    dsimp only
    rw [if_pos some, head]
    refine ⟨?_, last.symm, fun _ => ?_, nodup, inside, number⟩
    · show manager.freeTail = _
      rw [queued.tail]
      cases front with
      | nil => rfl
      | cons first front => rfl
    · rw [List.append_assoc]
      refine circle.congr fun other _ => ?_
      have entered := freeNext_redirect manager seg (manager.segments former).freeNext
      have redirected := freeNext_redirect (manager.updateSeg seg fun info =>
        { info with freeNext := (manager.segments former).freeNext }) former seg
      exact (congrFun redirected other).trans (by rw [entered])

/-- The first segment leaves the queue. -/
theorem Queued.unlinkTail {manager : SegmentManager} {rest : List Nat} {first : Nat}
    (queued : Queued manager (first :: rest)) :
    manager.freeTail = first ∧ Queued manager.unlinkTail rest := by
  have tail : manager.freeTail = first := queued.tail
  refine ⟨tail, ?_⟩
  have number : word (manager.freeNr + (2 ^ 16 - 1)) = rest.length := by
    have few : (first :: rest).length ≤ 60 := queued.length_le
    rw [List.length_cons] at few
    rw [queued.number, List.length_cons]
    unfold word
    omega
  have fresh := (List.nodup_cons.mp queued.nodup).1
  have nodup := (List.nodup_cons.mp queued.nodup).2
  have inside : ∀ seg ∈ rest, seg < mainSegNr := fun seg member =>
    queued.inside seg (List.mem_cons_of_mem _ member)
  rcases List.eq_nil_or_concat' rest with rfl | ⟨middle, last, rfl⟩
  · have same : manager.freeTail = manager.freeHead := tail.trans queued.head.symm
    unfold SegmentManager.unlinkTail
    dsimp only
    rw [if_pos same]
    exact ⟨rfl, rfl, fun some => absurd rfl some, nodup, inside, number⟩
  · have head : manager.freeHead = last := by
      have shape : first :: (middle ++ [last]) = (first :: middle) ++ [last] := rfl
      rw [queued.head, shape, List.getLastD_concat]
    have apart : ¬ manager.freeTail = manager.freeHead := by
      rw [tail, head]
      rintro rfl
      exact fresh (by simp)
    have circle := queued.circle (List.cons_ne_nil _ _)
    have follows := circle.next_mem List.mem_cons_self
    unfold SegmentManager.unlinkTail
    dsimp only
    rw [if_neg apart, tail, head]
    refine ⟨?_, ?_, fun _ => ?_, nodup, inside, number⟩
    · show (manager.segments first).freeNext = _
      cases middle with
      | nil => exact circle.next_first
      | cons second middle => exact circle.next_first
    · show manager.freeHead = _
      rw [head]
      simp
    · refine (circle.dequeue queued.nodup).congr fun other _ => ?_
      exact congrFun (freeNext_redirect manager last (manager.segments first).freeNext) other

/-- A segment is given to the queue. -/
theorem Queued.freeSegment {manager : SegmentManager} {queue : List Nat} {seg : Nat}
    (queued : Queued manager queue) (small : seg < mainSegNr) (fresh : seg ∉ queue) :
    Queued (manager.freeSegment seg) (queue ++ [seg]) := by
  have marked : Queued (manager.updateSeg seg fun info => { info with segTemp := btTempNr })
      queue := by
    refine queued.congr rfl rfl rfl fun other member => ?_
    have apart : other ≠ seg := fun same => fresh (same ▸ member)
    rw [updateSeg_of_ne apart]
  exact (marked.freeEnQueue small fresh).congr rfl rfl rfl fun _ _ => rfl

/-- Entering the queue leaves the log heads. -/
theorem curSegs_freeSegment (manager : SegmentManager) (seg : Nat) :
    (manager.freeSegment seg).curSegs = manager.curSegs := by
  unfold SegmentManager.freeSegment SegmentManager.freeEnQueue
  dsimp only
  split <;> rfl

/-- Entering the queue leaves the number of valid blocks. -/
theorem usedBlkNr_freeSegment (manager : SegmentManager) (seg : Nat) :
    (manager.freeSegment seg).usedBlkNr = manager.usedBlkNr := by
  unfold SegmentManager.freeSegment SegmentManager.freeEnQueue
  dsimp only
  split <;> rfl

/-- Leaving the queue keeps the contents. -/
theorem sameContent_unlinkTail (manager : SegmentManager) (other : Nat) :
    SameContent (manager.segments other) (manager.unlinkTail.segments other) := by
  unfold unlinkTail
  dsimp only
  split
  · exact rfl
  · exact sameContent_updateSeg manager manager.freeHead other
      (fun info => { info with freeNext := (manager.segments manager.freeTail).freeNext })
      fun _ => rfl

/-- Leaving the queue keeps the temperatures. -/
theorem segTemp_unlinkTail (manager : SegmentManager) (other : Nat) :
    (manager.unlinkTail.segments other).segTemp = (manager.segments other).segTemp := by
  unfold unlinkTail
  dsimp only
  split
  · rfl
  · exact segTemp_updateSeg manager manager.freeHead other
      (fun info => { info with freeNext := (manager.segments manager.freeTail).freeNext })
      fun _ => rfl

end SegmentManager

end FsChecking.F2fs
