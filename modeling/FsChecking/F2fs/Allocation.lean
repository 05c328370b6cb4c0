import FsChecking.F2fs.Collect
import FsChecking.F2fs.FreeQueue
import Mathlib.Algebra.Order.BigOperators.Group.Finset

/-!
# Allocation of blocks

What holds of the segment tables between the steps of a log: the counters count the bits, the queue
lists segments without valid blocks that are no log heads, and a log head has only clear bits from
its next block on. Each step of `f2fs_segment.cpp` keeps it: taking a segment, appending a block,
invalidating one, closing a full segment.
-/

namespace FsChecking.F2fs

open Lib

namespace SegmentManager

/-- The blocks that the counters of the segments count. -/
def countedBlks (manager : SegmentManager) : Nat :=
  ∑ seg ∈ Finset.range mainSegNr, (manager.segments seg).validBlkNr

/-- A segment is the head of a log whose next block is at an offset. -/
structure LogHead (manager : SegmentManager) (temp seg offset : Nat) : Prop where
  /-- It is a segment. -/
  small : seg < mainSegNr
  /-- The offset is in the segment, or the segment is full. -/
  room : offset ≤ blockPerSeg
  /-- No block from the offset on is valid. -/
  ahead : ∀ bit ≥ offset, (manager.segments seg).validBmp.getLsbD bit = false
  /-- The segment has the temperature of the log. -/
  temp : (manager.segments seg).segTemp = temp

/-- The segments are accounted for, with these segments in the free queue. -/
structure Accounted (manager : SegmentManager) (queue : List Nat) : Prop where
  /-- The queue is linked. -/
  queued : manager.Queued queue
  /-- The counters count the bits. -/
  counted : manager.Counted
  /-- Only blocks of the segment have bits. -/
  narrow : ∀ seg < mainSegNr, ∀ bit ≥ blockPerSeg,
    (manager.segments seg).validBmp.getLsbD bit = false
  /-- The valid blocks are counted. -/
  used : manager.usedBlkNr = manager.countedBlks
  /-- A free segment has no valid block. -/
  empty : ∀ seg ∈ queue, (manager.segments seg).validBlkNr = 0
  /-- The current segments are log heads. -/
  heads : ∀ temp < btTempNr, (manager.curSegs temp).segNo ≠ invalidBlk →
    manager.LogHead temp (manager.curSegs temp).segNo (manager.curSegs temp).blkOffset
  /-- A free segment is no current segment. -/
  apart : ∀ seg ∈ queue, ∀ temp < btTempNr, (manager.curSegs temp).segNo ≠ seg

/-- No log has a full current segment. -/
def Closed (manager : SegmentManager) : Prop :=
  ∀ temp < btTempNr, (manager.curSegs temp).segNo ≠ invalidBlk →
    (manager.curSegs temp).blkOffset < blockPerSeg

/-- Every segment has been queued, so that none looks like a used segment of a mounted table. -/
def AlwaysLinked (manager : SegmentManager) : Prop :=
  ∀ seg < mainSegNr, (manager.segments seg).freeNext ≠ invalidBlk

/-- A log head depends on its segment. -/
theorem LogHead.congr {manager manager' : SegmentManager} {temp seg offset : Nat}
    (head : manager.LogHead temp seg offset)
    (same : manager'.segments seg = manager.segments seg) : manager'.LogHead temp seg offset := by
  obtain ⟨small, room, ahead, mine⟩ := head
  refine ⟨small, room, ?_, ?_⟩
  · rw [same]
    exact ahead
  · rw [same]
    exact mine

/-! ## Changed segments -/

/-- The segment that is opened. -/
theorem openSegment_self (manager : SegmentManager) (seg temp : Nat) :
    (manager.openSegment seg temp).segments seg =
      { manager.segments seg with
        validBlkNr := 0, segTemp := temp, validBmp := 0
        nids := fun _ => invalidBlk, offset := fun _ => invalidBlk } := by
  unfold openSegment setDirty
  exact Function.update_self ..

/-- The other segments when one is opened. -/
theorem openSegment_of_ne {manager : SegmentManager} {seg other temp : Nat} (apart : other ≠ seg) :
    (manager.openSegment seg temp).segments other = manager.segments other := by
  unfold openSegment setDirty updateSeg
  exact Function.update_of_ne apart ..

/-- The head of the log that is changed. -/
@[simp] theorem curSegs_setCurseg_self (manager : SegmentManager) (temp : Nat)
    (curseg : CursegInfo) : (manager.setCurseg temp curseg).curSegs temp = curseg :=
  Function.update_self ..

/-- The heads of the other logs. -/
@[simp] theorem curSegs_setCurseg_of_ne {manager : SegmentManager} {temp other : Nat}
    {curseg : CursegInfo} (apart : other ≠ temp) :
    (manager.setCurseg temp curseg).curSegs other = manager.curSegs other :=
  Function.update_of_ne apart ..

/-- The segment that a block is appended to. -/
theorem recordWrite_self (manager : SegmentManager) (temp nid offset : Nat) :
    (manager.recordWrite temp nid offset).segments (manager.curSegs temp).segNo =
      { manager.segments (manager.curSegs temp).segNo with
        validBmp := setBit (manager.segments (manager.curSegs temp).segNo).validBmp
          (manager.curSegs temp).blkOffset
        nids := Function.update (manager.segments (manager.curSegs temp).segNo).nids
          (manager.curSegs temp).blkOffset nid
        offset := Function.update (manager.segments (manager.curSegs temp).segNo).offset
          (manager.curSegs temp).blkOffset offset
        validBlkNr := dword ((manager.segments (manager.curSegs temp).segNo).validBlkNr + 1) } := by
  unfold recordWrite setDirty setCurseg
  exact Function.update_self ..

/-- The other segments when a block is appended. -/
theorem recordWrite_of_ne {manager : SegmentManager} {temp nid offset other : Nat}
    (apart : other ≠ (manager.curSegs temp).segNo) :
    (manager.recordWrite temp nid offset).segments other = manager.segments other := by
  unfold recordWrite setDirty setCurseg updateSeg
  exact Function.update_of_ne apart ..

/-- The heads of the logs when a block is appended. -/
theorem curSegs_recordWrite (manager : SegmentManager) (temp nid offset : Nat) :
    (manager.recordWrite temp nid offset).curSegs =
      Function.update manager.curSegs temp
        { manager.curSegs temp with blkOffset := (manager.curSegs temp).blkOffset + 1 } := rfl

/-- The segment that loses a block. -/
theorem dropBlock_self (manager : SegmentManager) (seg blk : Nat) :
    (manager.dropBlock seg blk).segments seg =
      { manager.segments seg with
        validBlkNr := dword ((manager.segments seg).validBlkNr + (2 ^ 32 - 1))
        validBmp := clearBit (manager.segments seg).validBmp blk
        nids := Function.update (manager.segments seg).nids blk invalidBlk
        offset := Function.update (manager.segments seg).offset blk invalidBlk } := by
  unfold dropBlock setDirty
  exact Function.update_self ..

/-- The other segments when one loses a block. -/
theorem dropBlock_of_ne {manager : SegmentManager} {seg blk other : Nat} (apart : other ≠ seg) :
    (manager.dropBlock seg blk).segments other = manager.segments other := by
  unfold dropBlock setDirty updateSeg
  exact Function.update_of_ne apart ..

/-! ## Counting -/

/-- The counted blocks depend on the counters. -/
theorem countedBlks_congr {manager manager' : SegmentManager}
    (same : ∀ seg < mainSegNr,
      (manager'.segments seg).validBlkNr = (manager.segments seg).validBlkNr) :
    manager'.countedBlks = manager.countedBlks :=
  Finset.sum_congr rfl fun seg member => same seg (Finset.mem_range.mp member)

/-- The counted blocks after changing the counter of one segment. -/
theorem countedBlks_update {manager manager' : SegmentManager} {seg : Nat} (small : seg < mainSegNr)
    (others : ∀ other ≠ seg, manager'.segments other = manager.segments other) :
    manager'.countedBlks + (manager.segments seg).validBlkNr =
      manager.countedBlks + (manager'.segments seg).validBlkNr := by
  have member := Finset.mem_range.mpr small
  have rest : ∑ other ∈ (Finset.range mainSegNr).erase seg, (manager'.segments other).validBlkNr =
      ∑ other ∈ (Finset.range mainSegNr).erase seg, (manager.segments other).validBlkNr :=
    Finset.sum_congr rfl fun other listed => by rw [others other (Finset.mem_erase.mp listed).1]
  have before := Finset.add_sum_erase (Finset.range mainSegNr)
    (fun seg => (manager.segments seg).validBlkNr) member
  have after := Finset.add_sum_erase (Finset.range mainSegNr)
    (fun seg => (manager'.segments seg).validBlkNr) member
  unfold countedBlks
  omega

namespace Accounted

variable {manager manager' : SegmentManager} {queue : List Nat}

/-- A counter is at most the size of a segment. -/
theorem validBlkNr_le (accounted : manager.Accounted queue) {seg : Nat} (small : seg < mainSegNr) :
    (manager.segments seg).validBlkNr ≤ blockPerSeg := by
  rw [accounted.counted seg small, popCount_eq_of_clear (by decide : blockPerSeg ≤ 32)
    (accounted.narrow seg small)]
  exact popCount_le _ _

/-- There are at most as many valid blocks as blocks. -/
theorem usedBlkNr_le (accounted : manager.Accounted queue) : manager.usedBlkNr ≤ mainBlkNr := by
  rw [accounted.used]
  have bound := Finset.sum_le_card_nsmul (Finset.range mainSegNr)
    (fun seg => (manager.segments seg).validBlkNr) blockPerSeg fun seg member =>
      accounted.validBlkNr_le (Finset.mem_range.mp member)
  rw [Finset.card_range, smul_eq_mul] at bound
  exact bound

/-- A segment without valid blocks has no bit. -/
theorem clear_of_empty (accounted : manager.Accounted queue) {seg : Nat} (small : seg < mainSegNr)
    (empty : (manager.segments seg).validBlkNr = 0) (bit : Nat) :
    (manager.segments seg).validBmp.getLsbD bit = false := by
  by_cases inside : bit < 32
  · have none := accounted.counted seg small
    rw [empty] at none
    exact popCount_eq_zero.mp none.symm bit inside
  · exact BitVec.getLsbD_of_ge _ _ (Nat.le_of_not_lt inside)

/-- A segment with a valid block is not free. -/
theorem notMem_of_valid (accounted : manager.Accounted queue) {seg bit : Nat}
    (valid : (manager.segments seg).validBmp.getLsbD bit = true) : seg ∉ queue := by
  intro member
  rw [accounted.clear_of_empty (accounted.queued.inside seg member) (accounted.empty seg member)]
    at valid
  cases valid

/-- The tables depend neither on the dirty map nor on the page that is being written. -/
theorem congr (accounted : manager.Accounted queue) (segments : manager'.segments = manager.segments)
    (curSegs : manager'.curSegs = manager.curSegs) (tail : manager'.freeTail = manager.freeTail)
    (head : manager'.freeHead = manager.freeHead) (number : manager'.freeNr = manager.freeNr)
    (used : manager'.usedBlkNr = manager.usedBlkNr) : manager'.Accounted queue where
  queued := accounted.queued.congr tail head number fun seg _ => by rw [segments]
  counted seg small := by rw [segments]; exact accounted.counted seg small
  narrow seg small := by rw [segments]; exact accounted.narrow seg small
  used := by
    rw [used, accounted.used]
    exact (countedBlks_congr fun seg _ => by rw [segments]).symm
  empty seg member := by rw [segments]; exact accounted.empty seg member
  heads temp small := by
    rw [curSegs]
    exact fun valid => (accounted.heads temp small valid).congr (by rw [segments])
  apart seg member temp := by rw [curSegs]; exact accounted.apart seg member temp

/-- The tables after a change of one segment that is not free. -/
theorem change (accounted : manager.Accounted queue) {seg : Nat} (small : seg < mainSegNr)
    (fresh : seg ∉ queue)
    (others : ∀ other ≠ seg, manager'.segments other = manager.segments other)
    (tail : manager'.freeTail = manager.freeTail) (head : manager'.freeHead = manager.freeHead)
    (number : manager'.freeNr = manager.freeNr)
    (count : (manager'.segments seg).validBlkNr = popCount (manager'.segments seg).validBmp 32)
    (narrow : ∀ bit ≥ blockPerSeg, (manager'.segments seg).validBmp.getLsbD bit = false)
    (used : manager'.usedBlkNr + (manager.segments seg).validBlkNr =
      manager.usedBlkNr + (manager'.segments seg).validBlkNr)
    (heads : ∀ temp < btTempNr, (manager'.curSegs temp).segNo ≠ invalidBlk →
      manager'.LogHead temp (manager'.curSegs temp).segNo (manager'.curSegs temp).blkOffset)
    (apart : ∀ free ∈ queue, ∀ temp < btTempNr, (manager'.curSegs temp).segNo ≠ free) :
    manager'.Accounted queue := by
  have listed : ∀ other ∈ queue, manager'.segments other = manager.segments other :=
    fun other member => others other fun same => fresh (same ▸ member)
  refine ⟨?_, ?_, ?_, ?_, ?_, heads, apart⟩
  · exact accounted.queued.congr tail head number fun other member => by rw [listed other member]
  · intro other inside
    by_cases here : other = seg
    · rw [here]
      exact count
    · rw [others other here]
      exact accounted.counted other inside
  · intro other inside
    by_cases here : other = seg
    · rw [here]
      exact narrow
    · rw [others other here]
      exact accounted.narrow other inside
  · have counted := countedBlks_update small others
    have before := accounted.used
    omega
  · intro other member
    rw [listed other member]
    exact accounted.empty other member

/-- A log head is not free. -/
theorem head_notMem (accounted : manager.Accounted queue) {temp : Nat} (small : temp < btTempNr) :
    (manager.curSegs temp).segNo ∉ queue := fun member =>
  accounted.apart _ member temp small rfl

/-- Two logs have different current segments. -/
theorem head_ne (accounted : manager.Accounted queue) {temp other : Nat} (small : temp < btTempNr)
    (small' : other < btTempNr) (valid : (manager.curSegs temp).segNo ≠ invalidBlk)
    (apart : temp ≠ other) : (manager.curSegs temp).segNo ≠ (manager.curSegs other).segNo := by
  intro same
  have mine := (accounted.heads temp small valid).temp
  have theirs := (accounted.heads other small' (same ▸ valid)).temp
  rw [same] at mine
  exact apart (mine.symm.trans theirs)

/-- The tables after a change of the queue. -/
theorem requeue {queue' : List Nat} (accounted : manager.Accounted queue)
    (queued : manager'.Queued queue')
    (bits : ∀ seg, (manager'.segments seg).validBmp = (manager.segments seg).validBmp ∧
      (manager'.segments seg).validBlkNr = (manager.segments seg).validBlkNr)
    (curSegs : manager'.curSegs = manager.curSegs) (used : manager'.usedBlkNr = manager.usedBlkNr)
    (temps : ∀ temp < btTempNr, (manager.curSegs temp).segNo ≠ invalidBlk →
      (manager'.segments (manager.curSegs temp).segNo).segTemp =
        (manager.segments (manager.curSegs temp).segNo).segTemp)
    (empty : ∀ seg ∈ queue', (manager.segments seg).validBlkNr = 0)
    (apart : ∀ seg ∈ queue', ∀ temp < btTempNr, (manager.curSegs temp).segNo ≠ seg) :
    manager'.Accounted queue' where
  queued := queued
  counted seg small := by
    rw [(bits seg).1, (bits seg).2]
    exact accounted.counted seg small
  narrow seg small := by
    rw [(bits seg).1]
    exact accounted.narrow seg small
  used := by
    rw [used, accounted.used]
    exact (countedBlks_congr fun seg _ => (bits seg).2).symm
  empty seg member := by
    rw [(bits seg).2]
    exact empty seg member
  heads temp small := by
    rw [curSegs]
    intro valid
    obtain ⟨inside, room, ahead, same⟩ := accounted.heads temp small valid
    refine ⟨inside, room, ?_, (temps temp small valid).trans same⟩
    rw [(bits _).1]
    exact ahead
  apart seg member temp := by
    rw [curSegs]
    exact apart seg member temp

/-! ## Steps -/

/-- Giving a segment without valid blocks back, which is no log head. -/
theorem freeSegment (accounted : manager.Accounted queue) {seg : Nat} (small : seg < mainSegNr)
    (fresh : seg ∉ queue) (empty : (manager.segments seg).validBlkNr = 0)
    (idle : ∀ temp < btTempNr, (manager.curSegs temp).segNo ≠ seg) :
    (manager.freeSegment seg).Accounted (queue ++ [seg]) := by
  refine accounted.requeue (accounted.queued.freeSegment small fresh)
    (fun other => SameContent.bits (sameContent_freeSegment manager seg other)) ?_ ?_ ?_ ?_ ?_
  · exact curSegs_freeSegment manager seg
  · exact usedBlkNr_freeSegment manager seg
  · intro temp inside _
    rw [freeSegment_of_ne (idle temp inside)]
    split
    · rfl
    · rfl
  · intro other member
    rcases List.mem_append.mp member with before | last
    · exact accounted.empty other before
    · rwa [List.mem_singleton.mp last]
  · intro other member
    rcases List.mem_append.mp member with before | last
    · exact accounted.apart other before
    · rwa [List.mem_singleton.mp last]

/-- Taking the first segment out of the queue. -/
theorem unlinkTail {first : Nat} {rest : List Nat} (accounted : manager.Accounted (first :: rest)) :
    manager.unlinkTail.Accounted rest := by
  refine accounted.requeue accounted.queued.unlinkTail.2 (fun seg => ?_) ?_ ?_ ?_ ?_ ?_
  · exact SameContent.bits (sameContent_unlinkTail manager seg)
  · unfold SegmentManager.unlinkTail
    split <;> rfl
  · unfold SegmentManager.unlinkTail
    split <;> rfl
  · intro temp _ _
    exact segTemp_unlinkTail manager _
  · exact fun seg member => accounted.empty seg (List.mem_cons_of_mem _ member)
  · exact fun seg member => accounted.apart seg (List.mem_cons_of_mem _ member)

/-- A log takes a segment that is not free and has no valid block. -/
theorem openLog (accounted : manager.Accounted queue) {seg temp : Nat} (small : seg < mainSegNr)
    (fresh : seg ∉ queue)
    (empty : (manager.segments seg).validBlkNr = 0)
    (idle : ∀ temp < btTempNr, (manager.curSegs temp).segNo ≠ seg) :
    ((manager.openSegment seg temp).setCurseg temp { segNo := seg, blkOffset := 0 }).Accounted
      queue := by
  have others : ∀ other ≠ seg, (manager.openSegment seg temp).segments other =
      manager.segments other := fun other apart => openSegment_of_ne apart
  have opened := openSegment_self manager seg temp
  refine accounted.change small fresh others rfl rfl rfl ?_ ?_ ?_ ?_ ?_
  · show ((manager.openSegment seg temp).segments seg).validBlkNr =
      popCount ((manager.openSegment seg temp).segments seg).validBmp 32
    rw [opened]
    exact (popCount_eq_zero.mpr fun bit _ => BitVec.getLsbD_zero).symm
  · intro bit _
    show ((manager.openSegment seg temp).segments seg).validBmp.getLsbD bit = false
    rw [opened]
    exact BitVec.getLsbD_zero
  · show manager.usedBlkNr + _ = manager.usedBlkNr + _
    rw [empty]
    show _ = _ + ((manager.openSegment seg temp).segments seg).validBlkNr
    rw [opened]
  · intro other below
    by_cases same : other = temp
    · rw [same, curSegs_setCurseg_self]
      refine fun _ => ⟨small, Nat.zero_le _, fun bit _ => ?_, ?_⟩
      · show ((manager.openSegment seg temp).segments seg).validBmp.getLsbD bit = false
        rw [opened]
        exact BitVec.getLsbD_zero
      · show ((manager.openSegment seg temp).segments seg).segTemp = temp
        rw [opened]
    · rw [curSegs_setCurseg_of_ne same]
      exact fun valid => (accounted.heads other below valid).congr (others _ (idle other below))
  · intro free member other below
    by_cases same : other = temp
    · rw [same, curSegs_setCurseg_self]
      rintro rfl
      exact fresh member
    · rw [curSegs_setCurseg_of_ne same]
      exact accounted.apart free member other below

/-- A log whose current segment has room appends a block. -/
theorem recordWrite (accounted : manager.Accounted queue) {temp : Nat} (inside : temp < btTempNr)
    (valid : (manager.curSegs temp).segNo ≠ invalidBlk)
    (room : (manager.curSegs temp).blkOffset < blockPerSeg) (nid offset : Nat) :
    (manager.recordWrite temp nid offset).Accounted queue := by
  obtain ⟨small, -, ahead, mine⟩ := accounted.heads temp inside valid
  have written := recordWrite_self manager temp nid offset
  have place : (manager.curSegs temp).blkOffset < 32 := room.trans (by decide)
  have bits := getLsbD_setBit (manager.segments (manager.curSegs temp).segNo).validBmp place
  have clear := ahead _ le_rfl
  have few := accounted.validBlkNr_le small
  have total := accounted.usedBlkNr_le
  have more := popCount_setBit (Nat.le_refl 32) place clear
  have count := accounted.counted _ small
  have one : dword ((manager.segments (manager.curSegs temp).segNo).validBlkNr + 1) =
      (manager.segments (manager.curSegs temp).segNo).validBlkNr + 1 := by
    unfold dword blockPerSeg at *
    omega
  refine accounted.change small (accounted.head_notMem inside)
    (fun other apart => recordWrite_of_ne apart) rfl rfl rfl ?_ ?_ ?_ ?_ ?_
  · rw [written]
    dsimp only
    rw [one, more, count]
  · intro bit high
    rw [written]
    dsimp only
    rw [bits, accounted.narrow _ small bit high]
    have apart : bit ≠ (manager.curSegs temp).blkOffset := by omega
    simp [apart]
  · rw [written]
    dsimp only
    rw [one]
    have counted : (manager.recordWrite temp nid offset).usedBlkNr = word (manager.usedBlkNr + 1) :=
      rfl
    rw [counted]
    unfold word mainBlkNr mainSegNr blockPerSeg at *
    omega
  · intro other below
    rw [curSegs_recordWrite]
    by_cases same : other = temp
    · subst same
      rw [Function.update_self]
      refine fun _ => ⟨small, room, fun bit high => ?_, ?_⟩
      · rw [written]
        dsimp only at high ⊢
        rw [bits, ahead bit (by omega)]
        have apart : bit ≠ (manager.curSegs other).blkOffset := by omega
        simp [apart]
      · rw [written]
        exact mine
    · rw [Function.update_of_ne same]
      intro valid'
      have apart := accounted.head_ne below inside valid' same
      exact (accounted.heads other below valid').congr (recordWrite_of_ne apart)
  · intro free member other below
    rw [curSegs_recordWrite]
    by_cases same : other = temp
    · rw [same, Function.update_self]
      exact accounted.apart free member temp inside
    · rw [Function.update_of_ne same]
      exact accounted.apart free member other below

/-- A valid block is dropped. -/
theorem dropBlock (accounted : manager.Accounted queue) {blk : Nat} (inside : blk < mainBlkNr)
    (valid : manager.isValid blk = true) :
    (manager.dropBlock (blk / blockPerSeg) (blk % blockPerSeg)).Accounted queue := by
  have small : blk / blockPerSeg < mainSegNr := by
    unfold mainBlkNr mainSegNr blockPerSeg at *
    omega
  have place : blk % blockPerSeg < 32 := Nat.lt_of_lt_of_le (Nat.mod_lt _ (by decide)) (by decide)
  have dropped := dropBlock_self manager (blk / blockPerSeg) (blk % blockPerSeg)
  have bits := getLsbD_clearBit (manager.segments (blk / blockPerSeg)).validBmp place
  have counted := accounted.counted.dropBlock valid (blk / blockPerSeg) small
  have fewer := popCount_clearBit (Nat.le_refl 32) place valid
  have count := accounted.counted _ small
  have total := accounted.usedBlkNr_le
  have part : (manager.segments (blk / blockPerSeg)).validBlkNr ≤ manager.usedBlkNr := by
    rw [accounted.used]
    exact Finset.single_le_sum (f := fun seg => (manager.segments seg).validBlkNr)
      (fun _ _ => Nat.zero_le _) (Finset.mem_range.mpr small)
  refine accounted.change small (accounted.notMem_of_valid valid)
    (fun other apart => dropBlock_of_ne apart) rfl rfl rfl counted ?_ ?_ ?_ ?_
  · intro bit high
    rw [dropped]
    dsimp only
    rw [bits, accounted.narrow _ small bit high, Bool.false_and]
  · rw [counted, dropped]
    dsimp only
    have left : (manager.dropBlock (blk / blockPerSeg) (blk % blockPerSeg)).usedBlkNr =
        word (manager.usedBlkNr + (2 ^ 16 - 1)) := rfl
    rw [left]
    unfold word mainBlkNr mainSegNr blockPerSeg at *
    omega
  · intro temp below valid'
    obtain ⟨small', room, ahead, mine⟩ := accounted.heads temp below valid'
    by_cases here : (manager.curSegs temp).segNo = blk / blockPerSeg
    · refine ⟨small', room, fun bit high => ?_, ?_⟩
      · show ((manager.dropBlock _ _).segments (manager.curSegs temp).segNo).validBmp.getLsbD bit =
          false
        rw [here] at ahead ⊢
        rw [dropped]
        dsimp only
        rw [bits, ahead bit high, Bool.false_and]
      · show ((manager.dropBlock _ _).segments (manager.curSegs temp).segNo).segTemp = temp
        rw [here] at mine ⊢
        rw [dropped]
        exact mine
    · exact (accounted.heads temp below valid').congr (dropBlock_of_ne here)
  · exact accounted.apart

/-- A valid block is invalidated. -/
theorem invalidated (accounted : manager.Accounted queue) {blk : Nat} (inside : blk < mainBlkNr)
    (valid : manager.isValid blk = true) :
    ∃ queue', (manager.invalidated blk).Accounted queue' := by
  have small : blk / blockPerSeg < mainSegNr := by
    unfold mainBlkNr mainSegNr blockPerSeg at *
    omega
  have dropped := accounted.dropBlock inside valid
  unfold SegmentManager.invalidated
  dsimp only
  split
  · rename_i emptied
    refine ⟨_, dropped.freeSegment small (accounted.notMem_of_valid valid) emptied.1 ?_⟩
    rintro temp below here
    have head := dropped.heads temp below (by
      rw [here]
      have size : blk / blockPerSeg < 60 := small
      show _ ≠ 0xFFFF
      omega)
    have mine := head.temp
    rw [here] at mine
    apply emptied.2
    rw [mine, curSegNo, if_pos below]
    exact here
  · exact ⟨queue, dropped⟩

/-- A full segment is closed. -/
theorem closeFull (accounted : manager.Accounted queue) (temp : Nat) :
    (manager.closeFull temp).Accounted queue := by
  unfold SegmentManager.closeFull
  dsimp only
  split
  · refine ⟨accounted.queued.congr rfl rfl rfl fun _ _ => rfl, accounted.counted, accounted.narrow,
      accounted.used, accounted.empty, fun other below => ?_, fun free member other below => ?_⟩
    · by_cases same : other = temp
      · rw [same, curSegs_setCurseg_self]
        exact fun valid => absurd rfl valid
      · rw [curSegs_setCurseg_of_ne same]
        exact fun valid => (accounted.heads other below valid).congr rfl
    · by_cases same : other = temp
      · rw [same, curSegs_setCurseg_self]
        have size : free < 60 := accounted.queued.inside free member
        show 0xFFFF ≠ free
        omega
      · rw [curSegs_setCurseg_of_ne same]
        exact accounted.apart free member other below
  · exact accounted

end Accounted

/-! ## Links -/

namespace AlwaysLinked

variable {manager manager' : SegmentManager} {queue : List Nat}

/-- Only links count. -/
theorem congr (linked : manager.AlwaysLinked)
    (same : ∀ seg, (manager'.segments seg).freeNext = (manager.segments seg).freeNext) :
    manager'.AlwaysLinked := fun seg small => by
  rw [same seg]
  exact linked seg small

/-- A new queue leaves the links of the segments outside. -/
theorem requeue (linked : manager.AlwaysLinked) (queued : manager'.Queued queue)
    (outside : ∀ seg, seg ∉ queue →
      (manager'.segments seg).freeNext = (manager.segments seg).freeNext) :
    manager'.AlwaysLinked := by
  intro seg small
  by_cases member : seg ∈ queue
  · exact queued.freeNext_ne member
  · rw [outside seg member]
    exact linked seg small

/-- Giving a segment to the queue. -/
theorem freeSegment (linked : manager.AlwaysLinked) (queued : manager.Queued queue) {seg : Nat}
    (small : seg < mainSegNr) (fresh : seg ∉ queue) : (manager.freeSegment seg).AlwaysLinked := by
  refine linked.requeue (queued.freeSegment small fresh) fun other outside => ?_
  have apart : other ≠ seg := fun same => outside (same ▸ by simp)
  rw [freeSegment_of_ne apart, if_neg]
  rintro ⟨some, last⟩
  rcases List.eq_nil_or_concat' queue with rfl | ⟨front, former, rfl⟩
  · exact some queued.head
  · have head : manager.freeHead = former := by rw [queued.head]; simp
    exact outside (by rw [last, head]; simp)

/-- Taking the first segment out of the queue. -/
theorem unlinkTail {first : Nat} {rest : List Nat} (linked : manager.AlwaysLinked)
    (queued : manager.Queued (first :: rest)) : manager.unlinkTail.AlwaysLinked := by
  refine linked.requeue queued.unlinkTail.2 fun other outside => ?_
  unfold SegmentManager.unlinkTail
  dsimp only
  split
  · rfl
  · rename_i several
    have apart : other ≠ manager.freeHead := by
      rintro rfl
      rcases List.eq_nil_or_concat' rest with rfl | ⟨middle, last, rfl⟩
      · exact several (queued.tail.trans queued.head.symm)
      · have shape : first :: (middle ++ [last]) = (first :: middle) ++ [last] := rfl
        have head : manager.freeHead = last := by rw [queued.head, shape, List.getLastD_concat]
        exact outside (by rw [head]; simp)
    exact (congrFun (freeNext_redirect manager manager.freeHead
      (manager.segments manager.freeTail).freeNext) other).trans (Function.update_of_ne apart ..)

end AlwaysLinked

/-! ## The invariant between calls -/

/-- The segment tables between two calls, when no segment has been mounted. -/
structure Managed (manager : SegmentManager) : Prop where
  /-- The segments are accounted for. -/
  accounted : ∃ queue, manager.Accounted queue
  /-- Full segments are closed. -/
  closed : manager.Closed
  /-- Every segment has been queued. -/
  linked : manager.AlwaysLinked

/-- The segment tables in the middle of appending a block to a log, whose segment may be full. -/
structure Appending (manager : SegmentManager) (temp : Nat) : Prop where
  /-- The segments are accounted for. -/
  accounted : ∃ queue, manager.Accounted queue
  /-- The full segments of the other logs are closed. -/
  closed : ∀ other < btTempNr, other ≠ temp → (manager.curSegs other).segNo ≠ invalidBlk →
    (manager.curSegs other).blkOffset < blockPerSeg
  /-- Every segment has been queued. -/
  linked : manager.AlwaysLinked

namespace Managed

variable {manager : SegmentManager}

/-- The page that is being written does not count. -/
theorem dataCache (managed : manager.Managed) (cache : DataPageCache) :
    { manager with dataCache := cache }.Managed := by
  obtain ⟨⟨queue, accounted⟩, closed, linked⟩ := managed
  exact ⟨⟨queue, accounted.congr rfl rfl rfl rfl rfl rfl⟩, closed, linked.congr fun _ => rfl⟩

/-- A log takes the first free segment. -/
theorem take (managed : manager.Managed) (some : manager.freeHead ≠ invalidBlk) (temp : Nat) :
    manager.freeTail < mainSegNr ∧
      ((manager.unlinkTail.openSegment manager.freeTail temp).setCurseg temp
        { segNo := manager.freeTail, blkOffset := 0 }).Managed := by
  obtain ⟨⟨queue, accounted⟩, closed, linked⟩ := managed
  cases queue with
  | nil => exact absurd accounted.queued.head some
  | cons first rest =>
    have tail : manager.freeTail = first := accounted.queued.tail
    rw [tail]
    have small := accounted.queued.inside first List.mem_cons_self
    have fresh := (List.nodup_cons.mp accounted.queued.nodup).1
    have unlinked := accounted.unlinkTail
    have heads : manager.unlinkTail.curSegs = manager.curSegs := by
      unfold SegmentManager.unlinkTail
      split <;> rfl
    refine ⟨small, ⟨rest, unlinked.openLog small fresh ?_ ?_⟩, fun other below => ?_, ?_⟩
    · rw [(SameContent.bits (sameContent_unlinkTail manager first)).2]
      exact accounted.empty first List.mem_cons_self
    · intro other below
      rw [heads]
      exact accounted.apart first List.mem_cons_self other below
    · by_cases same : other = temp
      · rw [same, curSegs_setCurseg_self]
        exact fun _ => Nat.zero_lt_succ _
      · rw [curSegs_setCurseg_of_ne same]
        show (manager.unlinkTail.curSegs other).segNo ≠ _ →
          (manager.unlinkTail.curSegs other).blkOffset < _
        rw [heads]
        exact closed other below
    · refine (linked.unlinkTail accounted.queued).congr fun seg => ?_
      show ((manager.unlinkTail.openSegment first temp).segments seg).freeNext = _
      by_cases here : seg = first
      · rw [here, openSegment_self]
      · rw [openSegment_of_ne here]

/-- A log with a current segment appends a block. -/
theorem recordWrite (managed : manager.Managed) {temp : Nat} (inside : temp < btTempNr)
    (valid : (manager.curSegs temp).segNo ≠ invalidBlk) (nid offset : Nat) :
    (manager.recordWrite temp nid offset).Appending temp := by
  obtain ⟨⟨queue, accounted⟩, closed, linked⟩ := managed
  refine ⟨⟨queue, accounted.recordWrite inside valid (closed temp inside valid) nid offset⟩, ?_, ?_⟩
  · intro other below apart
    rw [curSegs_recordWrite, Function.update_of_ne apart]
    exact closed other below
  · refine linked.congr fun seg => ?_
    by_cases here : seg = (manager.curSegs temp).segNo
    · rw [here, recordWrite_self]
    · rw [recordWrite_of_ne here]

end Managed

namespace Appending

variable {manager : SegmentManager} {temp : Nat}

/-- Invalidating a valid block leaves the log heads and the links in order. -/
theorem invalidated (appending : manager.Appending temp) {blk : Nat} (inside : blk < mainBlkNr)
    (valid : manager.isValid blk = true) : (manager.invalidated blk).Appending temp := by
  obtain ⟨⟨queue, accounted⟩, closed, linked⟩ := appending
  have small : blk / blockPerSeg < mainSegNr := by
    unfold mainBlkNr mainSegNr blockPerSeg at *
    omega
  have dropped := accounted.dropBlock inside valid
  have relinked : (manager.dropBlock (blk / blockPerSeg) (blk % blockPerSeg)).AlwaysLinked := by
    refine linked.congr fun seg => ?_
    by_cases here : seg = blk / blockPerSeg
    · rw [here, dropBlock_self]
    · rw [dropBlock_of_ne here]
  refine ⟨accounted.invalidated inside valid, ?_, ?_⟩
  · have heads : (manager.invalidated blk).curSegs = manager.curSegs := by
      unfold SegmentManager.invalidated
      dsimp only
      split
      · exact curSegs_freeSegment _ _
      · rfl
    rw [heads]
    exact closed
  · unfold SegmentManager.invalidated
    dsimp only
    split
    · exact relinked.freeSegment dropped.queued small (accounted.notMem_of_valid valid)
    · exact relinked

/-- Closing the full segment ends the append. -/
theorem closeFull (appending : manager.Appending temp) : (manager.closeFull temp).Managed := by
  obtain ⟨⟨queue, accounted⟩, closed, linked⟩ := appending
  refine ⟨⟨queue, accounted.closeFull temp⟩, ?_, ?_⟩
  · intro other below
    unfold SegmentManager.closeFull
    dsimp only
    split
    · by_cases same : other = temp
      · rw [same, curSegs_setCurseg_self]
        exact fun valid => absurd rfl valid
      · rw [curSegs_setCurseg_of_ne same]
        exact closed other below same
    · rename_i room
      intro valid
      by_cases same : other = temp
      · rw [same]
        exact Nat.lt_of_not_le room
      · exact closed other below same valid
  · refine linked.congr fun seg => ?_
    unfold SegmentManager.closeFull
    dsimp only
    split
    · rfl
    · rfl

/-- When no full segment is left the append has ended. -/
theorem ofManaged (managed : manager.Managed) (temp : Nat) : manager.Appending temp :=
  ⟨managed.accounted, fun other below _ => managed.closed other below, managed.linked⟩

end Appending

/-- Invalidating a valid block between two calls. -/
theorem Managed.invalidated {manager : SegmentManager} (managed : manager.Managed) {blk : Nat}
    (inside : blk < mainBlkNr) (valid : manager.isValid blk = true) :
    (manager.invalidated blk).Managed := by
  -- no log is appending, so that any temperature may stand for the one that is
  have appended := (Appending.ofManaged managed btTempNr).invalidated inside valid
  exact ⟨appended.accounted, fun temp below => appended.closed temp below (by omega),
    appended.linked⟩

/-! ## Formatting -/

/-- The tables after `build_free_link` has come to a segment of a cleared table. -/
structure LinkedBelow (manager : SegmentManager) (seg : Nat) : Prop where
  /-- The segments before it are queued. -/
  queued : manager.Queued (List.range seg)
  /-- No segment has a valid block. -/
  empty : ∀ other, (manager.segments other).validBlkNr = 0 ∧ (manager.segments other).validBmp = 0
  /-- The segments from it on are as they were. -/
  ahead : ∀ other ≥ seg, (manager.segments other).segTemp = invalidPage ∧
    (manager.segments other).freeNext = invalidBlk
  /-- No valid block has been counted. -/
  used : manager.usedBlkNr = 0

/-- One round of `build_free_link` on a cleared table. -/
theorem LinkedBelow.next {manager : SegmentManager} {seg : Nat} (below : manager.LinkedBelow seg)
    (small : seg < mainSegNr) : (manager.linkSegment seg).LinkedBelow (seg + 1) := by
  obtain ⟨queued, empty, ahead, used⟩ := below
  have fresh : seg ∉ List.range seg := by simp
  -- the temperature is `-1`, so that the lookup reads the link of the last segment
  have lookup : ∀ used, { manager with usedBlkNr := used }.curSegNo
      (manager.segments seg).segTemp ≠ seg := by
    intro used
    have last : (manager.segments (mainSegNr - 1)).freeNext = invalidBlk :=
      (ahead (mainSegNr - 1) (by omega)).2
    have read : { manager with usedBlkNr := used }.curSegNo invalidPage =
        (manager.segments (mainSegNr - 1)).freeNext := rfl
    rw [(ahead seg le_rfl).1, read, last]
    have size : seg < 60 := small
    show 0xFFFF ≠ seg
    omega
  have entered : manager.linkSegment seg =
      ({ manager with usedBlkNr := word (manager.usedBlkNr + (manager.segments seg).validBlkNr) }
        |>.updateSeg seg fun info => { info with segTemp := btTempNr }).freeEnQueue seg := by
    unfold linkSegment
    dsimp only
    rw [if_pos ⟨(empty seg).1, lookup _⟩]
  have contents := sameContent_linkSegment manager seg
  refine ⟨?_, fun other => ?_, fun other later => ?_, ?_⟩
  · rw [entered, List.range_succ]
    refine Queued.freeEnQueue (queued.congr rfl rfl rfl fun other member => ?_) small fresh
    exact congrArg SegmentInfo.freeNext (updateSeg_of_ne fun same => fresh (same ▸ member))
  · rw [(SameContent.bits (contents other)).1, (SameContent.bits (contents other)).2]
    exact empty other
  · have apart : other ≠ seg := by omega
    rw [entered, freeEnQueue_of_ne apart, if_neg, updateSeg_of_ne apart]
    · exact ahead other (by omega)
    · rintro ⟨some, last⟩
      have head : manager.freeHead = (List.range seg).getLastD invalidBlk := queued.head
      have queuedLast : other ∈ List.range seg := by
        rcases List.eq_nil_or_concat' (List.range seg) with none | ⟨front, former, split⟩
        · rw [none] at head
          exact absurd head some
        · have same : other = former := by
            rw [split, List.getLastD_concat] at head
            exact last.trans head
          rw [same, split]
          simp
      have earlier := List.mem_range.mp queuedLast
      omega
  · rw [entered]
    have kept : ∀ manager : SegmentManager, (manager.freeEnQueue seg).usedBlkNr =
        manager.usedBlkNr := by
      intro manager
      unfold freeEnQueue
      dsimp only
      split
      · rfl
      · rfl
    rw [kept]
    show word (manager.usedBlkNr + (manager.segments seg).validBlkNr) = 0
    have uncounted : (manager.segments seg).validBlkNr = 0 := (empty seg).1
    unfold word
    omega

/-- Formatting queues every segment. -/
theorem managed_initSegmentManager (manager : SegmentManager) :
    manager.initSegmentManager.Managed := by
  have linked : ∀ seg ≤ mainSegNr, ((List.range seg).foldl linkSegment
      { manager with
        segments := fun _ => { SegmentInfo.ones with validBlkNr := 0, validBmp := 0 }
        dirtyMap := fun _ => BitVec.allOnes 32
        freeTail := invalidBlk, freeHead := invalidBlk, freeNr := 0
        usedBlkNr := 0 }).LinkedBelow seg := by
    intro seg
    induction seg with
    | zero =>
      refine fun _ => ⟨⟨rfl, rfl, fun some => absurd rfl some, List.nodup_nil, ?_, rfl⟩,
        fun _ => ⟨rfl, rfl⟩, fun _ _ => ⟨rfl, rfl⟩, rfl⟩
      exact fun seg member => absurd member List.not_mem_nil
    | succ seg ih =>
      intro small
      rw [List.range_succ, List.foldl_append]
      exact (ih (by omega)).next (by omega)
  obtain ⟨queued, empty, -, used⟩ := linked mainSegNr le_rfl
  have initial : manager.initSegmentManager =
      { (List.range mainSegNr).foldl linkSegment
          { manager with
            segments := fun _ => { SegmentInfo.ones with validBlkNr := 0, validBmp := 0 }
            dirtyMap := fun _ => BitVec.allOnes 32
            freeTail := invalidBlk, freeHead := invalidBlk, freeNr := 0
            usedBlkNr := 0 } with
        curSegs := fun _ => .ones
        dataCache := .ones } := rfl
  rw [initial]
  generalize (List.range mainSegNr).foldl linkSegment _ = built at queued empty used ⊢
  refine ⟨⟨List.range mainSegNr, queued.congr rfl rfl rfl fun _ _ => rfl, ?_, ?_, ?_, ?_, ?_, ?_⟩,
    ?_, ?_⟩
  · intro seg _
    show (built.segments seg).validBlkNr = popCount (built.segments seg).validBmp 32
    rw [(empty seg).1, (empty seg).2]
    exact (popCount_eq_zero.mpr fun bit _ => BitVec.getLsbD_zero).symm
  · intro seg _ bit _
    show (built.segments seg).validBmp.getLsbD bit = false
    rw [(empty seg).2]
    exact BitVec.getLsbD_zero
  · show built.usedBlkNr = _
    rw [used]
    exact (Finset.sum_eq_zero fun seg _ => (empty seg).1).symm
  · exact fun seg _ => (empty seg).1
  · exact fun _ _ valid => absurd rfl valid
  · intro seg member temp _
    have small : seg < 60 := List.mem_range.mp member
    show 0xFFFF ≠ seg
    omega
  · exact fun _ _ valid => absurd rfl valid
  · exact fun seg small => queued.freeNext_ne (List.mem_range.mpr small)

/-! ## Bits -/

end SegmentManager

end FsChecking.F2fs
