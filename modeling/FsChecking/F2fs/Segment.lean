import FsChecking.F2fs.State
import FsChecking.Lib.Bitmap

/-!
# Segments and the free queue

The part of `f2fs_segment.cpp` that works on the segment tables alone: the circular FIFO queue of
free segments, invalidation, the summary entries and the SIT entries.
-/

namespace FsChecking.F2fs

open Lib

/-- A segment with the counters of a SIT entry. -/
def SegmentInfo.withSit (info : SegmentInfo) (entry : SegInfo) : SegmentInfo :=
  { info with
    validBmp := entry.validBmp, validBlkNr := entry.validBlkNr, segTemp := entry.segTemp }

/-- A segment with the summaries of an SSA block. -/
def SegmentInfo.withSsa (info : SegmentInfo) (ssa : Nat → Summary) : SegmentInfo :=
  { info with nids := fun blk => (ssa blk).nid, offset := fun blk => (ssa blk).offset }

namespace SegmentManager

/-- `m_cur_segs[temp].seg_no`. Beyond the six log heads the lookup reads the memory behind them:
the dirty map, the ends and the length of the free queue; `-1` reads the end of `m_segments`. -/
def curSegNo (manager : SegmentManager) (temp : Nat) : Nat :=
  if temp < btTempNr then (manager.curSegs temp).segNo
  else if temp < btTempNr + sitBlkNr then word (manager.dirtyMap (temp - btTempNr)).toNat
  else if temp = btTempNr + sitBlkNr then manager.freeTail
  else if temp = btTempNr + sitBlkNr + 1 then manager.freeNr
  else if temp = invalidPage then (manager.segments (mainSegNr - 1)).freeNext
  else manager.beyond temp

/-- Change one segment. -/
def updateSeg (manager : SegmentManager) (seg : Nat) (change : SegmentInfo → SegmentInfo) :
    SegmentManager :=
  { manager with
    segments := Function.update manager.segments seg (change (manager.segments seg)) }

/-- The segment that was changed. -/
@[simp] theorem updateSeg_self (manager : SegmentManager) (seg : Nat)
    (change : SegmentInfo → SegmentInfo) :
    (manager.updateSeg seg change).segments seg = change (manager.segments seg) :=
  Function.update_self ..

/-- The other segments. -/
@[simp] theorem updateSeg_of_ne {manager : SegmentManager} {seg other : Nat}
    {change : SegmentInfo → SegmentInfo} (apart : other ≠ seg) :
    (manager.updateSeg seg change).segments other = manager.segments other :=
  Function.update_of_ne apart ..

/-- `is_dirty`. -/
def isDirty (manager : SegmentManager) (seg : Nat) : Bool :=
  testFlag sitEntryPerBlk manager.dirtyMap seg

/-- `set_dirty`. -/
def setDirty (manager : SegmentManager) (seg : Nat) : SegmentManager :=
  { manager with dirtyMap := setFlag sitEntryPerBlk manager.dirtyMap seg }

/-- The dirty segments after `set_dirty`. -/
theorem isDirty_setDirty (manager : SegmentManager) (seg other : Nat) :
    (manager.setDirty seg).isDirty other = (manager.isDirty other || decide (other = seg)) :=
  testFlag_setFlag (by decide) (by decide) manager.dirtyMap seg other

/-- `free_en_queue`. -/
def freeEnQueue (manager : SegmentManager) (seg : Nat) : SegmentManager :=
  let linked :=
    if manager.freeHead ≠ invalidBlk then
      let first := (manager.segments manager.freeHead).freeNext
      { (manager.updateSeg seg fun info => { info with freeNext := first }).updateSeg
          manager.freeHead fun info => { info with freeNext := seg } with
        freeHead := seg }
    else
      { manager.updateSeg seg fun info => { info with freeNext := seg } with
        freeHead := seg
        freeTail := seg }
  { linked with freeNr := word (manager.freeNr + 1) }

/-- `free_de_queue` on a queue that is not empty. -/
def unlinkTail (manager : SegmentManager) : SegmentManager :=
  let unlinked :=
    if manager.freeTail = manager.freeHead then
      { manager with freeTail := invalidBlk, freeHead := invalidBlk }
    else
      let tail := (manager.segments manager.freeTail).freeNext
      { manager.updateSeg manager.freeHead fun info => { info with freeNext := tail } with
        freeTail := tail }
  { unlinked with freeNr := word (manager.freeNr + (2 ^ 16 - 1)) }

/-- `FreeSegment`. -/
def freeSegment (manager : SegmentManager) (seg : Nat) : SegmentManager :=
  ((manager.updateSeg seg fun info => { info with segTemp := btTempNr }).freeEnQueue seg).setDirty
    seg

/-- One round of `build_free_link`. -/
def linkSegment (manager : SegmentManager) (seg : Nat) : SegmentManager :=
  let info := manager.segments seg
  let manager := { manager with usedBlkNr := word (manager.usedBlkNr + info.validBlkNr) }
  if info.validBlkNr = 0 ∧ manager.curSegNo info.segTemp ≠ seg then
    (manager.updateSeg seg fun info => { info with segTemp := btTempNr }).freeEnQueue seg
  else manager.updateSeg seg fun info => { info with freeNext := invalidBlk }

/-- `build_free_link`. -/
def buildFreeLink (manager : SegmentManager) : SegmentManager :=
  (List.range mainSegNr).foldl linkSegment
    { manager with freeTail := invalidBlk, freeHead := invalidBlk, freeNr := 0, usedBlkNr := 0 }

/-- A segment that differs only in its temperature and its place in the queue. -/
def SameContent (before after : SegmentInfo) : Prop :=
  after = { before with segTemp := after.segTemp, freeNext := after.freeNext }

/-- One change after another. -/
theorem SameContent.trans {first second third : SegmentInfo} (left : SameContent first second)
    (right : SameContent second third) : SameContent first third := by
  unfold SameContent at *
  rw [right, left]

/-- A change of one segment that keeps its content. -/
theorem sameContent_updateSeg (manager : SegmentManager) (seg other : Nat)
    (change : SegmentInfo → SegmentInfo) (same : ∀ info, SameContent info (change info)) :
    SameContent (manager.segments other) ((manager.updateSeg seg change).segments other) := by
  by_cases here : other = seg
  · subst here
    rw [updateSeg_self]
    exact same _
  · rw [updateSeg_of_ne here]
    exact rfl

/-- Entering the queue keeps the contents. -/
theorem sameContent_freeEnQueue (manager : SegmentManager) (seg other : Nat) :
    SameContent (manager.segments other) ((manager.freeEnQueue seg).segments other) := by
  unfold freeEnQueue
  dsimp only
  split
  · exact (sameContent_updateSeg manager seg other
        (fun info => { info with freeNext := (manager.segments manager.freeHead).freeNext })
        fun _ => rfl).trans
      (sameContent_updateSeg _ manager.freeHead other (fun info => { info with freeNext := seg })
        fun _ => rfl)
  · exact sameContent_updateSeg manager seg other (fun info => { info with freeNext := seg })
      fun _ => rfl

/-- Linking a segment keeps the contents. -/
theorem sameContent_linkSegment (manager : SegmentManager) (seg other : Nat) :
    SameContent (manager.segments other) ((manager.linkSegment seg).segments other) := by
  unfold linkSegment
  dsimp only
  split
  · refine SameContent.trans ?_ (sameContent_freeEnQueue _ seg other)
    exact sameContent_updateSeg manager seg other (fun info => { info with segTemp := btTempNr })
      fun _ => rfl
  · exact sameContent_updateSeg manager seg other (fun info => { info with freeNext := invalidBlk })
      fun _ => rfl

/-- Building the queue keeps the contents. -/
theorem sameContent_buildFreeLink (manager : SegmentManager) (other : Nat) :
    SameContent (manager.segments other) (manager.buildFreeLink.segments other) := by
  unfold buildFreeLink
  suffices general : ∀ (items : List Nat) (start : SegmentManager),
      SameContent (start.segments other) ((items.foldl linkSegment start).segments other) from
    general _ { manager with
      freeTail := invalidBlk, freeHead := invalidBlk, freeNr := 0, usedBlkNr := 0 }
  intro items
  induction items with
  | nil => exact fun _ => rfl
  | cons seg rest ih =>
    exact fun start => (sameContent_linkSegment start seg other).trans (ih _)

/-- `InitSegmentManager`. -/
def initSegmentManager (manager : SegmentManager) : SegmentManager :=
  { buildFreeLink
      { manager with
        segments := fun _ => { SegmentInfo.ones with validBlkNr := 0, validBmp := 0 }
        dirtyMap := fun _ => BitVec.allOnes 32 } with
    curSegs := fun _ => .ones
    dataCache := .ones }

/-- `Reset`, which leaves `m_used_blk_nr`. -/
def reset (manager : SegmentManager) : SegmentManager :=
  { manager with
    segments := fun _ => .ones
    dirtyMap := fun _ => 0
    curSegs := fun _ => .ones
    freeNr := 0
    freeHead := invalidBlk
    freeTail := invalidBlk
    dataCache := .ones }

/-- `GetBlockInfo`, for a block inside the main area. -/
def getBlockInfo (manager : SegmentManager) (phyBlk : Nat) : Summary :=
  let info := manager.segments (phyBlk / blockPerSeg)
  let blk := phyBlk % blockPerSeg
  if info.validBmp.getLsbD blk = false then { nid := invalidBlk, offset := invalidBlk }
  else { nid := info.nids blk, offset := info.offset blk }

/-- `SetBlockInfo`, for a block inside the main area. -/
def setBlockInfo (manager : SegmentManager) (nid offset phyBlk : Nat) : SegmentManager :=
  let blk := phyBlk % blockPerSeg
  (manager.updateSeg (phyBlk / blockPerSeg) fun info =>
    { info with
      nids := Function.update info.nids blk nid
      offset := Function.update info.offset blk offset }).setDirty (phyBlk / blockPerSeg)

/-- `fill_seg_info`. -/
def fillSegInfo (manager : SegmentManager) (seg : Nat) : SegInfo :=
  let info := manager.segments seg
  { validBmp := info.validBmp, validBlkNr := info.validBlkNr, segTemp := info.segTemp }

/-- `read_seg_info`. -/
def readSegInfo (manager : SegmentManager) (entry : SegInfo) (seg : Nat) : SegmentManager :=
  manager.updateSeg seg (·.withSit entry)

/-- Read the entries of one SIT block into the table. -/
def readSitBlock (manager : SegmentManager) (sit : Nat → SegInfo) (blk : Nat) : SegmentManager :=
  (List.range sitEntryPerBlk).foldl
    (fun manager entry => manager.readSegInfo (sit entry) (blk * sitEntryPerBlk + entry)) manager

/-- `get_free_blk_nr`. -/
def getFreeBlkNr (manager : SegmentManager) : Nat :=
  word (mainBlkNr + 2 ^ 16 - word manager.usedBlkNr)

/-- The bookkeeping of `InvalidBlock` for a valid block. -/
def dropBlock (manager : SegmentManager) (seg blk : Nat) : SegmentManager :=
  { manager.updateSeg seg fun info =>
      { info with
        validBlkNr := dword (info.validBlkNr + (2 ^ 32 - 1))
        validBmp := clearBit info.validBmp blk
        nids := Function.update info.nids blk invalidBlk
        offset := Function.update info.offset blk invalidBlk } with
    usedBlkNr := word (manager.usedBlkNr + (2 ^ 16 - 1)) }.setDirty seg

end SegmentManager

/-- `free_de_queue`. -/
def freeDeQueue : SegM Nat := do
  let manager ← get
  throwIf (manager.freeHead = invalidBlk ∨ manager.freeTail = invalidBlk)
    (.fs .general "free que is empty, free_nr=%d, tail=%d, head=%d"
      [manager.freeNr, manager.freeTail, manager.freeHead])
  set manager.unlinkTail
  return manager.freeTail

/-- `InvalidBlock(seg_id, blk_id)`. -/
def invalidBlockAt (seg blk : Nat) : SegM Bool := do
  throwIf (seg ≥ mainSegNr) .undefined
  throwIf (((← get).segments seg).validBmp.getLsbD blk = false)
    (.fs .doubledBlk "double invalid phy block, seg=%d, blk=%d," [seg, blk])
  modify (·.dropBlock seg blk)
  let manager ← get
  let info := manager.segments seg
  -- the current segment of a log is not reclaimed
  if info.validBlkNr = 0 ∧ manager.curSegNo info.segTemp ≠ seg then
    throwIf (info.validBmp ≠ 0) (.user "try to free a non-empty segment, seg=%d" [seg])
    modify (·.freeSegment seg)
    return true
  return false

/-- `InvalidBlock(phy_blk)`. -/
def invalidBlock (phyBlk : Nat) : SegM Bool :=
  if phyBlk = invalidBlk then pure false
  else invalidBlockAt (phyBlk / blockPerSeg) (phyBlk % blockPerSeg)

end FsChecking.F2fs
