import FsChecking.Config
import FsChecking.Lib.Program
import FsChecking.Lib.CircularQueue

/-!
# Segment managers of the performance simulators

The segment tables of `segment_manager.h` and `f2fs_segment.h`: append-only segments with one log
head for each temperature, and a circular queue of free segments. What a block map entry refers to
stays a type variable: a logical block for the SSD simulators, a page for the file system.
-/

namespace FsChecking.PerfSim

open Lib

/-- `BLOCK_PER_SEG` of the performance simulators. -/
abbrev blockPerSeg : Nat := 512
/-- `INVALID_BLK` of the performance simulators. -/
abbrev invalidBlk : Nat := 0xFFFFFFFF

/-- `BLK_TEMP`. -/
inductive BlkTemp where
  /-- `BT_COLD_DATA`. -/
  | coldData
  /-- `BT_COLD_NODE`. -/
  | coldNode
  /-- `BT_WARM_DATA`. -/
  | warmData
  /-- `BT_WARM_NODE`. -/
  | warmNode
  /-- `BT_HOT__DATA`. -/
  | hotData
  /-- `BT_HOT__NODE`. -/
  | hotNode
  deriving DecidableEq

/-- The ways in which a call does not return. -/
inductive SimError where
  /-- `JCASSERT` fails. -/
  | assertion
  /-- A null or stray pointer is followed, which C++ leaves undefined. -/
  | undefined
  /-- `ERR_APP` with its message. -/
  | app (message : String)
  deriving DecidableEq

/-- `SEG_INFO`, without the bitmap and the erase counter that nothing reads. -/
structure SegInfo (β : Type) where
  /-- `blk_map`. -/
  blkMap : Nat → Option β
  /-- `valid_blk_nr`. -/
  validBlkNr : Nat
  /-- `cur_blk`: the next block to write. -/
  curBlk : Nat
  /-- `seg_temp`; none while the segment is free. -/
  segTemp : Option BlkTemp

/-- `CSegmentManagerBase`, without the health counters. -/
structure SegmentManager (β : Type) where
  /-- `m_segments`. -/
  segments : Nat → SegInfo β
  /-- `m_cur_segs`: the log heads. -/
  curSegs : BlkTemp → Option Nat
  /-- `m_free_segs`, `m_free_head`, `m_free_tail`, `m_free_nr` and `m_seg_nr`. -/
  free : CircularQueue Nat

/-- `PhyBlock`. -/
def phyBlock (seg blk : Nat) : Nat := dword (seg * blockPerSeg + blk)

/-- `BlockToSeg` of a valid block. -/
def blockToSeg (phyBlk : Nat) : Nat × Nat := (phyBlk / blockPerSeg, phyBlk % blockPerSeg)

variable {β : Type}

/-- Programs of a segment manager. -/
abbrev SegmentM (β : Type) := EStateM SimError (SegmentManager β)

/-- A segment that holds nothing. -/
def SegInfo.blank : SegInfo β :=
  { blkMap := fun _ => none, validBlkNr := 0, curBlk := 0, segTemp := none }

namespace SegmentManager

/-- `m_seg_nr`. -/
def segNr (manager : SegmentManager β) : Nat := manager.free.capacity

/-- `InitSegmentManager`. -/
def initSegmentManager (segmentNr : Nat) : SegmentManager β where
  segments := fun _ => .blank
  curSegs := fun _ => none
  free :=
    { capacity := segmentNr, slots := id, head := 0, tail := segmentNr - 1, count := segmentNr }

/-- Change one segment. -/
def updateSeg (manager : SegmentManager β) (seg : Nat) (change : SegInfo β → SegInfo β) :
    SegmentManager β :=
  { manager with
    segments := Function.update manager.segments seg (change (manager.segments seg)) }

/-- Write a block behind the written part of a segment. -/
def append (manager : SegmentManager β) (seg : Nat) (block : β) : SegmentManager β :=
  manager.updateSeg seg fun info =>
    { info with
      blkMap := Function.update info.blkMap info.curBlk (some block)
      validBlkNr := info.validBlkNr + 1
      curBlk := info.curBlk + 1 }

/-- A segment that is written to its end is no longer a log head. -/
def closeHead (manager : SegmentManager β) (temp : BlkTemp) (seg : Nat) : SegmentManager β :=
  if (manager.segments seg).curBlk ≥ blockPerSeg then
    { manager with curSegs := Function.update manager.curSegs temp none }
  else manager

/-- Clear an entry of a block map. -/
def clear (manager : SegmentManager β) (seg blk : Nat) : SegmentManager β :=
  manager.updateSeg seg fun info =>
    { info with
      blkMap := Function.update info.blkMap blk none
      validBlkNr := dword (info.validBlkNr + (2 ^ 32 - 1)) }

end SegmentManager

/-- `AllocSegment`. -/
def allocSegment (temp : BlkTemp) : SegmentM β Nat := do
  match (← get).free.pop with
  | none => throw (.app "no enough free segment")
  | some (seg, free) =>
    modify fun manager =>
      ({ manager with free := free }).updateSeg seg fun info => { info with segTemp := some temp }
    return seg

/-- `FreeSegment`. -/
def freeSegment (seg : Nat) : SegmentM β Unit := do
  match (← get).free.push seg with
  | none =>
    -- the tail has moved before the check
    modify fun manager =>
      { manager with free := { manager.free with tail := manager.free.next manager.free.tail } }
    throw (.app "free buffer full")
  | some free => modify fun manager => ({ manager with free := free }).updateSeg seg fun _ => .blank

/-- `InvalidBlock(seg_id, blk_id)`. -/
def invalidBlockAt (seg blk : Nat) : SegmentM β Bool := do
  throwIf (seg ≥ (← get).segNr) .assertion
  modify (·.clear seg blk)
  let info := (← get).segments seg
  if info.validBlkNr = 0 ∧ info.curBlk ≥ blockPerSeg then
    freeSegment seg
    return true
  return false

/-- `InvalidBlock(phy_blk)`. -/
def invalidBlock (phyBlk : Nat) : SegmentM β Bool :=
  if phyBlk = invalidBlk then pure false
  else invalidBlockAt (blockToSeg phyBlk).1 (blockToSeg phyBlk).2

/-- The current segment of a temperature; a new one is allocated when there is none. -/
def headSegment (temp : BlkTemp) : SegmentM β Nat := do
  match (← get).curSegs temp with
  | some seg => return seg
  | none =>
    let seg ← allocSegment temp
    modify fun manager =>
      { manager with curSegs := Function.update manager.curSegs temp (some seg) }
    return seg

end FsChecking.PerfSim
