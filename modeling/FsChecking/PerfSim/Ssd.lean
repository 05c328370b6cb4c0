import FsChecking.PerfSim.Accounting
import FsChecking.Lib.Placement

/-!
# SSD simulators

`CSingleHeadSM` and `CMultiHeadSM`: a logical-to-physical map over append-only segments, with a
garbage collector that moves the blocks of victim segments to the log heads. The victims come from
a heap of candidates; every request carries the victims that the heap hands out while it lasts.
-/

namespace FsChecking.PerfSim

open Lib

/-- `GC_THREAD_START`. -/
abbrev gcThreadStart : Nat := 3
/-- `GC_THREAD_END`. -/
abbrev gcThreadEnd : Nat := 5

/-- `LBLOCK_INFO`. -/
structure LBlockInfo where
  /-- `phy_blk`. -/
  phyBlk : Nat
  /-- `host_write`. -/
  hostWrite : Int
  /-- `total_write`. -/
  totalWrite : Int
  /-- `temp`; none before the first write. -/
  temp : Option BlkTemp

/-- `CSingleHeadSM`, without its logs. -/
structure Ssd where
  /-- `m_l2p_map`. -/
  l2pMap : Nat → LBlockInfo
  /-- `m_blk_nr`. -/
  blkNr : Nat
  /-- `m_total_host_write`. -/
  totalHostWrite : Nat
  /-- `m_total_media_write`. -/
  totalMediaWrite : Nat
  /-- `m_segment`. -/
  segment : SegmentManager Nat

/-- Programs of an SSD simulator. -/
abbrev SsdM := EStateM SimError Ssd

/-- How a log is chosen for a logical block of a temperature. -/
abbrev LogChoice := Ssd → Nat → Option BlkTemp → BlkTemp

namespace Ssd

/-- `Initialize` for a number of logical blocks and a number of segments. -/
def initial (blkNr segNr : Nat) : Ssd where
  l2pMap := fun _ => { phyBlk := invalidBlk, hostWrite := -1, totalWrite := -1, temp := none }
  blkNr := blkNr
  totalHostWrite := 0
  totalMediaWrite := 0
  segment := .initSegmentManager segNr

/-- The member `m_segment`. -/
def segmentLens : Lens Ssd (SegmentManager Nat) where
  get := Ssd.segment
  put := fun manager ssd => { ssd with segment := manager }
  get_put := fun _ _ => rfl
  put_get := fun _ => rfl

/-- Change the record of a logical block. -/
def updateLBlock (ssd : Ssd) (lblk : Nat) (change : LBlockInfo → LBlockInfo) : Ssd :=
  { ssd with l2pMap := Function.update ssd.l2pMap lblk (change (ssd.l2pMap lblk)) }

/-- Count a media write of a logical block and record its new place. -/
def recordWrite (ssd : Ssd) (lblk phyBlk : Nat) : Ssd :=
  { ssd.updateLBlock lblk fun info =>
      { info with totalWrite := info.totalWrite + 1, phyBlk := phyBlk } with
    totalMediaWrite := ssd.totalMediaWrite + 1 }

end Ssd

/-- `CSsdSegmentManager::WriteBlockToSeg`. -/
def writeBlockToSeg (lblk : Nat) (temp : BlkTemp) : SegmentM Nat Nat := do
  let seg ← headSegment temp
  let blk := ((← get).segments seg).curBlk
  modify fun manager => (manager.append seg lblk).closeHead temp seg
  return phyBlock seg blk

/-- `CSegmentManagerBase::MoveBlock`. -/
def moveSegBlock (srcSeg srcBlk : Nat) (temp : BlkTemp) : SegmentM Nat Nat := do
  match (← get).at' (srcSeg, srcBlk) with
  | none => throw .undefined
  | some lblk =>
    let tar ← writeBlockToSeg lblk temp
    discard (invalidBlockAt srcSeg srcBlk)
    return tar

/-- `CSingleHeadSM::MoveBlock`. -/
def moveBlock (srcSeg srcBlk : Nat) (temp : BlkTemp) : SsdM Unit := do
  match (← get).segment.at' (srcSeg, srcBlk) with
  | none => throw .undefined
  | some lblk =>
    throwIf (((← get).l2pMap lblk).phyBlk ≠ phyBlock srcSeg srcBlk) (.app "P2L mismatch")
    let tar ← Ssd.segmentLens.zoom (moveSegBlock srcSeg srcBlk temp)
    modify (·.recordWrite lblk tar)

/-- One entry of a victim: a mapped block moves to the log chosen for it. -/
def collectEntry (choose : LogChoice) (victim blk : Nat) : SsdM Unit := do
  let ssd ← get
  match ssd.segment.at' (victim, blk) with
  | none => pure ()
  | some lblk => moveBlock victim blk (choose ssd lblk (ssd.l2pMap lblk).temp)

/-- Collect one victim segment. -/
def collectVictim (choose : LogChoice) (victim : Nat) : SsdM Unit := do
  throwIf ((← get).segment.segNr ≤ victim) .assertion
  (List.range blockPerSeg).forM (collectEntry choose victim)

/-- The loop of `GarbageCollection` over the victims that the pool hands out. -/
def collectLoop (choose : LogChoice) : List Nat → SsdM Unit
  | [] => do
    throwIf ((← get).segment.free.count ≤ gcThreadEnd)
      (.app "cannot find segment has invalid block")
  | victim :: rest => do
    doIf ((← get).segment.free.count ≤ gcThreadEnd) do
      collectVictim choose victim
      collectLoop choose rest

/-- `GarbageCollection`. -/
def garbageCollection (choose : LogChoice) (victims : List Nat) : SsdM Unit := do
  doIf ((← get).segment.free.count ≤ gcThreadStart) (collectLoop choose victims)

/-- A request to `WriteSector`, with the victims that the pool hands out if it collects. -/
structure WriteRequest where
  /-- `lba`. -/
  lba : Nat
  /-- `secs`. -/
  secs : Nat
  /-- `temp`. -/
  temp : BlkTemp
  /-- The results of `pool.Pop()`. -/
  victims : List Nat

end FsChecking.PerfSim
