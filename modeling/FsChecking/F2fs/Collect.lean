import FsChecking.F2fs.GcPool
import FsChecking.F2fs.Node

/-!
# Log writes and garbage collection

`WriteBlockToSeg`, `AllocSegment` and `GarbageCollection`. A host write that finds no free block in
its log allocates a segment, which may run the collector, which moves blocks with
`WriteBlockToSeg` in turn. The inner writes never start another collection, so the recursion is one
level deep: the collector is a parameter of the write, and the collector's own writes have none.
-/

namespace FsChecking.F2fs

open Lib

/-- `GetBlockTemp`; `GetAlgorithmBlockTemp` returns it unchanged. -/
def getBlockTemp (data : BlockData) : Nat :=
  if data.blockType = .inode ∨ data.blockType = .index then btHotNode else btHotData

namespace SegmentManager

/-- The initial state of a segment that `AllocSegment` hands out. -/
def openSegment (manager : SegmentManager) (seg temp : Nat) : SegmentManager :=
  (manager.updateSeg seg fun info =>
    { info with
      validBlkNr := 0, segTemp := temp, validBmp := 0
      nids := fun _ => invalidBlk, offset := fun _ => invalidBlk }).setDirty seg

/-- Change one log head. -/
def setCurseg (manager : SegmentManager) (temp : Nat) (curseg : CursegInfo) : SegmentManager :=
  { manager with curSegs := Function.update manager.curSegs temp curseg }

/-- The bookkeeping of `WriteBlockToSeg` for the block it appends to a log. -/
def recordWrite (manager : SegmentManager) (temp nid offset : Nat) : SegmentManager :=
  let curseg := manager.curSegs temp
  { (manager.updateSeg curseg.segNo fun info =>
      { info with
        validBmp := setBit info.validBmp curseg.blkOffset
        nids := Function.update info.nids curseg.blkOffset nid
        offset := Function.update info.offset curseg.blkOffset offset
        validBlkNr := dword (info.validBlkNr + 1) }).setCurseg temp
      { curseg with blkOffset := curseg.blkOffset + 1 } with
    usedBlkNr := word (manager.usedBlkNr + 1) }.setDirty curseg.segNo

/-- A log whose segment is full has no current segment. -/
def closeFull (manager : SegmentManager) (temp : Nat) : SegmentManager :=
  let curseg := manager.curSegs temp
  if curseg.blkOffset ≥ blockPerSeg then manager.setCurseg temp { curseg with segNo := invalidBlk }
  else manager

end SegmentManager

/-- `m_data_cache = cache`. -/
def setDataCache (cache : DataPageCache) : FsM Unit :=
  segmentsLens.zoom (modify fun manager => { manager with dataCache := cache })

/-- The part of `AllocSegment` before the de-queue: fail on an empty queue, and run the collector
when segments are short. The result says whether a segment may be taken. -/
def reclaimSpace (collector : FsM ErrorCode) (byGc force : Bool) : FsM Bool := do
  let manager := (← get).segments
  throwIf (manager.freeNr = 0 ∨ manager.freeHead = invalidBlk ∨ manager.freeTail = invalidBlk)
    (.user "no engouh empty segment" [])
  if manager.freeNr ≤ reservedSeg ∧ byGc = false then
    let ir ← collector
    let freeNr := (← get).segments.freeNr
    throwIf (freeNr ≤ 1 ∨ ir ≠ .ok)
      (.fs .noSpace "[err] gc error or no segment, error=%d, free=%d, force=%d"
        [0, freeNr, force.toNat])
    return force ∨ freeNr > reservedSeg
  else return true

/-- `AllocSegment`. -/
def allocSegment (collector : FsM ErrorCode) (temp : Nat) (byGc force : Bool) : FsM Nat := do
  if ← reclaimSpace collector byGc force then
    let seg ← segmentsLens.zoom freeDeQueue
    segmentsLens.zoom (modify (·.openSegment seg temp))
    return seg
  else return invalidBlk

/-- The first half of `WriteBlockToSeg`: make sure that the log has a current segment. The result
says whether it has one. -/
def openLog (collector : FsM ErrorCode) (temp : Nat) (byGc force : Bool) : FsM Bool := do
  if ((← get).segments.curSegs temp).segNo = invalidBlk then
    let seg ← allocSegment collector temp byGc force
    if seg = invalidBlk then
      setDataCache .ones
      return false
    else
      segmentsLens.zoom (modify (·.setCurseg temp { segNo := seg, blkOffset := 0 }))
      return true
  else return true

/-- The second half of `WriteBlockToSeg`: append the page to its log and invalidate the block that
it replaces. -/
def appendBlock (page temp : Nat) (byGc : Bool) : FsM Nat := do
  let curseg := (← get).segments.curSegs temp
  throwIf (curseg.segNo ≥ mainSegNr ∨ curseg.blkOffset ≥ blockPerSeg) .undefined
  let info ← getPage page
  blockWrite (segToLba curseg.segNo curseg.blkOffset) info.data
  segmentsLens.zoom (modify (·.recordWrite temp info.nid info.offset))
  let _ ← segmentsLens.zoom (invalidBlock info.phyBlk)
  let phyBlk := phyBlock curseg.segNo curseg.blkOffset
  modifyPage page fun info => { info with phyBlk, dirty := info.dirty && byGc }
  segmentsLens.zoom (modify (·.closeFull temp))
  doIf (byGc = false) (setDataCache .ones)
  return phyBlk

/-- `WriteBlockToSeg`, with the collector that its allocation may run. -/
def writeBlockWith (collector : FsM ErrorCode) (page : Nat) (force byGc : Bool) : FsM Nat := do
  let info ← getPage page
  let temp := getBlockTemp info.data
  modifyPage page fun info => { info with ttemp := temp }
  -- the collector must not move the block that is being written
  doIf (byGc = false) (setDataCache { nid := info.nid, offset := info.offset })
  if ← openLog collector temp byGc force then appendBlock page temp byGc
  else return invalidBlk

/-- `WriteBlockToSeg(page, true, true)`: a write by the collector, which never collects. -/
def gcWrite (page : Nat) : FsM Nat := writeBlockWith (pure .ok) page true true

/-- One round of the victim scan: free an empty segment that is not marked free, skip a log head,
offer every other segment. -/
def scanSegment (pool : GcPool Nat) (seg : Nat) : SegM (GcPool Nat) := do
  let manager ← get
  let info := manager.segments seg
  if info.validBlkNr = 0 ∧ info.freeNext = invalidBlk then
    throwIf (info.validBmp ≠ 0) (.user "try to free a non-empty segment, seg=%d" [seg])
    set (manager.freeSegment seg)
    return pool
  else if manager.curSegNo info.segTemp = seg then return pool
  else return pool.push 64 (fun seg => (manager.segments seg).validBlkNr) seg

/-- The victim scan of `GarbageCollection`: the segments in ascending order of valid blocks. -/
def scanVictims : SegM (List Nat) := do
  let pool ← (List.range mainSegNr).foldlM scanSegment { heap := fun _ => 0, len := 0 }
  -- `Sort` writes in front of its array when nothing was pushed
  throwIf (pool.len = 0) .undefined
  let manager ← get
  return pool.sort fun seg => (manager.segments seg).validBlkNr

/-- Move one valid block; the result says whether it was moved. -/
def moveBlock (seg blk : Nat) : FsM Bool := do
  let info := (← get).segments.segments seg
  let nid := info.nids blk
  let offset := info.offset blk
  let orgPhy := phyBlock seg blk
  let nodePage ← readNode nid
  if offset = invalidBlk then
    let l2p ← natLens.zoom (getPhyBlk nid)
    throwIf (l2p ≠ orgPhy)
      (.fs .phyAddrMismatch "phy_blk [%d] node=%d, L2P=%d mismatch" [orgPhy, nid, l2p])
    let phyBlk ← gcWrite nodePage
    setPageDirty nodePage false
    natLens.zoom (setPhyBlk nid phyBlk)
    return true
  else
    let cache := (← get).segments.dataCache
    if cache.nid = nid ∧ cache.offset = offset then return false
    let node ← getData nodePage
    throwIf (node.blockType ≠ .index)
      (.fs .wrongBlockType "node [%d] expected INDEX BLOCK, wrong type=%d"
        [nid, node.blockType.toNat])
    throwIf (offset > indexSize)
      (.fs .invalidIndex "data block [%d,%d], phy=%d, offset over range" [nid, offset, orgPhy])
    -- the check lets `INDEX_SIZE` itself pass, which is outside the array
    throwIf (offset = indexSize) .undefined
    let l2p := node.node.index.index offset
    throwIf (l2p ≠ orgPhy)
      (.fs .phyAddrMismatch "data block [%d, %d] phy=%d, L2P=%d mismatch"
        [nid, offset, orgPhy, l2p])
    readInto (phyblkToLba orgPhy) stackPage
    modifyPage stackPage fun page => { page with phyBlk := orgPhy, nid, offset }
    let phyBlk ← gcWrite stackPage
    updateIndex nid offset phyBlk
    return true

/-- Move the valid blocks of a victim, until as many are moved as it had at the start. -/
def moveBlocks (seg : Nat) : List Nat → Nat → FsM Unit
  | [], _ => pure ()
  | blk :: rest, left => do
    if ((← get).segments.segments seg).validBmp.getLsbD blk = false then moveBlocks seg rest left
    else if ← moveBlock seg blk then
      let left := dword (left + (2 ^ 32 - 1))
      if left = 0 then pure () else moveBlocks seg rest left
    else moveBlocks seg rest left

/-- `gc_hi`: the number of free segments that ends a collection. -/
abbrev gcHi : Nat := 15

/-- The main loop of `GarbageCollection` over the sorted victims. -/
def collectFrom : List Nat → FsM Unit
  | [] => pure ()
  | seg :: rest => do
    doIf ((← get).segments.freeNr < gcHi) do
      modify fun fs => { fs with gcCount := dword (fs.gcCount + 1) }
      moveBlocks seg (List.range blockPerSeg) ((← get).segments.segments seg).validBlkNr
      collectFrom rest

/-- `GarbageCollection`. -/
def garbageCollection : FsM ErrorCode := do
  let victims ← segmentsLens.zoom scanVictims
  collectFrom victims
  return .ok

/-- `WriteBlockToSeg(page, force)`: a host write. -/
def writeBlockToSeg (page : Nat) (force : Bool) : FsM Nat :=
  writeBlockWith garbageCollection page force false

end FsChecking.F2fs
