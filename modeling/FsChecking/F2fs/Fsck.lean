import FsChecking.F2fs.Checkpoint

/-!
# File system check

`fsck.cpp`: mount, compare the SIT with its counters, walk the node graph from the root, then look
for nodes and blocks that the walk has not reached. In repair mode wrong summaries are rewritten
and what was not reached is released. The functions of the walk call one another; the call that
starts a node is the parameter `chkNode` of the others, and `fsckChkNodeBlk` closes the recursion
by a bound on the depth.
-/

namespace FsChecking.F2fs

open Lib

/-- `F2FS_FSCK`, without the counters and maps that are never read. -/
structure Fsck where
  /-- `main_area_map`: blocks of the main area that the walk has reached. -/
  mainAreaMap : Nat → Bool
  /-- `node_map`: nodes that the walk has reached. -/
  nodeMap : Nat → Bool
  /-- `path`: the name of the file that is being checked. -/
  path : Nat → Char
  /-- `path_ptr`, as an index of `path`. -/
  pathPtr : Nat
  /-- `fixed`. -/
  fixed : Bool
  /-- `need_to_fix`. -/
  needToFix : Bool

/-- The record that `fsck` starts with. -/
def Fsck.start (fix : Bool) : Fsck :=
  { mainAreaMap := fun _ => false, nodeMap := fun _ => false
    path := fun place => if place = 0 then '\\' else Char.ofNat 0
    pathPtr := 1, fixed := false, needToFix := fix }

/-- The file system and the record of the check. -/
structure Check where
  /-- The file system that is checked. -/
  fs : Fs
  /-- The record. -/
  fsck : Fsck

/-- Programs of the check. -/
abbrev CheckM : Type → Type := EStateM Fault Check

/-- The file system of a check. -/
def fsLens : Lens Check Fs where
  get check := check.fs
  put fs check := { check with fs }
  get_put _ _ := rfl
  put_get _ := rfl

/-- Change the record. -/
def modifyFsck (change : Fsck → Fsck) : CheckM Unit :=
  modify fun check => { check with fsck := change check.fsck }

/-- `f2fs_set_main_bitmap`. -/
def setMainBitmap (blk : Nat) : CheckM Unit :=
  modifyFsck fun fsck => { fsck with mainAreaMap := Function.update fsck.mainAreaMap blk true }

/-- `f2fs_set_node_bitmap`. -/
def setNodeBitmap (nid : Nat) : CheckM Unit :=
  modifyFsck fun fsck => { fsck with nodeMap := Function.update fsck.nodeMap nid true }

/-- Store a character at the cursor; the cursor may not leave the buffer. -/
def pokePath (char : Char) : CheckM Unit := do
  throwIf ((← get).fsck.pathPtr ≥ maxPathSize) .undefined
  modifyFsck fun fsck => { fsck with path := Function.update fsck.path fsck.pathPtr char }

/-- Move the cursor. -/
def setPathPtr (pathPtr : Nat) : CheckM Unit := modifyFsck fun fsck => { fsck with pathPtr }

/-- Append the name of a dentry to the path. `memcpy_s` refuses more than the buffer holds. -/
def appendName (block : DentryBlock) (index : Nat) : CheckM Unit := do
  let length := (block.dentries index).nameLen
  let start := (← get).fsck.pathPtr
  throwIf (start + length > maxPathSize) .undefined
  modifyFsck fun fsck =>
    { fsck with
      path := fun place =>
        if start ≤ place ∧ place < start + length then
          block.filenames (index * fnSlotLen + (place - start))
        else fsck.path place
      pathPtr := start + length }
  pokePath (Char.ofNat 0)

/-- Check the SIT entry of one segment; the result says whether the segment is in use. -/
def chkSegment (seg : Nat) : FsM Bool := do
  let manager := (← get).segments
  let info := manager.segments seg
  let validBlk := (List.range blockPerSeg).countP fun blk => info.validBmp.getLsbD blk
  throwIf (validBlk ≠ info.validBlkNr)
    (.fs .sitMismatch "seg [%d] valid block count in sit=%d mismatch valid block count in bitmap %d"
      [seg, info.validBlkNr, validBlk])
  return manager.curSegNo info.segTemp = seg ∨ info.validBlkNr ≠ 0

/-- `fsck_chk_metadata`. -/
def fsckChkMetadata : FsM Unit := do
  let validSegNr ← (List.range mainSegNr).foldlM
    (fun count seg => return if ← chkSegment seg then count + 1 else count) 0
  let freeNr := (← get).segments.freeNr
  throwIf (validSegNr + freeNr ≠ mainSegNr)
    (.fs .sitMismatch "segment number mismatch, total=%d, valid=%d, free=%d"
      [mainSegNr, validSegNr, freeNr])

/-- Compare the summary of a block with its owner; repair it or fail. -/
def chkSummary (message : String) (subject : List Nat) (nid offset blk : Nat) : CheckM Unit := do
  let check ← get
  let ssa := check.fs.segments.getBlockInfo blk
  doIf (ssa.nid ≠ nid ∨ ssa.offset ≠ offset) do
    if check.fsck.needToFix then
      fsLens.zoom (modifySegments (·.setBlockInfo nid offset blk))
      modifyFsck fun fsck => { fsck with fixed := true }
    else throw (.fs .lostBlk message (subject ++ [blk, ssa.nid, ssa.offset]))

/-- Release a page and fail with a message that still prints a field of it. -/
def failFreed (page : Nat) (code : ErrorCode) (message : String) (arguments : Nat → List Nat) :
    CheckM Unit := do
  fsLens.zoom (pagesLens.zoom (free page))
  let info := (← get).fs.pages.page page
  throw (.fs code message (arguments info.freeLink))

section Walk

-- The call that starts a node: its id, the type of its file, the type of block expected, which is
-- an inode or an index node. The result is what the call adds to the block count.
variable (chkNode : Nat → FileType → BlockType → CheckM Nat)

/-- Check the inode of one dentry. -/
def chkDentry (block : DentryBlock) (index : Nat) : CheckM Unit := do
  doIf ((block.dentries index).ino ≠ invalidBlk) do
    appendName block index
    let _ ← chkNode (block.dentries index).ino .unknown .inode

/-- `fsck_chk_data_blk`. -/
def fsckChkDataBlk (nid offset blk : Nat) (fileType : FileType) : CheckM Unit := do
  throwIf (blk ≥ mainBlkNr)
    (.fs .invalidBlk "data [%d, %d], phy block addr=%d is invalid" [nid, offset, blk])
  throwIf ((← get).fsck.mainAreaMap blk) (.fs .doubledBlk "block %d is double assigned" [blk])
  setMainBitmap blk
  chkSummary "data [%d, %d], phy=%d in ssa does not match, ssa.nid=%d, ssa.offset=%d"
    [nid, offset] nid offset blk
  doIf (fileType = .dir) do
    let page ← fsLens.zoom (pagesLens.zoom allocate)
    fsLens.zoom (readInto (phyblkToLba blk) page)
    let data ← fsLens.zoom (getData page)
    doIf (data.blockType ≠ .dentry) (failFreed page .wrongBlockType
      "data [%d, %d], phy=%d block type (%d) unmatch, expected: BLOCK_DENTRY"
      fun link => [nid, offset, blk, link])
    (List.range dentryPerBlock).forM (chkDentry chkNode data.dentry)
    fsLens.zoom (pagesLens.zoom (free page))

/-- Check one entry of an index node; the cursor is put back afterwards. The result is the number
of mapped entries, none or one. -/
def chkIndexEntry (nid : Nat) (fileType : FileType) (node : NodeInfo) (entry : Nat) :
    CheckM Nat := do
  let blk := node.index.index entry
  let pathPtr := (← get).fsck.pathPtr
  if blk ≠ invalidBlk then
    fsckChkDataBlk chkNode nid entry blk fileType
    setPathPtr pathPtr
    return 1
  else return 0

/-- Check the entries of an index node and count the mapped ones. -/
def chkIndexEntries (nid : Nat) (fileType : FileType) (node : NodeInfo) : CheckM Nat :=
  (List.range indexSize).foldlM
    (fun count entry => return count + (← chkIndexEntry chkNode nid fileType node entry)) 0

/-- `fsck_chk_index_blk`. -/
def fsckChkIndexBlk (nid blk : Nat) (fileType : FileType) (node : NodeInfo) : CheckM Nat := do
  setMainBitmap blk
  let validIndex ← chkIndexEntries chkNode nid fileType node
  throwIf (node.index.validData ≠ validIndex)
    (.fs .invalidNid "nid [%d] valid data in node (%d) does not match data number (%d) "
      [nid, node.index.validData, validIndex])
  return validIndex

/-- Check the index node in one slot of an inode. -/
def chkIndexSlot (node : NodeInfo) (slot : Nat) : CheckM Nat := do
  let nid := node.inode.index slot
  if nid ≠ invalidBlk then chkNode nid node.inode.fileType .index else return 0

/-- Check the index nodes of an inode and count the blocks that they map. -/
def chkIndexSlots (node : NodeInfo) : CheckM Nat :=
  (List.range indexTableSize).foldlM
    (fun count slot => return count + (← chkIndexSlot chkNode node slot)) 0

/-- `fsck_chk_inode_blk`. -/
def fsckChkInodeBlk (ino blk : Nat) (node : NodeInfo) : CheckM Unit := do
  setMainBitmap blk
  let pathPtr := (← get).fsck.pathPtr
  doIf (node.inode.fileType = .dir) do
    pokePath '\\'
    setPathPtr (pathPtr + 1)
    pokePath (Char.ofNat 0)
  throwIf (node.ino ≠ node.nid)
    (.fs .invalidNid "nid [%d] inode id (%d) does not match" [ino, node.ino])
  let blkCnt ← chkIndexSlots chkNode node
  throwIf (node.inode.blkNum ≠ blkCnt)
    (.fs .invalidNid "ino [%d] valid data blk in node (%d) does not match data blk (%d) "
      [ino, node.inode.blkNum, blkCnt])
  setPathPtr pathPtr

/-- The checks of `fsck_chk_node_blk` before the node is read: the address of the node. -/
def chkNodeAddress (nid : Nat) : CheckM Nat := do
  throwIf (nid ≥ nodeNr) (.fs .invalidNid "nid [%d] is invalid" [nid])
  throwIf ((← get).fsck.nodeMap nid) (.fs .doubledNid "nid [%d] is double assigned" [nid])
  setNodeBitmap nid
  let check ← get
  let blk := check.fs.nat.nat nid
  throwIf (blk ≥ mainBlkNr)
    (.fs .lostNid "nid [%d], not allocated or invalid phy block: %d" [nid, blk])
  throwIf (check.fsck.mainAreaMap blk) (.fs .doubledBlk "block %d is double assigned" [blk])
  let seg := blk / blockPerSeg
  throwIf ((check.fs.segments.segments seg).validBmp.getLsbD (blk % blockPerSeg) = false)
    (.fs .sitMismatch "nid [%d] phy_blk=%d, is not valid in SIT[%d, %d]"
      [nid, blk, seg, blk % blockPerSeg])
  chkSummary "nid [%d], block=%d in ssa does not match, ssa.nid=%d, ssa.offset=%d"
    [nid] nid invalidBlk blk
  return blk

/-- Check a node as what it is expected to be; an inode adds nothing to the block count. -/
def chkNodeContent (nid blk : Nat) (fileType : FileType) (blockType : BlockType)
    (node : NodeInfo) : CheckM Nat := do
  if blockType = .inode then
    fsckChkInodeBlk chkNode nid blk node
    return 0
  else fsckChkIndexBlk chkNode nid blk fileType node

/-- `fsck_chk_node_blk`. -/
def chkNodeBlk (nid : Nat) (fileType : FileType) (blockType : BlockType) : CheckM Nat := do
  let blk ← chkNodeAddress nid
  let page ← fsLens.zoom (pagesLens.zoom allocate)
  fsLens.zoom (readInto (phyblkToLba blk) page)
  let data ← fsLens.zoom (getData page)
  doIf (data.blockType ≠ blockType)
    (failFreed page .wrongBlockType "nid [%d] block type (%d) unmatch, expected: %d"
      fun link => [nid, link, blockType.toNat])
  doIf (data.node.nid ≠ nid)
    (failFreed page .invalidNid "nid [%d] does not match, nid in node= %d"
      fun _ => [nid, data.node.nid])
  let count ← chkNodeContent chkNode nid blk fileType blockType data.node
  fsLens.zoom (pagesLens.zoom (free page))
  return count

end Walk

/-- `fsck_chk_node_blk`, to a bounded depth. Every call marks a node that was not marked, so the
number of nodes bounds the depth. -/
def fsckChkNodeBlk : Nat → Nat → FileType → BlockType → CheckM Nat
  | 0 => fun _ _ _ => throw .undefined
  | depth + 1 => chkNodeBlk (fsckChkNodeBlk depth)

/-- Look at one node after the walk: an allocated node that was not reached is released. -/
def verifyNode (nid : Nat) : CheckM Unit := do
  let check ← get
  let blk := check.fs.nat.nat nid
  doIf (blk ≠ invalidBlk ∧ check.fsck.nodeMap nid = false) do
    if check.fsck.needToFix then
      fsLens.zoom (putNode nid)
      modifyFsck fun fsck => { fsck with fixed := true }
    else throw (.fs .deadNid "nid [%d] allocated but not used, blk=%d." [nid, blk])

/-- Look at one block after the walk: a valid block that was not reached is invalidated. -/
def verifyBlk (seg blk : Nat) : CheckM Unit := do
  let check ← get
  let phyBlk := phyBlock seg blk
  doIf ((check.fs.segments.segments seg).validBmp.getLsbD blk ∧
      check.fsck.mainAreaMap phyBlk = false) do
    if check.fsck.needToFix then
      let _ ← fsLens.zoom (segmentsLens.zoom (invalidBlockAt seg blk))
      modifyFsck fun fsck => { fsck with fixed := true }
    else
      throw (.fs .deadBlk "phy block [%d, %d] phy=%d, allocated but not used." [seg, blk, phyBlk])

/-- Look at one segment after the walk. -/
def verifySegment (seg : Nat) : CheckM Unit := do
  doIf (((← get).fs.segments.segments seg).validBlkNr ≠ 0)
    ((List.range blockPerSeg).forM (verifyBlk seg))

/-- `fsck_verify`. -/
def fsckVerify : CheckM Unit := do
  (List.range nodeNr).forM verifyNode
  (List.range mainSegNr).forM verifySegment

/-- The checks of `fsck` between mounting and writing back. -/
def fsckWalk : CheckM Unit := do
  fsLens.zoom fsckChkMetadata
  let _ ← fsckChkNodeBlk (nodeNr + 1) rootFid .dir .inode
  fsckVerify

/-- The end of `fsck`: store the repairs, or a second checkpoint when one was broken, and forget
the mounted tables. -/
def fsckFinish (fixed : Bool) : FsM Unit := do
  doIf (fixed = true ∨ (← get).healthCkpt < 2) syncFs
  modifySegments (·.reset)
  modifyNat fun _ => .blank
  modify fun fs => { fs with pages := fs.pages.initial }

/-- `fsck`: whether something was repaired; it returns `ERR_OK` or throws. -/
def fsck (fix : Bool) : FsM Bool := do
  mount
  let fs ← get
  match fsckWalk { fs, fsck := .start fix } with
  | .error fault check =>
    set check.fs
    throw fault
  | .ok _ check =>
    set check.fs
    fsckFinish check.fsck.fixed
    return check.fsck.fixed

end FsChecking.F2fs
