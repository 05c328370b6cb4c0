import FsChecking.F2fs.Collect

/-!
# Inodes and their index nodes

Creation of inodes and index nodes, and the walk from a logical block of a file to the index entry
that maps it.
-/

namespace FsChecking.F2fs

open Lib

/-- `get_file_blks`. -/
def getFileBlks (inode : Inode) : Nat := roundUpDiv inode.fileSize blockSize

/-- The common part of `InitInode` and `InitIndexNode`: an empty node block with a new node id. The
result says whether there was one. -/
def initNode (page : Nat) (blockType : BlockType) (fill : Nat → NodeInfo → NodeInfo) :
    FsM Bool := do
  modifyData page fun _ => { BlockData.ones with blockType }
  let nid ← natLens.zoom getNode
  modifyNode page fun node => { node with nid }
  if nid = invalidBlk then return false
  modifyNode page (fill nid)
  modifyPage page fun info => { info with nid, offset := invalidBlk, dirty := true }
  return true

/-- `InitInode`. -/
def initInode (page : Nat) (fileType : FileType) : FsM Bool :=
  initNode page .inode fun nid node =>
    { node with
      pageId := page, ino := nid
      inode := { node.inode with
        blkNum := 0, fileSize := 0, refCount := 0, nlink := 0, fileType } }

/-- `InitIndexNode`. -/
def initIndexNode (page parent : Nat) : FsM Bool :=
  initNode page .index fun _ node =>
    { node with ino := parent, index := { node.index with validData := 0 }, pageId := page }

/-- `CIndexPath`: the inode's page and the place reached in its index table. The inode is level 0;
level 1 is the index node, absent over a hole. -/
structure IndexPath where
  /-- The page of the inode. -/
  inode : Nat
  /-- Whether the path is positioned (`level = 1`) or not (`level = -1`). -/
  positioned : Bool
  /-- `offset[0]`: the slot in the inode. -/
  slot : Nat
  /-- `offset[1]`: the entry in the index node. -/
  entry : Nat
  /-- `page[1]` and `node[1]`: the page of the index node. -/
  node : Option Nat

/-- A path that is not positioned yet. -/
def IndexPath.start (inode : Nat) : IndexPath :=
  { inode, positioned := false, slot := 0, entry := 0, node := none }

/-- The index node of a slot that has none: none without `alloc`, else a new one that is written to
its log at once. `none` in front says that there was no node or no space. -/
def newIndexNode (inode slot : Nat) (alloc : Bool) : FsM (Option (Option Nat)) := do
  if alloc = false then return some none
  let page ← pagesLens.zoom allocate
  let ino := (← getData inode).node.ino
  if ← initIndexNode page ino then
    let nid := (← getData page).node.nid
    modifyInode inode fun node => { node with index := Function.update node.index slot nid }
    let ipage ← pagePtr (← getData inode).node.pageId
    setPageDirty ipage true
    setNodeCache nid page
    let phyBlk ← writeBlockToSeg page false
    if phyBlk = invalidBlk then return none
    natLens.zoom (setPhyBlk nid phyBlk)
    return some (some page)
  else return none

/-- `OffsetToIndex`; `none` for the result `false`. The slot is inside the inode's table because
no caller passes a block beyond `MAX_FILE_BLKS`; beyond it the access is undefined. -/
def offsetToIndex (path : IndexPath) (offset : Nat) (alloc : Bool) : FsM (Option IndexPath) := do
  let slot := word offset / indexSize
  throwIf (slot ≥ indexTableSize) .undefined
  let nid := (← getData path.inode).node.inode.index slot
  let found ← if nid = invalidBlk then newIndexNode path.inode slot alloc
    else do
      let page ← readNode nid
      pure (some (some page))
  match found with
  | none => return none
  | some node =>
    return some { path with positioned := true, slot, entry := word offset % indexSize, node }

/-- `NextOffset`. -/
def nextOffset (path : IndexPath) : IndexPath :=
  if path.entry + 1 ≥ indexSize then
    { path with entry := path.entry + 1, positioned := false, node := none }
  else { path with entry := path.entry + 1 }

/-- One index node of `UpdateInode`; the result says whether to go on. -/
def updateIndexNode (ipage slot : Nat) : FsM Bool := do
  let nid := (← getData ipage).node.inode.index slot
  if nid = invalidBlk then return true
  throwIf (nid ≥ nodeNr) .undefined
  let cached := (← get).nat.nodeCache nid
  if cached = invalidPage then return true
  throwIf (cached ≥ maxPageNum) (.user "failed on getting page, id=%d" [cached])
  let info ← getPage cached
  let node := info.data.node
  throwIf (node.pageId ≠ cached)
    (.user "data unmatch, fid=%d, index=%d, page=%p, page_in_blk=%p"
      [(← getData ipage).node.nid, slot, cached, node.pageId])
  if node.index.validData = 0 then
    let _ ← segmentsLens.zoom (invalidBlock info.phyBlk)
    setNodeCache nid invalidPage
    pagesLens.zoom (free cached)
    putNode node.nid
    modifyInode ipage fun inode =>
      { inode with index := Function.update inode.index slot invalidBlk }
    setPageDirty ipage true
    return true
  else
    if info.dirty then
      let phyBlk ← writeBlockToSeg cached false
      if phyBlk = invalidBlk then return false
      natLens.zoom (setPhyBlk nid phyBlk)
      setPageDirty ipage true
      return true
    else
      setPageDirty ipage true
      return true

/-- The loop of `UpdateInode` over the index nodes that the file size covers. -/
def updateIndexNodes (ipage lastBlk : Nat) : List Nat → FsM Bool
  | [] => pure true
  | slot :: rest => do
    if slot * indexSize ≥ lastBlk then return true
    if ← updateIndexNode ipage slot then updateIndexNodes ipage lastBlk rest else return false

/-- `UpdateInode`: the new address of the inode, `INVALID_BLK` when there is no space. -/
def updateInode (ipage : Nat) : FsM Nat := do
  let lastBlk := word (getFileBlks (← getData ipage).node.inode)
  if ← updateIndexNodes ipage lastBlk (List.range indexTableSize) then
    let info ← getPage ipage
    if info.dirty then
      let phyBlk ← writeBlockToSeg ipage false
      if phyBlk = invalidBlk then return invalidBlk
      natLens.zoom (setPhyBlk (← getData ipage).node.nid phyBlk)
      return phyBlk
    else return info.phyBlk
  else return invalidBlk

end FsChecking.F2fs
