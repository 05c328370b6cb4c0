import FsChecking.F2fs.Checkpoint

/-!
# Contents of files

Reading, writing and truncating blocks of a file through its index nodes, closing an inode and
removing a file. An inode is named by the page that holds it.
-/

namespace FsChecking.F2fs

open Lib

/-- Position a path on a block of its file, without creating index nodes. -/
def positionPath (path : IndexPath) (blk : Nat) : FsM IndexPath :=
  if path.positioned then pure path
  else do
    match ← offsetToIndex path blk false with
    | none => throw .undefined
    | some path => return path

/-- The loop of `FileReadInternal`: the pages of consecutive blocks, `none` for holes. Over a
missing index node the path is not advanced, so the rest of the range reads as holes too. -/
def readBlocks : Nat → IndexPath → Nat → FsM (List (Option Nat))
  | 0, _, _ => pure []
  | count + 1, path, blk => do
    let path ← positionPath path blk
    match path.node with
    | none => return none :: (← readBlocks count path (blk + 1))
    | some diPage =>
      let node := (← getData diPage).node
      let phyBlk := node.index.index path.entry
      if phyBlk = invalidBlk then
        return none :: (← readBlocks count (nextOffset path) (blk + 1))
      else
        let page ← pagesLens.zoom allocate
        readInto (phyblkToLba phyBlk) page
        modifyPage page fun info =>
          { info with phyBlk, nid := node.nid, offset := path.entry }
        return some page :: (← readBlocks count (nextOffset path) (blk + 1))

/-- `FileReadInternal`. -/
def fileReadInternal (inode startBlk endBlk : Nat) : FsM (List (Option Nat)) :=
  readBlocks (endBlk - startBlk) (.start inode) startBlk

/-- The page of one block of a file. -/
def readBlock (inode blk : Nat) : FsM (Option Nat) := do
  return (← fileReadInternal inode blk (blk + 1)).head?.join

/-- Map one block of a file to a page that is written to its log; `none` when there is no space. -/
def writeDataPage (path : IndexPath) (diPage dpage : Nat) (force : Bool) : FsM (Option Unit) := do
  let node := (← getData diPage).node
  let phyBlk := node.index.index path.entry
  modifyPage dpage fun info => { info with phyBlk, nid := node.nid, offset := path.entry }
  let newPhyBlk ← writeBlockToSeg dpage force
  if newPhyBlk = invalidBlk then return none
  modifyIndex diPage fun index =>
    { index with index := Function.update index.index path.entry newPhyBlk }
  doIf (phyBlk = invalidBlk) do
    modifyInode path.inode fun inode => { inode with blkNum := dword (inode.blkNum + 1) }
    modifyIndex diPage fun index => { index with validData := dword (index.validData + 1) }
    let ipage ← pagePtr (← getData path.inode).node.pageId
    setPageDirty ipage true
  setPageDirty diPage true
  return some ()

/-- The loop of `FileWriteInternal`: the number of blocks written. -/
def writeBlocks (force : Bool) : List Nat → IndexPath → Nat → Nat → FsM Nat
  | [], _, _, written => pure written
  | dpage :: rest, path, blk, written => do
    let found ← if path.positioned then pure (some path) else offsetToIndex path blk true
    match found with
    | none => return written
    | some path =>
      match path.node with
      | none => throw .undefined
      | some diPage =>
        match ← writeDataPage path diPage dpage force with
        | none => return written
        | some () => writeBlocks force rest (nextOffset path) (blk + 1) (written + 1)

/-- `available_blk`: the difference is stored in a `WORD`. -/
def availableBlk (fs : Fs) (force : Bool) : Nat :=
  let reserved := (if force then reservedSeg else reservedSeg + fs.opSegs) * blockPerSeg
  word (fs.segments.getFreeBlkNr + (2 ^ 16 - word reserved))

/-- `FileWriteInternal`. -/
def fileWriteInternal (inode startBlk endBlk : Nat) (pages : List Nat) (force : Bool) :
    FsM Nat := do
  let dataBlkNr := endBlk - startBlk
  let nodeBlkNr := roundUpDiv dataBlkNr indexSize
  if dataBlkNr + nodeBlkNr > availableBlk (← get) force then return 0
  let written ← writeBlocks force (pages.take dataBlkNr) (.start inode) startBlk 0
  modify fun fs => { fs with hostWrite := fs.hostWrite + written }
  return written

/-- Release an index node that maps nothing any more. -/
def dropIndexNode (ipage diPage slot : Nat) : FsM Unit := do
  let nid := (← getData diPage).node.nid
  throwIf (nid ≥ nodeNr) .undefined
  setNodeCache nid invalidPage
  pagesLens.zoom (free diPage)
  putNode nid
  modifyInode ipage fun inode =>
    { inode with index := Function.update inode.index slot invalidBlk }

/-- Unmap one entry of an index node. -/
def truncateEntry (ipage diPage : Nat) (path : IndexPath) : FsM Unit := do
  let phyBlk := (← getData diPage).node.index.index path.entry
  doIf (phyBlk ≠ invalidBlk) do
    let _ ← segmentsLens.zoom (invalidBlock phyBlk)
    modifyIndex diPage fun index =>
      { index with
        index := Function.update index.index path.entry invalidBlk
        validData := dword (index.validData + (2 ^ 32 - 1)) }
    setPageDirty diPage true
    modifyInode ipage fun inode => { inode with blkNum := dword (inode.blkNum + (2 ^ 32 - 1)) }
    setPageDirty ipage true
  doIf ((← getData diPage).node.index.validData = 0) (dropIndexNode ipage diPage path.slot)

/-- The loop of `FileTruncateInternal`. -/
def truncateBlocks (ipage : Nat) : Nat → IndexPath → Nat → FsM Unit
  | 0, _, _ => pure ()
  | count + 1, path, blk => do
    let path ← positionPath path blk
    match path.node with
    | none => truncateBlocks ipage count path (blk + 1)
    | some diPage =>
      truncateEntry ipage diPage path
      truncateBlocks ipage count (nextOffset path) (blk + 1)

/-- `FileTruncateInternal`. -/
def fileTruncateInternal (ipage startBlk endBlk : Nat) : FsM Unit :=
  truncateBlocks ipage (endBlk - startBlk) (.start ipage) startBlk

/-- `FileRemove`. -/
def fileRemove (ipage : Nat) : FsM Unit := do
  let endBlk := word (getFileBlks (← getData ipage).node.inode)
  fileTruncateInternal ipage 0 endBlk
  let nid := (← getData ipage).node.nid
  throwIf (nid ≥ nodeNr) .undefined
  setNodeCache nid invalidPage
  pagesLens.zoom (free ipage)
  putNode nid

/-- Write a node page to its log, or give it up when there is no space. -/
def writeNode (nid page fid : Nat) : FsM Unit := do
  let phyBlk ← writeBlockToSeg page true
  if phyBlk = invalidBlk then
    pagesLens.zoom (free page)
    throw (.fs .general "no enough segment during close file, fid=%d" [fid])
  else natLens.zoom (setPhyBlk nid phyBlk)

/-- Write a node page if it is dirty, and take it out of the cache. The result says whether it was
written. -/
def flushNode (nid page fid : Nat) : FsM Bool := do
  let info ← getPage page
  doIf info.dirty (writeNode nid page fid)
  setNodeCache nid invalidPage
  pagesLens.zoom (free page)
  return info.dirty

/-- Flush the index node in one slot of an inode; the result says whether it was written. -/
def flushIndexNode (ipage slot : Nat) : FsM Bool := do
  let nid := (← getData ipage).node.inode.index slot
  if nid = invalidBlk then return false
  throwIf (nid ≥ nodeNr) .undefined
  let cached := (← get).nat.nodeCache nid
  if cached = invalidPage then return false
  let page ← pagePtr cached
  let info ← getPage page
  throwIf (info.dirty ∧ info.nid ≠ nid)
    (.fs .invalidNid "nid does not match in data (%d) and page (%d)" [nid, info.nid])
  flushNode nid page (← getPage ipage).nid

/-- The loop of `CloseInode` over the index nodes that the file size covers. -/
def flushIndexNodes (ipage lastBlk : Nat) : List Nat → Bool → FsM Bool
  | [], dirty => pure dirty
  | slot :: rest, dirty => do
    if slot * indexSize ≥ lastBlk then return dirty
    let written ← flushIndexNode ipage slot
    flushIndexNodes ipage lastBlk rest (dirty || written)

/-- `CloseInode`: flush or remove a file that is not referenced any more. The result says whether
anything changed on the storage. -/
def closeInode (ipage : Nat) : FsM Bool := do
  let info ← getPage ipage
  throwIf (info.data.blockType ≠ .inode) (.fs .wrongBlockType "data in the page is not an inode" [])
  let ino := info.data.node.nid
  throwIf (info.nid ≠ ino)
    (.fs .invalidNid "nid does not match in data (%d) and page (%d)" [ino, info.nid])
  let inode := info.data.node.inode
  if inode.refCount ≠ 0 then return false
  if inode.nlink = 0 then
    fileRemove ipage
    return true
  else
    let lastBlk := word (getFileBlks inode)
    let dirty ← flushIndexNodes ipage lastBlk (List.range indexTableSize) false
    throwIf (ino ≥ nodeNr) .undefined
    let written ← flushNode ino ipage info.nid
    return dirty || written

end FsChecking.F2fs
