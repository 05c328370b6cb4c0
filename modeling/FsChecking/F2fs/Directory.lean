import FsChecking.F2fs.File

/-!
# Directories

A directory is a file of dentry blocks in levels of 1, 2, 4, 8 blocks; the hash of a name chooses
the block of each level. `FileNameHash` combines characters with a library function, so it is a
parameter.
-/

namespace FsChecking.F2fs

open Lib

/-- `FileNameHash`, a value in a `WORD`. -/
class NameHash where
  /-- The hash of a name. -/
  hash : List Char → Nat

variable [NameHash]

/-- `FileNameHash`. -/
def fileNameHash (name : List Char) : Nat := word (NameHash.hash name)

/-- `DepthFromBlkNr`: the number of binary digits. -/
def depthFromBlkNr (blkNr : Nat) : Nat := if blkNr = 0 then 0 else blkNr.log2 + 1

/-- `strlen` stored in a `WORD`. -/
def nameLen (name : List Char) : Nat := word name.length

/-- The slots that a name takes. -/
def slotNum (name : List Char) : Nat := roundUpDiv (nameLen name) fnSlotLen

/-- The name in an entry is the given one. -/
def nameMatches (block : DentryBlock) (index : Nat) (name : List Char) : Bool :=
  (block.dentries index).ino ≠ invalidBlk ∧ (block.dentries index).hash = fileNameHash name ∧
    (block.dentries index).nameLen = nameLen name ∧
    (List.range (nameLen name)).map (fun place => block.filenames (index * fnSlotLen + place)) =
      name.take (nameLen name)

/-- The loop of `FindFile` over the levels. -/
def findInLevels (parent : Nat) (name : List Char) : Nat → Nat → Nat → FsM Nat
  | 0, _, _ => pure invalidBlk
  | levels + 1, blkNum, blkIndex => do
    match ← readBlock parent (blkIndex + fileNameHash name % blkNum) with
    | none => findInLevels parent name levels (blkNum * 2) (blkIndex + blkNum)
    | some page =>
      let data ← getData page
      let found := if data.blockType = .dentry then
          (List.range dentryPerBlock).find? fun index => nameMatches data.dentry index name
        else none
      pagesLens.zoom (free page)
      match found with
      | some index => return (data.dentry.dentries index).ino
      | none => findInLevels parent name levels (blkNum * 2) (blkIndex + blkNum)

/-- `FindFile`. -/
def findFile (parent : Nat) (name : List Char) : FsM Nat := do
  let blkNr := getFileBlks (← getData parent).node.inode
  if blkNr = 0 then return invalidBlk
  findInLevels parent name (depthFromBlkNr blkNr) 1 0

/-- `AllocateDentryBlock`. -/
def allocateDentryBlock : FsM Nat := do
  let page ← pagesLens.zoom allocate
  modifyData page fun _ =>
    { BlockData.ones with blockType := .dentry, dentry := { DentryBlock.ones with bitmap := 0 } }
  return page

/-- The first free slot from a position on. -/
def firstFree (bitmap : BitVec 32) : Nat → Nat → Nat
  | 0, slot => slot
  | fuel + 1, slot => if bitmap.getLsbD slot then firstFree bitmap fuel (slot + 1) else slot

/-- The first used slot from a position on, or the end of the block. -/
def firstUsed (bitmap : BitVec 32) : Nat → Nat → Nat
  | 0, slot => slot
  | fuel + 1, slot =>
    if bitmap.getLsbD slot = false ∧ slot < dentryPerBlock then firstUsed bitmap fuel (slot + 1)
    else slot

/-- The search of `add_link` for enough free slots in a row; the end of the block or beyond when
there are none. -/
def findRoom (bitmap : BitVec 32) (slots : Nat) : Nat → Nat → Nat
  | 0, start => start
  | fuel + 1, start =>
    let start := firstFree bitmap 32 start
    if start ≥ dentryPerBlock then start
    else
      let stop := firstUsed bitmap dentryPerBlock start
      if stop - start ≥ slots then start else findRoom bitmap slots fuel stop

/-- Where `add_link` puts an entry. -/
structure LinkPlace where
  /-- `dentry_page`. -/
  page : Nat
  /-- `blk_offset`: the block of the directory. -/
  blk : Nat
  /-- `index_start`: the slot in the block. -/
  slot : Nat

/-- The loop of `add_link` over the levels: room in an existing block, or a new block in a hole. -/
def findLinkPlace (parent : Nat) (name : List Char) : Nat → Nat → Nat → FsM (Option LinkPlace)
  | 0, _, _ => pure none
  | levels + 1, blkNum, blkIndex => do
    let blk := blkIndex + fileNameHash name % blkNum
    match ← readBlock parent blk with
    | none => return some { page := ← allocateDentryBlock, blk, slot := 0 }
    | some page =>
      let slot := findRoom (← getData page).dentry.bitmap (slotNum name) (dentryPerBlock + 1) 0
      if slot < dentryPerBlock then return some { page, blk, slot }
      pagesLens.zoom (free page)
      findLinkPlace parent name levels (blkNum * 2) (blkIndex + blkNum)

/-- Add a level to a directory, `none` when it has all levels. The file size covers the level. -/
def addLevel (parent : Nat) (name : List Char) (depth : Nat) : FsM (Option LinkPlace) := do
  if depth + 1 > maxDentryLevel then return none
  let blkNum := 2 ^ depth
  let blk := blkNum - 1 + fileNameHash name % blkNum
  let page ← allocateDentryBlock
  modifyInode parent fun inode => { inode with fileSize := (2 ^ (depth + 1) - 1) * blockSize }
  let parentPage ← pagePtr (← getData parent).node.pageId
  setPageDirty parentPage true
  return some { page, blk, slot := 0 }

/-- Store a name and a node id in a dentry block. `memcpy_s` refuses a name that is too long for
the rest of the block. -/
def fillDentry (block : DentryBlock) (slot : Nat) (name : List Char) (fid : Nat) : DentryBlock :=
  { bitmap := (List.range (slotNum name)).foldl (fun bitmap place => setBit bitmap (slot + place))
      block.bitmap
    filenames := fun place =>
      if slot * fnSlotLen ≤ place ∧ place < (slot + slotNum name) * fnSlotLen then
        name.getD (place - slot * fnSlotLen) (Char.ofNat 0)
      else block.filenames place
    dentries := Function.update block.dentries slot
      { ino := fid, hash := fileNameHash name, nameLen := nameLen name } }

/-- `add_link`. -/
def addLink (parent : Nat) (name : List Char) (fid : Nat) : FsM ErrorCode := do
  let depth := depthFromBlkNr (getFileBlks (← getData parent).node.inode)
  let found ← findLinkPlace parent name depth 1 0
  let place ← match found with
    | some place => pure (some place)
    | none => addLevel parent name depth
  match place with
  | none => return .noSpace
  | some place =>
    throwIf ((dentryPerBlock - place.slot) * fnSlotLen < fnSlotLen * slotNum name) .undefined
    modifyData place.page fun data =>
      { data with dentry := fillDentry data.dentry place.slot name fid }
    let written ← fileWriteInternal parent place.blk (place.blk + 1) [place.page] false
    pagesLens.zoom (free place.page)
    return if written = 0 then .noSpace else .ok

/-- Clear an entry of a dentry block. -/
def clearDentry (block : DentryBlock) (index : Nat) : DentryBlock :=
  let slots := roundUpDiv (block.dentries index).nameLen fnSlotLen
  { bitmap := (List.range slots).foldl (fun bitmap place => clearBit bitmap (index + place))
      block.bitmap
    filenames := fun place =>
      if index * fnSlotLen ≤ place ∧ place < (index + slots) * fnSlotLen then Char.ofNat 0
      else block.filenames place
    dentries := Function.update block.dentries index .ones }

/-- Remove an entry from a dentry block that is in a page: write the block back, or unmap it when
it has become empty. -/
def removeEntry (parent blk page index : Nat) : FsM Unit := do
  modifyData page fun data => { data with dentry := clearDentry data.dentry index }
  setPageDirty page true
  if (← getData page).dentry.bitmap = 0 then fileTruncateInternal parent blk (blk + 1)
  else
    let written ← fileWriteInternal parent blk (blk + 1) [page] true
    throwIf (written = 0) (.fs .deleteDir "no resource when delete link" [])

/-- The loop of `unlink` over the levels; the result says whether the entry was found. -/
def unlinkInLevels (parent : Nat) (name : List Char) (fid : Nat) : Nat → Nat → Nat → FsM Bool
  | 0, _, _ => pure false
  | levels + 1, blkNum, blkIndex => do
    let blk := word (blkIndex + fileNameHash name % blkNum)
    match ← readBlock parent blk with
    | none => unlinkInLevels parent name fid levels (blkNum * 2) (blkIndex + blkNum)
    | some page =>
      let data ← getData page
      let found := if data.blockType = .dentry then
          (List.range dentryPerBlock).find? fun index =>
            nameMatches data.dentry index name ∧ (data.dentry.dentries index).ino = fid
        else none
      match found with
      | some index =>
        removeEntry parent blk page index
        pagesLens.zoom (free page)
        return true
      | none =>
        pagesLens.zoom (free page)
        unlinkInLevels parent name fid levels (blkNum * 2) (blkIndex + blkNum)

/-- `unlink`. -/
def unlink (fid : Nat) (name : List Char) (parent : Nat) : FsM Unit := do
  let depth := depthFromBlkNr (getFileBlks (← getData parent).node.inode)
  let found ← unlinkInLevels parent name fid depth 1 0
  throwIf (found = false) (.app "cannot find fid:%d in parent" [fid])
  syncFs

/-- The entries of one block of a directory that are in use. -/
def countChildren (inode blk : Nat) : FsM Nat := do
  match ← readBlock inode blk with
  | none => return 0
  | some page =>
    let entries := (← getData page).dentry
    pagesLens.zoom (free page)
    return (List.range dentryPerBlock).countP fun index => (entries.dentries index).ino ≠ invalidBlk

/-- `GetChildNumber`. -/
def getChildNumber (inode : Nat) : FsM Nat := do
  let blkNr := getFileBlks (← getData inode).node.inode
  (List.range blkNr).foldlM (fun child blk => return child + (← countChildren inode blk)) 0

/-- The components of a path, as `strtok_s` with a backslash returns them. -/
def pathTokens (path : List Char) : List (List Char) :=
  (path.splitOn '\\').filter (· ≠ [])

/-- `SplitPath`: the parent and the name after the last backslash; `none` without a backslash. -/
def splitPath (path : List Char) : Option (List Char × List Char) :=
  if '\\' ∈ path then
    let name := (path.reverse.takeWhile (· ≠ '\\')).reverse
    some (path.take (path.length - name.length - 1), name)
  else none

/-- What `FileOpenInternal` returns. -/
structure Opened where
  /-- The node id, `INVALID_BLK` when the path does not exist. -/
  fid : Nat
  /-- `parent_inode`: the page of the directory that was searched last. -/
  parent : Nat
  /-- `file_name`: the last component, none for the root. -/
  name : Option (List Char)

/-- The loop of `FileOpenInternal`. -/
def openPath (parent : Nat) : List Char → List (List Char) → FsM Opened
  | dir, [] => do
    let fid ← findFile parent dir
    return { fid, parent, name := if fid = invalidBlk then none else some dir }
  | dir, next :: rest => do
    let fid ← findFile parent dir
    if fid = invalidBlk then return { fid, parent, name := none }
    let _ ← closeInode parent
    let parent ← readNode fid
    openPath parent next rest

/-- `FileOpenInternal`. -/
def fileOpenInternal (path : List Char) : FsM Opened := do
  let root ← readNode rootFid
  match pathTokens path with
  | [] => return { fid := rootFid, parent := root, name := none }
  | dir :: rest => openPath root dir rest

end FsChecking.F2fs
