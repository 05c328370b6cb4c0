import FsChecking.F2fs.Directory

/-!
# Public operations of the simulator

The operations of `IFsSimulator` on files and directories. Paths are copied to a buffer of
`MAX_PATH_SIZE + 1` characters first; a longer path breaks the contract of `strcpy_s`.
-/

namespace FsChecking.F2fs

open Lib

variable [NameHash]

/-- `strcpy_s(full_path, fn)`. -/
def copyPath (path : List Char) : FsM Unit :=
  if path.length > maxPathSize then throw .undefined else pure ()

/-- The new file of `InternalCreatreFile`, linked and written; its page and node id. -/
def createIn (parent : Nat) (name : List Char) (fileType : FileType) :
    FsM (Except ErrorCode (Nat × Nat)) := do
  let page ← pagesLens.zoom allocate
  if ← initInode page fileType then
    let fid := (← getData page).node.nid
    let ir ← addLink parent name fid
    if ir ≠ .ok then
      let _ ← closeInode parent
      putNode fid
      pagesLens.zoom (free page)
      return .error ir
    modifyInode page fun inode => { inode with nlink := dword (inode.nlink + 1) }
    let phyBlk ← updateInode page
    if phyBlk = invalidBlk then
      let _ ← closeInode parent
      pagesLens.zoom (free page)
      putNode fid
      return .error .noSpace
    natLens.zoom (setPhyBlk fid phyBlk)
    setNodeCache fid page
    modifyInode page fun inode => { inode with refCount := dword (inode.refCount + 1) }
    let _ ← closeInode parent
    syncFs
    return .ok (page, fid)
  else
    let _ ← closeInode parent
    pagesLens.zoom (free page)
    return .error .noSpace

/-- `InternalCreatreFile`. -/
def internalCreatreFile (path : List Char) (fileType : FileType) :
    FsM (Except ErrorCode (Nat × Nat)) := do
  -- without a backslash the name stays a null pointer
  let (directory, name) := (splitPath path).getD (path, [])
  let opened ← fileOpenInternal directory
  let _ ← closeInode opened.parent
  if opened.fid = invalidBlk then return .error .parentNotExist
  let parent ← readNode opened.fid
  throwIf ((splitPath path).isNone) .undefined
  if (← findFile parent name) ≠ invalidBlk then return .error .createExist
  createIn parent name fileType

/-- `FindOpenFile`. -/
def findOpenFile (fid : Nat) : FsM (Option Nat) := do
  let fs ← get
  return (List.range maxOpenFile).find? fun index => (fs.openFiles index).ino = fid

/-- `AddFileToOpenList`. -/
def addFileToOpenList (fid page : Nat) : FsM Unit := do
  let fs ← get
  let index := fs.freePtr
  throwIf (index ≥ maxOpenFile) .undefined
  set { fs with
    freePtr := (fs.openFiles index).ipage
    openFiles := Function.update fs.openFiles index { ino := fid, ipage := page }
    openNr := fs.openNr + 1 }

/-- `FileCreate`: the new file's id. -/
def fileCreate (path : List Char) : FsM (Except ErrorCode Nat) := do
  copyPath path
  if (← get).openNr ≥ maxOpenFile then return .error .maxOpenFile
  match ← internalCreatreFile path .reg with
  | .error code => return .error code
  | .ok (page, fid) =>
    if fid = invalidBlk then return .error .create
    addFileToOpenList fid page
    return .ok fid

/-- `DirCreate`: the new directory's id. -/
def dirCreate (path : List Char) : FsM (Except ErrorCode Nat) := do
  copyPath path
  match ← internalCreatreFile path .dir with
  | .error code => return .error code
  | .ok (page, fid) =>
    if fid = invalidBlk then return .error .create
    modifyInode page fun inode => { inode with refCount := dword (inode.refCount + (2 ^ 32 - 1)) }
    let _ ← closeInode page
    return .ok fid

/-- `FileOpen`: the file's id. -/
def fileOpen (path : List Char) : FsM (Except ErrorCode Nat) := do
  copyPath path
  let opened ← fileOpenInternal path
  let _ ← closeInode opened.parent
  if opened.fid = invalidBlk then return .error .openFile
  let page ← match ← findOpenFile opened.fid with
    | some index => do
      let page ← pagePtr ((← get).openFiles index).ipage
      pure (some page)
    | none => do
      if (← get).openNr ≥ maxOpenFile then pure none
      else
        let page ← readNode opened.fid
        addFileToOpenList opened.fid page
        pure (some page)
  match page with
  | none => return .error .maxOpenFile
  | some page =>
    modifyInode page fun inode => { inode with refCount := dword (inode.refCount + 1) }
    return .ok opened.fid

/-- `FileClose`. -/
def fileClose (fid : Nat) : FsM Unit := do
  match ← findOpenFile fid with
  | none => throw (.fs .openFile "file fid=%d is not opened" [fid])
  | some index =>
    let ipage ← pagePtr ((← get).openFiles index).ipage
    throwIf ((← getData ipage).node.inode.refCount = 0)
      (.fs .openFile "file's refrence == 0, fid=%d" [fid])
    modifyInode ipage fun inode => { inode with refCount := inode.refCount - 1 }
    doIf ((← getData ipage).node.inode.refCount = 0) do
      modify fun fs =>
        { fs with
          openFiles := Function.update fs.openFiles index { ino := invalidBlk, ipage := fs.freePtr }
          freePtr := index
          openNr := fs.openNr - 1 }
      doIf (← closeInode ipage) syncFs

/-- The inode page of an open file, or the exception for a file that is not open. -/
def openPage (fid : Nat) : FsM Nat := do
  match ← findOpenFile fid with
  | none => throw (.user "file fid=%d is not opened" [fid])
  | some index => pagePtr ((← get).openFiles index).ipage

/-- `OffsetToBlock`: the first block and the block after the last, both in a `WORD`. -/
def offsetToBlock (offset len : Nat) : Nat × Nat :=
  (word (offset / blockSize), word (roundUpDiv (dword (offset + len)) blockSize))

/-- `MaxFileSize` in blocks. -/
abbrev maxFileSize : Nat := maxFileBlks - 10

/-- A page with the stamp of one block of a file. -/
def stampPage (fid blk : Nat) : FsM Nat := do
  let page ← pagesLens.zoom allocate
  modifyData page fun data =>
    { data with blockType := .fileData, file := { fid, offset := blk } }
  return page

/-- `FileWrite`: the number of bytes written. -/
def fileWrite (fid offset len : Nat) : FsM Nat := do
  let ipage ← openPage fid
  let (startBlk, endBlk) := offsetToBlock offset len
  if endBlk > maxFileSize then return 0
  let pages ← ((List.range (endBlk - startBlk)).map (startBlk + ·)).mapM (stampPage fid)
  -- the pages to free are counted modulo 2^32
  throwIf (endBlk < startBlk) .undefined
  let written ← fileWriteInternal ipage startBlk endBlk pages false
  pages.forM fun page => pagesLens.zoom (free page)
  if written = 0 then return 0
  let endPos := if startBlk + written < endBlk then (startBlk + written) * blockSize
    else dword (offset + len)
  modifyInode ipage fun inode => { inode with fileSize := max inode.fileSize endPos }
  setPageDirty ipage true
  return dword (endPos + (2 ^ 32 - offset))

/-- Copy the stamp out of a page and release it; a hole reads as all bits set. -/
def takeStamp : Option Nat → FsM FileData
  | none => pure { fid := invalidBlk, offset := invalidBlk }
  | some page => do
    let stamp := (← getData page).file
    pagesLens.zoom (free page)
    return stamp

/-- `FileRead`: the stamps of the blocks read. -/
def fileRead (fid offset secs : Nat) : FsM (List FileData) := do
  let ipage ← openPage fid
  let fileSize := (← getData ipage).node.inode.fileSize
  let endSecs := dword (offset + secs)
  let secs := if endSecs > fileSize then dword (fileSize + (2 ^ 32 - dword offset)) else secs
  let (startBlk, endBlk) := offsetToBlock offset secs
  -- the array of pages has `MAX_FILE_BLKS` places
  throwIf (endBlk < startBlk ∨ endBlk - startBlk > maxFileBlks) .undefined
  let pages ← fileReadInternal ipage startBlk endBlk
  pages.mapM takeStamp

/-- `FileTruncate`. -/
def fileTruncate (fid offset len : Nat) : FsM Unit := do
  let ipage ← openPage fid
  let fileSize := (← getData ipage).node.inode.fileSize
  let endPos := min (dword (offset + len)) fileSize
  let len :=
    if dword (offset + len) > fileSize then dword (endPos + (2 ^ 32 - dword offset)) else len
  let (startBlk, endBlk) := offsetToBlock offset len
  fileTruncateInternal ipage startBlk endBlk
  doIf (endPos = (← getData ipage).node.inode.fileSize) do
    modifyInode ipage fun inode => { inode with fileSize := offset }
    setPageDirty ipage true

/-- The part of deletion that file and directory share: unlink the name, then drop the inode if
nothing else refers to it. -/
def removeLink (opened : Opened) (ipage : Nat) : FsM Unit := do
  match opened.name with
  | none => throw (.app "[err] wrong file name in the path=%S" [])
  | some name =>
    unlink opened.fid name opened.parent
    modifyInode ipage fun inode => { inode with nlink := dword (inode.nlink + (2 ^ 32 - 1)) }
    let _ ← closeInode ipage
    let _ ← closeInode opened.parent

/-- `FileDelete`. -/
def fileDelete (path : List Char) : FsM Unit := do
  copyPath path
  let opened ← fileOpenInternal path
  if opened.fid = invalidBlk then
    let _ ← closeInode opened.parent
    throw (.fs .deleteFile "[err] file %S is not existing" [])
  let ipage ← readNode opened.fid
  removeLink opened ipage

/-- `DirDelete`. -/
def dirDelete (path : List Char) : FsM ErrorCode := do
  copyPath path
  let opened ← fileOpenInternal path
  if opened.fid = invalidBlk then
    let _ ← closeInode opened.parent
    throw (.fs .deleteDir "[err] dir %S is not existing" [])
  let ipage ← readNode opened.fid
  if (← getChildNumber ipage) > 0 then
    let _ ← closeInode ipage
    let _ ← closeInode opened.parent
    return .nonEmpty
  removeLink opened ipage
  return .ok

/-- `FileMove` once the source is found. -/
def moveTo (source : Opened) (dst : List Char) : FsM ErrorCode := do
  match splitPath dst with
  | none =>
    let _ ← closeInode source.parent
    return .wrongPath
  | some (directory, name) =>
    let target ← fileOpenInternal directory
    let _ ← closeInode target.parent
    if target.fid = invalidBlk then
      let _ ← closeInode source.parent
      return .parentNotExist
    let parent ← readNode target.fid
    if (← findFile parent name) ≠ invalidBlk then
      let _ ← closeInode source.parent
      return .createExist
    let ir ← addLink parent name source.fid
    if ir ≠ .ok then
      let _ ← closeInode source.parent
      return ir
    match source.name with
    | none => throw (.app "[err] wrong file name in the path=%S" [])
    | some sourceName =>
      unlink source.fid sourceName source.parent
      let _ ← closeInode source.parent
      return .ok

/-- `FileMove`. -/
def fileMove (src dst : List Char) : FsM ErrorCode := do
  copyPath src
  let source ← fileOpenInternal src
  if source.fid = invalidBlk then return .parentNotExist
  copyPath dst
  moveTo source dst

/-- `ForceClose`. -/
def forceClose (index : Nat) : FsM Unit := do
  let ipage ← pagePtr ((← get).openFiles index).ipage
  modifyInode ipage fun inode => { inode with refCount := 0 }
  let _ ← closeInode ipage

/-- `Unmount`. -/
def unmount : FsM Unit := do
  (List.range maxOpenFile).forM fun index => do
    doIf (((← get).openFiles index).ino ≠ invalidBlk) (forceClose index)
  syncFs

/-- `GetFileSize`. -/
def getFileSize (fid : Nat) : FsM Nat := do
  match ← findOpenFile fid with
  | none => throw (.fs .openFile "file fid=%d is not opened" [fid])
  | some index =>
    let ipage ← pagePtr ((← get).openFiles index).ipage
    return (← getData ipage).node.inode.fileSize

/-- A simulator that was formatted and shut down with one file of two blocks in its root directory;
every name hashes to zero. -/
def Fs.populated : Fs :=
  finalState ((do
    let _ ← @fileCreate ⟨fun _ => 0⟩ ['\\', 'a']
    let _ ← fileWrite 1 0 1024
    fileClose 1
    unmount
    reset 0 : FsM Unit) .formatted)

end FsChecking.F2fs
