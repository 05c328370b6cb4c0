import FsChecking.Config
import FsChecking.Lib.Chain
import FsChecking.Lib.Program
import Mathlib.Data.Char
import Mathlib.Data.List.Lex
import Mathlib.Data.List.Sort

/-!
# The reference file system

`CReferenceFs`: an array of files with two intrusive lists, a tree of indices, and a code of the
tree that is cached in every node. A program may throw; what it has changed until then stays.
-/

namespace FsChecking.RefFs

open Lib

/-- `MAX_FILE_NUM`. -/
abbrev maxFileNum : Nat := 256
/-- `MAX_CHILD_NUM`. -/
abbrev maxChildNum : Nat := 64
/-- `MAX_ENCODE_SIZE`. -/
abbrev maxEncodeSize : Nat := maxFileNum * 2
/-- `MAX_FILE_VERSION`. -/
abbrev maxFileVersion : Nat := 2
/-- `SCALE`. -/
abbrev scale : Nat := mainBlkNr / 10
/-- `INT_MAX`. -/
abbrev intMax : Nat := 2 ^ 31 - 1
/-- `INVALID_BLK` stored in a `UINT`. -/
abbrev invalidIndex : Nat := 0xFFFFFFFF
/-- `INVALID_BLK` stored in a `_NID`. -/
abbrev invalidNid : Nat := 0xFFFF

/-- A C string, without its terminator. -/
abbrev Text : Type := List Char

/-- How a program of the reference file system ends early. -/
inductive Fault where
  /-- It throws an exception. -/
  | thrown
  /-- A bounds-checked string function ends the process. -/
  | abort
  /-- It reads or writes outside an array, or it does not end. -/
  | undefined
  deriving DecidableEq

/-- `CRefFile`. -/
structure RefFile where
  /-- `size`: the length of a file, the number of children of a directory. -/
  size : Nat
  /-- `next`. -/
  next : Nat
  /-- `m_fn`. -/
  fn : Text
  /-- `m_encode`, with what earlier codes have left behind. -/
  encode : Text
  /-- `m_encode_size`. -/
  encodeSize : Nat
  /-- `m_children`. -/
  children : List Nat
  /-- `m_parent`. -/
  parent : Nat
  /-- `m_depth`. -/
  depth : Nat
  /-- `m_ver`. -/
  ver : Nat
  /-- `fid`. -/
  fid : Nat
  /-- `m_is_open`. -/
  isOpen : Bool
  /-- `m_is_dir`. -/
  isDir : Bool

/-- `CReferenceFs`. -/
structure ReferenceFs where
  /-- `m_files`. -/
  files : Nat → RefFile
  /-- `m_free_list`. -/
  freeList : Nat
  /-- `m_used_list`. -/
  usedList : Nat
  /-- `m_free_num`. -/
  freeNum : Nat
  /-- `m_opened`. -/
  opened : Nat
  /-- `m_file_num`. -/
  fileNum : Nat
  /-- `m_dir_num`. -/
  dirNum : Nat
  /-- `m_reset_count`. -/
  resetCount : Nat

/-- A program of the reference file system. -/
abbrev Program (α : Type) : Type := EStateM Fault ReferenceFs α

/-- A pointer that is stored as an index. -/
def pointer (index : Nat) : Option Nat := if index = invalidIndex then none else some index

namespace RefFile

/-- A file whose memory is zero. -/
def zero : RefFile where
  size := 0
  next := 0
  fn := []
  encode := List.replicate maxEncodeSize '\x00'
  encodeSize := 0
  children := List.replicate maxChildNum 0
  parent := 0
  depth := 0
  ver := 0
  fid := 0
  isOpen := false
  isDir := false

/-- The children that a directory counts. -/
def kids (file : RefFile) : List Nat := file.children.take file.size

/-- The code of the tree below a file. -/
def code (file : RefFile) : Text := file.encode.take file.encodeSize

/-- What `strcmp` sees of `m_encode`. -/
def sortKey (file : RefFile) : Text := file.encode.takeWhile (· ≠ '\x00')

/-- Overwrite the beginning of `m_encode`. -/
def setCode (file : RefFile) (text : Text) : RefFile :=
  { file with encode := text ++ file.encode.drop text.length, encodeSize := text.length }

/-- Overwrite the beginning of `m_encode`, with a terminator, as `sprintf_s` does. -/
def printCode (file : RefFile) (text : Text) : RefFile :=
  { file with
    encode := text ++ '\x00' :: file.encode.drop (text.length + 1), encodeSize := text.length }

/-- The part of the code that says how long a file is. -/
def version (file : RefFile) : Nat := dword (file.size + blockSize - 1) / blockSize / scale

/-- The code of a file that is not a directory. -/
def label (file : RefFile) : Text :=
  if file.isOpen then '(' :: Nat.toDigits 10 file.version ++ ['#', ')']
  else '(' :: Nat.toDigits 10 file.version ++ [')']

end RefFile

namespace ReferenceFs

variable (fs : ReferenceFs)

/-- Replace one file. -/
def setFile (index : Nat) (file : RefFile) : ReferenceFs :=
  { fs with files := Function.update fs.files index file }

/-- The successor of a file in its list. -/
def link (index : Nat) : Option Nat := pointer (fs.files index).next

/-- The used list. -/
def usedFiles : List Nat := walk fs.link maxFileNum (pointer fs.usedList)

/-- The free list. -/
def freeFiles : List Nat := walk fs.link maxFileNum (pointer fs.freeList)

/-- `FindFileIndex`. -/
def findFileIndex (path : Text) : Option Nat :=
  fs.usedFiles.find? fun index => (fs.files index).fn = path

/-- `CompareEncode`, as an order of the children. -/
def Before (first second : Nat) : Prop := (fs.files first).sortKey ≤ (fs.files second).sortKey

instance (first second : Nat) : Decidable (fs.Before first second) :=
  inferInstanceAs (Decidable (_ ≤ _))

/-- Append the codes of children, as far as they fit into `m_encode`. -/
def appendCodes : List Nat → Text → Except Text Text
  | [], text => .ok text
  | child :: rest, text =>
    let code := (fs.files child).code
    if maxEncodeSize ≤ text.length + code.length then .error text
    else appendCodes rest (text ++ code)

/-- `Initialize`: the root, and all other files in the free list. -/
def initialized : ReferenceFs :=
  { fs with
    files := fun index =>
      if index = 0 then
        { RefFile.zero.printCode ['[', ']'] with
          next := invalidIndex, fn := ['\\'], parent := invalidIndex, isDir := true }
      else if index + 1 = maxFileNum then
        { RefFile.zero with next := invalidIndex, fid := invalidNid }
      else { RefFile.zero with next := index + 1, fid := invalidNid }
    usedList := 0
    freeList := 1
    freeNum := maxFileNum - 1
    dirNum := 1
    resetCount := 0 }

/-- `Demount`. -/
def demount : ReferenceFs :=
  { fs with
    files := fun index =>
      if index < maxFileNum ∧ (fs.files index).fid ≠ invalidNid then
        { fs.files index with isOpen := false }
      else fs.files index
    resetCount :=
      if fs.resetCount < maxFileVersion then fs.resetCount + 1 else fs.resetCount
    opened := 0 }

end ReferenceFs

/-- The path of the parent: what stands before the last separator, or the root. -/
def parentPath (path : Text) : Option Text :=
  match path.reverse.dropWhile (· ≠ '\\') with
  | [] => none
  | _ :: front => if front = [] then some ['\\'] else some front.reverse

/-- Add one to a `UINT`. -/
def increment (counter : Nat) : Nat := dword (counter + 1)

/-- Subtract one from a `UINT`. -/
def decrement (counter : Nat) : Nat := if counter = 0 then 0xFFFFFFFF else counter - 1

/-- `UpdateEncode` on one file. Children with equal codes keep their order here; `qsort_s` does not say
how it orders them, and their parent's code does not depend on it. -/
def refresh (index : Nat) : Program Unit := do
  let fs ← get
  let file := fs.files index
  if file.isDir then
    throwIf (file.children.length < file.size) .undefined
    let sorted := file.kids.insertionSort fs.Before
    let file := { file with children := sorted ++ file.children.drop file.size }
    match fs.appendCodes sorted ['['] with
    | .ok text => set (fs.setFile index (file.setCode (text ++ [']'])))
    | .error text =>
      set (fs.setFile index (file.setCode text))
      throw .thrown
  else
    set (fs.setFile index (file.printCode file.label))

/-- `UpdateEncode`, for a number of ancestors. -/
def updateEncodeWithin : Nat → Nat → Program Unit
  | 0, _ => throw .undefined
  | fuel + 1, index => do
    refresh index
    let fs ← get
    let parent := (fs.files index).parent
    if maxFileNum < parent then pure () else updateEncodeWithin fuel parent

/-- `UpdateEncode`. -/
def updateEncode (index : Nat) : Program Unit := updateEncodeWithin (maxFileNum + 1) index

/-- `get_file`. -/
def getFile : Program Nat := do
  let fs ← get
  let index := fs.freeList
  let file := fs.files index
  set { fs.setFile index { file with next := fs.usedList } with
    freeList := file.next, freeNum := fs.freeNum - 1, usedList := index }
  return index

/-- `put_file`. -/
def putFile (index : Nat) : Program Unit := do
  let fs ← get
  let file := fs.files index
  if fs.usedList = index then
    set { fs with usedList := file.next }
  else
    -- The file in front of this one in the used list.
    match fs.usedFiles.find? fun before => (fs.files before).next = index with
    | none => throw .thrown
    | some before => set (fs.setFile before { fs.files before with next := file.next })
  modify fun fs =>
    { fs.setFile index { RefFile.zero with next := fs.freeList, fid := invalidNid } with
      freeList := index, freeNum := fs.freeNum + 1 }

/-- `InitFile` under a parent. -/
def initFile (file : RefFile) (parentId depth : Nat) (path : Text) (isDir : Bool) (fid : Nat) :
    RefFile :=
  { file.printCode (if isDir then ['[', ']'] else ['(', '0', ')']) with
    parent := parentId
    fid := fid
    fn := path
    size := 0
    isOpen := false
    isDir := isDir
    ver := 0
    depth := depth + 1
    children := List.replicate maxChildNum 0 }

/-- `AddPath`: the index of the new file, or null. -/
def addPath (path : Text) (isDir : Bool) (fid : Nat) : Program (Option Nat) := do
  let fs ← get
  if fs.freeNum = 0 then return none
  throwIf (maxPathSize < path.length) .abort
  match parentPath path with
  | none => throw .thrown
  | some parentFn =>
    let parentId := fs.findFileIndex parentFn
    let objId ← getFile
    match parentId with
    | none => throw .thrown
    | some parentId =>
      throwIf (parentId = objId) .thrown
      let fs ← get
      throwIf ((fs.files parentId).isDir = false) .thrown
      let fs := fs.setFile objId
        (initFile (fs.files objId) parentId (fs.files parentId).depth path isDir fid)
      let parent := fs.files parentId
      throwIf (maxChildNum ≤ parent.size) .undefined
      let fs := fs.setFile parentId
        { parent with children := parent.children.set parent.size objId, size := parent.size + 1 }
      set (if isDir then { fs with dirNum := increment fs.dirNum }
        else { fs with fileNum := increment fs.fileNum })
      updateEncode parentId
      return some objId

/-- `UpdateFile` on a file. -/
def updateFile (index : Nat) (len : Nat) : Program Unit := do
  throwIf (intMax < len) .thrown
  modify fun fs =>
    fs.setFile index { fs.files index with size := len, ver := (fs.files index).ver + 1 }
  updateEncode index

/-- `UpdateFile` on a path. -/
def updatePath (path : Text) (len : Nat) : Program Unit := do
  let fs ← get
  match fs.findFileIndex path with
  | none => throw .thrown
  | some index =>
    throwIf ((fs.files index).isDir = true) .thrown
    updateFile index len

/-- `OpenFile`. -/
def openFile (index : Nat) : Program Unit := do
  let fs ← get
  throwIf ((fs.files index).isOpen = true) .thrown
  throwIf ((fs.files index).isDir = true) .thrown
  set (fs.setFile index { fs.files index with isOpen := true })
  updateEncode index
  modify fun fs => { fs with opened := increment fs.opened }

/-- `CloseFile`. -/
def closeFile (index : Nat) : Program Unit := do
  let fs ← get
  throwIf ((fs.files index).isOpen = false) .thrown
  set (fs.setFile index { fs.files index with isOpen := false })
  updateEncode index
  modify fun fs => { fs with opened := decrement fs.opened }

/-- `RemoveChild`. -/
def removeChild (parentId child : Nat) : Program Unit := do
  let fs ← get
  let parent := fs.files parentId
  match parent.kids.findIdx? (· = child) with
  | none => throw .thrown
  | some position =>
    let last := parent.size - 1
    set (fs.setFile parentId
      { parent with
        size := last
        children := (parent.children.set position (parent.children.getD last 0)).set last 0 })

/-- `RemoveFile`. -/
def removeFile (path : Text) : Program Unit := do
  let fs ← get
  match fs.findFileIndex path with
  | none => throw .thrown
  | some objId =>
    let obj := fs.files objId
    throwIf (maxFileNum ≤ obj.parent) .undefined
    removeChild obj.parent objId
    modify fun fs =>
      if obj.isDir then { fs with dirNum := decrement fs.dirNum }
      else { fs with fileNum := decrement fs.fileNum }
    updateEncode obj.parent
    putFile objId

/-- A path is another one, or lies below it. -/
def Below (src path : Text) : Prop :=
  src <+: path ∧ ((path.drop src.length).head? = none ∨ (path.drop src.length).head? = some '\\')

instance (src path : Text) : Decidable (Below src path) := inferInstanceAs (Decidable (_ ∧ _))

/-- The path after a move. -/
def moved (src dst path : Text) : Text :=
  if Below src path then dst ++ path.drop src.length else path

/-- `MoveFile`. -/
def moveFile (src dst : Text) : Program Unit := do
  let fs ← get
  let used := fs.usedFiles
  throwIf (∃ index ∈ used, Below src (fs.files index).fn ∧
    maxPathSize < (moved src dst (fs.files index).fn).length) .abort
  set { fs with
    files := fun index =>
      if index ∈ used then
        { fs.files index with fn := moved src dst (fs.files index).fn }
      else fs.files index }
  -- `tar_file` is the last file of the list with the path.
  match (used.filter fun index => (fs.files index).fn = src).getLast? with
  | none => throw .thrown
  | some target =>
    let parentId := (fs.files target).parent
    throwIf (maxFileNum ≤ parentId) .undefined
    modify fun fs =>
      let parent := fs.files parentId
      fs.setFile parentId
        { parent with ver := if parent.ver < maxFileVersion then parent.ver + 1 else parent.ver }
    updateEncode parentId

/-- The calls that change a reference file system. -/
inductive Call where
  /-- `AddPath`. -/
  | addPath (path : Text) (isDir : Bool) (fid : Nat)
  /-- `RemoveFile`. -/
  | removeFile (path : Text)
  /-- `MoveFile`. -/
  | moveFile (src dst : Text)
  /-- `UpdateFile` with a path. -/
  | updatePath (path : Text) (len : Nat)
  /-- `UpdateFile` with a file. -/
  | updateFile (index len : Nat)
  /-- `OpenFile`. -/
  | openFile (index : Nat)
  /-- `CloseFile`. -/
  | closeFile (index : Nat)
  /-- `Demount`. -/
  | demount
  deriving DecidableEq

/-- What a call that does not throw returns. -/
inductive Reply where
  /-- The call has been carried out. -/
  | done
  /-- `AddPath` returns null. -/
  | null
  deriving DecidableEq

/-- Carry out a call. -/
def Call.run : Call → Program Reply
  | .addPath path isDir fid => do
    let added ← RefFs.addPath path isDir fid
    return if added = none then .null else .done
  | .removeFile path => do
    RefFs.removeFile path
    return .done
  | .moveFile src dst => do
    RefFs.moveFile src dst
    return .done
  | .updatePath path len => do
    RefFs.updatePath path len
    return .done
  | .updateFile index len => do
    RefFs.updateFile index len
    return .done
  | .openFile index => do
    RefFs.openFile index
    return .done
  | .closeFile index => do
    RefFs.closeFile index
    return .done
  | .demount => do
    modify ReferenceFs.demount
    return .done

/-- The states after calls that return or throw. -/
inductive Run (allowed : ReferenceFs → Call → Prop) (first : ReferenceFs) : ReferenceFs → Prop where
  /-- No call. -/
  | start : Run allowed first first
  /-- A call that returns. -/
  | returns {fs next : ReferenceFs} {reply : Reply} (call : Call) (before : Run allowed first fs)
      (fine : allowed fs call) (does : call.run fs = .ok reply next) : Run allowed first next
  /-- A call that throws. -/
  | throws {fs next : ReferenceFs} (call : Call) (before : Run allowed first fs)
      (fine : allowed fs call) (does : call.run fs = .error .thrown next) : Run allowed first next

end FsChecking.RefFs
