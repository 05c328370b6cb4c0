import FsChecking.Config
import FsChecking.Lib.Program
import Mathlib.Data.List.Lex
import Mathlib.Data.List.Perm.Basic
import Mathlib.Logic.Function.Basic

/-!
# The reference of the depth-first tester

`CReferenceFs` of the tester library: a map from paths to an array of files. The free files form a
list through their checksums; the checksum of a directory counts its entries.
-/

namespace FsChecking.FullTester

open Lib

/-- `MAX_PATH_SIZE`. -/
abbrev maxPathSize : Nat := 31
/-- `MAX_FILE_NUM`. -/
abbrev maxFileNum : Nat := 100
/-- The values of an `int`. -/
abbrev intLimit : Nat := 2 ^ 31

/-- A path. -/
abbrev Path : Type := List Char

/-- How a call ends without returning. -/
inductive Fault where
  /-- It throws an exception. -/
  | thrown (message : String)
  /-- A bounds-checked string function ends the process. -/
  | abort
  /-- It leaves an array or follows a null pointer. -/
  | undefined
  deriving DecidableEq

/-! ## Paths -/

/-- `find_last_of(L"\\")`. -/
def findLastOf (path : Path) : Option Nat :=
  let name := path.reverse.takeWhile (· ≠ '\\')
  if name.length = path.length then none else some (path.length - 1 - name.length)

/-- The parent of a path, as `AddPath` computes it. Without a backslash the constructor of the string
throws. -/
def parentPath (path : Path) : Option Path :=
  match findLastOf path with
  | none => none
  | some 0 => some ['\\']
  | some pos => some (path.take pos)

/-- The path of a name in a directory. -/
def childPath (path name : Path) : Path :=
  if path.length > 1 then path ++ '\\' :: name else path ++ name

/-- A path to start from: the root of the current drive, a drive or a directory. -/
def ValidRoot (root : Path) : Prop := root = ['\\'] ∨ 1 < root.length

/-- The last backslash stands before the name. -/
theorem findLastOf_append {path name : Path} (plain : '\\' ∉ name) :
    findLastOf (path ++ '\\' :: name) = some path.length := by
  have name_ : (path ++ '\\' :: name).reverse.takeWhile (· ≠ '\\') = name.reverse := by
    have all : ∀ letter ∈ name.reverse, decide (letter ≠ '\\') = true := by
      intro letter member
      rw [decide_eq_true_iff]
      rintro rfl
      exact plain (List.mem_reverse.mp member)
    rw [List.reverse_append, List.reverse_cons, List.append_assoc,
      List.takeWhile_append_of_pos all]
    simp
  unfold findLastOf
  rw [name_]
  simp only [List.length_append, List.length_cons, List.length_reverse]
  rw [if_neg (by omega)]
  congr 1
  omega

/-- The parent of a name in a directory is the directory. -/
theorem parentPath_childPath {path name : Path} (valid : ValidRoot path) (plain : '\\' ∉ name) :
    parentPath (childPath path name) = some path := by
  unfold childPath parentPath
  by_cases long : path.length > 1
  · rw [if_pos long, findLastOf_append plain]
    split
    · rename_i none
      cases none
    · rename_i first
      have none := Option.some.inj first
      omega
    · rename_i pos _ found
      rw [← Option.some.inj found, List.take_left]
  · rw [if_neg long]
    rcases valid with rfl | long'
    · have whole : findLastOf ([] ++ '\\' :: _) = _ := findLastOf_append plain
      rw [List.nil_append] at whole
      rw [List.singleton_append, whole]
      rfl
    · exact absurd long' long

/-! ## Files -/

/-- `CRefFile`. -/
structure RefFile where
  /-- `m_size`: negative for a directory. -/
  size : Int
  /-- `m_checksum`. -/
  checksum : Nat
  /-- `m_fn`. -/
  fn : Path

/-- `CReferenceFs`. -/
structure ReferenceFs where
  /-- `m_ref`, in the order of its keys. -/
  ref : List (Path × Nat)
  /-- `m_files`. -/
  files : Nat → RefFile
  /-- `m_free_list`. -/
  freeList : Nat
  /-- `m_free_num`. -/
  freeNum : Nat

/-- A program on a reference. The exception of a throwing call leaves the reference as it is by then. -/
abbrev Program (α : Type) : Type := EStateM Fault ReferenceFs α

/-- `IsDir`. -/
def RefFile.isDir (file : RefFile) : Bool := file.size < 0

/-- `insert` of a map, which keeps an entry that is there. -/
def insertKey : List (Path × Nat) → Path → Nat → List (Path × Nat)
  | [], path, index => [(path, index)]
  | (other, old) :: rest, path, index =>
    if path = other then (other, old) :: rest
    else if path < other then (path, index) :: (other, old) :: rest
    else (other, old) :: insertKey rest path index

/-- `erase` of a map. -/
def eraseKey (ref : List (Path × Nat)) (path : Path) : List (Path × Nat) :=
  ref.filter fun entry => entry.1 ≠ path

namespace ReferenceFs

/-- A reference before `Initialize`. -/
def empty : ReferenceFs :=
  { ref := [], files := fun _ => { size := 0, checksum := 0, fn := [] }, freeList := 0, freeNum := 0 }

/-- The reference that `Initialize` leaves, with the bits of a `size_t`. -/
def initialized (ref : ReferenceFs) (bits : Nat) (root : Path) : ReferenceFs :=
  { ref := insertKey ref.ref root 0
    files := fun index =>
      if index = 0 then { size := -1, checksum := 0, fn := root }
      else { size := 0, checksum := if index = maxFileNum - 1 then 0 else index + 1, fn := [] }
    freeList := 1
    freeNum := maxFileNum % 2 ^ bits }

/-- `FindFileIndex`. -/
def findFileIndex (ref : ReferenceFs) (path : Path) : Option Nat := ref.ref.lookup path

/-- Change one file. -/
def setFile (ref : ReferenceFs) (index : Nat) (file : RefFile) : ReferenceFs :=
  { ref with files := Function.update ref.files index file }

/-- The reference with a new file, before its parent counts it. -/
def withPath (ref : ReferenceFs) (path : Path) (dir : Bool) : ReferenceFs :=
  { ref with
    ref := insertKey ref.ref path ref.freeList
    files := Function.update ref.files ref.freeList
      { size := if dir then -1 else 0, checksum := 0, fn := path }
    freeList := (ref.files ref.freeList).checksum }

/-- The reference without a file, before its parent no longer counts it. The counter is a `size_t`. -/
def withoutPath (ref : ReferenceFs) (bits : Nat) (path : Path) (index : Nat) : ReferenceFs :=
  { ref := eraseKey ref.ref path
    files := Function.update ref.files index { size := 0, checksum := ref.freeList, fn := [] }
    freeList := index
    freeNum := (ref.freeNum + 1) % 2 ^ bits }

end ReferenceFs

/-- `Initialize`. -/
def initializeRef (bits : Nat) (root : Path) : Program Unit := do
  throwIf (root.length > maxPathSize) .abort
  modify fun ref => ref.initialized bits root

/-- Count an entry of a directory. -/
def countEntry (parent : Path) : Program Unit := do
  match (← get).findFileIndex parent with
  | none => throw .undefined
  | some index =>
    modify fun ref =>
      let file := ref.files index
      ref.setFile index { file with checksum := (file.checksum + 1) % 2 ^ 32 }

/-- `AddPath`. -/
def addPath (path : Path) (dir : Bool) : Program Bool := do
  let ref ← get
  if ref.freeNum = 0 then return false
  else
    throwIf (ref.freeList ≥ maxFileNum) .undefined
    throwIf (path.length > maxPathSize) .abort
    set (ref.withPath path dir)
    match parentPath path with
    | none => throw (.thrown "string too long")
    | some parent =>
      countEntry parent
      return true

/-- `UpdateFile`: the length is stored in an `int`, after the checksum. -/
def updateFile (path : Path) (checksum len : Nat) : Program Unit := do
  match (← get).findFileIndex path with
  | none => throw .undefined
  | some index =>
    modify fun ref => ref.setFile index { ref.files index with checksum }
    throwIf (len ≥ intLimit) (.thrown "bad numeric conversion: positive overflow")
    modify fun ref => ref.setFile index { ref.files index with size := len }

/-- No longer count an entry of a directory. -/
def uncountEntry (parent : Path) : Program Unit := do
  match (← get).findFileIndex parent with
  | none => throw .undefined
  | some index =>
    modify fun ref =>
      let file := ref.files index
      ref.setFile index { file with checksum := (file.checksum + (2 ^ 32 - 1)) % 2 ^ 32 }

/-- `RemoveFile`. -/
def removeFile (bits : Nat) (path : Path) : Program Unit := do
  match (← get).findFileIndex path with
  | none => return ()
  | some index =>
    modify fun ref => ref.withoutPath bits path index
    match parentPath path with
    | none => throw (.thrown "string too long")
    | some parent => uncountEntry parent

/-- `CopyFrom`, which overwrites every member. -/
def copyFrom (src : ReferenceFs) : Program Unit :=
  set { ref := src.ref, files := src.files, freeList := src.freeList, freeNum := src.freeNum :
    ReferenceFs }

end FsChecking.FullTester
