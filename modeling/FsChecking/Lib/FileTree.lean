import Mathlib.Data.List.AList

/-!
# File trees

A file tree names directories and files by paths. An entry is created in an existing directory under
a new name.
-/

namespace FsChecking.Lib

/-- What a path names. -/
inductive Entry (κ : Type) where
  /-- A directory. -/
  | dir
  /-- A file. -/
  | file (content : κ)

/-- A file tree. -/
abbrev FileTree (π κ : Type) : Type := AList fun _ : π => Entry κ

namespace FileTree

variable {π κ : Type} [DecidableEq π] {parent : π → Option π} {tree : FileTree π κ} {path : π}
  {entry : Entry κ}

/-- Create an entry. -/
def create (parent : π → Option π) (tree : FileTree π κ) (path : π) (entry : Entry κ) :
    Option (FileTree π κ) :=
  if path ∈ tree then none
  else
    match (parent path).bind fun above => tree.lookup above with
    | some .dir => some (tree.insert path entry)
    | _ => none

/-- A new name is created in a directory. -/
theorem create_of_notMem {above : π} (new : path ∉ tree) (below : parent path = some above)
    (isDir : tree.lookup above = some .dir) :
    create parent tree path entry = some (tree.insert path entry) := by
  unfold create
  rw [if_neg new, below, Option.bind_some, isDir]

end FileTree

end FsChecking.Lib
