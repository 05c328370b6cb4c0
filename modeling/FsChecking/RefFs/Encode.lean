import FsChecking.RefFs.Model
import Mathlib.Algebra.BigOperators.Group.List.Basic

/-!
# Repairing the codes

`UpdateEncode` rewrites the code of a file and of its ancestors. It keeps the tree, and when the
codes fit it leaves every directory on the way with the sorted codes of its children.
-/

namespace FsChecking.RefFs

open Lib

/-! ## Codes in the buffer -/

namespace RefFile

variable {file : RefFile} {text : Text}

/-- The code that has been written. -/
@[simp] theorem code_setCode (file : RefFile) (text : Text) : (file.setCode text).code = text :=
  List.take_left

/-- The code that has been printed. -/
@[simp] theorem code_printCode (file : RefFile) (text : Text) :
    (file.printCode text).code = text := List.take_left

/-- The code lies in the buffer. -/
def Sized (file : RefFile) : Prop := file.encodeSize ≤ file.encode.length

/-- The length of a code that lies in the buffer. -/
theorem Sized.length_code (sized : file.Sized) : file.code.length = file.encodeSize :=
  List.length_take_of_le sized

/-- A code that has been written lies in the buffer. -/
theorem setCode_sized (file : RefFile) (text : Text) : (file.setCode text).Sized := by
  change text.length ≤ (text ++ _).length
  rw [List.length_append]
  exact Nat.le_add_right _ _

/-- A code that has been printed lies in the buffer. -/
theorem printCode_sized (file : RefFile) (text : Text) : (file.printCode text).Sized := by
  change text.length ≤ (text ++ _).length
  rw [List.length_append]
  exact Nat.le_add_right _ _

end RefFile

/-! ## The same tree -/

/-- Two states of a file that have the same place in the tree. -/
structure SamePlace (before after : RefFile) : Prop where
  /-- The path. -/
  fn : after.fn = before.fn
  /-- The parent. -/
  parent : after.parent = before.parent
  /-- The depth. -/
  depth : after.depth = before.depth
  /-- Whether it is a directory. -/
  isDir : after.isDir = before.isDir
  /-- The length of the array of children. -/
  children : after.children.length = before.children.length
  /-- The number of children of a directory. -/
  size : before.isDir = true → after.size = before.size
  /-- The children of a directory. -/
  kids : before.isDir = true → after.kids.Perm before.kids

namespace SamePlace

/-- Nothing has changed. -/
theorem refl (file : RefFile) : SamePlace file file :=
  ⟨rfl, rfl, rfl, rfl, rfl, fun _ => rfl, fun _ => .refl _⟩

/-- One change after another. -/
theorem trans {first second third : RefFile} (left : SamePlace first second)
    (right : SamePlace second third) : SamePlace first third where
  fn := right.fn.trans left.fn
  parent := right.parent.trans left.parent
  depth := right.depth.trans left.depth
  isDir := right.isDir.trans left.isDir
  children := right.children.trans left.children
  size := fun isDir => (right.size (left.isDir.trans isDir)).trans (left.size isDir)
  kids := fun isDir => (right.kids (left.isDir.trans isDir)).trans (left.kids isDir)

end SamePlace

/-- Two states of a file that differ in its code and in the order of its children. -/
structure SameButCode (before after : RefFile) : Prop extends SamePlace before after where
  /-- The size. -/
  allSize : after.size = before.size
  /-- The successor. -/
  next : after.next = before.next
  /-- The version. -/
  ver : after.ver = before.ver
  /-- The number. -/
  fid : after.fid = before.fid
  /-- Whether the file is open. -/
  isOpen : after.isOpen = before.isOpen
  /-- The code lies in the buffer if it did. -/
  sized : before.Sized → after.Sized

namespace SameButCode

/-- Nothing has changed. -/
theorem refl (file : RefFile) : SameButCode file file :=
  ⟨.refl file, rfl, rfl, rfl, rfl, rfl, id⟩

/-- One change after another. -/
theorem trans {first second third : RefFile} (left : SameButCode first second)
    (right : SameButCode second third) : SameButCode first third :=
  ⟨left.toSamePlace.trans right.toSamePlace, right.allSize.trans left.allSize,
    right.next.trans left.next, right.ver.trans left.ver, right.fid.trans left.fid,
    right.isOpen.trans left.isOpen, right.sized ∘ left.sized⟩

/-- The label of a file. -/
theorem label {before after : RefFile} (same : SameButCode before after) :
    after.label = before.label := by
  unfold RefFile.label RefFile.version
  rw [same.allSize, same.isOpen]

end SameButCode

/-- Two states that differ in the codes and in the order of the children. -/
structure Recoded (before after : ReferenceFs) : Prop where
  /-- The files. -/
  files : ∀ index, SameButCode (before.files index) (after.files index)
  /-- Everything else. -/
  others : { after with files := before.files } = before

namespace Recoded

/-- One change after another. -/
theorem trans {first second third : ReferenceFs} (left : Recoded first second)
    (right : Recoded second third) : Recoded first third := by
  refine ⟨fun index => (left.files index).trans (right.files index), ?_⟩
  have step := left.others
  rw [← right.others] at step
  exact step

end Recoded

namespace ReferenceFs

variable {fs fs' : ReferenceFs} {index : Nat}

/-- The file that has been replaced. -/
@[simp] theorem setFile_self (fs : ReferenceFs) (index : Nat) (file : RefFile) :
    (fs.setFile index file).files index = file := Function.update_self ..

/-- The files that have not been replaced. -/
@[simp] theorem setFile_of_ne {other : Nat} (apart : other ≠ index) (file : RefFile) :
    (fs.setFile index file).files other = fs.files other := Function.update_of_ne apart ..

/-- Replacing a file by one that differs in its code. -/
theorem recoded_setFile {file : RefFile} (same : SameButCode (fs.files index) file) :
    Recoded fs (fs.setFile index file) := by
  refine ⟨fun other => ?_, rfl⟩
  by_cases here : other = index
  · rw [here, setFile_self]
    exact same
  · rw [setFile_of_ne here]
    exact .refl _

instance (fs : ReferenceFs) : Std.Total fs.Before where
  total first second := le_total (fs.files first).sortKey (fs.files second).sortKey

instance (fs : ReferenceFs) : IsTrans Nat fs.Before where
  trans _ _ _ first second := le_trans first second

/-- The lengths of the codes of files together. -/
def totalSize (fs : ReferenceFs) (indices : List Nat) : Nat :=
  (indices.map fun index => (fs.files index).encodeSize).sum

/-- The length of the code that a file should have. -/
def dueSize (fs : ReferenceFs) (index : Nat) : Nat :=
  if (fs.files index).isDir then fs.totalSize (fs.files index).kids + 2
  else (fs.files index).label.length

/-- The code of a file agrees with the codes of its children. -/
def Refreshed (fs : ReferenceFs) (index : Nat) : Prop :=
  if (fs.files index).isDir then
    (fs.files index).kids.Pairwise fs.Before ∧
      (fs.files index).code =
        '[' :: ((fs.files index).kids.map fun child => (fs.files child).code).flatten ++ [']']
  else (fs.files index).code = (fs.files index).label

/-- The parent, when there is one. -/
def parentLink (fs : ReferenceFs) (index : Nat) : Option Nat :=
  if maxFileNum < (fs.files index).parent then none else some (fs.files index).parent

/-- The code of a file that agrees with its children has the length that it should have. -/
theorem Refreshed.dueSize (refreshed : fs.Refreshed index) (sized : (fs.files index).Sized)
    (kidsSized : ∀ child ∈ (fs.files index).kids, (fs.files child).Sized) :
    fs.dueSize index = (fs.files index).encodeSize := by
  unfold Refreshed at refreshed
  unfold ReferenceFs.dueSize
  split at refreshed
  · rename_i isDir
    rw [if_pos isDir, ← sized.length_code, refreshed.2]
    have total : fs.totalSize (fs.files index).kids =
        ((fs.files index).kids.map fun child => (fs.files child).code).flatten.length := by
      unfold totalSize
      rw [List.length_flatten, List.map_map]
      congr 1
      exact List.map_congr_left fun child member => (kidsSized child member).length_code.symm
    simp only [List.length_append, List.length_cons, List.length_nil, total]
  · rename_i notDir
    rw [if_neg notDir, ← sized.length_code, refreshed]

/-- Appending codes that fit. -/
theorem appendCodes_eq_ok {indices : List Nat} {text : Text}
    (sized : ∀ child ∈ indices, (fs.files child).Sized)
    (fits : text.length + fs.totalSize indices < maxEncodeSize) :
    fs.appendCodes indices text =
      .ok (text ++ (indices.map fun child => (fs.files child).code).flatten) := by
  induction indices generalizing text with
  | nil => simp [appendCodes]
  | cons child rest ih =>
    have length := (sized child List.mem_cons_self).length_code
    have total : fs.totalSize (child :: rest) =
        (fs.files child).encodeSize + fs.totalSize rest := by
      simp [totalSize]
    rw [total] at fits
    unfold appendCodes
    dsimp only
    rw [if_neg (by rw [length]; omega), ih (fun other member => sized other
      (List.mem_cons_of_mem _ member)) (by rw [List.length_append, length]; omega)]
    simp [List.append_assoc]

/-- The total length does not depend on the order. -/
theorem totalSize_perm {indices indices' : List Nat} (perm : indices.Perm indices') :
    fs.totalSize indices = fs.totalSize indices' := (perm.map _).sum_eq

/-- The total length depends on the lengths of the codes. -/
theorem totalSize_congr {indices : List Nat}
    (same : ∀ child ∈ indices, (fs'.files child).encodeSize = (fs.files child).encodeSize) :
    fs'.totalSize indices = fs.totalSize indices := by
  unfold totalSize
  rw [List.map_congr_left same]

/-- A file with the code that it should have. -/
def recode (fs : ReferenceFs) (index : Nat) : RefFile :=
  let file := fs.files index
  if file.isDir then
    let sorted := file.kids.insertionSort fs.Before
    { file with children := sorted ++ file.children.drop file.size }.setCode
      ('[' :: (sorted.map fun child => (fs.files child).code).flatten ++ [']'])
  else file.printCode file.label

/-- Sorting keeps the number of children. -/
theorem kids_sorted {file : RefFile} (before : Nat → Nat → Prop) [DecidableRel before]
    (inside : file.size ≤ file.children.length) :
    { file with
      children := file.kids.insertionSort before ++ file.children.drop file.size }.kids =
      file.kids.insertionSort before := by
  have length : (file.kids.insertionSort before).length = file.size := by
    rw [List.length_insertionSort]
    exact List.length_take_of_le inside
  change (file.kids.insertionSort before ++ _).take file.size = _
  exact List.take_left' length

/-- Recoding changes the code and the order of the children. -/
theorem recode_same (fs : ReferenceFs) (index : Nat)
    (inside : (fs.files index).isDir = true →
      (fs.files index).size ≤ (fs.files index).children.length) :
    SameButCode (fs.files index) (fs.recode index) := by
  unfold recode
  dsimp only
  split
  · rename_i isDir
    have kids := kids_sorted fs.Before (inside isDir)
    refine ⟨⟨rfl, rfl, rfl, rfl, ?_, fun _ => rfl, fun _ => ?_⟩, rfl, rfl, rfl, rfl, rfl,
      fun _ => RefFile.setCode_sized _ _⟩
    · change ((fs.files index).kids.insertionSort fs.Before ++
        (fs.files index).children.drop (fs.files index).size).length = _
      rw [List.length_append, List.length_insertionSort, ← List.length_append]
      unfold RefFile.kids
      rw [List.take_append_drop]
    · change ({ fs.files index with
        children := (fs.files index).kids.insertionSort fs.Before ++
          (fs.files index).children.drop (fs.files index).size } : RefFile).kids.Perm _
      rw [kids]
      exact List.perm_insertionSort ..
  · rename_i notDir
    exact ⟨⟨rfl, rfl, rfl, rfl, rfl, fun isDir => absurd isDir notDir,
      fun isDir => absurd isDir notDir⟩, rfl, rfl, rfl, rfl, rfl,
      fun _ => RefFile.printCode_sized _ _⟩

end ReferenceFs

variable {fs : ReferenceFs} {index : Nat}

/-- `UpdateEncode` on one file whose code fits. -/
theorem refresh_eq_ok
    (inside : (fs.files index).isDir = true →
      (fs.files index).size ≤ (fs.files index).children.length)
    (sized : (fs.files index).isDir = true →
      ∀ child ∈ (fs.files index).kids, (fs.files child).Sized)
    (fits : (fs.files index).isDir = true → fs.dueSize index ≤ maxEncodeSize) :
    refresh index fs = .ok () (fs.setFile index (fs.recode index)) := by
  unfold refresh ReferenceFs.recode
  simp only [get_bind_apply]
  split
  · rename_i isDir
    have total : fs.totalSize ((fs.files index).kids.insertionSort fs.Before) =
        fs.totalSize (fs.files index).kids := fs.totalSize_perm (List.perm_insertionSort ..)
    have due := fits isDir
    unfold ReferenceFs.dueSize at due
    rw [if_pos isDir] at due
    have appends : fs.appendCodes ((fs.files index).kids.insertionSort fs.Before) ['['] = _ :=
      fs.appendCodes_eq_ok
        (fun child member => sized isDir child ((List.mem_insertionSort _).mp member))
        (by rw [total]; simp only [List.length_cons, List.length_nil]; omega)
    rw [throwIf, if_neg (Nat.not_lt.mpr (inside isDir))]
    simp only [pure_bind, appends]
    rfl
  · rfl

/-! ## Up to the root -/

/-- The shape of the tree over some files, as far as the codes need it. -/
structure Shape (fs : ReferenceFs) (used : List Nat) : Prop where
  /-- The children of a directory lie in the array. -/
  inside : ∀ dir ∈ used, (fs.files dir).isDir = true →
    (fs.files dir).size ≤ (fs.files dir).children.length
  /-- A directory lists no child twice. -/
  nodup : ∀ dir ∈ used, (fs.files dir).isDir = true → (fs.files dir).kids.Nodup
  /-- The children of a directory point to it. -/
  kids : ∀ dir ∈ used, (fs.files dir).isDir = true → ∀ child ∈ (fs.files dir).kids,
    child ∈ used ∧ fs.parentLink child = some dir
  /-- A directory lists the files that point to it. -/
  listed : ∀ child ∈ used, ∀ dir, fs.parentLink child = some dir →
    dir ∈ used ∧ (fs.files dir).isDir = true ∧ child ∈ (fs.files dir).kids
  /-- The codes lie in their buffers. -/
  sized : ∀ index ∈ used, (fs.files index).Sized

/-- Recoding keeps the parents. -/
theorem Recoded.parentLink {fs' : ReferenceFs} (recoded : Recoded fs fs') (index : Nat) :
    fs'.parentLink index = fs.parentLink index := by
  unfold ReferenceFs.parentLink
  rw [(recoded.files index).parent]

/-- The shape depends on the links, the marks of directories and the children as a set. -/
theorem Shape.congr {fs' : ReferenceFs} {used : List Nat} (shape : Shape fs used)
    (links : ∀ index, fs'.parentLink index = fs.parentLink index)
    (isDirs : ∀ index, (fs'.files index).isDir = (fs.files index).isDir)
    (room : ∀ index, (fs'.files index).size = (fs.files index).size ∧
      (fs'.files index).children.length = (fs.files index).children.length)
    (kids : ∀ index, (fs.files index).isDir = true →
      (fs'.files index).kids.Perm (fs.files index).kids)
    (sized : ∀ index, (fs.files index).Sized → (fs'.files index).Sized) : Shape fs' used where
  inside := by
    intro dir member isDir
    rw [isDirs] at isDir
    rw [(room dir).1, (room dir).2]
    exact shape.inside dir member isDir
  nodup := by
    intro dir member isDir
    rw [isDirs] at isDir
    exact (kids dir isDir).nodup_iff.mpr (shape.nodup dir member isDir)
  kids := by
    intro dir member isDir child listed
    rw [isDirs] at isDir
    rw [links]
    exact shape.kids dir member isDir child ((kids dir isDir).mem_iff.mp listed)
  listed := by
    intro child member dir link
    rw [links] at link
    obtain ⟨dirUsed, isDir, listed⟩ := shape.listed child member dir link
    exact ⟨dirUsed, (isDirs dir).trans isDir, (kids dir isDir).mem_iff.mpr listed⟩
  sized := fun index member => sized index (shape.sized index member)

/-- Recoding keeps the shape. -/
theorem Shape.recoded {fs' : ReferenceFs} {used : List Nat} (shape : Shape fs used)
    (recoded : Recoded fs fs') : Shape fs' used :=
  shape.congr recoded.parentLink (fun index => (recoded.files index).isDir)
    (fun index => ⟨(recoded.files index).allSize, (recoded.files index).children⟩)
    (fun index => (recoded.files index).kids) fun index => (recoded.files index).sized

/-- A file that nobody touches, with its children, keeps its code. -/
theorem ReferenceFs.Refreshed.congr {fs' : ReferenceFs} (refreshed : fs.Refreshed index)
    (same : fs'.files index = fs.files index)
    (kids : (fs.files index).isDir = true →
      ∀ child ∈ (fs.files index).kids, fs'.files child = fs.files child) :
    fs'.Refreshed index := by
  unfold ReferenceFs.Refreshed at refreshed ⊢
  rw [same]
  split at refreshed
  · rename_i isDir
    rw [if_pos isDir]
    refine ⟨refreshed.1.imp_of_mem fun {first second} firstMember secondMember before => ?_, ?_⟩
    · unfold ReferenceFs.Before
      rw [kids isDir first firstMember, kids isDir second secondMember]
      exact before
    · rw [refreshed.2]
      congr 3
      exact List.map_congr_left fun child member => by rw [kids isDir child member]
  · rename_i notDir
    rw [if_neg notDir]
    exact refreshed

/-- A directory keeps its code when the buffers of its children and its own stay. -/
theorem ReferenceFs.Refreshed.transfer {fs' : ReferenceFs} (refreshed : fs.Refreshed index)
    (isDir : (fs.files index).isDir = true) (stillDir : (fs'.files index).isDir = true)
    (kids : (fs'.files index).kids = (fs.files index).kids)
    (codes : ∀ other, other = index ∨ other ∈ (fs.files index).kids →
      (fs'.files other).encode = (fs.files other).encode ∧
        (fs'.files other).encodeSize = (fs.files other).encodeSize) : fs'.Refreshed index := by
  unfold ReferenceFs.Refreshed at refreshed ⊢
  rw [if_pos isDir] at refreshed
  rw [if_pos stillDir, kids]
  have code : ∀ other, other = index ∨ other ∈ (fs.files index).kids →
      (fs'.files other).code = (fs.files other).code := by
    intro other known
    unfold RefFile.code
    rw [(codes other known).1, (codes other known).2]
  refine ⟨refreshed.1.imp_of_mem fun {first second} firstMember secondMember before => ?_, ?_⟩
  · unfold ReferenceFs.Before RefFile.sortKey
    rw [(codes first (.inr firstMember)).1, (codes second (.inr secondMember)).1]
    exact before
  · rw [code index (.inl rfl), refreshed.2]
    congr 3
    exact List.map_congr_left fun child member => (code child (.inr member)).symm

/-- A file is not its own child. -/
theorem Shape.not_own_child {used rest : List Nat} (shape : Shape fs used) (member : index ∈ used)
    (chain : Chain fs.parentLink (some index) (index :: rest)) (nodup : (index :: rest).Nodup)
    (isDir : (fs.files index).isDir = true) :
    ∀ child ∈ (fs.files index).kids, child ∉ index :: rest := by
  intro child listed onPath
  have link := (shape.kids index member isDir child listed).2
  rcases List.mem_cons.mp onPath with rfl | above
  · obtain ⟨-, tail⟩ := chain
    rw [link] at tail
    obtain ⟨others, rfl, -⟩ := tail.of_some
    exact (List.nodup_cons.mp nodup).1 List.mem_cons_self
  · exact (List.nodup_cons.mp nodup).1 (chain.2.next_mem above link)

/-- The files above another one are directories. -/
theorem Shape.above {used rest : List Nat} (shape : Shape fs used)
    (chain : Chain fs.parentLink (some index) (index :: rest)) (member : index ∈ used) :
    ∀ dir ∈ rest, dir ∈ used ∧ (fs.files dir).isDir = true := by
  induction rest generalizing index with
  | nil => exact nofun
  | cons parent rest ih =>
    obtain ⟨-, link, tail⟩ := chain
    obtain ⟨parentUsed, parentDir, -⟩ := shape.listed index member parent link
    intro dir onPath
    rcases List.mem_cons.mp onPath with rfl | higher
    · exact ⟨parentUsed, parentDir⟩
    · exact ih ⟨rfl, tail⟩ parentUsed dir higher

/-- The length of the code of a directory without a child that changes. -/
theorem ReferenceFs.dueSize_congr {fs' : ReferenceFs} {dir : Nat}
    (isDir : (fs.files dir).isDir = true) (same : fs'.files dir = fs.files dir)
    (kids : ∀ child ∈ (fs.files dir).kids,
      (fs'.files child).encodeSize = (fs.files child).encodeSize) :
    fs'.dueSize dir = fs.dueSize dir := by
  unfold dueSize
  rw [same, if_pos isDir, if_pos isDir]
  congr 1
  exact totalSize_congr kids

/-- A file that has been recoded agrees with its children. -/
theorem recode_refreshed {used rest : List Nat} (shape : Shape fs used) (member : index ∈ used)
    (chain : Chain fs.parentLink (some index) (index :: rest)) (nodup : (index :: rest).Nodup) :
    (fs.setFile index (fs.recode index)).Refreshed index := by
  unfold ReferenceFs.Refreshed
  rw [ReferenceFs.setFile_self]
  by_cases isDir : (fs.files index).isDir = true
  · have kids := ReferenceFs.kids_sorted fs.Before (shape.inside index member isDir)
    have recoded : fs.recode index = ({ fs.files index with
        children := (fs.files index).kids.insertionSort fs.Before ++
          (fs.files index).children.drop (fs.files index).size } : RefFile).setCode
        ('[' :: (((fs.files index).kids.insertionSort fs.Before).map
          fun child => (fs.files child).code).flatten ++ [']']) := by
      unfold ReferenceFs.recode
      dsimp only
      rw [if_pos isDir]
    have newKids : (fs.recode index).kids = (fs.files index).kids.insertionSort fs.Before := by
      rw [recoded]
      exact kids
    have foreign : ∀ child ∈ (fs.recode index).kids, child ≠ index := by
      rintro child listed rfl
      rw [newKids, List.mem_insertionSort] at listed
      exact shape.not_own_child member chain nodup isDir child listed List.mem_cons_self
    have stillDir : (fs.recode index).isDir = true := by
      rw [recoded]
      exact isDir
    rw [if_pos stillDir]
    refine ⟨?_, ?_⟩
    · rw [newKids] at foreign ⊢
      have sorted := List.pairwise_insertionSort fs.Before (fs.files index).kids
      refine sorted.imp_of_mem fun {first second} firstMember secondMember before => ?_
      unfold ReferenceFs.Before
      rw [ReferenceFs.setFile_of_ne (foreign first firstMember),
        ReferenceFs.setFile_of_ne (foreign second secondMember)]
      exact before
    · have same : (fs.recode index).kids.map (fun child =>
          ((fs.setFile index (fs.recode index)).files child).code) =
          (fs.recode index).kids.map fun child => (fs.files child).code :=
        List.map_congr_left fun child listed => by
          rw [ReferenceFs.setFile_of_ne (foreign child listed)]
      rw [same, newKids, recoded, RefFile.code_setCode]
  · have recoded : fs.recode index = (fs.files index).printCode (fs.files index).label := by
      unfold ReferenceFs.recode
      dsimp only
      rw [if_neg isDir]
    have stillFile : ¬ (fs.recode index).isDir = true := by
      rw [recoded]
      exact isDir
    rw [if_neg stillFile, recoded, RefFile.code_printCode]
    rfl

/-- The total length when the code of one child changes. -/
theorem ReferenceFs.totalSize_setFile {kids : List Nat} {file : RefFile} (listed : index ∈ kids)
    (nodup : kids.Nodup) :
    (fs.setFile index file).totalSize kids + (fs.files index).encodeSize =
      fs.totalSize kids + file.encodeSize := by
  have perm := List.perm_cons_erase listed
  have absent : index ∉ kids.erase index := fun member =>
    (List.nodup_cons.mp (perm.nodup_iff.mp nodup)).1 member
  rw [totalSize_perm perm, totalSize_perm perm]
  have rest : (fs.setFile index file).totalSize (kids.erase index) =
      fs.totalSize (kids.erase index) := by
    refine totalSize_congr fun child member => ?_
    rw [setFile_of_ne]
    rintro rfl
    exact absent member
  unfold totalSize at rest ⊢
  rw [List.map_cons, List.map_cons, List.sum_cons, List.sum_cons, setFile_self, rest]
  omega

/-- The length of the code that a file gets. -/
theorem ReferenceFs.encodeSize_recode {used : List Nat} (shape : Shape fs used)
    (member : index ∈ used) : (fs.recode index).encodeSize = fs.dueSize index := by
  unfold recode dueSize
  dsimp only
  split
  · rename_i isDir
    have total : ((((fs.files index).kids.insertionSort fs.Before).map
        fun child => (fs.files child).code).flatten).length =
        fs.totalSize (fs.files index).kids := by
      rw [← totalSize_perm (List.perm_insertionSort fs.Before (fs.files index).kids)]
      unfold totalSize
      rw [List.length_flatten, List.map_map]
      congr 1
      refine List.map_congr_left fun child listed => ?_
      have kid := shape.kids index member isDir child ((List.mem_insertionSort _).mp listed)
      exact (shape.sized child kid.1).length_code
    change ('[' :: _ ++ [']']).length = _
    simp only [List.length_append, List.length_cons, List.length_nil, total]
  · rfl

/-- One step of `UpdateEncode` on a file whose code fits: it ends at the root and goes on with the
parent elsewhere. -/
theorem updateEncodeWithin_of_fits {used : List Nat} (shape : Shape fs used) (member : index ∈ used)
    (fits : (fs.files index).isDir = true → fs.dueSize index ≤ maxEncodeSize) (fuel : Nat) :
    (maxFileNum < (fs.files index).parent → updateEncodeWithin (fuel + 1) index fs =
        .ok () (fs.setFile index (fs.recode index))) ∧
      (¬maxFileNum < (fs.files index).parent → updateEncodeWithin (fuel + 1) index fs =
        updateEncodeWithin fuel (fs.files index).parent (fs.setFile index (fs.recode index))) := by
  have inside := shape.inside index member
  have refreshes := refresh_eq_ok inside
    (fun isDir child listed => shape.sized child (shape.kids index member isDir child listed).1) fits
  have parent := (fs.recode_same index inside).parent
  have step : updateEncodeWithin (fuel + 1) index fs =
      (if maxFileNum < (fs.files index).parent then pure ()
        else updateEncodeWithin fuel (fs.files index).parent)
        (fs.setFile index (fs.recode index)) := by
    rw [updateEncodeWithin, bind_apply, refreshes]
    simp only [get_bind_apply, ReferenceFs.setFile_self, parent]
  rw [step]
  constructor
  · intro root
    rw [if_pos root]
    rfl
  · intro higher
    rw [if_neg higher]

/-- When the code of a child changes its length, the code of the directory is due to change by as
much. -/
theorem ReferenceFs.dueSize_recode {used : List Nat} {parent : Nat} (shape : Shape fs used)
    (member : index ∈ used) (link : fs.parentLink index = some parent) (apart : parent ≠ index) :
    (fs.setFile index (fs.recode index)).dueSize parent + (fs.files index).encodeSize =
      fs.dueSize parent + fs.dueSize index := by
  obtain ⟨parentUsed, parentDir, listed⟩ := shape.listed index member parent link
  have total : (fs.setFile index (fs.recode index)).totalSize _ + _ = _ :=
    fs.totalSize_setFile listed (shape.nodup parent parentUsed parentDir)
  rw [encodeSize_recode shape member] at total
  have after : (fs.setFile index (fs.recode index)).dueSize parent =
      (fs.setFile index (fs.recode index)).totalSize (fs.files parent).kids + 2 := by
    unfold dueSize
    rw [setFile_of_ne apart, if_pos parentDir]
  have before : fs.dueSize parent = fs.totalSize (fs.files parent).kids + 2 := if_pos parentDir
  rw [after, before]
  omega

/-- What repairing the codes from a file upwards leaves. -/
structure Repaired (fs : ReferenceFs) (path : List Nat) (next : ReferenceFs) : Prop where
  /-- The tree is the same. -/
  recoded : Recoded fs next
  /-- Only the files on the path have been touched. -/
  frame : ∀ other, other ∉ path → next.files other = fs.files other
  /-- They agree with their children. -/
  refreshed : ∀ other ∈ path, next.Refreshed other
  /-- The codes of directories fit. -/
  bounded : ∀ other ∈ path, (next.files other).isDir = true →
    (next.files other).encodeSize ≤ maxEncodeSize

/-- `UpdateEncode` when the codes fit. -/
theorem updateEncodeWithin_eq_ok {used rest : List Nat} {fuel : Nat} (shape : Shape fs used)
    (chain : Chain fs.parentLink (some index) (index :: rest)) (nodup : (index :: rest).Nodup)
    (member : index ∈ used) (enough : rest.length < fuel)
    (fits : (fs.files index).isDir = true → fs.dueSize index ≤ maxEncodeSize)
    (above : ∀ dir ∈ rest,
      (fs.files dir).encodeSize + fs.dueSize index ≤ maxEncodeSize + (fs.files index).encodeSize)
    (due : ∀ dir ∈ rest, fs.dueSize dir = (fs.files dir).encodeSize) :
    ∃ next, updateEncodeWithin fuel index fs = .ok () next ∧ Repaired fs (index :: rest) next := by
  induction rest generalizing fs index fuel with
  | nil =>
    cases fuel with
    | zero => cases enough
    | succ fuel =>
      have root : maxFileNum < (fs.files index).parent := by
        have link := chain.2
        by_contra inside
        unfold ReferenceFs.parentLink at link
        rw [if_neg inside] at link
        cases link
      have same := fs.recode_same index (shape.inside index member)
      refine ⟨fs.setFile index (fs.recode index),
        (updateEncodeWithin_of_fits shape member fits fuel).1 root,
        ReferenceFs.recoded_setFile same, ?_, ?_, ?_⟩
      · exact fun other foreign => ReferenceFs.setFile_of_ne (by simpa using foreign) _
      · intro other onPath
        obtain rfl := List.mem_singleton.mp onPath
        exact recode_refreshed shape member chain nodup
      · intro other onPath isDir
        obtain rfl := List.mem_singleton.mp onPath
        rw [ReferenceFs.setFile_self] at isDir ⊢
        rw [ReferenceFs.encodeSize_recode shape member]
        exact fits (same.isDir.symm.trans isDir)
  | cons parent rest ih =>
    cases fuel with
    | zero => cases enough
    | succ fuel =>
      obtain ⟨-, link, tail⟩ := chain
      have chain : Chain fs.parentLink (some index) (index :: parent :: rest) := ⟨rfl, link, tail⟩
      obtain ⟨absent, nodupAbove⟩ := List.nodup_cons.mp nodup
      have apart : parent ≠ index := fun same => absent (same ▸ List.mem_cons_self)
      have same := fs.recode_same index (shape.inside index member)
      have recoded := ReferenceFs.recoded_setFile same
      obtain ⟨parentUsed, -, -⟩ := shape.listed index member parent link
      have value : (fs.files index).parent = parent ∧ ¬ maxFileNum < parent := by
        unfold ReferenceFs.parentLink at link
        split at link
        · cases link
        · rename_i inside
          obtain rfl := Option.some.inj link
          exact ⟨rfl, inside⟩
      let next := fs.setFile index (fs.recode index)
      have untouched : ∀ other, other ≠ index → next.files other = fs.files other :=
        fun other foreign => ReferenceFs.setFile_of_ne foreign _
      have dirs := shape.above chain member
      have foreign : ∀ dir ∈ rest, index ∉ (fs.files dir).kids := by
        intro dir onPath kid
        obtain ⟨dirUsed, isDir⟩ := dirs dir (List.mem_cons_of_mem _ onPath)
        have other := (shape.kids dir dirUsed isDir index kid).2
        obtain rfl := Option.some.inj (link.symm.trans other)
        exact (List.nodup_cons.mp nodupAbove).1 onPath
      have notIndex : ∀ dir ∈ rest, dir ≠ index := by
        rintro dir onPath rfl
        exact absent (List.mem_cons_of_mem _ onPath)
      have dueNext : ∀ dir ∈ rest, next.dueSize dir = (next.files dir).encodeSize := by
        intro dir onPath
        rw [untouched dir (notIndex dir onPath), ← due dir (List.mem_cons_of_mem _ onPath)]
        refine ReferenceFs.dueSize_congr (dirs dir (List.mem_cons_of_mem _ onPath)).2
          (untouched dir (notIndex dir onPath)) fun child kid => ?_
        rw [untouched child]
        rintro rfl
        exact foreign dir onPath kid
      have dueParent : next.dueSize parent + (fs.files index).encodeSize =
          (fs.files parent).encodeSize + fs.dueSize index := by
        rw [← due parent List.mem_cons_self]
        exact ReferenceFs.dueSize_recode shape member link apart
      have chainNext : Chain next.parentLink (some parent) (parent :: rest) :=
        Chain.congr (fun node _ => recoded.parentLink node) ⟨rfl, tail⟩
      have fitsNext : next.dueSize parent ≤ maxEncodeSize := by
        have room := above parent List.mem_cons_self
        omega
      have aboveNext : ∀ dir ∈ rest, (next.files dir).encodeSize + next.dueSize parent ≤
          maxEncodeSize + (next.files parent).encodeSize := by
        intro dir onPath
        rw [untouched dir (notIndex dir onPath), untouched parent apart]
        have room := above dir (List.mem_cons_of_mem _ onPath)
        omega
      obtain ⟨last, runs, repaired⟩ := ih (shape.recoded recoded) chainNext nodupAbove parentUsed
        (Nat.lt_of_succ_lt_succ enough) (fun _ => fitsNext) aboveNext dueNext
      refine ⟨last, ?_, recoded.trans repaired.recoded, ?_, ?_, ?_⟩
      · rw [(updateEncodeWithin_of_fits shape member fits fuel).2 (by rw [value.1]; exact value.2),
          value.1]
        exact runs
      · intro other offPath
        obtain ⟨notHere, notAbove⟩ := not_or.mp (List.mem_cons.not.mp offPath)
        rw [repaired.frame other notAbove, untouched other notHere]
      · intro other onPath
        rcases List.mem_cons.mp onPath with rfl | higher
        · have here := recode_refreshed shape member chain nodup
          refine here.congr (repaired.frame other absent) fun isDir child kid => ?_
          refine repaired.frame child fun onPath => ?_
          have before : child ∈ (fs.files other).kids := by
            rw [ReferenceFs.setFile_self] at kid isDir
            exact (same.kids (same.isDir.symm.trans isDir)).mem_iff.mp kid
          rw [ReferenceFs.setFile_self] at isDir
          exact shape.not_own_child member chain nodup (same.isDir.symm.trans isDir) child before
            (List.mem_cons_of_mem _ onPath)
        · exact repaired.refreshed other higher
      · intro other onPath isDir
        rcases List.mem_cons.mp onPath with rfl | higher
        · rw [repaired.frame other absent, ReferenceFs.setFile_self] at isDir ⊢
          rw [ReferenceFs.encodeSize_recode shape member]
          exact fits (same.isDir.symm.trans isDir)
        · exact repaired.bounded other higher isDir

/-! ## Codes that do not fit -/

namespace ReferenceFs

/-- Appending codes that do not fit. -/
theorem appendCodes_eq_error {indices : List Nat} {text : Text}
    (sized : ∀ child ∈ indices, (fs.files child).Sized) (short : text.length < maxEncodeSize)
    (full : maxEncodeSize ≤ text.length + fs.totalSize indices) :
    ∃ text', fs.appendCodes indices text = .error text' := by
  induction indices generalizing text with
  | nil =>
    have total : fs.totalSize [] = 0 := rfl
    omega
  | cons child rest ih =>
    have length := (sized child List.mem_cons_self).length_code
    have total : fs.totalSize (child :: rest) =
        (fs.files child).encodeSize + fs.totalSize rest := by
      simp [totalSize]
    unfold appendCodes
    dsimp only
    by_cases here : maxEncodeSize ≤ text.length + (fs.files child).code.length
    · exact ⟨text, if_pos here⟩
    · rw [if_neg here]
      refine ih (fun other member => sized other (List.mem_cons_of_mem _ member)) ?_ ?_
      · rw [List.length_append]
        omega
      · rw [List.length_append]
        omega

/-- The state in which the code of a file has another length. -/
def resized (fs : ReferenceFs) (index size : Nat) : ReferenceFs :=
  fs.setFile index { fs.files index with encodeSize := size }

/-- From a directory up to the root the codes fit, when each directory counts with the length of the
code that it is going to get. -/
def FitsUpwards : Nat → ReferenceFs → Nat → Prop
  | 0, _, _ => False
  | fuel + 1, fs, dir =>
    fs.totalSize (fs.files dir).kids + 2 ≤ maxEncodeSize ∧ (maxFileNum < (fs.files dir).parent ∨
      FitsUpwards fuel (fs.resized dir (fs.totalSize (fs.files dir).kids + 2))
        (fs.files dir).parent)

instance decidableFitsUpwards : ∀ fuel fs dir, Decidable (FitsUpwards fuel fs dir)
  | 0, _, _ => isFalse id
  | fuel + 1, fs, dir =>
    have := decidableFitsUpwards fuel (fs.resized dir (fs.totalSize (fs.files dir).kids + 2))
      (fs.files dir).parent
    instDecidableAnd

/-- Two states that agree in what the lengths of the codes depend on. -/
structure SameSizes (before after : ReferenceFs) : Prop where
  /-- The parents. -/
  parent : ∀ index, (after.files index).parent = (before.files index).parent
  /-- The lengths of the codes. -/
  encodeSize : ∀ index, (after.files index).encodeSize = (before.files index).encodeSize
  /-- The children. -/
  kids : ∀ index, (after.files index).kids.Perm (before.files index).kids

/-- Giving a file the same length and the same children in both states. -/
theorem SameSizes.setFile (same : SameSizes fs fs') {file file' : RefFile}
    (parent : file'.parent = file.parent) (encodeSize : file'.encodeSize = file.encodeSize)
    (kids : file'.kids.Perm file.kids) :
    SameSizes (fs.setFile index file) (fs'.setFile index file') := by
  have cases : ∀ other, (other = index ∧ (fs.setFile index file).files other = file ∧
      (fs'.setFile index file').files other = file') ∨
      ((fs.setFile index file).files other = fs.files other ∧
        (fs'.setFile index file').files other = fs'.files other) := by
    intro other
    by_cases here : other = index
    · subst here
      exact .inl ⟨rfl, setFile_self .., setFile_self ..⟩
    · exact .inr ⟨setFile_of_ne here _, setFile_of_ne here _⟩
  refine ⟨fun other => ?_, fun other => ?_, fun other => ?_⟩
  · obtain ⟨-, first, second⟩ | ⟨first, second⟩ := cases other
    · rw [first, second, parent]
    · rw [first, second, same.parent]
  · obtain ⟨-, first, second⟩ | ⟨first, second⟩ := cases other
    · rw [first, second, encodeSize]
    · rw [first, second, same.encodeSize]
  · obtain ⟨-, first, second⟩ | ⟨first, second⟩ := cases other
    · rw [first, second]
      exact kids
    · rw [first, second]
      exact same.kids other

/-- Whether the codes fit depends on the parents, the lengths and the children. -/
theorem SameSizes.fitsUpwards_iff (same : SameSizes fs fs') (fuel dir : Nat) :
    FitsUpwards fuel fs' dir ↔ FitsUpwards fuel fs dir := by
  induction fuel generalizing fs fs' dir with
  | zero => exact Iff.rfl
  | succ fuel ih =>
    have size : fs'.totalSize (fs'.files dir).kids = fs.totalSize (fs.files dir).kids := by
      rw [totalSize_perm (same.kids dir)]
      exact totalSize_congr fun child _ => same.encodeSize child
    have next : ∀ size, SameSizes (fs.resized dir size) (fs'.resized dir size) := fun _ =>
      same.setFile (same.parent dir) rfl (same.kids dir)
    unfold FitsUpwards
    rw [size, same.parent, ih (next _)]

end ReferenceFs

/-- `UpdateEncode` on one directory whose code does not fit. -/
theorem refresh_eq_error (isDir : (fs.files index).isDir = true)
    (sized : ∀ child ∈ (fs.files index).kids, (fs.files child).Sized)
    (full : maxEncodeSize < fs.totalSize (fs.files index).kids + 2) :
    ∃ fault fs', refresh index fs = .error fault fs' := by
  have total : fs.totalSize ((fs.files index).kids.insertionSort fs.Before) =
      fs.totalSize (fs.files index).kids := fs.totalSize_perm (List.perm_insertionSort ..)
  obtain ⟨text, stops⟩ := fs.appendCodes_eq_error
    (show ∀ child ∈ (fs.files index).kids.insertionSort fs.Before, (fs.files child).Sized from
      fun child member => sized child ((List.mem_insertionSort _).mp member))
    (show ['['].length < maxEncodeSize by decide)
    (by rw [total, List.length_singleton]; omega)
  unfold refresh
  rw [get_bind_apply]
  dsimp only
  rw [if_pos isDir]
  by_cases inside : (fs.files index).children.length < (fs.files index).size
  · exact ⟨_, _, throwIf_bind_of inside⟩
  · rw [throwIf_bind_of_not inside, stops]
    exact ⟨_, _, rfl⟩

/-- `UpdateEncode` of a directory returns exactly when the codes fit up to the root, and then the
tree is the same. -/
theorem updateEncodeWithin_cases {used : List Nat} (shape : Shape fs used) (member : index ∈ used)
    (isDir : (fs.files index).isDir = true) (fuel : Nat) :
    (fs.FitsUpwards fuel index →
      ∃ next, updateEncodeWithin fuel index fs = .ok () next ∧ Recoded fs next) ∧
    (¬fs.FitsUpwards fuel index →
      ∃ fault next, updateEncodeWithin fuel index fs = .error fault next) := by
  induction fuel generalizing fs index with
  | zero => exact ⟨False.elim, fun _ => ⟨_, _, rfl⟩⟩
  | succ fuel ih =>
    have sized : ∀ child ∈ (fs.files index).kids, (fs.files child).Sized := fun child listed =>
      shape.sized child (shape.kids index member isDir child listed).1
    have dueSize : fs.dueSize index = fs.totalSize (fs.files index).kids + 2 := if_pos isDir
    rw [ReferenceFs.FitsUpwards]
    by_cases fits : fs.totalSize (fs.files index).kids + 2 ≤ maxEncodeSize
    · have same := fs.recode_same index (shape.inside index member)
      have recoded := ReferenceFs.recoded_setFile same
      obtain ⟨ends, goesOn⟩ := updateEncodeWithin_of_fits shape member
        (fun _ => dueSize.trans_le fits) fuel
      by_cases root : maxFileNum < (fs.files index).parent
      · rw [ends root]
        exact ⟨fun _ => ⟨_, rfl, recoded⟩, fun overflows => absurd ⟨fits, .inl root⟩ overflows⟩
      · rw [goesOn root]
        obtain ⟨parentUsed, parentDir, -⟩ := shape.listed index member _ (if_neg root)
        have sizes : ReferenceFs.SameSizes
            (fs.resized index (fs.totalSize (fs.files index).kids + 2))
            (fs.setFile index (fs.recode index)) :=
          ReferenceFs.SameSizes.setFile ⟨fun _ => rfl, fun _ => rfl, fun _ => .refl _⟩ same.parent
            ((ReferenceFs.encodeSize_recode shape member).trans dueSize) (same.kids isDir)
        obtain ⟨returns, throws⟩ := ih (shape.recoded recoded) parentUsed
          ((recoded.files _).isDir.trans parentDir)
        rw [sizes.fitsUpwards_iff] at returns throws
        constructor
        · rintro ⟨-, inside | higher⟩
          · exact absurd inside root
          · obtain ⟨next, runs, repaired⟩ := returns higher
            exact ⟨next, runs, recoded.trans repaired⟩
        · exact fun overflows => throws fun higher => overflows ⟨fits, .inr higher⟩
    · obtain ⟨fault, fs', stops⟩ := refresh_eq_error isDir sized (by omega)
      rw [updateEncodeWithin, bind_apply, stops]
      exact ⟨fun both => absurd both.1 fits, fun _ => ⟨fault, fs', rfl⟩⟩

end FsChecking.RefFs
