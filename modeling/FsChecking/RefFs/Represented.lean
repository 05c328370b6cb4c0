import FsChecking.RefFs.Tree

/-!
# The representation of the reference file system

The lists, the tree, the counters and the codes together, and what every call does to them. The
codes of directories always agree with those of their children. A file that has been closed by
`Demount` keeps the code of an open one. There are therefore two promises, which a proposition
chooses between: the counters and the codes of the open files, or the codes of all files.
-/

namespace FsChecking.RefFs

open Lib

/-- The counters of the used files. -/
structure Counts (all : Prop) (fs : ReferenceFs) (used : List Nat) : Prop where
  /-- `m_file_num`. -/
  fileNum : ¬ all → fs.fileNum = used.countP fun index => (fs.files index).isDir = false
  /-- `m_dir_num`. -/
  dirNum : ¬ all → fs.dirNum = used.countP fun index => (fs.files index).isDir
  /-- `m_opened`. -/
  opened : ¬ all → fs.opened = used.countP fun index => (fs.files index).isOpen
  /-- Directories are not open. -/
  closedDirs : ∀ dir ∈ used, (fs.files dir).isDir = true → (fs.files dir).isOpen = false

/-- The codes of the used files; of closed files only under a condition. -/
structure Coded (all : Prop) (fs : ReferenceFs) (used : List Nat) : Prop where
  /-- The codes lie in their buffers. -/
  sized : ∀ index ∈ used, (fs.files index).Sized
  /-- Directories agree with their children. -/
  dirs : ∀ dir ∈ used, (fs.files dir).isDir = true → fs.Refreshed dir
  /-- The codes of directories fit. -/
  bounded : ∀ dir ∈ used, (fs.files dir).isDir = true →
    (fs.files dir).encodeSize ≤ maxEncodeSize
  /-- The codes of files are their labels. -/
  labelled : ∀ index ∈ used, (fs.files index).isDir = false →
    (all ∨ (fs.files index).isOpen = true) → (fs.files index).code = (fs.files index).label

/-- What every call keeps. -/
structure Kept (all : Prop) (fs : ReferenceFs) (used free : List Nat) : Prop where
  /-- The lists. -/
  slots : Slots fs used free
  /-- The tree. -/
  tree : Tree fs used
  /-- The counters. -/
  counts : Counts all fs used
  /-- The codes. -/
  coded : Coded all fs used

/-- The directories above a file. -/
def ReferenceFs.ancestors (fs : ReferenceFs) (index : Nat) : List Nat :=
  walk fs.parentLink maxFileNum (fs.parentLink index)

/-- The codes of the directories above a file have room when its code gets some length. -/
def ReferenceFs.Room (fs : ReferenceFs) (index length : Nat) : Prop :=
  ∀ dir ∈ fs.ancestors index,
    (fs.files dir).encodeSize + length ≤ maxEncodeSize + (fs.files index).encodeSize

variable {all : Prop} {fs fs' : ReferenceFs} {used free : List Nat} {index : Nat}

/-- The counters depend on the kinds of the used files and on whether they are open. -/
theorem Counts.congr (counts : Counts all fs used)
    (isDir : ∀ index ∈ used, (fs'.files index).isDir = (fs.files index).isDir)
    (isOpen : ∀ index ∈ used, (fs'.files index).isOpen = (fs.files index).isOpen)
    (fileNum : fs'.fileNum = fs.fileNum) (dirNum : fs'.dirNum = fs.dirNum)
    (opened : fs'.opened = fs.opened) : Counts all fs' used where
  fileNum := by
    intro counted
    rw [fileNum, counts.fileNum counted]
    exact List.countP_congr fun index member => by rw [isDir index member]
  dirNum := by
    intro counted
    rw [dirNum, counts.dirNum counted]
    exact List.countP_congr fun index member => by rw [isDir index member]
  opened := by
    intro counted
    rw [opened, counts.opened counted]
    exact List.countP_congr fun index member => by rw [isOpen index member]
  closedDirs := by
    intro dir member kind
    rw [isDir dir member] at kind
    rw [isOpen dir member]
    exact counts.closedDirs dir member kind

/-- The path to the root, as `UpdateEncode` follows it. -/
theorem Tree.path_ancestors (tree : Tree fs used) (member : index ∈ used) :
    Chain fs.parentLink (some index) (index :: fs.ancestors index) ∧
      (index :: fs.ancestors index).Nodup ∧ (∀ node ∈ index :: fs.ancestors index, node ∈ used) ∧
      (fs.ancestors index).length < maxFileNum := by
  obtain ⟨rest, chain, nodup, inside, -⟩ := tree.exists_path member
  have range : index :: rest ⊆ List.range maxFileNum := fun node onPath =>
    List.mem_range.mpr (tree.bounded node (inside node onPath))
  have fits := (List.subperm_of_subset nodup range).length_le
  rw [List.length_range, List.length_cons] at fits
  have walks : fs.ancestors index = rest := chain.2.walk_eq (by omega)
  rw [walks]
  exact ⟨chain, nodup, inside, by omega⟩

/-- `UpdateEncode` on a file of a tree in which every other directory has its code. -/
theorem Tree.updateEncode (tree : Tree fs used) (member : index ∈ used)
    (sized : ∀ index ∈ used, (fs.files index).Sized)
    (dirs : ∀ dir ∈ used, (fs.files dir).isDir = true → dir ≠ index → fs.Refreshed dir)
    (bounded : ∀ dir ∈ used, (fs.files dir).isDir = true → dir ≠ index →
      (fs.files dir).encodeSize ≤ maxEncodeSize)
    (fits : (fs.files index).isDir = true → fs.dueSize index ≤ maxEncodeSize)
    (room : fs.Room index (fs.dueSize index)) :
    ∃ next, updateEncode index fs = .ok () next ∧ Recoded fs next ∧ next.Refreshed index ∧
      (∀ dir ∈ used, (fs.files dir).isDir = true →
        next.Refreshed dir ∧ (next.files dir).encodeSize ≤ maxEncodeSize) ∧
      ∀ other ∈ used, (fs.files other).isDir = false → other ≠ index →
        next.files other = fs.files other := by
  obtain ⟨chain, nodup, inside, short⟩ := tree.path_ancestors member
  have shape := tree.shape sized
  have above := shape.above chain member
  have absent := (List.nodup_cons.mp nodup).1
  have due : ∀ dir ∈ fs.ancestors index, fs.dueSize dir = (fs.files dir).encodeSize := by
    intro dir onPath
    obtain ⟨dirUsed, isDir⟩ := above dir onPath
    have apart : dir ≠ index := fun same => absent (same ▸ onPath)
    exact (dirs dir dirUsed isDir apart).dueSize (sized dir dirUsed) fun child kid =>
      sized child (shape.kids dir dirUsed isDir child kid).1
  obtain ⟨next, runs, repaired⟩ := updateEncodeWithin_eq_ok shape chain nodup member
    (Nat.lt_succ_of_lt short) fits room due
  refine ⟨next, runs, repaired.recoded, repaired.refreshed index List.mem_cons_self, ?_, ?_⟩
  · intro dir dirUsed isDir
    by_cases onPath : dir ∈ index :: fs.ancestors index
    · exact ⟨repaired.refreshed dir onPath, repaired.bounded dir onPath
        ((repaired.recoded.files dir).isDir.trans isDir)⟩
    · have same := repaired.frame dir onPath
      have apart : dir ≠ index := fun same => onPath (same ▸ List.mem_cons_self)
      rw [same]
      refine ⟨(dirs dir dirUsed isDir apart).congr same fun _ child kid => ?_,
        bounded dir dirUsed isDir apart⟩
      -- A child on the path would have this directory above it.
      refine repaired.frame child fun kidOnPath => onPath ?_
      exact chain.next_mem kidOnPath (shape.kids dir dirUsed isDir child kid).2
  · intro other otherUsed notDir apart
    refine repaired.frame other fun onPath => ?_
    have isDir := (above other ((List.mem_cons.mp onPath).resolve_left apart)).2
    rw [notDir] at isDir
    cases isDir

/-- The tree, the counters and the codes after `UpdateEncode`. -/
theorem Recoded.keeps (all : Prop) {fs : ReferenceFs} (recoded : Recoded fs fs') (tree : Tree fs used)
    (counts : Counts all fs used) (sized : ∀ index ∈ used, (fs.files index).Sized)
    (dirs : ∀ dir ∈ used, (fs.files dir).isDir = true →
      fs'.Refreshed dir ∧ (fs'.files dir).encodeSize ≤ maxEncodeSize)
    (labelled : ∀ index ∈ used, (fs.files index).isDir = false →
      (all ∨ (fs.files index).isOpen = true) → (fs'.files index).code = (fs.files index).label) :
    Tree fs' used ∧ Counts all fs' used ∧ Coded all fs' used := by
  refine ⟨tree.congr fun index _ => (recoded.files index).toSamePlace, ?_, ?_, ?_, ?_, ?_⟩
  · have others := recoded.others
    refine counts.congr (fun index _ => (recoded.files index).isDir)
      (fun index _ => (recoded.files index).isOpen) ?_ ?_ ?_
    · have same := congrArg ReferenceFs.fileNum others
      exact same
    · have same := congrArg ReferenceFs.dirNum others
      exact same
    · have same := congrArg ReferenceFs.opened others
      exact same
  · exact fun index member => (recoded.files index).sized (sized index member)
  · exact fun dir member isDir =>
      (dirs dir member ((recoded.files dir).isDir.symm.trans isDir)).1
  · exact fun dir member isDir =>
      (dirs dir member ((recoded.files dir).isDir.symm.trans isDir)).2
  · intro index member notDir open'
    rw [(recoded.files index).isDir] at notDir
    rw [(recoded.files index).isOpen] at open'
    rw [(recoded.files index).label]
    exact labelled index member notDir open'

/-- The lists after `UpdateEncode`. -/
theorem Recoded.slots {fs : ReferenceFs} (recoded : Recoded fs fs') (slots : Slots fs used free) :
    Slots fs' used free := by
  have others := recoded.others
  refine slots.congr (fun index => (recoded.files index).next) ?_ ?_ ?_
  · have same := congrArg ReferenceFs.usedList others
    exact same
  · have same := congrArg ReferenceFs.freeList others
    exact same
  · have same := congrArg ReferenceFs.freeNum others
    exact same

/-- The whole state after `UpdateEncode`. -/
theorem Recoded.kept {fs : ReferenceFs} (recoded : Recoded fs fs') (slots : Slots fs used free)
    (tree : Tree fs used) (counts : Counts all fs used)
    (sized : ∀ index ∈ used, (fs.files index).Sized)
    (dirs : ∀ dir ∈ used, (fs.files dir).isDir = true →
      fs'.Refreshed dir ∧ (fs'.files dir).encodeSize ≤ maxEncodeSize)
    (labelled : ∀ index ∈ used, (fs.files index).isDir = false →
      (all ∨ (fs.files index).isOpen = true) → (fs'.files index).code = (fs.files index).label) :
    Kept all fs' used free := by
  obtain ⟨tree, counts, coded⟩ := recoded.keeps all tree counts sized dirs labelled
  exact ⟨recoded.slots slots, tree, counts, coded⟩

/-- The tree, the counters and the codes do not depend on the links of the lists. -/
theorem keeps_of_links (tree : Tree fs used) (counts : Counts all fs used) (coded : Coded all fs used)
    (files : ∀ index ∈ used, ∃ link, fs'.files index = { fs.files index with next := link })
    (fileNum : fs'.fileNum = fs.fileNum) (dirNum : fs'.dirNum = fs.dirNum)
    (opened : fs'.opened = fs.opened) :
    Tree fs' used ∧ Counts all fs' used ∧ Coded all fs' used := by
  have places : ∀ index ∈ used, SamePlace (fs.files index) (fs'.files index) := by
    intro index member
    obtain ⟨link, same⟩ := files index member
    rw [same]
    exact ⟨rfl, rfl, rfl, rfl, rfl, fun _ => rfl, fun _ => .refl _⟩
  have codes : ∀ index ∈ used, (fs'.files index).encode = (fs.files index).encode ∧
      (fs'.files index).encodeSize = (fs.files index).encodeSize ∧
      (fs'.files index).isOpen = (fs.files index).isOpen ∧
      (fs'.files index).label = (fs.files index).label ∧
      (fs'.files index).kids = (fs.files index).kids := by
    intro index member
    obtain ⟨link, same⟩ := files index member
    rw [same]
    exact ⟨rfl, rfl, rfl, rfl, rfl⟩
  refine ⟨tree.congr places, counts.congr (fun index member => (places index member).isDir)
    (fun index member => (codes index member).2.2.1) fileNum dirNum opened, ?_, ?_, ?_, ?_⟩
  · intro index member
    unfold RefFile.Sized
    rw [(codes index member).1, (codes index member).2.1]
    exact coded.sized index member
  · intro dir member isDir
    have wasDir := (places dir member).isDir.symm.trans isDir
    refine (coded.dirs dir member wasDir).transfer wasDir isDir (codes dir member).2.2.2.2
      fun other known => ?_
    rcases known with rfl | kid
    · exact ⟨(codes other member).1, (codes other member).2.1⟩
    · have otherUsed := (tree.kids dir member wasDir other kid).1
      exact ⟨(codes other otherUsed).1, (codes other otherUsed).2.1⟩
  · intro dir member isDir
    rw [(codes dir member).2.1]
    exact coded.bounded dir member ((places dir member).isDir.symm.trans isDir)
  · intro index member isFile covered
    rw [(codes index member).2.2.1] at covered
    unfold RefFile.code
    rw [(codes index member).1, (codes index member).2.1, (codes index member).2.2.2.1]
    exact coded.labelled index member ((places index member).isDir.symm.trans isFile) covered

end FsChecking.RefFs
