import FsChecking.RefFs.Encode
import Mathlib.Data.List.Perm.Subperm

/-!
# The used and the free list

The two intrusive lists of the reference file system share the array of files between them.
`get_file` moves the first free file to the front of the used list, and `put_file` moves any used
file to the front of the free list.
-/

namespace FsChecking.RefFs

open Lib

/-- The two lists, and the counter of the second. -/
structure Slots (fs : ReferenceFs) (used free : List Nat) : Prop where
  /-- The used list. -/
  usedChain : Chain fs.link (pointer fs.usedList) used
  /-- The free list. -/
  freeChain : Chain fs.link (pointer fs.freeList) free
  /-- Every file is in one of them. -/
  partition : (used ++ free).Perm (List.range maxFileNum)
  /-- The length of the free list. -/
  freeNum : fs.freeNum = free.length

/-- A pointer that is not null. -/
theorem pointer_of_lt {index : Nat} (inside : index < maxFileNum) : pointer index = some index :=
  if_neg fun same => by rw [same] at inside; exact absurd inside (by decide)

/-- The file that a pointer leads to. -/
theorem pointer_eq_some {index file : Nat} (leads : pointer index = some file) : index = file := by
  unfold pointer at leads
  split at leads
  · cases leads
  · exact Option.some.inj leads

namespace Slots

variable {fs fs' : ReferenceFs} {used free : List Nat} {index : Nat}

/-- The lists depend on the links and the list heads. -/
theorem congr (slots : Slots fs used free)
    (next : ∀ index, (fs'.files index).next = (fs.files index).next)
    (usedList : fs'.usedList = fs.usedList) (freeList : fs'.freeList = fs.freeList)
    (freeNum : fs'.freeNum = fs.freeNum) : Slots fs' used free := by
  have link : fs'.link = fs.link := by
    funext index
    unfold ReferenceFs.link
    rw [next]
  exact ⟨by rw [link, usedList]; exact slots.usedChain,
    by rw [link, freeList]; exact slots.freeChain, slots.partition,
    by rw [freeNum]; exact slots.freeNum⟩

/-- No file is listed twice. -/
theorem nodup (slots : Slots fs used free) : (used ++ free).Nodup :=
  slots.partition.nodup_iff.mpr List.nodup_range

/-- Used files are in the array. -/
theorem used_lt (slots : Slots fs used free) (member : index ∈ used) : index < maxFileNum :=
  List.mem_range.mp (slots.partition.mem_iff.mp (List.mem_append_left _ member))

/-- Free files are in the array. -/
theorem free_lt (slots : Slots fs used free) (member : index ∈ free) : index < maxFileNum :=
  List.mem_range.mp (slots.partition.mem_iff.mp (List.mem_append_right _ member))

/-- There are as many files as entries of the array. -/
theorem length (slots : Slots fs used free) : used.length + free.length = maxFileNum := by
  rw [← List.length_append, slots.partition.length_eq, List.length_range]

/-- The used list as the code walks it. -/
theorem usedFiles_eq (slots : Slots fs used free) : fs.usedFiles = used :=
  slots.usedChain.walk_eq (by have length := slots.length; omega)

/-- The free list as the code walks it. -/
theorem freeFiles_eq (slots : Slots fs used free) : fs.freeFiles = free :=
  slots.freeChain.walk_eq (by have length := slots.length; omega)

/-- A chain when one node that is not on it changes. -/
theorem chain_setFile {start : Option Nat} {nodes : List Nat} {file : RefFile}
    (chain : Chain fs.link start nodes) (absent : index ∉ nodes) :
    Chain (fs.setFile index file).link start nodes := by
  refine chain.congr fun node member => ?_
  unfold ReferenceFs.link
  rw [ReferenceFs.setFile_of_ne]
  rintro rfl
  exact absent member

/-- `get_file` takes the first free file. -/
theorem getFile (slots : Slots fs used (index :: free)) :
    ∃ next, getFile fs = .ok index next ∧ Slots next (index :: used) free ∧
      (∀ other, other ≠ index → next.files other = fs.files other) ∧
      next = { fs.setFile index { fs.files index with next := fs.usedList } with
        freeList := (fs.files index).next, freeNum := fs.freeNum - 1, usedList := index } := by
  have head := pointer_eq_some slots.freeChain.1
  have inside := slots.free_lt List.mem_cons_self
  have nodup := List.nodup_append.mp slots.nodup
  have notUsed : index ∉ used := fun member =>
    nodup.2.2 index member index List.mem_cons_self rfl
  have notFree : index ∉ free := (List.nodup_cons.mp nodup.2.1).1
  let next : ReferenceFs := { fs.setFile index { fs.files index with next := fs.usedList } with
    freeList := (fs.files index).next, freeNum := fs.freeNum - 1, usedList := index }
  refine ⟨next, ?_, ⟨?_, ?_, ?_, ?_⟩, fun other apart => ReferenceFs.setFile_of_ne apart _, rfl⟩
  · unfold RefFs.getFile
    simp only [get_bind_apply, set_bind_apply, pure_apply, head]
    rfl
  · refine ⟨pointer_of_lt inside, ?_⟩
    have self : next.link index = pointer fs.usedList := by
      change pointer ((fs.setFile index _).files index).next = _
      rw [ReferenceFs.setFile_self]
    rw [self]
    exact chain_setFile slots.usedChain notUsed
  · have tail := slots.freeChain.2
    exact chain_setFile tail notFree
  · exact List.perm_middle.symm.trans slots.partition
  · change fs.freeNum - 1 = _
    rw [slots.freeNum]
    rfl

/-- Taking a file out of the middle of a chain, by the link of its predecessor. -/
theorem chain_unlink {before : Nat} {nodes : List Nat} {start : Nat}
    (chain : Chain fs.link (pointer start) nodes) (nodup : nodes.Nodup) (member : index ∈ nodes)
    (notFirst : start ≠ index) (predecessor : (fs.files before).next = index)
    (listed : before ∈ nodes) (inside : index < maxFileNum) :
    Chain (fs.setFile before
      { fs.files before with next := (fs.files index).next }).link (pointer start)
      (nodes.erase index) := by
  induction nodes generalizing start with
  | nil => cases member
  | cons head rest ih =>
    obtain ⟨leads, tail⟩ := chain
    obtain rfl := pointer_eq_some leads
    obtain ⟨absent, nodupRest⟩ := List.nodup_cons.mp nodup
    have notHead : index ≠ start := Ne.symm notFirst
    have inRest := (List.mem_cons.mp member).resolve_left notHead
    rw [List.erase_cons_tail (by simpa using notFirst)]
    refine ⟨leads, ?_⟩
    by_cases here : before = start
    · subst here
      have link : (fs.setFile before
          { fs.files before with next := (fs.files index).next }).link before =
          fs.link index := by
        unfold ReferenceFs.link
        rw [ReferenceFs.setFile_self]
      rw [link]
      have linkBefore : fs.link before = some index := by
        unfold ReferenceFs.link
        rw [predecessor, pointer_of_lt inside]
      rw [linkBefore] at tail
      obtain ⟨others, rfl, later⟩ := tail.of_some
      rw [List.erase_cons_head]
      exact chain_setFile later fun later => absent (List.mem_cons_of_mem _ later)
    · have link : (fs.setFile before
          { fs.files before with next := (fs.files index).next }).link start =
          fs.link start := by
        unfold ReferenceFs.link
        rw [ReferenceFs.setFile_of_ne (Ne.symm here)]
      rw [link]
      have inTail := (List.mem_cons.mp listed).resolve_left here
      refine ih tail nodupRest inRest ?_ inTail
      -- Two predecessors of one file would list it twice.
      intro follows
      have linkBefore : fs.link before = some index := by
        unfold ReferenceFs.link
        rw [predecessor, pointer_of_lt inside]
      unfold ReferenceFs.link at tail
      rw [follows, pointer_of_lt inside] at tail
      obtain ⟨others, rfl, later⟩ := Chain.of_some tail
      change Chain fs.link (fs.link index) others at later
      refine (List.nodup_cons.mp nodupRest).1 ?_
      rcases List.mem_cons.mp inTail with rfl | further
      · rw [linkBefore] at later
        obtain ⟨_, rfl, -⟩ := later.of_some
        exact List.mem_cons_self
      · exact later.next_mem further linkBefore

/-- No file of a chain is its own successor. -/
theorem no_self_link {start : Option Nat} {nodes : List Nat} (chain : Chain fs.link start nodes)
    (nodup : nodes.Nodup) (member : index ∈ nodes) : fs.link index ≠ some index := by
  induction nodes generalizing start with
  | nil => cases member
  | cons head rest ih =>
    obtain ⟨-, tail⟩ := chain
    obtain ⟨absent, nodupRest⟩ := List.nodup_cons.mp nodup
    rcases List.mem_cons.mp member with rfl | later
    · intro itself
      rw [itself] at tail
      obtain ⟨_, rfl, -⟩ := tail.of_some
      exact absent List.mem_cons_self
    · exact ih tail nodupRest later

/-- The predecessor that `put_file` looks for. -/
theorem find_predecessor {nodes : List Nat} {start : Nat}
    (chain : Chain fs.link (pointer start) nodes) (member : index ∈ nodes)
    (notFirst : start ≠ index) :
    ∃ before ∈ nodes, (fs.files before).next = index := by
  induction nodes generalizing start with
  | nil => cases member
  | cons head rest ih =>
    obtain ⟨leads, tail⟩ := chain
    obtain rfl := pointer_eq_some leads
    have inRest := (List.mem_cons.mp member).resolve_left (Ne.symm notFirst)
    by_cases follows : (fs.files start).next = index
    · exact ⟨start, List.mem_cons_self, follows⟩
    · obtain ⟨before, listed, precedes⟩ := ih tail inRest follows
      exact ⟨before, List.mem_cons_of_mem _ listed, precedes⟩

/-- The file that `put_file` leaves at the front of the free list. -/
def freed (fs : ReferenceFs) : RefFile :=
  { RefFile.zero with next := fs.freeList, fid := invalidNid }

/-- `put_file` moves a used file to the free list. -/
theorem putFile (slots : Slots fs used free) (member : index ∈ used) :
    ∃ next, putFile index fs = .ok () next ∧ Slots next (used.erase index) (index :: free) ∧
      (∀ other, other ≠ index → ∃ link,
        next.files other = { fs.files other with next := link }) ∧
      { next with
        files := fs.files, usedList := fs.usedList, freeList := fs.freeList
        freeNum := fs.freeNum } = fs := by
  have inside := slots.used_lt member
  have nodup := List.nodup_append.mp slots.nodup
  have notFree : index ∉ free := fun free => nodup.2.2 index member index free rfl
  have partition : (used.erase index ++ index :: free).Perm (List.range maxFileNum) := by
    refine List.perm_middle.trans (.trans ?_ slots.partition)
    exact (List.perm_cons_erase member).symm.append_right free
  by_cases first : fs.usedList = index
  · let next : ReferenceFs :=
      { fs.setFile index (freed fs) with
        usedList := (fs.files index).next, freeList := index, freeNum := fs.freeNum + 1 }
    have chain := slots.usedChain
    rw [first, pointer_of_lt inside] at chain
    obtain ⟨rest, rfl, tail⟩ := chain.of_some
    rw [List.erase_cons_head] at partition ⊢
    have notRest := (List.nodup_cons.mp nodup.1).1
    refine ⟨next, ?_, ⟨?_, ?_, partition, ?_⟩, ?_, rfl⟩
    · unfold RefFs.putFile
      simp only [get_bind_apply, if_pos first, set_bind_apply, modify_apply]
      rfl
    · exact chain_setFile tail notRest
    · refine ⟨pointer_of_lt inside, ?_⟩
      have self : next.link index = pointer fs.freeList := by
        change pointer ((fs.setFile index _).files index).next = _
        rw [ReferenceFs.setFile_self]
        rfl
      rw [self]
      exact chain_setFile slots.freeChain notFree
    · change fs.freeNum + 1 = _
      rw [slots.freeNum]
      rfl
    · exact fun other apart => ⟨(fs.files other).next, ReferenceFs.setFile_of_ne apart _⟩
  · obtain ⟨before, listed, precedes⟩ := find_predecessor slots.usedChain member first
    have found : ∃ found, fs.usedFiles.find? (fun before => (fs.files before).next = index) =
        some found := by
      rw [slots.usedFiles_eq]
      refine Option.isSome_iff_exists.mp (List.find?_isSome.mpr ⟨before, listed, ?_⟩)
      exact decide_eq_true precedes
    obtain ⟨found, finds⟩ := found
    have foundNext : (fs.files found).next = index := by
      simpa using List.find?_some finds
    have foundListed : found ∈ used := by
      rw [slots.usedFiles_eq] at finds
      exact List.mem_of_find?_eq_some finds
    have apart : found ≠ index := by
      rintro rfl
      refine no_self_link slots.usedChain nodup.1 foundListed ?_
      unfold ReferenceFs.link
      rw [foundNext, pointer_of_lt inside]
    have foundNotFree : found ∉ free := fun free =>
      nodup.2.2 found foundListed found free rfl
    let unlinked : ReferenceFs :=
      fs.setFile found { fs.files found with next := (fs.files index).next }
    let next : ReferenceFs :=
      { unlinked.setFile index (freed fs) with freeList := index, freeNum := fs.freeNum + 1 }
    refine ⟨next, ?_, ⟨?_, ?_, partition, ?_⟩, ?_, rfl⟩
    · unfold RefFs.putFile
      simp only [get_bind_apply, if_neg first, finds, set_bind_apply, modify_apply]
      rfl
    · have chain := chain_unlink slots.usedChain nodup.1 member first foundNext foundListed inside
      exact chain_setFile chain (nodup.1.not_mem_erase)
    · refine ⟨pointer_of_lt inside, ?_⟩
      have self : next.link index = pointer fs.freeList := by
        change pointer ((unlinked.setFile index _).files index).next = _
        rw [ReferenceFs.setFile_self]
        rfl
      rw [self]
      exact chain_setFile (chain_setFile slots.freeChain foundNotFree) notFree
    · change fs.freeNum + 1 = _
      rw [slots.freeNum]
      rfl
    · intro other notIndex
      have kept : next.files other = unlinked.files other := ReferenceFs.setFile_of_ne notIndex _
      rw [kept]
      by_cases here : other = found
      · rw [here]
        exact ⟨_, ReferenceFs.setFile_self ..⟩
      · exact ⟨(fs.files other).next, ReferenceFs.setFile_of_ne here _⟩

end Slots

end FsChecking.RefFs
