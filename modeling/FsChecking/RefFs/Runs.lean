import FsChecking.RefFs.Entries

/-!
# Runs of the reference file system

What the representation promises, in terms of the two lists and the files alone, and the condition
under which every call keeps it. The condition names the wrong turns of the code one by one.
-/

namespace FsChecking.RefFs

open Lib

/-- What the reference file system promises about its data. -/
structure Represented (fs : ReferenceFs) : Prop where
  /-- The used list ends. -/
  usedChain : Chain fs.link (pointer fs.usedList) fs.usedFiles
  /-- The free list ends. -/
  freeChain : Chain fs.link (pointer fs.freeList) fs.freeFiles
  /-- Every file is in one of the lists, once. -/
  partition : (fs.usedFiles ++ fs.freeFiles).Perm (List.range maxFileNum)
  /-- The length of the free list. -/
  freeNum : fs.freeNum = fs.freeFiles.length
  /-- Used paths are distinct. -/
  distinct : ∀ first ∈ fs.usedFiles, ∀ second ∈ fs.usedFiles,
    (fs.files first).fn = (fs.files second).fn → first = second
  /-- The parent of a used file other than the root. -/
  parent : ∀ child ∈ fs.usedFiles, child ≠ 0 → (fs.files child).parent ∈ fs.usedFiles ∧
    (fs.files (fs.files child).parent).isDir = true ∧
    parentPath (fs.files child).fn = some (fs.files (fs.files child).parent).fn
  /-- The parent lists the file once. -/
  listed : ∀ child ∈ fs.usedFiles, child ≠ 0 →
    (fs.files (fs.files child).parent).kids.count child = 1
  /-- The file is one level deeper. -/
  depth : ∀ child ∈ fs.usedFiles, child ≠ 0 →
    (fs.files child).depth = (fs.files (fs.files child).parent).depth + 1
  /-- The numbers of children. -/
  children : ∀ dir ∈ fs.usedFiles, (fs.files dir).isDir = true →
    (fs.files dir).size ≤ maxChildNum
  /-- `m_file_num`. -/
  fileNum : fs.fileNum = fs.usedFiles.countP fun index => (fs.files index).isDir = false
  /-- `m_dir_num`. -/
  dirNum : fs.dirNum = fs.usedFiles.countP fun index => (fs.files index).isDir
  /-- `m_opened`. -/
  opened : fs.opened = fs.usedFiles.countP fun index => (fs.files index).isOpen

/-- A call that throws or returns null has changed nothing, and no call has undefined behaviour. -/
def Unharmed (fs : ReferenceFs) : EStateM.Result Fault ReferenceFs Reply → Prop
  | .ok .done _ => True
  | .ok .null next => next = fs
  | .error .thrown next => next = fs
  | .error .abort _ => True
  | .error .undefined _ => False

/-- The calls that the representation is promised for. -/
def Proper (fs : ReferenceFs) : Call → Prop
  | .addPath _ _ _ => True
  | .removeFile path => ∀ index ∈ fs.findFileIndex path,
    index ≠ 0 ∧ ((fs.files index).isDir = true → (fs.files index).size = 0)
  | .moveFile _ dst => fs.findFileIndex dst = none ∧
    ∃ parentFn ∈ parentPath dst, (fs.findFileIndex parentFn).isSome
  | .updatePath _ _ => True
  | .updateFile index _ => index ∈ fs.usedFiles
  | .openFile index => index ∈ fs.usedFiles
  | .closeFile index => index ∈ fs.usedFiles
  | .demount => True

instance (fs : ReferenceFs) (call : Call) : Decidable (Proper fs call) := by
  cases call <;> unfold Proper <;> infer_instance

/-- The codes have room for another length of a file. -/
def ReferenceFs.Fits (fs : ReferenceFs) (index len : Nat) : Prop :=
  (fs.files index).isDir = false ∧
    fs.Room index ({ fs.files index with size := len } : RefFile).label.length

/-- The calls that do not take a wrong turn. -/
def Regular (fs : ReferenceFs) : Call → Prop
  | .addPath path isDir _ => fs.freeNum ≠ 0 → ∀ parentFn ∈ parentPath path,
    ∃ parent ∈ fs.findFileIndex parentFn, (fs.files parent).isDir = true ∧
      (fs.files parent).size < maxChildNum ∧ fs.findFileIndex path = none ∧
      fs.RoomFor parent (newSize isDir)
  | .removeFile path => ∀ index ∈ fs.findFileIndex path, (fs.files index).isOpen = false
  | .moveFile src dst => src ≠ [] ∧ ∀ _ ∈ fs.findFileIndex src,
    src ≠ ['\\'] ∧ parentPath dst = parentPath src
  | .updatePath path len => ∀ index ∈ fs.findFileIndex path,
    (fs.files index).isDir = false → len ≤ intMax → fs.Fits index len
  | .updateFile index len => len ≤ intMax → fs.Fits index len
  | .openFile index => (fs.files index).isOpen = false → (fs.files index).isDir = false →
    fs.Room index ({ fs.files index with isOpen := true } : RefFile).label.length
  | .closeFile _ => True
  | .demount => ∀ index ∈ fs.usedFiles, (fs.files index).isOpen = true →
    (fs.files index).fid ≠ invalidNid

instance (fs : ReferenceFs) (index length : Nat) : Decidable (fs.Room index length) :=
  inferInstanceAs (Decidable (∀ dir ∈ fs.ancestors index, _ ≤ _))

instance (fs : ReferenceFs) (dir length : Nat) : Decidable (fs.RoomFor dir length) :=
  inferInstanceAs (Decidable (∀ other ∈ dir :: fs.ancestors dir, _ ≤ _))

instance (fs : ReferenceFs) (index len : Nat) : Decidable (fs.Fits index len) :=
  inferInstanceAs (Decidable (_ ∧ _))

instance (fs : ReferenceFs) (call : Call) : Decidable (Regular fs call) := by
  cases call <;> unfold Regular <;> infer_instance

variable {all : Prop} {fs fs' : ReferenceFs} {used free : List Nat} {index : Nat}

/-- What every call keeps says what is promised. -/
theorem Kept.represented (kept : Kept False fs used free) : Represented fs where
  usedChain := by
    rw [kept.slots.usedFiles_eq]
    exact kept.slots.usedChain
  freeChain := by
    rw [kept.slots.freeFiles_eq]
    exact kept.slots.freeChain
  partition := by
    rw [kept.slots.usedFiles_eq, kept.slots.freeFiles_eq]
    exact kept.slots.partition
  freeNum := by
    rw [kept.slots.freeFiles_eq]
    exact kept.slots.freeNum
  distinct := by
    rw [kept.slots.usedFiles_eq]
    exact kept.tree.distinct
  parent := by
    rw [kept.slots.usedFiles_eq]
    intro child member notRoot
    have placed := kept.tree.placed child member notRoot
    exact ⟨placed.used, placed.isDir, placed.path⟩
  listed := by
    rw [kept.slots.usedFiles_eq]
    intro child member notRoot
    have placed := kept.tree.placed child member notRoot
    exact List.count_eq_one_of_mem (kept.tree.nodup _ placed.used placed.isDir) placed.listed
  depth := by
    rw [kept.slots.usedFiles_eq]
    exact fun child member notRoot => (kept.tree.placed child member notRoot).depth
  children := by
    rw [kept.slots.usedFiles_eq]
    exact kept.tree.size
  fileNum := by
    rw [kept.slots.usedFiles_eq]
    exact kept.counts.fileNum not_false
  dirNum := by
    rw [kept.slots.usedFiles_eq]
    exact kept.counts.dirNum not_false
  opened := by
    rw [kept.slots.usedFiles_eq]
    exact kept.counts.opened not_false

/-! ## The first state -/

/-- The links of the free list after `Initialize`. -/
theorem initialized_chain (fs : ReferenceFs) (count start : Nat) (notRoot : 0 < start)
    (ends : start + count = maxFileNum) :
    Chain fs.initialized.link (if count = 0 then none else some start)
      (List.range' start count) := by
  induction count generalizing start with
  | zero => rfl
  | succ count ih =>
    refine ⟨rfl, ?_⟩
    have rest := ih (start + 1) (Nat.succ_pos _) (by omega)
    have follows : fs.initialized.link start = if count = 0 then none else some (start + 1) := by
      unfold ReferenceFs.link ReferenceFs.initialized
      dsimp only
      rw [if_neg (Nat.ne_of_gt notRoot)]
      by_cases last : count = 0
      · rw [if_pos (by omega), if_pos last]
        rfl
      · rw [if_neg (by omega), if_neg last]
        have inside : start + 1 < maxFileNum := by omega
        exact pointer_of_lt inside
    rw [follows]
    exact rest

/-- The lists after `Initialize`. -/
theorem initialized_slots (fs : ReferenceFs) :
    Slots fs.initialized [0] (List.range' 1 (maxFileNum - 1)) where
  usedChain := ⟨rfl, rfl⟩
  freeChain := initialized_chain fs (maxFileNum - 1) 1 Nat.one_pos rfl
  partition := by
    have whole : List.range maxFileNum = [0] ++ List.range' 1 (maxFileNum - 1) := by
      rw [List.range_eq_range']
      rfl
    rw [whole]
  freeNum := (List.length_range').symm

/-- The root after `Initialize` has no children. -/
theorem initialized_kids (fs : ReferenceFs) : (fs.initialized.files 0).kids = [] := rfl

/-- The tree after `Initialize`. -/
theorem initialized_tree (fs : ReferenceFs) : Tree fs.initialized [0] where
  root := List.mem_singleton_self 0
  rootDir := rfl
  rootPath := rfl
  rootParent := rfl
  bounded := fun index member => by
    rw [List.mem_singleton.mp member]
    exact Nat.succ_pos _
  distinct := fun first left second right _ =>
    (List.mem_singleton.mp left).trans (List.mem_singleton.mp right).symm
  placed := fun child member notRoot => absurd (List.mem_singleton.mp member) notRoot
  array := fun index member => by
    rw [List.mem_singleton.mp member]
    exact List.length_replicate
  size := fun dir member _ => by
    rw [List.mem_singleton.mp member]
    exact Nat.zero_le _
  nodup := fun dir member _ => by
    rw [List.mem_singleton.mp member, initialized_kids]
    exact List.nodup_nil
  kids := fun dir member _ child listed => by
    rw [List.mem_singleton.mp member, initialized_kids] at listed
    cases listed

/-- The codes after `Initialize`. -/
theorem initialized_coded (all : Prop) (fs : ReferenceFs) : Coded all fs.initialized [0] where
  sized := fun index member => by
    rw [List.mem_singleton.mp member]
    exact RefFile.printCode_sized _ _
  dirs := fun dir member _ => by
    rw [List.mem_singleton.mp member]
    exact ⟨List.Pairwise.nil, RefFile.code_printCode _ _⟩
  bounded := fun dir member _ => by
    rw [List.mem_singleton.mp member]
    exact Nat.le_add_left 2 510
  labelled := fun index member isFile _ => by
    rw [List.mem_singleton.mp member] at isFile
    cases isFile

/-- `Initialize` of an object whose counters of files and of open files are zero. -/
theorem initialized_kept (noFiles : ¬ all → fs.fileNum = 0) (noneOpen : ¬ all → fs.opened = 0) :
    Kept all fs.initialized [0] (List.range' 1 (maxFileNum - 1)) :=
  ⟨initialized_slots fs, initialized_tree fs,
    ⟨noFiles, fun _ => rfl, noneOpen, fun dir member _ => by rw [List.mem_singleton.mp member]; rfl⟩,
    initialized_coded all fs⟩

/-- `Initialize` gives what is promised exactly when the two counters that it leaves are zero. -/
theorem initialized_represented_iff (fs : ReferenceFs) :
    Represented fs.initialized ↔ fs.fileNum = 0 ∧ fs.opened = 0 := by
  constructor
  · intro represented
    have files := represented.fileNum
    have opened := represented.opened
    rw [(initialized_slots fs).usedFiles_eq] at files opened
    exact ⟨files, opened⟩
  · rintro ⟨noFiles, noneOpen⟩
    exact (initialized_kept (fun _ => noFiles) fun _ => noneOpen).represented

/-! ## Runs -/

/-- The calls that keep one of the two promises. -/
def Allowed (all : Prop) (fs : ReferenceFs) : Call → Prop
  | .removeFile path => ¬ all → Regular fs (.removeFile path)
  | .demount => (¬ all → Regular fs .demount) ∧
    (all → ∀ index ∈ fs.usedFiles, (fs.files index).isOpen = false)
  | call => Regular fs call

/-- A call without wrong turns keeps the counters. -/
theorem Regular.allowed {call : Call} (regular : Regular fs call) : Allowed False fs call := by
  cases call with
  | removeFile path => exact fun _ => regular
  | demount => exact ⟨fun _ => regular, False.elim⟩
  | addPath => exact regular
  | moveFile => exact regular
  | updatePath => exact regular
  | updateFile => exact regular
  | openFile => exact regular
  | closeFile => exact regular

/-- The calls on a state that the representation describes. -/
theorem Kept.call (kept : Kept all fs used free) {call : Call} (proper : Proper fs call)
    (allowed : Allowed all fs call) :
    Unharmed fs (call.run fs) ∧
      ∀ reply next, call.run fs = .ok reply next → ∃ used free, Kept all next used free := by
  have listed : ∀ index ∈ fs.usedFiles, index ∈ used := fun index member => by
    rwa [kept.slots.usedFiles_eq] at member
  have plain : ∀ program : Program Unit, Fine all fs (program fs) →
      Unharmed fs ((program >>= fun _ => pure Reply.done) fs) ∧
        ∀ reply next, (program >>= fun _ => pure Reply.done) fs = .ok reply next →
          ∃ used free, Kept all next used free := by
    intro program fine
    rw [bind_apply]
    cases ran : program fs with
    | ok value next =>
      rw [ran] at fine
      refine ⟨trivial, fun reply last same => ?_⟩
      cases same
      exact fine
    | error fault next =>
      rw [ran] at fine
      refine ⟨?_, nofun⟩
      cases fault with
      | thrown => exact fine
      | abort => trivial
      | undefined => exact fine
  cases call with
  | addPath path isDir fid =>
    obtain ⟨fine, null⟩ := kept.addPath path isDir fid
      fun notFull parentFn leads => by
        obtain ⟨parent, found, isDirectory, room, unused, fits⟩ := allowed notFull parentFn leads
        exact ⟨parent, found, isDirectory, room, unused, fits⟩
    change Unharmed fs ((RefFs.addPath path isDir fid >>= fun added =>
        pure (if added = none then Reply.null else Reply.done)) fs) ∧
      ∀ reply next, (RefFs.addPath path isDir fid >>= fun added =>
        pure (if added = none then Reply.null else Reply.done)) fs = .ok reply next → _
    rw [bind_apply]
    cases ran : RefFs.addPath path isDir fid fs with
    | ok added next =>
      rw [ran] at fine null
      refine ⟨?_, fun reply last same => ?_⟩
      · cases added with
        | none => exact null next rfl
        | some index => trivial
      · cases same
        exact fine
    | error fault next =>
      rw [ran] at fine
      refine ⟨?_, nofun⟩
      cases fault with
      | thrown => exact fine
      | abort => trivial
      | undefined => exact fine
  | removeFile path =>
    refine plain (RefFs.removeFile path) (kept.removeFile fun index found => ?_)
    obtain ⟨notRoot, leaf⟩ := proper index found
    refine ⟨notRoot, fun isDir => ?_, fun counted => allowed counted index found⟩
    unfold RefFile.kids
    rw [leaf isDir]
    exact List.take_zero
  | moveFile src dst =>
    obtain ⟨srcFull, sameDir⟩ := allowed
    obtain ⟨unused, parentFn, leads, -⟩ := proper
    refine plain (RefFs.moveFile src dst) (kept.moveFile srcFull fun index found => ?_)
    obtain ⟨notRoot, same⟩ := sameDir index found
    exact ⟨notRoot, Tree.notEmpty_of_parent leads, same, unused⟩
  | updatePath path len =>
    exact plain (RefFs.updatePath path len) (kept.updatePath fun index found isFile fits =>
      (allowed index found isFile fits).2)
  | updateFile index len =>
    exact plain (RefFs.updateFile index len) (kept.updateFile (listed index proper) allowed)
  | openFile index =>
    exact plain (RefFs.openFile index) (kept.openFile (listed index proper) allowed)
  | closeFile index =>
    exact plain (RefFs.closeFile index) (kept.closeFile (listed index proper))
  | demount =>
    refine plain (modify ReferenceFs.demount) ⟨used, free, kept.demount ?_ ?_⟩
    · intro counted index member isOpen
      exact allowed.1 counted index (by rwa [kept.slots.usedFiles_eq]) isOpen
    · intro every index member
      exact allowed.2 every index (by rwa [kept.slots.usedFiles_eq])

/-- The states of a run that keeps one of the two promises. -/
theorem Run.kept {first : ReferenceFs} {allowed : ReferenceFs → Call → Prop}
    (start : Kept all first used free)
    (fine : ∀ fs call, allowed fs call → Proper fs call ∧ Allowed all fs call)
    (run : Run allowed first fs) : ∃ used free, Kept all fs used free := by
  induction run with
  | start => exact ⟨used, free, start⟩
  | returns call _ passes does ih =>
    obtain ⟨used, free, kept⟩ := ih
    obtain ⟨proper, keeps⟩ := fine _ call passes
    exact (kept.call proper keeps).2 _ _ does
  | throws call _ passes does ih =>
    obtain ⟨used, free, kept⟩ := ih
    obtain ⟨proper, keeps⟩ := fine _ call passes
    have unharmed := (kept.call proper keeps).1
    rw [does] at unharmed
    rw [show _ = _ from unharmed]
    exact ⟨used, free, kept⟩

/-- A run that starts with the two counters at zero and takes no wrong turn keeps the
representation, and in it every call that throws or returns null changes nothing. -/
theorem regular_runs_represented (earlier : ReferenceFs)
    (cleared : earlier.fileNum = 0 ∧ earlier.opened = 0)
    (run : Run (fun fs call => Proper fs call ∧ Regular fs call) earlier.initialized fs) :
    Represented fs ∧
      ∀ call, Proper fs call → Regular fs call → Unharmed fs (call.run fs) := by
  obtain ⟨used, free, kept⟩ := Run.kept
    (initialized_kept (fun _ => cleared.1) fun _ => cleared.2)
    (fun _ _ passes => ⟨passes.1, passes.2.allowed⟩) run
  exact ⟨kept.represented, fun call proper regular => (kept.call proper regular.allowed).1⟩

/-- Carry out calls, as long as they are allowed. -/
def follow (allowed : ReferenceFs → Call → Prop) [∀ fs call, Decidable (allowed fs call)] :
    List Call → ReferenceFs → Option ReferenceFs
  | [], fs => some fs
  | call :: calls, fs =>
    if allowed fs call then
      match call.run fs with
      | .ok _ next => follow allowed calls next
      | .error .thrown next => follow allowed calls next
      | .error _ _ => none
    else none

/-- Carrying out calls prolongs a run. -/
theorem Run.follow {allowed : ReferenceFs → Call → Prop}
    [∀ fs call, Decidable (allowed fs call)] {first last : ReferenceFs} {calls : List Call}
    (before : Run allowed first fs) (does : follow allowed calls fs = some last) :
    Run allowed first last := by
  induction calls generalizing fs with
  | nil =>
    cases does
    exact before
  | cons call calls ih =>
    unfold RefFs.follow at does
    split at does
    · rename_i fine
      split at does
      · rename_i reply next ran
        exact ih (before.returns call fine ran) does
      · rename_i next ran
        exact ih (before.throws call fine ran) does
      · cases does
    · cases does

/-- An object whose memory is zero. -/
def ReferenceFs.zero : ReferenceFs where
  files := fun _ => RefFile.zero
  freeList := 0
  usedList := 0
  freeNum := 0
  opened := 0
  fileNum := 0
  dirNum := 0
  resetCount := 0

/-- A run that adds, writes, opens, moves, closes and removes. -/
theorem regular_runs_represented_sample :
    ∃ fs, follow (fun fs call => Proper fs call ∧ Regular fs call) [.addPath "\\d".toList true 1, .addPath "\\d\\f".toList false 2,
        .addPath "f".toList false 3, .updatePath "\\d\\f".toList 700, .openFile 2,
        .moveFile "\\d\\f".toList "\\d\\g".toList, .closeFile 2,
        .removeFile "\\d\\g".toList, .demount] ReferenceFs.zero.initialized = some fs ∧
      Represented fs := by
  have does : (follow (fun fs call => Proper fs call ∧ Regular fs call) [.addPath "\\d".toList true 1, .addPath "\\d\\f".toList false 2,
      .addPath "f".toList false 3, .updatePath "\\d\\f".toList 700, .openFile 2,
      .moveFile "\\d\\f".toList "\\d\\g".toList, .closeFile 2,
      .removeFile "\\d\\g".toList, .demount] ReferenceFs.zero.initialized).isSome = true := by
    decide +kernel
  obtain ⟨fs, last⟩ := Option.isSome_iff_exists.mp does
  exact ⟨fs, last, (regular_runs_represented ReferenceFs.zero ⟨rfl, rfl⟩
    (Run.follow .start last)).1⟩

/-- Initializing an object again after a file has been added miscounts the files. -/
theorem representation_lost :
    ¬ ∀ earlier fs : ReferenceFs, Run Proper earlier.initialized fs →
      Represented fs ∧ ∀ call, Proper fs call → Unharmed fs (call.run fs) := by
  intro promised
  let earlier := finalState ((Call.addPath "\\a".toList false 1).run ReferenceFs.zero.initialized)
  have counted : earlier.fileNum = 1 := by decide +kernel
  have zero := ((initialized_represented_iff earlier).mp (promised earlier _ .start).1).1
  rw [counted] at zero
  cases zero

end FsChecking.RefFs
