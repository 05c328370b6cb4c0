import FsChecking.RefFs.Calls

/-!
# Entries that are added, removed and moved

`AddPath`, `RemoveFile` and `MoveFile` change the tree and then repair the codes above the directory
that has changed.
-/

namespace FsChecking.RefFs

open Lib

variable {all : Prop} {fs fs' : ReferenceFs} {used free : List Nat} {index : Nat}

/-- The directories above a used file depend on the parents of the used files. -/
theorem Tree.ancestors_congr (tree : Tree fs used)
    (same : ∀ other ∈ used, fs'.parentLink other = fs.parentLink other) (member : index ∈ used) :
    fs'.ancestors index = fs.ancestors index := by
  obtain ⟨chain, -, inside, short⟩ := tree.path_ancestors member
  have chain' : Chain fs'.parentLink (some index) (index :: fs.ancestors index) :=
    chain.congr fun node onPath => same node (inside node onPath)
  exact chain'.2.walk_eq (Nat.le_of_lt short)

/-- The file that a path of a used file finds. -/
theorem Kept.find_eq (kept : Kept all fs used free) (member : index ∈ used) :
    fs.findFileIndex (fs.files index).fn = some index := by
  unfold ReferenceFs.findFileIndex
  rw [kept.slots.usedFiles_eq]
  exact kept.tree.find_eq member

/-- The file that a path finds. -/
theorem Kept.of_find (kept : Kept all fs used free) {path : Text}
    (found : fs.findFileIndex path = some index) :
    index ∈ used ∧ (fs.files index).fn = path := by
  unfold ReferenceFs.findFileIndex at found
  rw [kept.slots.usedFiles_eq] at found
  exact ⟨List.mem_of_find?_eq_some found, by simpa using List.find?_some found⟩

/-- A path that finds no file is not used. -/
theorem Kept.of_find_none (kept : Kept all fs used free) {path : Text}
    (found : fs.findFileIndex path = none) : ∀ index ∈ used, (fs.files index).fn ≠ path := by
  intro index member same
  rw [← same, kept.find_eq member] at found
  cases found

/-! ## Adding -/

/-- The length of the code of a new file. -/
def newSize (isDir : Bool) : Nat := if isDir then 2 else 3

/-- The state of `AddPath` before the codes are repaired. -/
def grown (fs : ReferenceFs) (index parent : Nat) (path : Text) (isDir : Bool) (fid : Nat) :
    ReferenceFs :=
  let fs := fs.setFile index
    (initFile (fs.files index) parent (fs.files parent).depth path isDir fid)
  let file := fs.files parent
  let fs := fs.setFile parent
    { file with children := file.children.set file.size index, size := file.size + 1 }
  if isDir then { fs with dirNum := increment fs.dirNum }
  else { fs with fileNum := increment fs.fileNum }

/-- What the state of `AddPath` before the repair consists of. -/
structure Grown (before after : ReferenceFs) (used : List Nat) (index parent : Nat) (path : Text)
    (isDir : Bool) (fid : Nat) : Prop where
  /-- The new file. -/
  self : ∃ blank, after.files index =
    initFile blank parent (before.files parent).depth path isDir fid
  /-- Its directory. -/
  dir : after.files parent =
    { before.files parent with
      children := (before.files parent).children.set (before.files parent).size index
      size := (before.files parent).size + 1 }
  /-- The other used files. -/
  others : ∀ other ∈ used, other ≠ parent → after.files other = before.files other
  /-- `m_opened`. -/
  opened : after.opened = before.opened
  /-- `m_dir_num`. -/
  dirNum : after.dirNum = if isDir then increment before.dirNum else before.dirNum
  /-- `m_file_num`. -/
  fileNum : after.fileNum = if isDir then before.fileNum else increment before.fileNum

/-- `get_file`, `InitFile` and the entry in the directory. -/
theorem grown_spec (slots : Slots fs used (index :: free)) {parent : Nat} (member : parent ∈ used)
    {next : ReferenceFs} (got : next =
      { fs.setFile index { fs.files index with next := fs.usedList } with
        freeList := (fs.files index).next, freeNum := fs.freeNum - 1, usedList := index })
    (moved : Slots next (index :: used) free) (path : Text) (isDir : Bool) (fid : Nat) :
    Grown fs (grown next index parent path isDir fid) used index parent path isDir fid ∧
      Slots (grown next index parent path isDir fid) (index :: used) free := by
  have fresh : index ∉ used := fun listed =>
    (List.nodup_append.mp slots.nodup).2.2 index listed index List.mem_cons_self rfl
  have apart : parent ≠ index := fun same => fresh (same ▸ member)
  let started := next.setFile index
    (initFile (next.files index) parent (next.files parent).depth path isDir fid)
  let listed := started.setFile parent
    { started.files parent with
      children := (started.files parent).children.set (started.files parent).size index
      size := (started.files parent).size + 1 }
  have nextFiles : ∀ other, other ≠ index → next.files other = fs.files other := by
    intro other foreign
    rw [got]
    exact ReferenceFs.setFile_of_ne foreign _
  have parentFile : started.files parent = fs.files parent :=
    (ReferenceFs.setFile_of_ne apart _).trans (nextFiles parent apart)
  have files : (grown next index parent path isDir fid).files = listed.files := by
    unfold grown
    dsimp only
    split <;> rfl
  have self : listed.files index =
      initFile (next.files index) parent (fs.files parent).depth path isDir fid := by
    rw [← nextFiles parent apart]
    exact (ReferenceFs.setFile_of_ne (Ne.symm apart) _).trans (ReferenceFs.setFile_self ..)
  have dir : listed.files parent =
      { fs.files parent with
        children := (fs.files parent).children.set (fs.files parent).size index
        size := (fs.files parent).size + 1 } := by
    rw [← parentFile]
    exact ReferenceFs.setFile_self ..
  have others : ∀ other, other ≠ parent → other ≠ index →
      listed.files other = next.files other := fun other notParent notIndex =>
    (ReferenceFs.setFile_of_ne notParent _).trans (ReferenceFs.setFile_of_ne notIndex _)
  refine ⟨⟨?_, ?_, ?_, ?_, ?_, ?_⟩, ?_⟩
  · rw [files]
    exact ⟨_, self⟩
  · rw [files]
    exact dir
  · intro other otherUsed notParent
    have notIndex : other ≠ index := fun same => fresh (same ▸ otherUsed)
    rw [files, others other notParent notIndex, nextFiles other notIndex]
  · unfold grown
    subst got
    split <;> rfl
  · unfold grown
    subst got
    split <;> rfl
  · unfold grown
    subst got
    split <;> rfl
  · refine moved.congr (fun other => ?_) ?_ ?_ ?_
    · rw [files]
      by_cases notParent : other = parent
      · rw [notParent, dir, nextFiles parent apart]
      · by_cases notIndex : other = index
        · rw [notIndex, self]
          rfl
        · rw [others other notParent notIndex]
    all_goals
      unfold grown
      split <;> rfl

/-- The code of a new file. -/
theorem initFile_code (blank : RefFile) (parent depth : Nat) (path : Text) (isDir : Bool)
    (fid : Nat) : (initFile blank parent depth path isDir fid).code =
      if isDir then ['[', ']'] else ['(', '0', ')'] := by
  change (blank.printCode _).code = _
  exact RefFile.code_printCode _ _

/-- The length of the code of a new file. -/
theorem initFile_encodeSize (blank : RefFile) (parent depth : Nat) (path : Text) (isDir : Bool)
    (fid : Nat) : (initFile blank parent depth path isDir fid).encodeSize = newSize isDir := by
  change (if isDir then ['[', ']'] else ['(', '0', ')']).length = newSize isDir
  cases isDir <;> rfl

/-- The label of a new file. -/
theorem initFile_label (blank : RefFile) (parent depth : Nat) (path : Text) (fid : Nat) :
    (initFile blank parent depth path false fid).label = ['(', '0', ')'] := by
  have version : (initFile blank parent depth path false fid).version = 0 := by
    change dword (0 + blockSize - 1) / blockSize / scale = 0
    decide
  have isClosed : ¬ (initFile blank parent depth path false fid).isOpen = true :=
    Bool.false_ne_true
  unfold RefFile.label
  rw [if_neg isClosed, version]
  rfl

/-- The counters after a file has been added. -/
theorem Grown.counts (kept : Kept all fs used (index :: free)) {parent : Nat}
    {path : Text} {isDir : Bool} {fid : Nat}
    (grown : Grown fs fs' used index parent path isDir fid) :
    Counts all fs' (index :: used) := by
  obtain ⟨blank, self⟩ := grown.self
  have same : ∀ other ∈ used, (fs'.files other).isDir = (fs.files other).isDir ∧
      (fs'.files other).isOpen = (fs.files other).isOpen := by
    intro other otherUsed
    by_cases here : other = parent
    · rw [here, grown.dir]
      exact ⟨rfl, rfl⟩
    · rw [grown.others other otherUsed here]
      exact ⟨rfl, rfl⟩
  have newDir : (fs'.files index).isDir = isDir := by rw [self]; rfl
  have newClosed : (fs'.files index).isOpen = false := by rw [self]; rfl
  refine ⟨fun counted => ?_, fun counted => ?_, fun counted => ?_, ?_⟩
  · have old : used.countP (fun other => decide ((fs'.files other).isDir = false)) = fs.fileNum :=
      (List.countP_congr fun other otherUsed => by rw [(same other otherUsed).1]).trans
        (kept.counts.fileNum counted).symm
    rw [grown.fileNum, List.countP_cons, old, newDir]
    cases isDir
    · rw [kept.counts.fileNum counted]
      simp [increment_countP kept.slots]
    · simp
  · have old : used.countP (fun other => (fs'.files other).isDir) = fs.dirNum :=
      (List.countP_congr fun other otherUsed => by rw [(same other otherUsed).1]).trans
        (kept.counts.dirNum counted).symm
    rw [grown.dirNum, List.countP_cons, old, newDir]
    cases isDir
    · simp
    · rw [kept.counts.dirNum counted]
      simp [increment_countP kept.slots]
  · have old : used.countP (fun other => (fs'.files other).isOpen) = fs.opened :=
      (List.countP_congr fun other otherUsed => by rw [(same other otherUsed).2]).trans
        (kept.counts.opened counted).symm
    rw [grown.opened, List.countP_cons, old, newClosed]
    simp
  · intro dir listed kind
    rcases List.mem_cons.mp listed with rfl | dirUsed
    · exact newClosed
    · rw [(same dir dirUsed).1] at kind
      exact (same dir dirUsed).2.trans (kept.counts.closedDirs dir dirUsed kind)

/-- The codes after a file has been added, before they are repaired. -/
theorem Grown.codes (kept : Kept all fs used (index :: free)) {parent : Nat}
    (member : parent ∈ used) (parentDir : (fs.files parent).isDir = true)
    (room : (fs.files parent).size < maxChildNum) {path : Text} {isDir : Bool} {fid : Nat}
    (grown : Grown fs fs' used index parent path isDir fid) :
    (∀ other ∈ index :: used, (fs'.files other).Sized) ∧
      (∀ dir ∈ index :: used, (fs'.files dir).isDir = true → dir ≠ parent →
        fs'.Refreshed dir ∧ (fs'.files dir).encodeSize ≤ maxEncodeSize) ∧
      fs'.dueSize parent = (fs.files parent).encodeSize + newSize isDir := by
  obtain ⟨blank, self⟩ := grown.self
  have fresh : index ∉ used := fun listed =>
    (List.nodup_append.mp kept.slots.nodup).2.2 index listed index List.mem_cons_self rfl
  have codes : ∀ other ∈ used, (fs'.files other).encode = (fs.files other).encode ∧
      (fs'.files other).encodeSize = (fs.files other).encodeSize := by
    intro other otherUsed
    by_cases here : other = parent
    · rw [here, grown.dir]
      exact ⟨rfl, rfl⟩
    · rw [grown.others other otherUsed here]
      exact ⟨rfl, rfl⟩
  have shape := kept.tree.shape kept.coded.sized
  have inside : (fs.files parent).size < (fs.files parent).children.length := by
    rw [kept.tree.array parent member]
    exact room
  have kids : (fs'.files parent).kids = (fs.files parent).kids ++ [index] := by
    rw [grown.dir]
    exact Tree.kids_append inside index
  refine ⟨fun other listed => ?_, fun dir listed kind apart => ?_, ?_⟩
  · rcases List.mem_cons.mp listed with rfl | otherUsed
    · rw [self]
      exact RefFile.printCode_sized _ _
    · unfold RefFile.Sized
      rw [(codes other otherUsed).1, (codes other otherUsed).2]
      exact kept.coded.sized other otherUsed
  · rcases List.mem_cons.mp listed with rfl | dirUsed
    · have isDirectory : isDir = true := by
        rw [self] at kind
        exact kind
      subst isDirectory
      have noKids : (fs'.files dir).kids = [] := by
        rw [self]
        exact List.take_zero
      refine ⟨?_, ?_⟩
      · unfold ReferenceFs.Refreshed
        rw [if_pos kind, noKids, self, initFile_code]
        exact ⟨List.Pairwise.nil, rfl⟩
      · rw [self, initFile_encodeSize]
        decide
    · have stays := grown.others dir dirUsed apart
      rw [stays] at kind ⊢
      refine ⟨(kept.coded.dirs dir dirUsed kind).transfer kind (by rw [stays, kind])
        (by rw [stays]) fun other known => ?_, kept.coded.bounded dir dirUsed kind⟩
      rcases known with rfl | kid
      · exact codes other dirUsed
      · exact codes other (shape.kids dir dirUsed kind other kid).1
  · have stillDir : (fs'.files parent).isDir = true := by
      rw [grown.dir]
      exact parentDir
    have before := (kept.coded.dirs parent member parentDir).dueSize
      (kept.coded.sized parent member)
      fun child kid => kept.coded.sized child (shape.kids parent member parentDir child kid).1
    have old : fs'.totalSize (fs.files parent).kids = fs.totalSize (fs.files parent).kids :=
      ReferenceFs.totalSize_congr fun child kid =>
        (codes child (shape.kids parent member parentDir child kid).1).2
    unfold ReferenceFs.dueSize at before ⊢
    rw [if_pos parentDir] at before
    rw [if_pos stillDir, kids]
    have split : fs'.totalSize ((fs.files parent).kids ++ [index]) =
        fs'.totalSize (fs.files parent).kids + (fs'.files index).encodeSize := by
      simp [ReferenceFs.totalSize]
    rw [split, old, self, initFile_encodeSize]
    omega

/-- The directories from a directory upwards have room for a longer code below them. -/
def ReferenceFs.RoomFor (fs : ReferenceFs) (dir length : Nat) : Prop :=
  ∀ other ∈ dir :: fs.ancestors dir, (fs.files other).encodeSize + length ≤ maxEncodeSize

/-- Repairing the codes after a file has been added. -/
theorem Grown.repair (kept : Kept all fs used (index :: free)) {parent : Nat}
    (member : parent ∈ used) (parentDir : (fs.files parent).isDir = true)
    (room : (fs.files parent).size < maxChildNum) {path : Text} {isDir : Bool} {fid : Nat}
    (unused : ∀ other ∈ used, (fs.files other).fn ≠ path)
    (leads : parentPath path = some (fs.files parent).fn)
    (fits : fs.RoomFor parent (newSize isDir)) (slots : Slots fs' (index :: used) free)
    (grown : Grown fs fs' used index parent path isDir fid) :
    ∃ next, updateEncode parent fs' = .ok () next ∧ Kept all next (index :: used) free := by
  obtain ⟨blank, self⟩ := id grown.self
  have fresh : index ∉ used := fun listed =>
    (List.nodup_append.mp kept.slots.nodup).2.2 index listed index List.mem_cons_self rfl
  have tree := kept.tree.add fresh (kept.slots.free_lt List.mem_cons_self) member parentDir room
    unused leads self grown.dir grown.others
  obtain ⟨sized, dirs, due⟩ := grown.codes kept member parentDir room
  have links : ∀ other ∈ used, fs'.parentLink other = fs.parentLink other := by
    intro other otherUsed
    unfold ReferenceFs.parentLink
    by_cases here : other = parent
    · rw [here, grown.dir]
    · rw [grown.others other otherUsed here]
  have ancestors : fs'.ancestors parent = fs.ancestors parent :=
    kept.tree.ancestors_congr links member
  obtain ⟨-, nodup, inside, -⟩ := kept.tree.path_ancestors member
  have parentSize : (fs'.files parent).encodeSize = (fs.files parent).encodeSize := by
    rw [grown.dir]
  have roomAbove : fs'.Room parent (fs'.dueSize parent) := by
    intro dir onPath
    rw [ancestors] at onPath
    have apart : dir ≠ parent := fun same => (List.nodup_cons.mp nodup).1 (same ▸ onPath)
    rw [grown.others dir (inside dir (List.mem_cons_of_mem _ onPath)) apart, due, parentSize]
    have enough := fits dir (List.mem_cons_of_mem _ onPath)
    omega
  obtain ⟨next, runs, recoded, -, repaired, others⟩ := tree.updateEncode
    (List.mem_cons_of_mem _ member) sized (fun dir listed kind apart => (dirs dir listed kind apart).1)
    (fun dir listed kind apart => (dirs dir listed kind apart).2)
    (fun _ => due ▸ fits parent List.mem_cons_self) roomAbove
  refine ⟨next, runs, recoded.kept slots tree (grown.counts kept) sized repaired ?_⟩
  intro other listed isFile covered
  have apart : other ≠ parent := by
    rintro rfl
    rw [grown.dir, parentDir] at isFile
    cases isFile
  rw [others other listed isFile apart]
  rcases List.mem_cons.mp listed with rfl | otherUsed
  · have newFile : isDir = false := by
      rw [self] at isFile
      exact isFile
    subst newFile
    rw [self, initFile_code, initFile_label]
    rfl
  · rw [grown.others other otherUsed apart] at isFile covered ⊢
    exact kept.coded.labelled other otherUsed isFile covered

/-- `AddPath` to a directory, when the codes can be repaired. -/
theorem addPath_eq_ok (slots : Slots fs used (index :: free)) {parent : Nat} (member : parent ∈ used)
    {path parentFn : Text} {isDir : Bool} {fid : Nat} (short : ¬ maxPathSize < path.length)
    (leads : parentPath path = some parentFn) (found : fs.findFileIndex parentFn = some parent)
    (parentDir : (fs.files parent).isDir = true) (room : (fs.files parent).size < maxChildNum)
    {next last : ReferenceFs} (gets : getFile fs = .ok index next)
    (parentFile : next.files parent = fs.files parent)
    (repairs : updateEncode parent (grown next index parent path isDir fid) = .ok () last) :
    addPath path isDir fid fs = .ok (some index) last := by
  have fresh : index ∉ used := fun listed =>
    (List.nodup_append.mp slots.nodup).2.2 index listed index List.mem_cons_self rfl
  have apart : parent ≠ index := fun same => fresh (same ▸ member)
  have notFull : fs.freeNum ≠ 0 := by
    rw [slots.freeNum]
    exact Nat.succ_ne_zero _
  have hasRoom : ¬ maxChildNum ≤ ((next.setFile index (initFile (next.files index) parent
      (next.files parent).depth path isDir fid)).files parent).size := by
    rw [ReferenceFs.setFile_of_ne apart, parentFile]
    omega
  have isDirectory : ¬ (next.files parent).isDir = false := by
    rw [parentFile, parentDir]
    exact Bool.noConfusion
  unfold RefFs.addPath throwIf
  simp only [get_bind_apply]
  rw [if_neg notFull, if_neg short]
  simp only [pure_bind, leads, found]
  rw [bind_apply, gets]
  simp only [if_neg apart, pure_bind, get_bind_apply]
  rw [if_neg isDirectory, if_neg hasRoom]
  simp only [pure_bind, set_bind_apply]
  change (updateEncode parent >>= _) (grown next index parent path isDir fid) = _
  rw [bind_apply, repairs]
  rfl

/-- `AddPath` of a path that is not used, to a directory that has room. -/
theorem Kept.addPath (kept : Kept all fs used free) (path : Text) (isDir : Bool) (fid : Nat)
    (regular : fs.freeNum ≠ 0 → ∀ parentFn, parentPath path = some parentFn →
      ∃ parent, fs.findFileIndex parentFn = some parent ∧ (fs.files parent).isDir = true ∧
        (fs.files parent).size < maxChildNum ∧ fs.findFileIndex path = none ∧
        fs.RoomFor parent (newSize isDir)) :
    Fine all fs (addPath path isDir fid fs) ∧
      ∀ next, addPath path isDir fid fs = .ok none next → next = fs := by
  by_cases full : fs.freeNum = 0
  · have null : RefFs.addPath path isDir fid fs = .ok none fs := by
      unfold RefFs.addPath
      simp only [get_bind_apply, if_pos full]
      rfl
    rw [null]
    exact ⟨⟨used, free, kept⟩, fun next same => (EStateM.Result.ok.inj same).2.symm⟩
  by_cases long : maxPathSize < path.length
  · have aborts : RefFs.addPath path isDir fid fs = .error .abort fs := by
      unfold RefFs.addPath throwIf
      simp only [get_bind_apply, if_neg full, if_pos long]
      rfl
    rw [aborts]
    exact ⟨trivial, fun next same => by cases same⟩
  cases leads : parentPath path with
  | none =>
    have throws : RefFs.addPath path isDir fid fs = .error .thrown fs := by
      unfold RefFs.addPath throwIf
      simp only [get_bind_apply, if_neg full, if_neg long, pure_bind, leads]
      rfl
    rw [throws]
    exact ⟨rfl, fun next same => by cases same⟩
  | some parentFn =>
    obtain ⟨parent, found, parentDir, room, unused, fits⟩ := regular full parentFn leads
    obtain ⟨member, parentPath⟩ := kept.of_find found
    cases free with
    | nil => exact absurd kept.slots.freeNum full
    | cons index free =>
      obtain ⟨next, gets, moved, others, got⟩ := kept.slots.getFile
      have apart : parent ≠ index := by
        rintro rfl
        exact (List.nodup_append.mp kept.slots.nodup).2.2 parent member parent
          List.mem_cons_self rfl
      obtain ⟨grows, slots⟩ := grown_spec kept.slots member got moved path isDir fid
      obtain ⟨last, repairs, keeps⟩ := grows.repair kept member parentDir room
        (kept.of_find_none unused) (by rw [leads, parentPath]) fits slots
      rw [addPath_eq_ok kept.slots member long leads found parentDir room gets
        (others parent apart) repairs]
      exact ⟨⟨_, _, keeps⟩, fun next same => by cases same⟩

/-! ## Removing -/

/-- The state of `RemoveFile` before the codes are repaired. -/
def pruned (fs : ReferenceFs) (index position : Nat) : ReferenceFs :=
  let parent := (fs.files index).parent
  let next := fs.setFile parent (Tree.withoutChild (fs.files parent) position)
  if (fs.files index).isDir then { next with dirNum := decrement next.dirNum }
  else { next with fileNum := decrement next.fileNum }

/-- The files of the state of `RemoveFile` before the repair. -/
theorem pruned_files (fs : ReferenceFs) (index position : Nat) :
    (pruned fs index position).files = (fs.setFile (fs.files index).parent
      (Tree.withoutChild (fs.files (fs.files index).parent) position)).files := by
  unfold pruned
  dsimp only
  split <;> rfl

/-- Counting without one of the items. -/
theorem countP_erase_gain {counts : Nat → Bool} (member : index ∈ used) :
    used.countP counts = (used.erase index).countP counts + if counts index then 1 else 0 := by
  rw [(List.perm_cons_erase member).countP_eq, List.countP_cons]

/-- The counters after a file that is not open has been removed. -/
theorem Kept.pruned_counts (kept : Kept all fs used free) (member : index ∈ used)
    (isClosed : ¬ all → (fs.files index).isOpen = false) (position : Nat) :
    Counts all (pruned fs index position) (used.erase index) := by
  have inside : ∀ other ∈ used.erase index, other ∈ used := fun other listed =>
    List.mem_of_mem_erase listed
  have same : ∀ other, ((pruned fs index position).files other).isDir = (fs.files other).isDir ∧
      ((pruned fs index position).files other).isOpen = (fs.files other).isOpen := by
    intro other
    rw [pruned_files]
    by_cases here : other = (fs.files index).parent
    · rw [here, ReferenceFs.setFile_self]
      exact ⟨rfl, rfl⟩
    · rw [ReferenceFs.setFile_of_ne here]
      exact ⟨rfl, rfl⟩
  have opened : (pruned fs index position).opened = fs.opened := by
    unfold pruned
    dsimp only
    split <;> rfl
  refine ⟨fun counted => ?_, fun counted => ?_, fun counted => ?_, ?_⟩
  · have left : (used.erase index).countP
        (fun other => decide (((pruned fs index position).files other).isDir = false)) =
        (used.erase index).countP fun other => decide ((fs.files other).isDir = false) :=
      List.countP_congr fun other _ => by rw [(same other).1]
    have total := kept.counts.fileNum counted
    rw [countP_erase_gain member] at total
    rw [left]
    unfold pruned
    dsimp only
    split
    · rename_i isDir
      change fs.fileNum = _
      simpa [isDir] using total
    · rename_i isFile
      have isFile : (fs.files index).isDir = false := by simpa using isFile
      simp only [isFile, decide_true, if_true] at total
      change decrement fs.fileNum = _
      rw [total, decrement_succ]
  · have left : (used.erase index).countP
        (fun other => ((pruned fs index position).files other).isDir) =
        (used.erase index).countP fun other => (fs.files other).isDir :=
      List.countP_congr fun other _ => by rw [(same other).1]
    have total := kept.counts.dirNum counted
    rw [countP_erase_gain member] at total
    rw [left]
    unfold pruned
    dsimp only
    split
    · rename_i isDir
      simp only [isDir, if_true] at total
      change decrement fs.dirNum = _
      rw [total, decrement_succ]
    · rename_i isFile
      change fs.dirNum = _
      simpa [isFile] using total
  · have left : (used.erase index).countP
        (fun other => ((pruned fs index position).files other).isOpen) =
        (used.erase index).countP fun other => (fs.files other).isOpen :=
      List.countP_congr fun other _ => by rw [(same other).2]
    have total := kept.counts.opened counted
    rw [countP_erase_gain member, isClosed counted] at total
    rw [left, opened, total]
    rfl
  · intro dir listed isDir
    rw [(same dir).1] at isDir
    rw [(same dir).2]
    exact kept.counts.closedDirs dir (inside dir listed) isDir

/-- What taking out an entry of a directory leaves as it is. -/
theorem pruned_same (fs : ReferenceFs) (index position other : Nat) :
    ((pruned fs index position).files other).encode = (fs.files other).encode ∧
      ((pruned fs index position).files other).encodeSize = (fs.files other).encodeSize ∧
      ((pruned fs index position).files other).isDir = (fs.files other).isDir ∧
      ((pruned fs index position).files other).isOpen = (fs.files other).isOpen ∧
      ((pruned fs index position).files other).next = (fs.files other).next ∧
      ((pruned fs index position).files other).parent = (fs.files other).parent := by
  rw [pruned_files]
  by_cases here : other = (fs.files index).parent
  · rw [here, ReferenceFs.setFile_self]
    exact ⟨rfl, rfl, rfl, rfl, rfl, rfl⟩
  · rw [ReferenceFs.setFile_of_ne here]
    exact ⟨rfl, rfl, rfl, rfl, rfl, rfl⟩

/-- The code of a directory gets shorter when an entry is taken out. -/
theorem Kept.pruned_due (kept : Kept all fs used free) (member : index ∈ used)
    (notRoot : index ≠ 0) {position : Nat}
    (found : (fs.files (fs.files index).parent).kids.findIdx? (· = index) = some position) :
    (pruned fs index position).dueSize (fs.files index).parent + (fs.files index).encodeSize =
      (fs.files (fs.files index).parent).encodeSize := by
  have placed := kept.tree.placed index member notRoot
  have shape := kept.tree.shape kept.coded.sized
  let parent := (fs.files index).parent
  have before := (kept.coded.dirs parent placed.used placed.isDir).dueSize
    (kept.coded.sized parent placed.used)
    fun child kid => kept.coded.sized child (shape.kids parent placed.used placed.isDir child kid).1
  have inside : (fs.files parent).size ≤ (fs.files parent).children.length := by
    rw [kept.tree.array parent placed.used]
    exact kept.tree.size parent placed.used placed.isDir
  have nodup := kept.tree.nodup parent placed.used placed.isDir
  have kids : ((pruned fs index position).files parent).kids.Perm
      ((fs.files parent).kids.erase index) := by
    rw [pruned_files, ReferenceFs.setFile_self]
    exact Tree.kids_remove inside nodup found
  have still : ((pruned fs index position).files parent).isDir = true :=
    (pruned_same fs index position parent).2.2.1.trans placed.isDir
  have rest : (pruned fs index position).totalSize ((pruned fs index position).files parent).kids =
      fs.totalSize ((fs.files parent).kids.erase index) :=
    (ReferenceFs.totalSize_perm kids).trans
      (ReferenceFs.totalSize_congr fun child _ => (pruned_same fs index position child).2.1)
  have whole : fs.totalSize (fs.files parent).kids =
      (fs.files index).encodeSize + fs.totalSize ((fs.files parent).kids.erase index) :=
    ReferenceFs.totalSize_perm (List.perm_cons_erase placed.listed)
  change (pruned fs index position).dueSize parent + _ = (fs.files parent).encodeSize
  unfold ReferenceFs.dueSize at before ⊢
  rw [if_pos placed.isDir] at before
  rw [if_pos still, rest]
  omega

/-- Repairing the codes after an entry has been taken out. -/
theorem Kept.pruned_repair (kept : Kept all fs used free) (member : index ∈ used)
    (notRoot : index ≠ 0)
    (leaf : (fs.files index).isDir = true → (fs.files index).kids = [])
    (isClosed : ¬ all → (fs.files index).isOpen = false) {position : Nat}
    (found : (fs.files (fs.files index).parent).kids.findIdx? (· = index) = some position) :
    ∃ next, updateEncode (fs.files index).parent (pruned fs index position) = .ok () next ∧
      Slots next used free ∧ Tree next (used.erase index) ∧ Counts all next (used.erase index) ∧
      Coded all next (used.erase index) := by
  have nodup := (List.nodup_append.mp kept.slots.nodup).1
  have placed := kept.tree.placed index member notRoot
  have same := pruned_same fs index position
  let parent := (fs.files index).parent
  have still : ∀ other ∈ used.erase index, other ∈ used := fun other listed =>
    List.mem_of_mem_erase listed
  have apart : parent ≠ index := by
    intro itself
    have isDir := placed.isDir
    have listed := placed.listed
    change (fs.files parent).isDir = true at isDir
    change index ∈ (fs.files parent).kids at listed
    rw [itself] at isDir listed
    rw [leaf isDir] at listed
    cases listed
  have parentStays : parent ∈ used.erase index := (nodup.mem_erase_iff).mpr ⟨apart, placed.used⟩
  have tree : Tree (pruned fs index position) (used.erase index) :=
    (kept.tree.remove nodup member notRoot leaf found).congr fun other _ => by
      rw [pruned_files]
      exact .refl _
  have others : ∀ other, other ≠ parent →
      (pruned fs index position).files other = fs.files other := by
    intro other foreign
    rw [pruned_files]
    exact ReferenceFs.setFile_of_ne foreign _
  have sized : ∀ other ∈ used.erase index, ((pruned fs index position).files other).Sized := by
    intro other listed
    unfold RefFile.Sized
    rw [(same other).1, (same other).2.1]
    exact kept.coded.sized other (still other listed)
  have due := kept.pruned_due member notRoot found
  have bounded : ∀ dir ∈ used.erase index, ((pruned fs index position).files dir).isDir = true →
      ((pruned fs index position).files dir).encodeSize ≤ maxEncodeSize := by
    intro dir listed isDir
    rw [(same dir).2.1]
    exact kept.coded.bounded dir (still dir listed) ((same dir).2.2.1.symm.trans isDir)
  have fits : (pruned fs index position).dueSize parent ≤ maxEncodeSize := by
    have bound := kept.coded.bounded parent placed.used placed.isDir
    change (pruned fs index position).dueSize parent + _ = (fs.files parent).encodeSize at due
    omega
  obtain ⟨chain, -, inside, -⟩ := tree.path_ancestors parentStays
  have room : (pruned fs index position).Room parent
      ((pruned fs index position).dueSize parent) := by
    intro dir onPath
    obtain ⟨listed, isDir⟩ := (tree.shape sized).above chain parentStays dir onPath
    have bound := bounded dir listed isDir
    have shorter : (pruned fs index position).dueSize parent ≤
        ((pruned fs index position).files parent).encodeSize := by
      rw [(same parent).2.1]
      exact Nat.le_of_add_right_le (Nat.le_of_eq due)
    omega
  obtain ⟨next, runs, recoded, -, repaired, frame⟩ := tree.updateEncode parentStays sized
    (fun dir listed isDir foreign => by
      have stays := others dir foreign
      rw [stays] at isDir
      exact (kept.coded.dirs dir (still dir listed) isDir).transfer isDir (by rw [stays, isDir])
        (by rw [stays]) fun other _ => ⟨(same other).1, (same other).2.1⟩)
    (fun dir listed isDir _ => bounded dir listed isDir) (fun _ => fits) room
  have slots : Slots (pruned fs index position) used free := by
    refine kept.slots.congr (fun other => (same other).2.2.2.2.1) ?_ ?_ ?_
    all_goals
      unfold pruned
      dsimp only
      split <;> rfl
  obtain ⟨tree', counts, coded⟩ := recoded.keeps all tree
    (kept.pruned_counts member isClosed position) sized repaired
    fun other listed isFile covered => by
      have foreign : other ≠ parent := by
        rintro rfl
        rw [(same _).2.2.1, placed.isDir] at isFile
        cases isFile
      rw [frame other listed isFile foreign]
      rw [others other foreign] at isFile covered ⊢
      exact kept.coded.labelled other (still other listed) isFile covered
  exact ⟨next, runs, recoded.slots slots, tree', counts, coded⟩

/-- `RemoveFile` of a file that, when it is a directory, has no children. It is not open where the
counters matter. -/
theorem Kept.removeFile (kept : Kept all fs used free) {path : Text}
    (regular : ∀ index, fs.findFileIndex path = some index → index ≠ 0 ∧
      ((fs.files index).isDir = true → (fs.files index).kids = []) ∧
      (¬ all → (fs.files index).isOpen = false)) :
    Fine all fs (removeFile path fs) := by
  unfold RefFs.removeFile throwIf
  rw [get_bind_apply]
  cases found : fs.findFileIndex path with
  | none => exact rfl
  | some index =>
    obtain ⟨notRoot, leaf, isClosed⟩ := regular index found
    obtain ⟨member, -⟩ := kept.of_find found
    have placed := kept.tree.placed index member notRoot
    have inside : ¬ maxFileNum ≤ (fs.files index).parent :=
      Nat.not_le.mpr (kept.tree.bounded _ placed.used)
    have listed : ∃ position,
        (fs.files (fs.files index).parent).kids.findIdx? (· = index) = some position :=
      Option.isSome_iff_exists.mp (List.findIdx?_isSome.trans
        (List.any_eq_true.mpr ⟨index, placed.listed, decide_eq_true rfl⟩))
    obtain ⟨position, listed⟩ := listed
    have child : removeChild (fs.files index).parent index fs =
        .ok () (fs.setFile (fs.files index).parent
          (Tree.withoutChild (fs.files (fs.files index).parent) position)) := by
      unfold removeChild
      rw [get_bind_apply, listed]
      rfl
    obtain ⟨next, repairs, slots, tree, counts, coded⟩ :=
      kept.pruned_repair member notRoot leaf isClosed listed
    obtain ⟨last, puts, lastSlots, links, rest⟩ := slots.putFile member
    have nodup := (List.nodup_append.mp kept.slots.nodup).1
    have linked : ∀ other ∈ used.erase index, ∃ link,
        last.files other = { next.files other with next := link } := fun other stays =>
      links other ((nodup.mem_erase_iff).mp stays).1
    have fileNum : last.fileNum = next.fileNum := by
      have same := congrArg ReferenceFs.fileNum rest
      exact same
    have dirNum : last.dirNum = next.dirNum := by
      have same := congrArg ReferenceFs.dirNum rest
      exact same
    have opened : last.opened = next.opened := by
      have same := congrArg ReferenceFs.opened rest
      exact same
    obtain ⟨tree', counts', coded'⟩ :=
      keeps_of_links tree counts coded linked fileNum dirNum opened
    simp only [if_neg inside, pure_bind]
    rw [bind_apply, child]
    simp only [modify_bind_apply]
    have runs : (updateEncode (fs.files index).parent >>= fun _ => RefFs.putFile index)
        (pruned fs index position) = .ok () last := by
      rw [bind_apply, repairs]
      exact puts
    change Fine all fs ((updateEncode (fs.files index).parent >>= fun _ => RefFs.putFile index)
      (pruned fs index position))
    rw [runs]
    exact ⟨_, _, lastSlots, tree', counts', coded'⟩

/-! ## Moving -/

/-- The state of `MoveFile` before the codes are repaired. -/
def renamed (fs : ReferenceFs) (used : List Nat) (src dst : Text) : ReferenceFs :=
  { fs with
    files := fun index =>
      if index ∈ used then
        { fs.files index with fn := moved src dst (fs.files index).fn }
      else fs.files index }

/-- The files of the state of `MoveFile` before the repair. -/
theorem renamed_file (member : index ∈ used) (src dst : Text) :
    (renamed fs used src dst).files index =
      { fs.files index with fn := moved src dst (fs.files index).fn } := if_pos member

/-- Moving a path that no file has changes nothing. -/
theorem Kept.renamed_unused (kept : Kept all fs used free) {src dst : Text} (srcFull : src ≠ [])
    (unused : ∀ index ∈ used, (fs.files index).fn ≠ src) : renamed fs used src dst = fs := by
  have files : (renamed fs used src dst).files = fs.files := by
    funext index
    by_cases member : index ∈ used
    · rw [renamed_file member, moved_of_not (kept.tree.not_below srcFull unused member)]
    · exact if_neg member
  cases fs
  simp only [renamed] at files ⊢
  rw [files]

/-- The files that `MoveFile` finds under the old path. -/
theorem Kept.filter_path (kept : Kept all fs used free) {src : Text} (member : index ∈ used)
    (path : (fs.files index).fn = src) :
    (used.filter fun other => (fs.files other).fn = src).getLast? = some index := by
  have listed : index ∈ used.filter fun other => (fs.files other).fn = src :=
    List.mem_filter.mpr ⟨member, decide_eq_true path⟩
  have only : ∀ other ∈ used.filter fun other => (fs.files other).fn = src, other = index := by
    intro other found
    obtain ⟨otherUsed, same⟩ := List.mem_filter.mp found
    exact kept.tree.distinct other otherUsed index member ((of_decide_eq_true same).trans path.symm)
  cases last : (used.filter fun other => (fs.files other).fn = src).getLast? with
  | none =>
    rw [List.getLast?_eq_none_iff.mp last] at listed
    cases listed
  | some other => rw [only other (List.mem_of_getLast? last)]

/-- The version of a directory after a move. -/
def aged (file : RefFile) : RefFile :=
  { file with ver := if file.ver < maxFileVersion then file.ver + 1 else file.ver }

/-- Repairing the codes after a move within a directory. -/
theorem Kept.renamed_repair (kept : Kept all fs used free) {src dst : Text} (srcFull : src ≠ [])
    (notRoot : src ≠ ['\\']) (dstFull : dst ≠ []) (sameDir : parentPath dst = parentPath src)
    (unused : ∀ index ∈ used, (fs.files index).fn ≠ dst) {parent : Nat} (member : parent ∈ used)
    (parentDir : (fs.files parent).isDir = true) :
    ∃ next, updateEncode parent ((renamed fs used src dst).setFile parent
        (aged ((renamed fs used src dst).files parent))) = .ok () next ∧
      Kept all next used free := by
  let last := (renamed fs used src dst).setFile parent
    (aged ((renamed fs used src dst).files parent))
  have files : ∀ other, ∃ fn ver,
      last.files other = { fs.files other with fn := fn, ver := ver } := by
    intro other
    have names : ∃ fn, (renamed fs used src dst).files other =
        { fs.files other with fn := fn } := by
      by_cases listed : other ∈ used
      · exact ⟨_, renamed_file listed src dst⟩
      · exact ⟨_, if_neg listed⟩
    obtain ⟨fn, names⟩ := names
    by_cases here : other = parent
    · subst here
      have self : last.files other = aged ((renamed fs used src dst).files other) :=
        ReferenceFs.setFile_self ..
      rw [self, names]
      exact ⟨_, _, rfl⟩
    · have stays : last.files other = (renamed fs used src dst).files other :=
        ReferenceFs.setFile_of_ne here _
      rw [stays, names]
      exact ⟨_, _, rfl⟩
  have moves : Tree (renamed fs used src dst) used :=
    kept.tree.move srcFull notRoot dstFull sameDir unused fun index listed =>
      renamed_file listed src dst
  have tree : Tree last used := by
    refine moves.congr fun other _ => ?_
    by_cases here : other = parent
    · subst here
      have self : last.files other = aged ((renamed fs used src dst).files other) :=
        ReferenceFs.setFile_self ..
      rw [self]
      exact ⟨rfl, rfl, rfl, rfl, rfl, fun _ => rfl, fun _ => .refl _⟩
    · have stays : last.files other = (renamed fs used src dst).files other :=
        ReferenceFs.setFile_of_ne here _
      rw [stays]
      exact .refl _
  have codes : ∀ other, (last.files other).encode = (fs.files other).encode ∧
      (last.files other).encodeSize = (fs.files other).encodeSize ∧
      (last.files other).isDir = (fs.files other).isDir ∧
      (last.files other).isOpen = (fs.files other).isOpen ∧
      (last.files other).next = (fs.files other).next ∧
      (last.files other).kids = (fs.files other).kids ∧
      (last.files other).label = (fs.files other).label ∧
      (last.files other).code = (fs.files other).code := by
    intro other
    obtain ⟨fn, ver, same⟩ := files other
    rw [same]
    exact ⟨rfl, rfl, rfl, rfl, rfl, rfl, rfl, rfl⟩
  have sized : ∀ other ∈ used, (last.files other).Sized := by
    intro other listed
    unfold RefFile.Sized
    rw [(codes other).1, (codes other).2.1]
    exact kept.coded.sized other listed
  have refreshed : ∀ dir ∈ used, (last.files dir).isDir = true → last.Refreshed dir := by
    intro dir listed isDir
    have wasDir := (codes dir).2.2.1.symm.trans isDir
    exact (kept.coded.dirs dir listed wasDir).transfer wasDir isDir (codes dir).2.2.2.2.2.1
      fun other _ => ⟨(codes other).1, (codes other).2.1⟩
  have bounded : ∀ dir ∈ used, (last.files dir).isDir = true →
      (last.files dir).encodeSize ≤ maxEncodeSize := by
    intro dir listed isDir
    rw [(codes dir).2.1]
    exact kept.coded.bounded dir listed ((codes dir).2.2.1.symm.trans isDir)
  have stillDir : (last.files parent).isDir = true := (codes parent).2.2.1.trans parentDir
  have due : last.dueSize parent = (last.files parent).encodeSize :=
    (refreshed parent member stillDir).dueSize (sized parent member) fun child kid =>
      sized child (tree.kids parent member stillDir child kid).1
  obtain ⟨chain, -, inside, -⟩ := tree.path_ancestors member
  obtain ⟨next, runs, recoded, -, repaired, frame⟩ := tree.updateEncode member sized
    (fun dir listed isDir _ => refreshed dir listed isDir)
    (fun dir listed isDir _ => bounded dir listed isDir)
    (fun isDir => due ▸ bounded parent member isDir)
    fun dir onPath => by
      obtain ⟨listed, isDir⟩ := (tree.shape sized).above chain member dir onPath
      have bound := bounded dir listed isDir
      omega
  have counts : Counts all last used := kept.counts.congr (fun other _ => (codes other).2.2.1)
    (fun other _ => (codes other).2.2.2.1) rfl rfl rfl
  refine ⟨next, runs, recoded.kept (kept.slots.congr (fun other => (codes other).2.2.2.2.1)
    rfl rfl rfl) tree counts sized repaired ?_⟩
  intro other listed isFile covered
  have foreign : other ≠ parent := by
    rintro rfl
    rw [stillDir] at isFile
    cases isFile
  rw [frame other listed isFile foreign, (codes other).2.2.2.2.2.2.1, (codes other).2.2.2.2.2.2.2]
  rw [(codes other).2.2.1] at isFile
  rw [(codes other).2.2.2.1] at covered
  exact kept.coded.labelled other listed isFile covered

/-- `MoveFile` of another file than the root, within its directory, to a path that is not used. -/
theorem Kept.moveFile (kept : Kept all fs used free) {src dst : Text} (srcFull : src ≠ [])
    (regular : ∀ index, fs.findFileIndex src = some index → src ≠ ['\\'] ∧ dst ≠ [] ∧
      parentPath dst = parentPath src ∧ fs.findFileIndex dst = none) :
    Fine all fs (moveFile src dst fs) := by
  unfold RefFs.moveFile throwIf
  rw [get_bind_apply, kept.slots.usedFiles_eq]
  split
  · exact trivial
  · simp only [pure_bind, set_bind_apply]
    cases found : fs.findFileIndex src with
    | none =>
      have unused := kept.of_find_none found
      have nothing : (used.filter fun index => (fs.files index).fn = src) = [] :=
        List.filter_eq_nil_iff.mpr fun index listed =>
          fun same => unused index listed (of_decide_eq_true same)
      have same := @Kept.renamed_unused _ _ _ _ kept src dst srcFull unused
      unfold renamed at same
      rw [same, nothing]
      exact rfl
    | some index =>
      obtain ⟨notRoot, dstFull, sameDir, unused⟩ := regular index found
      obtain ⟨member, path⟩ := kept.of_find found
      have other : index ≠ 0 := by
        rintro rfl
        exact notRoot (path.symm.trans kept.tree.rootPath)
      have placed := kept.tree.placed index member other
      have inside : ¬ maxFileNum ≤ (fs.files index).parent :=
        Nat.not_le.mpr (kept.tree.bounded _ placed.used)
      rw [kept.filter_path member path]
      dsimp only
      rw [if_neg inside]
      obtain ⟨next, runs, keeps⟩ := kept.renamed_repair srcFull notRoot dstFull sameDir
        (kept.of_find_none unused) placed.used placed.isDir
      simp only [pure_bind, modify_bind_apply]
      change Fine all fs (updateEncode (fs.files index).parent
        ((renamed fs used src dst).setFile (fs.files index).parent
          (aged ((renamed fs used src dst).files (fs.files index).parent))))
      rw [runs]
      exact ⟨used, free, keeps⟩

end FsChecking.RefFs
