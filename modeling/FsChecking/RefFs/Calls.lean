import FsChecking.RefFs.Represented

/-!
# What the calls keep

Every call that meets its condition keeps the lists, the tree, the counters and the codes, and a
call that throws or returns null changes nothing. The conditions are those under which the code
does not take one of its wrong turns: a file is not left behind in the used list, a code does not
overflow after the tree has been changed, and no counter is forgotten.
-/

namespace FsChecking.RefFs

open Lib

variable {all : Prop} {fs fs' : ReferenceFs} {used free : List Nat} {index : Nat}

/-! ## Files that are written, opened and closed -/

/-- Two states of a file that differ in what its label says. -/
structure Relabelled (before after : RefFile) : Prop where
  /-- The path. -/
  fn : after.fn = before.fn
  /-- The parent. -/
  parent : after.parent = before.parent
  /-- The depth. -/
  depth : after.depth = before.depth
  /-- Whether it is a directory. -/
  isDir : after.isDir = before.isDir
  /-- The children. -/
  children : after.children = before.children
  /-- The successor. -/
  next : after.next = before.next
  /-- The buffer of the code. -/
  encode : after.encode = before.encode
  /-- The length of the code. -/
  encodeSize : after.encodeSize = before.encodeSize

/-- What does not change when a file that is not a directory is relabelled. -/
theorem Kept.setFile_facts (kept : Kept all fs used free) (member : index ∈ used)
    (notDir : (fs.files index).isDir = false) {file : RefFile}
    (same : Relabelled (fs.files index) file) :
    Tree (fs.setFile index file) used ∧
      (∀ other ∈ used, ((fs.setFile index file).files other).Sized) ∧
      (∀ dir ∈ used, (fs.files dir).isDir = true →
        (fs.setFile index file).Refreshed dir ∧ (fs.setFile index file).files dir = fs.files dir) ∧
      (fs.setFile index file).ancestors index = fs.ancestors index := by
  have codes : ∀ other, ((fs.setFile index file).files other).encode = (fs.files other).encode ∧
      ((fs.setFile index file).files other).encodeSize = (fs.files other).encodeSize := by
    intro other
    by_cases here : other = index
    · rw [here, ReferenceFs.setFile_self]
      exact ⟨same.encode, same.encodeSize⟩
    · rw [ReferenceFs.setFile_of_ne here]
      exact ⟨rfl, rfl⟩
  have parents : (fs.setFile index file).parentLink = fs.parentLink := by
    funext other
    unfold ReferenceFs.parentLink
    by_cases here : other = index
    · rw [here, ReferenceFs.setFile_self, same.parent]
    · rw [ReferenceFs.setFile_of_ne here]
  refine ⟨kept.tree.congr fun other otherUsed => ?_, fun other otherUsed => ?_, ?_, ?_⟩
  · by_cases here : other = index
    · rw [here, ReferenceFs.setFile_self]
      have noDir : ¬ (fs.files index).isDir = true := by simp [notDir]
      exact ⟨same.fn, same.parent, same.depth, same.isDir, by rw [same.children],
        fun isDir => absurd isDir noDir, fun isDir => absurd isDir noDir⟩
    · rw [ReferenceFs.setFile_of_ne here]
      exact .refl _
  · unfold RefFile.Sized
    rw [(codes other).1, (codes other).2]
    exact kept.coded.sized other otherUsed
  · intro dir dirUsed isDir
    have apart : dir ≠ index := by
      rintro rfl
      rw [notDir] at isDir
      cases isDir
    have stays : (fs.setFile index file).files dir = fs.files dir :=
      ReferenceFs.setFile_of_ne apart _
    exact ⟨(kept.coded.dirs dir dirUsed isDir).transfer isDir (by rw [stays, isDir])
      (by rw [stays]) fun other _ => codes other, stays⟩
  · unfold ReferenceFs.ancestors
    rw [parents]

/-- Relabelling a file and repairing the codes. -/
theorem Kept.relabel (kept : Kept all fs used free) (member : index ∈ used)
    (notDir : (fs.files index).isDir = false) {file : RefFile}
    (same : Relabelled (fs.files index) file) (room : fs.Room index file.label.length) :
    ∃ next, updateEncode index (fs.setFile index file) = .ok () next ∧
      next.opened = fs.opened ∧
      ∀ opened, Counts all { fs.setFile index file with opened := opened } used →
        Kept all { next with opened := opened } used free := by
  obtain ⟨tree, sized, dirs, ancestors⟩ := kept.setFile_facts member notDir same
  let changed := fs.setFile index file
  have self : changed.files index = file := ReferenceFs.setFile_self ..
  have isFile : (changed.files index).isDir = false := by rw [self, same.isDir, notDir]
  have kinds : ∀ other, (changed.files other).isDir = (fs.files other).isDir := by
    intro other
    by_cases here : other = index
    · rw [here, self, same.isDir]
    · exact congrArg RefFile.isDir (ReferenceFs.setFile_of_ne here _)
  have due : changed.dueSize index = file.label.length := by
    unfold ReferenceFs.dueSize
    rw [if_neg (by rw [isFile]; exact Bool.false_ne_true), self]
  have changedRoom : changed.Room index (changed.dueSize index) := by
    intro dir onPath
    change dir ∈ (fs.setFile index file).ancestors index at onPath
    rw [ancestors] at onPath
    obtain ⟨chain, nodup, inside, -⟩ := kept.tree.path_ancestors member
    have apart : dir ≠ index := fun same => (List.nodup_cons.mp nodup).1 (same ▸ onPath)
    have stays : changed.files dir = fs.files dir := ReferenceFs.setFile_of_ne apart _
    rw [due, stays, self, same.encodeSize]
    exact room dir onPath
  obtain ⟨next, runs, recoded, refreshed, repaired, others⟩ := tree.updateEncode member sized
    (fun dir dirUsed isDir _ => (dirs dir dirUsed ((kinds dir).symm.trans isDir)).1)
    (fun dir dirUsed isDir _ => by
      rw [(dirs dir dirUsed ((kinds dir).symm.trans isDir)).2]
      exact kept.coded.bounded dir dirUsed ((kinds dir).symm.trans isDir))
    (fun isDir => by rw [isFile] at isDir; cases isDir) changedRoom
  have opened : next.opened = fs.opened := by
    have unchanged := congrArg ReferenceFs.opened recoded.others
    exact unchanged
  refine ⟨next, runs, opened, fun opened counts => ?_⟩
  have recodedOpened : Recoded { changed with opened := opened } { next with opened := opened } :=
    ⟨recoded.files, by
      have unchanged := congrArg (fun fs : ReferenceFs => { fs with opened := opened })
        recoded.others
      exact unchanged⟩
  have slots : Slots { changed with opened := opened } used free := by
    refine kept.slots.congr (fun other => ?_) rfl rfl rfl
    by_cases here : other = index
    · rw [here]
      exact (congrArg RefFile.next self).trans same.next
    · exact congrArg RefFile.next (ReferenceFs.setFile_of_ne here _)
  refine recodedOpened.kept slots (tree.congr fun _ _ => .refl _) counts sized ?_ ?_
  · exact fun dir dirUsed isDir => repaired dir dirUsed isDir
  · intro other otherUsed otherFile open'
    change (next.files other).code = (changed.files other).label
    by_cases here : other = index
    · subst here
      unfold ReferenceFs.Refreshed at refreshed
      rw [if_neg (by rw [(recoded.files other).isDir, isFile]; exact Bool.false_ne_true)]
        at refreshed
      rw [refreshed, (recoded.files other).label]
    · have stays : changed.files other = fs.files other := ReferenceFs.setFile_of_ne here _
      rw [others other otherUsed otherFile here, stays]
      rw [kinds other] at otherFile
      change all ∨ (changed.files other).isOpen = true at open'
      rw [stays] at open'
      exact kept.coded.labelled other otherUsed otherFile open'

/-- A call keeps the representation, or it throws and changes nothing, or a string does not fit and
the process ends. -/
def Fine {α : Type} (all : Prop) (fs : ReferenceFs) : EStateM.Result Fault ReferenceFs α → Prop
  | .ok _ next => ∃ used free, Kept all next used free
  | .error .thrown next => next = fs
  | .error .abort _ => True
  | .error .undefined _ => False

/-- Counting when one of the items comes to count. -/
theorem countP_gain {counts counts' : Nat → Bool} (nodup : used.Nodup) (member : index ∈ used)
    (others : ∀ other ∈ used, other ≠ index → counts' other = counts other)
    (before : counts index = false) (after : counts' index = true) :
    used.countP counts' = used.countP counts + 1 := by
  have perm := List.perm_cons_erase member
  have rest : (used.erase index).countP counts' = (used.erase index).countP counts := by
    refine List.countP_congr fun other listed => ?_
    obtain ⟨apart, inside⟩ := (nodup.mem_erase_iff).mp listed
    rw [others other inside apart]
  rw [perm.countP_eq, perm.countP_eq counts, List.countP_cons, List.countP_cons, rest, before,
    after]
  simp

/-- Adding one to a counter of used files. -/
theorem increment_countP {counts : Nat → Bool} (slots : Slots fs used free) :
    increment (used.countP counts) = used.countP counts + 1 := by
  have fits := List.countP_le_length (p := counts) (l := used)
  have length : used.length + free.length = 256 := slots.length
  unfold increment dword
  omega

/-- Subtracting one from a counter that is not zero. -/
theorem decrement_succ (counter : Nat) : decrement (counter + 1) = counter := rfl

/-- `UpdateFile` on a used file whose new code has room. -/
theorem Kept.updateFile (kept : Kept all fs used free) (member : index ∈ used) {len : Nat}
    (room : len ≤ intMax → (fs.files index).isDir = false ∧
      fs.Room index ({ fs.files index with size := len } : RefFile).label.length) :
    Fine all fs (updateFile index len fs) := by
  unfold RefFs.updateFile throwIf
  split
  · exact rfl
  · rename_i fits
    obtain ⟨notDir, room⟩ := room (Nat.not_lt.mp fits)
    let file : RefFile :=
      { fs.files index with size := len, ver := (fs.files index).ver + 1 }
    have same : Relabelled (fs.files index) file := ⟨rfl, rfl, rfl, rfl, rfl, rfl, rfl, rfl⟩
    obtain ⟨next, runs, opened, keeps⟩ := kept.relabel member notDir same room
    simp only [pure_bind, modify_bind_apply]
    change Fine all fs (updateEncode index (fs.setFile index file))
    rw [runs]
    refine ⟨used, free, ?_⟩
    have counts : Counts all { fs.setFile index file with opened := next.opened } used := by
      have same : ∀ other, ((fs.setFile index file).files other).isDir = (fs.files other).isDir ∧
          ((fs.setFile index file).files other).isOpen = (fs.files other).isOpen := by
        intro other
        by_cases here : other = index
        · rw [here, ReferenceFs.setFile_self]
          exact ⟨rfl, rfl⟩
        · rw [ReferenceFs.setFile_of_ne here]
          exact ⟨rfl, rfl⟩
      exact kept.counts.congr (fun other _ => (same other).1) (fun other _ => (same other).2) rfl
        rfl opened
    exact keeps next.opened counts

/-- `UpdateFile` on a path. -/
theorem Kept.updatePath (kept : Kept all fs used free) {path : Text} {len : Nat}
    (room : ∀ index, fs.findFileIndex path = some index → (fs.files index).isDir = false →
      len ≤ intMax → fs.Room index ({ fs.files index with size := len } : RefFile).label.length) :
    Fine all fs (updatePath path len fs) := by
  unfold RefFs.updatePath
  simp only [get_bind_apply]
  cases found : fs.findFileIndex path with
  | none => exact rfl
  | some index =>
    unfold throwIf
    dsimp only
    split
    · exact rfl
    · rename_i notDir
      have member : index ∈ used := by
        unfold ReferenceFs.findFileIndex at found
        rw [kept.slots.usedFiles_eq] at found
        exact List.mem_of_find?_eq_some found
      have isFile : (fs.files index).isDir = false := by simpa using notDir
      exact kept.updateFile member fun fits => ⟨isFile, room index found isFile fits⟩

/-- The counters when a file is opened or closed. -/
theorem Kept.counts_toggle (kept : Kept all fs used free) (isFile : (fs.files index).isDir = false)
    (flag : Bool) {opened : Nat} (toggled : ¬ all → opened = used.countP fun other =>
      ((fs.setFile index { fs.files index with isOpen := flag }).files other).isOpen) :
    Counts all { fs.setFile index { fs.files index with isOpen := flag } with opened := opened }
      used := by
  let file : RefFile := { fs.files index with isOpen := flag }
  have self : (fs.setFile index file).files index = file := ReferenceFs.setFile_self ..
  have others : ∀ other, other ≠ index →
      (fs.setFile index file).files other = fs.files other :=
    fun other apart => ReferenceFs.setFile_of_ne apart _
  have kinds : ∀ other,
      ((fs.setFile index file).files other).isDir = (fs.files other).isDir := by
    intro other
    by_cases here : other = index
    · rw [here, self]
    · rw [others other here]
  refine ⟨fun counted => ?_, fun counted => ?_, toggled, ?_⟩
  · exact (kept.counts.fileNum counted).trans (List.countP_congr fun other _ => by
      change _ ↔ decide (((fs.setFile index file).files other).isDir = false) = true
      rw [kinds other])
  · exact (kept.counts.dirNum counted).trans (List.countP_congr fun other _ => by
      change _ ↔ ((fs.setFile index file).files other).isDir = true
      rw [kinds other])
  · intro dir dirUsed isDir
    have apart : dir ≠ index := by
      rintro rfl
      rw [kinds dir, isFile] at isDir
      cases isDir
    rw [kinds dir] at isDir
    exact (congrArg RefFile.isOpen (others dir apart)).trans
      (kept.counts.closedDirs dir dirUsed isDir)

/-- `OpenFile` on a used file whose new code has room. -/
theorem Kept.openFile (kept : Kept all fs used free) (member : index ∈ used)
    (room : (fs.files index).isOpen = false → (fs.files index).isDir = false →
      fs.Room index ({ fs.files index with isOpen := true } : RefFile).label.length) :
    Fine all fs (openFile index fs) := by
  unfold RefFs.openFile throwIf
  simp only [get_bind_apply]
  split
  · exact rfl
  · rename_i notOpen
    simp only [pure_bind]
    split
    · exact rfl
    · rename_i notDir
      have isClosed : (fs.files index).isOpen = false := by simpa using notOpen
      have isFile : (fs.files index).isDir = false := by simpa using notDir
      let file : RefFile := { fs.files index with isOpen := true }
      have same : Relabelled (fs.files index) file := ⟨rfl, rfl, rfl, rfl, rfl, rfl, rfl, rfl⟩
      obtain ⟨next, runs, opened, keeps⟩ :=
        kept.relabel member isFile same (room isClosed isFile)
      simp only [pure_bind, set_bind_apply]
      rw [bind_apply, runs]
      have nodup := (List.nodup_append.mp kept.slots.nodup).1
      have gained : used.countP (fun other => ((fs.setFile index file).files other).isOpen) =
          used.countP (fun other => (fs.files other).isOpen) + 1 :=
        countP_gain nodup member
          (fun other _ apart => congrArg RefFile.isOpen (ReferenceFs.setFile_of_ne apart _))
          isClosed (congrArg RefFile.isOpen (ReferenceFs.setFile_self ..))
      refine ⟨used, free, keeps _ (kept.counts_toggle isFile true fun counted => ?_)⟩
      rw [opened, kept.counts.opened counted, increment_countP kept.slots]
      exact gained.symm

/-- The code of an open file is longer than that of the same file when it is closed. -/
theorem label_close {file : RefFile} (isOpen : file.isOpen = true) :
    ({ file with isOpen := false } : RefFile).label.length ≤ file.label.length := by
  unfold RefFile.label
  rw [if_neg (by exact Bool.false_ne_true), if_pos isOpen]
  simp only [List.length_cons, List.length_append, List.length_nil]
  change (Nat.toDigits 10 file.version).length + _ + 1 ≤ _
  omega

/-- `CloseFile` on a used file. -/
theorem Kept.closeFile (kept : Kept all fs used free) (member : index ∈ used) :
    Fine all fs (closeFile index fs) := by
  unfold RefFs.closeFile throwIf
  simp only [get_bind_apply]
  split
  · exact rfl
  · rename_i notClosed
    have isOpen : (fs.files index).isOpen = true := by simpa using notClosed
    have isFile : (fs.files index).isDir = false := by
      by_contra isDir
      have closed := kept.counts.closedDirs index member (by simpa using isDir)
      rw [isOpen] at closed
      cases closed
    let file : RefFile := { fs.files index with isOpen := false }
    have room : fs.Room index file.label.length := by
      have code := kept.coded.labelled index member isFile (.inr isOpen)
      have length := (kept.coded.sized index member).length_code
      rw [code] at length
      have shorter := label_close isOpen
      intro dir onPath
      obtain ⟨chain, -, inside, -⟩ := kept.tree.path_ancestors member
      obtain ⟨dirUsed, isDir⟩ := (kept.tree.shape kept.coded.sized).above chain member dir onPath
      have bound := kept.coded.bounded dir dirUsed isDir
      change _ + file.label.length ≤ _
      change file.label.length ≤ _ at shorter
      omega
    have same : Relabelled (fs.files index) file := ⟨rfl, rfl, rfl, rfl, rfl, rfl, rfl, rfl⟩
    obtain ⟨next, runs, opened, keeps⟩ := kept.relabel member isFile same room
    simp only [pure_bind, set_bind_apply]
    rw [bind_apply, runs]
    have nodup := (List.nodup_append.mp kept.slots.nodup).1
    have lost : used.countP (fun other => (fs.files other).isOpen) =
        used.countP (fun other => ((fs.setFile index file).files other).isOpen) + 1 :=
      countP_gain nodup member
        (fun other _ apart => (congrArg RefFile.isOpen (ReferenceFs.setFile_of_ne apart _)).symm)
        (congrArg RefFile.isOpen (ReferenceFs.setFile_self ..)) isOpen
    refine ⟨used, free, keeps _ (kept.counts_toggle isFile false fun counted => ?_)⟩
    rw [opened, kept.counts.opened counted, lost, decrement_succ]

/-- `Demount` when the open files have valid numbers, or when no file is open. -/
theorem Kept.demount (kept : Kept all fs used free)
    (valid : ¬ all → ∀ index ∈ used, (fs.files index).isOpen = true →
      (fs.files index).fid ≠ invalidNid)
    (noneOpen : all → ∀ index ∈ used, (fs.files index).isOpen = false) :
    Kept all fs.demount used free := by
  have files : ∀ index, fs.demount.files index =
      { fs.files index with isOpen := (fs.demount.files index).isOpen } := by
    intro index
    unfold ReferenceFs.demount
    dsimp only
    split <;> rfl
  have closed : ∀ index ∈ used, (fs.demount.files index).isOpen = false := by
    intro index member
    unfold ReferenceFs.demount
    dsimp only
    split
    · rfl
    · rename_i invalid
      by_cases every : all
      · exact noneOpen every index member
      · by_contra isOpen
        exact invalid ⟨kept.slots.used_lt member, valid every index member (by simpa using isOpen)⟩
  have parts : ∀ index, SamePlace (fs.files index) (fs.demount.files index) := by
    intro index
    rw [files index]
    exact ⟨rfl, rfl, rfl, rfl, rfl, fun _ => rfl, fun _ => .refl _⟩
  have codes : ∀ index, (fs.demount.files index).encode = (fs.files index).encode ∧
      (fs.demount.files index).encodeSize = (fs.files index).encodeSize := by
    intro index
    rw [files index]
    exact ⟨rfl, rfl⟩
  have kinds : ∀ index, (fs.demount.files index).isDir = (fs.files index).isDir :=
    fun index => (parts index).isDir
  refine ⟨kept.slots.congr (fun index => ?_) rfl rfl rfl,
    kept.tree.congr fun index _ => parts index,
    ⟨fun counted => ?_, fun counted => ?_, fun _ => ?_, fun dir member _ => closed dir member⟩,
    ⟨fun index member => ?_, fun dir member isDir => ?_, fun dir member isDir => ?_,
      fun index member isFile covered => ?_⟩⟩
  · rw [files index]
  · exact (kept.counts.fileNum counted).trans (List.countP_congr fun index _ => by rw [kinds index])
  · exact (kept.counts.dirNum counted).trans (List.countP_congr fun index _ => by rw [kinds index])
  · change 0 = _
    symm
    rw [List.countP_eq_zero]
    intro index member
    rw [closed index member]
    exact Bool.false_ne_true
  · unfold RefFile.Sized
    rw [(codes index).1, (codes index).2]
    exact kept.coded.sized index member
  · rw [kinds dir] at isDir
    refine (kept.coded.dirs dir member isDir).transfer isDir (by rw [kinds dir, isDir]) ?_
      fun other _ => codes other
    rw [files dir]
    rfl
  · rw [kinds dir] at isDir
    rw [(codes dir).2]
    exact kept.coded.bounded dir member isDir
  · rw [closed index member] at covered
    have strict := covered.resolve_right Bool.false_ne_true
    rw [kinds index] at isFile
    have same : fs.demount.files index = fs.files index := by
      rw [files index, closed index member]
      have wasClosed := noneOpen strict index member
      generalize fs.files index = file at wasClosed
      cases file
      dsimp only at wasClosed
      rw [wasClosed]
    rw [same]
    exact kept.coded.labelled index member isFile (.inl strict)

end FsChecking.RefFs
