import FsChecking.RefFs.OpHistory

/-!
# The root stays

The two lists and the root survive every call that does not remove or rename the root, whatever else
the call does to the tree and whether it returns or throws.
-/

namespace FsChecking.RefFs

open Lib

/-- The lists are in order and the root is in use, as a directory under its own name. -/
structure RootedIn (used free : List Nat) (fs : ReferenceFs) : Prop where
  /-- The lists. -/
  slots : Slots fs used free
  /-- The root is in use. -/
  root : 0 ∈ used
  /-- The root's name. -/
  name : (fs.files 0).fn = ['\\']
  /-- The root is a directory. -/
  isDir : (fs.files 0).isDir = true

/-- The lists and the root are in order. -/
def Rooted (fs : ReferenceFs) : Prop := ∃ used free, RootedIn used free fs

/-- The calls that do not remove or rename the root. -/
def SparesRoot (_ : ReferenceFs) : Call → Prop
  | .removeFile path => path ≠ ['\\']
  | .moveFile src _ => src ≠ ['\\'] ∧ src ≠ []
  | _ => True

instance (fs : ReferenceFs) : (call : Call) → Decidable (SparesRoot fs call)
  | .removeFile path => inferInstanceAs (Decidable (path ≠ ['\\']))
  | .moveFile src _ => inferInstanceAs (Decidable (src ≠ ['\\'] ∧ src ≠ []))
  | .addPath .. | .updatePath .. | .updateFile .. | .openFile _ | .closeFile _ | .demount =>
    inferInstanceAs (Decidable True)

variable {fs fs' : ReferenceFs} {used free : List Nat} {index : Nat}

/-- The used files are the ones that the code walks over. -/
theorem Rooted.root_used (rooted : Rooted fs) : 0 ∈ fs.usedFiles := by
  obtain ⟨used, free, inside⟩ := rooted
  rw [inside.slots.usedFiles_eq]
  exact inside.root

namespace RootedIn

/-- A change that leaves the links, the list heads and the root. -/
theorem congr (rooted : RootedIn used free fs)
    (next : ∀ index, (fs'.files index).next = (fs.files index).next)
    (usedList : fs'.usedList = fs.usedList) (freeList : fs'.freeList = fs.freeList)
    (freeNum : fs'.freeNum = fs.freeNum) (name : (fs'.files 0).fn = (fs.files 0).fn)
    (isDir : (fs'.files 0).isDir = (fs.files 0).isDir) : RootedIn used free fs' :=
  ⟨rooted.slots.congr next usedList freeList freeNum, rooted.root, name.trans rooted.name,
    isDir.trans rooted.isDir⟩

/-- Replacing a file by one with the same link, name and kind. -/
theorem setFile (rooted : RootedIn used free fs) {file : RefFile}
    (next : file.next = (fs.files index).next) (name : index = 0 → file.fn = (fs.files index).fn)
    (isDir : index = 0 → file.isDir = (fs.files index).isDir) :
    RootedIn used free (fs.setFile index file) := by
  have root : ((fs.setFile index file).files 0).fn = (fs.files 0).fn ∧
      ((fs.setFile index file).files 0).isDir = (fs.files 0).isDir := by
    by_cases here : index = 0
    · subst here
      rw [ReferenceFs.setFile_self]
      exact ⟨name rfl, isDir rfl⟩
    · rw [ReferenceFs.setFile_of_ne (Ne.symm here)]
      exact ⟨rfl, rfl⟩
  refine rooted.congr ?_ rfl rfl rfl root.1 root.2
  intro other
  by_cases here : other = index
  · rw [here, ReferenceFs.setFile_self]
    exact next
  · rw [ReferenceFs.setFile_of_ne here]

/-- `UpdateEncode` on one file. -/
theorem refresh (rooted : RootedIn used free fs) (index : Nat) :
    Ends (RootedIn used free) (refresh index) fs := by
  unfold RefFs.refresh
  apply Ends.get
  dsimp only
  split
  · apply Ends.throwIf rooted
    intro _
    split
    · exact rooted.setFile rfl (fun _ => rfl) fun _ => rfl
    · apply Ends.set
      exact rooted.setFile rfl (fun _ => rfl) fun _ => rfl
  · exact rooted.setFile rfl (fun _ => rfl) fun _ => rfl

/-- `UpdateEncode`, for a number of ancestors. -/
theorem updateEncodeWithin (fuel : Nat) (rooted : RootedIn used free fs) (index : Nat) :
    Ends (RootedIn used free) (updateEncodeWithin fuel index) fs := by
  induction fuel generalizing fs index with
  | zero => exact rooted
  | succ fuel ih =>
    unfold RefFs.updateEncodeWithin
    apply Ends.bind (rooted.refresh index)
    intro _ next nextRooted
    apply Ends.get
    dsimp only
    split
    · exact nextRooted
    · exact ih nextRooted _

/-- `UpdateEncode`. -/
theorem updateEncode (rooted : RootedIn used free fs) (index : Nat) :
    Ends (RootedIn used free) (updateEncode index) fs := rooted.updateEncodeWithin _ index

/-- `UpdateFile` on a file. -/
theorem updateFile (rooted : RootedIn used free fs) (index len : Nat) :
    Ends (RootedIn used free) (updateFile index len) fs := by
  unfold RefFs.updateFile
  apply Ends.throwIf rooted
  intro _
  apply Ends.change
  apply RootedIn.updateEncode
  exact rooted.setFile rfl (fun _ => rfl) fun _ => rfl

/-- `UpdateFile` on a path. -/
theorem updatePath (rooted : RootedIn used free fs) (path : Text) (len : Nat) :
    Ends (RootedIn used free) (updatePath path len) fs := by
  unfold RefFs.updatePath
  apply Ends.get
  split
  · exact rooted
  · apply Ends.throwIf rooted
    exact fun _ => rooted.updateFile _ _

/-- `OpenFile`. -/
theorem openFile (rooted : RootedIn used free fs) (index : Nat) :
    Ends (RootedIn used free) (openFile index) fs := by
  unfold RefFs.openFile
  apply Ends.get
  apply Ends.throwIf rooted
  intro _
  apply Ends.throwIf rooted
  intro _
  apply Ends.set
  apply Ends.bind
  · apply RootedIn.updateEncode
    exact rooted.setFile rfl (fun _ => rfl) fun _ => rfl
  · exact fun _ _ rooted => rooted.congr (fun _ => rfl) rfl rfl rfl rfl rfl

/-- `CloseFile`. -/
theorem closeFile (rooted : RootedIn used free fs) (index : Nat) :
    Ends (RootedIn used free) (closeFile index) fs := by
  unfold RefFs.closeFile
  apply Ends.get
  apply Ends.throwIf rooted
  intro _
  apply Ends.set
  apply Ends.bind
  · apply RootedIn.updateEncode
    exact rooted.setFile rfl (fun _ => rfl) fun _ => rfl
  · exact fun _ _ rooted => rooted.congr (fun _ => rfl) rfl rfl rfl rfl rfl

/-- `RemoveChild`. -/
theorem removeChild (rooted : RootedIn used free fs) (parentId child : Nat) :
    Ends (RootedIn used free) (removeChild parentId child) fs := by
  unfold RefFs.removeChild
  apply Ends.get
  dsimp only
  split
  · exact rooted
  · exact rooted.setFile rfl (fun _ => rfl) fun _ => rfl

/-- `MoveFile` of anything but the root. -/
theorem moveFile (rooted : RootedIn used free fs) {src dst : Text} (notRoot : src ≠ ['\\'])
    (notEmpty : src ≠ []) : Ends (RootedIn used free) (moveFile src dst) fs := by
  have apart : ¬Below src ['\\'] := by
    rw [below_iff]
    rintro (same | ⟨rest, same⟩)
    · exact notRoot same.symm
    · cases src with
      | nil => exact notEmpty rfl
      | cons head tail =>
        have longer := congrArg List.length same
        simp only [List.length_append, List.length_cons, List.length_nil] at longer
        omega
  have renamed : RootedIn used free { fs with
      files := fun index =>
        if index ∈ fs.usedFiles then
          { fs.files index with fn := moved src dst (fs.files index).fn }
        else fs.files index } := by
    refine rooted.congr ?_ rfl rfl rfl ?_ ?_
    · intro index
      dsimp only
      split <;> rfl
    · dsimp only
      split
      · dsimp only
        rw [rooted.name, moved_of_not apart]
      · rfl
    · dsimp only
      split <;> rfl
  unfold RefFs.moveFile
  apply Ends.get
  apply Ends.throwIf rooted
  intro _
  apply Ends.set
  split
  · exact renamed
  · apply Ends.throwIf renamed
    intro _
    apply Ends.change
    apply RootedIn.updateEncode
    exact renamed.setFile rfl (fun _ => rfl) fun _ => rfl

/-- `Demount`. -/
theorem demount (rooted : RootedIn used free fs) : RootedIn used free fs.demount := by
  refine rooted.congr ?_ rfl rfl rfl ?_ ?_
  · intro index
    unfold ReferenceFs.demount
    dsimp only
    split <;> rfl
  · unfold ReferenceFs.demount
    dsimp only
    split <;> rfl
  · unfold ReferenceFs.demount
    dsimp only
    split <;> rfl

/-- The lists of a state are not part of the promise. -/
theorem ends {α : Type} {program : Program α} (ends : Ends (RootedIn used free) program fs) :
    Ends Rooted program fs := ⟨used, free, ends⟩

/-- `AddPath`. -/
theorem addPath (rooted : RootedIn used free fs) (path : Text) (isDir : Bool) (fid : Nat) :
    Ends Rooted (addPath path isDir fid) fs := by
  have here : Rooted fs := ⟨used, free, rooted⟩
  unfold RefFs.addPath
  apply Ends.get
  dsimp only
  split
  · exact here
  · rename_i notFull
    apply Ends.throwIf here
    intro _
    split
    · exact here
    · cases free with
      | nil => exact absurd rooted.slots.freeNum notFull
      | cons objId free =>
        obtain ⟨taken, runs, slots, others, -⟩ := rooted.slots.getFile
        have nodup := List.nodup_append.mp rooted.slots.nodup
        have notRoot : 0 ≠ objId := nodup.2.2 0 rooted.root objId List.mem_cons_self
        have takenRooted : RootedIn (objId :: used) free taken :=
          ⟨slots, List.mem_cons_of_mem _ rooted.root, by rw [others 0 notRoot, rooted.name],
            by rw [others 0 notRoot, rooted.isDir]⟩
        have takenHere : Rooted taken := ⟨_, _, takenRooted⟩
        unfold Ends
        rw [bind_apply, runs]
        show Ends Rooted _ taken
        split
        · exact takenHere
        · rename_i parentId _
          apply Ends.throwIf takenHere
          intro _
          apply Ends.get
          apply Ends.throwIf takenHere
          intro _
          let entered := taken.setFile objId
            (initFile (taken.files objId) parentId (taken.files parentId).depth path isDir fid)
          have enteredRooted : RootedIn (objId :: used) free entered :=
            takenRooted.setFile rfl (fun same => absurd same.symm notRoot)
              fun same => absurd same.symm notRoot
          have listed : RootedIn (objId :: used) free (entered.setFile parentId
              { entered.files parentId with
                children := (entered.files parentId).children.set (entered.files parentId).size objId
                size := (entered.files parentId).size + 1 }) :=
            enteredRooted.setFile rfl (fun _ => rfl) fun _ => rfl
          apply Ends.throwIf takenHere
          intro _
          apply Ends.set
          apply Ends.bind
          · apply RootedIn.ends
            apply RootedIn.updateEncode
            split
            · exact listed.congr (fun _ => rfl) rfl rfl rfl rfl rfl
            · exact listed.congr (fun _ => rfl) rfl rfl rfl rfl rfl
          · exact fun _ _ rooted => rooted

/-- `RemoveFile` of anything but the root. -/
theorem removeFile (rooted : RootedIn used free fs) {path : Text} (notRoot : path ≠ ['\\']) :
    Ends Rooted (removeFile path) fs := by
  have here : Rooted fs := ⟨used, free, rooted⟩
  unfold RefFs.removeFile
  apply Ends.get
  dsimp only
  split
  · exact here
  · rename_i objId found
    have member := List.mem_of_find?_eq_some found
    rw [rooted.slots.usedFiles_eq] at member
    have named : (fs.files objId).fn = path := by
      have holds := List.find?_some found
      exact of_decide_eq_true holds
    have apart : 0 ≠ objId := by
      rintro rfl
      exact notRoot (named.symm.trans rooted.name)
    apply Ends.throwIf here
    intro _
    apply Ends.bind_of (rooted.removeChild _ _) (fun fs rooted => ⟨used, free, rooted⟩)
    intro _ next nextRooted
    apply Ends.change
    apply Ends.bind_of
    · apply RootedIn.updateEncode
      split
      · exact nextRooted.congr (fun _ => rfl) rfl rfl rfl rfl rfl
      · exact nextRooted.congr (fun _ => rfl) rfl rfl rfl rfl rfl
    · exact fun fs rooted => ⟨used, free, rooted⟩
    · intro _ coded codedRooted
      obtain ⟨freed, runs, slots, others, -⟩ := codedRooted.slots.putFile member
      obtain ⟨link, root⟩ := others 0 apart
      unfold Ends
      rw [runs, finalState_ok]
      refine ⟨used.erase objId, objId :: free, slots, ?_, ?_, ?_⟩
      · exact (List.mem_erase_of_ne apart).mpr codedRooted.root
      · rw [root]
        exact codedRooted.name
      · rw [root]
        exact codedRooted.isDir

end RootedIn

/-- Every call that spares the root keeps it, whether it returns or throws. -/
theorem Rooted.call (rooted : Rooted fs) {call : Call} (spares : SparesRoot fs call) :
    Ends Rooted call.run fs := by
  obtain ⟨used, free, inside⟩ := rooted
  have done : ∀ (reply : Reply) fs, Rooted fs → Ends Rooted (pure reply : Program Reply) fs :=
    fun _ _ rooted => rooted
  cases call with
  | addPath path isDir fid =>
    exact Ends.bind (inside.addPath path isDir fid) fun _ fs rooted => done _ fs rooted
  | removeFile path =>
    exact Ends.bind (inside.removeFile spares) fun _ fs rooted => done _ fs rooted
  | moveFile src dst =>
    exact Ends.bind (RootedIn.ends (inside.moveFile spares.1 spares.2)) fun _ fs rooted => done _ fs rooted
  | updatePath path len =>
    exact Ends.bind (RootedIn.ends (inside.updatePath path len)) fun _ fs rooted => done _ fs rooted
  | updateFile index len =>
    exact Ends.bind (RootedIn.ends (inside.updateFile index len)) fun _ fs rooted => done _ fs rooted
  | openFile index =>
    exact Ends.bind (RootedIn.ends (inside.openFile index)) fun _ fs rooted => done _ fs rooted
  | closeFile index =>
    exact Ends.bind (RootedIn.ends (inside.closeFile index)) fun _ fs rooted => done _ fs rooted
  | demount => exact ⟨used, free, inside.demount⟩

/-- `Initialize` over memory with any contents. -/
theorem rooted_initialized (fs : ReferenceFs) : Rooted fs.initialized :=
  ⟨_, _, initialized_slots fs, List.mem_singleton_self 0, rfl, rfl⟩

/-- Runs of calls that spare the root keep it. -/
theorem Run.rooted {first : ReferenceFs} (run : Run SparesRoot first fs) (rooted : Rooted first) :
    Rooted fs := by
  induction run with
  | start => exact rooted
  | returns call _ spares does ih =>
    have ends := ih.call spares
    unfold Ends at ends
    rwa [does] at ends
  | throws call _ spares does ih =>
    have ends := ih.call spares
    unfold Ends at ends
    rwa [does] at ends

end FsChecking.RefFs
