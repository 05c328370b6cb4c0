import FsChecking.F2fs.Evolution
import FsChecking.F2fs.Fsck
import FsChecking.F2fs.Marks

/-!
# What the check changes

The check of a mounted file system, with its repairs, marks what it changes as every other operation
does. A check that returns is a mount, such changes, and a checkpoint when something was repaired or
a slot was broken.
-/

namespace FsChecking.F2fs

open Lib

/-- The file system of a check changes as between checkpoints. -/
def BetweenCheck (before after : Check) : Prop := Between before.fs after.fs

instance : IsPreorder Check BetweenCheck where
  refl check := refl_of Between check.fs
  trans _ _ _ left right := trans_of Between left right

/-! ## Elementary steps -/

/-- Programs on the file system stay between checkpoints within a check. -/
theorem fsZoom_between {α : Type} {program : FsM α} (between : Returns Between program) :
    Returns BetweenCheck (fsLens.zoom program) := Returns.zoom between fun _ _ step => step

/-- Changing the record stays between checkpoints. -/
theorem modifyFsck_between (change : Fsck → Fsck) : Returns BetweenCheck (modifyFsck change) :=
  Returns.change fun check => refl_of Between check.fs

/-- Storing a character of the path stays between checkpoints. -/
theorem pokePath_between (char : Char) : Returns BetweenCheck (pokePath char) := by
  refine Returns.bind Returns.get fun _ => Returns.bind (Returns.throwIf _ _) fun _ => ?_
  exact modifyFsck_between _

/-- Appending a name to the path stays between checkpoints. -/
theorem appendName_between (block : DentryBlock) (index : Nat) :
    Returns BetweenCheck (appendName block index) := by
  refine Returns.bind Returns.get fun _ => Returns.bind (Returns.throwIf _ _) fun _ => ?_
  exact Returns.bind (modifyFsck_between _) fun _ => pokePath_between _

/-- Rewriting a summary leaves the valid blocks. -/
theorem setBlockInfo_marks (nid offset blk : Nat) :
    Returns Between (modifySegments (·.setBlockInfo nid offset blk)) :=
  Returns.change fun fs => .ofTables (refl_of NodesMarked fs.nat)
    (.setDirty rfl fun _ apart => Function.update_of_ne apart ..)

/-- Comparing a summary stays between checkpoints. -/
theorem chkSummary_between (message : String) (subject : List Nat) (nid offset blk : Nat) :
    Returns BetweenCheck (chkSummary message subject nid offset blk) := by
  refine Returns.bind Returns.get fun check => Returns.doIf (Returns.ite ?_ (Returns.throw _))
  refine Returns.bind (fsZoom_between (setBlockInfo_marks nid offset blk)) fun _ => ?_
  exact modifyFsck_between _

/-- Failing after a page was released stays between checkpoints. -/
theorem failFreed_between (page : Nat) (code : ErrorCode) (message : String)
    (arguments : Nat → List Nat) : Returns BetweenCheck (failFreed page code message arguments) :=
  Returns.bind (fsZoom_between (free_between page)) fun _ =>
    Returns.bind Returns.get fun _ => Returns.throw _

/-- Reading a block into a page stays between checkpoints when what follows with its data does. -/
theorem readPage_between {α : Type} {lba : Nat} {next : Nat → BlockData → CheckM α}
    (each : ∀ page data, Returns BetweenCheck (next page data)) :
    Returns BetweenCheck (do
      let page ← fsLens.zoom (pagesLens.zoom allocate)
      fsLens.zoom (readInto lba page)
      let data ← fsLens.zoom (getData page)
      next page data) := by
  intro check
  refine Returns.bindAt (fsZoom_between takePage_between check) fun page check' taken => ?_
  have used : (check'.fs.pages.page page).inUse = true := by
    obtain ⟨fs', run, rfl⟩ := Lens.zoom_eq_ok.mp taken
    exact inUse_of_allocate run
  refine Returns.bindAt ?_ fun _ check'' _ => ?_
  · intro value check'' read
    obtain ⟨fs', run, rfl⟩ := Lens.zoom_eq_ok.mp read
    exact readInto_betweenAt (.ofUsed used) _ value fs' run
  · exact Returns.bind (fsZoom_between (getData_between page)) (each page) check''

/-! ## The walk -/

section Walk

variable {chkNode : Nat → FileType → BlockType → CheckM Nat}
  (checks : ∀ nid fileType blockType, Returns BetweenCheck (chkNode nid fileType blockType))

include checks

/-- `fsck_chk_data_blk` stays between checkpoints. -/
theorem fsckChkDataBlk_between (nid offset blk : Nat) (fileType : FileType) :
    Returns BetweenCheck (fsckChkDataBlk chkNode nid offset blk fileType) := by
  refine Returns.bind (Returns.throwIf _ _) fun _ => Returns.bind Returns.get fun _ => ?_
  refine Returns.bind (Returns.throwIf _ _) fun _ => ?_
  refine Returns.bind (modifyFsck_between _) fun _ => ?_
  refine Returns.bind (chkSummary_between _ _ _ _ _) fun _ => Returns.doIf ?_
  refine readPage_between fun page data => ?_
  refine Returns.bind (Returns.doIf (failFreed_between _ _ _ _)) fun _ => ?_
  refine Returns.bind (Returns.forM fun index _ => Returns.doIf ?_) fun _ => ?_
  · refine Returns.bind (appendName_between _ _) fun _ => ?_
    exact Returns.bind (checks _ _ _) fun _ => Returns.pure _
  · exact fsZoom_between (free_between page)

/-- `fsck_chk_index_blk` stays between checkpoints. -/
theorem fsckChkIndexBlk_between (nid blk : Nat) (fileType : FileType) (node : NodeInfo) :
    Returns BetweenCheck (fsckChkIndexBlk chkNode nid blk fileType node) := by
  refine Returns.bind (modifyFsck_between _) fun _ => ?_
  refine Returns.bind (Returns.foldlM (fun count entry => ?_) 0) fun _ => ?_
  · refine Returns.bind (Returns.bind Returns.get fun check => Returns.ite ?_ (Returns.pure _))
      fun _ => Returns.pure _
    refine Returns.bind (fsckChkDataBlk_between checks _ _ _ _) fun _ => ?_
    exact Returns.bind (modifyFsck_between _) fun _ => Returns.pure _
  · exact Returns.bind (Returns.throwIf _ _) fun _ => Returns.pure _

/-- `fsck_chk_inode_blk` stays between checkpoints. -/
theorem fsckChkInodeBlk_between (ino blk : Nat) (node : NodeInfo) :
    Returns BetweenCheck (fsckChkInodeBlk chkNode ino blk node) := by
  refine Returns.bind (modifyFsck_between _) fun _ => Returns.bind Returns.get fun _ => ?_
  refine Returns.bind (Returns.doIf ?_) fun _ => Returns.bind (Returns.throwIf _ _) fun _ => ?_
  · refine Returns.bind (pokePath_between _) fun _ => ?_
    exact Returns.bind (modifyFsck_between _) fun _ => pokePath_between _
  refine Returns.bind (Returns.foldlM (fun count slot => ?_) 0) fun _ => ?_
  · exact Returns.bind (Returns.ite (checks _ _ _) (Returns.pure _)) fun _ => Returns.pure _
  · exact Returns.bind (Returns.throwIf _ _) fun _ => modifyFsck_between _

/-- `fsck_chk_node_blk` stays between checkpoints when the call that starts a node does. -/
theorem chkNodeBlk_between (nid : Nat) (fileType : FileType) (blockType : BlockType) :
    Returns BetweenCheck (chkNodeBlk chkNode nid fileType blockType) := by
  refine Returns.bind ?_ fun blk => readPage_between fun page data => ?_
  · refine Returns.bind (Returns.throwIf _ _) fun _ => Returns.bind Returns.get fun _ => ?_
    refine Returns.bind (Returns.throwIf _ _) fun _ => ?_
    refine Returns.bind (modifyFsck_between _) fun _ => Returns.bind Returns.get fun _ => ?_
    refine Returns.bind (Returns.throwIf _ _) fun _ => Returns.bind (Returns.throwIf _ _) fun _ => ?_
    refine Returns.bind (Returns.throwIf _ _) fun _ => ?_
    exact Returns.bind (chkSummary_between _ _ _ _ _) fun _ => Returns.pure _
  · refine Returns.bind (Returns.doIf (failFreed_between _ _ _ _)) fun _ => ?_
    refine Returns.bind (Returns.doIf (failFreed_between _ _ _ _)) fun _ => ?_
    refine Returns.bind (Returns.ite ?_ (fsckChkIndexBlk_between checks _ _ _ _)) fun _ => ?_
    · exact Returns.bind (fsckChkInodeBlk_between checks _ _ _) fun _ => Returns.pure _
    · exact Returns.bind (fsZoom_between (free_between page)) fun _ => Returns.pure _

end Walk

/-- `fsck_chk_node_blk` stays between checkpoints. -/
theorem fsckChkNodeBlk_between (depth nid : Nat) (fileType : FileType) (blockType : BlockType) :
    Returns BetweenCheck (fsckChkNodeBlk depth nid fileType blockType) := by
  induction depth generalizing nid fileType blockType with
  | zero => exact Returns.throw _
  | succ depth ih => exact chkNodeBlk_between ih nid fileType blockType

/-- `fsck_verify` stays between checkpoints. -/
theorem fsckVerify_between : Returns BetweenCheck fsckVerify := by
  refine Returns.bind (Returns.forM fun nid _ => ?_) fun _ => Returns.forM fun seg _ => ?_
  · refine Returns.bind Returns.get fun check => Returns.doIf (Returns.ite ?_ (Returns.throw _))
    exact Returns.bind (fsZoom_between (putNode_between nid)) fun _ => modifyFsck_between _
  · refine Returns.bind Returns.get fun check => Returns.doIf (Returns.forM fun blk _ => ?_)
    refine Returns.bind Returns.get fun check => Returns.doIf (Returns.ite ?_ (Returns.throw _))
    refine Returns.bind (fsZoom_between (segments_between (invalidBlockAt_marks seg blk))) fun _ => ?_
    exact modifyFsck_between _

/-- The checks between mounting and writing back stay between checkpoints. -/
theorem fsckWalk_between : Returns BetweenCheck fsckWalk := by
  refine Returns.bind (fsZoom_between ?_) fun _ => ?_
  · refine Returns.bind (Returns.foldlM (fun count seg => ?_) 0) fun _ => ?_
    · refine Returns.bind ?_ fun _ => Returns.pure _
      exact Returns.bind Returns.get fun _ => Returns.bind (Returns.throwIf _ _) fun _ => Returns.pure _
    · exact Returns.bind Returns.get fun _ => Returns.throwIf _ _
  · exact Returns.bind (fsckChkNodeBlk_between _ _ _ _) fun _ => fsckVerify_between

/-- A file system whose tables in memory are forgotten. -/
def Fs.unloaded (fs : Fs) : Fs :=
  { fs with segments := fs.segments.reset, nat := .blank, pages := fs.pages.initial }

/-- A check that returns has mounted the image, changed the tables, taken a checkpoint if one was
needed, and forgotten the tables in memory. -/
theorem fsck_ok {fix fixed : Bool} {fs fs' : Fs} (parts : Parts Between)
    (run : fsck fix fs = .ok fixed fs') : ∃ m saves last, mount fs = .ok ⟨⟩ m ∧
      Trace Between m saves last ∧ fs' = last.unloaded := by
  rw [fsck, bind_eq_ok] at run
  obtain ⟨_, m, mounted, run⟩ := run
  rw [get_bind_apply] at run
  cases walk : fsckWalk { fs := m, fsck := .start fix } with
  | error fault check =>
    rw [walk] at run
    cases run
  | ok result check =>
    rw [walk] at run
    dsimp only at run
    rw [set_bind_apply, bind_eq_ok] at run
    obtain ⟨_, finished, finish, done⟩ := run
    cases done
    have walked : Between m check.fs := fsckWalk_between _ _ _ walk
    simp only [fsckFinish, get_bind_apply, bind_eq_ok] at finish
    obtain ⟨_, last, saved, _, fs₁, segments, _, fs₂, nat, pages⟩ := finish
    have same : fs' = last.unloaded := by
      cases segments
      cases nat
      cases pages
      rfl
    obtain ⟨saves, trace⟩ := Returns.doIf (syncFs_evolves parts) _ _ _ saved
    exact ⟨m, saves ++ [], last, mounted, Trace.append (.moved .start walked) trace, same⟩

end FsChecking.F2fs
