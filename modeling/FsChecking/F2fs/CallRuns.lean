import FsChecking.F2fs.AllocationRuns
import FsChecking.F2fs.Marks
import FsChecking.F2fs.Evolution

/-!
# Segment accounting over calls

From formatting on, whatever calls are made, the segments stay accounted for as long as the calls
return, and a block write that starts in such a state sets no bit that is set.
-/

namespace FsChecking.F2fs

open Lib

/-! ## Steps -/

/-- What a part of an operation does to the blocks. -/
structure Accounts (before after : Fs) : Prop where
  /-- The current slot stays. -/
  slot : after.curCkpt = before.curCkpt
  /-- Managed segments stay managed. -/
  run : before.segments.Managed → after.segments.Managed

instance : IsPreorder Fs Accounts where
  refl _ := ⟨rfl, id⟩
  trans _ _ _ left right := ⟨right.slot.trans left.slot, right.run ∘ left.run⟩

/-- Segments stay managed whatever the dirty marks are. -/
theorem SegmentManager.Managed.dirtyMap {manager : SegmentManager} (managed : manager.Managed)
    (dirtyMap : Nat → BitVec 32) : { manager with dirtyMap }.Managed := by
  obtain ⟨⟨queue, accounted⟩, closed, linked⟩ := managed
  exact ⟨⟨queue, accounted.congr rfl rfl rfl rfl rfl rfl⟩, closed, linked.congr fun _ => rfl⟩

namespace Accounts

variable {fs fs' : Fs}

/-- A part that leaves the segments and the slot accounts for the segments. -/
theorem ofSame (slot : fs'.curCkpt = fs.curCkpt) (same : fs'.segments = fs.segments) :
    Accounts fs fs' := by
  refine ⟨slot, fun managed => ?_⟩
  rw [same]
  exact managed

/-- A part that only changes the dirty marks of the segments accounts for them. -/
theorem ofMarks {dirtyMap : Nat → BitVec 32} (slot : fs'.curCkpt = fs.curCkpt)
    (segments : fs'.segments = { fs.segments with dirtyMap }) : Accounts fs fs' := by
  refine ⟨slot, fun managed => ?_⟩
  rw [segments]
  exact managed.dirtyMap dirtyMap

end Accounts

/-- A safe program that leaves the slot accounts for the segments. -/
theorem accounts_of_safe {α : Type} {program watched : FsM α} (safe : Safe program watched)
    (between : Returns Between program) : Returns Accounts program := by
  intro fs value fs' run
  refine ⟨(between fs value fs' run).curCkpt, fun managed => ?_⟩
  have kept := safe.run fs managed
  rw [run] at kept
  exact kept

/-- A program that leaves the segments and the slot accounts for the segments. -/
theorem accounts_of_moves {α : Type} {program : FsM α} (moves : Moves SameSegments program)
    (between : Returns Between program) : Returns Accounts program :=
  accounts_of_safe (.ofMoves moves) between

/-- `InvalidBlock` that returns accounts for the segments. -/
theorem invalidBlock_accounts (phyBlk : Nat) :
    Returns Accounts (segmentsLens.zoom (invalidBlock phyBlk)) := by
  intro fs value fs' run
  refine ⟨(segments_between (invalidBlock_marks phyBlk) fs value fs' run).curCkpt,
    fun managed => ?_⟩
  obtain ⟨queue, accounted⟩ := managed.accounted
  rcases invalidBlock_cases accounted.counted phyBlk with
    ⟨freed, kept⟩ | ⟨inside, valid, freed, dropped⟩ | ⟨fault, stops, stopped⟩
  · rw [segmentsLens.zoom_of_ok kept] at run
    cases run
    exact managed
  · rw [segmentsLens.zoom_of_ok dropped] at run
    cases run
    exact managed.invalidated inside valid
  · rw [segmentsLens.zoom_of_error stopped] at run
    cases run

/-- Writing a block accounts for the segments. -/
theorem blockWrite_accounts (lba : Nat) (data : BlockData) :
    Returns Accounts (blockWrite lba data) := by
  unfold blockWrite
  split
  · exact Returns.change fun _ => .ofSame rfl rfl
  · exact Returns.throw _

/-- `put_node` accounts for the segments. -/
theorem putNode_accounts (nid : Nat) : Returns Accounts (putNode nid) := by
  have uncache : ∀ page, Returns Accounts (setNodeCache nid page) := fun page =>
    Returns.change fun _ => .ofSame rfl rfl
  have release : ∀ page, Returns Accounts (pagesLens.zoom (free page)) := fun page =>
    accounts_of_moves (pagesZoom_sameSegments _) (free_between page)
  unfold putNode
  refine Returns.bind (Returns.throwIf _ _) fun _ => Returns.bind Returns.get fun _ => ?_
  refine Returns.bind (Returns.doIf (Returns.bind (invalidBlock_accounts _)
    fun _ => Returns.pure _)) fun _ => Returns.bind Returns.get fun _ => ?_
  refine Returns.bind (Returns.doIf (Returns.bind (Returns.throwIf _ _) fun _ =>
    Returns.bind (release _) fun _ => uncache _)) fun _ => ?_
  exact accounts_of_moves (natZoom_sameSegments _)
    (nat_between (Returns.change fun table => NodesMarked.setEntry table nid _))

/-- The parts of the operations account for the segments. -/
theorem accounts_parts : Parts Accounts where
  keepPage page change keeps :=
    accounts_of_moves (modifyPage_sameSegments page change) (modifyPage_between page keeps)
  usedPage used change := fun value fs' run => by
    cases run
    exact .ofSame rfl rfl
  allocate := accounts_of_moves (pagesZoom_sameSegments _) takePage_between
  free page := accounts_of_moves (pagesZoom_sameSegments _) (free_between page)
  setNodeCache nid page := Returns.change fun _ => .ofSame rfl rfl
  getNode := accounts_of_moves (natZoom_sameSegments _) (nat_between getNode_marks)
  setPhyBlk nid phyBlk :=
    accounts_of_moves (natZoom_sameSegments _) (nat_between (setPhyBlk_marks nid phyBlk))
  readNode nid := accounts_of_moves (readNode_sameSegments nid) (readNode_between nid)
  putNode := putNode_accounts
  invalidBlock := invalidBlock_accounts
  writeBlock page force :=
    accounts_of_safe (writeBlockToSeg_safe (fun _ => pure ⟨⟩) page force)
      (writeBlockToSeg_between page force)
  summary _ data := blockWrite_accounts _ data
  other same := .ofSame same.2.1 same.2.2.2.2.1

/-! ## Checkpoints -/

/-- Reading a block into a page accounts for the segments. -/
theorem readInto_accounts (lba page : Nat) : Returns Accounts (readInto lba page) := by
  intro fs value fs' run
  obtain ⟨data, -, rfl⟩ := readInto_eq_ok.mp run
  exact .ofSame rfl rfl

/-- Changing the checkpoint in memory accounts for the segments. -/
theorem modifyCkpt_accounts (change : CkptBlock → CkptBlock) :
    Returns Accounts (modifyCkpt change) := Returns.change fun _ => .ofSame rfl rfl

/-- Changing the data of a page accounts for the segments. -/
theorem modifyData_accounts (page : Nat) (change : BlockData → BlockData) :
    Returns Accounts (modifyData page change) := Returns.change fun _ => .ofSame rfl rfl

/-- Flushing a table whose marks do not count accounts for the segments. -/
theorem flushEntries_accounts {ι : Type} (area : Area ι)
    (marks : ∀ fs dirty, Accounts fs (area.dirty.put dirty fs)) :
    Returns Accounts area.flushEntries := by
  have parts := accounts_parts
  have pageOf : ∀ pages blk, Returns Accounts (area.pageOf pages blk) := by
    intro pages blk
    unfold Area.pageOf
    split
    · exact Returns.pure _
    · refine Returns.bind parts.allocate fun page => Returns.bind Returns.get fun _ => ?_
      exact Returns.bind (readInto_accounts _ _) fun _ => Returns.pure _
  have outEntry : ∀ pages index, Returns Accounts (area.outEntry pages index) := by
    intro pages index
    refine Returns.bind Returns.get fun _ => Returns.bind (Returns.throwIf _ _) fun _ => ?_
    refine Returns.bind (pageOf _ _) fun found => ?_
    exact Returns.bind (modifyData_accounts _ _) fun _ => Returns.pure _
  have outJournal : ∀ pages, Returns Accounts (area.outJournal pages) := by
    intro pages
    refine Returns.bind Returns.get fun _ => Returns.bind (Returns.foldlM outEntry _) fun _ => ?_
    exact Returns.bind (modifyCkpt_accounts _) fun _ => Returns.pure _
  have journalEntry : ∀ pages key, Returns Accounts (area.journalEntry pages key) := by
    intro pages key
    have store : ∀ pages, Returns Accounts (do
        let value := area.table (← get) key
        modifyCkpt fun ckpt =>
          let index := area.journalLen.get ckpt
          area.journalLen.put (index + 1)
            (area.journals.put (Function.update (area.journals.get ckpt) index { key, value }) ckpt)
        modify fun fs => area.dirty.put (clearFlag area.entryPerBlk (area.dirty.get fs) key) fs
        return pages : FsM (Nat → Option Nat)) := by
      intro pages
      refine Returns.bind Returns.get fun _ => Returns.bind (modifyCkpt_accounts _) fun _ => ?_
      exact Returns.bind (Returns.change fun fs => marks fs _) fun _ => Returns.pure _
    refine Returns.bind Returns.get fun _ => Returns.ite ?_ (Returns.pure _)
    refine Returns.bind Returns.get fun _ => Returns.ite ?_ ?_
    · exact Returns.bind (outJournal _) store
    · exact store _
  have writePage : ∀ pages blk, Returns Accounts (area.writePage pages blk) := by
    intro pages blk
    unfold Area.writePage
    split
    · exact Returns.pure _
    · refine Returns.bind (modifyCkpt_accounts _) fun _ => Returns.bind Returns.get fun fs => ?_
      refine Returns.bind (getData_moves _) fun data => ?_
      exact Returns.bind (blockWrite_accounts _ data) fun _ => parts.free _
  refine Returns.bind (outJournal _) fun pages => ?_
  refine Returns.bind (Returns.foldlM journalEntry _) fun pages => ?_
  exact Returns.forM fun blk _ => writePage _ blk

/-- Flushing both tables accounts for the segments. -/
theorem flushBoth_accounts : Returns Accounts flushNatEntries ∧ Returns Accounts flushSitEntries := by
  constructor
  · exact flushEntries_accounts natArea fun _ _ => .ofSame rfl rfl
  · exact flushEntries_accounts sitArea fun _ _ => .ofMarks rfl rfl

/-- Taking a checkpoint accounts for the segments, and goes to the other slot. -/
theorem writeCheckpoint_accounts {fs fs' : Fs} (slot : fs.curCkpt = 0 ∨ fs.curCkpt = 1)
    (run : writeCheckpoint fs = .ok ⟨⟩ fs') :
    (fs'.curCkpt = 0 ∨ fs'.curCkpt = 1) ∧ (fs.segments.Managed → fs'.segments.Managed) := by
  obtain ⟨fs₁, fs₂, nat, sit, final⟩ := writeCheckpoint_ok run
  have flushed : Accounts fs fs₂ :=
    trans_of Accounts (flushBoth_accounts.1 _ _ _ nat) (flushBoth_accounts.2 _ _ _ sit)
  have chosen : fs₂.curCkpt = 0 ∨ fs₂.curCkpt = 1 := flushed.slot.symm ▸ slot
  rw [final chosen]
  exact ⟨(otherSlot chosen).1, flushed.run⟩

/-! ## Formatting -/

/-- `SyncNAT` accounts for the segments. -/
theorem syncNat_accounts : Returns Accounts syncNat := by
  refine Returns.forM fun blk _ => Returns.bind Returns.get fun fs => Returns.doIf ?_
  refine Returns.bind accounts_parts.allocate fun page => ?_
  refine Returns.bind (modifyData_accounts _ _) fun _ => Returns.bind (getData_moves _) fun data => ?_
  refine Returns.bind (blockWrite_accounts _ data) fun _ => ?_
  exact Returns.change fun _ => .ofSame rfl rfl

/-- `SyncSIT` accounts for the segments. -/
theorem syncSit_accounts : Returns Accounts syncSit := by
  refine Returns.bind accounts_parts.allocate fun page => ?_
  refine Returns.bind (Returns.forM fun blk _ => ?_) fun _ => accounts_parts.free page
  refine Returns.bind Returns.get fun fs => Returns.doIf ?_
  refine Returns.bind (modifyData_accounts _ _) fun _ => Returns.bind (getData_moves _) fun data => ?_
  exact blockWrite_accounts _ data

/-- Creating the root inode accounts for the segments. -/
theorem createRoot_accounts : Returns Accounts createRoot := by
  intro fs
  refine Returns.bindAt (accounts_parts.allocate fs) fun page fs' taken => ?_
  have used := inUse_of_allocate taken
  refine Returns.bindAt (initNode_movesAt accounts_parts used _ _) fun created fs'' _ =>
    Returns.ite ?_ (Returns.throw _) fs''
  refine Returns.bind (modifyNode_moves accounts_parts _ _) fun _ => ?_
  refine Returns.bind (accounts_parts.keepPage _ fun _ => ⟨rfl, rfl⟩) fun _ => ?_
  refine Returns.bind (accounts_parts.setNodeCache _ _) fun _ => ?_
  refine Returns.bind (updateInode_moves accounts_parts _) fun phyBlk => ?_
  refine Returns.bind (Returns.throwIf _ _) fun _ => ?_
  exact accounts_parts.setPhyBlk _ _

/-- After formatting the segments are managed, and the slot is one of the two. -/
theorem initialzie_accounts {opSegs : Nat} {memory fs : Fs}
    (run : initialzie opSegs memory = .ok ⟨⟩ fs) :
    (fs.curCkpt = 0 ∨ fs.curCkpt = 1) ∧ fs.segments.Managed := by
  simp only [initialzie, bind_eq_ok] at run
  obtain ⟨_, fs₁, cleared, _, fs₂, linked, _, fs₃, pages, _, fs₄, nodes, _, fs₅, addresses, _, fs₆,
    opened, _, fs₇, root, _, fs₈, first, _, fs₉, second, _, fs₁₀, header, _, fs₁₁, slot, _, fs₁₂,
    summaries, _, fs₁₃, segments, _, fs₁₄, marks, _, fs₁₅, again, checkpoint⟩ := run
  have start : fs₂.segments.Managed := by
    cases linked
    exact SegmentManager.managed_initSegmentManager _
  have tables : Accounts fs₂ fs₄ := by
    cases pages
    cases nodes
    exact .ofSame rfl rfl
  have list : Accounts fs₅ fs₆ := by
    cases opened
    exact .ofSame rfl rfl
  have before : Accounts fs₂ fs₁₀ :=
    trans_of Accounts tables <| trans_of Accounts (syncNat_accounts _ _ _ addresses) <|
    trans_of Accounts list <| trans_of Accounts (createRoot_accounts _ _ _ root) <|
    trans_of Accounts (blockWrite_accounts _ _ _ _ _ first) <|
    trans_of Accounts (blockWrite_accounts _ _ _ _ _ second)
      (modifyCkpt_accounts _ _ _ _ header)
  have chosen : fs₁₁.curCkpt = 1 ∧ fs₁₁.segments = fs₁₀.segments := by
    cases slot
    exact ⟨rfl, rfl⟩
  have cleaned : Accounts fs₁₃ fs₁₄ := by
    cases marks
    exact .ofMarks rfl rfl
  have after : Accounts fs₁₁ fs₁₅ :=
    trans_of Accounts (syncSsa_moves accounts_parts _ _ _ summaries) <|
    trans_of Accounts (syncSit_accounts _ _ _ segments) <|
    trans_of Accounts cleaned (syncNat_accounts _ _ _ again)
  have managed : fs₁₅.segments.Managed := by
    refine after.run ?_
    rw [chosen.2]
    exact before.run start
  have current : fs₁₅.curCkpt = 1 := after.slot.trans chosen.1
  obtain ⟨slot', done⟩ := writeCheckpoint_accounts (.inr current) checkpoint
  exact ⟨slot', done managed⟩

/-! ## Runs -/

/-- A file system that was formatted and then called any number of times, each call returning. -/
inductive CallRun [NameHash] : Fs → Prop
  /-- Formatting returns, in any memory. -/
  | formatted {opSegs : Nat} {memory fs : Fs} (run : initialzie opSegs memory = .ok ⟨⟩ fs) :
    CallRun fs
  /-- A call returns. -/
  | called {fs fs' : Fs} (before : CallRun fs) (call : Call)
    (returned : call.run fs = .ok ⟨⟩ fs') : CallRun fs'

/-- A run of parts and checkpoints keeps the segments accounted for. -/
theorem Trace.accounts {fs fs' : Fs} {saves : List Save} (trace : Trace Accounts fs saves fs')
    (slot : fs.curCkpt = 0 ∨ fs.curCkpt = 1) (managed : fs.segments.Managed) :
    (fs'.curCkpt = 0 ∨ fs'.curCkpt = 1) ∧ fs'.segments.Managed := by
  induction trace with
  | start => exact ⟨slot, managed⟩
  | moved _ step ih =>
    obtain ⟨slot, managed⟩ := ih
    exact ⟨step.slot.symm ▸ slot, step.run managed⟩
  | saved _ run ih =>
    obtain ⟨slot, managed⟩ := ih
    obtain ⟨slot', done⟩ := writeCheckpoint_accounts slot run
    exact ⟨slot', done managed⟩

/-- In every run the segments are managed, and the slot is one of the two. -/
theorem CallRun.managed [NameHash] {fs : Fs} (run : CallRun fs) :
    (fs.curCkpt = 0 ∨ fs.curCkpt = 1) ∧ fs.segments.Managed := by
  induction run with
  | formatted run => exact initialzie_accounts run
  | called _ call returned ih =>
    obtain ⟨saves, trace⟩ := call.evolves accounts_parts _ _ _ returned
    exact trace.accounts ih.1 ih.2

end FsChecking.F2fs
