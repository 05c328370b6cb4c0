import FsChecking.F2fs.Durable
import FsChecking.F2fs.Simulator

/-!
# Between two checkpoints

What the operations of the file system do to the tables and the storage when no checkpoint is
written: they mark every entry they change, leave the checkpoint in memory alone, and write only to
the summaries and the main area. Every operation keeps the free pages linked, too, so that a later
flush gets pages of its own.
-/

namespace FsChecking.F2fs

open Lib

/-! ## The tables -/

/-- Segments whose changed entries are marked. -/
def SegmentsMarked (before after : SegmentManager) : Prop :=
  ∀ seg, after.isDirty seg = false → before.isDirty seg = false ∧
    (after.segments seg).validBmp = (before.segments seg).validBmp ∧
    (after.segments seg).validBlkNr = (before.segments seg).validBlkNr

instance : IsPreorder SegmentManager SegmentsMarked where
  refl _ _ unmarked := ⟨unmarked, rfl, rfl⟩
  trans _ _ _ left right seg unmarked := by
    obtain ⟨unmarked', bits', number'⟩ := right seg unmarked
    obtain ⟨unmarked'', bits, number⟩ := left seg unmarked'
    exact ⟨unmarked'', bits'.trans bits, number'.trans number⟩

/-- Node addresses whose changed entries are marked. -/
def NodesMarked (before after : NodeAddressTable) : Prop :=
  ∀ nid, after.isDirty nid = false → before.isDirty nid = false ∧ after.nat nid = before.nat nid

instance : IsPreorder NodeAddressTable NodesMarked where
  refl _ _ unmarked := ⟨unmarked, rfl⟩
  trans _ _ _ left right nid unmarked := by
    obtain ⟨unmarked', same'⟩ := right nid unmarked
    obtain ⟨unmarked'', same⟩ := left nid unmarked'
    exact ⟨unmarked'', same'.trans same⟩

namespace SegmentsMarked

variable {manager manager' : SegmentManager} {seg : Nat}

/-- Segments that keep their contents and their marks have nothing to mark. -/
theorem ofSame (marks : manager'.dirtyMap = manager.dirtyMap)
    (content : ∀ seg, (manager'.segments seg).validBmp = (manager.segments seg).validBmp ∧
      (manager'.segments seg).validBlkNr = (manager.segments seg).validBlkNr) :
    SegmentsMarked manager manager' := by
  intro seg unmarked
  refine ⟨?_, content seg⟩
  unfold SegmentManager.isDirty at unmarked ⊢
  rw [← marks]
  exact unmarked

/-- A segment that is changed and marked leaves nothing unmarked. -/
theorem setDirty (marks : manager'.dirtyMap = manager.dirtyMap)
    (others : ∀ other, other ≠ seg → manager'.segments other = manager.segments other) :
    SegmentsMarked manager (manager'.setDirty seg) := by
  intro other unmarked
  rw [SegmentManager.isDirty_setDirty, Bool.or_eq_false_iff] at unmarked
  have apart : other ≠ seg := of_decide_eq_false unmarked.2
  refine ⟨?_, ?_⟩
  · have before := unmarked.1
    unfold SegmentManager.isDirty at before ⊢
    rw [← marks]
    exact before
  · show (manager'.segments other).validBmp = _ ∧ (manager'.segments other).validBlkNr = _
    rw [others other apart]
    exact ⟨rfl, rfl⟩

/-- A change that keeps the valid blocks has nothing to mark. -/
theorem updateSeg (manager : SegmentManager) (seg : Nat) (change : SegmentInfo → SegmentInfo)
    (keeps : ∀ info, (change info).validBmp = info.validBmp ∧
      (change info).validBlkNr = info.validBlkNr) :
    SegmentsMarked manager (manager.updateSeg seg change) := by
  refine ofSame rfl fun other => ?_
  by_cases here : other = seg
  · rw [here, SegmentManager.updateSeg_self]
    exact keeps _
  · rw [SegmentManager.updateSeg_of_ne here]
    exact ⟨rfl, rfl⟩

/-- Entering the free queue changes no valid block. -/
theorem freeEnQueue (manager : SegmentManager) (seg : Nat) :
    SegmentsMarked manager (manager.freeEnQueue seg) := by
  refine ofSame ?_ fun other => ?_
  · unfold SegmentManager.freeEnQueue
    dsimp only
    split <;> rfl
  · have same : SegmentManager.SameContent _ _ :=
      SegmentManager.sameContent_freeEnQueue manager seg other
    exact ⟨(congrArg SegmentInfo.validBmp same :), (congrArg SegmentInfo.validBlkNr same :)⟩

/-- Leaving the free queue changes no valid block. -/
theorem unlinkTail (manager : SegmentManager) : SegmentsMarked manager manager.unlinkTail := by
  unfold SegmentManager.unlinkTail
  dsimp only
  split
  · exact ofSame rfl fun _ => ⟨rfl, rfl⟩
  · refine updateSeg manager manager.freeHead (fun info =>
      { info with freeNext := (manager.segments manager.freeTail).freeNext }) fun _ => ⟨rfl, rfl⟩

/-- Freeing a segment marks it. -/
theorem freeSegment (manager : SegmentManager) (seg : Nat) :
    SegmentsMarked manager (manager.freeSegment seg) := by
  have queued := trans_of SegmentsMarked
    (updateSeg manager seg (fun info => { info with segTemp := btTempNr }) fun _ => ⟨rfl, rfl⟩)
    (freeEnQueue _ seg)
  exact trans_of SegmentsMarked queued (setDirty rfl fun _ _ => rfl)

/-- Invalidating a block marks its segment. -/
theorem dropBlock (manager : SegmentManager) (seg blk : Nat) :
    SegmentsMarked manager (manager.dropBlock seg blk) :=
  setDirty rfl fun _ apart => Function.update_of_ne apart ..

/-- Opening a segment changes no valid block. -/
theorem openSegment (manager : SegmentManager) (seg temp : Nat) :
    SegmentsMarked manager (manager.openSegment seg temp) :=
  setDirty rfl fun _ apart => Function.update_of_ne apart ..

/-- Recording a block that was written marks its segment. -/
theorem recordWrite (manager : SegmentManager) (temp nid offset : Nat) :
    SegmentsMarked manager (manager.recordWrite temp nid offset) :=
  setDirty rfl fun _ apart => Function.update_of_ne apart ..

/-- Closing a full segment changes no valid block. -/
theorem closeFull (manager : SegmentManager) (temp : Nat) :
    SegmentsMarked manager (manager.closeFull temp) := by
  unfold SegmentManager.closeFull
  dsimp only
  split
  · exact ofSame rfl fun _ => ⟨rfl, rfl⟩
  · exact refl_of SegmentsMarked manager

end SegmentsMarked

/-- Storing the address of a node marks it. -/
theorem NodesMarked.setEntry (table : NodeAddressTable) (nid phyBlk : Nat) :
    NodesMarked table (table.setEntry nid phyBlk) := by
  intro other unmarked
  have flags := testFlag_setFlag (show 0 < natEntryPerBlk by decide)
    (show natEntryPerBlk ≤ 32 by decide) table.dirty nid other
  unfold NodeAddressTable.isDirty NodeAddressTable.setEntry NodeAddressTable.setDirty at unmarked
  dsimp only at unmarked
  rw [flags, Bool.or_eq_false_iff] at unmarked
  refine ⟨unmarked.1, ?_⟩
  exact Function.update_of_ne (of_decide_eq_false unmarked.2) ..

/-- A page that no list of free pages contains. -/
def Held (page : Nat) (fs : Fs) : Prop := ∀ free, LinkedPages fs.pages free → page ∉ free

/-- A file system before and after some operations without a checkpoint. -/
structure Between (before after : Fs) : Prop where
  /-- The checkpoint in memory stays. -/
  checkpoint : after.checkpoint = before.checkpoint
  /-- The current slot stays. -/
  curCkpt : after.curCkpt = before.curCkpt
  /-- The writes go to the summaries and the main area. -/
  writes : ∃ writes, after.storage = writes ++ before.storage ∧
    ∀ write ∈ writes, ssaStartBlk ≤ (write.1 : Nat)
  /-- Changed node addresses are marked. -/
  nat : NodesMarked before.nat after.nat
  /-- Changed segments are marked. -/
  segments : SegmentsMarked before.segments after.segments
  /-- The free pages stay linked. -/
  linked : (∃ free, LinkedPages before.pages free) → ∃ free, LinkedPages after.pages free

instance : IsPreorder Fs Between where
  refl fs := ⟨rfl, rfl, ⟨[], rfl, fun _ member => absurd member List.not_mem_nil⟩,
    refl_of NodesMarked fs.nat, refl_of SegmentsMarked fs.segments, id⟩
  trans first second third left right := by
    obtain ⟨writes, storage, targets⟩ := left.writes
    obtain ⟨writes', storage', targets'⟩ := right.writes
    refine ⟨right.checkpoint.trans left.checkpoint, right.curCkpt.trans left.curCkpt,
      ⟨writes' ++ writes, ?_, fun write member => ?_⟩, trans_of NodesMarked left.nat right.nat,
      trans_of SegmentsMarked left.segments right.segments, right.linked ∘ left.linked⟩
    · rw [storage', storage, List.append_assoc]
    · exact (List.mem_append.mp member).elim (targets' write) (targets write)

namespace Between

variable {fs : Fs}

/-- When only the tables change and mark their changes, the operations stay between checkpoints. -/
theorem ofTables {nat : NodeAddressTable} {segments : SegmentManager}
    (nodes : NodesMarked fs.nat nat) (marked : SegmentsMarked fs.segments segments) :
    Between fs { fs with nat, segments } :=
  ⟨rfl, rfl, ⟨[], rfl, fun _ member => absurd member List.not_mem_nil⟩, nodes, marked, id⟩

/-- When only other parts change, the operations stay between checkpoints. -/
theorem ofOther {fs' : Fs} (same : fs'.checkpoint = fs.checkpoint ∧ fs'.curCkpt = fs.curCkpt ∧
    fs'.storage = fs.storage ∧ fs'.nat = fs.nat ∧ fs'.segments = fs.segments ∧
    fs'.pages = fs.pages) : Between fs fs' := by
  obtain ⟨checkpoint, curCkpt, storage, nat, segments, pages⟩ := same
  refine ⟨checkpoint, curCkpt, ⟨[], storage, fun _ member => absurd member List.not_mem_nil⟩,
    ?_, ?_, ?_⟩
  · rw [nat]
    exact refl_of NodesMarked fs.nat
  · rw [segments]
    exact refl_of SegmentsMarked fs.segments
  · rw [pages]
    exact id

/-- When only pages change and the free ones stay linked, the operations stay between checkpoints.
-/
theorem ofPages {pages : PageAllocator}
    (linked : ∀ free, LinkedPages fs.pages free → ∃ free, LinkedPages pages free) :
    Between fs { fs with pages } :=
  ⟨rfl, rfl, ⟨[], rfl, fun _ member => absurd member List.not_mem_nil⟩,
    refl_of NodesMarked fs.nat, refl_of SegmentsMarked fs.segments,
    fun ⟨free, before⟩ => linked free before⟩

/-- Changing a page that is not free stays between checkpoints. -/
theorem ofHeld {page : Nat} (held : Held page fs) (change : PageInfo → PageInfo) :
    Between fs { fs with pages := fs.pages.update page change } :=
  ofPages fun free linked => ⟨free, linked.update (held free linked) change⟩

end Between

/-- A page in use is held. -/
theorem Held.ofUsed {page : Nat} {fs : Fs} (used : (fs.pages.page page).inUse = true) :
    Held page fs := fun _ linked => linked.not_mem used

/-- The page on the stack of the collector is held. -/
theorem held_stackPage (fs : Fs) : Held stackPage fs := fun _ linked member =>
  Nat.lt_irrefl maxPageNum (linked.bounded member)

/-! ## Elementary operations -/

section Elementary

variable {α : Type}

/-- Programs of the segment manager that mark what they change stay between checkpoints. -/
theorem segments_between {program : SegM α} (marks : Returns SegmentsMarked program) :
    Returns Between (segmentsLens.zoom program) :=
  Returns.zoom marks fun fs _ marked => .ofTables (refl_of NodesMarked fs.nat) marked

/-- Programs of the node address table that mark what they change stay between checkpoints. -/
theorem nat_between {program : NatM α} (marks : Returns NodesMarked program) :
    Returns Between (natLens.zoom program) :=
  Returns.zoom marks fun fs _ marked => .ofTables marked (refl_of SegmentsMarked fs.segments)

/-- Reading a page stays between checkpoints. -/
theorem getPage_between (page : Nat) : Returns Between (getPage page) :=
  Returns.bind Returns.get fun _ => Returns.pure _

/-- Reading the data of a page stays between checkpoints. -/
theorem getData_between (page : Nat) : Returns Between (getData page) :=
  Returns.bind Returns.get fun _ => Returns.pure _

/-- Looking up a page stays between checkpoints. -/
theorem pagePtr_between (index : Nat) : Returns Between (pagePtr index) :=
  Returns.ite (Returns.throw _) (Returns.pure _)

/-- Changing a page without its link and its mark stays between checkpoints. -/
theorem modifyPage_between (page : Nat) {change : PageInfo → PageInfo}
    (keeps : ∀ info, (change info).freeLink = info.freeLink ∧
      (change info).inUse = info.inUse) : Returns Between (modifyPage page change) := by
  refine Returns.change fun fs => Between.ofPages fun free linked =>
    ⟨free, linked.congr rfl fun other _ => ?_⟩
  by_cases here : other = page
  · rw [here, PageAllocator.update_page_self]
    exact keeps _
  · rw [PageAllocator.update_page_of_ne here]
    exact ⟨rfl, rfl⟩

/-- Changing the data of a page without the tag stays between checkpoints. -/
theorem modifyData_between (page : Nat) {change : BlockData → BlockData}
    (keeps : ∀ data, (change data).blockType = data.blockType) :
    Returns Between (modifyData page change) :=
  modifyPage_between page fun info => ⟨congrArg BlockType.toNat (keeps info.data), rfl⟩

/-- Changing the node in a page stays between checkpoints. -/
theorem modifyNode_between (page : Nat) (change : NodeInfo → NodeInfo) :
    Returns Between (modifyNode page change) := modifyData_between page fun _ => rfl

/-- Changing the index in a page stays between checkpoints. -/
theorem modifyIndex_between (page : Nat) (change : IndexNode → IndexNode) :
    Returns Between (modifyIndex page change) := modifyNode_between page _

/-- Marking a page as dirty or clean stays between checkpoints. -/
theorem setPageDirty_between (page : Nat) (flag : Bool) :
    Returns Between (setPageDirty page flag) := modifyPage_between page fun _ => ⟨rfl, rfl⟩

/-- Caching a node stays between checkpoints. -/
theorem setNodeCache_between (nid page : Nat) : Returns Between (setNodeCache nid page) :=
  Returns.change fun fs => .ofTables (fun _ unmarked => ⟨unmarked, rfl⟩)
    (refl_of SegmentsMarked fs.segments)

/-- Storing the block that a host write is storing stays between checkpoints. -/
theorem setDataCache_between (cache : DataPageCache) : Returns Between (setDataCache cache) :=
  segments_between (Returns.change fun _ => .ofSame rfl fun _ => ⟨rfl, rfl⟩)

/-- Giving back a page stays between checkpoints. -/
theorem free_between (page : Nat) : Returns Between (pagesLens.zoom (free page)) := by
  intro fs value fs' run
  obtain ⟨used, -, rfl⟩ := zoom_free_eq_ok.mp run
  exact Between.ofPages fun _ linked => ⟨_, linked.release used⟩

/-- Reading a block into a page that is held stays between checkpoints. -/
theorem readInto_betweenAt {page : Nat} {fs : Fs} (held : Held page fs) (lba : Nat) :
    ReturnsAt Between (readInto lba page) fs := by
  intro value fs' run
  obtain ⟨data, -, rfl⟩ := readInto_eq_ok.mp run
  exact .ofHeld held _

/-- Changing a page that is held stays between checkpoints. -/
theorem modifyPage_betweenAt {page : Nat} {fs : Fs} (held : Held page fs)
    (change : PageInfo → PageInfo) : ReturnsAt Between (modifyPage page change) fs := by
  intro value fs' run
  cases run
  exact .ofHeld held change

/-- Taking a page stays between checkpoints. -/
theorem takePage_between : Returns Between (pagesLens.zoom allocate) := by
  intro fs page fs' run
  obtain ⟨-, inside, -, rfl⟩ := zoom_allocate_eq_ok.mp run
  refine Between.ofPages fun free linked => ?_
  obtain ⟨rest, rfl⟩ := linked.head inside
  exact ⟨rest, linked.take⟩

/-- Taking a page stays between checkpoints when what follows does while the page is in use. -/
theorem allocate_between {next : Nat → FsM α}
    (each : ∀ page fs, (fs.pages.page page).inUse = true → ReturnsAt Between (next page) fs) :
    Returns Between (pagesLens.zoom allocate >>= next) := fun fs =>
  Returns.bindAt (takePage_between fs) fun page fs' run => each page fs' (inUse_of_allocate run)

/-- Taking a page and reading a block into it stays between checkpoints when what follows does. -/
theorem allocateRead_between {lba : Nat} {next : Nat → FsM α}
    (each : ∀ page, Returns Between (next page)) :
    Returns Between (do
      let page ← pagesLens.zoom allocate
      readInto lba page
      next page) :=
  allocate_between fun page _ used =>
    Returns.bindAt (readInto_betweenAt (.ofUsed used) lba) fun _ fs' _ => each page fs'

/-- Writing a block behind the tables stays between checkpoints. -/
theorem blockWrite_between {lba : Nat} (behind : ssaStartBlk ≤ lba) (data : BlockData) :
    Returns Between (blockWrite lba data) := by
  unfold blockWrite
  split
  · refine Returns.change fun fs => ⟨rfl, rfl, ⟨[_], rfl, fun write member => ?_⟩,
      refl_of NodesMarked fs.nat, refl_of SegmentsMarked fs.segments, id⟩
    rw [List.mem_singleton.mp member]
    exact behind
  · exact Returns.throw _

end Elementary

/-! ## Tables -/

/-- `free_de_queue` marks what it changes. -/
theorem freeDeQueue_marks : Returns SegmentsMarked freeDeQueue := by
  intro manager value manager' run
  unfold freeDeQueue at run
  rw [get_bind_apply, throwIf_bind_eq_ok, set_bind_apply] at run
  cases run.2
  exact .unlinkTail manager

/-- `InvalidBlock(seg_id, blk_id)` marks what it changes. -/
theorem invalidBlockAt_marks (seg blk : Nat) : Returns SegmentsMarked (invalidBlockAt seg blk) := by
  unfold invalidBlockAt
  refine Returns.bind (Returns.throwIf _ _) fun _ => Returns.bind Returns.get fun _ => ?_
  refine Returns.bind (Returns.throwIf _ _) fun _ => ?_
  refine Returns.bind (Returns.change fun manager => .dropBlock manager seg blk) fun _ => ?_
  refine Returns.bind Returns.get fun manager => ?_
  dsimp only
  split
  · refine Returns.bind (Returns.throwIf _ _) fun _ => ?_
    exact Returns.bind (Returns.change fun manager => .freeSegment manager seg)
      fun _ => Returns.pure _
  · exact Returns.pure _

/-- `InvalidBlock(phy_blk)` marks what it changes. -/
theorem invalidBlock_marks (phyBlk : Nat) : Returns SegmentsMarked (invalidBlock phyBlk) :=
  Returns.ite (Returns.pure _) (invalidBlockAt_marks _ _)

/-- A round of the victim scan marks what it changes. -/
theorem scanSegment_marks (pool : GcPool Nat) (seg : Nat) :
    Returns SegmentsMarked (scanSegment pool seg) := by
  refine Returns.getBind fun manager => ?_
  dsimp only
  split
  · intro value manager' run
    rw [throwIf_bind_eq_ok, set_bind_apply] at run
    cases run.2
    exact .freeSegment manager seg
  · split
    · exact Returns.pure _ manager
    · exact Returns.pure _ manager

/-- The victim scan marks what it changes. -/
theorem scanVictims_marks : Returns SegmentsMarked scanVictims := by
  refine Returns.bind (Returns.foldlM scanSegment_marks _) fun pool => ?_
  exact Returns.bind (Returns.throwIf _ _) fun _ => Returns.bind Returns.get fun _ => Returns.pure _

/-- `get_phy_blk` marks what it changes. -/
theorem getPhyBlk_marks (nid : Nat) : Returns NodesMarked (getPhyBlk nid) :=
  Returns.bind (Returns.throwIf _ _) fun _ => Returns.bind Returns.get fun _ => Returns.pure _

/-- `set_phy_blk` marks what it changes. -/
theorem setPhyBlk_marks (nid phyBlk : Nat) : Returns NodesMarked (setPhyBlk nid phyBlk) :=
  Returns.bind (Returns.throwIf _ _) fun _ => Returns.change fun table => .setEntry table nid phyBlk

/-- The loop of `get_node` marks what it changes. -/
theorem scanNode_marks (cur fuel : Nat) : Returns NodesMarked (scanNode cur fuel) := by
  induction fuel with
  | zero => exact Returns.throw _
  | succ fuel ih =>
    refine Returns.getBind fun table => ?_
    dsimp only
    split
    · intro value table' run
      rw [set_bind_apply] at run
      cases run
      exact NodesMarked.setEntry table _ _
    · refine Returns.bindAt ?_ fun _ table' _ => ?_
      · intro value table' run
        cases run
        exact fun _ unmarked => ⟨unmarked, rfl⟩
      · exact Returns.ite (Returns.pure _) ih table'

/-- `get_node` marks what it changes. -/
theorem getNode_marks : Returns NodesMarked getNode := by
  refine Returns.getBind fun table => ?_
  split
  · exact Returns.pure _ table
  · refine Returns.bindAt ?_ fun _ table' _ => scanNode_marks _ _ table'
    intro value table' run
    cases doIf_eq_ok.mp run with
    | inl wrapped =>
      cases wrapped.2
      exact fun _ unmarked => ⟨unmarked, rfl⟩
    | inr same =>
      rw [same.2]
      exact refl_of NodesMarked table

/-! ## Nodes -/

/-- `put_node` stays between checkpoints. -/
theorem putNode_between (nid : Nat) : Returns Between (putNode nid) := by
  unfold putNode
  refine Returns.bind (Returns.throwIf _ _) fun _ => Returns.bind Returns.get fun _ => ?_
  refine Returns.bind (Returns.doIf (Returns.bind (segments_between (invalidBlock_marks _))
    fun _ => Returns.pure _)) fun _ => Returns.bind Returns.get fun _ => ?_
  refine Returns.bind (Returns.doIf (Returns.bind (Returns.throwIf _ _) fun _ =>
    Returns.bind (free_between _) fun _ => setNodeCache_between _ _)) fun _ => ?_
  exact nat_between (Returns.change fun table => NodesMarked.setEntry table nid _)

/-- `ReadNode` stays between checkpoints. -/
theorem readNode_between (nid : Nat) : Returns Between (readNode nid) := by
  unfold readNode
  refine Returns.bind (Returns.throwIf _ _) fun _ => Returns.bind Returns.get fun fs => ?_
  dsimp only
  split
  · refine Returns.bind (pagePtr_between _) fun page => ?_
    exact Returns.bind (modifyNode_between _ _) fun _ => Returns.pure _
  · refine Returns.bind (nat_between (getPhyBlk_marks nid)) fun blk => ?_
    refine Returns.bind (Returns.throwIf _ _) fun _ => allocateRead_between fun page => ?_
    refine Returns.bind (modifyPage_between _ fun _ => ⟨rfl, rfl⟩) fun _ => ?_
    refine Returns.bind (setNodeCache_between _ _) fun _ => ?_
    refine Returns.bind (getData_between _) fun data => Returns.bind (Returns.throwIf _ _) fun _ => ?_
    refine Returns.bind (Returns.doIf (modifyNode_between _ _)) fun _ => ?_
    exact Returns.bind (modifyNode_between _ _) fun _ => Returns.pure _

/-- `UpdateIndex` stays between checkpoints. -/
theorem updateIndex_between (nid offset phyBlk : Nat) :
    Returns Between (updateIndex nid offset phyBlk) := by
  refine Returns.bind (readNode_between nid) fun page => ?_
  refine Returns.bind (getData_between page) fun data => Returns.bind (Returns.throwIf _ _) fun _ => ?_
  exact Returns.bind (modifyIndex_between _ _) fun _ => setPageDirty_between _ _

/-! ## Log writes and collections -/

/-- `AllocSegment` before the de-queue stays between checkpoints. -/
theorem reclaimSpace_between {collector : FsM ErrorCode} (collects : Returns Between collector)
    (byGc force : Bool) : Returns Between (reclaimSpace collector byGc force) := by
  refine Returns.bind Returns.get fun fs => Returns.bind (Returns.throwIf _ _) fun _ => ?_
  dsimp only
  split
  · refine Returns.bind collects fun ir => Returns.bind Returns.get fun _ => ?_
    exact Returns.bind (Returns.throwIf _ _) fun _ => Returns.pure _
  · exact Returns.pure _

/-- `AllocSegment` stays between checkpoints. -/
theorem allocSegment_between {collector : FsM ErrorCode} (collects : Returns Between collector)
    (temp : Nat) (byGc force : Bool) :
    Returns Between (allocSegment collector temp byGc force) := by
  refine Returns.bind (reclaimSpace_between collects byGc force) fun enough => ?_
  split
  · refine Returns.bind (segments_between freeDeQueue_marks) fun seg => ?_
    exact Returns.bind (segments_between (Returns.change fun manager =>
      .openSegment manager seg temp)) fun _ => Returns.pure _
  · exact Returns.pure _

/-- Changing a log head marks what it changes. -/
theorem setCurseg_marks (temp : Nat) (curseg : CursegInfo) :
    Returns SegmentsMarked (modify (·.setCurseg temp curseg) : SegM Unit) :=
  Returns.change fun _ => .ofSame rfl fun _ => ⟨rfl, rfl⟩

/-- The first half of `WriteBlockToSeg` stays between checkpoints. -/
theorem openLog_between {collector : FsM ErrorCode} (collects : Returns Between collector)
    (temp : Nat) (byGc force : Bool) : Returns Between (openLog collector temp byGc force) := by
  refine Returns.bind Returns.get fun fs => ?_
  split
  · refine Returns.bind (allocSegment_between collects temp byGc force) fun seg => ?_
    split
    · exact Returns.bind (setDataCache_between _) fun _ => Returns.pure _
    · exact Returns.bind (segments_between (setCurseg_marks _ _)) fun _ => Returns.pure _
  · exact Returns.pure _

/-- The second half of `WriteBlockToSeg` stays between checkpoints. -/
theorem appendBlock_between (page temp : Nat) (byGc : Bool) :
    Returns Between (appendBlock page temp byGc) := by
  refine Returns.bind Returns.get fun fs => Returns.bind (Returns.throwIf _ _) fun _ => ?_
  refine Returns.bind (getPage_between page) fun info => ?_
  have behind : ∀ seg blk, ssaStartBlk ≤ segToLba seg blk := by
    intro seg blk
    show 40 ≤ (8 + seg) * 16 + blk
    omega
  refine Returns.bind (blockWrite_between (behind _ _) _) fun _ => ?_
  refine Returns.bind (segments_between (Returns.change fun manager =>
    .recordWrite manager temp _ _)) fun _ => ?_
  refine Returns.bind (segments_between (invalidBlock_marks _)) fun _ => ?_
  refine Returns.bind (modifyPage_between _ fun _ => ⟨rfl, rfl⟩) fun _ => ?_
  refine Returns.bind (segments_between (Returns.change fun manager =>
    .closeFull manager temp)) fun _ => ?_
  exact Returns.bind (Returns.doIf (setDataCache_between _)) fun _ => Returns.pure _

/-- `WriteBlockToSeg` with a collector stays between checkpoints. -/
theorem writeBlockWith_between {collector : FsM ErrorCode} (collects : Returns Between collector)
    (page : Nat) (force byGc : Bool) :
    Returns Between (writeBlockWith collector page force byGc) := by
  refine Returns.bind (getPage_between page) fun info => ?_
  refine Returns.bind (modifyPage_between _ fun _ => ⟨rfl, rfl⟩) fun _ => ?_
  refine Returns.bind (Returns.doIf (setDataCache_between _)) fun _ => ?_
  refine Returns.bind (openLog_between collects _ byGc force) fun opened => ?_
  exact Returns.ite (appendBlock_between _ _ _) (Returns.pure _)

/-- A write by the collector stays between checkpoints. -/
theorem gcWrite_between (page : Nat) : Returns Between (gcWrite page) :=
  writeBlockWith_between (Returns.pure _) page true true

/-- Moving one block stays between checkpoints. -/
theorem moveBlock_between (seg blk : Nat) : Returns Between (moveBlock seg blk) := by
  refine Returns.bind Returns.get fun fs => ?_
  refine Returns.bind (readNode_between _) fun nodePage => ?_
  dsimp only
  split
  · refine Returns.bind (nat_between (getPhyBlk_marks _)) fun l2p => ?_
    refine Returns.bind (Returns.throwIf _ _) fun _ => ?_
    refine Returns.bind (gcWrite_between nodePage) fun phyBlk => ?_
    refine Returns.bind (setPageDirty_between _ _) fun _ => ?_
    exact Returns.bind (nat_between (setPhyBlk_marks _ _)) fun _ => Returns.pure _
  · refine Returns.bind Returns.get fun fs => ?_
    split
    · exact Returns.pure _
    · refine Returns.bind (getData_between _) fun node => ?_
      refine Returns.bind (Returns.throwIf _ _) fun _ => ?_
      refine Returns.bind (Returns.throwIf _ _) fun _ => ?_
      refine Returns.bind (Returns.throwIf _ _) fun _ => ?_
      refine Returns.bind (Returns.throwIf _ _) fun _ => ?_
      refine Returns.bind (fun fs => readInto_betweenAt (held_stackPage fs) _) fun _ => ?_
      refine Returns.bind (modifyPage_between _ fun _ => ⟨rfl, rfl⟩) fun _ => ?_
      refine Returns.bind (gcWrite_between stackPage) fun phyBlk => ?_
      exact Returns.bind (updateIndex_between _ _ _) fun _ => Returns.pure _

/-- Moving the blocks of a victim stays between checkpoints. -/
theorem moveBlocks_between (seg : Nat) (blks : List Nat) (left : Nat) :
    Returns Between (moveBlocks seg blks left) := by
  induction blks generalizing left with
  | nil => exact Returns.pure _
  | cons blk rest ih =>
    refine Returns.bind Returns.get fun fs => ?_
    split
    · exact ih left
    · refine Returns.bind (moveBlock_between seg blk) fun moved => ?_
      split
      · exact Returns.ite (Returns.pure _) (ih _)
      · exact ih left

/-- Collecting the victims stays between checkpoints. -/
theorem collectFrom_between (victims : List Nat) : Returns Between (collectFrom victims) := by
  induction victims with
  | nil => exact Returns.pure _
  | cons seg rest ih =>
    refine Returns.bind Returns.get fun fs => Returns.doIf ?_
    refine Returns.bind (Returns.change fun fs => .ofOther ⟨rfl, rfl, rfl, rfl, rfl, rfl⟩)
      fun _ => ?_
    exact Returns.bind Returns.get fun fs => Returns.bind (moveBlocks_between seg _ _) fun _ => ih

/-- A collection stays between checkpoints. -/
theorem garbageCollection_between : Returns Between garbageCollection :=
  Returns.bind (segments_between scanVictims_marks) fun victims =>
    Returns.bind (collectFrom_between victims) fun _ => Returns.pure _

/-- A host write stays between checkpoints. -/
theorem writeBlockToSeg_between (page : Nat) (force : Bool) :
    Returns Between (writeBlockToSeg page force) :=
  writeBlockWith_between garbageCollection_between page force false

end FsChecking.F2fs
