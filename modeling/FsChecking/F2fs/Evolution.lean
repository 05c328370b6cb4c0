import FsChecking.F2fs.Recovery
import FsChecking.F2fs.Simulator

/-!
# What the operations do

Every operation of the simulator is made of a few parts: it changes pages, takes and gives back
nodes and blocks, appends blocks to logs, writes summaries, and takes checkpoints. What each part
does, every operation that returns does between its checkpoints; `Trace` lists these.
-/

namespace FsChecking.F2fs

open Lib

/-! ## Parts -/

/-- The parts of the operations all move along a relation. -/
structure Parts (R : Fs → Fs → Prop) : Prop where
  /-- Changing a page without its link and its mark. -/
  keepPage (page : Nat) {change : PageInfo → PageInfo} : (∀ info,
    (change info).freeLink = info.freeLink ∧ (change info).inUse = info.inUse) →
      Returns R (modifyPage page change)
  /-- Changing a page in use. -/
  usedPage {page : Nat} {fs : Fs} : (fs.pages.page page).inUse = true →
    ∀ change, ReturnsAt R (modifyPage page change) fs
  /-- Taking a page. -/
  allocate : Returns R (pagesLens.zoom allocate)
  /-- Giving back a page. -/
  free (page : Nat) : Returns R (pagesLens.zoom (free page))
  /-- Caching a node. -/
  setNodeCache (nid page : Nat) : Returns R (setNodeCache nid page)
  /-- `get_node`. -/
  getNode : Returns R (natLens.zoom getNode)
  /-- `set_phy_blk`. -/
  setPhyBlk (nid phyBlk : Nat) : Returns R (natLens.zoom (setPhyBlk nid phyBlk))
  /-- `ReadNode`. -/
  readNode (nid : Nat) : Returns R (readNode nid)
  /-- `put_node`. -/
  putNode (nid : Nat) : Returns R (putNode nid)
  /-- `InvalidBlock`. -/
  invalidBlock (phyBlk : Nat) : Returns R (segmentsLens.zoom (invalidBlock phyBlk))
  /-- A host write, with the collections that it runs. -/
  writeBlock (page : Nat) (force : Bool) : Returns R (writeBlockToSeg page force)
  /-- Writing a summary. -/
  summary {seg : Nat} : seg < mainSegNr →
    ∀ data, Returns R (blockWrite (seg + ssaStartBlk) data)
  /-- Counters and open files. -/
  other {fs fs' : Fs} : fs'.checkpoint = fs.checkpoint ∧ fs'.curCkpt = fs.curCkpt ∧
    fs'.storage = fs.storage ∧ fs'.nat = fs.nat ∧ fs'.segments = fs.segments ∧
    fs'.pages = fs.pages → R fs fs'

variable {R : Fs → Fs → Prop} [IsPreorder Fs R]

/-- Reading a page moves along the relation. -/
theorem getPage_moves (page : Nat) : Returns R (getPage page) :=
  Returns.bind Returns.get fun _ => Returns.pure _

/-- Reading the data of a page moves along the relation. -/
theorem getData_moves (page : Nat) : Returns R (getData page) :=
  Returns.bind Returns.get fun _ => Returns.pure _

omit [IsPreorder Fs R] in
/-- Reading the data of a page moves along the relation when what follows does from the same state.
-/
theorem getData_bindAt {α : Type} {page : Nat} {next : BlockData → FsM α} {fs : Fs}
    (right : ReturnsAt R (next (fs.pages.page page).data) fs) :
    ReturnsAt R (getData page >>= next) fs := right

/-- Looking up a page moves along the relation. -/
theorem pagePtr_moves (index : Nat) : Returns R (pagePtr index) :=
  Returns.ite (Returns.throw _) (Returns.pure _)

omit [IsPreorder Fs R] in
/-- Changing the data of a page without the tag moves along the relation. -/
theorem modifyData_moves (parts : Parts R) (page : Nat) {change : BlockData → BlockData}
    (keeps : ∀ data, (change data).blockType = data.blockType) :
    Returns R (modifyData page change) :=
  parts.keepPage page fun info => ⟨congrArg BlockType.toNat (keeps info.data), rfl⟩

omit [IsPreorder Fs R] in
/-- Changing the node in a page moves along the relation. -/
theorem modifyNode_moves (parts : Parts R) (page : Nat) (change : NodeInfo → NodeInfo) :
    Returns R (modifyNode page change) := modifyData_moves parts page fun _ => rfl

omit [IsPreorder Fs R] in
/-- Changing the inode in a page moves along the relation. -/
theorem modifyInode_moves (parts : Parts R) (page : Nat) (change : Inode → Inode) :
    Returns R (modifyInode page change) := modifyNode_moves parts page _

omit [IsPreorder Fs R] in
/-- Changing the index in a page moves along the relation. -/
theorem modifyIndex_moves (parts : Parts R) (page : Nat) (change : IndexNode → IndexNode) :
    Returns R (modifyIndex page change) := modifyNode_moves parts page _

omit [IsPreorder Fs R] in
/-- Marking a page as dirty or clean moves along the relation. -/
theorem setPageDirty_moves (parts : Parts R) (page : Nat) (flag : Bool) :
    Returns R (setPageDirty page flag) := parts.keepPage page fun _ => ⟨rfl, rfl⟩

/-- Taking a page moves along the relation when what follows does while the page is in use. -/
theorem allocate_moves {α : Type} (parts : Parts R) {next : Nat → FsM α}
    (each : ∀ page fs, (fs.pages.page page).inUse = true → ReturnsAt R (next page) fs) :
    Returns R (pagesLens.zoom allocate >>= next) := fun fs =>
  Returns.bindAt (parts.allocate fs) fun page fs' run => each page fs' (inUse_of_allocate run)

/-- Taking a page and reading a block into it moves along the relation when what follows does. -/
theorem allocateRead_moves {α : Type} (parts : Parts R) {lba : Nat} {next : Nat → FsM α}
    (each : ∀ page, Returns R (next page)) :
    Returns R (do
      let page ← pagesLens.zoom allocate
      readInto lba page
      next page) := by
  refine allocate_moves parts fun page fs used => Returns.bindAt ?_ fun _ fs' _ => each page fs'
  intro value fs' run
  obtain ⟨data, -, rfl⟩ := readInto_eq_ok.mp run
  exact parts.usedPage used (fun info => { info with data }) ⟨⟩ _ rfl

/-! ## Inodes and index nodes -/

/-- On a page in use, the common part of `InitInode` and `InitIndexNode` moves along the relation.
-/
theorem initNode_movesAt (parts : Parts R) {page : Nat} {fs : Fs} (used : (fs.pages.page page).inUse = true)
    (blockType : BlockType) (fill : Nat → NodeInfo → NodeInfo) :
    ReturnsAt R (initNode page blockType fill) fs := by
  unfold initNode
  refine Returns.bindAt (parts.usedPage used _) fun _ fs' _ => ?_
  have rest : Returns R (do
      let nid ← natLens.zoom getNode
      modifyNode page fun node => { node with nid }
      if nid = invalidBlk then return false
      modifyNode page (fill nid)
      modifyPage page fun info => { info with nid, offset := invalidBlk, dirty := true }
      return true) := by
    refine Returns.bind (parts.getNode) fun nid => ?_
    refine Returns.bind (modifyNode_moves parts _ _) fun _ => Returns.ite (Returns.pure _) ?_
    refine Returns.bind (modifyNode_moves parts _ _) fun _ => ?_
    exact Returns.bind (parts.keepPage _ fun _ => ⟨rfl, rfl⟩) fun _ => Returns.pure _
  exact rest fs'

/-- Making an index node moves along the relation. -/
theorem newIndexNode_moves (parts : Parts R) (inode slot : Nat) (alloc : Bool) :
    Returns R (newIndexNode inode slot alloc) := by
  unfold newIndexNode
  refine Returns.ite (Returns.pure _) (allocate_moves parts fun page fs used => ?_)
  refine getData_bindAt (Returns.bindAt (initNode_movesAt parts used _ _) fun created fs' _ => ?_)
  have rest : Returns R (do
      if created then
        let nid := (← getData page).node.nid
        modifyInode inode fun node => { node with index := Function.update node.index slot nid }
        let ipage ← pagePtr (← getData inode).node.pageId
        setPageDirty ipage true
        setNodeCache nid page
        let phyBlk ← writeBlockToSeg page false
        if phyBlk = invalidBlk then return none
        natLens.zoom (setPhyBlk nid phyBlk)
        return some (some page)
      else return none) := by
    refine Returns.ite (Returns.bind (getData_moves page) fun data => ?_) (Returns.pure _)
    refine Returns.bind (modifyInode_moves parts _ _) fun _ => ?_
    refine Returns.bind (getData_moves inode) fun _ => ?_
    refine Returns.bind (pagePtr_moves _) fun ipage => ?_
    refine Returns.bind (setPageDirty_moves parts _ _) fun _ => ?_
    refine Returns.bind (parts.setNodeCache _ _) fun _ => ?_
    refine Returns.bind (parts.writeBlock page false) fun phyBlk => ?_
    refine Returns.ite (Returns.pure _) ?_
    exact Returns.bind (parts.setPhyBlk _ _) fun _ => Returns.pure _
  exact rest fs'

/-- `OffsetToIndex` moves along the relation. -/
theorem offsetToIndex_moves (parts : Parts R) (path : IndexPath) (offset : Nat) (alloc : Bool) :
    Returns R (offsetToIndex path offset alloc) := by
  refine Returns.bind (Returns.throwIf _ _) fun _ => ?_
  refine Returns.bind (getData_moves path.inode) fun data => ?_
  dsimp only
  refine Returns.ite (Returns.bind (newIndexNode_moves parts _ _ _) fun found => ?_)
    (Returns.bind (parts.readNode _) fun page => ?_)
  · cases found with
    | none => exact Returns.pure _
    | some node => exact Returns.pure _
  · exact Returns.bind (Returns.pure _) fun found => by
      cases found with
      | none => exact Returns.pure _
      | some node => exact Returns.pure _

/-- Updating one index node of `UpdateInode` moves along the relation. -/
theorem updateIndexNode_moves (parts : Parts R) (ipage slot : Nat) : Returns R (updateIndexNode ipage slot) := by
  refine Returns.bind (getData_moves ipage) fun data => ?_
  dsimp only
  refine Returns.ite (Returns.pure _) ?_
  refine Returns.bind (Returns.throwIf _ _) fun _ => Returns.bind Returns.get fun fs => ?_
  refine Returns.ite (Returns.pure _) ?_
  refine Returns.bind (Returns.throwIf _ _) fun _ => Returns.bind (getPage_moves _) fun info => ?_
  refine Returns.bind (getData_moves _) fun _ => Returns.bind (Returns.throwIf _ _) fun _ => ?_
  refine Returns.ite ?_ (Returns.ite ?_ ?_)
  · refine Returns.bind (parts.invalidBlock _) fun _ => ?_
    refine Returns.bind (parts.setNodeCache _ _) fun _ => ?_
    refine Returns.bind (parts.free _) fun _ => Returns.bind (parts.putNode _) fun _ => ?_
    refine Returns.bind (modifyInode_moves parts _ _) fun _ => ?_
    exact Returns.bind (setPageDirty_moves parts _ _) fun _ => Returns.pure _
  · refine Returns.bind (parts.writeBlock _ _) fun phyBlk => ?_
    refine Returns.ite (Returns.pure _) ?_
    refine Returns.bind (parts.setPhyBlk _ _) fun _ => ?_
    exact Returns.bind (setPageDirty_moves parts _ _) fun _ => Returns.pure _
  · exact Returns.bind (setPageDirty_moves parts _ _) fun _ => Returns.pure _

/-- The loop of `UpdateInode` moves along the relation. -/
theorem updateIndexNodes_moves (parts : Parts R) (ipage lastBlk : Nat) (slots : List Nat) :
    Returns R (updateIndexNodes ipage lastBlk slots) := by
  induction slots with
  | nil => exact Returns.pure _
  | cons slot rest ih =>
    refine Returns.ite (Returns.pure _) ?_
    refine Returns.bind (updateIndexNode_moves parts ipage slot) fun goOn => ?_
    exact Returns.ite ih (Returns.pure _)

/-- `UpdateInode` moves along the relation. -/
theorem updateInode_moves (parts : Parts R) (ipage : Nat) : Returns R (updateInode ipage) := by
  refine Returns.bind (getData_moves ipage) fun data => ?_
  refine Returns.bind (updateIndexNodes_moves parts _ _ _) fun updated => ?_
  refine Returns.ite (Returns.bind (getPage_moves ipage) fun info => ?_) (Returns.pure _)
  refine Returns.ite (Returns.bind (parts.writeBlock _ _) fun phyBlk => ?_) (Returns.pure _)
  refine Returns.ite (Returns.pure _) (Returns.bind (getData_moves ipage) fun _ => ?_)
  exact Returns.bind (parts.setPhyBlk _ _) fun _ => Returns.pure _

/-! ## Contents of files -/

/-- Positioning a path moves along the relation. -/
theorem positionPath_moves (parts : Parts R) (path : IndexPath) (blk : Nat) :
    Returns R (positionPath path blk) := by
  refine Returns.ite (Returns.pure _) (Returns.bind (offsetToIndex_moves parts _ _ _) fun found => ?_)
  cases found with
  | none => exact Returns.throw _
  | some path => exact Returns.pure _

/-- The loop of `FileReadInternal` moves along the relation. -/
theorem readBlocks_moves (parts : Parts R) (count : Nat) (path : IndexPath) (blk : Nat) :
    Returns R (readBlocks count path blk) := by
  induction count generalizing path blk with
  | zero => exact Returns.pure _
  | succ count ih =>
    refine Returns.bind (positionPath_moves parts path blk) fun path => ?_
    split
    · exact Returns.bind (ih _ _) fun _ => Returns.pure _
    · refine Returns.bind (getData_moves _) fun data => ?_
      refine Returns.ite (Returns.bind (ih _ _) fun _ => Returns.pure _) ?_
      refine allocateRead_moves parts fun page => ?_
      refine Returns.bind (parts.keepPage _ fun _ => ⟨rfl, rfl⟩) fun _ => ?_
      exact Returns.bind (ih _ _) fun _ => Returns.pure _

/-- Reading the page of one block of a file moves along the relation. -/
theorem readBlock_moves (parts : Parts R) (inode blk : Nat) : Returns R (readBlock inode blk) :=
  Returns.bind (readBlocks_moves parts _ _ _) fun _ => Returns.pure _

/-- Mapping one block of a file moves along the relation. -/
theorem writeDataPage_moves (parts : Parts R) (path : IndexPath) (diPage dpage : Nat) (force : Bool) :
    Returns R (writeDataPage path diPage dpage force) := by
  refine Returns.bind (getData_moves _) fun data => ?_
  refine Returns.bind (parts.keepPage _ fun _ => ⟨rfl, rfl⟩) fun _ => ?_
  refine Returns.bind (parts.writeBlock _ _) fun phyBlk => Returns.ite (Returns.pure _) ?_
  refine Returns.bind (modifyIndex_moves parts _ _) fun _ => Returns.bind (Returns.doIf ?_) fun _ => ?_
  · refine Returns.bind (modifyInode_moves parts _ _) fun _ => ?_
    refine Returns.bind (modifyIndex_moves parts _ _) fun _ => ?_
    refine Returns.bind (getData_moves _) fun _ => Returns.bind (pagePtr_moves _) fun _ => ?_
    exact setPageDirty_moves parts _ _
  · exact Returns.bind (setPageDirty_moves parts _ _) fun _ => Returns.pure _

/-- The loop of `FileWriteInternal` moves along the relation. -/
theorem writeBlocks_moves (parts : Parts R) (force : Bool) (pages : List Nat) (path : IndexPath)
    (blk written : Nat) : Returns R (writeBlocks force pages path blk written) := by
  induction pages generalizing path blk written with
  | nil => exact Returns.pure _
  | cons dpage rest ih =>
    refine Returns.ite (Returns.bind (Returns.pure _) fun found => ?_)
      (Returns.bind (offsetToIndex_moves parts _ _ _) fun found => ?_)
    -- the block is written wherever the path comes from
    all_goals
      cases found with
      | none => exact Returns.pure _
      | some path =>
        dsimp only
        split
        · exact Returns.throw _
        · refine Returns.bind (writeDataPage_moves parts _ _ _ _) fun mapped => ?_
          cases mapped with
          | none => exact Returns.pure _
          | some _ => exact ih _ _ _

/-- `FileWriteInternal` moves along the relation. -/
theorem fileWriteInternal_moves (parts : Parts R) (inode startBlk endBlk : Nat) (pages : List Nat)
    (force : Bool) : Returns R (fileWriteInternal inode startBlk endBlk pages force) := by
  refine Returns.bind Returns.get fun fs => Returns.ite (Returns.pure _) ?_
  refine Returns.bind (writeBlocks_moves parts _ _ _ _ _) fun written => ?_
  exact Returns.bind (Returns.change fun _ => parts.other ⟨rfl, rfl, rfl, rfl, rfl, rfl⟩)
    fun _ => Returns.pure _

/-- Releasing an index node moves along the relation. -/
theorem dropIndexNode_moves (parts : Parts R) (ipage diPage slot : Nat) :
    Returns R (dropIndexNode ipage diPage slot) := by
  refine Returns.bind (getData_moves _) fun data => Returns.bind (Returns.throwIf _ _) fun _ => ?_
  refine Returns.bind (parts.setNodeCache _ _) fun _ => Returns.bind (parts.free _) fun _ => ?_
  exact Returns.bind (parts.putNode _) fun _ => modifyInode_moves parts _ _

/-- Unmapping one entry of an index node moves along the relation. -/
theorem truncateEntry_moves (parts : Parts R) (ipage diPage : Nat) (path : IndexPath) :
    Returns R (truncateEntry ipage diPage path) := by
  refine Returns.bind (getData_moves _) fun data => Returns.bind (Returns.doIf ?_) fun _ => ?_
  · refine Returns.bind (parts.invalidBlock _) fun _ => ?_
    refine Returns.bind (modifyIndex_moves parts _ _) fun _ => ?_
    refine Returns.bind (setPageDirty_moves parts _ _) fun _ => ?_
    exact Returns.bind (modifyInode_moves parts _ _) fun _ => setPageDirty_moves parts _ _
  · exact Returns.bind (getData_moves _) fun _ => Returns.doIf (dropIndexNode_moves parts _ _ _)

/-- The loop of `FileTruncateInternal` moves along the relation. -/
theorem truncateBlocks_moves (parts : Parts R) (ipage count : Nat) (path : IndexPath) (blk : Nat) :
    Returns R (truncateBlocks ipage count path blk) := by
  induction count generalizing path blk with
  | zero => exact Returns.pure _
  | succ count ih =>
    refine Returns.bind (positionPath_moves parts path blk) fun path => ?_
    split
    · exact ih _ _
    · exact Returns.bind (truncateEntry_moves parts _ _ _) fun _ => ih _ _

/-- `FileRemove` moves along the relation. -/
theorem fileRemove_moves (parts : Parts R) (ipage : Nat) : Returns R (fileRemove ipage) := by
  refine Returns.bind (getData_moves _) fun data => ?_
  refine Returns.bind (truncateBlocks_moves parts _ _ _ _) fun _ => ?_
  refine Returns.bind (getData_moves _) fun _ => Returns.bind (Returns.throwIf _ _) fun _ => ?_
  refine Returns.bind (parts.setNodeCache _ _) fun _ => ?_
  exact Returns.bind (parts.free _) fun _ => parts.putNode _

/-- Writing a node page moves along the relation. -/
theorem writeNode_moves (parts : Parts R) (nid page fid : Nat) : Returns R (writeNode nid page fid) := by
  refine Returns.bind (parts.writeBlock _ _) fun phyBlk => Returns.ite ?_ ?_
  · exact Returns.bind (parts.free _) fun _ => Returns.throw _
  · exact parts.setPhyBlk _ _

/-- Writing a node page out of the cache moves along the relation. -/
theorem flushNode_moves (parts : Parts R) (nid page fid : Nat) : Returns R (flushNode nid page fid) := by
  refine Returns.bind (getPage_moves _) fun info => ?_
  refine Returns.bind (Returns.doIf (writeNode_moves parts _ _ _)) fun _ => ?_
  refine Returns.bind (parts.setNodeCache _ _) fun _ => ?_
  exact Returns.bind (parts.free _) fun _ => Returns.pure _

/-- Flushing the index node in one slot moves along the relation. -/
theorem flushIndexNode_moves (parts : Parts R) (ipage slot : Nat) : Returns R (flushIndexNode ipage slot) := by
  refine Returns.bind (getData_moves _) fun data => Returns.ite (Returns.pure _) ?_
  refine Returns.bind (Returns.throwIf _ _) fun _ => Returns.bind Returns.get fun fs => ?_
  refine Returns.ite (Returns.pure _) (Returns.bind (pagePtr_moves _) fun page => ?_)
  refine Returns.bind (getPage_moves _) fun info => Returns.bind (Returns.throwIf _ _) fun _ => ?_
  exact Returns.bind (getPage_moves _) fun _ => flushNode_moves parts _ _ _

/-- The loop of `CloseInode` moves along the relation. -/
theorem flushIndexNodes_moves (parts : Parts R) (ipage lastBlk : Nat) (slots : List Nat) (dirty : Bool) :
    Returns R (flushIndexNodes ipage lastBlk slots dirty) := by
  induction slots generalizing dirty with
  | nil => exact Returns.pure _
  | cons slot rest ih =>
    refine Returns.ite (Returns.pure _) ?_
    exact Returns.bind (flushIndexNode_moves parts _ _) fun _ => ih _

/-- `CloseInode` moves along the relation. -/
theorem closeInode_moves (parts : Parts R) (ipage : Nat) : Returns R (closeInode ipage) := by
  refine Returns.bind (getPage_moves _) fun info => Returns.bind (Returns.throwIf _ _) fun _ => ?_
  refine Returns.bind (Returns.throwIf _ _) fun _ => Returns.ite (Returns.pure _) (Returns.ite ?_ ?_)
  · exact Returns.bind (fileRemove_moves parts _) fun _ => Returns.pure _
  · refine Returns.bind (flushIndexNodes_moves parts _ _ _ _) fun dirty => ?_
    refine Returns.bind (Returns.throwIf _ _) fun _ => ?_
    exact Returns.bind (flushNode_moves parts _ _ _) fun _ => Returns.pure _

/-! ## Checkpoints -/

/-- A checkpoint that was written. -/
structure Save where
  /-- The number of writes on the storage when it was complete. -/
  writes : Nat
  /-- The tables in memory that it was written from. -/
  tables : Tables

/-- A run that returns, as parts between checkpoints and checkpoints, which are listed newest
first. -/
inductive Trace (R : Fs → Fs → Prop) (start : Fs) : List Save → Fs → Prop
  /-- Nothing has happened. -/
  | start : Trace R start [] start
  /-- A part without a checkpoint. -/
  | moved {saves : List Save} {fs fs' : Fs} (before : Trace R start saves fs)
    (step : R fs fs') : Trace R start saves fs'
  /-- A checkpoint. -/
  | saved {saves : List Save} {fs fs' : Fs} (before : Trace R start saves fs)
    (run : writeCheckpoint fs = .ok ⟨⟩ fs') :
    Trace R start ({ writes := fs'.storage.length, tables := fs.tables } :: saves) fs'

omit [IsPreorder Fs R] in
/-- Two runs after one another are a run with the checkpoints of both. -/
theorem Trace.append {first second third : Fs} {saves saves' : List Save}
    (left : Trace R first saves second) (right : Trace R second saves' third) :
    Trace R first (saves' ++ saves) third := by
  induction right with
  | start => exact left
  | moved _ step ih => exact .moved ih step
  | saved _ run ih => exact .saved ih run

/-- A run leads from one state to another. -/
def Evolves (R : Fs → Fs → Prop) (before after : Fs) : Prop := ∃ saves, Trace R before saves after

omit [IsPreorder Fs R] in
instance : IsPreorder Fs (Evolves R) where
  refl _ := ⟨[], .start⟩
  trans _ _ _ := fun ⟨_, left⟩ ⟨_, right⟩ => ⟨_, left.append right⟩

omit [IsPreorder Fs R] in
/-- A program without a checkpoint is a run. -/
theorem evolves {α : Type} {program : FsM α} (moves : Returns R program) :
    Returns (Evolves R) program := moves.mono fun _ _ step => ⟨[], .moved .start step⟩

/-- Writing the dirty node pages of one phase moves along the relation. -/
theorem syncNodes_moves (parts : Parts R) (phase : Nat) (nids : List Nat) :
    Returns R (syncNodes phase nids) := by
  induction nids with
  | nil => exact Returns.pure _
  | cons nid rest ih =>
    refine Returns.bind Returns.get fun fs => Returns.ite ih ?_
    refine Returns.bind (pagePtr_moves _) fun page => Returns.bind (getPage_moves _) fun info => ?_
    refine Returns.ite ih (Returns.bind (parts.writeBlock _ _) fun phyBlk => ?_)
    refine Returns.ite (Returns.pure _) ?_
    refine Returns.bind (parts.setPhyBlk _ _) fun _ => ?_
    exact Returns.bind (setPageDirty_moves parts _ _) fun _ => ih

/-- `f2fs_sync_node_page` moves along the relation. -/
theorem syncNodePage_moves (parts : Parts R) : Returns R syncNodePage :=
  Returns.bind (syncNodes_moves parts _ _) fun _ => Returns.ite (Returns.pure _) (syncNodes_moves parts _ _)

/-- The flushing loop of `sync_fs` moves along the relation. -/
theorem syncRounds_moves (parts : Parts R) (dirtyNr retry : Nat) : Returns R (syncRounds dirtyNr retry) := by
  induction retry generalizing dirtyNr with
  | zero => exact Returns.throw _
  | succ retry ih =>
    refine Returns.bind (Returns.bind Returns.get fun _ => Returns.pure _) fun dirtyNr => ?_
    refine Returns.ite (Returns.pure _) (Returns.bind (syncNodePage_moves parts) fun ir => ?_)
    exact Returns.bind (Returns.throwIf _ _) fun _ => ih _

/-- `SyncSSA` moves along the relation. -/
theorem syncSsa_moves (parts : Parts R) : Returns R syncSsa := by
  refine allocate_moves parts fun page fs used => ?_
  have rest : Returns R (do
      (List.range mainSegNr).forM fun seg => do
        doIf ((← get).segments.isDirty seg) do
          let info := (← get).segments.segments seg
          modifyData page fun data =>
            { data with ssa := fun blk => { nid := info.nids blk, offset := info.offset blk } }
          blockWrite (seg + ssaStartBlk) (← getData page)
      pagesLens.zoom (free page)) := by
    refine Returns.bind (Returns.forM fun seg member => ?_) fun _ => parts.free _
    refine Returns.bind Returns.get fun fs => Returns.doIf (Returns.bind Returns.get fun fs => ?_)
    refine Returns.bind (modifyData_moves parts _ fun _ => rfl) fun _ => ?_
    refine Returns.bind (getData_moves _) fun data => ?_
    exact parts.summary (List.mem_range.mp member) data
  exact rest fs

/-- `sync_fs` ends with a checkpoint. -/
theorem syncFs_ok (parts : Parts R) {fs fs' : Fs} (run : syncFs fs = .ok ⟨⟩ fs') :
    ∃ fs₁, R fs fs₁ ∧ writeCheckpoint fs₁ = .ok ⟨⟩ fs' := by
  obtain ⟨_, fs₁, nodes, run⟩ := bind_eq_ok.mp run
  obtain ⟨_, fs₂, summaries, saved⟩ := bind_eq_ok.mp run
  have step : R fs fs₂ := trans_of R (syncRounds_moves parts _ _ fs _ fs₁ nodes)
    (syncSsa_moves parts fs₁ _ fs₂ summaries)
  exact ⟨fs₂, step, saved⟩

/-- `sync_fs` is made of parts and checkpoints. -/
theorem syncFs_evolves (parts : Parts R) : Returns (Evolves R) syncFs := fun fs _ fs' run => by
  obtain ⟨fs₁, step, saved⟩ := syncFs_ok parts run
  exact ⟨_, .saved (.moved .start step) saved⟩

/-! ## Directories -/

/-- A new dentry block moves along the relation when what follows with it does. -/
theorem allocateDentryBlock_moves (parts : Parts R) {α : Type} {next : Nat → FsM α}
    (each : ∀ page, Returns R (next page)) :
    Returns R (allocateDentryBlock >>= next) := by
  unfold allocateDentryBlock
  rw [bind_assoc]
  refine allocate_moves parts fun page fs used => ?_
  rw [bind_assoc]
  refine Returns.bindAt (parts.usedPage used _) fun _ fs' _ => ?_
  exact each page fs'

/-- Removing an entry moves along the relation. -/
theorem removeEntry_moves (parts : Parts R) (parent blk page index : Nat) :
    Returns R (removeEntry parent blk page index) := by
  refine Returns.bind (modifyData_moves parts _ fun _ => rfl) fun _ => ?_
  refine Returns.bind (setPageDirty_moves parts _ _) fun _ => Returns.bind (getData_moves _) fun _ => ?_
  refine Returns.ite (truncateBlocks_moves parts _ _ _ _) ?_
  exact Returns.bind (fileWriteInternal_moves parts _ _ _ _ _) fun _ => Returns.throwIf _ _

/-- Counting the entries of one block of a directory moves along the relation. -/
theorem countChildren_moves (parts : Parts R) (inode blk : Nat) : Returns R (countChildren inode blk) := by
  refine Returns.bind (readBlock_moves parts _ _) fun found => ?_
  cases found with
  | none => exact Returns.pure _
  | some page =>
    refine Returns.bind (getData_moves _) fun data => ?_
    exact Returns.bind (parts.free _) fun _ => Returns.pure _

/-- `GetChildNumber` moves along the relation. -/
theorem getChildNumber_moves (parts : Parts R) (inode : Nat) : Returns R (getChildNumber inode) := by
  refine Returns.bind (getData_moves _) fun data => Returns.foldlM (fun child blk => ?_) 0
  exact Returns.bind (countChildren_moves parts _ _) fun _ => Returns.pure _

/-! ## Open files -/

/-- Copying a path moves along the relation. -/
theorem copyPath_moves (path : List Char) : Returns R (copyPath path) :=
  Returns.ite (Returns.throw _) (Returns.pure _)

/-- `FindOpenFile` moves along the relation. -/
theorem findOpenFile_moves (fid : Nat) : Returns R (findOpenFile fid) :=
  Returns.bind Returns.get fun _ => Returns.pure _

/-- `AddFileToOpenList` moves along the relation. -/
theorem addFileToOpenList_moves (parts : Parts R) (fid page : Nat) :
    Returns R (addFileToOpenList fid page) := by
  refine Returns.getBind fun fs => Returns.bindAt (Returns.throwIf _ _ fs) fun _ fs' run => ?_
  obtain ⟨-, rfl⟩ := throwIf_eq_ok.mp run
  intro value fs'' stored
  cases stored
  exact parts.other ⟨rfl, rfl, rfl, rfl, rfl, rfl⟩

/-- Looking up the page of an open file moves along the relation. -/
theorem openPage_moves (fid : Nat) : Returns R (openPage fid) := by
  refine Returns.bind (findOpenFile_moves _) fun found => ?_
  cases found with
  | none => exact Returns.throw _
  | some index => exact Returns.bind Returns.get fun _ => pagePtr_moves _

/-- Stamping a page moves along the relation. -/
theorem stampPage_moves (parts : Parts R) (fid blk : Nat) : Returns R (stampPage fid blk) :=
  allocate_moves parts fun _ _ used =>
    Returns.bindAt (parts.usedPage used _) fun _ fs _ => Returns.pure _ fs

/-- `FileWrite` moves along the relation. -/
theorem fileWrite_moves (parts : Parts R) (fid offset len : Nat) : Returns R (fileWrite fid offset len) := by
  refine Returns.bind (openPage_moves _) fun ipage => ?_
  dsimp only
  refine Returns.ite (Returns.pure _) ?_
  refine Returns.bind (Returns.mapM fun _ => stampPage_moves parts _ _) fun pages => ?_
  refine Returns.bind (Returns.throwIf _ _) fun _ => ?_
  refine Returns.bind (fileWriteInternal_moves parts _ _ _ _ _) fun written => ?_
  refine Returns.bind (Returns.forM fun _ _ => parts.free _) fun _ => ?_
  refine Returns.ite (Returns.pure _) (Returns.bind (modifyInode_moves parts _ _) fun _ => ?_)
  exact Returns.bind (setPageDirty_moves parts _ _) fun _ => Returns.pure _

/-- Taking the stamp out of a page moves along the relation. -/
theorem takeStamp_moves (parts : Parts R) (page : Option Nat) : Returns R (takeStamp page) := by
  cases page with
  | none => exact Returns.pure _
  | some page =>
    refine Returns.bind (getData_moves _) fun data => ?_
    exact Returns.bind (parts.free _) fun _ => Returns.pure _

/-- `FileRead` moves along the relation. -/
theorem fileRead_moves (parts : Parts R) (fid offset secs : Nat) : Returns R (fileRead fid offset secs) := by
  refine Returns.bind (openPage_moves _) fun ipage => ?_
  refine Returns.bind (getData_moves _) fun data => Returns.bind (Returns.throwIf _ _) fun _ => ?_
  refine Returns.bind (readBlocks_moves parts _ _ _) fun pages => ?_
  exact Returns.mapM (takeStamp_moves parts)

/-- `FileTruncate` moves along the relation. -/
theorem fileTruncate_moves (parts : Parts R) (fid offset len : Nat) :
    Returns R (fileTruncate fid offset len) := by
  refine Returns.bind (openPage_moves _) fun ipage => ?_
  refine Returns.bind (getData_moves _) fun data => ?_
  refine Returns.bind (truncateBlocks_moves parts _ _ _ _) fun _ => ?_
  refine Returns.bind (getData_moves _) fun _ => Returns.doIf ?_
  exact Returns.bind (modifyInode_moves parts _ _) fun _ => setPageDirty_moves parts _ _

/-- `FileClose` is made of parts and checkpoints. -/
theorem fileClose_evolves (parts : Parts R) (fid : Nat) : Returns (Evolves R) (fileClose fid) := by
  refine Returns.bind (evolves (findOpenFile_moves _)) fun found => ?_
  cases found with
  | none => exact Returns.throw _
  | some index =>
    refine Returns.bind Returns.get fun _ => Returns.bind (evolves (pagePtr_moves _)) fun ipage => ?_
    refine Returns.bind (evolves (getData_moves _)) fun _ => ?_
    refine Returns.bind (Returns.throwIf _ _) fun _ => ?_
    refine Returns.bind (evolves (modifyInode_moves parts _ _)) fun _ => ?_
    refine Returns.bind (evolves (getData_moves _)) fun _ => Returns.doIf ?_
    refine Returns.bind (evolves (Returns.change fun _ => ?_)) fun _ => ?_
    · exact parts.other ⟨rfl, rfl, rfl, rfl, rfl, rfl⟩
    · exact Returns.bind (evolves (closeInode_moves parts _)) fun _ => Returns.doIf (syncFs_evolves parts)

/-- `ForceClose` moves along the relation. -/
theorem forceClose_moves (parts : Parts R) (index : Nat) : Returns R (forceClose index) := by
  refine Returns.bind Returns.get fun _ => Returns.bind (pagePtr_moves _) fun _ => ?_
  refine Returns.bind (modifyInode_moves parts _ _) fun _ => ?_
  exact Returns.bind (closeInode_moves parts _) fun _ => Returns.pure _

/-- `Unmount` ends with a checkpoint, its only one. -/
theorem unmount_ok (parts : Parts R) {fs fs' : Fs} (run : unmount fs = .ok ⟨⟩ fs') :
    ∃ fs₁, R fs fs₁ ∧ writeCheckpoint fs₁ = .ok ⟨⟩ fs' := by
  obtain ⟨_, fs₁, closed, run⟩ := bind_eq_ok.mp run
  obtain ⟨fs₂, step, saved⟩ := syncFs_ok parts run
  refine ⟨fs₂, trans_of R (Returns.forM (fun index _ => ?_) fs _ fs₁ closed) step, saved⟩
  exact Returns.bind Returns.get fun _ => Returns.doIf (forceClose_moves parts index)

/-- `Unmount` is made of parts and checkpoints. -/
theorem unmount_evolves (parts : Parts R) : Returns (Evolves R) unmount := fun fs _ fs' run => by
  obtain ⟨fs₁, step, saved⟩ := unmount_ok parts run
  exact ⟨_, .saved (.moved .start step) saved⟩

/-- `GetFileSize` moves along the relation. -/
theorem getFileSize_moves (fid : Nat) : Returns R (getFileSize fid) := by
  refine Returns.bind (findOpenFile_moves _) fun found => ?_
  cases found with
  | none => exact Returns.throw _
  | some index =>
    refine Returns.bind Returns.get fun _ => Returns.bind (pagePtr_moves _) fun ipage => ?_
    exact Returns.bind (getData_moves _) fun _ => Returns.pure _

section Names

variable [NameHash]

/-- The loop of `FindFile` moves along the relation. -/
theorem findInLevels_moves (parts : Parts R) (parent : Nat) (name : List Char) (levels blkNum blkIndex : Nat) :
    Returns R (findInLevels parent name levels blkNum blkIndex) := by
  induction levels generalizing blkNum blkIndex with
  | zero => exact Returns.pure _
  | succ levels ih =>
    refine Returns.bind (readBlock_moves parts _ _) fun found => ?_
    cases found with
    | none => exact ih _ _
    | some page =>
      refine Returns.bind (getData_moves _) fun data => Returns.bind (parts.free _) fun _ => ?_
      split
      · exact Returns.pure _
      · exact ih _ _

/-- `FindFile` moves along the relation. -/
theorem findFile_moves (parts : Parts R) (parent : Nat) (name : List Char) :
    Returns R (findFile parent name) :=
  Returns.bind (getData_moves _) fun _ =>
    Returns.ite (Returns.pure _) (findInLevels_moves parts _ _ _ _ _)

/-- The loop of `add_link` moves along the relation. -/
theorem findLinkPlace_moves (parts : Parts R) (parent : Nat) (name : List Char) (levels blkNum blkIndex : Nat) :
    Returns R (findLinkPlace parent name levels blkNum blkIndex) := by
  induction levels generalizing blkNum blkIndex with
  | zero => exact Returns.pure _
  | succ levels ih =>
    refine Returns.bind (readBlock_moves parts _ _) fun found => ?_
    cases found with
    | none => exact allocateDentryBlock_moves parts fun _ => Returns.pure _
    | some page =>
      refine Returns.bind (getData_moves _) fun data => Returns.ite (Returns.pure _) ?_
      exact Returns.bind (parts.free _) fun _ => ih _ _

/-- Adding a level moves along the relation. -/
theorem addLevel_moves (parts : Parts R) (parent : Nat) (name : List Char) (depth : Nat) :
    Returns R (addLevel parent name depth) := by
  refine Returns.ite (Returns.pure _) (allocateDentryBlock_moves parts fun page => ?_)
  refine Returns.bind (modifyInode_moves parts _ _) fun _ => Returns.bind (getData_moves _) fun _ => ?_
  refine Returns.bind (pagePtr_moves _) fun _ => Returns.bind (setPageDirty_moves parts _ _) fun _ => ?_
  exact Returns.pure _

/-- `add_link` moves along the relation. -/
theorem addLink_moves (parts : Parts R) (parent : Nat) (name : List Char) (fid : Nat) :
    Returns R (addLink parent name fid) := by
  refine Returns.bind (getData_moves _) fun data => ?_
  refine Returns.bind (findLinkPlace_moves parts _ _ _ _ _) fun found => ?_
  cases found
  case' none => refine Returns.bind (addLevel_moves parts _ _ _) fun place => ?_
  case' some => refine Returns.bind (Returns.pure _) fun place => ?_
  -- the entry is stored wherever its place was found
  all_goals
    cases place with
    | none => exact Returns.pure _
    | some place =>
      refine Returns.bind (Returns.throwIf _ _) fun _ => ?_
      refine Returns.bind (modifyData_moves parts _ fun _ => rfl) fun _ => ?_
      refine Returns.bind (fileWriteInternal_moves parts _ _ _ _ _) fun _ => ?_
      exact Returns.bind (parts.free _) fun _ => Returns.pure _

/-- The loop of `unlink` moves along the relation. -/
theorem unlinkInLevels_moves (parts : Parts R) (parent : Nat) (name : List Char)
    (fid levels blkNum blkIndex : Nat) :
    Returns R (unlinkInLevels parent name fid levels blkNum blkIndex) := by
  induction levels generalizing blkNum blkIndex with
  | zero => exact Returns.pure _
  | succ levels ih =>
    refine Returns.bind (readBlock_moves parts _ _) fun found => ?_
    cases found with
    | none => exact ih _ _
    | some page =>
      refine Returns.bind (getData_moves _) fun data => ?_
      dsimp only
      split
      · refine Returns.bind (removeEntry_moves parts _ _ _ _) fun _ => ?_
        exact Returns.bind (parts.free _) fun _ => Returns.pure _
      · exact Returns.bind (parts.free _) fun _ => ih _ _

/-- `unlink` is made of parts and checkpoints. -/
theorem unlink_evolves (parts : Parts R) (fid : Nat) (name : List Char) (parent : Nat) :
    Returns (Evolves R) (unlink fid name parent) := by
  refine Returns.bind (evolves (getData_moves _)) fun data => ?_
  refine Returns.bind (evolves (unlinkInLevels_moves parts _ _ _ _ _ _)) fun _ => ?_
  exact Returns.bind (Returns.throwIf _ _) fun _ => syncFs_evolves parts

/-- The loop of `FileOpenInternal` moves along the relation. -/
theorem openPath_moves (parts : Parts R) (parent : Nat) (dir : List Char) (rest : List (List Char)) :
    Returns R (openPath parent dir rest) := by
  induction rest generalizing parent dir with
  | nil => exact Returns.bind (findFile_moves parts _ _) fun _ => Returns.pure _
  | cons next rest ih =>
    refine Returns.bind (findFile_moves parts _ _) fun fid => Returns.ite (Returns.pure _) ?_
    refine Returns.bind (closeInode_moves parts _) fun _ => ?_
    exact Returns.bind (parts.readNode _) fun _ => ih _ _

/-- `FileOpenInternal` moves along the relation. -/
theorem fileOpenInternal_moves (parts : Parts R) (path : List Char) : Returns R (fileOpenInternal path) := by
  refine Returns.bind (parts.readNode _) fun root => ?_
  split
  · exact Returns.pure _
  · exact openPath_moves parts _ _ _

/-! ## Public operations -/

/-- The new file of `InternalCreatreFile` is made of parts and checkpoints. -/
theorem createIn_evolves (parts : Parts R) (parent : Nat) (name : List Char) (fileType : FileType) :
    Returns (Evolves R) (createIn parent name fileType) := by
  intro fs
  refine Returns.bindAt (evolves parts.allocate fs) fun page fs' taken => ?_
  have used := inUse_of_allocate taken
  refine Returns.bindAt ?_ fun created fs'' _ => Returns.ite ?_ ?_ fs''
  · exact fun value fs'' run => ⟨[], .moved .start (initNode_movesAt parts used _ _ value fs'' run)⟩
  · refine Returns.bind (evolves (getData_moves _)) fun _ => ?_
    refine Returns.bind (evolves (addLink_moves parts _ _ _)) fun ir => Returns.ite ?_ ?_
    · refine Returns.bind (evolves (closeInode_moves parts _)) fun _ => ?_
      refine Returns.bind (evolves (parts.putNode _)) fun _ => ?_
      exact Returns.bind (evolves (parts.free _)) fun _ => Returns.pure _
    refine Returns.bind (evolves (modifyInode_moves parts _ _)) fun _ => ?_
    refine Returns.bind (evolves (updateInode_moves parts _)) fun phyBlk => Returns.ite ?_ ?_
    · refine Returns.bind (evolves (closeInode_moves parts _)) fun _ => ?_
      refine Returns.bind (evolves (parts.free _)) fun _ => ?_
      exact Returns.bind (evolves (parts.putNode _)) fun _ => Returns.pure _
    refine Returns.bind (evolves (parts.setPhyBlk _ _)) fun _ => ?_
    refine Returns.bind (evolves (parts.setNodeCache _ _)) fun _ => ?_
    refine Returns.bind (evolves (modifyInode_moves parts _ _)) fun _ => ?_
    refine Returns.bind (evolves (closeInode_moves parts _)) fun _ => ?_
    exact Returns.bind (syncFs_evolves parts) fun _ => Returns.pure _
  · refine Returns.bind (evolves (closeInode_moves parts _)) fun _ => ?_
    exact Returns.bind (evolves (parts.free _)) fun _ => Returns.pure _

/-- `InternalCreatreFile` is made of parts and checkpoints. -/
theorem internalCreatreFile_evolves (parts : Parts R) (path : List Char) (fileType : FileType) :
    Returns (Evolves R) (internalCreatreFile path fileType) := by
  unfold internalCreatreFile
  refine Returns.bind (evolves (fileOpenInternal_moves parts _)) fun opened => ?_
  refine Returns.bind (evolves (closeInode_moves parts _)) fun _ => Returns.ite (Returns.pure _) ?_
  refine Returns.bind (evolves (parts.readNode _)) fun parent => ?_
  refine Returns.bind (Returns.throwIf _ _) fun _ => ?_
  refine Returns.bind (evolves (findFile_moves parts _ _)) fun found => ?_
  exact Returns.ite (Returns.pure _) (createIn_evolves parts _ _ _)

/-- `FileCreate` is made of parts and checkpoints. -/
theorem fileCreate_evolves (parts : Parts R) (path : List Char) : Returns (Evolves R) (fileCreate path) := by
  refine Returns.bind (evolves (copyPath_moves _)) fun _ => Returns.bind Returns.get fun fs => ?_
  refine Returns.ite (Returns.pure _) ?_
  refine Returns.bind (internalCreatreFile_evolves parts _ _) fun created => ?_
  cases created with
  | error code => exact Returns.pure _
  | ok made =>
    refine Returns.ite (Returns.pure _) ?_
    exact Returns.bind (evolves (addFileToOpenList_moves parts _ _)) fun _ => Returns.pure _

/-- `DirCreate` is made of parts and checkpoints. -/
theorem dirCreate_evolves (parts : Parts R) (path : List Char) : Returns (Evolves R) (dirCreate path) := by
  refine Returns.bind (evolves (copyPath_moves _)) fun _ => ?_
  refine Returns.bind (internalCreatreFile_evolves parts _ _) fun created => ?_
  cases created with
  | error code => exact Returns.pure _
  | ok made =>
    refine Returns.ite (Returns.pure _) ?_
    refine Returns.bind (evolves (modifyInode_moves parts _ _)) fun _ => ?_
    exact Returns.bind (evolves (closeInode_moves parts _)) fun _ => Returns.pure _

/-- `FileOpen` moves along the relation. -/
theorem fileOpen_moves (parts : Parts R) (path : List Char) : Returns R (fileOpen path) := by
  refine Returns.bind (copyPath_moves _) fun _ => ?_
  refine Returns.bind (fileOpenInternal_moves parts _) fun opened => ?_
  refine Returns.bind (closeInode_moves parts _) fun _ => Returns.ite (Returns.pure _) ?_
  refine Returns.bind (findOpenFile_moves _) fun found => ?_
  have count : ∀ page, Returns R (do
      modifyInode page fun inode => { inode with refCount := dword (inode.refCount + 1) }
      return .ok opened.fid : FsM (Except ErrorCode Nat)) := fun page =>
    Returns.bind (modifyInode_moves parts _ _) fun _ => Returns.pure _
  cases found with
  | some index =>
    exact Returns.bind Returns.get fun _ => Returns.bind (pagePtr_moves _) fun page => count page
  | none =>
    refine Returns.bind Returns.get fun _ => Returns.ite (Returns.pure _) ?_
    refine Returns.bind (parts.readNode _) fun page => ?_
    exact Returns.bind (addFileToOpenList_moves parts _ _) fun _ => count page

/-- The part of deletion that file and directory share is made of parts and checkpoints. -/
theorem removeLink_evolves (parts : Parts R) (opened : Opened) (ipage : Nat) :
    Returns (Evolves R) (removeLink opened ipage) := by
  unfold removeLink
  split
  · exact Returns.throw _
  · refine Returns.bind (unlink_evolves parts _ _ _) fun _ => ?_
    refine Returns.bind (evolves (modifyInode_moves parts _ _)) fun _ => ?_
    refine Returns.bind (evolves (closeInode_moves parts _)) fun _ => ?_
    exact Returns.bind (evolves (closeInode_moves parts _)) fun _ => Returns.pure _

/-- `FileDelete` is made of parts and checkpoints. -/
theorem fileDelete_evolves (parts : Parts R) (path : List Char) : Returns (Evolves R) (fileDelete path) := by
  refine Returns.bind (evolves (copyPath_moves _)) fun _ => ?_
  refine Returns.bind (evolves (fileOpenInternal_moves parts _)) fun opened => ?_
  refine Returns.ite ?_ (Returns.bind (evolves (parts.readNode _)) fun _ => ?_)
  · exact Returns.bind (evolves (closeInode_moves parts _)) fun _ => Returns.throw _
  · exact removeLink_evolves parts _ _

/-- `DirDelete` is made of parts and checkpoints. -/
theorem dirDelete_evolves (parts : Parts R) (path : List Char) : Returns (Evolves R) (dirDelete path) := by
  refine Returns.bind (evolves (copyPath_moves _)) fun _ => ?_
  refine Returns.bind (evolves (fileOpenInternal_moves parts _)) fun opened => Returns.ite ?_ ?_
  · exact Returns.bind (evolves (closeInode_moves parts _)) fun _ => Returns.throw _
  refine Returns.bind (evolves (parts.readNode _)) fun ipage => ?_
  refine Returns.bind (evolves (getChildNumber_moves parts _)) fun children => Returns.ite ?_ ?_
  · refine Returns.bind (evolves (closeInode_moves parts _)) fun _ => ?_
    exact Returns.bind (evolves (closeInode_moves parts _)) fun _ => Returns.pure _
  · exact Returns.bind (removeLink_evolves parts _ _) fun _ => Returns.pure _

/-- `FileMove` once the source is found. -/
theorem moveTo_evolves (parts : Parts R) (source : Opened) (dst : List Char) :
    Returns (Evolves R) (moveTo source dst) := by
  have leave : ∀ code : ErrorCode, Returns (Evolves R) (do
      let _ ← closeInode source.parent
      return code) := fun code =>
    Returns.bind (evolves (closeInode_moves parts _)) fun _ => Returns.pure _
  unfold moveTo
  split
  · exact leave _
  · refine Returns.bind (evolves (fileOpenInternal_moves parts _)) fun target => ?_
    refine Returns.bind (evolves (closeInode_moves parts _)) fun _ => Returns.ite (leave _) ?_
    refine Returns.bind (evolves (parts.readNode _)) fun parent => ?_
    refine Returns.bind (evolves (findFile_moves parts _ _)) fun found => Returns.ite (leave _) ?_
    refine Returns.bind (evolves (addLink_moves parts _ _ _)) fun ir => Returns.ite (leave _) ?_
    split
    · exact Returns.throw _
    · exact Returns.bind (unlink_evolves parts _ _ _) fun _ => leave _

/-- `FileMove` is made of parts and checkpoints. -/
theorem fileMove_evolves (parts : Parts R) (src dst : List Char) : Returns (Evolves R) (fileMove src dst) := by
  refine Returns.bind (evolves (copyPath_moves _)) fun _ => ?_
  refine Returns.bind (evolves (fileOpenInternal_moves parts _)) fun source => ?_
  refine Returns.ite (Returns.pure _) ?_
  exact Returns.bind (evolves (copyPath_moves _)) fun _ => moveTo_evolves parts _ _

end Names

/-! ## Calls -/

/-- A call of the file system that may change the storage. -/
inductive Call where
  /-- `FileCreate`. -/
  | fileCreate (path : List Char)
  /-- `DirCreate`. -/
  | dirCreate (path : List Char)
  /-- `FileOpen`. -/
  | fileOpen (path : List Char)
  /-- `FileClose`. -/
  | fileClose (fid : Nat)
  /-- `FileWrite`. -/
  | fileWrite (fid offset len : Nat)
  /-- `FileRead`. -/
  | fileRead (fid offset len : Nat)
  /-- `FileTruncate`. -/
  | fileTruncate (fid offset len : Nat)
  /-- `FileDelete`. -/
  | fileDelete (path : List Char)
  /-- `DirDelete`. -/
  | dirDelete (path : List Char)
  /-- `FileMove`. -/
  | fileMove (src dst : List Char)
  /-- `GetFileSize`. -/
  | getFileSize (fid : Nat)
  /-- `Unmount`. -/
  | unmount
  deriving DecidableEq

/-- What a call does. -/
def Call.run [NameHash] : Call → FsM Unit
  | .fileCreate path => do
    let _ ← F2fs.fileCreate path
  | .dirCreate path => do
    let _ ← F2fs.dirCreate path
  | .fileOpen path => do
    let _ ← F2fs.fileOpen path
  | .fileClose fid => F2fs.fileClose fid
  | .fileWrite fid offset len => do
    let _ ← F2fs.fileWrite fid offset len
  | .fileRead fid offset len => do
    let _ ← F2fs.fileRead fid offset len
  | .fileTruncate fid offset len => F2fs.fileTruncate fid offset len
  | .fileDelete path => F2fs.fileDelete path
  | .dirDelete path => do
    let _ ← F2fs.dirDelete path
  | .fileMove src dst => do
    let _ ← F2fs.fileMove src dst
  | .getFileSize fid => do
    let _ ← F2fs.getFileSize fid
  | .unmount => F2fs.unmount

/-- Every call that returns is made of parts between checkpoints and checkpoints. -/
theorem Call.evolves [NameHash] {R : Fs → Fs → Prop} [IsPreorder Fs R] (parts : Parts R)
    (call : Call) : Returns (Evolves R) call.run := by
  have ignore : ∀ {α : Type} {program : FsM α}, Returns (Evolves R) program →
      Returns (Evolves R) (do let _ ← program) := fun moves =>
    Returns.bind moves fun _ => Returns.pure _
  cases call with
  | fileCreate path => exact ignore (fileCreate_evolves parts path)
  | dirCreate path => exact ignore (dirCreate_evolves parts path)
  | fileOpen path => exact ignore (F2fs.evolves (fileOpen_moves parts path))
  | fileClose fid => exact fileClose_evolves parts fid
  | fileWrite fid offset len => exact ignore (F2fs.evolves (fileWrite_moves parts fid offset len))
  | fileRead fid offset len => exact ignore (F2fs.evolves (fileRead_moves parts fid offset len))
  | fileTruncate fid offset len => exact F2fs.evolves (fileTruncate_moves parts fid offset len)
  | fileDelete path => exact fileDelete_evolves parts path
  | dirDelete path => exact ignore (dirDelete_evolves parts path)
  | fileMove src dst => exact ignore (fileMove_evolves parts src dst)
  | getFileSize fid => exact ignore (F2fs.evolves (getFileSize_moves fid))
  | unmount => exact unmount_evolves parts

end FsChecking.F2fs
