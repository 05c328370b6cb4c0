import FsChecking.F2fs.Inode

/-!
# Checkpoints

How the NAT, the SIT and the log heads reach the storage and come back. Both tables are flushed in
the same way: the previous journal is merged into pages of the table, the dirty entries go to the
journal (which is merged when it is full), and each merged page is written to the copy of its block
that the last checkpoint does not use. `Area` names what differs between the two tables. Two
checkpoint slots are written in turn; a slot counts only if its opening and closing versions agree.
-/

namespace FsChecking.F2fs

open Lib

/-- A table with a journal and two copies of each of its blocks. -/
structure Area (ι : Type) where
  /-- The first block of the first copy. -/
  startBlk : Nat
  /-- The number of blocks of one copy. -/
  blkNr : Nat
  /-- Entries in one block. -/
  entryPerBlk : Nat
  /-- Entries in the table. -/
  entryNr : Nat
  /-- The number of journal entries. -/
  journalLen : Lens CkptBlock Nat
  /-- The journal. -/
  journals : Lens CkptBlock (Nat → JournalEntry ι)
  /-- Which copy of each block is current. -/
  verBitmap : Lens CkptBlock (BitVec 32)
  /-- The entries in a block of the table. -/
  entries : Lens BlockData (Nat → ι)
  /-- The dirty flags of the table in memory. -/
  dirty : Lens Fs (Nat → BitVec 32)
  /-- The table in memory. -/
  table : Fs → Nat → ι

/-- The node address table. -/
def natArea : Area Nat where
  startBlk := natStartBlk
  blkNr := natBlkNr
  entryPerBlk := natEntryPerBlk
  entryNr := nodeNr
  journalLen :=
    { get := fun ckpt => ckpt.header.natJournalNr
      put := fun nr ckpt => { ckpt with header := { ckpt.header with natJournalNr := nr } }
      get_put := fun _ _ => rfl
      put_get := fun _ => rfl }
  journals :=
    { get := fun ckpt => ckpt.natJournals
      put := fun natJournals ckpt => { ckpt with natJournals }
      get_put := fun _ _ => rfl
      put_get := fun _ => rfl }
  verBitmap :=
    { get := fun ckpt => ckpt.header.natVerBitmap
      put := fun bitmap ckpt => { ckpt with header := { ckpt.header with natVerBitmap := bitmap } }
      get_put := fun _ _ => rfl
      put_get := fun _ => rfl }
  entries :=
    { get := fun data => data.nat
      put := fun nat data => { data with nat }
      get_put := fun _ _ => rfl
      put_get := fun _ => rfl }
  dirty :=
    { get := fun fs => fs.nat.dirty
      put := fun dirty fs => { fs with nat := { fs.nat with dirty } }
      get_put := fun _ _ => rfl
      put_get := fun _ => rfl }
  table fs := fs.nat.nat

/-- The segment information table. -/
def sitArea : Area SegInfo where
  startBlk := sitStartBlk
  blkNr := sitBlkNr
  entryPerBlk := sitEntryPerBlk
  entryNr := mainSegNr
  journalLen :=
    { get := fun ckpt => ckpt.header.sitJournalNr
      put := fun nr ckpt => { ckpt with header := { ckpt.header with sitJournalNr := nr } }
      get_put := fun _ _ => rfl
      put_get := fun _ => rfl }
  journals :=
    { get := fun ckpt => ckpt.sitJournals
      put := fun sitJournals ckpt => { ckpt with sitJournals }
      get_put := fun _ _ => rfl
      put_get := fun _ => rfl }
  verBitmap :=
    { get := fun ckpt => ckpt.header.sitVerBitmap
      put := fun bitmap ckpt => { ckpt with header := { ckpt.header with sitVerBitmap := bitmap } }
      get_put := fun _ _ => rfl
      put_get := fun _ => rfl }
  entries :=
    { get := fun data => data.sit
      put := fun sit data => { data with sit }
      get_put := fun _ _ => rfl
      put_get := fun _ => rfl }
  dirty :=
    { get := fun fs => fs.segments.dirtyMap
      put := fun dirtyMap fs => { fs with segments := { fs.segments with dirtyMap } }
      get_put := fun _ _ => rfl
      put_get := fun _ => rfl }
  table fs := fs.segments.fillSegInfo

section Area

variable {ι : Type} (area : Area ι)

/-- `get_nat_block` and `get_sit_block`: the current copy of a block. -/
def Area.block (ckpt : CkptBlock) (blk : Nat) : Nat :=
  blk + area.startBlk + if (area.verBitmap.get ckpt).getLsbD blk then area.blkNr else 0

/-- Change the checkpoint in memory. -/
def modifyCkpt (change : CkptBlock → CkptBlock) : FsM Unit :=
  modify fun fs => { fs with checkpoint := change fs.checkpoint }

/-- The page of a block of the table, which is read when it is not at hand yet. -/
def Area.pageOf (pages : Nat → Option Nat) (blk : Nat) : FsM (Nat × (Nat → Option Nat)) :=
  match pages blk with
  | some page => pure (page, pages)
  | none => do
    let page ← pagesLens.zoom allocate
    readInto (area.block (← get).checkpoint blk) page
    return (page, Function.update pages blk (some page))

/-- Merge one journal entry into the pages of the table. -/
def Area.outEntry (pages : Nat → Option Nat) (index : Nat) : FsM (Nat → Option Nat) := do
  let entry := area.journals.get (← get).checkpoint index
  let blk := entry.key / area.entryPerBlk
  throwIf (blk ≥ area.blkNr) .undefined
  let (page, pages) ← area.pageOf pages blk
  modifyData page fun data => area.entries.put
    (Function.update (area.entries.get data) (entry.key % area.entryPerBlk) entry.value) data
  return pages

/-- `f2fs_out_nat_journal` and `f2fs_out_sit_journal`: merge the journal into the pages of the
table and empty it. -/
def Area.outJournal (pages : Nat → Option Nat) : FsM (Nat → Option Nat) := do
  let pages ← (List.range (area.journalLen.get (← get).checkpoint)).foldlM area.outEntry pages
  modifyCkpt (area.journalLen.put 0)
  return pages

/-- Put one entry of the table into the journal if it is dirty. -/
def Area.journalEntry (pages : Nat → Option Nat) (key : Nat) : FsM (Nat → Option Nat) := do
  if testFlag area.entryPerBlk (area.dirty.get (← get)) key then
    let pages ←
      if area.journalLen.get (← get).checkpoint ≥ journalNr then area.outJournal pages
      else pure pages
    let value := area.table (← get) key
    modifyCkpt fun ckpt =>
      let index := area.journalLen.get ckpt
      area.journalLen.put (index + 1)
        (area.journals.put (Function.update (area.journals.get ckpt) index { key, value }) ckpt)
    modify fun fs => area.dirty.put (clearFlag area.entryPerBlk (area.dirty.get fs) key) fs
    return pages
  else return pages

/-- Write one page of the table to the other copy of its block. -/
def Area.writePage (pages : Nat → Option Nat) (blk : Nat) : FsM Unit :=
  match pages blk with
  | none => pure ()
  | some page => do
    modifyCkpt fun ckpt => area.verBitmap.put (flipBit (area.verBitmap.get ckpt) blk) ckpt
    blockWrite (area.block (← get).checkpoint blk) (← getData page)
    pagesLens.zoom (free page)

/-- `f2fs_flush_nat_entries` and `f2fs_flush_sit_entries`. -/
def Area.flushEntries : FsM Unit := do
  let pages ← area.outJournal fun _ => none
  let pages ← (List.range area.entryNr).foldlM area.journalEntry pages
  (List.range area.blkNr).forM (area.writePage pages)

end Area

/-- `f2fs_flush_nat_entries`. -/
def flushNatEntries : FsM Unit := natArea.flushEntries

/-- `f2fs_flush_sit_entries`. -/
def flushSitEntries : FsM Unit := sitArea.flushEntries

/-- `SyncSSA`: the summaries of the dirty segments, in place. -/
def syncSsa : FsM Unit := do
  let page ← pagesLens.zoom allocate
  (List.range mainSegNr).forM fun seg => do
    doIf ((← get).segments.isDirty seg) do
      let info := (← get).segments.segments seg
      modifyData page fun data =>
        { data with ssa := fun blk => { nid := info.nids blk, offset := info.offset blk } }
      blockWrite (seg + ssaStartBlk) (← getData page)
  pagesLens.zoom (free page)

/-- Write a checkpoint block. -/
def writeCkptBlock (lba : Nat) (blockType : BlockType) (fill : CkptBlock → BlockData → BlockData) :
    FsM Unit := do
  blockWrite lba (fill (← get).checkpoint { BlockData.ones with blockType })

/-- The entries of one journal block. -/
abbrev sitJournalPerBlk : Nat := journalNr / sitJournalBlk

/-- `save_checkpoint`. The page it fills is not initialised; only the views written here are ever
read back. -/
def saveCheckpoint (ckptId : Nat) : FsM Unit := do
  let base := ckptStartBlk + ckptId * ckptBlkNr
  modifyCkpt fun ckpt =>
    { ckpt with header := { ckpt.header with verOpen := dword (ckpt.header.verOpen + 1) } }
  writeCkptBlock base .ckptHeader fun ckpt data => { data with ckptHeader := ckpt.header }
  writeCkptBlock (base + 1) .ckptNatJournal fun ckpt data =>
    { data with natJournal := ckpt.natJournals }
  (List.range sitJournalBlk).forM fun part =>
    writeCkptBlock (base + 2 + part) .ckptSitJournal fun ckpt data =>
      { data with sitJournal := fun index => ckpt.sitJournals (part * sitJournalPerBlk + index) }
  modifyCkpt fun ckpt =>
    { ckpt with header := { ckpt.header with verClose := dword (ckpt.header.verClose + 1) } }
  writeCkptBlock base .ckptHeader fun ckpt data => { data with ckptHeader := ckpt.header }

/-- `f2fs_write_checkpoint`. -/
def writeCheckpoint : FsM Unit := do
  flushNatEntries
  flushSitEntries
  let curSegs := (← get).segments.curSegs
  modifyCkpt fun ckpt => { ckpt with header := { ckpt.header with curSegs } }
  modify fun fs => { fs with curCkpt := fs.curCkpt ^^^ 1 }
  saveCheckpoint (← get).curCkpt

/-- The version of a checkpoint header, `none` when it is not one that was completely written. -/
def ckptVersion (data : BlockData) : Option Nat :=
  if data.blockType = .ckptHeader ∧ data.ckptHeader.verOpen = data.ckptHeader.verClose then
    some data.ckptHeader.verClose
  else none

/-- The slot to load, from the versions of both slots; version 0 is not a checkpoint. -/
def chooseCkpt (first second : Nat) : Except Fault Nat :=
  if first ≠ 0 ∧ second ≠ 0 then
    if first = second then
      .error (.fs .ckptFail "either checkpoint is validate and have the same version, ver=%d"
        [first])
    else if second > first then .ok 1 else .ok 0
  else if first ≠ 0 then .ok 0
  else if second ≠ 0 then .ok 1
  else .error (.fs .ckptFail "neigher checkpoing is validate" [])

/-- Count a checkpoint slot that is readable. -/
def countHealthy (data : BlockData) : FsM Unit :=
  doIf ((ckptVersion data).isSome) (modify fun fs => { fs with healthCkpt := fs.healthCkpt + 1 })

/-- Read one SIT journal block of a checkpoint slot. -/
def loadSitJournalBlock (base part : Nat) : FsM Unit := do
  let data ← blockRead (base + 2 + part)
  modifyCkpt fun ckpt =>
    { ckpt with sitJournals := fun index =>
        if index / sitJournalPerBlk = part then data.sitJournal (index % sitJournalPerBlk)
        else ckpt.sitJournals index }

/-- Load the checkpoint of a slot, whose header is at hand. -/
def loadSlot (slot : Nat) (header : CkptHead) : FsM Unit := do
  let base := ckptStartBlk + slot * ckptBlkNr
  modifyCkpt fun ckpt => { ckpt with header }
  let data ← blockRead (base + 1)
  modifyCkpt fun ckpt => { ckpt with natJournals := data.natJournal }
  (List.range sitJournalBlk).forM (loadSitJournalBlock base)
  modify fun fs => { fs with curCkpt := slot }

/-- Load the slot that was chosen, from the headers of both slots. -/
def loadChosen (first second : BlockData) : Except Fault Nat → FsM Nat
  | .error fault => throw fault
  | .ok slot => do
    loadSlot slot (if slot = 0 then first.ckptHeader else second.ckptHeader)
    return slot

/-- `load_checkpoint`. -/
def loadCheckpoint : FsM Nat := do
  modify fun fs => { fs with healthCkpt := 0 }
  let first ← blockRead ckptStartBlk
  countHealthy first
  let second ← blockRead (ckptStartBlk + ckptBlkNr)
  countHealthy second
  loadChosen first second (chooseCkpt ((ckptVersion first).getD 0) ((ckptVersion second).getD 0))

/-- Change the segment manager. -/
def modifySegments (change : SegmentManager → SegmentManager) : FsM Unit :=
  segmentsLens.zoom (modify change)

/-- Read one SIT block into the table. -/
def loadSitBlock (page blk : Nat) : FsM Unit := do
  readInto (sitArea.block (← get).checkpoint blk) page
  let data ← getData page
  modifySegments (·.readSitBlock data.sit blk)

/-- Apply one SIT journal entry to the table. -/
def loadSitJournal (index : Nat) : FsM Unit := do
  let entry := (← get).checkpoint.sitJournals index
  throwIf (entry.key ≥ mainSegNr) .undefined
  modifySegments (·.readSegInfo entry.value entry.key)

/-- Read the summary of one segment. -/
def loadSummary (page seg : Nat) : FsM Unit := do
  readInto (ssaStartBlk + seg) page
  let data ← getData page
  modifySegments (·.updateSeg seg (·.withSsa data.ssa))

/-- `CF2fsSegmentManager::Load`. -/
def loadSegments : FsM Unit := do
  let page ← pagesLens.zoom allocate
  (List.range sitBlkNr).forM (loadSitBlock page)
  let header := (← get).checkpoint.header
  modifySegments fun manager => { manager with curSegs := header.curSegs }
  throwIf (header.sitJournalNr > journalNr)
    (.fs .invalidCheckpoint "SIT journal size is too large: %d" [header.sitJournalNr])
  (List.range header.sitJournalNr).forM loadSitJournal
  (List.range mainSegNr).forM (loadSummary page)
  pagesLens.zoom (free page)
  modifySegments fun manager => { manager with dirtyMap := fun _ => 0 }
  modifySegments (·.buildFreeLink)

/-- Change the node address table. -/
def modifyNat (change : NodeAddressTable → NodeAddressTable) : FsM Unit :=
  natLens.zoom (modify change)

/-- Read one NAT block into the table; the page is not given back. -/
def loadNatBlock (blk : Nat) : FsM Unit := do
  let page ← pagesLens.zoom allocate
  readInto (natArea.block (← get).checkpoint blk) page
  let data ← getData page
  modifyNat fun table =>
    { table with nat := fun nid =>
        if nid / natEntryPerBlk = blk then data.nat (nid % natEntryPerBlk) else table.nat nid }

/-- Apply one NAT journal entry to the table. -/
def loadNatJournal (index : Nat) : FsM Unit := do
  let entry := (← get).checkpoint.natJournals index
  throwIf (entry.key ≥ nodeNr) .undefined
  modifyNat fun table => { table with nat := Function.update table.nat entry.key entry.value }

/-- `CNodeAddressTable::Load`. -/
def loadNat : FsM Unit := do
  (List.range natBlkNr).forM loadNatBlock
  let journalSize := (← get).checkpoint.header.natJournalNr
  throwIf (journalSize > journalNr)
    (.fs .invalidCheckpoint "NAT journal size is too large: %d" [journalSize])
  (List.range journalSize).forM loadNatJournal
  modifyNat (·.buildFree)
  modifyNat fun table => { table with dirty := fun _ => 0 }

/-- `Mount`. -/
def mount : FsM Unit := do
  let _ ← loadCheckpoint
  loadSegments
  loadNat
  let page ← readNode rootFid
  modifyInode page fun inode => { inode with refCount := 1 }
  let nid := (← getData page).node.nid
  throwIf (nid ≥ nodeNr) .undefined
  setNodeCache nid page

/-- Write the dirty node pages of one phase: index nodes first, then all. -/
def syncNodes (phase : Nat) : List Nat → FsM ErrorCode
  | [] => pure .ok
  | nid :: rest => do
    let cached := (← get).nat.nodeCache nid
    if cached = invalidPage then syncNodes phase rest
    else
      let page ← pagePtr cached
      let info ← getPage page
      if info.dirty = false ∨ (phase = 0 ∧ info.data.blockType ≠ .index) then syncNodes phase rest
      else
        let phyBlk ← writeBlockToSeg page true
        if phyBlk = invalidBlk then return .noSpace
        natLens.zoom (setPhyBlk nid phyBlk)
        setPageDirty page false
        syncNodes phase rest

/-- `f2fs_sync_node_page`. -/
def syncNodePage : FsM ErrorCode := do
  let ir ← syncNodes 0 (List.range nodeNr)
  if ir ≠ .ok then return ir
  syncNodes 1 (List.range nodeNr)

/-- The flushing loop of `sync_fs`: a collection may make flushed nodes dirty again. -/
def syncRounds (dirtyNr : Nat) : Nat → FsM Unit
  | 0 => throw (.fs .sync "loop flushing, dirty page nr=%d" [dirtyNr])
  | retry + 1 => do
    let dirtyNr ← getDirtyNodeNr
    if dirtyNr = 0 then pure ()
    else
      let ir ← syncNodePage
      throwIf (ir ≠ .ok) (.fs .sync "[err] segment is not enough when sync_node()" [])
      syncRounds dirtyNr retry

/-- `sync_fs`; it returns `ERR_OK` or throws. -/
def syncFs : FsM Unit := do
  syncRounds 0 10
  syncSsa
  writeCheckpoint

/-- `InitOpenList`. -/
def initOpenList : FsM Unit :=
  modify fun fs =>
    { fs with
      openFiles := fun index =>
        { ino := invalidBlk, ipage := if index + 1 = maxOpenFile then invalidPage else index + 1 }
      freePtr := 0
      openNr := 0 }

/-- `Reset`. -/
def reset (rollback : Nat) : FsM Unit := do
  let count := word rollback
  let cacheNr := dword (← get).storage.length
  throwIf (count > cacheNr) (.app "rollback (%d) > cache size (%d)" [count, cacheNr])
  modify fun fs => { fs with storage := fs.storage.drop count }
  initOpenList
  modifySegments (·.reset)
  modifyNat fun _ => .blank
  modify fun fs => { fs with pages := fs.pages.initial }

/-- `SyncSIT`, which only formatting uses: the SIT blocks with dirty segments, in place. -/
def syncSit : FsM Unit := do
  let page ← pagesLens.zoom allocate
  (List.range sitBlkNr).forM fun blk => do
    let manager := (← get).segments
    doIf (manager.dirtyMap blk ≠ 0) do
      modifyData page fun data =>
        { data with sit := fun entry => manager.fillSegInfo (blk * sitEntryPerBlk + entry) }
      blockWrite (blk + sitStartBlk) (← getData page)
  pagesLens.zoom (free page)

/-- `CNodeAddressTable::Sync`, which only formatting uses: the dirty NAT blocks, in place. -/
def syncNat : FsM Unit :=
  (List.range natBlkNr).forM fun blk => do
    let table := (← get).nat
    doIf (table.dirty blk ≠ 0) do
      let page ← pagesLens.zoom allocate
      modifyData page fun data =>
        { data with nat := fun entry => table.nat (blk * natEntryPerBlk + entry) }
      blockWrite (blk + natStartBlk) (← getData page)
      modifyNat fun table => { table with dirty := Function.update table.dirty blk 0 }

/-- The root inode that formatting creates. -/
def createRoot : FsM Unit := do
  let page ← pagesLens.zoom allocate
  if ← initInode page .dir then
    modifyNode page fun node =>
      { node with
        ino := rootFid, nid := rootFid, inode := { node.inode with refCount := 1 } }
    modifyPage page fun info => { info with nid := rootFid }
    setNodeCache rootFid page
    let phyBlk ← updateInode page
    throwIf (phyBlk = invalidBlk) (.fs .general "no enough segment during make fs" [])
    natLens.zoom (setPhyBlk rootFid phyBlk)
  else throw (.fs .general "node full during make fs" [])

/-- `Initialzie`: format the storage. -/
def initialzie (opSegs : Nat) : FsM Unit := do
  modify fun fs => { fs with opSegs, hostWrite := 0, gcCount := 0, storage := [] }
  modifySegments (·.initSegmentManager)
  modify fun fs => { fs with pages := fs.pages.initial }
  modifyNat (·.initial)
  syncNat
  initOpenList
  createRoot
  -- both checkpoint slots are made invalid before the first checkpoint is written
  let blank := { BlockData.ones with blockType := .ckptHeader, ckptHeader := .filled false }
  blockWrite ckptStartBlk blank
  blockWrite (ckptStartBlk + ckptBlkNr) blank
  modifyCkpt fun _ =>
    { CkptBlock.zero with header := { CkptHead.filled false with verOpen := 1, verClose := 1 } }
  modify fun fs => { fs with curCkpt := 1 }
  syncSsa
  syncSit
  modifySegments fun manager => { manager with dirtyMap := fun _ => 0 }
  syncNat
  writeCheckpoint

/-- A simulator in zeroed memory, before it is formatted. -/
def Fs.zeroed : Fs :=
  { checkpoint := .zero
    segments :=
      { segments := fun _ => .ones, curSegs := fun _ => .ones, dirtyMap := fun _ => 0
        freeTail := invalidBlk, freeHead := invalidBlk, freeNr := 0, usedBlkNr := 0
        dataCache := .ones, beyond := fun _ => 0 }
    nat := .blank
    storage := []
    pages := { page := fun _ => { PageInfo.initial with inUse := false }, freePtr := 0, usedNr := 0 }
    openFiles := fun _ => { ino := 0, ipage := 0 }
    freePtr := 0, openNr := 0, opSegs := 0, curCkpt := 0, healthCkpt := 0, hostWrite := 0
    gcCount := 0 }

/-- A freshly formatted simulator. -/
def Fs.formatted : Fs := finalState (initialzie opSegment .zeroed)

end FsChecking.F2fs
