import FsChecking.F2fs.Blocks
import FsChecking.Lib.Program
import FsChecking.Storage.History

/-!
# The state of the simulated F2FS

The members of `CF2fsSimulator`: the page pool, the segment manager, the node address table, the
storage and the open-file table, and the elementary operations on pages and storage. The storage is
the list of its surviving writes, which is how `CStorage` behaves (`Storage.run_isolated`). A page
is addressed by its index in the pool; the address `stackPage` is the page that garbage collection
keeps on its own stack.
-/

namespace FsChecking.F2fs

open Lib

/-- `CPageInfo`. -/
structure PageInfo where
  /-- `phy_blk`: where the page is stored. -/
  phyBlk : Nat
  /-- `ttemp`. -/
  ttemp : Nat
  /-- `nid`: the node of the page, or the index node that points to it. -/
  nid : Nat
  /-- `offset`: the place in the index node; `INVALID_BLK` for a node. -/
  offset : Nat
  /-- `dirty`. -/
  dirty : Bool
  /-- `in_use`. -/
  inUse : Bool
  /-- `data`. -/
  data : BlockData

/-- `free_link`, which overlays the tag of the data. -/
def PageInfo.freeLink (page : PageInfo) : Nat := page.data.blockType.toNat

/-- Store `free_link` over the tag of the data. -/
def PageInfo.setFreeLink (link : Nat) (page : PageInfo) : PageInfo :=
  { page with data := { page.data with blockType := .ofNat link } }

/-- The page that `CPageInfo::Init` leaves. -/
def PageInfo.initial : PageInfo :=
  { phyBlk := invalidBlk, ttemp := btTempNr, nid := invalidBlk, offset := invalidBlk
    dirty := false, inUse := true, data := .ones }

/-- `CPageAllocator`. -/
structure PageAllocator where
  /-- `m_pages`. -/
  page : Nat → PageInfo
  /-- `m_free_ptr`. -/
  freePtr : Nat
  /-- `m_used_nr`. -/
  usedNr : Nat

/-- The page on the stack of `GarbageCollection`. -/
abbrev stackPage : Nat := maxPageNum

/-- `SegmentInfo`. -/
structure SegmentInfo where
  /-- `valid_bmp`. -/
  validBmp : BitVec 32
  /-- `valid_blk_nr`. -/
  validBlkNr : Nat
  /-- `seg_temp`. -/
  segTemp : Nat
  /-- `nids`: the owners of the blocks. -/
  nids : Nat → Nat
  /-- `offset`: the places of the blocks in their owners. -/
  offset : Nat → Nat
  /-- `free_next`: the next segment of the free queue. -/
  freeNext : Nat

/-- A segment with all bits set. -/
def SegmentInfo.ones : SegmentInfo :=
  { validBmp := BitVec.allOnes 32, validBlkNr := invalidPage, segTemp := invalidPage
    nids := fun _ => invalidBlk, offset := fun _ => invalidBlk, freeNext := invalidBlk }

/-- `DATA_PAGE_CACHE`: the block that a host write is storing. Its page pointer is never read. -/
structure DataPageCache where
  /-- `nid`. -/
  nid : Nat
  /-- `offset`. -/
  offset : Nat

/-- An empty `m_data_cache`. -/
def DataPageCache.ones : DataPageCache := { nid := invalidBlk, offset := invalidPage }

/-- `CF2fsSegmentManager`. -/
structure SegmentManager where
  /-- `m_segments`. -/
  segments : Nat → SegmentInfo
  /-- `m_cur_segs`. -/
  curSegs : Nat → CursegInfo
  /-- `m_dirty_map`, which follows `m_cur_segs` in memory. -/
  dirtyMap : Nat → BitVec 32
  /-- `m_free_tail`: where segments leave the queue. -/
  freeTail : Nat
  /-- `m_free_head`: where segments enter the queue. -/
  freeHead : Nat
  /-- `m_free_nr`. -/
  freeNr : Nat
  /-- `m_used_blk_nr`. -/
  usedBlkNr : Nat
  /-- `m_data_cache`. -/
  dataCache : DataPageCache
  /-- Memory beyond the object, as `m_cur_segs[temp].seg_no` reads it. -/
  beyond : Nat → Nat

/-- `CNodeAddressTable`. -/
structure NodeAddressTable where
  /-- `nat`. -/
  nat : Nat → Nat
  /-- `node_cache`: the pages of cached nodes. -/
  nodeCache : Nat → Nat
  /-- `dirty`. -/
  dirty : Nat → BitVec 32
  /-- `next_scan`. -/
  nextScan : Nat
  /-- `free_nr`. -/
  freeNr : Nat

/-- `OPENED_FILE`. -/
structure OpenedFile where
  /-- `ino`. -/
  ino : Nat
  /-- `ipage`: the page of the inode; in a free slot, the next free slot. -/
  ipage : Nat

/-- `CF2fsSimulator`. -/
structure Fs where
  /-- `m_checkpoint`. -/
  checkpoint : CkptBlock
  /-- `m_segments`. -/
  segments : SegmentManager
  /-- `m_nat`. -/
  nat : NodeAddressTable
  /-- `m_storage`: the surviving block writes, newest first. -/
  storage : Storage.History BlockData
  /-- `m_pages`. -/
  pages : PageAllocator
  /-- `m_open_files`. -/
  openFiles : Nat → OpenedFile
  /-- `m_free_ptr`. -/
  freePtr : Nat
  /-- `m_open_nr`. -/
  openNr : Nat
  /-- `m_op_segs`: segments kept free from host writes. -/
  opSegs : Nat
  /-- `m_cur_ckpt`: the slot of the newest checkpoint. -/
  curCkpt : Nat
  /-- `m_health_ckpt`: the readable checkpoints found at the last mount. -/
  healthCkpt : Nat
  /-- `m_fs_info.host_write`. -/
  hostWrite : Nat
  /-- `m_fs_info.gc_count`. -/
  gcCount : Nat

/-- Programs of the segment manager. -/
abbrev SegM : Type → Type := EStateM Fault SegmentManager
/-- Programs of the node address table. -/
abbrev NatM : Type → Type := EStateM Fault NodeAddressTable
/-- Programs of the page pool. -/
abbrev PageM : Type → Type := EStateM Fault PageAllocator
/-- Programs of the file system. -/
abbrev FsM : Type → Type := EStateM Fault Fs

/-- The segment manager of a file system. -/
def segmentsLens : Lens Fs SegmentManager where
  get fs := fs.segments
  put segments fs := { fs with segments }
  get_put _ _ := rfl
  put_get _ := rfl

/-- The node address table of a file system. -/
def natLens : Lens Fs NodeAddressTable where
  get fs := fs.nat
  put nat fs := { fs with nat }
  get_put _ _ := rfl
  put_get _ := rfl

/-- The page pool of a file system. -/
def pagesLens : Lens Fs PageAllocator where
  get fs := fs.pages
  put pages fs := { fs with pages }
  get_put _ _ := rfl
  put_get _ := rfl

/-! ## Pages -/

/-- Change one page. -/
def PageAllocator.update (pool : PageAllocator) (page : Nat) (change : PageInfo → PageInfo) :
    PageAllocator :=
  { pool with page := Function.update pool.page page (change (pool.page page)) }

/-- The pool without its first free page, which is cleared. -/
def PageAllocator.take (pool : PageAllocator) : PageAllocator :=
  { pool.update pool.freePtr (fun _ => .initial) with
    freePtr := (pool.page pool.freePtr).freeLink
    usedNr := pool.usedNr + 1 }

/-- `allocate`. -/
def allocate : PageM Nat := do
  let pool ← get
  throwIf (pool.usedNr ≥ maxPageNum) (.app "out of memory for page buffer" [])
  throwIf (pool.freePtr ≥ maxPageNum) .undefined
  set pool.take
  return pool.freePtr

/-- `free`. -/
def free (page : Nat) : PageM Unit := do
  let pool ← get
  throwIf ((pool.page page).inUse = false) (.user "double free page, index=%d" [page])
  modify fun pool =>
    { pool.update page (.setFreeLink pool.freePtr) with freePtr := page }
  throwIf (pool.usedNr = 0) (.app "over free page" [])
  modify fun pool =>
    { pool.update page fun info => { info with inUse := false } with usedNr := pool.usedNr - 1 }

/-- When `allocate` returns. -/
theorem allocate_eq_ok {pool pool' : PageAllocator} {page : Nat} :
    allocate pool = .ok page pool' ↔
      pool.usedNr < maxPageNum ∧ pool.freePtr < maxPageNum ∧ page = pool.freePtr ∧
        pool' = pool.take := by
  simp only [allocate, get_bind_apply, throwIf_bind_eq_ok, set_bind_apply, pure_apply,
    EStateM.Result.ok.injEq, not_le, ge_iff_le, eq_comm (a := page), eq_comm (a := pool')]

/-- The pool with a page given back. -/
def PageAllocator.release (pool : PageAllocator) (page : Nat) : PageAllocator :=
  { pool.update page fun info => { info.setFreeLink pool.freePtr with inUse := false } with
    freePtr := page
    usedNr := pool.usedNr - 1 }

/-- When `free` returns. -/
theorem free_eq_ok {pool pool' : PageAllocator} {page : Nat} {result : Unit} :
    free page pool = .ok result pool' ↔
      (pool.page page).inUse = true ∧ pool.usedNr ≠ 0 ∧ pool' = pool.release page := by
  simp only [free, get_bind_apply, throwIf_bind_eq_ok, modify_bind_apply, modify_apply,
    EStateM.Result.ok.injEq, PageAllocator.update, Function.update_self, Function.update_idem,
    Bool.not_eq_false, true_and, eq_comm (a := pool')]
  rfl

/-- `CPageAllocator::Init`. -/
def PageAllocator.initial (pool : PageAllocator) : PageAllocator :=
  { page := fun index =>
      if index < maxPageNum then
        { (pool.page index).setFreeLink
            (if index + 1 = maxPageNum then invalidPage else index + 1) with inUse := false }
      else pool.page index
    freePtr := 0
    usedNr := 0 }

/-- `page`: the pool's page with an index; following the null pointer that it returns beyond the
pool is undefined. -/
def pagePtr (index : Nat) : FsM Nat :=
  if index ≥ maxPageNum then throw .undefined else pure index

/-- The page at an address. -/
def getPage (page : Nat) : FsM PageInfo := do
  return (← get).pages.page page

/-- `get_data`. -/
def getData (page : Nat) : FsM BlockData := do
  return ((← get).pages.page page).data

/-- The data at an address is read from the pool. -/
@[simp] theorem getData_bind_apply {α : Type} (page : Nat) (next : BlockData → FsM α) (fs : Fs) :
    (getData page >>= next) fs = next (fs.pages.page page).data fs := rfl

/-- The page at an address is read from the pool. -/
@[simp] theorem getPage_bind_apply {α : Type} (page : Nat) (next : PageInfo → FsM α) (fs : Fs) :
    (getPage page >>= next) fs = next (fs.pages.page page) fs := rfl

/-- Change the page at an address. -/
def modifyPage (page : Nat) (change : PageInfo → PageInfo) : FsM Unit :=
  modify fun fs => { fs with pages := fs.pages.update page change }

/-- Change the data of the page at an address. -/
def modifyData (page : Nat) (change : BlockData → BlockData) : FsM Unit :=
  modifyPage page fun info => { info with data := change info.data }

/-- Change the node in the page at an address. -/
def modifyNode (page : Nat) (change : NodeInfo → NodeInfo) : FsM Unit :=
  modifyData page fun data => { data with node := change data.node }

/-! ## Storage -/

/-- `BlockWrite`, which asserts that the address is inside the table. -/
def blockWrite (lba : Nat) (data : BlockData) : FsM Unit :=
  if inside : lba < totalBlockNr then
    modify fun fs => { fs with storage := (⟨lba, inside⟩, data) :: fs.storage }
  else throw .undefined

/-- `BlockRead`; the address arrives in a `WORD`. -/
def blockRead (lba : Nat) : FsM BlockData :=
  if inside : word lba < totalBlockNr then do
    match (← get).storage.lastWrite ⟨word lba, inside⟩ with
    | none => throw (.fs .readNoMappingData "lba=%d is no mapping" [])
    | some data => return data
  else throw .undefined

/-- `BlockRead` into a page. -/
def readInto (lba page : Nat) : FsM Unit := do
  let data ← blockRead lba
  modifyData page fun _ => data

/-- The block that a storage holds at an address. -/
def storedAt (storage : Storage.History BlockData) (lba : Nat) : Option BlockData :=
  if inside : word lba < totalBlockNr then storage.lastWrite ⟨word lba, inside⟩ else none

/-- When `blockRead` returns. -/
theorem blockRead_eq_ok {lba : Nat} {fs fs' : Fs} {data : BlockData} :
    blockRead lba fs = .ok data fs' ↔ storedAt fs.storage lba = some data ∧ fs' = fs := by
  unfold blockRead storedAt
  split
  · rename_i inside
    rw [get_bind_apply]
    cases fs.storage.lastWrite ⟨word lba, inside⟩ with
    | none => simp
    | some found =>
      simp only [pure_apply, EStateM.Result.ok.injEq, Option.some.injEq, eq_comm (a := fs')]
  · simp

/-- When `readInto` returns. -/
theorem readInto_eq_ok {lba page : Nat} {fs fs' : Fs} {result : Unit} :
    readInto lba page fs = .ok result fs' ↔
      ∃ data, storedAt fs.storage lba = some data ∧
        fs' = { fs with pages := fs.pages.update page fun info => { info with data } } := by
  simp only [readInto, bind_eq_ok, blockRead_eq_ok]
  constructor
  · rintro ⟨data, _, ⟨found, rfl⟩, done⟩
    cases done
    exact ⟨data, found, rfl⟩
  · rintro ⟨data, found, rfl⟩
    exact ⟨data, fs, ⟨found, rfl⟩, rfl⟩

/-- `seg_to_lba`. -/
def segToLba (seg blk : Nat) : Nat := (mainSegOffset + seg) * blockPerSeg + blk

/-- `phyblk_to_lba`. -/
def phyblkToLba (phyBlk : Nat) : Nat := phyBlk + mainSegOffset * blockPerSeg

/-- `PhyBlock`. -/
def phyBlock (seg blk : Nat) : Nat := seg * blockPerSeg + blk

end FsChecking.F2fs
