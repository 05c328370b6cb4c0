import FsChecking.F2fs.Segment

/-!
# Node address table and node cache

`f2fs_nat.cpp` without its persistence, and the node cache of the simulator: allocating and
releasing node ids, reading a node through the cache, redirecting an index entry.
-/

namespace FsChecking.F2fs

open Lib

namespace NodeAddressTable

/-- `is_dirty`. -/
def isDirty (table : NodeAddressTable) (nid : Nat) : Bool :=
  testFlag natEntryPerBlk table.dirty nid

/-- `set_dirty`. -/
def setDirty (table : NodeAddressTable) (nid : Nat) : NodeAddressTable :=
  { table with dirty := setFlag natEntryPerBlk table.dirty nid }

/-- Store the address of a node. -/
def setEntry (table : NodeAddressTable) (nid phyBlk : Nat) : NodeAddressTable :=
  { table with nat := Function.update table.nat nid phyBlk }.setDirty nid

/-- `build_free`. -/
def buildFree (table : NodeAddressTable) : NodeAddressTable :=
  let free := (List.range nodeNr).filter fun nid => table.nat nid = invalidBlk
  { table with nextScan := free.headD invalidBlk, freeNr := free.length }

/-- The table that `Reset` leaves. -/
def blank : NodeAddressTable :=
  { nat := fun _ => invalidBlk
    nodeCache := fun _ => invalidPage
    dirty := fun _ => 0
    nextScan := 0
    freeNr := 0 }

/-- `Init` before the table is stored. -/
def initial (table : NodeAddressTable) : NodeAddressTable :=
  buildFree
    { table with
      nat := fun _ => invalidBlk
      nodeCache := fun _ => invalidPage
      dirty := fun _ => BitVec.allOnes 32 }

end NodeAddressTable

/-- The loop of `get_node`. It goes round the table once; a free node that is counted but not there
would keep it going for ever. -/
def scanNode (cur : Nat) : Nat → NatM Nat
  | 0 => throw .undefined
  | fuel + 1 => do
    let table ← get
    let nid := table.nextScan
    if table.nat nid = invalidBlk then
      set { table.setEntry nid nidInUse with freeNr := table.freeNr - 1, nextScan := nid + 1 }
      return nid
    let next := if nid + 1 ≥ nodeNr then 0 else nid + 1
    set { table with nextScan := next }
    if next = cur then return invalidBlk
    scanNode cur fuel

/-- `get_node`. -/
def getNode : NatM Nat := do
  let table ← get
  if table.freeNr = 0 then return invalidBlk
  doIf (table.nextScan ≥ nodeNr) (set { table with nextScan := 0 })
  scanNode table.nextScan (nodeNr + 1)

/-- `get_phy_blk`. -/
def getPhyBlk (nid : Nat) : NatM Nat := do
  throwIf (nid ≥ nodeNr) (.fs .invalidNid "invalid node id %d" [nid])
  return (← get).nat nid

/-- When looking up the address of a node returns. -/
theorem zoom_getPhyBlk_eq_ok {fs fs' : Fs} {nid blk : Nat} :
    natLens.zoom (getPhyBlk nid) fs = .ok blk fs' ↔
      nid < nodeNr ∧ blk = fs.nat.nat nid ∧ fs' = fs := by
  simp only [Lens.zoom_eq_ok, getPhyBlk, throwIf_bind_eq_ok, get_bind_apply, pure_apply,
    EStateM.Result.ok.injEq, ge_iff_le, not_le]
  constructor
  · rintro ⟨_, ⟨small, rfl, rfl⟩, rfl⟩
    exact ⟨small, rfl, rfl⟩
  · rintro ⟨small, rfl, rfl⟩
    exact ⟨_, ⟨small, rfl, rfl⟩, rfl⟩

/-- `set_phy_blk`. -/
def setPhyBlk (nid phyBlk : Nat) : NatM Unit := do
  throwIf (nid ≥ nodeNr) (.app "invalid node id %d" [nid])
  modify (·.setEntry nid phyBlk)

/-- `node_cache[nid] = page`. -/
def setNodeCache (nid page : Nat) : FsM Unit :=
  modify fun fs =>
    { fs with nat := { fs.nat with nodeCache := Function.update fs.nat.nodeCache nid page } }

/-- `put_node`. -/
def putNode (nid : Nat) : FsM Unit := do
  throwIf (nid ≥ nodeNr) (.user "wrong node id:%d" [nid])
  let blk := (← get).nat.nat nid
  doIf (blk ≠ invalidBlk ∧ blk ≠ nidInUse) do
    let _ ← segmentsLens.zoom (invalidBlock blk)
  let page := (← get).nat.nodeCache nid
  doIf (page ≠ invalidPage) do
    throwIf (page ≥ maxPageNum) (.user "page %d has been released." [0])
    pagesLens.zoom (free page)
    setNodeCache nid invalidPage
  natLens.zoom (modify fun table =>
    { table.setEntry nid invalidBlk with freeNr := table.freeNr + 1 })

/-- `ReadNode`: the page of a node, which is read into the cache when it is not there yet. -/
def readNode (nid : Nat) : FsM Nat := do
  throwIf (nid ≥ nodeNr) (.fs .general "Invalid node id: %d" [nid])
  let cached := (← get).nat.nodeCache nid
  if cached ≠ invalidPage then
    let page ← pagePtr cached
    modifyNode page fun node => { node with pageId := page }
    return page
  else
    let blk ← natLens.zoom (getPhyBlk nid)
    throwIf (blk = invalidBlk) (.fs .invalidNid "invalid nid=%d in reading node" [nid])
    let page ← pagesLens.zoom allocate
    readInto (phyblkToLba blk) page
    modifyPage page fun info => { info with phyBlk := blk, nid := nid, offset := invalidBlk }
    setNodeCache nid page
    let data ← getData page
    throwIf (data.blockType ≠ .index ∧ data.blockType ≠ .inode)
      (.fs .wrongBlockType "block phy-%d is not a node block, nid=%d" [blk, nid])
    doIf (data.blockType = .inode)
      (modifyNode page fun node => { node with inode := { node.inode with refCount := 0 } })
    modifyNode page fun node => { node with pageId := page }
    return page

/-- Change the index entries of the node in a page. -/
def modifyIndex (page : Nat) (change : IndexNode → IndexNode) : FsM Unit :=
  modifyNode page fun node => { node with index := change node.index }

/-- Change the inode in a page. -/
def modifyInode (page : Nat) (change : Inode → Inode) : FsM Unit :=
  modifyNode page fun node => { node with inode := change node.inode }

/-- `page->dirty = flag`. -/
def setPageDirty (page : Nat) (flag : Bool) : FsM Unit :=
  modifyPage page fun info => { info with dirty := flag }

/-- `UpdateIndex`. -/
def updateIndex (nid offset phyBlk : Nat) : FsM Unit := do
  let page ← readNode nid
  throwIf (((← getData page).node.index.index offset) = invalidBlk)
    (.fs .invalidBlk "data block in index is invalid, index nid=%d, offset=%d" [nid, offset])
  modifyIndex page fun node => { node with index := Function.update node.index offset phyBlk }
  setPageDirty page true

/-- `get_dirty_node_nr`. -/
def getDirtyNodeNr : FsM Nat := do
  let fs ← get
  return (List.range nodeNr).countP fun nid =>
    fs.nat.nodeCache nid < maxPageNum ∧ (fs.pages.page (fs.nat.nodeCache nid)).dirty

end FsChecking.F2fs
