import FsChecking.F2fs.File
import FsChecking.F2fs.FileMap
import FsChecking.F2fs.Invalidate
import FsChecking.F2fs.Pool
import Mathlib.Algebra.BigOperators.Group.Finset.Basic

/-!
# The state of a file

A file system that holds a file with a block map: its inode is in a page, its index nodes are in
the cache or on the storage, and its blocks and the blocks of its index nodes are distinct and valid
in the SIT.
-/

namespace FsChecking.F2fs

open Lib

/-- The index node in a slot of an inode. -/
def Fs.slotNid (fs : Fs) (ipage slot : Nat) : Nat :=
  (fs.pages.page ipage).data.node.inode.index slot

/-- The content of a node: its page in the cache, or the block where it is stored. -/
def Fs.content (fs : Fs) (nid : Nat) : Option NodeInfo :=
  if fs.nat.nodeCache nid = invalidPage then
    (storedAt fs.storage (phyblkToLba (fs.nat.nat nid))).map BlockData.node
  else some (fs.pages.page (fs.nat.nodeCache nid)).data.node

/-- A node with the entries of an index node. -/
structure ShowsEntries (node : NodeInfo) (nid : Nat) (entries : Entries) : Prop where
  /-- It knows its id. -/
  nid : node.nid = nid
  /-- It counts its mapped entries. -/
  validData : node.index.validData = mappedCount entries
  /-- Its entries. -/
  index : ∀ entry < indexSize, node.index.index entry = (entries entry).getD invalidBlk

/-- The file system holds an index node, beside the page of the inode. -/
structure HoldsNode (fs : Fs) (ipage nid : Nat) (entries : Entries) : Prop where
  /-- The id is inside the table. -/
  inside : nid < nodeNr
  /-- The id is in use. -/
  allocated : fs.nat.nat nid ≠ invalidBlk
  /-- In the cache, it has a page in use. -/
  cached : fs.nat.nodeCache nid ≠ invalidPage → fs.nat.nodeCache nid < maxPageNum ∧
    fs.nat.nodeCache nid ≠ ipage ∧ (fs.pages.page (fs.nat.nodeCache nid)).inUse = true
  /-- Otherwise it is stored. -/
  stored : fs.nat.nodeCache nid = invalidPage →
    ∃ data, storedAt fs.storage (phyblkToLba (fs.nat.nat nid)) = some data ∧
      data.blockType = .index
  /-- Its content. -/
  shows : ∃ node, fs.content nid = some node ∧ ShowsEntries node nid entries

/-- The number of mapped blocks of a file. -/
def mappedTotal (map : FileMap) : Nat :=
  ∑ slot ∈ Finset.range indexTableSize, ((map slot).map mappedCount).getD 0

/-- The slots whose index nodes are not in the cache. -/
def uncachedSlots (fs : Fs) (ipage : Nat) (map : FileMap) : Finset Nat :=
  (Finset.range indexTableSize).filter fun slot =>
    (map slot).isSome ∧ fs.nat.nodeCache (fs.slotNid ipage slot) = invalidPage

/-- The file system holds a file. Every block of the file, or of one of its index nodes, has one
owner: a slot and an entry, or a slot. -/
structure FileAt (fs : Fs) (ipage : Nat) (map : FileMap) (owner : Nat → Nat × Option Nat)
    (free : List Nat) : Prop where
  /-- The free pages. -/
  pool : FreePages fs.pages free
  /-- There are enough of them for the index nodes that are not in the cache. -/
  room : (uncachedSlots fs ipage map).card ≤ free.length
  /-- The SIT counts its bits. -/
  counted : fs.segments.Counted
  /-- The page of the inode. -/
  inode : ipage < maxPageNum ∧ (fs.pages.page ipage).inUse = true
  /-- The inode counts the mapped blocks. -/
  blkNum : (fs.pages.page ipage).data.node.inode.blkNum = mappedTotal map
  /-- Slots without an index node. -/
  hole : ∀ slot < indexTableSize, map slot = none → fs.slotNid ipage slot = invalidBlk
  /-- Slots with an index node. -/
  node : ∀ slot < indexTableSize, ∀ entries, map slot = some entries →
    HoldsNode fs ipage (fs.slotNid ipage slot) entries
  /-- Different slots have different index nodes, and those in the cache have different pages. -/
  apart : ∀ slot < indexTableSize, ∀ other < indexTableSize, slot ≠ other → map slot ≠ none →
    map other ≠ none → fs.slotNid ipage slot ≠ fs.slotNid ipage other ∧
      (fs.nat.nodeCache (fs.slotNid ipage slot) ≠ invalidPage →
        fs.nat.nodeCache (fs.slotNid ipage slot) ≠ fs.nat.nodeCache (fs.slotNid ipage other))
  /-- The blocks of the file. -/
  blocks : ∀ slot < indexTableSize, ∀ entries, map slot = some entries → ∀ entry < indexSize,
    ∀ blk, entries entry = some blk → blk < mainBlkNr ∧ fs.segments.isValid blk = true ∧
      owner blk = (slot, some entry)
  /-- The blocks of the index nodes. -/
  address : ∀ slot < indexTableSize, map slot ≠ none →
    fs.nat.nat (fs.slotNid ipage slot) = nidInUse ∨
      fs.nat.nat (fs.slotNid ipage slot) < mainBlkNr ∧
        fs.segments.isValid (fs.nat.nat (fs.slotNid ipage slot)) = true ∧
        owner (fs.nat.nat (fs.slotNid ipage slot)) = (slot, none)

variable {fs fs' : Fs} {ipage nid page slot entry blk : Nat} {map map' : FileMap}
  {entries : Entries} {owner : Nat → Nat × Option Nat} {free free' : List Nat}

/-- The content of a node depends on its place. -/
theorem content_congr (nat : fs'.nat.nat nid = fs.nat.nat nid)
    (cache : fs'.nat.nodeCache nid = fs.nat.nodeCache nid)
    (page : fs.nat.nodeCache nid ≠ invalidPage →
      fs'.pages.page (fs.nat.nodeCache nid) = fs.pages.page (fs.nat.nodeCache nid))
    (storage : fs'.storage = fs.storage) : fs'.content nid = fs.content nid := by
  unfold Fs.content
  rw [cache, nat, storage]
  split
  · rfl
  · rename_i cached
    rw [page cached]

/-- An index node depends on its place. -/
theorem HoldsNode.congr (holds : HoldsNode fs ipage nid entries)
    (nat : fs'.nat.nat nid = fs.nat.nat nid)
    (cache : fs'.nat.nodeCache nid = fs.nat.nodeCache nid)
    (page : fs.nat.nodeCache nid ≠ invalidPage →
      fs'.pages.page (fs.nat.nodeCache nid) = fs.pages.page (fs.nat.nodeCache nid))
    (storage : fs'.storage = fs.storage) : HoldsNode fs' ipage nid entries where
  inside := holds.inside
  allocated := by
    rw [nat]
    exact holds.allocated
  cached := by
    rw [cache]
    intro cached
    rw [page cached]
    exact holds.cached cached
  stored := by
    rw [cache, nat, storage]
    exact holds.stored
  shows := by
    rw [content_congr nat cache page storage]
    exact holds.shows

/-- An index node is not the null node. -/
theorem HoldsNode.ne_invalidBlk (holds : HoldsNode fs ipage nid entries) : nid ≠ invalidBlk := by
  rintro rfl
  exact absurd holds.inside (by decide)

/-- The content of a node in the cache. -/
theorem content_of_cached (cached : fs.nat.nodeCache nid ≠ invalidPage) :
    fs.content nid = some (fs.pages.page (fs.nat.nodeCache nid)).data.node := by
  unfold Fs.content
  rw [if_neg cached]

/-- A page that is in use is not free. -/
theorem FreePages.notMem {pool : PageAllocator} (pages : FreePages pool free)
    (used : (pool.page page).inUse = true) : page ∉ free := by
  intro member
  rw [pages.idle page member] at used
  cases used

/-! ## Changing one index node -/

/-- A file after a change of the page of one index node, which keeps some of its entries, and of the
counter in its inode. -/
theorem FileAt.update (file : FileAt fs ipage map owner free) (inside : slot < indexTableSize)
    (here : map slot = some entries) (kept : Entries)
    (fewer : ∀ entry < indexSize, ∀ blk, kept entry = some blk → entries entry = some blk)
    (cached : fs.nat.nodeCache (fs.slotNid ipage slot) ≠ invalidPage)
    (nat : fs'.nat = fs.nat) (storage : fs'.storage = fs.storage)
    (pool : FreePages fs'.pages free)
    (page : (fs'.pages.page (fs.nat.nodeCache (fs.slotNid ipage slot))).inUse = true ∧
      ShowsEntries (fs'.pages.page (fs.nat.nodeCache (fs.slotNid ipage slot))).data.node
        (fs.slotNid ipage slot) kept)
    (others : ∀ other, other ≠ ipage → other ≠ fs.nat.nodeCache (fs.slotNid ipage slot) →
      fs'.pages.page other = fs.pages.page other)
    (inode : (fs'.pages.page ipage).inUse = true ∧
      (fs'.pages.page ipage).data.node.inode.index = (fs.pages.page ipage).data.node.inode.index ∧
      (fs'.pages.page ipage).data.node.inode.blkNum =
        mappedTotal (Function.update map slot (some kept)))
    (counted : fs'.segments.Counted)
    (valid : ∀ blk, fs.segments.isValid blk = true → fs'.segments.isValid blk = true ∨
      ∃ entry < indexSize, owner blk = (slot, some entry) ∧ kept entry ≠ some blk) :
    FileAt fs' ipage (Function.update map slot (some kept)) owner free := by
  have slots : ∀ slot, fs'.slotNid ipage slot = fs.slotNid ipage slot := fun slot =>
    congrFun inode.2.1 slot
  have present : ∀ other, (Function.update map slot (some kept) other).isSome = (map other).isSome := by
    intro other
    by_cases same : other = slot
    · rw [same, Function.update_self, here]
      rfl
    · rw [Function.update_of_ne same]
  have absent : ∀ other, Function.update map slot (some kept) other ≠ none ↔ map other ≠ none := by
    intro other
    rw [← Option.isSome_iff_ne_none, ← Option.isSome_iff_ne_none, present]
  refine
    { pool := pool
      room := ?_
      counted := counted
      inode := ⟨file.inode.1, inode.1⟩
      blkNum := inode.2.2
      hole := ?_
      node := ?_
      apart := ?_
      blocks := ?_
      address := ?_ }
  · have same : uncachedSlots fs' ipage (Function.update map slot (some kept)) =
        uncachedSlots fs ipage map := by
      unfold uncachedSlots
      refine Finset.filter_congr fun other _ => ?_
      rw [present, nat, slots]
    rw [same]
    exact file.room
  · intro other below missing
    rw [slots]
    refine file.hole other below ?_
    by_contra some
    exact (absent other).mpr some missing
  · intro other below found' found
    by_cases same : other = slot
    · subst same
      rw [Function.update_self, Option.some.injEq] at found
      subst found
      have old := file.node other inside entries here
      rw [slots]
      refine ⟨old.inside, by rw [nat]; exact old.allocated, fun _ => ?_, fun missing => ?_,
        ⟨_, ?_, page.2⟩⟩
      · rw [nat]
        exact ⟨(old.cached cached).1, (old.cached cached).2.1, page.1⟩
      · rw [nat] at missing
        exact absurd missing cached
      · rw [content_of_cached (by rw [nat]; exact cached), nat]
    · rw [Function.update_of_ne same] at found
      have old := file.node other below found' found
      have distinct := (file.apart slot inside other below (Ne.symm same)
        (by rw [here]; exact Option.some_ne_none _) (by rw [found]; exact Option.some_ne_none _)).2
        cached
      rw [slots]
      refine old.congr (by rw [nat]) (by rw [nat]) (fun otherCached => ?_) storage
      exact others _ (old.cached otherCached).2.1 (Ne.symm distinct)
  · intro first firstIn second secondIn different firstSome secondSome
    rw [slots, slots, nat]
    exact file.apart first firstIn second secondIn different ((absent first).mp firstSome)
      ((absent second).mp secondSome)
  · intro other below found' found entry entryIn blk mapped
    by_cases same : other = slot
    · subst same
      rw [Function.update_self, Option.some.injEq] at found
      subst found
      obtain ⟨blkIn, old, owned⟩ :=
        file.blocks other inside entries here entry entryIn blk (fewer entry entryIn blk mapped)
      refine ⟨blkIn, ?_, owned⟩
      rcases valid blk old with still | ⟨gone, _, lost, notKept⟩
      · exact still
      · rw [owned] at lost
        have equal := congrArg Prod.snd lost
        cases equal
        exact absurd mapped notKept
    · rw [Function.update_of_ne same] at found
      obtain ⟨blkIn, old, owned⟩ := file.blocks other below found' found entry entryIn blk mapped
      refine ⟨blkIn, ?_, owned⟩
      rcases valid blk old with still | ⟨gone, _, lost, _⟩
      · exact still
      · rw [owned] at lost
        exact absurd (congrArg Prod.fst lost) same
  · intro other below found
    rw [slots, nat]
    rcases file.address other below ((absent other).mp found) with unwritten | ⟨blkIn, old, owned⟩
    · exact .inl unwritten
    · refine .inr ⟨blkIn, ?_, owned⟩
      rcases valid _ old with still | ⟨gone, _, lost, _⟩
      · exact still
      · rw [owned] at lost
        cases congrArg Prod.snd lost

/-! ## Reading an index node -/

/-- A program that changes neither the SIT nor the NAT nor the inode. -/
structure Unmoved (fs fs' : Fs) (ipage : Nat) : Prop where
  /-- The segments. -/
  segments : fs'.segments = fs.segments
  /-- The addresses of the nodes. -/
  nat : fs'.nat.nat = fs.nat.nat
  /-- The number of free nodes. -/
  freeNr : fs'.nat.freeNr = fs.nat.freeNr
  /-- The page of the inode. -/
  inode : fs'.pages.page ipage = fs.pages.page ipage
  /-- The open files. -/
  openFiles : fs'.openFiles = fs.openFiles
  /-- The storage. -/
  storage : fs'.storage = fs.storage

/-- A file after a page of the cache has been labelled. -/
theorem FileAt.label (file : FileAt fs ipage map owner free) (inside : slot < indexTableSize)
    (here : map slot = some entries) (page : Nat)
    (cache : fs.nat.nodeCache (fs.slotNid ipage slot) = page) (cached : page ≠ invalidPage) :
    ∃ fs', modifyNode page (fun node => { node with pageId := page }) fs = .ok ⟨⟩ fs' ∧
      FileAt fs' ipage map owner free ∧ fs'.nat = fs.nat ∧ Unmoved fs fs' ipage := by
  subst cache
  have node := file.node slot inside entries here
  obtain ⟨below, apart, used⟩ := node.cached cached
  obtain ⟨shown, found, shows⟩ := node.shows
  rw [content_of_cached cached, Option.some.injEq] at found
  subst found
  let page := fs.nat.nodeCache (fs.slotNid ipage slot)
  let change : PageInfo → PageInfo := fun info =>
    { info with data := { info.data with node := { info.data.node with pageId := page } } }
  let labelled : Fs := { fs with pages := fs.pages.update page change }
  refine ⟨labelled, rfl, ?_, rfl, rfl, rfl, rfl, Function.update_of_ne (Ne.symm apart) _ _, rfl, rfl⟩
  have same : Function.update map slot (some entries) = map := by
    rw [← here, Function.update_eq_self]
  have notFree := file.pool.notMem used
  rw [← same]
  refine file.update inside here entries (fun _ _ _ mapped => mapped) cached rfl rfl
    (file.pool.update notFree change) ⟨?_, ?_⟩
    (fun other _ different => Function.update_of_ne different _ _) ⟨?_, ?_, ?_⟩ file.counted
    fun blk valid => .inl valid
  · change (Function.update fs.pages.page page _ page).inUse = true
    rw [Function.update_self]
    exact used
  · change ShowsEntries (Function.update fs.pages.page page _ page).data.node _ _
    rw [Function.update_self]
    exact ⟨shows.nid, shows.validData, shows.index⟩
  · exact (congrArg PageInfo.inUse (Function.update_of_ne (Ne.symm apart) _ _)).trans file.inode.2
  · exact congrArg (fun info : PageInfo => info.data.node.inode.index)
      (Function.update_of_ne (Ne.symm apart) _ _)
  · rw [same]
    exact (congrArg (fun info : PageInfo => info.data.node.inode.blkNum)
      (Function.update_of_ne (Ne.symm apart) _ _)).trans file.blkNum

/-- The state with an index node loaded into a page. -/
def Fs.loaded (fs : Fs) (nid page : Nat) (data : BlockData) : Fs :=
  { fs with
    pages := (fs.pages.take.update page fun info => { info with data }).update page fun info =>
      { info with phyBlk := fs.nat.nat nid, nid := nid, offset := invalidBlk }
    nat := { fs.nat with nodeCache := Function.update fs.nat.nodeCache nid page } }

/-- The page that an index node is loaded into. -/
theorem loaded_page_self (fs : Fs) (nid : Nat) (data : BlockData) :
    (fs.loaded nid fs.pages.freePtr data).pages.page fs.pages.freePtr =
      { PageInfo.initial with
        phyBlk := fs.nat.nat nid, nid := nid, offset := invalidBlk, data := data } := by
  unfold Fs.loaded
  rw [PageAllocator.update_page_self, PageAllocator.update_page_self,
    PageAllocator.take_page_self]

/-- The other pages. -/
theorem loaded_page_of_ne {other : Nat} (nid : Nat) (data : BlockData)
    (apart : other ≠ fs.pages.freePtr) :
    (fs.loaded nid fs.pages.freePtr data).pages.page other = fs.pages.page other := by
  unfold Fs.loaded
  rw [PageAllocator.update_page_of_ne apart, PageAllocator.update_page_of_ne apart,
    PageAllocator.take_page_of_ne apart]

/-- Reading a node that is in the cache. -/
theorem readNode_of_hit (inside : nid < nodeNr) (hit : fs.nat.nodeCache nid ≠ invalidPage)
    (below : fs.nat.nodeCache nid < maxPageNum) :
    readNode nid fs = (modifyNode (fs.nat.nodeCache nid) (fun node =>
      { node with pageId := fs.nat.nodeCache nid }) >>= fun _ => pure (fs.nat.nodeCache nid)) fs := by
  unfold readNode
  rw [throwIf_bind_of_not (Nat.not_le.mpr inside), get_bind_apply]
  dsimp only
  unfold pagePtr
  rw [if_pos hit, if_neg (Nat.not_le.mpr below), bind_apply, pure_apply]

/-- Reading an index node that is not in the cache. -/
theorem readNode_of_miss {rest : List Nat} {data : BlockData} (inside : nid < nodeNr)
    (miss : fs.nat.nodeCache nid = invalidPage) (allocated : fs.nat.nat nid ≠ invalidBlk)
    (pool : FreePages fs.pages (page :: rest))
    (stored : storedAt fs.storage (phyblkToLba (fs.nat.nat nid)) = some data)
    (isIndex : data.blockType = .index) :
    readNode nid fs = (modifyNode page (fun node => { node with pageId := page }) >>=
      fun _ => pure page) (fs.loaded nid page data) := by
  have address : natLens.zoom (getPhyBlk nid) fs = .ok (fs.nat.nat nid) fs :=
    zoom_getPhyBlk_eq_ok.mpr ⟨inside, rfl, rfl⟩
  let taken : Fs := { fs with pages := fs.pages.take }
  let filled : Fs :=
    { taken with pages := taken.pages.update page fun info => { info with data } }
  have reads : readInto (phyblkToLba (fs.nat.nat nid)) page taken = .ok ⟨⟩ filled :=
    readInto_eq_ok.mpr ⟨data, stored, rfl⟩
  have filledData : ((fs.loaded nid page data).pages.page page).data = data := by
    rw [← pool.head.1, loaded_page_self]
  unfold readNode
  rw [throwIf_bind_of_not (Nat.not_le.mpr inside), get_bind_apply]
  dsimp only
  rw [if_neg (not_not.mpr miss), bind_apply, address]
  dsimp only
  rw [throwIf_bind_of_not allocated, bind_apply, pool.zoom_allocate]
  dsimp only
  rw [bind_apply, reads]
  dsimp only
  have wholly : ∀ {α : Type} (next : FsM α),
      (modifyPage page (fun info =>
        { info with phyBlk := fs.nat.nat nid, nid := nid, offset := invalidBlk }) >>= fun _ =>
        setNodeCache nid page >>= fun _ => next) filled = next (fs.loaded nid page data) :=
    fun _ => rfl
  rw [wholly, getData_bind_apply, filledData, isIndex, throwIf_bind_of_not (by simp)]
  rfl

/-- A file after one of its index nodes has been loaded. -/
theorem FileAt.load {rest : List Nat} (file : FileAt fs ipage map owner (page :: rest))
    (inside : slot < indexTableSize) (here : map slot = some entries)
    (uncached : fs.nat.nodeCache (fs.slotNid ipage slot) = invalidPage) {data : BlockData}
    (stored : storedAt fs.storage (phyblkToLba (fs.nat.nat (fs.slotNid ipage slot))) = some data) :
    FileAt (fs.loaded (fs.slotNid ipage slot) page data) ipage map owner rest := by
  let nid := fs.slotNid ipage slot
  have node := file.node slot inside entries here
  obtain ⟨start, pageIn⟩ := file.pool.head
  have fresh := (List.nodup_cons.mp file.pool.nodup).1
  have idle := file.pool.idle page List.mem_cons_self
  have foreign : ∀ other, (fs.pages.page other).inUse = true → other ≠ page := by
    rintro other used rfl
    rw [idle] at used
    cases used
  have ipageApart := foreign ipage file.inode.2
  have pageHere : ((fs.loaded nid page data).pages.page page).inUse = true ∧
      ((fs.loaded nid page data).pages.page page).data = data := by
    rw [← start, loaded_page_self]
    exact ⟨rfl, rfl⟩
  have pageOther : ∀ other, other ≠ page →
      (fs.loaded nid page data).pages.page other = fs.pages.page other := by
    intro other apart
    rw [← start] at apart ⊢
    exact loaded_page_of_ne nid data apart
  have slots : ∀ slot, (fs.loaded nid page data).slotNid ipage slot = fs.slotNid ipage slot := by
    intro slot
    unfold Fs.slotNid
    rw [pageOther ipage ipageApart]
  have cacheHere : (fs.loaded nid page data).nat.nodeCache nid = page := Function.update_self ..
  have cacheOther : ∀ other, other ≠ nid →
      (fs.loaded nid page data).nat.nodeCache other = fs.nat.nodeCache other := fun other apart =>
    Function.update_of_ne apart _ _
  have pageValid : page ≠ invalidPage := by
    rintro rfl
    exact absurd pageIn (by decide)
  have different : ∀ other < indexTableSize, other ≠ slot → map other ≠ none →
      fs.slotNid ipage other ≠ nid := fun other below apart some =>
    (file.apart other below slot inside apart some (by rw [here]; exact Option.some_ne_none _)).1
  refine
    { pool := ?_
      room := ?_
      counted := file.counted
      inode := ⟨file.inode.1, by rw [pageOther ipage ipageApart]; exact file.inode.2⟩
      blkNum := by rw [pageOther ipage ipageApart]; exact file.blkNum
      hole := fun other below missing => by rw [slots]; exact file.hole other below missing
      node := ?_
      apart := ?_
      blocks := file.blocks
      address := fun other below some => by rw [slots]; exact file.address other below some }
  · exact (file.pool.take.update fresh fun info => { info with data }).update fresh fun info =>
      { info with phyBlk := fs.nat.nat nid, nid := nid, offset := invalidBlk }
  · have fewer : uncachedSlots (fs.loaded nid page data) ipage map ⊆
        (uncachedSlots fs ipage map).erase slot := by
      intro other member
      unfold uncachedSlots at member ⊢
      rw [Finset.mem_filter, slots, Option.isSome_iff_ne_none] at member
      obtain ⟨below, some, missing⟩ := member
      have apart : other ≠ slot := by
        rintro rfl
        exact pageValid (cacheHere.symm.trans missing)
      rw [Finset.mem_erase, Finset.mem_filter, Option.isSome_iff_ne_none]
      refine ⟨apart, below, some, ?_⟩
      rwa [cacheOther _ (different other (Finset.mem_range.mp below) apart some)] at missing
    have member : slot ∈ uncachedSlots fs ipage map :=
      Finset.mem_filter.mpr ⟨Finset.mem_range.mpr inside, by rw [here]; rfl, uncached⟩
    have count := Finset.card_le_card fewer
    have total := Finset.card_erase_add_one member
    have room := file.room
    rw [List.length_cons] at room
    change (uncachedSlots (fs.loaded nid page data) ipage map).card ≤ rest.length
    omega
  · intro other below found' found
    rw [slots]
    by_cases same : other = slot
    · subst same
      rw [here, Option.some.injEq] at found
      subst found
      obtain ⟨shown, content, shows⟩ := node.shows
      have isData : shown = data.node := by
        unfold Fs.content at content
        rw [if_pos uncached, stored, Option.map_some, Option.some.injEq] at content
        exact content.symm
      refine ⟨node.inside, node.allocated, fun _ => ?_, fun missing => ?_, data.node, ?_,
        isData ▸ shows⟩
      · change (fs.loaded nid page data).nat.nodeCache nid < _ ∧ _
        rw [cacheHere]
        exact ⟨pageIn, Ne.symm ipageApart, pageHere.1⟩
      · exact absurd (cacheHere.symm.trans missing) pageValid
      · rw [content_of_cached fun missing => pageValid (cacheHere.symm.trans missing), cacheHere,
          pageHere.2]
    · have apart := different other below same (by rw [found]; exact Option.some_ne_none _)
      have old := file.node other below found' found
      exact old.congr rfl (cacheOther _ apart) (fun cached =>
        pageOther _ (foreign _ (old.cached cached).2.2)) rfl
  · intro first firstIn second secondIn distinct firstSome secondSome
    rw [slots, slots]
    obtain ⟨nids, pages⟩ := file.apart first firstIn second secondIn distinct firstSome secondSome
    refine ⟨nids, fun cached => ?_⟩
    -- a page that is in use is not the new one
    have held : ∀ other < indexTableSize, map other ≠ none →
        fs.nat.nodeCache (fs.slotNid ipage other) ≠ invalidPage →
        fs.nat.nodeCache (fs.slotNid ipage other) ≠ page := by
      intro other below some inCache
      obtain ⟨entries', found⟩ := Option.ne_none_iff_exists'.mp some
      exact foreign _ ((file.node other below entries' found).cached inCache).2.2
    by_cases firstHere : first = slot
    · subst firstHere
      have secondApart := different second secondIn (Ne.symm distinct) secondSome
      rw [cacheHere, cacheOther _ secondApart]
      intro same
      exact held second secondIn secondSome (same ▸ pageValid) same.symm
    · have firstApart := different first firstIn firstHere firstSome
      rw [cacheOther _ firstApart] at cached ⊢
      by_cases secondHere : second = slot
      · subst secondHere
        rw [cacheHere]
        exact held first firstIn firstSome cached
      · rw [cacheOther _ (different second secondIn secondHere secondSome)]
        exact pages cached

/-- Reading the index node in a slot. -/
theorem FileAt.readNode (file : FileAt fs ipage map owner free) (inside : slot < indexTableSize)
    (here : map slot = some entries) :
    ∃ page fs' free', readNode (fs.slotNid ipage slot) fs = .ok page fs' ∧
      FileAt fs' ipage map owner free' ∧ fs'.nat.nodeCache (fs.slotNid ipage slot) = page ∧
      page ≠ invalidPage ∧ Unmoved fs fs' ipage := by
  have node := file.node slot inside entries here
  by_cases cached : fs.nat.nodeCache (fs.slotNid ipage slot) = invalidPage
  · obtain ⟨data, stored, isIndex⟩ := node.stored cached
    have needed : 0 < free.length := by
      have member : slot ∈ uncachedSlots fs ipage map :=
        Finset.mem_filter.mpr ⟨Finset.mem_range.mpr inside, by rw [here]; rfl, cached⟩
      exact Nat.lt_of_lt_of_le (Finset.card_pos.mpr ⟨slot, member⟩) file.room
    obtain ⟨page, rest, rfl⟩ := List.exists_cons_of_length_pos needed
    obtain ⟨start, pageIn⟩ := file.pool.head
    have pageValid : page ≠ invalidPage := by
      rintro rfl
      exact absurd pageIn (by decide)
    have loaded := file.load inside here cached stored
    have ipageApart : ipage ≠ page := by
      rintro rfl
      have idle := file.pool.idle ipage List.mem_cons_self
      rw [file.inode.2] at idle
      cases idle
    have inodeSame : (fs.loaded (fs.slotNid ipage slot) page data).pages.page ipage =
        fs.pages.page ipage := by
      rw [← start] at ipageApart ⊢
      exact loaded_page_of_ne _ data ipageApart
    have slotsSame : (fs.loaded (fs.slotNid ipage slot) page data).slotNid ipage slot =
        fs.slotNid ipage slot :=
      congrArg (fun info : PageInfo => info.data.node.inode.index slot) inodeSame
    have cacheHere : (fs.loaded (fs.slotNid ipage slot) page data).nat.nodeCache
        (fs.slotNid ipage slot) = page := Function.update_self ..
    have dataHere : ((fs.loaded (fs.slotNid ipage slot) page data).pages.page page).data = data := by
      rw [← start, loaded_page_self]
    obtain ⟨fs', labels, labelled, nat, unmoved⟩ :=
      loaded.label inside here page (by rw [slotsSame]; exact cacheHere) pageValid
    refine ⟨page, fs', rest, ?_, labelled, by rw [nat]; exact cacheHere, pageValid,
      unmoved.segments, by rw [nat]; rfl, by rw [nat]; rfl, unmoved.inode.trans inodeSame,
      unmoved.openFiles, unmoved.storage⟩
    rw [readNode_of_miss node.inside cached node.allocated file.pool stored isIndex, bind_apply,
      labels]
    rfl
  · obtain ⟨below, -, -⟩ := node.cached cached
    obtain ⟨fs', labels, labelled, nat, unmoved⟩ := file.label inside here _ rfl cached
    refine ⟨_, fs', free, ?_, labelled, by rw [nat], cached, unmoved⟩
    rw [readNode_of_hit node.inside cached below, bind_apply, labels]
    rfl

end FsChecking.F2fs
