import FsChecking.F2fs.FileEffect

/-!
# Unmapping one block of a file

The two parts of a step of `FileTruncateInternal` on a file system that holds a file: it removes a
mapped entry from an index node, and it gives up an index node that maps nothing.
-/

namespace FsChecking.F2fs

open Lib

variable {fs fs' : Fs} {ipage nid page slot entry blk : Nat} {map : FileMap} {entries : Entries}
  {owner : Nat → Nat × Option Nat} {free : List Nat}

/-! ## One block -/

/-- The part of the loop for a mapped entry. -/
def clearEntry (ipage diPage entry blk : Nat) : FsM Unit := do
  let _ ← segmentsLens.zoom (invalidBlock blk)
  modifyIndex diPage fun index =>
    { index with
      index := Function.update index.index entry invalidBlk
      validData := dword (index.validData + (2 ^ 32 - 1)) }
  setPageDirty diPage true
  modifyInode ipage fun inode => { inode with blkNum := dword (inode.blkNum + (2 ^ 32 - 1)) }
  setPageDirty ipage true

/-- The entry of a block, in the page of its index node. -/
theorem FileAt.shows (file : FileAt fs ipage map owner free) (inside : slot < indexTableSize)
    (here : map slot = some entries)
    (cached : fs.nat.nodeCache (fs.slotNid ipage slot) ≠ invalidPage) :
    ShowsEntries (fs.pages.page (fs.nat.nodeCache (fs.slotNid ipage slot))).data.node
      (fs.slotNid ipage slot) entries := by
  obtain ⟨shown, content, shows⟩ := (file.node slot inside entries here).shows
  rw [content_of_cached cached, Option.some.injEq] at content
  exact content ▸ shows

/-- The page of an index node with other entries. -/
def PageInfo.withEntries (index : Nat → Nat) (validData : Nat) (info : PageInfo) : PageInfo :=
  { info with
    dirty := true
    data := { info.data with node := { info.data.node with
      index := { info.data.node.index with index := index, validData := validData } } } }

/-- The page of an inode with another number of blocks. -/
def PageInfo.withBlkNum (blkNum : Nat) (info : PageInfo) : PageInfo :=
  { info with
    dirty := true
    data := { info.data with node := { info.data.node with
      inode := { info.data.node.inode with blkNum := blkNum } } } }

/-- The node in the page of an inode with another number of blocks. -/
theorem withBlkNum_node (blkNum : Nat) (info : PageInfo) : (info.withBlkNum blkNum).data.node =
    { info.data.node with
      inode := { info.data.node.inode with index := info.data.node.inode.index, blkNum := blkNum } } :=
  rfl

/-- The page of an index node without one entry. -/
def PageInfo.withoutEntry (entry : Nat) (info : PageInfo) : PageInfo :=
  info.withEntries (Function.update info.data.node.index.index entry invalidBlk)
    (dword (info.data.node.index.validData + (2 ^ 32 - 1)))

/-- The page of an inode with one block less. -/
def PageInfo.withoutBlock (info : PageInfo) : PageInfo :=
  info.withBlkNum (dword (info.data.node.inode.blkNum + (2 ^ 32 - 1)))

/-- The fields of the page of an index node with other entries. -/
theorem withEntries_fields (index : Nat → Nat) (validData : Nat) (info : PageInfo) :
    (info.withEntries index validData).inUse = info.inUse ∧
      (info.withEntries index validData).data.node.nid = info.data.node.nid ∧
      (info.withEntries index validData).data.node.index.index = index ∧
      (info.withEntries index validData).data.node.index.validData = validData :=
  ⟨rfl, rfl, rfl, rfl⟩

/-- The fields of the page of an inode with another number of blocks. -/
theorem withBlkNum_fields (blkNum : Nat) (info : PageInfo) :
    (info.withBlkNum blkNum).inUse = info.inUse ∧
      (info.withBlkNum blkNum).data.node.inode.index = info.data.node.inode.index ∧
      (info.withBlkNum blkNum).data.node.inode.blkNum = blkNum :=
  ⟨rfl, rfl, rfl⟩

/-- The fields of the page of an index node without one entry. -/
theorem withoutEntry_fields (entry : Nat) (info : PageInfo) :
    (info.withoutEntry entry).inUse = info.inUse ∧
      (info.withoutEntry entry).data.node.nid = info.data.node.nid ∧
      (info.withoutEntry entry).data.node.index.index =
        Function.update info.data.node.index.index entry invalidBlk ∧
      (info.withoutEntry entry).data.node.index.validData =
        dword (info.data.node.index.validData + (2 ^ 32 - 1)) :=
  withEntries_fields ..

/-- The fields of the page of an inode with one block less. -/
theorem withoutBlock_fields (info : PageInfo) :
    info.withoutBlock.inUse = info.inUse ∧
      info.withoutBlock.data.node.inode.index = info.data.node.inode.index ∧
      info.withoutBlock.data.node.inode.blkNum =
        dword (info.data.node.inode.blkNum + (2 ^ 32 - 1)) :=
  withBlkNum_fields ..

/-- Counting down a double word. -/
theorem dword_pred {number less : Nat} (next : less + 1 = number) (small : number < 2 ^ 32) :
    dword (number + (2 ^ 32 - 1)) = less := by
  unfold dword
  omega

/-- The file system without one block of a file. -/
def Fs.withoutBlock (fs : Fs) (ipage page entry blk : Nat) : Fs :=
  { fs with
    segments := fs.segments.invalidated blk
    pages := (fs.pages.update page (·.withoutEntry entry)).update ipage (·.withoutBlock) }

/-- The part of the loop for a mapped entry returns when the block is valid. -/
theorem clearEntry_eq (counted : fs.segments.Counted) (inside : blk < mainBlkNr)
    (valid : fs.segments.isValid blk = true) (entry : Nat) :
    clearEntry ipage page entry blk fs = .ok ⟨⟩ (fs.withoutBlock ipage page entry blk) := by
  obtain ⟨freed, invalidates⟩ := invalidBlock_of_valid counted inside valid
  have zoomed : segmentsLens.zoom (invalidBlock blk) fs =
      .ok freed { fs with segments := fs.segments.invalidated blk } :=
    Lens.zoom_eq_ok.mpr ⟨_, invalidates, rfl⟩
  unfold clearEntry
  rw [bind_apply, zoomed]
  unfold modifyIndex setPageDirty modifyInode modifyNode modifyData modifyPage
  dsimp only
  rw [modify_bind_apply, modify_bind_apply, modify_bind_apply, modify_apply]
  dsimp only
  rw [PageAllocator.update_update, PageAllocator.update_update]
  rfl

section WithoutBlock

variable (file : FileAt fs ipage map owner free) (inside : slot < indexTableSize)
  (here : map slot = some entries) (cache : fs.nat.nodeCache (fs.slotNid ipage slot) = page)
  (cached : page ≠ invalidPage) (entryIn : entry < indexSize) (mapped : entries entry = some blk)

/-- The pages without a block of a file. -/
theorem withoutBlock_page (fs : Fs) (apart : page ≠ ipage) (entry blk : Nat) :
    (fs.withoutBlock ipage page entry blk).pages.page page =
        (fs.pages.page page).withoutEntry entry ∧
      (fs.withoutBlock ipage page entry blk).pages.page ipage =
        (fs.pages.page ipage).withoutBlock ∧
      ∀ other, other ≠ ipage → other ≠ page →
        (fs.withoutBlock ipage page entry blk).pages.page other = fs.pages.page other := by
  unfold Fs.withoutBlock
  refine ⟨?_, ?_, fun other notInode notPage => ?_⟩
  · rw [PageAllocator.update_page_of_ne apart, PageAllocator.update_page_self]
  · rw [PageAllocator.update_page_self, PageAllocator.update_page_of_ne (Ne.symm apart)]
  · rw [PageAllocator.update_page_of_ne notInode, PageAllocator.update_page_of_ne notPage]

/-- The slots without a block of a file. -/
theorem slotNid_withoutBlock (fs : Fs) (apart : page ≠ ipage) (entry blk slot : Nat) :
    (fs.withoutBlock ipage page entry blk).slotNid ipage slot = fs.slotNid ipage slot := by
  have same := congrArg (fun info : PageInfo => info.data.node.inode.index slot)
    (withoutBlock_page fs apart entry blk).2.1
  exact same.trans (congrFun (withoutBlock_fields _).2.1 slot)

/-- Changing an index node leaves the other slots as they are. -/
theorem update_ne_none (here : map slot = some entries) (kept : Entries) (other : Nat) :
    Function.update map slot (some kept) other ≠ none ↔ map other ≠ none := by
  by_cases same : other = slot
  · rw [same, Function.update_self, here]
    exact iff_of_true (Option.some_ne_none _) (Option.some_ne_none _)
  · rw [Function.update_of_ne same]

/-- An index node without one of its mapped entries. -/
theorem ShowsEntries.clear {info : PageInfo} (shows : ShowsEntries info.data.node nid entries)
    (entryIn : entry < indexSize) (mapped : entries entry = some blk) :
    ShowsEntries (info.withoutEntry entry).data.node nid (Function.update entries entry none) := by
  have counted := mappedCount_clear entryIn mapped
  have small := List.countP_le_length (p := fun entry => (entries entry).isSome)
    (l := List.range indexSize)
  rw [List.length_range] at small
  obtain ⟨-, sameNid, index, validData⟩ := withoutEntry_fields entry info
  refine ⟨sameNid.trans shows.nid, validData.trans ?_, fun other otherIn => ?_⟩
  · rw [shows.validData]
    exact dword_pred counted (Nat.lt_of_le_of_lt small (by decide))
  · rw [index]
    by_cases same : other = entry
    · rw [same, Function.update_self, Function.update_self]
      rfl
    · rw [Function.update_of_ne same, Function.update_of_ne same]
      exact shows.index other otherIn

include file inside here cache cached entryIn mapped

/-- A file without one of its blocks. -/
theorem FileAt.withoutBlock : FileAt (fs.withoutBlock ipage page entry blk) ipage
    (Function.update map slot (some (Function.update entries entry none))) owner free := by
  subst cache
  have node := file.node slot inside entries here
  obtain ⟨-, apart, used⟩ := node.cached cached
  have shows := file.shows inside here cached
  obtain ⟨blkIn, valid, owned⟩ := file.blocks slot inside entries here entry entryIn blk mapped
  obtain ⟨pageHere, pageInode, pageOther⟩ := withoutBlock_page fs apart entry blk
  have counted := mappedCount_clear entryIn mapped
  have total := mappedTotal_update map inside (some (Function.update entries entry none))
  rw [here] at total
  have bounded := mappedTotal_le map
  refine file.update inside here _ (fun other otherIn blk' still => ?_) cached rfl rfl
    ((file.pool.update (file.pool.notMem used) _).update (file.pool.notMem file.inode.2) _)
    ⟨?_, ?_⟩ pageOther ⟨?_, ?_, ?_⟩ (file.counted.invalidated valid) fun blk' old => ?_
  · by_cases same : other = entry
    · rw [same, Function.update_self] at still
      cases still
    · rwa [Function.update_of_ne same] at still
  · rw [pageHere]
    exact (withoutEntry_fields ..).1.trans used
  · rw [pageHere]
    exact shows.clear entryIn mapped
  · rw [pageInode]
    exact (withoutBlock_fields _).1.trans file.inode.2
  · rw [pageInode]
    exact (withoutBlock_fields _).2.1
  · rw [pageInode, (withoutBlock_fields _).2.2, file.blkNum]
    rw [Option.map_some, Option.getD_some, Option.map_some, Option.getD_some] at total
    exact dword_pred (by omega) (Nat.lt_of_le_of_lt bounded (by decide))
  · have bits : (fs.segments.invalidated blk).isValid blk' =
        (fs.segments.isValid blk' && !decide (blk' = blk)) :=
      SegmentManager.isValid_invalidated ..
    by_cases same : blk' = blk
    · subst same
      refine .inr ⟨entry, entryIn, owned, ?_⟩
      rw [Function.update_self]
      exact (Option.some_ne_none _).symm
    · left
      change (fs.segments.invalidated blk).isValid blk' = true
      rw [bits, old]
      simp [same]

/-- A block of a file without one of its blocks is another block of the file. -/
theorem FileAt.owned_withoutBlock {other : Nat} (below : other < mainBlkNr) :
    Owned (fs.withoutBlock ipage page entry blk) ipage
        (Function.update map slot (some (Function.update entries entry none))) other ↔
      Owned fs ipage map other ∧ other ≠ blk := by
  subst cache
  have node := file.node slot inside entries here
  obtain ⟨-, apart, -⟩ := node.cached cached
  obtain ⟨-, -, owned⟩ := file.blocks slot inside entries here entry entryIn blk mapped
  have slots := slotNid_withoutBlock fs apart entry blk
  have present := update_ne_none here (Function.update entries entry none)
  unfold Owned
  simp only [slots, present]
  constructor
  · rintro (⟨slot', inside', entries', found, entry', entryIn', still⟩ | ⟨slot', inside', some, address⟩)
    · by_cases same : slot' = slot
      · subst same
        rw [Function.update_self, Option.some.injEq] at found
        subst found
        by_cases sameEntry : entry' = entry
        · rw [sameEntry, Function.update_self] at still
          cases still
        · rw [Function.update_of_ne sameEntry] at still
          refine ⟨.inl ⟨slot', inside', entries, here, entry', entryIn', still⟩, fun equal => ?_⟩
          have other' := (file.blocks slot' inside' entries here entry' entryIn' other still).2.2
          rw [equal, owned] at other'
          exact sameEntry (Option.some.inj (congrArg Prod.snd other')).symm
      · rw [Function.update_of_ne same] at found
        refine ⟨.inl ⟨slot', inside', entries', found, entry', entryIn', still⟩, fun equal => ?_⟩
        have other' := (file.blocks slot' inside' entries' found entry' entryIn' other still).2.2
        rw [equal, owned] at other'
        exact same (congrArg Prod.fst other').symm
    · refine ⟨.inr ⟨slot', inside', some, address⟩, fun equal => ?_⟩
      have address' : fs.nat.nat (fs.slotNid ipage slot') = other := address
      rcases file.address slot' inside' some with unwritten | ⟨-, -, other'⟩
      · rw [← address', unwritten] at below
        exact absurd below (by decide)
      · rw [address', equal, owned] at other'
        cases congrArg Prod.snd other'
  · rintro ⟨⟨slot', inside', entries', found, entry', entryIn', still⟩ | address, different⟩
    · by_cases same : slot' = slot
      · subst same
        rw [here, Option.some.injEq] at found
        subst found
        have sameEntry : entry' ≠ entry := by
          rintro rfl
          rw [mapped, Option.some.injEq] at still
          exact different still.symm
        refine .inl ⟨slot', inside', _, Function.update_self .., entry', entryIn', ?_⟩
        rw [Function.update_of_ne sameEntry]
        exact still
      · refine .inl ⟨slot', inside', entries', ?_, entry', entryIn', still⟩
        rw [Function.update_of_ne same]
        exact found
    · exact .inr address

/-- Removing a block changes no bit of another block and no node. -/
theorem FileAt.effect_withoutBlock : Effect fs (fs.withoutBlock ipage page entry blk) ipage map
    (Function.update map slot (some (Function.update entries entry none))) := by
  have node := file.node slot inside entries here
  have apart : page ≠ ipage := cache ▸ (node.cached (cache ▸ cached)).2.1
  have present := update_ne_none here (Function.update entries entry none)
  have kept : ∀ other,
      ¬ Dropped map (Function.update map slot (some (Function.update entries entry none))) other :=
    fun other both => (present other).mpr both.1 both.2
  have owned : ∀ other < mainBlkNr, _ := fun other below =>
    file.owned_withoutBlock inside here cache cached entryIn mapped below
  refine ⟨fun other missing => ?_, fun other below still => ((owned other below).mp still).1,
    fun other below => ?_, fun nid => .inr ⟨?_, rfl⟩, ?_, ?_, fun other otherIn => ?_⟩
  · by_contra some
    exact (present other).mp some missing
  · change (fs.segments.invalidated blk).isValid other = true ↔ _
    rw [SegmentManager.isValid_invalidated, owned other below]
    by_cases same : other = blk
    · have held : Owned fs ipage map other :=
        .inl ⟨slot, inside, entries, here, entry, entryIn, same ▸ mapped⟩
      simp [same, same ▸ held]
    · simp [same]
  · exact fun other _ both => absurd both (kept other)
  · have none : droppedSlots map
        (Function.update map slot (some (Function.update entries entry none))) = ∅ :=
      Finset.filter_eq_empty_iff.mpr fun other _ => kept other
    rw [none, Finset.card_empty, Nat.add_zero]
    rfl
  · have same := congrArg (fun info : PageInfo => info.data.node)
      (withoutBlock_page fs apart entry blk).2.1
    exact ⟨_, _, same.trans (withBlkNum_node ..)⟩
  · rw [if_neg (kept other)]
    exact slotNid_withoutBlock fs apart entry blk other

end WithoutBlock

/-! ## An empty index node -/

/-- The page of an inode without one of its index nodes. -/
def PageInfo.withoutSlot (slot : Nat) (info : PageInfo) : PageInfo :=
  { info with data := { info.data with node := { info.data.node with
    inode := { info.data.node.inode with
      index := Function.update info.data.node.inode.index slot invalidBlk } } } }

/-- The SIT without the block of a node, when the node has been written. -/
def SegmentManager.withoutAddress (manager : SegmentManager) (blk : Nat) : SegmentManager :=
  if blk ≠ invalidBlk ∧ blk ≠ nidInUse then manager.invalidated blk else manager

/-- The bits without the block of a node. -/
theorem isValid_withoutAddress (manager : SegmentManager) (blk : Nat) {other : Nat}
    (below : other < mainBlkNr) : (manager.withoutAddress blk).isValid other =
      (manager.isValid other && !decide (other = blk)) := by
  unfold SegmentManager.withoutAddress
  split
  · exact manager.isValid_invalidated blk other
  · rename_i unwritten
    have apart : other ≠ blk := by
      rintro rfl
      refine unwritten ⟨fun same => ?_, fun same => ?_⟩
      · rw [same] at below
        exact absurd below (by decide)
      · rw [same] at below
        exact absurd below (by decide)
    simp [apart]

/-- The NAT without a node. -/
def NodeAddressTable.withoutNode (table : NodeAddressTable) (nid : Nat) : NodeAddressTable :=
  { table.setEntry nid invalidBlk with freeNr := table.freeNr + 1 }

/-- The file system without one index node of a file. -/
def Fs.withoutNode (fs : Fs) (ipage page slot : Nat) : Fs :=
  let nid := fs.slotNid ipage slot
  let uncached := { fs.nat with nodeCache := Function.update fs.nat.nodeCache nid invalidPage }
  { fs with
    segments := fs.segments.withoutAddress (fs.nat.nat nid)
    nat := uncached.withoutNode nid
    pages := (fs.pages.release page).update ipage (·.withoutSlot slot) }

/-- Giving back a node that is not in the cache. -/
theorem putNode_of_uncached (inside : nid < nodeNr) (uncached : fs.nat.nodeCache nid = invalidPage)
    (counted : fs.segments.Counted)
    (address : fs.nat.nat nid ≠ invalidBlk → fs.nat.nat nid ≠ nidInUse →
      fs.nat.nat nid < mainBlkNr ∧ fs.segments.isValid (fs.nat.nat nid) = true) :
    putNode nid fs = .ok ⟨⟩
      { fs with
        segments := fs.segments.withoutAddress (fs.nat.nat nid)
        nat := fs.nat.withoutNode nid } := by
  have skipped : ¬ fs.nat.nodeCache nid ≠ invalidPage := not_not.mpr uncached
  unfold putNode SegmentManager.withoutAddress
  rw [throwIf_bind_of_not (Nat.not_le.mpr inside), get_bind_apply]
  dsimp only
  by_cases written : fs.nat.nat nid ≠ invalidBlk ∧ fs.nat.nat nid ≠ nidInUse
  · obtain ⟨below, valid⟩ := address written.1 written.2
    obtain ⟨freed, invalidates⟩ := invalidBlock_of_valid counted below valid
    have zoomed : segmentsLens.zoom (invalidBlock (fs.nat.nat nid)) fs =
        .ok freed { fs with segments := fs.segments.invalidated (fs.nat.nat nid) } :=
      Lens.zoom_eq_ok.mpr ⟨_, invalidates, rfl⟩
    rw [if_pos written, doIf_bind_of written, bind_apply, bind_apply, zoomed]
    dsimp only
    rw [pure_apply]
    dsimp only
    rw [get_bind_apply, doIf_bind_of_not skipped]
    rfl
  · rw [if_neg written, doIf_bind_of_not written, get_bind_apply, doIf_bind_of_not skipped]
    rfl

section WithoutNode

variable (file : FileAt fs ipage map owner free) (inside : slot < indexTableSize)
  (here : map slot = some entries) (cache : fs.nat.nodeCache (fs.slotNid ipage slot) = page)
  (cached : page ≠ invalidPage)

include file inside here cache cached

/-- Giving up an index node of a file returns. -/
theorem FileAt.dropIndexNode :
    dropIndexNode ipage page slot fs = .ok ⟨⟩ (fs.withoutNode ipage page slot) := by
  subst cache
  have node := file.node slot inside entries here
  obtain ⟨below, -, used⟩ := node.cached cached
  have shows := file.shows inside here cached
  have some : map slot ≠ none := by
    rw [here]
    exact Option.some_ne_none _
  let page := fs.nat.nodeCache (fs.slotNid ipage slot)
  let nid := fs.slotNid ipage slot
  let uncached : Fs :=
    { fs with nat := { fs.nat with nodeCache := Function.update fs.nat.nodeCache nid invalidPage } }
  let released : Fs := { uncached with pages := fs.pages.release page }
  have frees : pagesLens.zoom (F2fs.free page) uncached = .ok ⟨⟩ released :=
    zoom_free_eq_ok.mpr ⟨used, file.pool.usedNr_ne_zero (file.pool.notMem used) below, rfl⟩
  have puts : putNode nid released = _ := putNode_of_uncached node.inside (Function.update_self ..)
    file.counted fun _ written => by
      rcases file.address slot inside some with unwritten | ⟨blkIn, valid, -⟩
      · exact absurd unwritten written
      · exact ⟨blkIn, valid⟩
  unfold F2fs.dropIndexNode
  rw [getData_bind_apply, shows.nid, throwIf_bind_of_not (Nat.not_le.mpr node.inside)]
  unfold setNodeCache
  rw [modify_bind_apply, bind_apply, frees]
  dsimp only
  rw [bind_apply, puts]
  rfl

/-- The pages without an index node of a file. -/
theorem FileAt.withoutNode_page :
    (fs.withoutNode ipage page slot).pages.page page =
        { (fs.pages.page page).setFreeLink fs.pages.freePtr with inUse := false } ∧
      (fs.withoutNode ipage page slot).pages.page ipage =
        (fs.pages.page ipage).withoutSlot slot ∧
      ∀ other, other ≠ ipage → other ≠ page →
        (fs.withoutNode ipage page slot).pages.page other = fs.pages.page other := by
  have apart : page ≠ ipage :=
    cache ▸ ((file.node slot inside entries here).cached (cache ▸ cached)).2.1
  unfold Fs.withoutNode
  dsimp only
  refine ⟨?_, ?_, fun other notInode notPage => ?_⟩
  · rw [PageAllocator.update_page_of_ne apart, PageAllocator.release_page_self]
  · rw [PageAllocator.update_page_self, PageAllocator.release_page_of_ne (Ne.symm apart)]
  · rw [PageAllocator.update_page_of_ne notInode, PageAllocator.release_page_of_ne notPage]

/-- The slots without an index node of a file. -/
theorem FileAt.slotNid_withoutNode (other : Nat) :
    (fs.withoutNode ipage page slot).slotNid ipage other =
      if other = slot then invalidBlk else fs.slotNid ipage other := by
  have same := congrArg (fun info : PageInfo => info.data.node.inode.index other)
    (file.withoutNode_page inside here cache cached).2.1
  refine same.trans ?_
  change Function.update (fs.pages.page ipage).data.node.inode.index slot invalidBlk other = _
  rw [Function.update_apply]
  rfl

/-- A file without one of its index nodes, which maps nothing. -/
theorem FileAt.withoutNode (empty : mappedCount entries = 0) :
    FileAt (fs.withoutNode ipage page slot) ipage (Function.update map slot none) owner
      (page :: free) := by
  have slots := file.slotNid_withoutNode inside here cache cached
  obtain ⟨-, pageInode, pageOther⟩ := file.withoutNode_page inside here cache cached
  subst cache
  have node := file.node slot inside entries here
  obtain ⟨below, apart, used⟩ := node.cached cached
  have hereSome : map slot ≠ none := by
    rw [here]
    exact Option.some_ne_none _
  have total := mappedTotal_update map inside none
  rw [here, Option.map_some, Option.getD_some, empty, Option.map_none, Option.getD_none] at total
  -- what is left is in other slots
  have left : ∀ other, Function.update map slot none other ≠ none → other ≠ slot ∧
      map other ≠ none := by
    rintro other some
    by_cases same : other = slot
    · rw [same, Function.update_self] at some
      exact absurd rfl some
    · rw [Function.update_of_ne same] at some
      exact ⟨same, some⟩
  have slotsOther : ∀ other, other ≠ slot → (fs.withoutNode ipage (fs.nat.nodeCache
      (fs.slotNid ipage slot)) slot).slotNid ipage other = fs.slotNid ipage other := fun other notSlot => by
    rw [slots, if_neg notSlot]
  have different : ∀ other < indexTableSize, other ≠ slot → map other ≠ none →
      fs.slotNid ipage other ≠ fs.slotNid ipage slot := fun other otherIn notSlot some =>
    (file.apart other otherIn slot inside notSlot some hereSome).1
  have natOther : ∀ other, other ≠ fs.slotNid ipage slot →
      (fs.withoutNode ipage (fs.nat.nodeCache (fs.slotNid ipage slot)) slot).nat.nat other =
        fs.nat.nat other := fun other notNid => Function.update_of_ne notNid ..
  have cacheOther : ∀ other, other ≠ fs.slotNid ipage slot →
      (fs.withoutNode ipage (fs.nat.nodeCache (fs.slotNid ipage slot)) slot).nat.nodeCache other =
        fs.nat.nodeCache other := fun other notNid => Function.update_of_ne notNid ..
  have bits : ∀ other < mainBlkNr, owner other ≠ (slot, none) →
      fs.segments.isValid other = true →
      (fs.withoutNode ipage (fs.nat.nodeCache (fs.slotNid ipage slot)) slot).segments.isValid other =
        true := by
    intro other otherIn notAddress valid
    refine (isValid_withoutAddress _ _ otherIn).trans ?_
    have apart : other ≠ fs.nat.nat (fs.slotNid ipage slot) := by
      rintro rfl
      rcases file.address slot inside hereSome with unwritten | ⟨-, -, address⟩
      · rw [unwritten] at otherIn
        exact absurd otherIn (by decide)
      · exact notAddress address
    simp [valid, apart]
  refine
    { pool := ?_
      room := ?_
      counted := ?_
      inode := ⟨file.inode.1, ?_⟩
      blkNum := ?_
      hole := ?_
      node := ?_
      apart := ?_
      blocks := ?_
      address := ?_ }
  · have notFree := file.pool.notMem used
    refine (file.pool.release notFree below (file.pool.usedNr_ne_zero notFree below)).update ?_ _
    rw [List.mem_cons, not_or]
    exact ⟨Ne.symm apart, file.pool.notMem file.inode.2⟩
  · have fewer : uncachedSlots (fs.withoutNode ipage (fs.nat.nodeCache (fs.slotNid ipage slot)) slot)
        ipage (Function.update map slot none) ⊆ uncachedSlots fs ipage map := by
      intro other member
      unfold uncachedSlots at member ⊢
      rw [Finset.mem_filter, Option.isSome_iff_ne_none] at member ⊢
      obtain ⟨otherIn, some, missing⟩ := member
      obtain ⟨notSlot, old⟩ := left other some
      rw [slotsOther other notSlot,
        cacheOther _ (different other (Finset.mem_range.mp otherIn) notSlot old)] at missing
      exact ⟨otherIn, old, missing⟩
    have count := Finset.card_le_card fewer
    have room := file.room
    rw [List.length_cons]
    omega
  · have address := file.address slot inside hereSome
    change (fs.segments.withoutAddress (fs.nat.nat (fs.slotNid ipage slot))).Counted
    unfold SegmentManager.withoutAddress
    split
    · rename_i written
      rcases address with unwritten | ⟨-, valid, -⟩
      · exact absurd unwritten written.2
      · exact file.counted.invalidated valid
    · exact file.counted
  · rw [pageInode]
    exact file.inode.2
  · rw [pageInode]
    refine file.blkNum.trans ?_
    omega
  · intro other otherIn missing
    rw [slots]
    split
    · rfl
    · rename_i notSlot
      rw [Function.update_of_ne notSlot] at missing
      exact file.hole other otherIn missing
  · intro other otherIn found' found
    obtain ⟨notSlot, old⟩ := left other (by rw [found]; exact Option.some_ne_none _)
    rw [Function.update_of_ne notSlot] at found
    have held := file.node other otherIn found' found
    have notNid := different other otherIn notSlot old
    rw [slotsOther other notSlot]
    refine held.congr (natOther _ notNid) (cacheOther _ notNid) (fun otherCached => ?_) rfl
    refine pageOther _ (held.cached otherCached).2.1 fun same => ?_
    exact (file.apart other otherIn slot inside notSlot old hereSome).2 otherCached same
  · intro first firstIn second secondIn distinct firstSome secondSome
    obtain ⟨firstNot, firstOld⟩ := left first firstSome
    obtain ⟨secondNot, secondOld⟩ := left second secondSome
    rw [slotsOther first firstNot, slotsOther second secondNot,
      cacheOther _ (different first firstIn firstNot firstOld),
      cacheOther _ (different second secondIn secondNot secondOld)]
    exact file.apart first firstIn second secondIn distinct firstOld secondOld
  · intro other otherIn found' found entry entryIn blk mapped
    obtain ⟨notSlot, old⟩ := left other (by rw [found]; exact Option.some_ne_none _)
    rw [Function.update_of_ne notSlot] at found
    obtain ⟨blkIn, valid, owned⟩ := file.blocks other otherIn found' found entry entryIn blk mapped
    refine ⟨blkIn, bits blk blkIn (fun same => ?_) valid, owned⟩
    rw [owned] at same
    exact notSlot (congrArg Prod.fst same)
  · intro other otherIn some
    obtain ⟨notSlot, old⟩ := left other some
    rw [slotsOther other notSlot, natOther _ (different other otherIn notSlot old)]
    rcases file.address other otherIn old with unwritten | ⟨blkIn, valid, owned⟩
    · exact .inl unwritten
    · refine .inr ⟨blkIn, bits _ blkIn (fun same => ?_) valid, owned⟩
      rw [owned] at same
      exact notSlot (congrArg Prod.fst same)

/-- A block of a file without one of its index nodes is another block of the file. -/
theorem FileAt.owned_withoutNode (empty : mappedCount entries = 0) {other : Nat}
    (below : other < mainBlkNr) :
    Owned (fs.withoutNode ipage page slot) ipage (Function.update map slot none) other ↔
      Owned fs ipage map other ∧ other ≠ fs.nat.nat (fs.slotNid ipage slot) := by
  have slots := file.slotNid_withoutNode inside here cache cached
  have hereSome : map slot ≠ none := by
    rw [here]
    exact Option.some_ne_none _
  have address : other = fs.nat.nat (fs.slotNid ipage slot) → owner other = (slot, none) := by
    rintro rfl
    rcases file.address slot inside hereSome with unwritten | ⟨-, -, owned⟩
    · rw [unwritten] at below
      exact absurd below (by decide)
    · exact owned
  have natOther : ∀ other < indexTableSize, other ≠ slot → map other ≠ none →
      (fs.withoutNode ipage page slot).nat.nat (fs.slotNid ipage other) =
        fs.nat.nat (fs.slotNid ipage other) := fun other otherIn notSlot some =>
    Function.update_of_ne (file.apart other otherIn slot inside notSlot some hereSome).1 ..
  constructor
  · rintro (⟨slot', inside', entries', found, entry, entryIn, mapped⟩ | ⟨slot', inside', some, stored⟩)
    · have notSlot : slot' ≠ slot := by
        rintro rfl
        rw [Function.update_self] at found
        cases found
      rw [Function.update_of_ne notSlot] at found
      refine ⟨.inl ⟨slot', inside', entries', found, entry, entryIn, mapped⟩, fun same => ?_⟩
      have owned := (file.blocks slot' inside' entries' found entry entryIn other mapped).2.2
      rw [address same] at owned
      exact notSlot (congrArg Prod.fst owned).symm
    · have notSlot : slot' ≠ slot := by
        rintro rfl
        exact some (Function.update_self ..)
      rw [Function.update_of_ne notSlot] at some
      rw [slots, if_neg notSlot, natOther slot' inside' notSlot some] at stored
      refine ⟨.inr ⟨slot', inside', some, stored⟩, fun same => ?_⟩
      rcases file.address slot' inside' some with unwritten | ⟨-, -, owned⟩
      · rw [← stored, unwritten] at below
        exact absurd below (by decide)
      · rw [stored, address same] at owned
        exact notSlot (congrArg Prod.fst owned).symm
  · rintro ⟨⟨slot', inside', entries', found, entry, entryIn, mapped⟩ |
      ⟨slot', inside', some, stored⟩, notAddress⟩
    · have notSlot : slot' ≠ slot := by
        rintro rfl
        rw [here, Option.some.injEq] at found
        subst found
        rw [FileMap.mappedCount_eq_zero.mp empty entry entryIn] at mapped
        cases mapped
      refine .inl ⟨slot', inside', entries', ?_, entry, entryIn, mapped⟩
      rw [Function.update_of_ne notSlot]
      exact found
    · have notSlot : slot' ≠ slot := by
        rintro rfl
        exact notAddress stored.symm
      refine .inr ⟨slot', inside', ?_, ?_⟩
      · rw [Function.update_of_ne notSlot]
        exact some
      · rw [slots, if_neg notSlot, natOther slot' inside' notSlot some]
        exact stored

/-- Giving up an index node changes no other node. -/
theorem FileAt.effect_withoutNode (empty : mappedCount entries = 0) :
    Effect fs (fs.withoutNode ipage page slot) ipage map (Function.update map slot none) := by
  have slots := file.slotNid_withoutNode inside here cache cached
  have hereSome : map slot ≠ none := by
    rw [here]
    exact Option.some_ne_none _
  have dropped : ∀ other, Dropped map (Function.update map slot none) other ↔ other = slot := by
    intro other
    unfold Dropped
    by_cases same : other = slot
    · rw [same, Function.update_self]
      exact iff_of_true ⟨hereSome, rfl⟩ rfl
    · rw [Function.update_of_ne same]
      exact iff_of_false (fun both => both.1 both.2) same
  refine ⟨fun other missing => ?_,
    fun other below still =>
      ((file.owned_withoutNode inside here cache cached empty below).mp still).1,
    fun other below => ?_, fun nid => ?_, ?_, ?_, fun other otherIn => ?_⟩
  · rw [Function.update_apply, missing, ite_self]
  · have bits := isValid_withoutAddress fs.segments (fs.nat.nat (fs.slotNid ipage slot)) below
    change (fs.segments.withoutAddress _).isValid other = true ↔ _
    rw [bits, file.owned_withoutNode inside here cache cached empty below]
    by_cases same : other = fs.nat.nat (fs.slotNid ipage slot)
    · have held : Owned fs ipage map other := .inr ⟨slot, inside, hereSome, same.symm⟩
      simp [same, same ▸ held]
    · simp [same]
  · by_cases same : nid = fs.slotNid ipage slot
    · subst same
      exact .inl ⟨⟨slot, inside, (dropped slot).mpr rfl, rfl⟩, Function.update_self ..⟩
    · refine .inr ⟨fun other _ gone => ?_, Function.update_of_ne same ..⟩
      rw [(dropped other).mp gone]
      exact Ne.symm same
  · have one : droppedSlots map (Function.update map slot none) = {slot} := by
      unfold droppedSlots
      ext other
      rw [Finset.mem_filter, dropped, Finset.mem_singleton, Finset.mem_range]
      exact ⟨And.right, fun same => ⟨same ▸ inside, same⟩⟩
    rw [one, Finset.card_singleton]
    rfl
  · exact ⟨Function.update (fs.pages.page ipage).data.node.inode.index slot invalidBlk,
      (fs.pages.page ipage).data.node.inode.blkNum, congrArg (fun info : PageInfo => info.data.node)
        (file.withoutNode_page inside here cache cached).2.1⟩
  · rw [slots, if_congr (dropped other) rfl rfl]

end WithoutNode

end FsChecking.F2fs
