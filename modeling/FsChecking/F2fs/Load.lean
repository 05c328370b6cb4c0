import FsChecking.F2fs.Checkpoint
import FsChecking.F2fs.Pool
import FsChecking.Lib.Table

/-!
# What mounting loads

The tables that a storage image holds, as functions of the image: the checkpoint of the slot that
`load_checkpoint` chooses, and each table as its current blocks with the journal replayed over them.
The loading loops are shown to bring exactly these into memory, and to return when the blocks that
they read were written.
-/

namespace FsChecking.F2fs

open Lib

/-- The block at an address, with all bits set where nothing was written. -/
def blockOf (storage : Storage.History BlockData) (lba : Nat) : BlockData :=
  (storedAt storage lba).getD .ones

section Area

variable {ι : Type} (area : Area ι)

/-- The journal entries of a table, oldest first. -/
def Area.journal (ckpt : CkptBlock) : List (Nat × ι) :=
  (List.range (area.journalLen.get ckpt)).map fun index =>
    ((area.journals.get ckpt index).key, (area.journals.get ckpt index).value)

/-- The table in its current blocks. -/
def Area.base (ckpt : CkptBlock) (storage : Storage.History BlockData) (key : Nat) : ι :=
  area.entries.get (blockOf storage (area.block ckpt (key / area.entryPerBlk)))
    (key % area.entryPerBlk)

/-- The table that an image holds under a checkpoint. -/
def Area.stored (ckpt : CkptBlock) (storage : Storage.History BlockData) : Nat → ι :=
  replay (area.journal ckpt) (area.base ckpt storage)

/-- The current blocks of the table were all written. -/
def Area.Mapped (ckpt : CkptBlock) (storage : Storage.History BlockData) : Prop :=
  ∀ blk < area.blkNr, (storedAt storage (area.block ckpt blk)).isSome

/-- The journal fits, and its keys are inside the table. -/
structure Area.JournalSound (ckpt : CkptBlock) : Prop where
  /-- The journal fits into its blocks. -/
  length : area.journalLen.get ckpt ≤ journalNr
  /-- The keys are inside the table. -/
  keys : ∀ index < area.journalLen.get ckpt, (area.journals.get ckpt index).key < area.entryNr

end Area

/-! ## Segments -/

/-- Segments with the SIT entries of a table. -/
def sitOver (segments : Nat → SegmentInfo) (table : Nat → SegInfo) (seg : Nat) : SegmentInfo :=
  if seg < mainSegNr then (segments seg).withSit (table seg) else segments seg

/-- Segments with the summaries of an image. -/
def ssaOver (segments : Nat → SegmentInfo) (storage : Storage.History BlockData) (seg : Nat) :
    SegmentInfo :=
  if seg < mainSegNr then (segments seg).withSsa (blockOf storage (ssaStartBlk + seg)).ssa
  else segments seg

/-- A SIT entry stored over others. -/
theorem sitOver_update {segments : Nat → SegmentInfo} {table : Nat → SegInfo} {seg : Nat}
    (inside : seg < mainSegNr) (entry : SegInfo) :
    Function.update (sitOver segments table) seg ((sitOver segments table seg).withSit entry) =
      sitOver segments (Function.update table seg entry) := by
  funext other
  by_cases here : other = seg
  · subst here
    rw [Function.update_self, sitOver, sitOver, if_pos inside, if_pos inside, Function.update_self]
    rfl
  · rw [Function.update_of_ne here, sitOver, sitOver, Function.update_of_ne here]

namespace SegmentManager

/-- The segments after reading a SIT block. -/
theorem readSitBlock_eq (manager : SegmentManager) (sit : Nat → SegInfo) (blk : Nat) :
    manager.readSitBlock sit blk =
      { manager with segments := fun seg =>
          if seg / sitEntryPerBlk = blk then
            (manager.segments seg).withSit (sit (seg % sitEntryPerBlk))
          else manager.segments seg } := by
  have keys : ((List.range sitEntryPerBlk).map (blk * sitEntryPerBlk + ·)).Nodup :=
    List.nodup_range.map fun _ _ same => Nat.add_left_cancel same
  have loop := foldl_update keys
    (fun seg info => info.withSit (sit (seg % sitEntryPerBlk))) manager.segments
  rw [List.foldl_map] at loop
  have state : ∀ (entries : List Nat) (manager : SegmentManager), (∀ entry ∈ entries, entry < 6) →
      entries.foldl (fun manager entry =>
        manager.readSegInfo (sit entry) (blk * sitEntryPerBlk + entry)) manager =
      { manager with segments := entries.foldl (fun table entry =>
          Function.update table (blk * sitEntryPerBlk + entry)
            ((table (blk * sitEntryPerBlk + entry)).withSit
              (sit ((blk * sitEntryPerBlk + entry) % sitEntryPerBlk)))) manager.segments } := by
    intro entries
    induction entries with
    | nil => exact fun _ _ => rfl
    | cons entry rest ih =>
      intro manager small
      have place : (blk * sitEntryPerBlk + entry) % sitEntryPerBlk = entry := by
        have := small entry List.mem_cons_self
        show (blk * 6 + entry) % 6 = entry
        omega
      rw [List.foldl_cons, List.foldl_cons,
        ih _ fun other member => small other (List.mem_cons_of_mem _ member), place]
      rfl
  rw [readSitBlock, state _ _ fun entry member => List.mem_range.mp member, loop]
  congr 1
  funext seg
  have same : seg ∈ (List.range sitEntryPerBlk).map (blk * sitEntryPerBlk + ·) ↔
      seg / sitEntryPerBlk = blk := by
    simp only [List.mem_map, List.mem_range]
    constructor
    · rintro ⟨entry, small, rfl⟩
      show (blk * 6 + entry) / 6 = blk
      have : entry < 6 := small
      omega
    · rintro rfl
      refine ⟨seg % 6, Nat.mod_lt _ (by decide), ?_⟩
      show seg / 6 * 6 + seg % 6 = seg
      omega
  simp only [same]

/-- The segments that an image holds under a checkpoint, before the free ones are linked. -/
def loaded (manager : SegmentManager) (ckpt : CkptBlock)
    (storage : Storage.History BlockData) : SegmentManager :=
  { manager with
    segments := ssaOver (sitOver manager.segments (sitArea.stored ckpt storage)) storage
    curSegs := ckpt.header.curSegs
    dirtyMap := fun _ => 0 }

end SegmentManager

/-- A page pool in which only the content of one page differs. -/
structure OnlyPage (page : Nat) (before after : PageAllocator) : Prop where
  /-- The first free page. -/
  freePtr : after.freePtr = before.freePtr
  /-- The number of pages in use. -/
  usedNr : after.usedNr = before.usedNr
  /-- The page stays in use. -/
  inUse : (after.page page).inUse = (before.page page).inUse
  /-- The other pages. -/
  others : ∀ other, other ≠ page → after.page other = before.page other

namespace OnlyPage

variable {page : Nat} {before middle after : PageAllocator}

/-- Nothing differs. -/
theorem refl (page : Nat) (pool : PageAllocator) : OnlyPage page pool pool :=
  ⟨rfl, rfl, rfl, fun _ _ => rfl⟩

/-- One difference after another. -/
theorem trans (left : OnlyPage page before middle) (right : OnlyPage page middle after) :
    OnlyPage page before after :=
  ⟨right.freePtr.trans left.freePtr, right.usedNr.trans left.usedNr,
    right.inUse.trans left.inUse, fun other apart =>
      (right.others other apart).trans (left.others other apart)⟩

/-- Storing data in the page. -/
theorem data (pool : PageAllocator) (data : BlockData) :
    OnlyPage page pool (pool.update page fun info => { info with data }) := by
  refine ⟨rfl, rfl, ?_, fun other apart => ?_⟩
  · simp [PageAllocator.update]
  · simp [PageAllocator.update, apart]

end OnlyPage

/-- Loading changes the tables in memory and pages, and nothing else. -/
structure TableFrame (before after : Fs) : Prop where
  /-- Nothing else changes. -/
  frame : after =
    { before with pages := after.pages, segments := after.segments, nat := after.nat }

namespace TableFrame

variable {before middle after : Fs}

/-- Nothing changes. -/
theorem refl (fs : Fs) : TableFrame fs fs := ⟨rfl⟩

/-- One change after another. -/
theorem trans (left : TableFrame before middle) (right : TableFrame middle after) :
    TableFrame before after := ⟨by rw [right.frame, left.frame]⟩

/-- The storage does not change. -/
theorem storage (frame : TableFrame before after) : after.storage = before.storage := by
  rw [frame.frame]

/-- The checkpoint in memory does not change. -/
theorem checkpoint (frame : TableFrame before after) : after.checkpoint = before.checkpoint := by
  rw [frame.frame]

end TableFrame

/-- When `loadSitBlock` returns. -/
theorem loadSitBlock_eq_ok {page blk : Nat} {fs fs' : Fs} {result : Unit} :
    loadSitBlock page blk fs = .ok result fs' ↔
      ∃ data, storedAt fs.storage (sitArea.block fs.checkpoint blk) = some data ∧
        fs' = { fs with
          pages := fs.pages.update page (fun info => { info with data })
          segments := fs.segments.readSitBlock data.sit blk } := by
  simp only [loadSitBlock, get_bind_apply, bind_eq_ok, readInto_eq_ok]
  constructor
  · rintro ⟨_, _, ⟨data, found, rfl⟩, _, _, got, done⟩
    cases got
    cases done
    exact ⟨data, found, by simp [segmentsLens, PageAllocator.update]⟩
  · rintro ⟨data, found, rfl⟩
    refine ⟨(), _, ⟨data, found, rfl⟩, _, _, rfl, ?_⟩
    simp [modifySegments, Lens.zoom, segmentsLens, PageAllocator.update]

/-- Reading the SIT blocks. -/
theorem loadSitBlocks_spec (page : Nat) (fs : Fs) :
    (sitArea.Mapped fs.checkpoint fs.storage →
      ∃ fs', (List.range sitBlkNr).forM (loadSitBlock page) fs = .ok () fs') ∧
    ∀ fs', (List.range sitBlkNr).forM (loadSitBlock page) fs = .ok () fs' →
      sitArea.Mapped fs.checkpoint fs.storage ∧ OnlyPage page fs.pages fs'.pages ∧
      TableFrame fs fs' ∧ fs'.nat = fs.nat ∧ fs'.segments = { fs.segments with
        segments := sitOver fs.segments.segments (sitArea.base fs.checkpoint fs.storage) } := by
  have loop := forM_spec (List.range sitBlkNr) (loadSitBlock page) fs
    (fun done s => OnlyPage page fs.pages s.pages ∧
      s = { fs with
        pages := s.pages
        segments :=
          { fs.segments with
            segments := fun seg =>
              if seg / sitEntryPerBlk ∈ done then
                (fs.segments.segments seg).withSit (sitArea.base fs.checkpoint fs.storage seg)
              else fs.segments.segments seg } })
    (fun blk => (storedAt fs.storage (sitArea.block fs.checkpoint blk)).isSome)
    ⟨.refl _ _, by simp⟩ ?_
  · refine ⟨fun mapped => loop.1 fun blk member => mapped blk (List.mem_range.mp member), ?_⟩
    intro fs' run
    obtain ⟨mapped, pages, final⟩ := loop.2 fs' run
    refine ⟨fun blk inside => mapped blk (List.mem_range.mpr inside), pages, ⟨?_⟩, ?_, ?_⟩ <;>
      rw [final]
    have inside : ∀ seg, seg / sitEntryPerBlk ∈ List.range sitBlkNr ↔ seg < mainSegNr := by
      intro seg
      rw [List.mem_range]
      show seg / 6 < 10 ↔ seg < 60
      omega
    simp only [inside]
    rfl
  · rintro done blk _ s - ⟨pages, same⟩
    have storage : s.storage = fs.storage := by rw [same]
    have checkpoint : s.checkpoint = fs.checkpoint := by rw [same]
    constructor
    · intro mapped
      obtain ⟨data, found⟩ := Option.isSome_iff_exists.mp mapped
      exact ⟨_, loadSitBlock_eq_ok.mpr ⟨data, by rw [storage, checkpoint]; exact found, rfl⟩⟩
    · intro s' run
      obtain ⟨data, found, rfl⟩ := loadSitBlock_eq_ok.mp run
      rw [storage, checkpoint] at found
      refine ⟨by rw [found]; rfl, pages.trans (.data _ _), ?_⟩
      have base : ∀ seg, seg / sitEntryPerBlk = blk →
          data.sit (seg % sitEntryPerBlk) = sitArea.base fs.checkpoint fs.storage seg := by
        rintro seg rfl
        show _ = (blockOf fs.storage (sitArea.block fs.checkpoint (seg / sitEntryPerBlk))).sit _
        rw [blockOf, found]
        rfl
      rw [SegmentManager.readSitBlock_eq, same]
      simp only [List.mem_append, List.mem_singleton]
      congr 2
      funext seg
      by_cases here : seg / sitEntryPerBlk = blk
      · rw [if_pos here, if_pos (Or.inr here), base seg here]
        split <;> rfl
      · simp only [here, or_false, if_false]

/-- When `loadSitJournal` returns. -/
theorem loadSitJournal_eq_ok {index : Nat} {fs fs' : Fs} {result : Unit} :
    loadSitJournal index fs = .ok result fs' ↔
      (fs.checkpoint.sitJournals index).key < mainSegNr ∧
        fs' = { fs with
          segments := fs.segments.readSegInfo (fs.checkpoint.sitJournals index).value
            (fs.checkpoint.sitJournals index).key } := by
  simp only [loadSitJournal, get_bind_apply, throwIf_bind_eq_ok, ge_iff_le, not_le]
  refine and_congr_right fun _ => ⟨fun run => ?_, ?_⟩
  · cases run
    rfl
  · rintro rfl
    rfl

/-- Replaying the SIT journal. -/
theorem loadSitJournals_spec (fs : Fs) (orig : Nat → SegmentInfo) (table : Nat → SegInfo)
    (start : fs.segments.segments = sitOver orig table) :
    ((∀ index < fs.checkpoint.header.sitJournalNr,
        (fs.checkpoint.sitJournals index).key < mainSegNr) →
      ∃ fs', (List.range fs.checkpoint.header.sitJournalNr).forM loadSitJournal fs = .ok () fs') ∧
    ∀ fs', (List.range fs.checkpoint.header.sitJournalNr).forM loadSitJournal fs = .ok () fs' →
      (∀ index < fs.checkpoint.header.sitJournalNr,
        (fs.checkpoint.sitJournals index).key < mainSegNr) ∧
      TableFrame fs fs' ∧ fs'.pages = fs.pages ∧ fs'.nat = fs.nat ∧
      fs'.segments = { fs.segments with
        segments := sitOver orig (replay (sitArea.journal fs.checkpoint) table) } := by
  have loop := forM_spec (List.range fs.checkpoint.header.sitJournalNr) loadSitJournal fs
    (fun done s => s = { fs with segments :=
      { fs.segments with
        segments := sitOver orig (replay (done.map fun index =>
          ((fs.checkpoint.sitJournals index).key, (fs.checkpoint.sitJournals index).value))
          table) } })
    (fun index => (fs.checkpoint.sitJournals index).key < mainSegNr)
    (by rw [List.map_nil]; show fs = { fs with segments := _ }; rw [replay, List.foldl_nil, ← start])
    ?_
  · refine ⟨fun inside => loop.1 fun index member => inside index (List.mem_range.mp member), ?_⟩
    intro fs' run
    obtain ⟨inside, final⟩ := loop.2 fs' run
    refine ⟨fun index small => inside index (List.mem_range.mpr small), ⟨?_⟩, ?_, ?_, ?_⟩ <;>
      rw [final]
    rfl
  · rintro done index _ s - rfl
    constructor
    · exact fun inside => ⟨_, loadSitJournal_eq_ok.mpr ⟨inside, rfl⟩⟩
    · intro s' run
      obtain ⟨inside, rfl⟩ := loadSitJournal_eq_ok.mp run
      refine ⟨inside, ?_⟩
      rw [List.map_append, List.map_singleton, replay_append_singleton, ← sitOver_update inside,
        SegmentManager.readSegInfo, SegmentManager.updateSeg]

/-- When `loadSummary` returns. -/
theorem loadSummary_eq_ok {page seg : Nat} {fs fs' : Fs} {result : Unit} :
    loadSummary page seg fs = .ok result fs' ↔
      ∃ data, storedAt fs.storage (ssaStartBlk + seg) = some data ∧
        fs' = { fs with
          pages := fs.pages.update page (fun info => { info with data })
          segments := fs.segments.updateSeg seg (·.withSsa data.ssa) } := by
  simp only [loadSummary, bind_eq_ok, readInto_eq_ok]
  constructor
  · rintro ⟨_, _, ⟨data, found, rfl⟩, _, _, got, done⟩
    cases got
    cases done
    exact ⟨data, found, by simp [segmentsLens, PageAllocator.update]⟩
  · rintro ⟨data, found, rfl⟩
    refine ⟨(), _, ⟨data, found, rfl⟩, _, _, rfl, ?_⟩
    simp [modifySegments, Lens.zoom, segmentsLens, PageAllocator.update]

/-- Reading the summaries. -/
theorem loadSummaries_spec (page : Nat) (fs : Fs) :
    ((∀ seg < mainSegNr, (storedAt fs.storage (ssaStartBlk + seg)).isSome) →
      ∃ fs', (List.range mainSegNr).forM (loadSummary page) fs = .ok () fs') ∧
    ∀ fs', (List.range mainSegNr).forM (loadSummary page) fs = .ok () fs' →
      (∀ seg < mainSegNr, (storedAt fs.storage (ssaStartBlk + seg)).isSome) ∧
      OnlyPage page fs.pages fs'.pages ∧ TableFrame fs fs' ∧ fs'.nat = fs.nat ∧
      fs'.segments = { fs.segments with segments := ssaOver fs.segments.segments fs.storage } := by
  have loop := forM_spec (List.range mainSegNr) (loadSummary page) fs
    (fun done s => OnlyPage page fs.pages s.pages ∧
      s = { fs with
        pages := s.pages
        segments :=
          { fs.segments with
            segments := fun seg =>
              if seg ∈ done then
                (fs.segments.segments seg).withSsa (blockOf fs.storage (ssaStartBlk + seg)).ssa
              else fs.segments.segments seg } })
    (fun seg => (storedAt fs.storage (ssaStartBlk + seg)).isSome) ⟨.refl _ _, by simp⟩ ?_
  · refine ⟨fun mapped => loop.1 fun seg member => mapped seg (List.mem_range.mp member), ?_⟩
    intro fs' run
    obtain ⟨mapped, pages, final⟩ := loop.2 fs' run
    refine ⟨fun seg inside => mapped seg (List.mem_range.mpr inside), pages, ⟨?_⟩, ?_, ?_⟩ <;>
      rw [final]
    simp only [List.mem_range]
    rfl
  · rintro done seg _ s - ⟨pages, same⟩
    have storage : s.storage = fs.storage := by rw [same]
    constructor
    · intro mapped
      obtain ⟨data, found⟩ := Option.isSome_iff_exists.mp mapped
      exact ⟨_, loadSummary_eq_ok.mpr ⟨data, by rw [storage]; exact found, rfl⟩⟩
    · intro s' run
      obtain ⟨data, found, rfl⟩ := loadSummary_eq_ok.mp run
      rw [storage] at found
      refine ⟨by rw [found]; rfl, pages.trans (.data _ _), ?_⟩
      have here : (blockOf fs.storage (ssaStartBlk + seg)).ssa = data.ssa := by
        rw [blockOf, found]
        rfl
      rw [SegmentManager.updateSeg, same]
      simp only [List.mem_append, List.mem_singleton]
      congr 2
      funext other
      by_cases same : other = seg
      · subst same
        rw [Function.update_self, if_pos (Or.inr rfl), here]
        split <;> rfl
      · rw [Function.update_of_ne same]
        simp only [same, or_false]

/-- The blocks that `CF2fsSegmentManager::Load` reads are there, and the SIT journal is sound. -/
structure SegmentsReadable (ckpt : CkptBlock) (storage : Storage.History BlockData) : Prop where
  /-- The SIT blocks. -/
  sit : sitArea.Mapped ckpt storage
  /-- The SIT journal. -/
  journal : sitArea.JournalSound ckpt
  /-- The summary blocks. -/
  ssa : ∀ seg < mainSegNr, (storedAt storage (ssaStartBlk + seg)).isSome

/-- What `CF2fsSegmentManager::Load` brings into memory. -/
theorem loadSegments_ok {fs fs' : Fs} {result : Unit} (run : loadSegments fs = .ok result fs') :
    SegmentsReadable fs.checkpoint fs.storage ∧ TableFrame fs fs' ∧ fs'.nat = fs.nat ∧
      fs'.segments = (fs.segments.loaded fs.checkpoint fs.storage).buildFreeLink := by
  simp only [loadSegments, bind_eq_ok, get_bind_apply] at run
  obtain ⟨page, fs₁, allocated, _, fs₂, sitRead, _, fs₄, heads, _, fs₃, fits, _, fs₅, replayed, _,
    fs₆, summarized, _, fs₇, freed, _, fs₈, cleaned, linked⟩ := run
  obtain ⟨-, -, rfl, same₁⟩ := zoom_allocate_eq_ok.mp allocated
  have frame₁ : TableFrame fs fs₁ := ⟨by rw [same₁]⟩
  obtain ⟨mapped, -, frame₂, nat₂, segments₂⟩ := (loadSitBlocks_spec _ _).2 _ sitRead
  have frame₂ := frame₁.trans frame₂
  obtain ⟨small, rfl⟩ := throwIf_eq_ok.mp fits
  have heads₃ : fs₃ = { fs₂ with
      segments := { fs₂.segments with curSegs := fs₂.checkpoint.header.curSegs } } := by
    cases heads
    rfl
  have frame₃ : TableFrame fs fs₃ := frame₂.trans ⟨by rw [heads₃]⟩
  have header : fs₂.checkpoint = fs₃.checkpoint := frame₂.checkpoint.trans frame₃.checkpoint.symm
  rw [header] at replayed small
  obtain ⟨keys, frame₅, -, nat₅, segments₅⟩ := (loadSitJournals_spec _ fs.segments.segments
    (sitArea.base fs.checkpoint fs.storage) (by
      rw [heads₃, segments₂, frame₁.checkpoint, frame₁.storage, same₁])).2 _ replayed
  have frame₅ := frame₃.trans frame₅
  obtain ⟨ssa, -, frame₆, nat₆, segments₆⟩ := (loadSummaries_spec _ _).2 _ summarized
  have frame₆ := frame₅.trans frame₆
  obtain ⟨-, -, same₇⟩ := zoom_free_eq_ok.mp freed
  have same₈ : fs₈ = { fs₇ with segments := { fs₇.segments with dirtyMap := fun _ => 0 } } := by
    cases cleaned
    rfl
  have same : fs' = { fs₈ with segments := fs₈.segments.buildFreeLink } := by
    cases linked
    rfl
  refine ⟨⟨?_, ⟨?_, ?_⟩, ?_⟩, ?_, ?_, ?_⟩
  · rw [frame₁.checkpoint, frame₁.storage] at mapped
    exact mapped
  · rw [frame₃.checkpoint] at small
    exact Nat.le_of_not_lt small
  · rw [frame₃.checkpoint] at keys
    exact keys
  · rw [frame₅.storage] at ssa
    exact ssa
  · exact frame₆.trans ⟨by rw [same, same₈, same₇]⟩
  · rw [same, same₈, same₇, nat₆, nat₅, heads₃, nat₂, same₁]
  · have linked : fs'.segments = fs₈.segments.buildFreeLink := by rw [same]
    have cleaned : fs₈.segments = { fs₆.segments with dirtyMap := fun _ => 0 } := by
      rw [same₈, same₇]
    have heads : fs₃.segments = { fs₂.segments with curSegs := fs.checkpoint.header.curSegs } := by
      rw [heads₃, frame₂.checkpoint]
    have start : fs₁.segments = fs.segments := by rw [same₁]
    rw [linked, cleaned, segments₆, segments₅, heads, segments₂, frame₅.storage, frame₃.checkpoint,
      start]
    rfl

/-- A page pool in which one page was in use and has been given back. -/
theorem FreePages.returned {pool pool' : PageAllocator} {page : Nat} {rest : List Nat}
    (free : FreePages pool (page :: rest)) (only : OnlyPage page pool.take pool') :
    (pool'.page page).inUse = true ∧ pool'.usedNr ≠ 0 ∧
      FreePages (pool'.release page) (page :: rest) ∧
      ∀ other, other ≠ page → (pool'.release page).page other = pool.page other := by
  obtain ⟨start, inside⟩ := free.head
  have apart := (List.nodup_cons.mp free.nodup).1
  have counted : pool'.usedNr ≠ 0 := by
    rw [only.usedNr]
    exact Nat.succ_ne_zero _
  refine ⟨?_, counted, ?_, ?_⟩
  · rw [only.inUse, ← start, PageAllocator.take_page_self]
    rfl
  · refine FreePages.release ?_ apart inside counted
    exact free.take.congr only.freePtr only.usedNr fun other member =>
      only.others other fun same => apart (same ▸ member)
  · intro other far
    rw [PageAllocator.release_page_of_ne far, only.others other far,
      PageAllocator.take_page_of_ne (start ▸ far)]

/-- `CF2fsSegmentManager::Load` returns when it can read its blocks and there is a free page. -/
theorem loadSegments_runs {fs : Fs} {page : Nat} {rest : List Nat}
    (free : FreePages fs.pages (page :: rest))
    (readable : SegmentsReadable fs.checkpoint fs.storage) :
    ∃ fs', loadSegments fs = .ok () fs' ∧ FreePages fs'.pages (page :: rest) ∧
      ∀ other, other ≠ page → fs'.pages.page other = fs.pages.page other := by
  obtain ⟨fs₂, sitRead⟩ := (loadSitBlocks_spec page { fs with pages := fs.pages.take }).1
    readable.sit
  obtain ⟨-, only₂, frame₂, -, segments₂⟩ := (loadSitBlocks_spec page _).2 _ sitRead
  have ckpt₂ : fs₂.checkpoint = fs.checkpoint := frame₂.checkpoint
  have storage₂ : fs₂.storage = fs.storage := frame₂.storage
  let fs₃ : Fs := { fs₂ with
    segments := { fs₂.segments with curSegs := fs₂.checkpoint.header.curSegs } }
  have journals := loadSitJournals_spec fs₃ fs.segments.segments
    (sitArea.base fs.checkpoint fs.storage) (by
      show fs₂.segments.segments = _
      rw [segments₂])
  obtain ⟨fs₅, replayed⟩ := journals.1 (by
    show ∀ index < fs₂.checkpoint.header.sitJournalNr, (fs₂.checkpoint.sitJournals index).key < _
    rw [ckpt₂]
    exact readable.journal.keys)
  obtain ⟨-, frame₅, pages₅, -⟩ := journals.2 _ replayed
  obtain ⟨fs₆, summarized⟩ := (loadSummaries_spec page fs₅).1 (by
    rw [frame₅.storage]
    show ∀ seg < mainSegNr, (storedAt fs₂.storage (ssaStartBlk + seg)).isSome
    rw [storage₂]
    exact readable.ssa)
  obtain ⟨-, only₆, -⟩ := (loadSummaries_spec page fs₅).2 _ summarized
  rw [pages₅] at only₆
  obtain ⟨used, counted, free', others⟩ := free.returned (only₂.trans only₆)
  refine ⟨{ fs₆ with
    pages := fs₆.pages.release page
    segments := { fs₆.segments with dirtyMap := fun _ => 0 }.buildFreeLink }, ?_, free', others⟩
  simp only [loadSegments, bind_eq_ok, get_bind_apply]
  refine ⟨page, _, free.zoom_allocate, (), fs₂, sitRead, (), fs₃, rfl, (), fs₃, ?_, (), fs₅,
    replayed, (), fs₆, summarized, (), _, zoom_free_eq_ok.mpr ⟨used, counted, rfl⟩, (), _, rfl, rfl⟩
  rw [throwIf_eq_ok, ckpt₂]
  exact ⟨Nat.not_lt.mpr readable.journal.length, rfl⟩

/-! ## Node addresses -/

/-- Node addresses with the entries of a table. -/
def natOver (nat table : Nat → Nat) (nid : Nat) : Nat := if nid < nodeNr then table nid else nat nid

/-- An address stored over others. -/
theorem natOver_update {nat table : Nat → Nat} {nid : Nat} (inside : nid < nodeNr) (blk : Nat) :
    Function.update (natOver nat table) nid blk = natOver nat (Function.update table nid blk) := by
  funext other
  by_cases here : other = nid
  · subst here
    rw [Function.update_self, natOver, if_pos inside, Function.update_self]
  · rw [Function.update_of_ne here, natOver, natOver, Function.update_of_ne here]

/-- The node address table that an image holds under a checkpoint. -/
def NodeAddressTable.loaded (table : NodeAddressTable) (ckpt : CkptBlock)
    (storage : Storage.History BlockData) : NodeAddressTable :=
  { buildFree { table with nat := natOver table.nat (natArea.stored ckpt storage) } with
    dirty := fun _ => 0 }

/-- The blocks that `CNodeAddressTable::Load` reads are there, and the NAT journal is sound. -/
structure NatReadable (ckpt : CkptBlock) (storage : Storage.History BlockData) : Prop where
  /-- The NAT blocks. -/
  nat : natArea.Mapped ckpt storage
  /-- The NAT journal. -/
  journal : natArea.JournalSound ckpt

/-- When `loadNatBlock` returns. -/
theorem loadNatBlock_eq_ok {blk : Nat} {fs fs' : Fs} {result : Unit} :
    loadNatBlock blk fs = .ok result fs' ↔
      fs.pages.usedNr < maxPageNum ∧ fs.pages.freePtr < maxPageNum ∧
      ∃ data, storedAt fs.storage (natArea.block fs.checkpoint blk) = some data ∧
        fs' = { fs with
          pages := fs.pages.take.update fs.pages.freePtr (fun info => { info with data })
          nat := { fs.nat with
            nat := fun nid => if nid / natEntryPerBlk = blk then data.nat (nid % natEntryPerBlk)
              else fs.nat.nat nid } } := by
  simp only [loadNatBlock, bind_eq_ok, zoom_allocate_eq_ok, get_bind_apply, readInto_eq_ok]
  constructor
  · rintro ⟨_, _, ⟨room, inside, rfl, rfl⟩, _, _, ⟨data, found, rfl⟩, _, _, got, done⟩
    cases got
    cases done
    refine ⟨room, inside, data, found, ?_⟩
    simp [natLens, PageAllocator.update]
  · rintro ⟨room, inside, data, found, rfl⟩
    refine ⟨_, _, ⟨room, inside, rfl, rfl⟩, (), _, ⟨data, found, rfl⟩, _, _, rfl, ?_⟩
    simp [modifyNat, Lens.zoom, natLens, PageAllocator.update]

/-- What one NAT block adds to the table. -/
theorem natBlock_step {fs : Fs} {blk : Nat} {done : List Nat} {data : BlockData}
    (found : storedAt fs.storage (natArea.block fs.checkpoint blk) = some data)
    (orig : Nat → Nat) :
    (fun nid => if nid / natEntryPerBlk = blk then data.nat (nid % natEntryPerBlk)
      else if nid / natEntryPerBlk ∈ done then natArea.base fs.checkpoint fs.storage nid
      else orig nid) =
    fun nid => if nid / natEntryPerBlk ∈ done ++ [blk] then
      natArea.base fs.checkpoint fs.storage nid else orig nid := by
  funext nid
  by_cases here : nid / natEntryPerBlk = blk
  · have base : natArea.base fs.checkpoint fs.storage nid = data.nat (nid % natEntryPerBlk) := by
      show (blockOf fs.storage (natArea.block fs.checkpoint (nid / natEntryPerBlk))).nat _ = _
      rw [blockOf, here, found]
      rfl
    simp [here, base]
  · simp [here]

/-- Reading the NAT blocks: what it brings, for a run that returns. -/
theorem loadNatBlocks_ok {fs fs' : Fs}
    (run : (List.range natBlkNr).forM loadNatBlock fs = .ok () fs') :
    natArea.Mapped fs.checkpoint fs.storage ∧ TableFrame fs fs' ∧ fs'.segments = fs.segments ∧
      fs'.nat = { fs.nat with
        nat := natOver fs.nat.nat (natArea.base fs.checkpoint fs.storage) } := by
  have loop := forM_ok (fun done s =>
    (∀ blk ∈ done, (storedAt fs.storage (natArea.block fs.checkpoint blk)).isSome) ∧
      TableFrame fs s ∧ s.segments = fs.segments ∧ s.nat = { fs.nat with
        nat := fun nid => if nid / natEntryPerBlk ∈ done then
          natArea.base fs.checkpoint fs.storage nid else fs.nat.nat nid })
    ⟨by simp, .refl _, rfl, by simp⟩ ?_ run
  · obtain ⟨mapped, frame, segments, table⟩ := loop
    refine ⟨fun blk inside => mapped blk (List.mem_range.mpr inside), frame, segments, ?_⟩
    have inside : ∀ nid, nid / natEntryPerBlk ∈ List.range natBlkNr ↔ nid < nodeNr := by
      intro nid
      rw [List.mem_range]
      show nid / 32 < 4 ↔ nid < 128
      omega
    simp only [inside] at table
    exact table
  · rintro done blk s s' - ⟨mapped, frame, segments, table⟩ one
    obtain ⟨-, -, data, found, rfl⟩ := loadNatBlock_eq_ok.mp one
    rw [frame.storage, frame.checkpoint] at found
    refine ⟨?_, frame.trans ⟨rfl⟩, segments, ?_⟩
    · intro other among
      rw [List.mem_append, List.mem_singleton] at among
      cases among with
      | inl before => exact mapped other before
      | inr same =>
        rw [same, found]
        rfl
    · rw [table, ← natBlock_step found]

/-- When `loadNatJournal` returns. -/
theorem loadNatJournal_eq_ok {index : Nat} {fs fs' : Fs} {result : Unit} :
    loadNatJournal index fs = .ok result fs' ↔
      (fs.checkpoint.natJournals index).key < nodeNr ∧
        fs' = { fs with
          nat := { fs.nat with
            nat := Function.update fs.nat.nat (fs.checkpoint.natJournals index).key
              (fs.checkpoint.natJournals index).value } } := by
  simp only [loadNatJournal, get_bind_apply, throwIf_bind_eq_ok, ge_iff_le, not_le]
  refine and_congr_right fun _ => ⟨fun run => ?_, ?_⟩
  · cases run
    rfl
  · rintro rfl
    rfl

/-- Replaying the NAT journal. -/
theorem loadNatJournals_spec (fs : Fs) (orig table : Nat → Nat)
    (start : fs.nat.nat = natOver orig table) :
    ((∀ index < fs.checkpoint.header.natJournalNr,
        (fs.checkpoint.natJournals index).key < nodeNr) →
      ∃ fs', (List.range fs.checkpoint.header.natJournalNr).forM loadNatJournal fs = .ok () fs') ∧
    ∀ fs', (List.range fs.checkpoint.header.natJournalNr).forM loadNatJournal fs = .ok () fs' →
      (∀ index < fs.checkpoint.header.natJournalNr,
        (fs.checkpoint.natJournals index).key < nodeNr) ∧
      fs' = { fs with
        nat := { fs.nat with
          nat := natOver orig (replay (natArea.journal fs.checkpoint) table) } } := by
  have loop := forM_spec (List.range fs.checkpoint.header.natJournalNr) loadNatJournal fs
    (fun done s => s = { fs with
      nat := { fs.nat with
        nat := natOver orig (replay (done.map fun index =>
          ((fs.checkpoint.natJournals index).key, (fs.checkpoint.natJournals index).value))
          table) } })
    (fun index => (fs.checkpoint.natJournals index).key < nodeNr)
    (by rw [List.map_nil]; show fs = { fs with nat := _ }; rw [replay, List.foldl_nil, ← start])
    ?_
  · refine ⟨fun inside => loop.1 fun index member => inside index (List.mem_range.mp member), ?_⟩
    intro fs' run
    obtain ⟨inside, final⟩ := loop.2 fs' run
    exact ⟨fun index small => inside index (List.mem_range.mpr small), final⟩
  · rintro done index _ s - rfl
    constructor
    · exact fun inside => ⟨_, loadNatJournal_eq_ok.mpr ⟨inside, rfl⟩⟩
    · intro s' run
      obtain ⟨inside, rfl⟩ := loadNatJournal_eq_ok.mp run
      refine ⟨inside, ?_⟩
      rw [List.map_append, List.map_singleton, replay_append_singleton, ← natOver_update inside]

/-- What `CNodeAddressTable::Load` brings into memory. -/
theorem loadNat_ok {fs fs' : Fs} {result : Unit} (run : loadNat fs = .ok result fs') :
    NatReadable fs.checkpoint fs.storage ∧ TableFrame fs fs' ∧ fs'.segments = fs.segments ∧
      fs'.nat = fs.nat.loaded fs.checkpoint fs.storage := by
  simp only [loadNat, bind_eq_ok, get_bind_apply] at run
  obtain ⟨_, fs₁, read, _, fs₂, fits, _, fs₃, replayed, _, fs₄, built, cleaned⟩ := run
  obtain ⟨mapped, frame₁, segments₁, table₁⟩ := loadNatBlocks_ok read
  obtain ⟨small, same⟩ := throwIf_eq_ok.mp fits
  rw [same] at replayed
  obtain ⟨keys, same₃⟩ := (loadNatJournals_spec _ fs.nat.nat
    (natArea.base fs.checkpoint fs.storage) (by rw [table₁])).2 _ replayed
  have final : fs' = { fs₃ with nat := { fs₃.nat.buildFree with dirty := fun _ => 0 } } := by
    cases built
    cases cleaned
    rfl
  have segments : fs'.segments = fs₁.segments := by rw [final, same₃]
  have table : fs'.nat = { fs₃.nat.buildFree with dirty := fun _ => 0 } := by rw [final]
  have table₃ : fs₃.nat = { fs₁.nat with
      nat := natOver fs.nat.nat (replay (natArea.journal fs.checkpoint)
        (natArea.base fs.checkpoint fs.storage)) } := by
    rw [same₃, frame₁.checkpoint]
  refine ⟨⟨mapped, ⟨?_, ?_⟩⟩, frame₁.trans ⟨by rw [final, same₃]⟩, segments.trans segments₁, ?_⟩
  · rw [frame₁.checkpoint] at small
    exact Nat.le_of_not_lt small
  · rw [frame₁.checkpoint] at keys
    exact keys
  · rw [table, table₃, table₁]
    rfl

/-- Reading the NAT blocks returns when they are there and there are pages for them. -/
theorem loadNatBlocks_runs {fs : Fs} {pages rest : List Nat}
    (free : FreePages fs.pages (pages ++ rest)) (enough : pages.length = natBlkNr)
    (mapped : natArea.Mapped fs.checkpoint fs.storage) :
    ∃ fs', (List.range natBlkNr).forM loadNatBlock fs = .ok () fs' ∧ FreePages fs'.pages rest ∧
      ∀ other, other ∉ pages → fs'.pages.page other = fs.pages.page other := by
  have loop := forM_spec (List.range natBlkNr) loadNatBlock fs
    (fun done s => TableFrame fs s ∧ FreePages s.pages (pages.drop done.length ++ rest) ∧
      ∀ other, other ∉ pages → s.pages.page other = fs.pages.page other)
    (fun blk => (storedAt fs.storage (natArea.block fs.checkpoint blk)).isSome)
    ⟨.refl _, free, fun _ _ => rfl⟩ ?_
  · obtain ⟨fs', run⟩ := loop.1 fun blk member => mapped blk (List.mem_range.mp member)
    obtain ⟨-, -, free', others⟩ := loop.2 fs' run
    rw [List.length_range, ← enough, List.drop_length] at free'
    exact ⟨fs', run, free', others⟩
  · rintro done blk left s whole ⟨frame, free, others⟩
    have position : done.length < pages.length := by
      have length := congrArg List.length whole
      rw [List.length_range, List.length_append, List.length_cons] at length
      omega
    rw [List.drop_eq_getElem_cons position, List.cons_append] at free
    obtain ⟨start, inside⟩ := free.head
    have room : s.pages.usedNr < maxPageNum := by
      have count := free.count
      rw [List.length_cons] at count
      omega
    constructor
    · intro present
      obtain ⟨data, found⟩ := Option.isSome_iff_exists.mp present
      refine ⟨_, loadNatBlock_eq_ok.mpr ⟨room, start ▸ inside, data, ?_, rfl⟩⟩
      rw [frame.storage, frame.checkpoint]
      exact found
    · intro s' run
      obtain ⟨-, -, data, found, rfl⟩ := loadNatBlock_eq_ok.mp run
      rw [frame.storage, frame.checkpoint] at found
      refine ⟨by rw [found]; rfl, frame.trans ⟨rfl⟩, ?_, ?_⟩
      · rw [List.length_append, List.length_singleton]
        exact free.take.update (start ▸ (List.nodup_cons.mp free.nodup).1)
          fun info => { info with data }
      · intro other outside
        have far : other ≠ s.pages.freePtr := by
          intro same
          rw [start] at same
          exact outside (same ▸ List.getElem_mem position)
        rw [← others other outside, ← PageAllocator.take_page_of_ne far]
        simp [PageAllocator.update, far]

/-- `CNodeAddressTable::Load` returns when it can read its blocks and there are enough pages. -/
theorem loadNat_runs {fs : Fs} {pages rest : List Nat}
    (free : FreePages fs.pages (pages ++ rest)) (enough : pages.length = natBlkNr)
    (readable : NatReadable fs.checkpoint fs.storage) :
    ∃ fs', loadNat fs = .ok () fs' ∧ FreePages fs'.pages rest ∧
      ∀ other, other ∉ pages → fs'.pages.page other = fs.pages.page other := by
  obtain ⟨fs₁, read, free₁, others⟩ := loadNatBlocks_runs free enough readable.nat
  obtain ⟨-, frame₁, -, table₁⟩ := loadNatBlocks_ok read
  have journals := loadNatJournals_spec fs₁ fs.nat.nat
    (natArea.base fs.checkpoint fs.storage) (by rw [table₁])
  obtain ⟨fs₃, replayed⟩ := journals.1 (by
    rw [frame₁.checkpoint]
    exact readable.journal.keys)
  obtain ⟨-, same₃⟩ := journals.2 _ replayed
  refine ⟨{ fs₃ with nat := { fs₃.nat.buildFree with dirty := fun _ => 0 } }, ?_, ?_, ?_⟩
  · simp only [loadNat, bind_eq_ok, get_bind_apply]
    refine ⟨(), fs₁, read, (), fs₁, ?_, (), fs₃, replayed, (), _, rfl, rfl⟩
    rw [throwIf_eq_ok, frame₁.checkpoint]
    exact ⟨Nat.not_lt.mpr readable.journal.length, rfl⟩
  · show FreePages fs₃.pages rest
    rw [same₃]
    exact free₁
  · show ∀ other, other ∉ pages → fs₃.pages.page other = _
    rw [same₃]
    exact others

/-! ## Checkpoints -/

/-- The slot that `load_checkpoint` chooses on an image. -/
def chosenSlot (storage : Storage.History BlockData) : Except Fault Nat :=
  chooseCkpt ((ckptVersion (blockOf storage ckptStartBlk)).getD 0)
    ((ckptVersion (blockOf storage (ckptStartBlk + ckptBlkNr))).getD 0)

/-- The first block of a checkpoint slot. -/
def slotBase (slot : Nat) : Nat := ckptStartBlk + slot * ckptBlkNr

/-- The checkpoint in a slot of an image; `rest` is the memory behind the SIT journal. -/
def ckptOf (storage : Storage.History BlockData) (slot : Nat)
    (rest : Nat → JournalEntry SegInfo) : CkptBlock :=
  { header := (blockOf storage (slotBase slot)).ckptHeader
    natJournals := (blockOf storage (slotBase slot + 1)).natJournal
    sitJournals := fun index =>
      if index / sitJournalPerBlk < sitJournalBlk then
        (blockOf storage (slotBase slot + 2 + index / sitJournalPerBlk)).sitJournal
          (index % sitJournalPerBlk)
      else rest index }

/-- The number of readable checkpoints on an image. -/
def healthOf (storage : Storage.History BlockData) : Nat :=
  (if (ckptVersion (blockOf storage ckptStartBlk)).isSome then 1 else 0) +
    if (ckptVersion (blockOf storage (ckptStartBlk + ckptBlkNr))).isSome then 1 else 0

/-- The blocks that `load_checkpoint` reads are there, and it chooses the slot. -/
structure CkptReadable (storage : Storage.History BlockData) (slot : Nat) : Prop where
  /-- The header of the first slot. -/
  first : (storedAt storage ckptStartBlk).isSome
  /-- The header of the second slot. -/
  second : (storedAt storage (ckptStartBlk + ckptBlkNr)).isSome
  /-- The choice. -/
  chosen : chosenSlot storage = .ok slot
  /-- The NAT journal of the slot. -/
  natJournal : (storedAt storage (slotBase slot + 1)).isSome
  /-- The SIT journal of the slot. -/
  sitJournal : ∀ part < sitJournalBlk, (storedAt storage (slotBase slot + 2 + part)).isSome

/-- A block that is there is read. -/
theorem blockRead_of_isSome {fs : Fs} {lba : Nat} (present : (storedAt fs.storage lba).isSome) :
    blockRead lba fs = .ok (blockOf fs.storage lba) fs := by
  obtain ⟨data, found⟩ := Option.isSome_iff_exists.mp present
  rw [blockRead_eq_ok, blockOf, found]
  exact ⟨rfl, rfl⟩

/-- A block that is read is there. -/
theorem blockRead_ok {fs fs' : Fs} {lba : Nat} {data : BlockData}
    (run : blockRead lba fs = .ok data fs') :
    (storedAt fs.storage lba).isSome ∧ data = blockOf fs.storage lba ∧ fs' = fs := by
  obtain ⟨found, same⟩ := blockRead_eq_ok.mp run
  rw [blockOf, found]
  exact ⟨rfl, rfl, same⟩

/-- When `loadSitJournalBlock` returns. -/
theorem loadSitJournalBlock_eq_ok {base part : Nat} {fs fs' : Fs} {result : Unit} :
    loadSitJournalBlock base part fs = .ok result fs' ↔
      (storedAt fs.storage (base + 2 + part)).isSome ∧
        fs' = { fs with
          checkpoint := { fs.checkpoint with
            sitJournals := fun index =>
              if index / sitJournalPerBlk = part then
                (blockOf fs.storage (base + 2 + part)).sitJournal (index % sitJournalPerBlk)
              else fs.checkpoint.sitJournals index } } := by
  constructor
  · intro run
    obtain ⟨data, _, read, stored⟩ := bind_eq_ok.mp run
    obtain ⟨present, rfl, rfl⟩ := blockRead_ok read
    cases stored
    exact ⟨present, rfl⟩
  · rintro ⟨present, rfl⟩
    exact bind_eq_ok.mpr ⟨_, _, blockRead_of_isSome present, rfl⟩

/-- Reading the SIT journal blocks of a slot. -/
theorem loadSitJournalBlocks_spec (base : Nat) (fs : Fs) :
    ((∀ part < sitJournalBlk, (storedAt fs.storage (base + 2 + part)).isSome) →
      ∃ fs', (List.range sitJournalBlk).forM (loadSitJournalBlock base) fs = .ok () fs') ∧
    ∀ fs', (List.range sitJournalBlk).forM (loadSitJournalBlock base) fs = .ok () fs' →
      (∀ part < sitJournalBlk, (storedAt fs.storage (base + 2 + part)).isSome) ∧
      fs' = { fs with
        checkpoint := { fs.checkpoint with
          sitJournals := fun index =>
            if index / sitJournalPerBlk < sitJournalBlk then
              (blockOf fs.storage (base + 2 + index / sitJournalPerBlk)).sitJournal
                (index % sitJournalPerBlk)
            else fs.checkpoint.sitJournals index } } := by
  have loop := forM_spec (List.range sitJournalBlk) (loadSitJournalBlock base) fs
    (fun done s => s = { fs with
      checkpoint := { fs.checkpoint with
        sitJournals := fun index =>
          if index / sitJournalPerBlk ∈ done then
            (blockOf fs.storage (base + 2 + index / sitJournalPerBlk)).sitJournal
              (index % sitJournalPerBlk)
          else fs.checkpoint.sitJournals index } })
    (fun part => (storedAt fs.storage (base + 2 + part)).isSome) (by simp) ?_
  · refine ⟨fun present => loop.1 fun part member => present part (List.mem_range.mp member), ?_⟩
    intro fs' run
    obtain ⟨present, final⟩ := loop.2 fs' run
    simp only [List.mem_range] at final
    exact ⟨fun part inside => present part (List.mem_range.mpr inside), final⟩
  · rintro done part _ s - rfl
    constructor
    · exact fun present => ⟨_, loadSitJournalBlock_eq_ok.mpr ⟨present, rfl⟩⟩
    · intro s' run
      obtain ⟨present, rfl⟩ := loadSitJournalBlock_eq_ok.mp run
      refine ⟨present, ?_⟩
      dsimp only
      congr 2
      funext index
      by_cases here : index / sitJournalPerBlk = part
      · subst here
        simp
      · simp [here]

/-- When `loadSlot` returns, and with what. -/
theorem loadSlot_eq_ok {slot : Nat} {header : CkptHead} {fs fs' : Fs} {result : Unit} :
    loadSlot slot header fs = .ok result fs' ↔
      (storedAt fs.storage (slotBase slot + 1)).isSome ∧
      (∀ part < sitJournalBlk, (storedAt fs.storage (slotBase slot + 2 + part)).isSome) ∧
      fs' = { fs with
        checkpoint := { ckptOf fs.storage slot fs.checkpoint.sitJournals with header }
        curCkpt := slot } := by
  simp only [loadSlot, modifyCkpt, modify_bind_apply, bind_eq_ok]
  constructor
  · rintro ⟨data, _, read, _, fs₃, journal, done⟩
    obtain ⟨present, rfl, rfl⟩ := blockRead_ok read
    obtain ⟨parts, rfl⟩ := (loadSitJournalBlocks_spec _ _).2 _ journal
    cases done
    exact ⟨present, parts, rfl⟩
  · rintro ⟨present, parts, rfl⟩
    obtain ⟨fs₃, journal⟩ := (loadSitJournalBlocks_spec (slotBase slot) { fs with
      checkpoint := { fs.checkpoint with
        header := header
        natJournals := (blockOf fs.storage (slotBase slot + 1)).natJournal } }).1 parts
    obtain ⟨-, rfl⟩ := (loadSitJournalBlocks_spec _ _).2 _ journal
    exact ⟨_, _, blockRead_of_isSome present, (), _, journal, rfl⟩

/-- A chosen slot is one of the two. -/
theorem chooseCkpt_ok {first second slot : Nat} (chosen : chooseCkpt first second = .ok slot) :
    slot = 0 ∨ slot = 1 := by
  unfold chooseCkpt at chosen
  split at chosen
  · split at chosen
    · cases chosen
    · split at chosen <;> cases chosen <;> simp
  · split at chosen
    · cases chosen
      simp
    · split at chosen <;> cases chosen
      simp

/-- Counting a readable slot. -/
theorem countHealthy_apply (data : BlockData) (fs : Fs) :
    countHealthy data fs = .ok () { fs with
      healthCkpt := fs.healthCkpt + if (ckptVersion data).isSome then 1 else 0 } := by
  unfold countHealthy doIf
  split <;> simp

/-- When `load_checkpoint` returns, and with what. -/
theorem loadCheckpoint_eq_ok {fs fs' : Fs} {slot : Nat} :
    loadCheckpoint fs = .ok slot fs' ↔ CkptReadable fs.storage slot ∧
      fs' = { fs with
        checkpoint := ckptOf fs.storage slot fs.checkpoint.sitJournals
        healthCkpt := healthOf fs.storage
        curCkpt := slot } := by
  have header : ∀ slot, chosenSlot fs.storage = .ok slot →
      (if slot = 0 then (blockOf fs.storage ckptStartBlk).ckptHeader
        else (blockOf fs.storage (ckptStartBlk + ckptBlkNr)).ckptHeader) =
      (blockOf fs.storage (slotBase slot)).ckptHeader := by
    intro slot chosen
    cases chooseCkpt_ok chosen with
    | inl zero => rw [zero]; rfl
    | inr one => rw [one]; rfl
  simp only [loadCheckpoint, modify_bind_apply, bind_eq_ok]
  constructor
  · rintro ⟨first, _, read, _, _, counted, second, _, read', _, _, counted', rest⟩
    obtain ⟨present, rfl, rfl⟩ := blockRead_ok read
    cases (countHealthy_apply _ _).symm.trans counted
    obtain ⟨present', rfl, rfl⟩ := blockRead_ok read'
    cases (countHealthy_apply _ _).symm.trans counted'
    change loadChosen _ _ (chosenSlot fs.storage) _ = _ at rest
    cases choice : chosenSlot fs.storage with
    | error fault =>
      rw [choice] at rest
      cases rest
    | ok slot' =>
      rw [choice] at rest
      obtain ⟨_, _, loaded, done⟩ := bind_eq_ok.mp rest
      obtain ⟨journal, parts, rfl⟩ := loadSlot_eq_ok.mp loaded
      cases done
      refine ⟨⟨present, present', choice, journal, parts⟩, ?_⟩
      have same := header slot choice
      simp only [healthOf, Nat.zero_add] at same ⊢
      rw [same]
      rfl
  · rintro ⟨readable, rfl⟩
    refine ⟨_, _, blockRead_of_isSome readable.first, (), _, countHealthy_apply _ _, _, _,
      blockRead_of_isSome readable.second, (), _, countHealthy_apply _ _, ?_⟩
    change loadChosen _ _ (chosenSlot fs.storage) _ = _
    rw [readable.chosen]
    refine bind_eq_ok.mpr ⟨(), _, loadSlot_eq_ok.mpr
      ⟨readable.natJournal, readable.sitJournal, rfl⟩, ?_⟩
    have same := header slot readable.chosen
    simp only [healthOf, Nat.zero_add] at same ⊢
    rw [same]
    rfl

/-! ## Mounting -/

/-- The checkpoint in a slot of an image. -/
def imageCkpt (storage : Storage.History BlockData) (slot : Nat) : CkptBlock :=
  ckptOf storage slot CkptBlock.zero.sitJournals

/-- Everything that mounting reads is there. -/
structure Readable (storage : Storage.History BlockData) (slot : Nat) : Prop where
  /-- The checkpoint. -/
  ckpt : CkptReadable storage slot
  /-- The segments. -/
  segments : SegmentsReadable (imageCkpt storage slot) storage
  /-- The node addresses. -/
  nat : NatReadable (imageCkpt storage slot) storage

/-- Inside the journal it does not matter what follows it in memory. -/
theorem ckptOf_sitJournals {storage : Storage.History BlockData} {slot index : Nat}
    (rest rest' : Nat → JournalEntry SegInfo) (inside : index < journalNr) :
    (ckptOf storage slot rest).sitJournals index = (ckptOf storage slot rest').sitJournals index := by
  have part : index / sitJournalPerBlk < sitJournalBlk := by
    have : index < 16 := inside
    show index / 4 < 4
    omega
  simp only [ckptOf, part, if_true]

/-- The journal entries of the SIT do not depend on the memory behind them. -/
theorem sitJournal_ckptOf {storage : Storage.History BlockData} {slot : Nat}
    (rest rest' : Nat → JournalEntry SegInfo)
    (fits : sitArea.journalLen.get (ckptOf storage slot rest) ≤ journalNr) :
    sitArea.journal (ckptOf storage slot rest) = sitArea.journal (ckptOf storage slot rest') := by
  unfold Area.journal
  apply List.map_congr_left
  intro index member
  have inside : index < journalNr := (List.mem_range.mp member).trans_le fits
  show (((ckptOf storage slot rest).sitJournals index).key, _) = _
  rw [ckptOf_sitJournals rest rest' inside]
  show (_, ((ckptOf storage slot rest).sitJournals index).value) = _
  rw [ckptOf_sitJournals rest rest' inside]
  rfl

/-- The SIT of an image does not depend on the memory behind the journal. -/
theorem sitStored_ckptOf {storage : Storage.History BlockData} {slot : Nat}
    (rest rest' : Nat → JournalEntry SegInfo)
    (fits : sitArea.journalLen.get (ckptOf storage slot rest) ≤ journalNr) :
    sitArea.stored (ckptOf storage slot rest) storage =
      sitArea.stored (ckptOf storage slot rest') storage := by
  unfold Area.stored
  rw [sitJournal_ckptOf rest rest' fits]
  rfl

/-- Whether the segments are readable does not depend on the memory behind the journal. -/
theorem segmentsReadable_ckptOf {storage : Storage.History BlockData} {slot : Nat}
    {rest : Nat → JournalEntry SegInfo} (rest' : Nat → JournalEntry SegInfo)
    (readable : SegmentsReadable (ckptOf storage slot rest) storage) :
    SegmentsReadable (ckptOf storage slot rest') storage := by
  refine ⟨readable.sit, ⟨readable.journal.length, fun index small => ?_⟩, readable.ssa⟩
  have key := readable.journal.keys index small
  have inside := small.trans_le readable.journal.length
  show ((ckptOf storage slot rest').sitJournals index).key < _
  rw [ckptOf_sitJournals rest' rest inside]
  exact key

/-- Reading a node changes pages and the node cache. -/
theorem readNode_ok {fs fs' : Fs} {nid page : Nat} (run : readNode nid fs = .ok page fs') :
    TableFrame fs fs' ∧ fs'.segments = fs.segments ∧
      fs'.nat = { fs.nat with nodeCache := fs'.nat.nodeCache } := by
  simp only [readNode, throwIf_bind_eq_ok, get_bind_apply] at run
  obtain ⟨-, run⟩ := run
  split at run
  · simp only [bind_eq_ok] at run
    obtain ⟨found, fs₁, pointed, _, fs₂, stored, done⟩ := run
    cases done
    cases stored
    unfold pagePtr at pointed
    split at pointed <;> cases pointed
    exact ⟨⟨rfl⟩, rfl, rfl⟩
  · rw [bind_eq_ok] at run
    obtain ⟨blk, fs₁, looked, run⟩ := run
    obtain ⟨-, rfl, rfl⟩ := zoom_getPhyBlk_eq_ok.mp looked
    rw [throwIf_bind_eq_ok] at run
    obtain ⟨-, run⟩ := run
    simp only [bind_eq_ok] at run
    obtain ⟨found, fs₂, allocated, _, fs₃, read, _, fs₄, placed, _, fs₅, cached, data, fs₆, got, _,
      fs₇, typed, _, fs₈, counted, _, fs₉, stored, done⟩ := run
    obtain ⟨-, -, rfl, rfl⟩ := zoom_allocate_eq_ok.mp allocated
    obtain ⟨_, -, rfl⟩ := readInto_eq_ok.mp read
    cases placed
    cases cached
    cases got
    obtain ⟨-, rfl⟩ := throwIf_eq_ok.mp typed
    cases stored
    cases done
    cases doIf_eq_ok.mp counted with
    | inl inode =>
      obtain ⟨-, changed⟩ := inode
      cases changed
      exact ⟨⟨rfl⟩, rfl, rfl⟩
    | inr index =>
      obtain ⟨-, rfl⟩ := index
      exact ⟨⟨rfl⟩, rfl, rfl⟩

/-- What mounting brings into memory. -/
structure Mounted (fs m : Fs) (slot : Nat) : Prop where
  /-- What was read. -/
  readable : Readable fs.storage slot
  /-- Nothing else changes. -/
  frame : m = { fs with
    pages := m.pages
    segments := m.segments
    nat := m.nat
    checkpoint := ckptOf fs.storage slot fs.checkpoint.sitJournals
    healthCkpt := healthOf fs.storage
    curCkpt := slot }
  /-- The segments. -/
  segments : m.segments = (fs.segments.loaded (imageCkpt fs.storage slot) fs.storage).buildFreeLink
  /-- The node addresses. -/
  nat : m.nat = { fs.nat.loaded (imageCkpt fs.storage slot) fs.storage with
    nodeCache := m.nat.nodeCache }

/-- A mount that returns has brought the image into memory. -/
theorem mount_ok {fs m : Fs} {result : Unit} (run : mount fs = .ok result m) :
    ∃ slot, Mounted fs m slot := by
  simp only [mount, bind_eq_ok] at run
  obtain ⟨slot, fs₁, ckpt, _, fs₂, segments, _, fs₃, nat, page, fs₄, root, _, fs₅, counted, data,
    fs₆, got, _, fs₇, checked, cached⟩ := run
  obtain ⟨readable, rfl⟩ := loadCheckpoint_eq_ok.mp ckpt
  obtain ⟨readable', frame₂, nat₂, segments₂⟩ := loadSegments_ok segments
  obtain ⟨readable'', frame₃, segments₃, nat₃⟩ := loadNat_ok nat
  obtain ⟨frame₄, segments₄, nat₄⟩ := readNode_ok root
  cases got
  obtain ⟨-, rfl⟩ := throwIf_eq_ok.mp checked
  have last : fs₇ = { fs₄ with pages := fs₇.pages } := by
    cases counted
    rfl
  have final : m = { fs₇ with nat := { fs₇.nat with nodeCache := m.nat.nodeCache } } := by
    cases cached
    rfl
  rw [frame₂.checkpoint, frame₂.storage] at readable'' nat₃
  have journal : sitArea.journalLen.get (ckptOf fs.storage slot fs.checkpoint.sitJournals) ≤ journalNr :=
    readable'.journal.length
  have frame := (frame₂.trans frame₃).trans frame₄
  refine ⟨slot, ⟨readable, segmentsReadable_ckptOf _ readable',
    ⟨readable''.nat, readable''.journal.length, readable''.journal.keys⟩⟩, ?_, ?_, ?_⟩
  · have all : TableFrame _ m := frame.trans ⟨by rw [final, last]⟩
    exact all.frame
  · have same : m.segments = fs₄.segments := by rw [final, last]
    rw [same, segments₄, segments₃, segments₂]
    unfold SegmentManager.loaded
    rw [imageCkpt, sitStored_ckptOf _ CkptBlock.zero.sitJournals journal]
    rfl
  · have same : m.nat = { fs₄.nat with nodeCache := m.nat.nodeCache } := by
      rw [final, last]
    rw [same, nat₄, nat₃, nat₂]
    rfl

end FsChecking.F2fs
