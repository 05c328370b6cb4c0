import FsChecking.F2fs.State
import FsChecking.Lib.Chain

/-!
# The page pool

The free pages of the pool form a chain through their `free_link`s. `FreePages` names that chain:
`allocate` takes its first page and `free` puts a page in front, so pages that are taken and given
back in turn leave the chain as it was.
-/

namespace FsChecking.F2fs

open Lib

/-- A link of the pool as a pointer; every link beyond the pool is null. -/
def pagePointer (link : Nat) : Option Nat := if link < maxPageNum then some link else none

/-- A pointer into the pool is inside it. -/
theorem pagePointer_inside {link page : Nat} (pointer : pagePointer link = some page) :
    page < maxPageNum := by
  unfold pagePointer at pointer
  split at pointer
  · rename_i inside
    exact Option.some.inj pointer ▸ inside
  · cases pointer

/-- The free pages of a pool, in the order in which they are handed out. -/
structure FreePages (pool : PageAllocator) (pages : List Nat) : Prop where
  /-- They are linked from the pool. -/
  chain : Chain (fun page => pagePointer (pool.page page).freeLink) (pagePointer pool.freePtr) pages
  /-- The other pages are counted. -/
  count : pool.usedNr + pages.length = maxPageNum
  /-- No page is listed twice. -/
  nodup : pages.Nodup
  /-- They are marked as free. -/
  idle : ∀ page ∈ pages, (pool.page page).inUse = false

/-- The page that is changed. -/
theorem PageAllocator.update_page_self (pool : PageAllocator) (page : Nat)
    (change : PageInfo → PageInfo) :
    (pool.update page change).page page = change (pool.page page) := Function.update_self ..

/-- A page other than the one that is changed. -/
theorem PageAllocator.update_page_of_ne {pool : PageAllocator} {page other : Nat}
    (apart : other ≠ page) (change : PageInfo → PageInfo) :
    (pool.update page change).page other = pool.page other := Function.update_of_ne apart ..

/-- Two changes of one page. -/
theorem PageAllocator.update_update (pool : PageAllocator) (page : Nat)
    (first second : PageInfo → PageInfo) :
    (pool.update page first).update page second = pool.update page (second ∘ first) := by
  unfold PageAllocator.update
  dsimp only
  rw [Function.update_self, Function.update_idem]
  rfl

/-- A page other than the one that is taken. -/
theorem PageAllocator.take_page_of_ne {pool : PageAllocator} {page : Nat}
    (apart : page ≠ pool.freePtr) : pool.take.page page = pool.page page := by
  simp [take, update, apart]

/-- The page that is taken. -/
theorem PageAllocator.take_page_self (pool : PageAllocator) :
    pool.take.page pool.freePtr = .initial := by
  simp [take, update]

/-- A page other than the one that is given back. -/
theorem PageAllocator.release_page_of_ne {pool : PageAllocator} {page other : Nat}
    (apart : other ≠ page) : (pool.release page).page other = pool.page other := by
  simp [release, update, apart]

/-- The page that is given back. -/
theorem PageAllocator.release_page_self (pool : PageAllocator) (page : Nat) :
    (pool.release page).page page =
      { (pool.page page).setFreeLink pool.freePtr with inUse := false } := by
  simp [release, update]

namespace FreePages

variable {pool pool' : PageAllocator} {pages rest : List Nat} {page : Nat}

/-- The free pages depend only on their own pages, the head and the count. -/
theorem congr (free : FreePages pool pages) (freePtr : pool'.freePtr = pool.freePtr)
    (usedNr : pool'.usedNr = pool.usedNr)
    (same : ∀ page ∈ pages, pool'.page page = pool.page page) : FreePages pool' pages where
  chain := by
    rw [freePtr]
    exact free.chain.congr fun page member => by rw [same page member]
  count := by
    rw [usedNr]
    exact free.count
  nodup := free.nodup
  idle page member := by
    rw [same page member]
    exact free.idle page member

/-- Changing a page that is in use. -/
theorem update (free : FreePages pool pages) (used : page ∉ pages)
    (change : PageInfo → PageInfo) : FreePages (pool.update page change) pages := by
  refine free.congr rfl rfl fun other member => ?_
  have apart : other ≠ page := fun same => used (same ▸ member)
  simp [PageAllocator.update, apart]

/-- The first free page is inside the pool. -/
theorem head (free : FreePages pool (page :: rest)) :
    pool.freePtr = page ∧ page < maxPageNum := by
  have start := free.chain.1
  unfold pagePointer at start
  split at start
  · rename_i inside
    have same := Option.some.inj start
    exact ⟨same, same ▸ inside⟩
  · cases start

/-- The free pages after `allocate`. -/
theorem take (free : FreePages pool (page :: rest)) : FreePages pool.take rest := by
  obtain ⟨start, inside⟩ := free.head
  have nodup := List.nodup_cons.mp free.nodup
  have other : ∀ other ∈ rest, pool.take.page other = pool.page other := fun other member =>
    PageAllocator.take_page_of_ne fun same => nodup.1 (start ▸ same ▸ member)
  constructor
  · show Chain _ (pagePointer (pool.page pool.freePtr).freeLink) rest
    rw [start]
    exact free.chain.2.congr fun page member => by rw [other page member]
  · have count := free.count
    rw [List.length_cons] at count
    show pool.usedNr + 1 + rest.length = maxPageNum
    omega
  · exact nodup.2
  · intro page member
    rw [other page member]
    exact free.idle page (List.mem_cons_of_mem _ member)

/-- The free pages after `free`. -/
theorem release (free : FreePages pool pages) (apart : page ∉ pages) (inside : page < maxPageNum)
    (counted : pool.usedNr ≠ 0) : FreePages (pool.release page) (page :: pages) := by
  have other : ∀ other ∈ pages, (pool.release page).page other = pool.page other :=
    fun other member => PageAllocator.release_page_of_ne fun same => apart (same ▸ member)
  constructor
  · refine ⟨by simp [pagePointer, PageAllocator.release, inside], ?_⟩
    have link : ((pool.release page).page page).freeLink = pool.freePtr := by
      rw [PageAllocator.release_page_self]
      exact BlockType.toNat_ofNat _
    show Chain _ (pagePointer ((pool.release page).page page).freeLink) pages
    rw [link]
    exact free.chain.congr fun page member => by rw [other page member]
  · have count := free.count
    show pool.usedNr - 1 + (pages.length + 1) = maxPageNum
    omega
  · exact List.nodup_cons.mpr ⟨apart, free.nodup⟩
  · intro page' member
    cases List.mem_cons.mp member with
    | inl same =>
      rw [same, PageAllocator.release_page_self]
    | inr member =>
      rw [other page' member]
      exact free.idle page' member

/-- Free pages are inside the pool. -/
theorem bounded (free : FreePages pool pages) (member : page ∈ pages) : page < maxPageNum := by
  have inside : ∀ {pointer : Option Nat} {pages : List Nat},
      Chain (fun page => pagePointer (pool.page page).freeLink) pointer pages →
      (∀ page, pointer = some page → page < maxPageNum) → ∀ page ∈ pages, page < maxPageNum := by
    intro pointer pages chain start
    induction pages generalizing pointer with
    | nil => exact fun page member => absurd member List.not_mem_nil
    | cons first rest ih =>
      intro page member
      rcases List.mem_cons.mp member with rfl | later
      · exact start page chain.1
      · exact ih chain.2 (fun page link => pagePointer_inside link) page later
  exact inside free.chain (fun page link => pagePointer_inside link) page member

/-- A page that is not free is counted. -/
theorem usedNr_ne_zero (free : FreePages pool pages) (used : page ∉ pages)
    (inside : page < maxPageNum) : pool.usedNr ≠ 0 := by
  intro none
  have count := free.count
  have whole : (page :: pages).Subperm (List.range maxPageNum) :=
    (List.nodup_cons.mpr ⟨used, free.nodup⟩).subperm fun other member => by
      rcases List.mem_cons.mp member with rfl | later
      · exact List.mem_range.mpr inside
      · exact List.mem_range.mpr (free.bounded later)
  have length := whole.length_le
  rw [List.length_cons, List.length_range] at length
  omega

/-- After `Init` every page is free, in ascending order. -/
theorem initial (pool : PageAllocator) : FreePages pool.initial (List.range maxPageNum) := by
  have link : ∀ page < maxPageNum, (pool.initial.page page).freeLink =
      if page + 1 = maxPageNum then invalidPage else page + 1 := by
    intro page inside
    simp only [PageAllocator.initial, if_pos inside]
    exact BlockType.toNat_ofNat _
  -- the pages from any page on are chained from that page
  have chain : ∀ count start, start + count = maxPageNum →
      Chain (fun page => pagePointer (pool.initial.page page).freeLink) (pagePointer start)
        (List.range' start count) := by
    intro count
    induction count with
    | zero =>
      intro start all
      simp [pagePointer, ← all]
    | succ count ih =>
      intro start all
      have inside : start < maxPageNum := by omega
      rw [List.range'_succ]
      refine ⟨by simp [pagePointer, inside], ?_⟩
      show Chain _ (pagePointer (pool.initial.page start).freeLink) _
      rw [link start inside]
      split
      · rename_i last
        have none : count = 0 := by omega
        subst none
        show pagePointer invalidPage = none
        decide
      · exact ih (start + 1) (by omega)
  constructor
  · rw [List.range_eq_range']
    exact chain maxPageNum 0 (by simp)
  · simp [PageAllocator.initial]
  · exact List.nodup_range
  · intro page member
    have inside := List.mem_range.mp member
    simp [PageAllocator.initial, inside]

end FreePages

/-- The pool after its first free page was taken and a block was read into it. -/
def PageAllocator.takeInto (pool : PageAllocator) (data : BlockData) : PageAllocator :=
  pool.take.update pool.freePtr fun info => { info with data }

/-- The page that was read into. -/
theorem PageAllocator.takeInto_page_self (pool : PageAllocator) (data : BlockData) :
    (pool.takeInto data).page pool.freePtr = { PageInfo.initial with data } := by
  rw [takeInto, update_page_self, take_page_self]

/-- The other pages. -/
theorem PageAllocator.takeInto_page_of_ne {pool : PageAllocator} {page : Nat}
    (apart : page ≠ pool.freePtr) (data : BlockData) :
    (pool.takeInto data).page page = pool.page page := by
  rw [takeInto, update_page_of_ne apart, take_page_of_ne apart]

/-- The free pages after the first one was taken and read into. -/
theorem FreePages.takeInto {pool : PageAllocator} {page : Nat} {rest : List Nat}
    (free : FreePages pool (page :: rest)) (data : BlockData) :
    FreePages (pool.takeInto data) rest := by
  obtain ⟨rfl, -⟩ := free.head
  exact free.take.update (List.nodup_cons.mp free.nodup).1 fun info => { info with data }

/-- Allocating a page of a file system. -/
theorem zoom_allocate_eq_ok {fs fs' : Fs} {page : Nat} :
    pagesLens.zoom allocate fs = .ok page fs' ↔
      fs.pages.usedNr < maxPageNum ∧ fs.pages.freePtr < maxPageNum ∧ page = fs.pages.freePtr ∧
        fs' = { fs with pages := fs.pages.take } := by
  rw [Lens.zoom_eq_ok]
  constructor
  · rintro ⟨pool, run, rfl⟩
    obtain ⟨room, inside, rfl, rfl⟩ := allocate_eq_ok.mp run
    exact ⟨room, inside, rfl, rfl⟩
  · rintro ⟨room, inside, rfl, rfl⟩
    exact ⟨_, allocate_eq_ok.mpr ⟨room, inside, rfl, rfl⟩, rfl⟩

/-- A page that was taken is in use. -/
theorem inUse_of_allocate {page : Nat} {fs fs' : Fs}
    (run : pagesLens.zoom allocate fs = .ok page fs') : (fs'.pages.page page).inUse = true := by
  obtain ⟨-, -, rfl, rfl⟩ := zoom_allocate_eq_ok.mp run
  show (fs.pages.take.page fs.pages.freePtr).inUse = true
  rw [PageAllocator.take_page_self]
  rfl

/-- Giving back a page of a file system. -/
theorem zoom_free_eq_ok {fs fs' : Fs} {page : Nat} {result : Unit} :
    pagesLens.zoom (free page) fs = .ok result fs' ↔
      (fs.pages.page page).inUse = true ∧ fs.pages.usedNr ≠ 0 ∧
        fs' = { fs with pages := fs.pages.release page } := by
  rw [Lens.zoom_eq_ok]
  constructor
  · rintro ⟨pool, run, rfl⟩
    obtain ⟨used, counted, rfl⟩ := free_eq_ok.mp run
    exact ⟨used, counted, rfl⟩
  · rintro ⟨used, counted, rfl⟩
    exact ⟨_, free_eq_ok.mpr ⟨used, counted, rfl⟩, rfl⟩

/-- A file system with a free page hands it out. -/
theorem FreePages.zoom_allocate {fs : Fs} {page : Nat} {rest : List Nat}
    (free : FreePages fs.pages (page :: rest)) :
    pagesLens.zoom allocate fs = .ok page { fs with pages := fs.pages.take } := by
  obtain ⟨start, inside⟩ := free.head
  have count := free.count
  rw [List.length_cons] at count
  exact zoom_allocate_eq_ok.mpr ⟨by omega, start ▸ inside, start.symm, rfl⟩

/-- The free pages of a pool whatever its count says. -/
structure LinkedPages (pool : PageAllocator) (pages : List Nat) : Prop where
  /-- They are linked from the pool. -/
  chain : Chain (fun page => pagePointer (pool.page page).freeLink) (pagePointer pool.freePtr) pages
  /-- No page is listed twice. -/
  nodup : pages.Nodup
  /-- They are marked as free. -/
  idle : ∀ page ∈ pages, (pool.page page).inUse = false

/-- The free pages of a pool are linked. -/
theorem FreePages.linked {pool : PageAllocator} {pages : List Nat} (free : FreePages pool pages) :
    LinkedPages pool pages := ⟨free.chain, free.nodup, free.idle⟩

namespace LinkedPages

variable {pool pool' : PageAllocator} {pages : List Nat} {page : Nat}

/-- The free pages depend only on their links and their marks. -/
theorem congr (linked : LinkedPages pool pages) (freePtr : pool'.freePtr = pool.freePtr)
    (same : ∀ page ∈ pages, (pool'.page page).freeLink = (pool.page page).freeLink ∧
      (pool'.page page).inUse = (pool.page page).inUse) : LinkedPages pool' pages where
  chain := by
    rw [freePtr]
    exact linked.chain.congr fun page member => by rw [(same page member).1]
  nodup := linked.nodup
  idle page member := by
    rw [(same page member).2]
    exact linked.idle page member

/-- A page in use is not free. -/
theorem not_mem (linked : LinkedPages pool pages) (used : (pool.page page).inUse = true) :
    page ∉ pages := fun member => by
  have idle := linked.idle page member
  rw [used] at idle
  cases idle

/-- Changing a page that is not free. -/
theorem update (linked : LinkedPages pool pages) (used : page ∉ pages)
    (change : PageInfo → PageInfo) : LinkedPages (pool.update page change) pages := by
  refine linked.congr rfl fun other member => ?_
  have apart : other ≠ page := fun same => used (same ▸ member)
  rw [PageAllocator.update_page_of_ne apart]
  exact ⟨rfl, rfl⟩

/-- A page that `allocate` hands out is the first free one. -/
theorem head (linked : LinkedPages pool pages) (inside : pool.freePtr < maxPageNum) :
    ∃ rest, pages = pool.freePtr :: rest := by
  have start := linked.chain
  rw [pagePointer, if_pos inside] at start
  obtain ⟨rest, whole, -⟩ := start.of_some
  exact ⟨rest, whole⟩

/-- The free pages after `allocate`. -/
theorem take {rest : List Nat} (linked : LinkedPages pool (pool.freePtr :: rest)) :
    LinkedPages pool.take rest := by
  have nodup := List.nodup_cons.mp linked.nodup
  have other : ∀ other ∈ rest, pool.take.page other = pool.page other := fun other member =>
    PageAllocator.take_page_of_ne fun same => nodup.1 (same ▸ member)
  refine ⟨?_, nodup.2, fun page member => ?_⟩
  · show Chain _ (pagePointer (pool.page pool.freePtr).freeLink) rest
    exact linked.chain.2.congr fun page member => by rw [other page member]
  · rw [other page member]
    exact linked.idle page (List.mem_cons_of_mem _ member)

/-- Free pages are inside the pool. -/
theorem bounded (linked : LinkedPages pool pages) (member : page ∈ pages) : page < maxPageNum := by
  have inside : ∀ {pointer : Option Nat} {pages : List Nat},
      Chain (fun page => pagePointer (pool.page page).freeLink) pointer pages →
      (∀ page, pointer = some page → page < maxPageNum) → ∀ page ∈ pages, page < maxPageNum := by
    intro pointer pages chain start
    induction pages generalizing pointer with
    | nil => exact fun page member => absurd member List.not_mem_nil
    | cons first rest ih =>
      intro page member
      rcases List.mem_cons.mp member with rfl | later
      · exact start page chain.1
      · exact ih chain.2 (fun page link => pagePointer_inside link) page later
  exact inside linked.chain (fun page link => pagePointer_inside link) page member

/-- The free pages after the first one was taken and read into. -/
theorem takeInto {rest : List Nat} (linked : LinkedPages pool (pool.freePtr :: rest))
    (data : BlockData) : LinkedPages (pool.takeInto data) rest :=
  linked.take.update (List.nodup_cons.mp linked.nodup).1 fun info => { info with data }

/-- The free pages after `free`; a page beyond the pool ends the list. -/
theorem release (linked : LinkedPages pool pages) (used : (pool.page page).inUse = true) :
    LinkedPages (pool.release page) (if page < maxPageNum then page :: pages else []) := by
  have apart := linked.not_mem used
  have other : ∀ other ∈ pages, (pool.release page).page other = pool.page other :=
    fun other member => PageAllocator.release_page_of_ne fun same => apart (same ▸ member)
  split
  · rename_i inside
    refine ⟨⟨by simp [pagePointer, PageAllocator.release, inside], ?_⟩,
      List.nodup_cons.mpr ⟨apart, linked.nodup⟩, fun page' member => ?_⟩
    · have link : ((pool.release page).page page).freeLink = pool.freePtr := by
        rw [PageAllocator.release_page_self]
        exact BlockType.toNat_ofNat _
      show Chain _ (pagePointer ((pool.release page).page page).freeLink) pages
      rw [link]
      exact linked.chain.congr fun page member => by rw [other page member]
    · cases List.mem_cons.mp member with
      | inl same => rw [same, PageAllocator.release_page_self]
      | inr member =>
        rw [other page' member]
        exact linked.idle page' member
  · rename_i outside
    refine ⟨?_, List.nodup_nil, fun page member => absurd member List.not_mem_nil⟩
    show pagePointer page = none
    rw [pagePointer, if_neg outside]

end LinkedPages

end FsChecking.F2fs
