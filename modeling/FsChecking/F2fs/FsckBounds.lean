import FsChecking.F2fs.Fsck
import FsChecking.F2fs.Load
import FsChecking.F2fs.Simulator

/-!
# The walk of the check on any image

The recursion of `fsck` against arbitrary tables and blocks. Every call marks a node that was not
marked, so the number of unvisited nodes bounds the depth; a call holds one page for its node and one
for a directory block, which it gives back when it returns. Both facts are carried through the four
functions by one relation between two versions of a program, so that the bottom of the recursion is
shown never to be reached while the resources are counted. The second version also throws another
exception where the path buffer ends: the walk ends as it should exactly when it does not notice.
-/

namespace FsChecking.F2fs

open Lib

/-! ## Another end of the path buffer -/

section WalkBy

variable (full : Fault) (chkNode : Nat → FileType → BlockType → CheckM Nat)

end WalkBy

/-- The exception that stands for another one where the path buffer ends. -/
def endFault (full : Fault) : Fault → Fault
  | .undefined => full
  | fault => fault

/-- The result of a program with another exception at the end of the path buffer. -/
def atPathEnd {α : Type} (full : Fault) :
    EStateM.Result Fault Check α → EStateM.Result Fault Check α
  | .ok value after => .ok value after
  | .error fault after => .error (endFault full fault) after

/-- Any other exception stays. -/
theorem endFault_of_ne {full fault : Fault} (other : fault ≠ .undefined) :
    endFault full fault = fault := by
  unfold endFault
  split
  · exact absurd rfl other
  · rfl

/-- The number of nodes that the walk has not reached. -/
def Check.unvisited (check : Check) : Nat :=
  (List.range nodeNr).countP fun nid => check.fsck.nodeMap nid = false

/-- The walk never unmarks a node. -/
def Check.Grown (before after : Check) : Prop :=
  ∀ nid, before.fsck.nodeMap nid = true → after.fsck.nodeMap nid = true

/-- Marking more nodes leaves fewer unvisited. -/
theorem Check.Grown.unvisited_le {before after : Check} (grown : before.Grown after) :
    after.unvisited ≤ before.unvisited := by
  refine List.countP_mono_left fun nid _ free => ?_
  rw [decide_eq_true_eq] at free ⊢
  by_contra marked
  rw [Bool.not_eq_false] at marked
  rw [grown nid marked] at free
  cases free

/-- The error codes of the walk. -/
def walkCodes : List ErrorCode :=
  [.invalidNid, .doubledNid, .lostNid, .doubledBlk, .sitMismatch, .lostBlk, .wrongBlockType,
    .invalidBlk, .readNoMappingData]

/-- The path buffer has no room: the cursor is at its end, or the name of a stored dentry is longer
than what is left. -/
def Check.PathFull (check : Check) : Prop :=
  maxPathSize ≤ check.fsck.pathPtr ∨
    ∃ lba data index, storedAt check.fs.storage lba = some data ∧ data.blockType = .dentry ∧
      index < dentryPerBlock ∧
      maxPathSize < check.fsck.pathPtr + (data.dentry.dentries index).nameLen

/-- The exceptions that the walk throws itself: those with one of its error codes. -/
def Coded (fault : Fault) : Prop :=
  ∃ code message arguments, fault = .fs code message arguments ∧ code ∈ walkCodes

/-- An exception with an error code is not that of the path buffer. -/
theorem Coded.ne_undefined {fault : Fault} (coded : Coded fault) : fault ≠ .undefined := by
  obtain ⟨code, message, arguments, rfl, -⟩ := coded
  exact nofun

/-- How the walk fails: with one of its error codes, or at the end of the path buffer. -/
def WalkFault (fault : Fault) (check : Check) : Prop :=
  Coded fault ∨ fault = .undefined ∧ check.PathFull

/-- A part of the walk that returns: the free pages and all pages in use are as before. -/
structure Kept (free : List Nat) (before after : Check) : Prop where
  /-- The free pages. -/
  pool : FreePages after.fs.pages free
  /-- The pages in use. -/
  used : ∀ page ∉ free, after.fs.pages.page page = before.fs.pages.page page
  /-- The storage. -/
  storage : after.fs.storage = before.fs.storage
  /-- The visited nodes. -/
  grown : before.Grown after

/-- A part of the walk that throws: it still holds `held` pages, and two for every node that it has
visited. -/
structure Stopped (held : Nat) (free : List Nat) (before : Check) (fault : Fault) (after : Check) :
    Prop where
  /-- The free pages. -/
  pool : ∃ free', FreePages after.fs.pages free' ∧
    free.length + 2 * after.unvisited ≤ free'.length + held + 2 * before.unvisited
  /-- The storage. -/
  storage : after.fs.storage = before.fs.storage
  /-- The visited nodes. -/
  grown : before.Grown after
  /-- The exception. -/
  fault : WalkFault fault after

/-- What a part of the walk starts from: its pages `own`, the free pages, the stored blocks, a bound
on the depth and room for the pages that it may take. -/
structure Room (own free : List Nat) (storage : Storage.History BlockData) (bound held : Nat)
    (check : Check) : Prop where
  /-- The free pages. -/
  pool : FreePages check.fs.pages free
  /-- The own pages are in use. -/
  own : ∀ page ∈ own, page ∉ free ∧ page < maxPageNum ∧ (check.fs.pages.page page).inUse = true
  /-- The stored blocks. -/
  storage : check.fs.storage = storage
  /-- The depth that is left. -/
  deep : check.unvisited < bound
  /-- The pages that are left. -/
  enough : held + 2 * check.unvisited ≤ free.length

/-- After a part of the walk there is as much room as before. -/
theorem Room.next {own free : List Nat} {storage : Storage.History BlockData} {bound held : Nat}
    {before after : Check} (room : Room own free storage bound held before)
    (kept : Kept free before after) : Room own free storage bound held after where
  pool := kept.pool
  own page member := by
    rw [kept.used page (room.own page member).1]
    exact room.own page member
  storage := kept.storage.trans room.storage
  deep := lt_of_le_of_lt kept.grown.unvisited_le room.deep
  enough := by
    have fewer := kept.grown.unvisited_le
    have enough := room.enough
    omega

/-- Two versions of a part of the walk do the same within the room, but for the exception at the end
of the path buffer. -/
def Bounded {α : Type} (full : Fault) (own : List Nat) (storage : Storage.History BlockData)
    (bound held : Nat) (program program' : CheckM α) : Prop :=
  ∀ check free, Room own free storage bound held check →
    program' check = atPathEnd full (program check) ∧
      Outcome (fun _ after => Kept free check after) (fun fault after => Stopped held free check fault after)
        (program check)

namespace Bounded

variable {α β : Type} {full : Fault} {own : List Nat} {storage : Storage.History BlockData}
  {bound held : Nat}

/-- A program that neither takes pages nor marks nodes, and throws only the walk's errors, keeps the
bounds. -/
theorem quiet {program : CheckM α}
    (outcome : ∀ check, check.fs.storage = storage →
      Outcome
        (fun _ after => after.fs.pages = check.fs.pages ∧ after.fs.storage = check.fs.storage ∧
          after.fsck.nodeMap = check.fsck.nodeMap)
        (fun fault after => (after.fs.pages = check.fs.pages ∧
          after.fs.storage = check.fs.storage ∧ after.fsck.nodeMap = check.fsck.nodeMap) ∧
          Coded fault)
        (program check)) : Bounded full own storage bound held program program := by
  intro check free room
  have done := outcome check room.storage
  cases run : program check with
  | ok value after =>
    rw [run] at done
    obtain ⟨pages, stored, marks⟩ := done
    exact ⟨rfl, pages ▸ room.pool, fun page _ => by rw [pages], stored,
      fun nid marked => by rwa [marks]⟩
  | error fault after =>
    rw [run] at done
    obtain ⟨⟨pages, stored, marks⟩, coded⟩ := done
    have same : after.unvisited = check.unvisited := by rw [Check.unvisited, marks, Check.unvisited]
    refine ⟨?_, ⟨free, pages ▸ room.pool, ?_⟩, stored, fun nid marked => by rwa [marks],
      .inl coded⟩
    · rw [atPathEnd, endFault_of_ne coded.ne_undefined]
    · rw [same]
      omega

/-- Returning a value keeps the bounds. -/
theorem pure (value : α) : Bounded full own storage bound held (Pure.pure value) (Pure.pure value) :=
  quiet fun _ _ => ⟨rfl, rfl, rfl⟩

/-- Throwing one of the walk's errors keeps the bounds. -/
theorem throw {code : ErrorCode} (listed : code ∈ walkCodes) (message : String)
    (arguments : List Nat) :
    Bounded full own storage bound held (MonadExcept.throw (.fs code message arguments) : CheckM α)
      (MonadExcept.throw (.fs code message arguments)) :=
  quiet fun _ _ => ⟨⟨rfl, rfl, rfl⟩, code, message, arguments, rfl, listed⟩

/-- A check in front of a program keeps the bounds when the program, which may rely on what was
checked, does. -/
theorem guard {wrong : Prop} [Decidable wrong] {code : ErrorCode} (listed : code ∈ walkCodes)
    (message : String) (arguments : List Nat) {next next' : CheckM α}
    (bounded : ¬ wrong → Bounded full own storage bound held next next') :
    Bounded full own storage bound held
      (Lib.throwIf wrong (.fs code message arguments) >>= fun _ => next)
      (Lib.throwIf wrong (.fs code message arguments) >>= fun _ => next') := by
  intro check free room
  by_cases holds : wrong
  · rw [throwIf_bind_of holds, throwIf_bind_of holds]
    exact throw listed message arguments check free room
  · rw [throwIf_bind_of_not holds, throwIf_bind_of_not holds]
    exact bounded holds check free room

/-- Reading the state keeps the bounds. -/
theorem get : Bounded full own storage bound held (MonadState.get : CheckM Check) MonadState.get :=
  quiet fun _ _ => ⟨rfl, rfl, rfl⟩

/-- Changing the record of the check but not the visited nodes keeps the bounds. -/
theorem modifyFsck {change : Fsck → Fsck} (marks : ∀ fsck, (change fsck).nodeMap = fsck.nodeMap) :
    Bounded full own storage bound held (F2fs.modifyFsck change) (F2fs.modifyFsck change) :=
  quiet fun check _ => ⟨rfl, rfl, marks check.fsck⟩

/-- A sequence keeps the bounds when both parts do. -/
theorem bind {first first' : CheckM α} {next next' : α → CheckM β}
    (left : Bounded full own storage bound held first first')
    (right : ∀ value, Bounded full own storage bound held (next value) (next' value)) :
    Bounded full own storage bound held (first >>= next) (first' >>= next') := by
  intro check free room
  obtain ⟨same, done⟩ := left check free room
  rw [bind_apply, bind_apply, same]
  cases run : first check with
  | ok value middle =>
    rw [run] at done
    have kept : Kept free check middle := done
    obtain ⟨same', done'⟩ := right value middle free (room.next kept)
    refine ⟨same', ?_⟩
    show Outcome _ _ (next value middle)
    cases run' : next value middle with
    | ok value' after =>
      rw [run'] at done'
      have kept' : Kept free middle after := done'
      exact ⟨kept'.pool, fun page used => (kept'.used page used).trans (kept.used page used),
        kept'.storage.trans kept.storage, fun nid marked => kept'.grown nid (kept.grown nid marked)⟩
    | error fault after =>
      rw [run'] at done'
      have stopped : Stopped held free middle fault after := done'
      obtain ⟨free', pool, number⟩ := stopped.pool
      have fewer := kept.grown.unvisited_le
      exact ⟨⟨free', pool, by omega⟩, stopped.storage.trans kept.storage,
        fun nid marked => stopped.grown nid (kept.grown nid marked), stopped.fault⟩
  | error fault after =>
    rw [run] at done
    exact ⟨rfl, done⟩

/-- A program that only runs under a condition keeps the bounds when it does under the condition. -/
theorem doIf {cond : Prop} [Decidable cond] {program program' : CheckM PUnit}
    (bounded : cond → Bounded full own storage bound held program program') :
    Bounded full own storage bound held (Lib.doIf cond program) (Lib.doIf cond program') := by
  unfold Lib.doIf
  split
  · rename_i holds
    exact bounded holds
  · exact pure _

/-- A loop over a list keeps the bounds when its body does. -/
theorem forM {ι : Type} {items : List ι} {body body' : ι → CheckM PUnit}
    (each : ∀ item ∈ items, Bounded full own storage bound held (body item) (body' item)) :
    Bounded full own storage bound held (items.forM body) (items.forM body') := by
  induction items with
  | nil => exact pure _
  | cons head rest ih =>
    exact bind (each head (.head _)) fun _ => ih fun item member => each item (.tail _ member)

/-- A loop that threads a value keeps the bounds when its body does. -/
theorem foldlM {ι : Type} {items : List ι} {body body' : β → ι → CheckM β}
    (each : ∀ value, ∀ item ∈ items, Bounded full own storage bound held (body value item)
      (body' value item)) (start : β) :
    Bounded full own storage bound held (items.foldlM body start) (items.foldlM body' start) := by
  induction items generalizing start with
  | nil => exact pure _
  | cons head rest ih =>
    rw [List.foldlM_cons, List.foldlM_cons]
    exact bind (each start head (.head _)) fun value =>
      ih (fun value item member => each value item (.tail _ member)) value

/-- Bounds that hold with fewer pages of its own hold with more. -/
theorem mono {own' : List Nat} {program program' : CheckM α} {held' : Nat}
    (bounded : Bounded full own storage bound held program program') (fewer : own ⊆ own')
    (more : held ≤ held') : Bounded full own' storage bound held' program program' := by
  intro check free room
  have enough := room.enough
  obtain ⟨same, done⟩ := bounded check free
    ⟨room.pool, fun page member => room.own page (fewer member), room.storage, room.deep, by omega⟩
  refine ⟨same, ?_⟩
  cases run : program check with
  | ok value after =>
    rw [run] at done
    exact done
  | error fault after =>
    rw [run] at done
    have stopped : Stopped held free check fault after := done
    obtain ⟨free', pool, number⟩ := stopped.pool
    exact ⟨⟨free', pool, by omega⟩, stopped.storage, stopped.grown, stopped.fault⟩

end Bounded

/-! ## The parts of the walk -/

section Parts

variable {full : Fault} {own : List Nat} {storage : Storage.History BlockData} {bound held : Nat}

/-- Reading a block that was written returns its data in the page. -/
theorem readInto_of_some {fs : Fs} {blk : Nat} {data : BlockData}
    (found : storedAt fs.storage (phyblkToLba blk) = some data) (page : Nat) :
    readInto (phyblkToLba blk) page fs =
      .ok ⟨⟩ { fs with pages := fs.pages.update page fun info => { info with data } } :=
  readInto_eq_ok.mpr ⟨data, found, rfl⟩

/-- A check with another page pool. -/
def Check.withPages (check : Check) (pages : PageAllocator) : Check :=
  { check with fs := { check.fs with pages } }

/-- The first free page is taken. -/
theorem allocate_withPages {check : Check} {page : Nat} {rest : List Nat}
    (free : FreePages check.fs.pages (page :: rest)) :
    fsLens.zoom (pagesLens.zoom allocate) check = .ok page (check.withPages check.fs.pages.take) :=
  fsLens.zoom_of_ok free.zoom_allocate

/-- An own page is given back. -/
theorem free_withPages {check : Check} {page : Nat} {free : List Nat}
    (pool : FreePages check.fs.pages free) (used : page ∉ free) (inside : page < maxPageNum)
    (inUse : (check.fs.pages.page page).inUse = true) :
    fsLens.zoom (pagesLens.zoom (F2fs.free page)) check =
      .ok ⟨⟩ (check.withPages (check.fs.pages.release page)) :=
  fsLens.zoom_of_ok (zoom_free_eq_ok.mpr ⟨inUse, pool.usedNr_ne_zero used inside, rfl⟩)

/-- A written block is read into the page that was taken. -/
theorem read_withPages {check : Check} {blk : Nat} {data : BlockData}
    (found : storedAt check.fs.storage (phyblkToLba blk) = some data) :
    fsLens.zoom (readInto (phyblkToLba blk) check.fs.pages.freePtr)
        (check.withPages check.fs.pages.take) =
      .ok ⟨⟩ (check.withPages (check.fs.pages.takeInto data)) := by
  have present : storedAt (check.withPages check.fs.pages.take).fs.storage (phyblkToLba blk) =
      some data := found
  exact fsLens.zoom_of_ok (readInto_of_some present check.fs.pages.freePtr)

/-- The page that was read into holds the data. -/
theorem getData_withPages (check : Check) (data : BlockData) :
    fsLens.zoom (getData check.fs.pages.freePtr)
        (check.withPages (check.fs.pages.takeInto data)) =
      .ok data (check.withPages (check.fs.pages.takeInto data)) := by
  have held := check.fs.pages.takeInto_page_self data
  have got : getData check.fs.pages.freePtr
      (fsLens.get (check.withPages (check.fs.pages.takeInto data))) =
      .ok data (check.withPages (check.fs.pages.takeInto data)).fs :=
    congrArg (fun info : PageInfo => EStateM.Result.ok info.data _) held
  exact fsLens.zoom_of_ok got

/-- Taking the first free page and reading into it leaves room for one page less. -/
theorem Room.take {check : Check} {page : Nat} {rest : List Nat}
    (room : Room own (page :: rest) storage bound (held + 1) check) (data : BlockData) :
    Room (page :: own) rest storage bound held
      (check.withPages (check.fs.pages.takeInto data)) := by
  obtain ⟨start, inside⟩ := room.pool.head
  have absent : page ∉ rest := (List.nodup_cons.mp room.pool.nodup).1
  refine ⟨room.pool.takeInto data, fun other member => ?_, room.storage, room.deep, ?_⟩
  · rcases List.mem_cons.mp member with rfl | owned
    · refine ⟨absent, inside, ?_⟩
      have same := check.fs.pages.takeInto_page_self data
      rw [start] at same
      exact congrArg PageInfo.inUse same
    · obtain ⟨used, small, inUse⟩ := room.own other owned
      have apart : other ≠ check.fs.pages.freePtr :=
        fun same => used (same.trans start ▸ List.mem_cons_self)
      refine ⟨fun later => used (List.mem_cons_of_mem _ later), small, ?_⟩
      exact (congrArg PageInfo.inUse (PageAllocator.takeInto_page_of_ne apart data)).trans inUse
  · have enough := room.enough
    rw [List.length_cons] at enough
    show held + 2 * check.unvisited ≤ rest.length
    omega

/-- Giving back the page that was taken restores the free pages. -/
theorem Kept.release {check after : Check} {page : Nat} {rest : List Nat} {data : BlockData}
    (pool : FreePages check.fs.pages (page :: rest))
    (kept : Kept rest (check.withPages (check.fs.pages.takeInto data)) after) :
    fsLens.zoom (pagesLens.zoom (free page)) after =
        .ok ⟨⟩ (after.withPages (after.fs.pages.release page)) ∧
      Kept (page :: rest) check (after.withPages (after.fs.pages.release page)) := by
  obtain ⟨start, inside⟩ := pool.head
  have absent : page ∉ rest := (List.nodup_cons.mp pool.nodup).1
  have held : after.fs.pages.page page = { PageInfo.initial with data } := by
    rw [kept.used page absent, ← start]
    exact check.fs.pages.takeInto_page_self data
  refine ⟨free_withPages kept.pool absent inside (congrArg PageInfo.inUse held),
    kept.pool.release absent inside (kept.pool.usedNr_ne_zero absent inside),
    fun other used => ?_, kept.storage, kept.grown⟩
  have apart : other ≠ page := fun same => used (same ▸ List.mem_cons_self)
  have later : other ∉ rest := fun member => used (List.mem_cons_of_mem _ member)
  show (after.fs.pages.release page).page other = check.fs.pages.page other
  rw [PageAllocator.release_page_of_ne apart, kept.used other later]
  exact PageAllocator.takeInto_page_of_ne (start.symm ▸ apart) data

end Parts

/-! ## The four functions -/

section Walk

variable {full : Fault} {own : List Nat} {storage : Storage.History BlockData} {bound held : Nat}
  {chkNode chkNode' : Nat → FileType → BlockType → CheckM Nat}

/-- Two versions of the call that starts a node do the same while the depth lasts, and hold no page
of their own. -/
def NodeBounded (full : Fault) (storage : Storage.History BlockData) (bound : Nat)
    (chkNode chkNode' : Nat → FileType → BlockType → CheckM Nat) : Prop :=
  ∀ nid fileType blockType,
    Bounded full [] storage bound 0 (chkNode nid fileType blockType) (chkNode' nid fileType blockType)

/-- A call that starts a node keeps the bounds within any part. -/
theorem NodeBounded.call (bounded : NodeBounded full storage bound chkNode chkNode') (nid : Nat)
    (fileType : FileType) (blockType : BlockType) :
    Bounded full own storage bound held (chkNode nid fileType blockType)
      (chkNode' nid fileType blockType) :=
  (bounded nid fileType blockType).mono (List.nil_subset _) (Nat.zero_le _)

/-- The part of `fsck_chk_data_blk` that checks a directory block. -/
def chkDentryBlk (chkNode : Nat → FileType → BlockType → CheckM Nat) (nid offset blk : Nat) :
    CheckM Unit := do
  let page ← fsLens.zoom (pagesLens.zoom allocate)
  fsLens.zoom (readInto (phyblkToLba blk) page)
  let data ← fsLens.zoom (getData page)
  doIf (data.blockType ≠ .dentry) (failFreed page .wrongBlockType
    "data [%d, %d], phy=%d block type (%d) unmatch, expected: BLOCK_DENTRY"
    fun link => [nid, offset, blk, link])
  (List.range dentryPerBlock).forM (chkDentry chkNode data.dentry)
  fsLens.zoom (pagesLens.zoom (free page))

/-- The check with one more node marked. -/
def Check.visit (check : Check) (nid : Nat) : Check :=
  { check with fsck :=
    { check.fsck with nodeMap := Function.update check.fsck.nodeMap nid true } }

/-- Marking a node that was not marked leaves one fewer. -/
theorem Check.unvisited_visit {check : Check} {nid : Nat} (inside : nid < nodeNr)
    (unmarked : check.fsck.nodeMap nid = false) :
    (check.visit nid).unvisited + 1 = check.unvisited := by
  have count := countP_range_update (fun mark => decide (mark = false)) check.fsck.nodeMap inside
    true
  rw [decide_eq_true unmarked] at count
  exact count

/-- Marking a node leaves room for two more pages and for one level less. -/
theorem Room.visit {free : List Nat} {check : Check} {nid : Nat}
    (room : Room own free storage (bound + 1) held check) (inside : nid < nodeNr)
    (unmarked : check.fsck.nodeMap nid = false) :
    Room own free storage bound (held + 2) (check.visit nid) := by
  have fewer := check.unvisited_visit inside unmarked
  have enough := room.enough
  have deep := room.deep
  exact ⟨room.pool, room.own, room.storage, by omega, by omega⟩

end Walk

/-! ## The pages of a mounted file system -/

/-- Changing a page that is in use leaves the free pages. -/
theorem FreePages.modifyPage {fs fs' : Fs} {page : Nat} {rest : List Nat} {result : Unit}
    {change : PageInfo → PageInfo} (free : FreePages fs.pages rest) (absent : page ∉ rest)
    (run : F2fs.modifyPage page change fs = .ok result fs') : FreePages fs'.pages rest := by
  cases run
  exact free.update absent change

/-- Reading a node that is not cached takes one page. -/
theorem readNode_pool {fs fs' : Fs} {nid page first : Nat} {rest : List Nat}
    (run : readNode nid fs = .ok page fs') (uncached : fs.nat.nodeCache nid = invalidPage)
    (free : FreePages fs.pages (first :: rest)) : page = first ∧ FreePages fs'.pages rest := by
  simp only [readNode, throwIf_bind_eq_ok, get_bind_apply, uncached] at run
  obtain ⟨-, run⟩ := run
  rw [if_neg (not_not.mpr rfl), bind_eq_ok] at run
  obtain ⟨blk, fs₁, looked, run⟩ := run
  obtain ⟨-, rfl, rfl⟩ := zoom_getPhyBlk_eq_ok.mp looked
  rw [throwIf_bind_eq_ok] at run
  obtain ⟨-, run⟩ := run
  simp only [bind_eq_ok] at run
  obtain ⟨found, fs₂, allocated, _, fs₃, read, _, fs₄, placed, _, fs₅, cached, data, fs₆, got, _,
    fs₇, typed, _, fs₈, counted, _, fs₉, stored, done⟩ := run
  rw [free.zoom_allocate] at allocated
  cases allocated
  have absent : first ∉ rest := (List.nodup_cons.mp free.nodup).1
  obtain ⟨data', -, same₃⟩ := readInto_eq_ok.mp read
  have free₃ : FreePages fs₃.pages rest := by
    rw [same₃]
    exact free.take.update absent fun info => { info with data := data' }
  have free₄ : FreePages fs₄.pages rest := FreePages.modifyPage free₃ absent placed
  have free₅ : FreePages fs₅.pages rest := by
    cases cached
    exact free₄
  cases got
  obtain ⟨-, rfl⟩ := throwIf_eq_ok.mp typed
  cases done
  refine ⟨rfl, ?_⟩
  cases doIf_eq_ok.mp counted with
  | inl inode => exact (FreePages.modifyPage free₅ absent inode.2).modifyPage absent stored
  | inr index =>
    obtain ⟨-, rfl⟩ := index
    exact FreePages.modifyPage free₅ absent stored

/-- A mount that starts without a cached root takes five pages: four for the NAT, one for the root. -/
theorem mount_pool {fs m : Fs} {result : Unit} {pages : List Nat} (run : mount fs = .ok result m)
    (uncached : fs.nat.nodeCache rootFid = invalidPage) (free : FreePages fs.pages pages)
    (enough : natBlkNr + 1 < pages.length) :
    ∃ rest, FreePages m.pages rest ∧ pages.length = rest.length + natBlkNr + 1 := by
  simp only [mount, bind_eq_ok] at run
  obtain ⟨slot, fs₁, ckpt, _, fs₂, segments, _, fs₃, nat, page, fs₄, root, _, fs₅, counted, data,
    fs₆, got, _, fs₇, checked, cached⟩ := run
  obtain ⟨-, same⟩ := loadCheckpoint_eq_ok.mp ckpt
  have pages₁ : fs₁.pages = fs.pages := by rw [same]
  have nat₁ : fs₁.nat = fs.nat := by rw [same]
  rw [← pages₁] at free
  rw [← nat₁] at uncached
  obtain ⟨first, others, rfl⟩ := List.exists_cons_of_length_pos (by omega : 0 < pages.length)
  obtain ⟨fs₂', segments', free₂, -⟩ := loadSegments_runs free (loadSegments_ok segments).1
  obtain rfl : fs₂' = fs₂ := by
    rw [segments] at segments'
    cases segments'
    rfl
  have split : first :: others = (first :: others).take natBlkNr ++ (first :: others).drop natBlkNr :=
    (List.take_append_drop ..).symm
  rw [split] at free₂
  obtain ⟨fs₃', nat', free₃, -⟩ := loadNat_runs free₂ (by rw [List.length_take]; omega)
    (loadNat_ok nat).1
  obtain rfl : fs₃' = fs₃ := by
    rw [nat] at nat'
    cases nat'
    rfl
  obtain ⟨next, rest, more⟩ := List.exists_cons_of_length_pos
    (by rw [List.length_drop]; omega : 0 < ((first :: others).drop natBlkNr).length)
  rw [more] at free₃
  have still : fs₂'.nat = fs₁.nat := (loadSegments_ok segments).2.2.1
  have cache : fs₃'.nat.nodeCache rootFid = invalidPage := by
    rw [(loadNat_ok nat).2.2.2, still]
    exact uncached
  obtain ⟨rfl, free₄⟩ := readNode_pool root cache free₃
  have absent : page ∉ rest := (List.nodup_cons.mp free₃.nodup).1
  have free₅ := FreePages.modifyPage free₄ absent counted
  cases got
  obtain ⟨-, rfl⟩ := throwIf_eq_ok.mp checked
  cases cached
  refine ⟨rest, free₅, ?_⟩
  have length := congrArg List.length more
  have blocks : natBlkNr = 4 := rfl
  simp only [List.length_drop, List.length_cons] at length enough ⊢
  omega

/-! ## Any image -/

/-- After `Reset` every page is free and no node is cached. -/
theorem reset_pool {fs₀ fs : Fs} {rollback : Nat} {result : Unit}
    (run : reset rollback fs₀ = .ok result fs) :
    FreePages fs.pages (List.range maxPageNum) ∧ fs.nat.nodeCache rootFid = invalidPage := by
  simp only [reset, get_bind_apply, bind_eq_ok] at run
  obtain ⟨_, _, -, _, fs₁, dropped, _, fs₂, opened, _, fs₃, segments, _, fs₄, nat, pages⟩ := run
  cases pages
  cases nat
  exact ⟨FreePages.initial _, rfl⟩

end FsChecking.F2fs
