import FsChecking.F2fs.Load

/-!
# Flushing a table

What `f2fs_flush_nat_entries` and `f2fs_flush_sit_entries` do to the table that the storage holds.
While a table is flushed its value is spread over the current copies of its blocks, the pages that
blocks were merged into and the journal; each round of the loops keeps this value but for the dirty
entry that it takes over from memory. No write goes to a block of the last checkpoint.
-/

namespace FsChecking.F2fs

open Lib

/-- The parts of a file system that the flush of a table changes. -/
structure Stage (ι : Type) where
  /-- The number of journal entries. -/
  journalLen : Nat
  /-- The journal. -/
  journals : Nat → JournalEntry ι
  /-- Which copy of each block is current. -/
  verBitmap : BitVec 32
  /-- The dirty flags. -/
  dirty : Nat → BitVec 32
  /-- The page pool. -/
  pages : PageAllocator
  /-- The storage. -/
  storage : Storage.History BlockData

section Stages

variable {ι : Type} (area : Area ι)

/-- The parts of a file system. -/
def Area.stage (fs : Fs) : Stage ι where
  journalLen := area.journalLen.get fs.checkpoint
  journals := area.journals.get fs.checkpoint
  verBitmap := area.verBitmap.get fs.checkpoint
  dirty := area.dirty.get fs
  pages := fs.pages
  storage := fs.storage

/-- A file system with other parts. -/
def Area.put (fs : Fs) (stage : Stage ι) : Fs :=
  area.dirty.put stage.dirty
    { fs with
      checkpoint := area.journalLen.put stage.journalLen
        (area.journals.put stage.journals (area.verBitmap.put stage.verBitmap fs.checkpoint))
      pages := stage.pages
      storage := stage.storage }

/-- The parts of a file system are changed one by one, and the table in memory is none of them. -/
structure Area.Lawful : Prop where
  /-- The parts are read back. -/
  stage_put : ∀ fs stage, area.stage (area.put fs stage) = stage
  /-- A file system has its own parts. -/
  put_stage : ∀ fs, area.put fs (area.stage fs) = fs
  /-- The table. -/
  table : ∀ fs stage, area.table (area.put fs stage) = area.table fs
  /-- Changing the number of journal entries. -/
  journalLen : ∀ fs stage value,
    { area.put fs stage with
      checkpoint := area.journalLen.put value (area.put fs stage).checkpoint } =
      area.put fs { stage with journalLen := value }
  /-- Changing the journal. -/
  journals : ∀ fs stage value,
    { area.put fs stage with
      checkpoint := area.journals.put value (area.put fs stage).checkpoint } =
      area.put fs { stage with journals := value }
  /-- Changing the current copies. -/
  verBitmap : ∀ fs stage value,
    { area.put fs stage with
      checkpoint := area.verBitmap.put value (area.put fs stage).checkpoint } =
      area.put fs { stage with verBitmap := value }
  /-- Changing the dirty flags. -/
  dirty : ∀ fs stage value,
    area.dirty.put value (area.put fs stage) = area.put fs { stage with dirty := value }
  /-- Changing the page pool. -/
  pages : ∀ fs stage value,
    { area.put fs stage with pages := value } = area.put fs { stage with pages := value }
  /-- Changing the storage. -/
  storage : ∀ fs stage value,
    { area.put fs stage with storage := value } = area.put fs { stage with storage := value }

/-- The sizes of a table fit together. -/
structure Area.Sized : Prop where
  /-- A block has entries. -/
  positive : 0 < area.entryPerBlk
  /-- The dirty flags of a block fit into a word. -/
  word : area.entryPerBlk ≤ 32
  /-- All entries are in blocks. -/
  entries : area.entryNr ≤ area.blkNr * area.entryPerBlk
  /-- Every block has a bit. -/
  bitmap : area.blkNr ≤ 32
  /-- Both copies are on the storage. -/
  inside : area.startBlk + 2 * area.blkNr ≤ totalBlockNr

end Stages

/-- The node address table. -/
theorem natArea_lawful : natArea.Lawful where
  stage_put _ _ := rfl
  put_stage _ := rfl
  table _ _ := rfl
  journalLen _ _ _ := rfl
  journals _ _ _ := rfl
  verBitmap _ _ _ := rfl
  dirty _ _ _ := rfl
  pages _ _ _ := rfl
  storage _ _ _ := rfl

/-- The segment information table. -/
theorem sitArea_lawful : sitArea.Lawful where
  stage_put _ _ := rfl
  put_stage _ := rfl
  table _ _ := rfl
  journalLen _ _ _ := rfl
  journals _ _ _ := rfl
  verBitmap _ _ _ := rfl
  dirty _ _ _ := rfl
  pages _ _ _ := rfl
  storage _ _ _ := rfl

/-- The sizes of the node address table. -/
theorem natArea_sized : natArea.Sized := by
  constructor <;> decide

/-- The sizes of the segment information table. -/
theorem sitArea_sized : sitArea.Sized := by
  constructor <;> decide

/-! ## The value of a table -/

section Values

variable {ι : Type} (area : Area ι)

/-- The address of a copy of a block. -/
def Area.copy (verBitmap : BitVec 32) (blk : Nat) : Nat :=
  blk + area.startBlk + if verBitmap.getLsbD blk then area.blkNr else 0

/-- The block of an entry, in its page or in its current copy. -/
def Area.held (stage : Stage ι) (pages : Nat → Option Nat) (blk : Nat) : BlockData :=
  match pages blk with
  | some page => (stage.pages.page page).data
  | none => blockOf stage.storage (area.copy stage.verBitmap blk)

/-- An entry without the journal. -/
def Area.cell (stage : Stage ι) (pages : Nat → Option Nat) (key : Nat) : ι :=
  area.entries.get (area.held stage pages (key / area.entryPerBlk)) (key % area.entryPerBlk)

/-- A block with another entry of the table. -/
def Area.withEntry (key : Nat) (value : ι) (data : BlockData) : BlockData :=
  area.entries.put (Function.update (area.entries.get data) (key % area.entryPerBlk) value) data

/-- The first entries of the journal, oldest first. -/
def Stage.journal (stage : Stage ι) (count : Nat) : List (Nat × ι) :=
  (List.range count).map fun index => ((stage.journals index).key, (stage.journals index).value)

/-- The table while it is flushed. -/
def Area.value (stage : Stage ι) (pages : Nat → Option Nat) : Nat → ι :=
  replay (stage.journal stage.journalLen) (area.cell stage pages)

/-- Without pages this is the table that the storage holds. -/
theorem Area.value_none (fs : Fs) :
    area.value (area.stage fs) (fun _ => none) = area.stored fs.checkpoint fs.storage := rfl

/-- The state of a flush: the pages that blocks were merged into, and the free pages. -/
structure Area.Buffered (stage : Stage ι) (pages : Nat → Option Nat) (free : List Nat) : Prop where
  /-- The free pages. -/
  linked : LinkedPages stage.pages free
  /-- Pages of blocks are in use. -/
  inside : ∀ blk page, pages blk = some page →
    blk < area.blkNr ∧ (stage.pages.page page).inUse = true
  /-- Blocks have pages of their own. -/
  apart : ∀ blk blk' page, pages blk = some page → pages blk' = some page → blk = blk'
  /-- The current copies were written. -/
  mapped : ∀ blk < area.blkNr, (storedAt stage.storage (area.copy stage.verBitmap blk)).isSome

/-- The journal of a flush fits, and its keys are inside the table. -/
structure Area.Journaled (stage : Stage ι) : Prop where
  /-- It fits into its blocks. -/
  length : stage.journalLen ≤ journalNr
  /-- The keys are inside the table. -/
  keys : ∀ index < stage.journalLen, (stage.journals index).key < area.entryNr

end Values

section Rounds

variable {ι : Type} {area : Area ι} {fs : Fs} {stage : Stage ι} {pages : Nat → Option Nat}
  {free : List Nat} {blk key : Nat}

/-- The block of an entry is inside the area. -/
theorem Area.Sized.block (sized : area.Sized) (inside : key < area.entryNr) :
    key / area.entryPerBlk < area.blkNr := by
  have few := sized.entries
  exact Nat.div_lt_of_lt_mul (by rw [Nat.mul_comm]; omega)

/-- The state of a flush after a block was read into a free page. -/
theorem Area.Buffered.takeInto {rest : List Nat}
    (buffered : area.Buffered stage pages (stage.pages.freePtr :: rest))
    (inside : blk < area.blkNr) (missing : pages blk = none) {data : BlockData}
    (stored : storedAt stage.storage (area.copy stage.verBitmap blk) = some data) :
    area.Buffered { stage with pages := stage.pages.takeInto data }
        (Function.update pages blk (some stage.pages.freePtr)) rest ∧
      area.cell { stage with pages := stage.pages.takeInto data }
        (Function.update pages blk (some stage.pages.freePtr)) = area.cell stage pages := by
  have own := stage.pages.takeInto_page_self data
  have far : ∀ blk page, pages blk = some page → page ≠ stage.pages.freePtr := by
    intro blk page found same
    have used := (buffered.inside blk page found).2
    exact buffered.linked.not_mem used (same ▸ List.mem_cons_self)
  have other : ∀ blk page, pages blk = some page →
      (stage.pages.takeInto data).page page = stage.pages.page page := fun blk page found =>
    PageAllocator.takeInto_page_of_ne (far blk page found) data
  constructor
  · refine ⟨buffered.linked.takeInto data, fun blk' page found => ?_,
      fun first second page found found' => ?_, buffered.mapped⟩
    · by_cases same : blk' = blk
      · rw [same, Function.update_self] at found
        obtain rfl := Option.some.inj found
        exact ⟨same ▸ inside, congrArg PageInfo.inUse own⟩
      · rw [Function.update_of_ne same] at found
        obtain ⟨inArea, used⟩ := buffered.inside blk' page found
        exact ⟨inArea, (congrArg PageInfo.inUse (other blk' page found)).trans used⟩
    · by_cases same : first = blk
      · by_cases same' : second = blk
        · exact same.trans same'.symm
        · rw [same, Function.update_self] at found
          rw [Function.update_of_ne same'] at found'
          exact absurd (Option.some.inj found).symm (far second page found')
      · rw [Function.update_of_ne same] at found
        by_cases same' : second = blk
        · rw [same', Function.update_self] at found'
          exact absurd (Option.some.inj found').symm (far first page found)
        · rw [Function.update_of_ne same'] at found'
          exact buffered.apart first second page found found'
  · have sameBlocks : ∀ blk', area.held { stage with pages := stage.pages.takeInto data }
        (Function.update pages blk (some stage.pages.freePtr)) blk' =
        area.held stage pages blk' := by
      intro blk'
      unfold Area.held
      by_cases same : blk' = blk
      · rw [same, Function.update_self, missing, blockOf, stored]
        exact congrArg PageInfo.data own
      · rw [Function.update_of_ne same]
        cases held : pages blk' with
        | none => rfl
        | some page => exact congrArg PageInfo.data (other blk' page held)
    funext key
    unfold Area.cell
    rw [sameBlocks]

/-- Finding the page of a block: the block is read into a free page if it has none. -/
theorem Area.pageOf_spec (lawful : area.Lawful) (buffered : area.Buffered stage pages free)
    (inside : blk < area.blkNr) {fs' : Fs} {page : Nat} {pages' : Nat → Option Nat}
    (run : area.pageOf pages blk (area.put fs stage) = .ok (page, pages') fs') :
    ∃ pool free', fs' = area.put fs { stage with pages := pool } ∧
      pages' blk = some page ∧ area.Buffered { stage with pages := pool } pages' free' ∧
      area.cell { stage with pages := pool } pages' = area.cell stage pages := by
  unfold Area.pageOf at run
  cases here : pages blk with
  | some found =>
    rw [here] at run
    cases run
    exact ⟨stage.pages, free, rfl, here, buffered, rfl⟩
  | none =>
    rw [here] at run
    obtain ⟨taken, fs₁, allocated, run⟩ := bind_eq_ok.mp run
    obtain ⟨-, inPool, rfl, rfl⟩ := zoom_allocate_eq_ok.mp allocated
    have pool : (area.put fs stage).pages = stage.pages :=
      congrArg Stage.pages (lawful.stage_put fs stage)
    rw [get_bind_apply, pool, lawful.pages] at run
    rw [pool] at inPool
    obtain ⟨_, fs₂, read, done⟩ := bind_eq_ok.mp run
    obtain ⟨data, stored, rfl⟩ := readInto_eq_ok.mp read
    have parts := lawful.stage_put fs { stage with pages := stage.pages.take }
    have address : area.block (area.put fs { stage with pages := stage.pages.take }).checkpoint
        blk = area.copy stage.verBitmap blk :=
      congrArg (fun parts : Stage ι => area.copy parts.verBitmap blk) parts
    have onStorage : (area.put fs { stage with pages := stage.pages.take }).storage =
        stage.storage := congrArg Stage.storage parts
    have pool' : (area.put fs { stage with pages := stage.pages.take }).pages =
        stage.pages.take := congrArg Stage.pages parts
    rw [address, onStorage] at stored
    obtain ⟨rest, rfl⟩ := buffered.linked.head inPool
    obtain ⟨buffered', cells⟩ := buffered.takeInto inside here stored
    cases done
    refine ⟨stage.pages.takeInto data, rest, ?_, Function.update_self .., buffered', cells⟩
    rw [pool', lawful.pages]
    rfl

/-- Storing an entry in the page of its block. -/
theorem Area.Buffered.store (buffered : area.Buffered stage pages free) {page : Nat}
    (here : pages (key / area.entryPerBlk) = some page) (value : ι) :
    let change := fun info : PageInfo => { info with data := area.withEntry key value info.data }
    area.Buffered { stage with pages := stage.pages.update page change } pages free ∧
      area.cell { stage with pages := stage.pages.update page change } pages =
        Function.update (area.cell stage pages) key value := by
  intro change
  obtain ⟨-, used⟩ := buffered.inside _ page here
  constructor
  · refine ⟨buffered.linked.update (buffered.linked.not_mem used) change, fun blk page' found => ?_,
      buffered.apart, buffered.mapped⟩
    obtain ⟨inArea, inUse⟩ := buffered.inside blk page' found
    refine ⟨inArea, ?_⟩
    by_cases same : page' = page
    · subst same
      exact (congrArg PageInfo.inUse (stage.pages.update_page_self page' change)).trans inUse
    · exact (congrArg PageInfo.inUse (PageAllocator.update_page_of_ne same change)).trans inUse
  · funext other
    unfold Area.cell
    by_cases word : other / area.entryPerBlk = key / area.entryPerBlk
    · have own : area.held { stage with pages := stage.pages.update page change } pages
          (key / area.entryPerBlk) =
          area.withEntry key value (area.held stage pages (key / area.entryPerBlk)) := by
        unfold Area.held
        rw [here]
        exact congrArg PageInfo.data (stage.pages.update_page_self page change)
      rw [word, own, Area.withEntry, area.entries.get_put]
      by_cases same : other = key
      · subst same
        rw [Function.update_self, Function.update_self]
      · have slot : other % area.entryPerBlk ≠ key % area.entryPerBlk := fun equal =>
          same ((flag_eq_iff word).mpr equal)
        rw [Function.update_of_ne slot, Function.update_of_ne same, word]
    · have apart : other ≠ key := fun same => word (by rw [same])
      rw [Function.update_of_ne apart]
      have same : area.held { stage with pages := stage.pages.update page change } pages
          (other / area.entryPerBlk) = area.held stage pages (other / area.entryPerBlk) := by
        unfold Area.held
        cases found : pages (other / area.entryPerBlk) with
        | none => rfl
        | some page' =>
          have different : page' ≠ page := by
            rintro rfl
            exact word (buffered.apart _ _ page' found here)
          exact congrArg PageInfo.data (PageAllocator.update_page_of_ne different change)
      rw [same]

/-- Merging one journal entry. -/
theorem Area.outEntry_spec (lawful : area.Lawful) (buffered : area.Buffered stage pages free)
    {index : Nat} {pages' : Nat → Option Nat} {fs' : Fs}
    (run : area.outEntry pages index (area.put fs stage) = .ok pages' fs') :
    ∃ pool free', fs' = area.put fs { stage with pages := pool } ∧
      area.Buffered { stage with pages := pool } pages' free' ∧
      area.cell { stage with pages := pool } pages' =
        Function.update (area.cell stage pages) (stage.journals index).key
          (stage.journals index).value := by
  have journals : area.journals.get (area.put fs stage).checkpoint = stage.journals :=
    congrArg Stage.journals (lawful.stage_put fs stage)
  unfold Area.outEntry at run
  rw [get_bind_apply, journals, throwIf_bind_eq_ok] at run
  obtain ⟨inside, run⟩ := run
  obtain ⟨⟨page, pages₁⟩, fs₁, found, run⟩ := bind_eq_ok.mp run
  obtain ⟨pool, free', rfl, here, buffered', cells⟩ :=
    area.pageOf_spec lawful buffered (Nat.not_le.mp inside) found
  obtain ⟨stored, changed⟩ := buffered'.store here (stage.journals index).value
  have inPool : (area.put fs { stage with pages := pool }).pages = pool :=
    congrArg Stage.pages (lawful.stage_put fs _)
  change (modifyData page (area.withEntry _ _) >>= fun _ => pure pages₁) _ = _ at run
  unfold modifyData modifyPage at run
  rw [modify_bind_apply, pure_apply, inPool, lawful.pages] at run
  cases run
  refine ⟨_, free', rfl, stored, ?_⟩
  rw [changed, cells]

/-- Merging the first entries of the journal. -/
theorem Area.outEntries_spec (lawful : area.Lawful) (buffered : area.Buffered stage pages free)
    {count : Nat} {pages' : Nat → Option Nat} {fs' : Fs}
    (run : (List.range count).foldlM area.outEntry pages (area.put fs stage) = .ok pages' fs') :
    ∃ pool free', fs' = area.put fs { stage with pages := pool } ∧
      area.Buffered { stage with pages := pool } pages' free' ∧
      area.cell { stage with pages := pool } pages' =
        replay (stage.journal count) (area.cell stage pages) := by
  induction count generalizing pages' fs' with
  | zero =>
    cases run
    exact ⟨stage.pages, free, rfl, buffered, rfl⟩
  | succ count ih =>
    rw [List.range_succ, List.foldlM_append] at run
    obtain ⟨pages₁, fs₁, early, run⟩ := bind_eq_ok.mp run
    obtain ⟨pool₁, free₁, rfl, buffered₁, cells₁⟩ := ih early
    rw [List.foldlM_cons] at run
    obtain ⟨pages₂, fs₂, last, done⟩ := bind_eq_ok.mp run
    obtain ⟨pool₂, free₂, rfl, buffered₂, cells₂⟩ := area.outEntry_spec lawful buffered₁ last
    cases done
    refine ⟨pool₂, free₂, rfl, buffered₂, ?_⟩
    rw [cells₂, cells₁, Stage.journal, Stage.journal, List.range_succ, List.map_append,
      List.map_singleton, replay_append_singleton]

/-- Merging the whole journal. -/
theorem Area.outJournal_spec (lawful : area.Lawful) (buffered : area.Buffered stage pages free)
    {pages' : Nat → Option Nat} {fs' : Fs}
    (run : area.outJournal pages (area.put fs stage) = .ok pages' fs') :
    ∃ pool free', fs' = area.put fs { stage with journalLen := 0, pages := pool } ∧
      area.Buffered { stage with journalLen := 0, pages := pool } pages' free' ∧
      area.value { stage with journalLen := 0, pages := pool } pages' =
        area.value stage pages := by
  have length : area.journalLen.get (area.put fs stage).checkpoint = stage.journalLen :=
    congrArg Stage.journalLen (lawful.stage_put fs stage)
  unfold Area.outJournal at run
  rw [get_bind_apply, length] at run
  obtain ⟨pages₁, fs₁, merged, done⟩ := bind_eq_ok.mp run
  obtain ⟨pool, free', rfl, buffered', cells⟩ := area.outEntries_spec lawful buffered merged
  unfold modifyCkpt at done
  rw [modify_bind_apply, pure_apply, lawful.journalLen] at done
  cases done
  exact ⟨pool, free', rfl,
    ⟨buffered'.linked, buffered'.inside, buffered'.apart, buffered'.mapped⟩, cells⟩

/-- The journal with one more entry. -/
def Stage.journaled (stage : Stage ι) (entry : JournalEntry ι) : Stage ι :=
  { stage with
    journals := Function.update stage.journals stage.journalLen entry
    journalLen := stage.journalLen + 1 }

/-- The entries of a journal with one more entry. -/
theorem Stage.journal_journaled (stage : Stage ι) (entry : JournalEntry ι) :
    (stage.journaled entry).journal (stage.journalLen + 1) =
      stage.journal stage.journalLen ++ [(entry.key, entry.value)] := by
  unfold Stage.journal Stage.journaled
  dsimp only
  rw [List.range_succ, List.map_append, List.map_singleton, Function.update_self]
  congr 1
  apply List.map_congr_left
  intro index member
  have early : index ≠ stage.journalLen := Nat.ne_of_lt (List.mem_range.mp member)
  rw [Function.update_of_ne early]

/-- The table when one more entry is in the journal. -/
theorem Area.value_journaled (stage : Stage ι) (pages : Nat → Option Nat) (entry : JournalEntry ι) :
    area.value (stage.journaled entry) pages =
      Function.update (area.value stage pages) entry.key entry.value := by
  have journal := stage.journal_journaled entry
  show replay ((stage.journaled entry).journal (stage.journalLen + 1)) _ = _
  rw [journal, replay_append_singleton]
  rfl

/-- Storing one more journal entry. -/
theorem Area.Lawful.put_journaled (lawful : area.Lawful) (entry : JournalEntry ι) :
    { area.put fs stage with
      checkpoint := area.journalLen.put (stage.journalLen + 1) (area.journals.put
        (Function.update stage.journals stage.journalLen entry) (area.put fs stage).checkpoint) } =
      area.put fs (stage.journaled entry) := by
  have first := lawful.journals fs stage
    (Function.update stage.journals stage.journalLen entry)
  have second := lawful.journalLen fs
    { stage with journals := Function.update stage.journals stage.journalLen entry }
    (stage.journalLen + 1)
  rw [← first] at second
  exact second

/-- Making room in a full journal. -/
theorem Area.makeRoom_spec (lawful : area.Lawful) (buffered : area.Buffered stage pages free)
    (journaled : area.Journaled stage) {pages' : Nat → Option Nat} {fs' : Fs}
    (run : (if stage.journalLen ≥ journalNr then area.outJournal pages else pure pages)
      (area.put fs stage) = .ok pages' fs') :
    ∃ stage' free', fs' = area.put fs stage' ∧
      area.Buffered stage' pages' free' ∧ area.Journaled stage' ∧
      stage'.journalLen < journalNr ∧ stage'.verBitmap = stage.verBitmap ∧
      stage'.storage = stage.storage ∧ stage'.dirty = stage.dirty ∧
      area.value stage' pages' = area.value stage pages := by
  split at run
  · obtain ⟨pool, free', rfl, buffered', values⟩ := area.outJournal_spec lawful buffered run
    refine ⟨_, free', rfl, buffered', ⟨Nat.zero_le _, fun index below => ?_⟩,
      Nat.succ_pos _, rfl, rfl, rfl, values⟩
    exact absurd below (Nat.not_lt_zero index)
  · rename_i room
    cases run
    exact ⟨stage, free, rfl, buffered, journaled, Nat.not_le.mp room, rfl, rfl, rfl, rfl⟩

/-- What follows both branches of a condition follows the condition. -/
theorem ite_bind {α β : Type} {cond : Prop} [Decidable cond] (first second : FsM α)
    (next : α → FsM β) :
    (if cond then first >>= next else second >>= next) =
      (if cond then first else second) >>= next := by
  split <;> rfl

/-- Putting one entry into the journal. -/
theorem Area.journalEntry_spec (lawful : area.Lawful) (sized : area.Sized)
    (buffered : area.Buffered stage pages free) (journaled : area.Journaled stage)
    (inside : key < area.entryNr) {pages' : Nat → Option Nat} {fs' : Fs}
    (run : area.journalEntry pages key (area.put fs stage) = .ok pages' fs') :
    ∃ stage' free', fs' = area.put fs stage' ∧
      area.Buffered stage' pages' free' ∧ area.Journaled stage' ∧
      stage'.verBitmap = stage.verBitmap ∧ stage'.storage = stage.storage ∧
      (∀ other, testFlag area.entryPerBlk stage'.dirty other =
        (testFlag area.entryPerBlk stage.dirty other && !decide (other = key))) ∧
      ∀ other, area.value stage' pages' other =
        if other = key ∧ testFlag area.entryPerBlk stage.dirty key = true then area.table fs key
        else area.value stage pages other := by
  have dirty : area.dirty.get (area.put fs stage) = stage.dirty :=
    congrArg Stage.dirty (lawful.stage_put fs stage)
  unfold Area.journalEntry at run
  rw [get_bind_apply, dirty] at run
  cases flag : testFlag area.entryPerBlk stage.dirty key with
  | false =>
    rw [flag] at run
    cases run
    refine ⟨stage, free, rfl, buffered, journaled, rfl, rfl, fun other => ?_, fun other => ?_⟩
    · by_cases same : other = key
      · rw [same, flag]
        rfl
      · simp [same]
    · rw [if_neg fun both => Bool.false_ne_true both.2]
  | true =>
    have length : area.journalLen.get (area.put fs stage).checkpoint = stage.journalLen :=
      congrArg Stage.journalLen (lawful.stage_put fs stage)
    rw [flag, if_pos rfl, get_bind_apply, length] at run
    obtain ⟨pages₁, fs₁, makeRoom, run⟩ := bind_eq_ok.mp ((congrFun (ite_bind ..) _).symm.trans run)
    obtain ⟨stage', free', rfl, buffered', journaled', room, bitmap, onStorage, flags, values⟩ :=
      area.makeRoom_spec lawful buffered journaled makeRoom
    have parts := lawful.stage_put fs stage'
    let entry : JournalEntry ι := { key, value := area.table fs key }
    let cleared := clearFlag area.entryPerBlk stage'.dirty key
    have stored : { area.put fs stage' with
        checkpoint := area.journalLen.put (area.journalLen.get (area.put fs stage').checkpoint + 1)
          (area.journals.put (Function.update (area.journals.get (area.put fs stage').checkpoint)
            (area.journalLen.get (area.put fs stage').checkpoint) entry)
            (area.put fs stage').checkpoint) } = area.put fs (stage'.journaled entry) := by
      rw [show area.journalLen.get (area.put fs stage').checkpoint = stage'.journalLen from
        congrArg Stage.journalLen parts, show area.journals.get (area.put fs stage').checkpoint =
        stage'.journals from congrArg Stage.journals parts]
      exact lawful.put_journaled entry
    have flagged : area.dirty.get (area.put fs (stage'.journaled entry)) = stage'.dirty :=
      congrArg Stage.dirty (lawful.stage_put fs _)
    have final : fs' = area.put fs { stage'.journaled entry with dirty := cleared } ∧
        pages₁ = pages' := by
      dsimp only at run
      rw [get_bind_apply, lawful.table] at run
      unfold modifyCkpt at run
      rw [modify_bind_apply, modify_bind_apply, pure_apply] at run
      dsimp only at run
      rw [stored, flagged, lawful.dirty] at run
      cases run
      exact ⟨rfl, rfl⟩
    obtain ⟨rfl, rfl⟩ := final
    refine ⟨_, free', rfl,
      ⟨buffered'.linked, buffered'.inside, buffered'.apart, buffered'.mapped⟩,
      ⟨room, fun index below => ?_⟩, bitmap, onStorage, fun other => ?_, fun other => ?_⟩
    · show (Function.update stage'.journals stage'.journalLen entry index).key < area.entryNr
      by_cases last : index = stage'.journalLen
      · rw [last, Function.update_self]
        exact inside
      · rw [Function.update_of_ne last]
        have below' : index < stage'.journalLen + 1 := below
        exact journaled'.keys index (by omega)
    · show testFlag area.entryPerBlk cleared other = _
      rw [testFlag_clearFlag sized.positive sized.word, flags]
    · show area.value (stage'.journaled entry) pages₁ other = _
      rw [Area.value_journaled, values]
      by_cases same : other = key
      · rw [if_pos ⟨same, rfl⟩, same]
        exact Function.update_self ..
      · rw [if_neg fun both => same both.1]
        exact Function.update_of_ne same ..

/-- Putting the first entries of the table into the journal. -/
theorem Area.journalEntries_spec (lawful : area.Lawful) (sized : area.Sized)
    (buffered : area.Buffered stage pages free) (journaled : area.Journaled stage)
    {count : Nat} (few : count ≤ area.entryNr) {pages' : Nat → Option Nat} {fs' : Fs}
    (run : (List.range count).foldlM area.journalEntry pages (area.put fs stage) =
      .ok pages' fs') :
    ∃ stage' free', fs' = area.put fs stage' ∧
      area.Buffered stage' pages' free' ∧ area.Journaled stage' ∧
      stage'.verBitmap = stage.verBitmap ∧ stage'.storage = stage.storage ∧
      (∀ other, testFlag area.entryPerBlk stage'.dirty other =
        (testFlag area.entryPerBlk stage.dirty other && !decide (other < count))) ∧
      ∀ other, area.value stage' pages' other =
        if other < count ∧ testFlag area.entryPerBlk stage.dirty other = true then
          area.table fs other
        else area.value stage pages other := by
  induction count generalizing pages' fs' with
  | zero =>
    cases run
    refine ⟨stage, free, rfl, buffered, journaled, rfl, rfl, fun other => ?_, fun other => ?_⟩
    · simp
    · rw [if_neg fun both => Nat.not_lt_zero other both.1]
  | succ count ih =>
    rw [List.range_succ, List.foldlM_append] at run
    obtain ⟨pages₁, fs₁, early, run⟩ := bind_eq_ok.mp run
    obtain ⟨stage₁, free₁, rfl, buffered₁, journaled₁, bitmap₁, storage₁, flags₁, values₁⟩ :=
      ih (by omega) early
    rw [List.foldlM_cons] at run
    obtain ⟨pages₂, fs₂, last, done⟩ := bind_eq_ok.mp run
    obtain ⟨stage₂, free₂, rfl, buffered₂, journaled₂, bitmap₂, storage₂, flags₂, values₂⟩ :=
      area.journalEntry_spec lawful sized buffered₁ journaled₁ (by omega) last
    cases done
    refine ⟨stage₂, free₂, rfl, buffered₂, journaled₂, bitmap₂.trans bitmap₁,
      storage₂.trans storage₁, fun other => ?_, fun other => ?_⟩
    · rw [flags₂, flags₁, Bool.and_assoc]
      congr 1
      have split : other < count + 1 ↔ other < count ∨ other = count := by omega
      simp [split]
    · rw [values₂, values₁, flags₁]
      by_cases same : other = count
      · subst same
        simp
      · have split : other < count + 1 ↔ other < count := by omega
        simp [same, split]

/-! ## The writes -/

/-- The copy of a block that is not current. -/
def Area.spareCopy (area : Area ι) (verBitmap : BitVec 32) (blk : Nat) : Nat :=
  area.copy (flipBit verBitmap blk) blk

/-- A block of an area, and which of its copies it is. -/
theorem Area.copy_inj {verBitmap verBitmap' : BitVec 32} {blk' : Nat} (inside : blk < area.blkNr)
    (inside' : blk' < area.blkNr)
    (same : area.copy verBitmap blk = area.copy verBitmap' blk') :
    blk = blk' ∧ verBitmap.getLsbD blk = verBitmap'.getLsbD blk' := by
  unfold Area.copy at same
  cases current : verBitmap.getLsbD blk with
  | false =>
    rw [current, if_neg Bool.false_ne_true] at same
    cases current' : verBitmap'.getLsbD blk' with
    | false =>
      rw [current', if_neg Bool.false_ne_true] at same
      exact ⟨by omega, rfl⟩
    | true =>
      rw [current', if_pos rfl] at same
      omega
  | true =>
    rw [current, if_pos rfl] at same
    cases current' : verBitmap'.getLsbD blk' with
    | false =>
      rw [current', if_neg Bool.false_ne_true] at same
      omega
    | true =>
      rw [current', if_pos rfl] at same
      exact ⟨by omega, rfl⟩

/-- Copies are on the storage. -/
theorem Area.Sized.copy_lt (sized : area.Sized) (verBitmap : BitVec 32)
    (inside : blk < area.blkNr) : area.copy verBitmap blk < totalBlockNr := by
  have fits := sized.inside
  unfold Area.copy
  split <;> omega

/-- What a storage holds after one more write. -/
theorem storedAt_cons (write : Storage.Lba × BlockData) (storage : Storage.History BlockData)
    {address : Nat} (near : address < totalBlockNr) :
    storedAt (write :: storage) address =
      if (write.1 : Nat) = address then some write.2 else storedAt storage address := by
  have small : totalBlockNr < 2 ^ 16 := by decide
  have narrow : word address = address := Nat.mod_eq_of_lt (near.trans small)
  have here : word address < totalBlockNr := narrow.symm ▸ near
  unfold storedAt Storage.History.lastWrite
  rw [dif_pos here, dif_pos here, List.find?_cons]
  by_cases same : (write.1 : Nat) = address
  · have found : write.1 = ⟨word address, here⟩ := Fin.ext (same.trans narrow.symm)
    rw [if_pos same, decide_eq_true found]
    rfl
  · have apart : write.1 ≠ ⟨word address, here⟩ := fun found =>
      same ((congrArg Fin.val found).trans narrow)
    rw [if_neg same, decide_eq_false apart]

/-- Another block keeps its copy when the bit of a block is flipped. -/
theorem Area.copy_flipBit_of_ne (sized : area.Sized) (verBitmap : BitVec 32) {blk' : Nat}
    (inside : blk < area.blkNr) (apart : blk' ≠ blk) :
    area.copy (flipBit verBitmap blk) blk' = area.copy verBitmap blk' := by
  have small : blk < 32 := inside.trans_le sized.bitmap
  unfold Area.copy
  rw [getLsbD_flipBit verBitmap small, decide_eq_false apart, Bool.xor_false]

/-- The parts after the page of a block was written and given back. -/
def Area.written (area : Area ι) (stage : Stage ι) (blk page : Nat)
    (inside : area.spareCopy stage.verBitmap blk < totalBlockNr) : Stage ι :=
  { stage with
    verBitmap := flipBit stage.verBitmap blk
    storage := (⟨_, inside⟩, (stage.pages.page page).data) :: stage.storage
    pages := stage.pages.release page }

/-- The blocks of a table after one of them was written. -/
theorem Area.held_written (sized : area.Sized) (buffered : area.Buffered stage pages free)
    {page : Nat} (here : pages blk = some page)
    (fits : area.spareCopy stage.verBitmap blk < totalBlockNr) {blk' : Nat}
    (inside' : blk' < area.blkNr) :
    area.held (area.written stage blk page fits) (Function.update pages blk none) blk' =
      area.held stage pages blk' := by
  have inside := (buffered.inside blk page here).1
  unfold Area.held
  by_cases same : blk' = blk
  · subst same
    rw [Function.update_self, here]
    show (storedAt (_ :: stage.storage) (area.spareCopy stage.verBitmap blk')).getD _ = _
    rw [storedAt_cons _ _ fits, if_pos rfl]
    rfl
  · rw [Function.update_of_ne same]
    cases found : pages blk' with
    | some page' =>
      have apart : page' ≠ page := by
        rintro rfl
        exact same (buffered.apart _ _ page' found here)
      exact congrArg PageInfo.data (PageAllocator.release_page_of_ne apart)
    | none =>
      have other : area.spareCopy stage.verBitmap blk ≠ area.copy stage.verBitmap blk' :=
        fun equal => same (area.copy_inj inside inside' equal).1.symm
      show (storedAt (_ :: stage.storage) (area.copy (flipBit stage.verBitmap blk) blk')).getD _ = _
      rw [area.copy_flipBit_of_ne sized _ inside same,
        storedAt_cons _ _ (sized.copy_lt _ inside'), if_neg other]
      rfl

/-- The state of a flush after a page was written. -/
theorem Area.Buffered.written (sized : area.Sized)
    (buffered : area.Buffered stage pages free) {page : Nat}
    (here : pages blk = some page)
    (fits : area.spareCopy stage.verBitmap blk < totalBlockNr) :
    area.Buffered (area.written stage blk page fits) (Function.update pages blk none)
      (if page < maxPageNum then page :: free else []) := by
  obtain ⟨inside, used⟩ := buffered.inside blk page here
  refine ⟨buffered.linked.release used, fun blk' page' found => ?_,
    fun first second page' found found' => ?_, fun blk' inside' => ?_⟩
  · by_cases same : blk' = blk
    · rw [same, Function.update_self] at found
      cases found
    · rw [Function.update_of_ne same] at found
      obtain ⟨inArea, inUse⟩ := buffered.inside blk' page' found
      have apart : page' ≠ page := by
        rintro rfl
        exact same (buffered.apart _ _ page' found here)
      exact ⟨inArea, (congrArg PageInfo.inUse (PageAllocator.release_page_of_ne apart)).trans inUse⟩
  · by_cases same : first = blk
    · rw [same, Function.update_self] at found
      cases found
    · by_cases same' : second = blk
      · rw [same', Function.update_self] at found'
        cases found'
      · rw [Function.update_of_ne same] at found
        rw [Function.update_of_ne same'] at found'
        exact buffered.apart first second page' found found'
  · show (storedAt (_ :: stage.storage) (area.copy (flipBit stage.verBitmap blk) blk')).isSome
    by_cases same : blk' = blk
    · subst same
      rw [storedAt_cons _ _ (sized.copy_lt _ inside')]
      show (if area.spareCopy stage.verBitmap blk' = area.spareCopy stage.verBitmap blk' then _
        else _ : Option BlockData).isSome
      rw [if_pos rfl]
      rfl
    · have other : area.spareCopy stage.verBitmap blk ≠ area.copy stage.verBitmap blk' :=
        fun equal => same (area.copy_inj inside inside' equal).1.symm
      rw [area.copy_flipBit_of_ne sized _ inside same,
        storedAt_cons _ _ (sized.copy_lt _ inside'), if_neg other]
      exact buffered.mapped blk' inside'

/-- When a page is written: what it leaves. -/
theorem Area.writePage_some (lawful : area.Lawful) {asked : Nat → Option Nat} {page : Nat}
    (here : asked blk = some page) (fits : area.spareCopy stage.verBitmap blk < totalBlockNr)
    {fs' : Fs} (run : area.writePage asked blk (area.put fs stage) = .ok ⟨⟩ fs') :
    fs' = area.put fs (area.written stage blk page fits) := by
  have flipped : { area.put fs stage with
      checkpoint := area.verBitmap.put
        (flipBit (area.verBitmap.get (area.put fs stage).checkpoint) blk)
        (area.put fs stage).checkpoint } =
      area.put fs { stage with verBitmap := flipBit stage.verBitmap blk } := by
    rw [show area.verBitmap.get (area.put fs stage).checkpoint = stage.verBitmap from
      congrArg Stage.verBitmap (lawful.stage_put fs stage)]
    exact lawful.verBitmap ..
  have parts := lawful.stage_put fs { stage with verBitmap := flipBit stage.verBitmap blk }
  have address : area.block (area.put fs
      { stage with verBitmap := flipBit stage.verBitmap blk }).checkpoint blk =
      area.spareCopy stage.verBitmap blk :=
    congrArg (fun parts : Stage ι => area.copy parts.verBitmap blk) parts
  have pool : (area.put fs { stage with verBitmap := flipBit stage.verBitmap blk }).pages =
      stage.pages := congrArg Stage.pages parts
  have onStorage : (area.put fs
      { stage with verBitmap := flipBit stage.verBitmap blk }).storage = stage.storage :=
    congrArg Stage.storage parts
  let onDisk : Stage ι :=
    { stage with
      verBitmap := flipBit stage.verBitmap blk
      storage := (⟨_, fits⟩, (stage.pages.page page).data) :: stage.storage }
  have pool' : (area.put fs onDisk).pages = stage.pages :=
    congrArg Stage.pages (lawful.stage_put fs onDisk)
  unfold Area.writePage at run
  rw [here] at run
  dsimp only at run
  unfold modifyCkpt blockWrite at run
  rw [modify_bind_apply, flipped, get_bind_apply, getData_bind_apply, address, pool,
    dif_pos fits, modify_bind_apply, onStorage, lawful.storage] at run
  obtain ⟨-, -, rfl⟩ := zoom_free_eq_ok.mp run
  have released : { area.put fs onDisk with
      pages := (area.put fs onDisk).pages.release page } =
      area.put fs (area.written stage blk page fits) := by
    rw [pool']
    exact lawful.pages fs onDisk _
  exact released

/-- Writing the page of a block. -/
theorem Area.writePage_spec (lawful : area.Lawful) (sized : area.Sized)
    (buffered : area.Buffered stage pages free) {asked : Nat → Option Nat}
    (same : asked blk = pages blk) (inside : blk < area.blkNr) {fs' : Fs}
    (run : area.writePage asked blk (area.put fs stage) = .ok ⟨⟩ fs') :
    ∃ stage' free' writes, fs' = area.put fs stage' ∧
      area.Buffered stage' (Function.update pages blk none) free' ∧
      stage'.journalLen = stage.journalLen ∧ stage'.journals = stage.journals ∧
      stage'.dirty = stage.dirty ∧
      (∀ other, other ≠ blk → stage'.verBitmap.getLsbD other = stage.verBitmap.getLsbD other) ∧
      stage'.storage = writes ++ stage.storage ∧
      (∀ write ∈ writes, (write.1 : Nat) = area.spareCopy stage.verBitmap blk) ∧
      ∀ key < area.entryNr, area.cell stage' (Function.update pages blk none) key =
        area.cell stage pages key := by
  cases here : pages blk with
  | none =>
    have unchanged : Function.update pages blk none = pages := by
      rw [← here, Function.update_eq_self]
    unfold Area.writePage at run
    rw [same, here] at run
    cases run
    rw [unchanged]
    exact ⟨stage, free, [], rfl, buffered, rfl, rfl, rfl, fun _ _ => rfl, rfl,
      fun _ member => absurd member List.not_mem_nil, fun _ _ => rfl⟩
  | some page =>
    have fits : area.spareCopy stage.verBitmap blk < totalBlockNr := sized.copy_lt _ inside
    have small : blk < 32 := inside.trans_le sized.bitmap
    refine ⟨area.written stage blk page fits, _, [(⟨_, fits⟩, (stage.pages.page page).data)],
      area.writePage_some lawful (same.trans here) fits run, buffered.written sized here fits, rfl,
      rfl, rfl, fun other apart => ?_, rfl, fun write member => ?_, fun key few => ?_⟩
    · show (flipBit stage.verBitmap blk).getLsbD other = _
      rw [getLsbD_flipBit _ small, decide_eq_false apart, Bool.xor_false]
    · rw [List.mem_singleton.mp member]
    · unfold Area.cell
      rw [area.held_written sized buffered here fits (sized.block few)]

/-- The pages that are still to be written. -/
def pagesFrom (pages : Nat → Option Nat) (count blk : Nat) : Option Nat :=
  if blk < count then none else pages blk

/-- One page less is still to be written. -/
theorem pagesFrom_succ (pages : Nat → Option Nat) (count : Nat) :
    Function.update (pagesFrom pages count) count none = pagesFrom pages (count + 1) := by
  funext blk
  unfold pagesFrom
  by_cases same : blk = count
  · rw [same, Function.update_self, if_pos (Nat.lt_succ_self count)]
  · rw [Function.update_of_ne same]
    have split : blk < count + 1 ↔ blk < count := by omega
    simp only [split]

/-- Writing the pages of the first blocks. -/
theorem Area.writePages_spec (lawful : area.Lawful) (sized : area.Sized)
    (buffered : area.Buffered stage pages free) {count : Nat} (few : count ≤ area.blkNr)
    {fs' : Fs} (run : (List.range count).forM (area.writePage pages) (area.put fs stage) =
      .ok ⟨⟩ fs') :
    ∃ stage' free' writes, fs' = area.put fs stage' ∧
      area.Buffered stage' (pagesFrom pages count) free' ∧
      stage'.journalLen = stage.journalLen ∧ stage'.journals = stage.journals ∧
      stage'.dirty = stage.dirty ∧
      (∀ blk, count ≤ blk → stage'.verBitmap.getLsbD blk = stage.verBitmap.getLsbD blk) ∧
      stage'.storage = writes ++ stage.storage ∧
      (∀ write ∈ writes, ∃ blk < area.blkNr,
        (write.1 : Nat) = area.spareCopy stage.verBitmap blk) ∧
      ∀ key < area.entryNr, area.cell stage' (pagesFrom pages count) key =
        area.cell stage pages key := by
  induction count generalizing fs' with
  | zero =>
    cases run
    exact ⟨stage, free, [], rfl, buffered, rfl, rfl, rfl, fun _ _ => rfl, rfl,
      fun _ member => absurd member List.not_mem_nil, fun _ _ => rfl⟩
  | succ count ih =>
    rw [List.range_succ] at run
    change (ForM.forM (List.range count ++ [count]) (area.writePage pages) : FsM PUnit) _ = _ at run
    rw [List.forM_append] at run
    obtain ⟨_, fs₁, early, run⟩ := bind_eq_ok.mp run
    obtain ⟨stage₁, free₁, writes₁, rfl, buffered₁, length₁, journals₁, dirty₁, bits₁, storage₁,
      targets₁, cells₁⟩ := ih (by omega) early
    obtain ⟨_, fs₂, last, done⟩ := bind_eq_ok.mp run
    have inside : count < area.blkNr := few
    have asked : pages count = pagesFrom pages count count := by
      rw [pagesFrom, if_neg (Nat.lt_irrefl count)]
    obtain ⟨stage₂, free₂, writes₂, rfl, buffered₂, length₂, journals₂, dirty₂, bits₂, storage₂,
      targets₂, cells₂⟩ := area.writePage_spec lawful sized buffered₁ asked inside last
    cases done
    rw [pagesFrom_succ] at buffered₂ cells₂
    refine ⟨stage₂, free₂, writes₂ ++ writes₁, rfl, buffered₂, length₂.trans length₁,
      journals₂.trans journals₁, dirty₂.trans dirty₁, fun blk later => ?_, ?_,
      fun write member => ?_, fun key inTable => (cells₂ key inTable).trans (cells₁ key inTable)⟩
    · rw [bits₂ blk (by omega), bits₁ blk (by omega)]
    · rw [storage₂, storage₁, List.append_assoc]
    · cases List.mem_append.mp member with
      | inl late =>
        refine ⟨count, inside, (targets₂ write late).trans ?_⟩
        -- the earlier rounds left the bit of this block alone
        have small : count < 32 := inside.trans_le sized.bitmap
        unfold Area.spareCopy Area.copy
        rw [getLsbD_flipBit _ small, getLsbD_flipBit _ small, bits₁ count le_rfl]
      | inr early => exact targets₁ write early

/-- What the flush of a table does. -/
structure Area.Flushed (area : Area ι) (fs fs' : Fs) : Prop where
  /-- Nothing else changes. -/
  frame : ∃ stage, fs' = area.put fs stage
  /-- The storage holds the dirty entries of the table in memory, and the others as before. -/
  stored : ∀ key < area.entryNr, area.stored fs'.checkpoint fs'.storage key =
    if testFlag area.entryPerBlk (area.dirty.get fs) key = true then area.table fs key
    else area.stored fs.checkpoint fs.storage key
  /-- No entry is dirty. -/
  clean : ∀ key < area.entryNr, testFlag area.entryPerBlk (area.dirty.get fs') key = false
  /-- The journal is sound. -/
  journal : area.JournalSound fs'.checkpoint
  /-- The current copies were written. -/
  mapped : area.Mapped fs'.checkpoint fs'.storage
  /-- The writes go to copies that were not current. -/
  writes : ∃ writes, fs'.storage = writes ++ fs.storage ∧ ∀ write ∈ writes,
    ∃ blk < area.blkNr, (write.1 : Nat) = area.spareCopy (area.verBitmap.get fs.checkpoint) blk
  /-- The free pages stay linked. -/
  linked : ∃ free, LinkedPages fs'.pages free

/-- What `f2fs_flush_nat_entries` and `f2fs_flush_sit_entries` do when they return. -/
theorem Area.flushEntries_spec (lawful : area.Lawful) (sized : area.Sized)
    (linked : LinkedPages fs.pages free) (journal : area.JournalSound fs.checkpoint)
    (mapped : area.Mapped fs.checkpoint fs.storage) {fs' : Fs}
    (run : area.flushEntries fs = .ok ⟨⟩ fs') : area.Flushed fs fs' := by
  have start : area.Buffered (area.stage fs) (fun _ => none) free := by
    refine ⟨linked, fun _ _ found => ?_, fun _ _ _ found => ?_, mapped⟩
    · cases found
    · cases found
  have sound : area.Journaled (area.stage fs) := ⟨journal.length, journal.keys⟩
  unfold Area.flushEntries at run
  rw [← lawful.put_stage fs] at run
  obtain ⟨pages₁, fs₁, merged, run⟩ := bind_eq_ok.mp run
  obtain ⟨pool₁, free₁, rfl, buffered₁, values₁⟩ := area.outJournal_spec lawful start merged
  obtain ⟨pages₂, fs₂, journaled, written⟩ := bind_eq_ok.mp run
  obtain ⟨stage₂, free₂, rfl, buffered₂, sound₂, bitmap₂, storage₂, flags₂, values₂⟩ :=
    area.journalEntries_spec lawful sized buffered₁
      ⟨Nat.zero_le _, fun index below => absurd below (Nat.not_lt_zero index)⟩ le_rfl journaled
  obtain ⟨stage₃, free₃, writes, rfl, buffered₃, length₃, journals₃, dirty₃, -, storage₃,
    targets, cells₃⟩ := area.writePages_spec lawful sized buffered₂ le_rfl written
  have parts := lawful.stage_put fs stage₃
  have none_left : pagesFrom pages₂ area.blkNr = fun _ => none := by
    funext blk
    unfold pagesFrom
    split
    · rfl
    · rename_i outside
      cases found : pages₂ blk with
      | none => rfl
      | some page => exact absurd (buffered₂.inside blk page found).1 outside
  rw [none_left] at buffered₃ cells₃
  refine ⟨⟨stage₃, rfl⟩, fun key few => ?_, fun key few => ?_, ⟨?_, ?_⟩, fun blk inside => ?_,
    ⟨writes, ?_, fun write member => ?_⟩, free₃, ?_⟩
  · have final : area.value stage₃ (fun _ => none) key = area.value stage₂ pages₂ key := by
      unfold Area.value Stage.journal
      rw [length₃, journals₃]
      exact replay_congr (cells₃ key few) _
    have merged_value := congrFun values₁ key
    have journaled_value := values₂ key
    rw [merged_value] at journaled_value
    rw [← area.value_none, parts, final, journaled_value]
    simp only [few, true_and]
    rfl
  · rw [show area.dirty.get (area.put fs stage₃) = stage₃.dirty from congrArg Stage.dirty parts,
      dirty₃, flags₂, decide_eq_true few]
    simp
  · have length : area.journalLen.get (area.put fs stage₃).checkpoint = stage₃.journalLen :=
      congrArg Stage.journalLen parts
    rw [length, length₃]
    exact sound₂.length
  · have length : area.journalLen.get (area.put fs stage₃).checkpoint = stage₃.journalLen :=
      congrArg Stage.journalLen parts
    have journals : area.journals.get (area.put fs stage₃).checkpoint = stage₃.journals :=
      congrArg Stage.journals parts
    rw [length, journals, length₃, journals₃]
    exact sound₂.keys
  · have copies : ∀ stage, area.stage (area.put fs stage₃) = stage →
        (storedAt stage.storage (area.copy stage.verBitmap blk)).isSome →
        (storedAt (area.put fs stage₃).storage
          (area.block (area.put fs stage₃).checkpoint blk)).isSome := by
      rintro _ rfl found
      exact found
    exact copies _ parts (buffered₃.mapped blk inside)
  · rw [show (area.put fs stage₃).storage = stage₃.storage from congrArg Stage.storage parts,
      storage₃, storage₂]
    rfl
  · obtain ⟨blk, inside, target⟩ := targets write member
    refine ⟨blk, inside, ?_⟩
    rw [target, bitmap₂]
    rfl
  · rw [show (area.put fs stage₃).pages = stage₃.pages from congrArg Stage.pages parts]
    exact buffered₃.linked

end Rounds

end FsChecking.F2fs
