import FsChecking.F2fs.Evolution
import FsChecking.F2fs.FsckBounds
import FsChecking.F2fs.FsckMarks

/-!
# Power losses over whole runs

A run mounts an image, makes calls, loses power at any write and recovers with or without a check,
any number of times. After each power loss, loading brings back the tables of the newest checkpoint
of which all writes are left.
-/

namespace FsChecking.F2fs

open Lib

/-! ## What can be recovered -/

/-- The parts of the operations only mark what they change. -/
theorem between_parts : Parts Between where
  keepPage page _ keeps := modifyPage_between page keeps
  usedPage used change := modifyPage_betweenAt (.ofUsed used) change
  allocate := takePage_between
  free := free_between
  setNodeCache := setNodeCache_between
  getNode := nat_between getNode_marks
  setPhyBlk nid phyBlk := nat_between (setPhyBlk_marks nid phyBlk)
  readNode := readNode_between
  putNode := putNode_between
  invalidBlock phyBlk := segments_between (invalidBlock_marks phyBlk)
  writeBlock := writeBlockToSeg_between
  summary _ data := blockWrite_between (Nat.le_add_left _ _) data
  other := .ofOther

/-- The tables of a checkpoint can be loaded from a storage, with a version that is not above a
limit. -/
def Survives (limit : Nat) (storage : Storage.History BlockData) (tables : Tables) : Prop :=
  ∃ slot, Readable storage slot ∧ (imageCkpt storage slot).header.verClose ≤ limit ∧
    (storedTables (imageCkpt storage slot) storage).Agree tables

/-- The newest checkpoint of which all writes are among the oldest ones. -/
def newestSave (saves : List Save) (writes : Nat) : Option Save :=
  saves.find? fun save => save.writes ≤ writes

/-- Whatever number of the newest writes is lost, the newest checkpoint before them survives. -/
structure Recoverable (limit : Nat) (saves : List Save) (storage : Storage.History BlockData) :
    Prop where
  /-- The checkpoints are complete. -/
  complete : ∀ save ∈ saves, save.writes ≤ storage.length
  /-- The newest one that is left survives. -/
  survives : ∀ count ≤ storage.length, ∀ save,
    newestSave saves (storage.length - count) = some save →
      Survives limit (storage.drop count) save.tables

/-- A newest checkpoint that is left is found. -/
theorem newestSave_cons_of_le {save : Save} {saves : List Save} {writes : Nat}
    (left : save.writes ≤ writes) : newestSave (save :: saves) writes = some save :=
  List.find?_cons_of_pos (decide_eq_true left)

/-- A newest checkpoint that is lost is passed over. -/
theorem newestSave_cons_of_lt {save : Save} {saves : List Save} {writes : Nat}
    (lost : writes < save.writes) : newestSave (save :: saves) writes = newestSave saves writes :=
  List.find?_cons_of_neg fun early => absurd (of_decide_eq_true early) (Nat.not_le.mpr lost)

/-- When all checkpoints are complete, the first one is the newest. -/
theorem newestSave_complete {saves : List Save} {writes : Nat}
    (complete : ∀ save ∈ saves, save.writes ≤ writes) : newestSave saves writes = saves.head? := by
  cases saves with
  | nil => rfl
  | cons save rest =>
    have first : save.writes ≤ writes := complete save List.mem_cons_self
    simp [newestSave, first]

/-- Dropping the incomplete checkpoints does not change which one is found. -/
theorem newestSave_filter {saves : List Save} {writes bound : Nat} (below : writes ≤ bound) :
    newestSave (saves.filter fun save => save.writes ≤ bound) writes = newestSave saves writes := by
  unfold newestSave
  rw [List.find?_filter]
  congr 1
  funext save
  by_cases early : save.writes ≤ writes
  · simp [early, early.trans below]
  · simp [early]

namespace Recoverable

variable {limit : Nat} {saves : List Save} {storage : Storage.History BlockData}

/-- What can be recovered within a limit can be recovered within a greater one. -/
theorem mono (recoverable : Recoverable limit saves storage) {limit' : Nat}
    (above : limit ≤ limit') : Recoverable limit' saves storage := by
  refine ⟨recoverable.complete, fun count inside save newest => ?_⟩
  obtain ⟨slot, readable, version, tables⟩ := recoverable.survives count inside save newest
  exact ⟨slot, readable, version.trans above, tables⟩

/-- Tables that survive can be recovered as a checkpoint that is complete with the last write. -/
theorem ofSurvives {tables : Tables} (survives : Survives limit storage tables) :
    Recoverable limit [{ writes := storage.length, tables }] storage := by
  refine ⟨fun save member => ?_, fun count inside save newest => ?_⟩
  · rw [List.mem_singleton.mp member]
  · unfold newestSave at newest
    have chosen := List.find?_some newest
    have only := List.mem_singleton.mp (List.mem_of_find?_eq_some newest)
    subst only
    have none : count = 0 := by
      have complete : storage.length ≤ storage.length - count := of_decide_eq_true chosen
      omega
    rw [none, List.drop_zero]
    exact survives

/-- Silent writes leave all checkpoints recoverable. -/
theorem append (recoverable : Recoverable limit saves storage)
    {writes : Storage.History BlockData}
    (silent : ∀ slot, Readable storage slot →
      ∀ write ∈ writes, Silent (imageCkpt storage slot) slot write) :
    Recoverable limit saves (writes ++ storage) := by
  refine ⟨fun save member => ?_, fun count inside save newest => ?_⟩
  · rw [List.length_append]
    exact (recoverable.complete save member).trans (Nat.le_add_left _ _)
  rw [List.length_append] at inside newest
  rw [List.drop_append]
  by_cases all : writes.length ≤ count
  · rw [List.drop_eq_nil_of_le all, List.nil_append]
    refine recoverable.survives (count - writes.length) (by omega) save ?_
    rw [← newest]
    congr 1
    omega
  · have none : count - writes.length = 0 := by omega
    rw [none, List.drop_zero]
    have whole : newestSave saves (storage.length - 0) = some save := by
      rw [← newest, Nat.sub_zero, newestSave_complete recoverable.complete,
        newestSave_complete fun other member => (recoverable.complete other member).trans (by omega)]
    obtain ⟨slot, readable, version, tables⟩ :=
      recoverable.survives 0 (Nat.zero_le _) save whole
    rw [List.drop_zero] at readable version tables
    obtain ⟨ckpt, readable', tables'⟩ := readable.append fun write member =>
      silent slot readable write (List.mem_of_mem_drop member)
    refine ⟨slot, readable', ?_, ?_⟩
    · rw [ckpt]
      exact version
    · rw [ckpt]
      exact tables'.trans tables

/-- The last write of a checkpoint makes it the newest one that can be recovered. -/
theorem save (recoverable : Recoverable limit saves storage) {write : Storage.Lba × BlockData}
    {tables : Tables} (survives : Survives limit (write :: storage) tables) :
    Recoverable limit ({ writes := storage.length + 1, tables } :: saves) (write :: storage) := by
  refine ⟨fun save member => ?_, fun count inside save newest => ?_⟩
  · rw [List.length_cons]
    cases List.mem_cons.mp member with
    | inl last => rw [last]
    | inr early => exact (recoverable.complete save early).trans (Nat.le_succ _)
  rw [List.length_cons] at inside newest
  cases count with
  | zero =>
    rw [Nat.sub_zero, newestSave_cons_of_le le_rfl] at newest
    cases newest
    exact survives
  | succ count =>
    have gone : storage.length + 1 - (count + 1) < storage.length + 1 := by omega
    rw [newestSave_cons_of_lt gone, Nat.add_sub_add_right] at newest
    rw [List.drop_succ_cons]
    exact recoverable.survives count (by omega) save newest

/-- After a power loss the checkpoints that are left can be recovered. -/
theorem drop (recoverable : Recoverable limit saves storage) {count : Nat}
    (inside : count ≤ storage.length) :
    Recoverable limit (saves.filter fun save => save.writes ≤ (storage.drop count).length)
      (storage.drop count) := by
  refine ⟨fun save member => of_decide_eq_true (List.mem_filter.mp member).2,
    fun count' inside' save newest => ?_⟩
  rw [newestSave_filter (Nat.sub_le _ _)] at newest
  rw [List.length_drop] at inside' newest
  rw [List.drop_drop]
  refine recoverable.survives (count + count') (by omega) save ?_
  rw [← newest]
  congr 1
  omega

end Recoverable

/-- A mounted file system whose checkpoints can be recovered. -/
structure Durable (limit : Nat) (saves : List Save) (fs : Fs) : Prop where
  /-- The tables differ from the newest checkpoint only where they are marked. -/
  synced : Synced fs
  /-- The free pages are linked. -/
  linked : ∃ free, LinkedPages fs.pages free
  /-- The version of the newest checkpoint. -/
  version : fs.checkpoint.header.verClose ≤ limit
  /-- The checkpoints on the storage. -/
  recoverable : Recoverable limit saves fs.storage

/-- Only one slot can be chosen. -/
theorem Readable.slot_eq {storage : Storage.History BlockData} {slot slot' : Nat}
    (readable : Readable storage slot) (readable' : Readable storage slot') : slot = slot' := by
  have same := readable.ckpt.chosen.symm.trans readable'.ckpt.chosen
  exact Except.ok.inj same

/-- A write that is silent for the checkpoint in memory is silent for the one on the storage. -/
theorem Synced.silent {fs : Fs} (synced : Synced fs) {slot : Nat} (readable : Readable fs.storage slot)
    {write : Storage.Lba × BlockData} (silent : Silent fs.checkpoint fs.curCkpt write) :
    Silent (imageCkpt fs.storage slot) slot write := by
  obtain rfl := synced.readable.slot_eq readable
  rw [synced.checkpoint] at silent
  exact ⟨silent.blocks, silent.header, silent.nat, silent.sit⟩

/-- Writes behind the tables are silent. -/
theorem silent_behind {ckpt : CkptBlock} {slot : Nat} (chosen : slot = 0 ∨ slot = 1)
    {write : Storage.Lba × BlockData} (behind : ssaStartBlk ≤ (write.1 : Nat)) :
    Silent ckpt slot write := by
  have start : 40 ≤ (write.1 : Nat) := behind
  have own := slotBase_le chosen
  refine ⟨Or.inr (by omega), fun header => ?_, fun blk inside => ?_, fun blk inside => ?_⟩
  · have other := slotBase_le (otherSlot chosen).1
    omega
  · have bounds := natArea_copy_bounds ckpt.header.natVerBitmap inside
    show (write.1 : Nat) ≠ natArea.copy ckpt.header.natVerBitmap blk
    omega
  · have bounds := sitArea_copy_bounds ckpt.header.sitVerBitmap inside
    show (write.1 : Nat) ≠ sitArea.copy ckpt.header.sitVerBitmap blk
    omega

/-! ## Steps -/

namespace Durable

variable {limit : Nat} {saves : List Save} {fs fs' : Fs}

/-- Operations between checkpoints leave all checkpoints recoverable. -/
theorem between (durable : Durable limit saves fs) (step : Between fs fs') :
    Durable limit saves fs' := by
  obtain ⟨writes, storage, behind⟩ := step.writes
  have synced := durable.synced
  have silent : ∀ slot, Readable fs.storage slot →
      ∀ write ∈ writes, Silent (imageCkpt fs.storage slot) slot write :=
    fun slot readable write member =>
      silent_behind (chosenSlot_eq_ok.mp readable.ckpt.chosen).1 (behind write member)
  obtain ⟨-, readable, -⟩ := synced.readable.append (silent _ synced.readable)
  have checkpoint : ckptOf (writes ++ fs.storage) fs.curCkpt fs.checkpoint.sitJournals =
      ckptOf fs.storage fs.curCkpt fs.checkpoint.sitJournals :=
    ckptOf_append synced.slot fun write member => silent _ synced.readable write member
  have natBlocks : ∀ blk < natBlkNr,
      blockOf (writes ++ fs.storage) (natArea.block fs.checkpoint blk) =
        blockOf fs.storage (natArea.block fs.checkpoint blk) := fun blk inside => by
    have bounds := natArea_copy_bounds fs.checkpoint.header.natVerBitmap inside
    refine blockOf_append (natArea_sized.copy_lt _ inside) fun write member => ?_
    have start : 40 ≤ (write.1 : Nat) := behind write member
    show (write.1 : Nat) ≠ natArea.copy fs.checkpoint.header.natVerBitmap blk
    omega
  have sitBlocks : ∀ blk < sitBlkNr,
      blockOf (writes ++ fs.storage) (sitArea.block fs.checkpoint blk) =
        blockOf fs.storage (sitArea.block fs.checkpoint blk) := fun blk inside => by
    have bounds := sitArea_copy_bounds fs.checkpoint.header.sitVerBitmap inside
    refine blockOf_append (sitArea_sized.copy_lt _ inside) fun write member => ?_
    have start : 40 ≤ (write.1 : Nat) := behind write member
    show (write.1 : Nat) ≠ sitArea.copy fs.checkpoint.header.sitVerBitmap blk
    omega
  refine ⟨⟨?_, ?_, fun nid inside clean => ?_, fun seg inside clean => ?_⟩,
    step.linked durable.linked, ?_, ?_⟩
  · rw [storage, step.curCkpt]
    exact readable
  · rw [storage, step.curCkpt, step.checkpoint, checkpoint]
    exact synced.checkpoint
  · obtain ⟨before, same⟩ := step.nat nid clean
    rw [same, synced.nat nid inside before, storage, step.checkpoint]
    exact (Area.stored_congr natArea_sized natBlocks inside).symm
  · obtain ⟨before, bits, number⟩ := step.segments seg clean
    obtain ⟨bits', number'⟩ := synced.sit seg inside before
    have stored := Area.stored_congr sitArea_sized sitBlocks inside
    rw [bits, number, storage, step.checkpoint, stored]
    exact ⟨bits', number'⟩
  · rw [step.checkpoint]
    exact durable.version
  · rw [storage]
    exact durable.recoverable.append silent

/-- A checkpoint can be recovered once it is written, with the next version. -/
theorem saved (durable : Durable limit saves fs) (small : limit + 1 < 2 ^ 32)
    (run : writeCheckpoint fs = .ok ⟨⟩ fs') :
    Durable (limit + 1) ({ writes := fs'.storage.length, tables := fs.tables } :: saves) fs' := by
  obtain ⟨free, linked⟩ := durable.linked
  have version := durable.version
  have done := writeCheckpoint_spec durable.synced linked (by omega) run
  obtain ⟨last, writes, storage, silent⟩ := done.writes
  have before : Recoverable limit saves (writes ++ fs.storage) :=
    durable.recoverable.append fun slot readable write member =>
      durable.synced.silent readable (silent write member)
  have next : fs'.checkpoint.header.verClose ≤ limit + 1 := by
    rw [done.version]
    omega
  have survives : Survives (limit + 1) fs'.storage fs.tables := by
    refine ⟨fs'.curCkpt, done.synced.readable, ?_, done.durable⟩
    rw [done.synced.checkpoint] at next
    exact next
  refine ⟨done.synced, done.linked, next, ?_⟩
  rw [storage] at survives ⊢
  rw [List.length_cons]
  exact (before.mono (Nat.le_succ _)).save survives

/-- The checkpoints that a call takes can be recovered behind it. -/
theorem trace (durable : Durable limit saves fs) {saves' : List Save} (trace : Trace Between fs saves' fs')
    (small : limit + saves'.length < 2 ^ 32) :
    Durable (limit + saves'.length) (saves' ++ saves) fs' := by
  induction trace with
  | start => exact durable
  | moved _ step ih => exact (ih small).between step
  | saved _ run ih =>
    rw [List.length_cons] at small
    exact (ih (by omega)).saved small run

end Durable

/-! ## Mounting -/

/-- Loading a slot a second time changes nothing. -/
theorem ckptOf_idem (storage : Storage.History BlockData) (slot : Nat)
    (rest : Nat → JournalEntry SegInfo) :
    ckptOf storage slot (ckptOf storage slot rest).sitJournals = ckptOf storage slot rest := by
  unfold ckptOf
  congr 1
  funext index
  dsimp only
  split <;> rfl

/-- Mounting brings the tables of the image into memory. -/
theorem Mounted.tables {fs m : Fs} {slot : Nat} (mounted : Mounted fs m slot) :
    m.tables.Agree (storedTables (imageCkpt fs.storage slot) fs.storage) := by
  have content : ∀ seg < mainSegNr, _ := fun seg inside =>
    loaded_content fs.segments (imageCkpt fs.storage slot) fs.storage inside
  refine ⟨fun nid inside => ?_, fun seg inside => ?_, fun seg inside => ?_, ?_⟩
  · show m.nat.nat nid = _
    rw [mounted.nat]
    show natOver _ _ nid = _
    rw [natOver, if_pos inside]
    rfl
  · show (m.segments.segments seg).validBmp = _
    rw [mounted.segments]
    exact (content seg inside).1
  · show (m.segments.segments seg).validBlkNr = _
    rw [mounted.segments]
    exact (content seg inside).2
  · show m.segments.curSegs = _
    rw [mounted.segments, SegmentManager.curSegs_buildFreeLink]
    rfl

/-- A mounted file system is synchronised. -/
theorem Mounted.synced {fs m : Fs} {slot : Nat} (mounted : Mounted fs m slot) : Synced m := by
  have storage : m.storage = fs.storage := by rw [mounted.frame]
  have current : m.curCkpt = slot := by rw [mounted.frame]
  have checkpoint : m.checkpoint = ckptOf fs.storage slot fs.checkpoint.sitJournals := by
    rw [mounted.frame]
  have tables : m.tables.Agree (storedTables m.checkpoint m.storage) := by
    rw [checkpoint, storage, storedTables_ckptOf _ CkptBlock.zero.sitJournals]
    · exact mounted.tables
    · exact mounted.readable.segments.journal.length
  refine ⟨?_, ?_, fun nid inside _ => tables.nat nid inside, fun seg inside _ =>
    ⟨tables.validBmp seg inside, tables.validBlkNr seg inside⟩⟩
  · rw [storage, current]
    exact mounted.readable
  · rw [storage, current, checkpoint, ckptOf_idem]

/-- The tables of a mounted file system can be loaded again. -/
theorem Mounted.survives {fs m : Fs} {slot : Nat} (mounted : Mounted fs m slot) :
    Survives m.checkpoint.header.verClose m.storage m.tables := by
  have synced := mounted.synced
  refine ⟨m.curCkpt, synced.readable, ?_, ?_⟩
  · rw [synced.checkpoint]
    exact le_rfl
  · have storage : m.storage = fs.storage := by rw [mounted.frame]
    have current : m.curCkpt = slot := by rw [mounted.frame]
    rw [storage, current]
    exact mounted.tables.symm

/-- A mount with all pages free and no node cached leaves all checkpoints recoverable. -/
theorem Durable.mounted {limit : Nat} {saves : List Save} {fs m : Fs}
    (all : FreePages fs.pages (List.range maxPageNum))
    (uncached : fs.nat.nodeCache rootFid = invalidPage) (mounted : mount fs = .ok ⟨⟩ m)
    (version : m.checkpoint.header.verClose ≤ limit)
    (recoverable : Recoverable limit saves m.storage) : Durable limit saves m := by
  obtain ⟨slot, done⟩ := mount_ok mounted
  obtain ⟨free, left, -⟩ := mount_pool mounted uncached all (by rw [List.length_range]; decide)
  exact ⟨done.synced, ⟨free, left.linked⟩, version, recoverable⟩

/-- After a mount the checkpoints that could be recovered still can. -/
theorem Recoverable.mounted {limit : Nat} {saves : List Save} {fs m : Fs}
    (recoverable : Recoverable limit saves fs.storage)
    (all : FreePages fs.pages (List.range maxPageNum))
    (uncached : fs.nat.nodeCache rootFid = invalidPage)
    (left : ∃ save ∈ saves, save.writes ≤ fs.storage.length) (mounted : mount fs = .ok ⟨⟩ m) :
    Durable limit saves m := by
  obtain ⟨slot, done⟩ := mount_ok mounted
  have storage : m.storage = fs.storage := by rw [done.frame]
  obtain ⟨save, newest⟩ : ∃ save, newestSave saves fs.storage.length = some save := by
    obtain ⟨save, member, early⟩ := left
    have found : (newestSave saves fs.storage.length).isSome :=
      List.find?_isSome.mpr ⟨save, member, decide_eq_true early⟩
    exact Option.isSome_iff_exists.mp found
  obtain ⟨slot', readable, version, -⟩ := recoverable.survives 0 (Nat.zero_le _) save newest
  have same := readable.slot_eq done.readable
  refine .mounted all uncached mounted ?_ (storage.symm ▸ recoverable)
  rw [done.frame]
  rw [same] at version
  exact version

/-- `Reset` drops writes. -/
theorem reset_storage {before fs : Fs} {rollback : Nat} (run : reset rollback before = .ok ⟨⟩ fs) :
    word rollback ≤ before.storage.length ∧ fs.storage = before.storage.drop (word rollback) := by
  simp only [reset, get_bind_apply, bind_eq_ok] at run
  obtain ⟨_, _, checked, _, fs₁, dropped, _, fs₂, opened, _, fs₃, segments, _, fs₄, nat, pages⟩ := run
  obtain ⟨inside, rfl⟩ := throwIf_eq_ok.mp checked
  cases pages
  cases nat
  cases segments
  cases opened
  cases dropped
  exact ⟨(Nat.le_of_not_lt inside).trans (Nat.mod_le _ _), rfl⟩

/-! ## Runs -/

/-- The states of a run of the simulator. -/
inductive Run [NameHash] : Fs → Prop
  /-- An image is mounted, without any number of its newest writes. -/
  | mounted {image fs m : Fs} {rollback : Nat} (unmounted : reset rollback image = .ok ⟨⟩ fs)
    (mounted : mount fs = .ok ⟨⟩ m) : Run m
  /-- A call returns. -/
  | called {fs fs' : Fs} (before : Run fs) (call : Call) (returned : call.run fs = .ok ⟨⟩ fs') :
    Run fs'
  /-- The newest writes are lost, and the file system is mounted again. -/
  | lost {fs fs' m : Fs} {rollback : Nat} (before : Run fs) (lost : reset rollback fs = .ok ⟨⟩ fs')
    (mounted : mount fs' = .ok ⟨⟩ m) : Run m
  /-- The newest writes are lost, the check returns, which mounts the image, repairs it and forgets
  what it has mounted, and the file system is mounted again. -/
  | checked {fs fs' fs'' m : Fs} {rollback : Nat} {fix fixed : Bool} (before : Run fs)
    (lost : reset rollback fs = .ok ⟨⟩ fs') (check : fsck fix fs' = .ok fixed fs'')
    (mounted : mount fs'' = .ok ⟨⟩ m) : Run m

/-- A state of a run with the checkpoints of the run that are on its storage, newest first, and a bound
on their versions, which is the version that was mounted first and one more for each checkpoint. -/
inductive Recorded [NameHash] : Nat → List Save → Fs → Prop
  /-- An image is mounted. -/
  | mounted {image fs m : Fs} {rollback : Nat} (unmounted : reset rollback image = .ok ⟨⟩ fs)
    (mounted : mount fs = .ok ⟨⟩ m) :
    Recorded m.checkpoint.header.verClose [{ writes := m.storage.length, tables := m.tables }] m
  /-- A call returns after taking some checkpoints. -/
  | called {limit : Nat} {saves saves' : List Save} {fs fs' : Fs} (before : Recorded limit saves fs)
    (call : Call) (returned : call.run fs = .ok ⟨⟩ fs') (trace : Trace Between fs saves' fs') :
    Recorded (limit + saves'.length) (saves' ++ saves) fs'
  /-- The newest writes are lost, but not all the checkpoints. -/
  | lost {limit : Nat} {saves : List Save} {fs fs' m : Fs} {rollback : Nat}
    (before : Recorded limit saves fs) (lost : reset rollback fs = .ok ⟨⟩ fs')
    (left : ∃ save ∈ saves, save.writes ≤ fs'.storage.length) (mounted : mount fs' = .ok ⟨⟩ m) :
    Recorded limit (saves.filter fun save => save.writes ≤ fs'.storage.length) m
  /-- The check that has mounted the image returns after taking some checkpoints. -/
  | checked {limit : Nat} {saves saves' : List Save} {fs m last m' : Fs} {fix fixed : Bool}
    (before : Recorded limit saves m) (first : mount fs = .ok ⟨⟩ m)
    (check : fsck fix fs = .ok fixed last.unloaded) (repair : Trace Between m saves' last)
    (mounted : mount last.unloaded = .ok ⟨⟩ m') :
    Recorded (limit + saves'.length) (saves' ++ saves) m'

/-- The first checkpoint is never forgotten without another one. -/
theorem Recorded.ne_nil [NameHash] {limit : Nat} {saves : List Save} {fs : Fs}
    (recorded : Recorded limit saves fs) : saves ≠ [] := by
  induction recorded with
  | mounted => exact List.cons_ne_nil _ _
  | called _ _ _ _ ih => exact List.append_ne_nil_of_right_ne_nil _ ih
  | lost _ _ left _ _ =>
    obtain ⟨save, member, early⟩ := left
    exact List.ne_nil_of_mem (List.mem_filter.mpr ⟨member, decide_eq_true early⟩)
  | checked _ _ _ _ _ ih => exact List.append_ne_nil_of_right_ne_nil _ ih

/-- What is mounted after a power loss is recorded: with the checkpoints that are left, or as another
image when none is left. -/
theorem Recorded.remount [NameHash] {limit rollback : Nat} {saves : List Save} {fs fs' m : Fs}
    (recorded : Recorded limit saves fs) (lost : reset rollback fs = .ok ⟨⟩ fs')
    (mounted : mount fs' = .ok ⟨⟩ m) : ∃ limit saves, Recorded limit saves m := by
  by_cases left : ∃ save ∈ saves, save.writes ≤ fs'.storage.length
  · exact ⟨_, _, recorded.lost lost left mounted⟩
  · exact ⟨_, _, .mounted lost mounted⟩

/-- In every state of a run its checkpoints can be recorded. -/
theorem Run.recorded [NameHash] {fs : Fs} (run : Run fs) :
    ∃ limit saves, Recorded limit saves fs := by
  induction run with
  | mounted unmounted mounted => exact ⟨_, _, .mounted unmounted mounted⟩
  | called _ call returned ih =>
    obtain ⟨limit, saves, recorded⟩ := ih
    obtain ⟨saves', trace⟩ := call.evolves between_parts _ _ _ returned
    exact ⟨_, _, recorded.called call returned trace⟩
  | lost _ lost mounted ih =>
    obtain ⟨limit, saves, recorded⟩ := ih
    exact recorded.remount lost mounted
  | checked _ lost check mounted ih =>
    obtain ⟨limit, saves, recorded⟩ := ih
    obtain ⟨first, saves', last, mounts, repair, rfl⟩ := fsck_ok between_parts check
    obtain ⟨limit', saves'', again⟩ := recorded.remount lost mounts
    exact ⟨_, _, again.checked mounts check repair mounted⟩

/-- After a power loss and a mount the checkpoints that are left can be recovered. -/
theorem Durable.lost {limit : Nat} {saves : List Save} {fs fs' m : Fs} {rollback : Nat}
    (durable : Durable limit saves fs) (lost : reset rollback fs = .ok ⟨⟩ fs')
    (left : ∃ save ∈ saves, save.writes ≤ fs'.storage.length) (mounted : mount fs' = .ok ⟨⟩ m) :
    Durable limit (saves.filter fun save => save.writes ≤ fs'.storage.length) m := by
  obtain ⟨inside, dropped⟩ := reset_storage lost
  obtain ⟨all, uncached⟩ := reset_pool lost
  have recoverable := durable.recoverable.drop inside
  rw [← dropped] at recoverable
  obtain ⟨save, member, early⟩ := left
  exact recoverable.mounted all uncached
    ⟨save, List.mem_filter.mpr ⟨member, decide_eq_true early⟩, early⟩ mounted

/-- Every checkpoint that is recorded can be recovered. -/
theorem Recorded.durable [NameHash] {limit : Nat} {saves : List Save} {fs : Fs}
    (recorded : Recorded limit saves fs) (small : limit < 2 ^ 32) : Durable limit saves fs := by
  induction recorded with
  | mounted unmounted mounted =>
    obtain ⟨all, uncached⟩ := reset_pool unmounted
    obtain ⟨slot, done⟩ := mount_ok mounted
    exact .mounted all uncached mounted le_rfl (.ofSurvives done.survives)
  | called _ call _ trace ih => exact (ih (by omega)).trace trace small
  | lost _ lost left mounted ih => exact (ih small).lost lost left mounted
  | @checked limit saves saves' fs m last m' _ _ before _ _ repair mounted ih =>
    have durable := (ih (by omega)).trace repair small
    have recoverable : Recoverable (limit + saves'.length) _ last.unloaded.storage :=
      durable.recoverable
    obtain ⟨save, member⟩ := List.exists_mem_of_ne_nil saves before.ne_nil
    have kept : save ∈ saves' ++ saves := List.mem_append_right _ member
    exact recoverable.mounted (FreePages.initial _) rfl
      ⟨save, kept, recoverable.complete save kept⟩ mounted

/-- After `Reset`, loading brings back a checkpoint that survives. -/
theorem Survives.loads {limit : Nat} {tables : Tables} {before fs : Fs} {rollback : Nat}
    (lost : reset rollback before = .ok ⟨⟩ fs) (survives : Survives limit fs.storage tables) :
    ∃ m, loadTables fs = .ok ⟨⟩ m ∧ m.tables.Agree tables := by
  obtain ⟨slot, readable, -, agree⟩ := survives
  obtain ⟨all, -⟩ := reset_pool lost
  rw [← List.take_append_drop natBlkNr (List.range maxPageNum)] at all
  obtain ⟨m, loaded, same⟩ := loadTables_spec readable all (by
    rw [List.length_take, List.length_range]
    decide)
  exact ⟨m, loaded, same.trans agree⟩

/-- In every state of a run its checkpoints can be recorded, and whenever power is lost there, after
any write, loading brings back the tables that were in memory when the newest checkpoint began of
which all writes are left. -/
theorem run_recovers [NameHash] {fs : Fs} (run : Run fs) :
    (∃ limit saves, Recorded limit saves fs) ∧
      ∀ limit saves, Recorded limit saves fs → limit < 2 ^ 32 →
        ∀ rollback fs' save, reset rollback fs = .ok ⟨⟩ fs' →
          newestSave saves fs'.storage.length = some save →
            ∃ m, loadTables fs' = .ok ⟨⟩ m ∧ m.tables.Agree save.tables := by
  refine ⟨run.recorded, fun limit saves recorded small rollback fs' save lost newest => ?_⟩
  obtain ⟨inside, dropped⟩ := reset_storage lost
  have survives := (recorded.durable small).recoverable.survives _ inside save (by
    rw [← newest, dropped, List.length_drop])
  rw [← dropped] at survives
  exact survives.loads lost

/-- A formatted image that was mounted. -/
def Fs.remounted : Fs := finalState (mount (finalState (reset 0 .formatted)))

/-- The formatted image can be mounted. -/
theorem remounted_run : ∃ fs, reset 0 .formatted = .ok ⟨⟩ fs ∧ mount fs = .ok ⟨⟩ .remounted := by
  have unmounted : returned (reset 0 .formatted) = true := by decide +kernel
  have mounted : returned (mount (finalState (reset 0 .formatted))) = true := by decide +kernel
  obtain ⟨_, fs, unmounted⟩ := eq_ok_of_returned unmounted
  obtain ⟨_, m, mounted⟩ := eq_ok_of_returned mounted
  have same : Fs.remounted = m := by rw [Fs.remounted, mounted, finalState_ok]
  rw [unmounted, finalState_ok] at mounted
  exact ⟨fs, unmounted, same ▸ mounted⟩

/-- Its version is small. -/
theorem remounted_version : Fs.remounted.checkpoint.header.verClose < 10 := by decide +kernel

/-- Power is lost at the last write of the first shutdown: loading brings back the tables that were
mounted. -/
theorem run_recovers_shutdown :
    ∃ closed fs' after, (@Call.run ⟨fun _ => 0⟩ .unmount) .remounted = .ok ⟨⟩ closed ∧
      reset 1 closed = .ok ⟨⟩ fs' ∧ loadTables fs' = .ok ⟨⟩ after ∧
      after.tables.Agree Fs.remounted.tables := by
  let hash : NameHash := ⟨fun _ => 0⟩
  obtain ⟨fs, unmounted, mounted⟩ := remounted_run
  have closed : returned (unmount .remounted) = true := by decide +kernel
  have lost : returned (reset 1 (finalState (unmount .remounted))) = true := by decide +kernel
  have longer : Fs.remounted.storage.length < (finalState (unmount .remounted)).storage.length := by
    decide +kernel
  obtain ⟨_, last, closed⟩ := eq_ok_of_returned closed
  rw [closed, finalState_ok] at lost longer
  obtain ⟨_, fs', lost⟩ := eq_ok_of_returned lost
  have small := remounted_version
  -- from here on the mounted state is not looked into
  generalize Fs.remounted = m at *
  obtain ⟨fs₁, step, saved⟩ := unmount_ok between_parts closed
  have recorded := (Recorded.mounted unmounted mounted).called .unmount closed
    (.saved (.moved .start step) saved)
  have left : fs'.storage.length = last.storage.length - 1 := by
    rw [(reset_storage lost).2, List.length_drop]
    rfl
  have newest : newestSave ([{ writes := last.storage.length, tables := fs₁.tables }] ++
      [{ writes := m.storage.length, tables := m.tables }]) fs'.storage.length =
      some { writes := m.storage.length, tables := m.tables } := by
    have gone : fs'.storage.length < last.storage.length := by omega
    have stays : m.storage.length ≤ fs'.storage.length := by omega
    exact (newestSave_cons_of_lt gone).trans (newestSave_cons_of_le stays)
  obtain ⟨-, recovers⟩ := run_recovers ((Run.mounted unmounted mounted).called .unmount closed)
  obtain ⟨after, loaded, agree⟩ := recovers _ _ recorded
    (show m.checkpoint.header.verClose + 1 < 2 ^ 32 by omega) 1 fs' _ lost newest
  exact ⟨last, fs', after, closed, lost, loaded, agree⟩

/-- A reset without a rollback keeps the storage. -/
theorem reset_zero (fs : Fs) :
    ∃ fs', reset 0 fs = .ok ⟨⟩ fs' ∧ fs'.storage = fs.storage := by
  have enough : ¬word 0 > dword fs.storage.length := Nat.not_lt_zero _
  have run : ∃ fs', reset 0 fs = .ok ⟨⟩ fs' := by
    unfold reset
    rw [get_bind_apply]
    exact ⟨_, throwIf_bind_eq_ok.mpr ⟨enough, rfl⟩⟩
  obtain ⟨fs', run⟩ := run
  exact ⟨fs', run, (reset_storage run).2⟩

/-- In every state of a run, the entries of the tables in memory that are not marked as dirty are
the ones that are loaded when power is lost there. -/
theorem run_marks [NameHash] {fs : Fs} (run : Run fs) :
    (∃ limit saves, Recorded limit saves fs) ∧
      ∀ limit saves, Recorded limit saves fs → limit < 2 ^ 32 →
        ∃ m, (do reset 0; loadTables : FsM Unit) fs = .ok ⟨⟩ m ∧
          (∀ nid < nodeNr, fs.nat.isDirty nid = false → m.nat.nat nid = fs.nat.nat nid) ∧
          ∀ seg < mainSegNr, fs.segments.isDirty seg = false →
            (m.segments.segments seg).validBmp = (fs.segments.segments seg).validBmp ∧
              (m.segments.segments seg).validBlkNr = (fs.segments.segments seg).validBlkNr := by
  refine ⟨run.recorded, fun limit saves recorded small => ?_⟩
  have synced := (recorded.durable small).synced
  obtain ⟨fs', lost, same⟩ := reset_zero fs
  have survives : Survives (imageCkpt fs.storage fs.curCkpt).header.verClose fs'.storage fs.durable :=
    same.symm ▸ ⟨fs.curCkpt, synced.readable, le_rfl, .refl _⟩
  obtain ⟨m, loaded, agree⟩ := survives.loads lost
  rw [synced.durable_eq] at agree
  refine ⟨m, bind_eq_ok.mpr ⟨_, _, lost, loaded⟩, fun nid inside clean => ?_,
    fun seg inside clean => ⟨?_, ?_⟩⟩
  · exact (agree.nat nid inside).trans (synced.nat nid inside clean).symm
  · exact (agree.validBmp seg inside).trans (synced.sit seg inside clean).1.symm
  · exact (agree.validBlkNr seg inside).trans (synced.sit seg inside clean).2.symm

/-- An image with one file of two blocks, mounted, with the file opened and two more blocks of it
written. -/
def Fs.written : Fs :=
  finalState ((do
    reset 0
    mount
    @Call.run ⟨fun _ => 0⟩ (.fileOpen ['\\', 'a'])
    @Call.run ⟨fun _ => 0⟩ (.fileWrite 1 1024 1024) : FsM Unit) .populated)

/-- It is reached by a run that takes no checkpoint. -/
theorem written_run :
    @Run ⟨fun _ => 0⟩ .written ∧
      ∃ limit saves, @Recorded ⟨fun _ => 0⟩ limit saves .written ∧ limit < 10 := by
  let hash : NameHash := ⟨fun _ => 0⟩
  have returns : returned ((do
      reset 0
      mount
      Call.run (.fileOpen ['\\', 'a'])
      Call.run (.fileWrite 1 1024 1024) : FsM Unit) .populated) = true := by decide +kernel
  obtain ⟨_, last, returns⟩ := eq_ok_of_returned returns
  have same : Fs.written = last := congrArg finalState returns
  obtain ⟨_, fs, unmounted, returns⟩ := bind_eq_ok.mp returns
  obtain ⟨_, m, mounted, returns⟩ := bind_eq_ok.mp returns
  obtain ⟨_, opened, opens, writes⟩ := bind_eq_ok.mp returns
  have version : (finalState ((do
      reset 0
      mount : FsM Unit) .populated)).checkpoint.header.verClose < 10 := by decide +kernel
  have reopened : (do
      reset 0
      mount : FsM Unit) .populated = .ok ⟨⟩ m := bind_eq_ok.mpr ⟨_, fs, unmounted, mounted⟩
  rw [reopened, finalState_ok] at version
  rw [same]
  refine ⟨((Run.mounted unmounted mounted).called _ opens).called _ writes, _, _,
    ((Recorded.mounted unmounted mounted).called _ opens (.moved .start ?_)).called _ writes
      (.moved .start ?_), version⟩
  · exact Returns.bind (fileOpen_moves between_parts _) (fun _ => Returns.pure _) _ _ _ opens
  · exact Returns.bind (fileWrite_moves between_parts _ _ _) (fun _ => Returns.pure _) _ _ _ writes

/-- Power is lost after the file was written: of the segment that took the two blocks, which is
marked, the three valid blocks of before are loaded, and of all others those that are in memory. -/
theorem run_marks_written :
    ∃ after, (do reset 0; loadTables : FsM Unit) .written = .ok ⟨⟩ after ∧
      (Fs.written.segments.segments 1).validBlkNr = 5 ∧
      (after.segments.segments 1).validBlkNr = 3 ∧
      ∀ seg < mainSegNr, seg ≠ 1 →
        (after.segments.segments seg).validBlkNr = (Fs.written.segments.segments seg).validBlkNr := by
  obtain ⟨run, limit, saves, recorded, version⟩ := written_run
  obtain ⟨-, marks⟩ := @run_marks ⟨fun _ => 0⟩ _ run
  obtain ⟨after, loaded, -, segments⟩ := marks limit saves recorded (by omega)
  have clean : ∀ seg < mainSegNr, seg ≠ 1 → Fs.written.segments.isDirty seg = false := by
    decide +kernel
  have before : ((finalState ((do reset 0; loadTables : FsM Unit) .written)).segments.segments
      1).validBlkNr = 3 := by decide +kernel
  rw [loaded, finalState_ok] at before
  exact ⟨after, loaded, by decide +kernel, before,
    fun seg inside other => (segments seg inside (clean seg inside other)).2⟩

/-- A clean shutdown loses nothing: after `Unmount` the tables in memory are loaded again. -/
theorem unmount_reloads [NameHash] {fs fs' : Fs} (run : Run fs)
    (closed : unmount fs = .ok ⟨⟩ fs') :
    (∃ limit saves, Recorded limit saves fs) ∧
      ∀ limit saves, Recorded limit saves fs → limit + 1 < 2 ^ 32 →
        ∃ m, (do reset 0; loadTables : FsM Unit) fs' = .ok ⟨⟩ m ∧ m.tables.Agree fs'.tables := by
  refine ⟨run.recorded, fun limit saves recorded small => ?_⟩
  obtain ⟨fs₁, step, saved⟩ := unmount_ok between_parts closed
  have durable := (recorded.durable (by omega)).between step
  obtain ⟨free, linked⟩ := durable.linked
  have version := durable.version
  have done := writeCheckpoint_spec durable.synced linked (by omega) saved
  obtain ⟨fs'', lost, same⟩ := reset_zero fs'
  have survives : Survives (imageCkpt fs'.storage fs'.curCkpt).header.verClose fs''.storage
      fs'.durable := same.symm ▸ ⟨fs'.curCkpt, done.synced.readable, le_rfl, .refl _⟩
  obtain ⟨m, loaded, agree⟩ := survives.loads lost
  refine ⟨m, bind_eq_ok.mpr ⟨_, _, lost, loaded⟩, agree.trans ?_⟩
  rw [done.tables]
  exact done.durable

/-- A formatted image that is mounted and shut down. -/
theorem unmount_reloads_formatted :
    ∃ closed after, unmount .remounted = .ok ⟨⟩ closed ∧
      (do reset 0; loadTables : FsM Unit) closed = .ok ⟨⟩ after ∧
      after.tables.Agree closed.tables := by
  let hash : NameHash := ⟨fun _ => 0⟩
  obtain ⟨fs, unmounted, mounted⟩ := remounted_run
  have closed : returned (unmount .remounted) = true := by decide +kernel
  obtain ⟨_, last, closed⟩ := eq_ok_of_returned closed
  have small := remounted_version
  obtain ⟨-, reloads⟩ := unmount_reloads (.mounted unmounted mounted) closed
  obtain ⟨after, loaded, agree⟩ := reloads _ _ (.mounted unmounted mounted) (by omega)
  exact ⟨last, after, closed, loaded, agree⟩

end FsChecking.F2fs
