import FsChecking.Device.CrashRings
import Mathlib.Data.List.Nodup

/-!
# The history of the crash disk

The disk as a list of live block writes in the order in which they have been issued: a command
appends its blocks, a rollback removes the last ones, and a block reads as its last write. The code
follows this list as long as a rollback meets no block that has been rolled back before.
-/

namespace FsChecking.Device.Crash

open Lib

/-! ## Entries of commands -/

/-- The number of blocks of a command. -/
def cmdBlocks (cmds : List CmdEntry) (cmd : Nat) : Nat :=
  match cmds[cmd]? with
  | some ⟨some lba, secs, _⟩ => blockCount lba secs
  | _ => 0

/-- The block that an entry is a version of. -/
def blkOf (cmds : List CmdEntry) (ref : EntryRef) : Nat :=
  match cmds[ref.1]? with
  | some ⟨some lba, _, _⟩ => startBlk lba + ref.2
  | _ => 0

/-- The entries of a command. -/
def cmdRefs (cmds : List CmdEntry) (cmd : Nat) : List EntryRef :=
  (List.range (cmdBlocks cmds cmd)).map fun index => (cmd, index)

/-- The entries of the first commands, in the order in which they have been issued. -/
def refsBelow (cmds : List CmdEntry) : Nat → List EntryRef
  | 0 => []
  | cmd + 1 => refsBelow cmds cmd ++ cmdRefs cmds cmd

variable {cmds : List CmdEntry} {ref : EntryRef} {cmd base num : Nat}

/-- The entries of a command. -/
theorem mem_cmdRefs : ref ∈ cmdRefs cmds cmd ↔ ref.1 = cmd ∧ ref.2 < cmdBlocks cmds cmd := by
  unfold cmdRefs
  rw [List.mem_map]
  constructor
  · rintro ⟨index, inside, rfl⟩
    exact ⟨rfl, List.mem_range.mp inside⟩
  · rintro ⟨rfl, inside⟩
    exact ⟨ref.2, List.mem_range.mpr inside, rfl⟩

/-- The entries of the first commands. -/
theorem mem_refsBelow :
    ref ∈ refsBelow cmds base ↔ ref.1 < base ∧ ref.2 < cmdBlocks cmds ref.1 := by
  induction base with
  | zero => simp [refsBelow]
  | succ base ih =>
    rw [refsBelow, List.mem_append, ih, mem_cmdRefs]
    constructor
    · rintro (⟨before, inside⟩ | ⟨rfl, inside⟩)
      · exact ⟨Nat.lt_succ_of_lt before, inside⟩
      · exact ⟨Nat.lt_succ_self _, inside⟩
    · rintro ⟨before, inside⟩
      rcases Nat.lt_succ_iff_lt_or_eq.mp before with older | rfl
      · exact .inl ⟨older, inside⟩
      · exact .inr ⟨rfl, inside⟩

/-- The order in which entries have been issued. -/
def Earlier (first second : EntryRef) : Prop :=
  first.1 < second.1 ∨ first.1 = second.1 ∧ first.2 < second.2

/-- Entries are listed in the order in which they have been issued. -/
theorem refsBelow_sorted (cmds : List CmdEntry) (base : Nat) :
    (refsBelow cmds base).Pairwise Earlier := by
  induction base with
  | zero => exact List.Pairwise.nil
  | succ base ih =>
    refine List.pairwise_append.mpr ⟨ih, ?_, ?_⟩
    · unfold cmdRefs
      rw [List.pairwise_map]
      exact List.pairwise_lt_range.imp fun before => .inr ⟨rfl, before⟩
    · intro first older second newer
      rw [(mem_cmdRefs.mp newer).1.symm] at older
      exact .inl (mem_refsBelow.mp older).1

/-- No entry is listed twice. -/
theorem refsBelow_nodup (cmds : List CmdEntry) (base : Nat) : (refsBelow cmds base).Nodup := by
  refine (refsBelow_sorted cmds base).imp fun {first second} before => ?_
  rintro rfl
  rcases before with less | ⟨-, less⟩
  · exact Nat.lt_irrefl _ less
  · exact Nat.lt_irrefl _ less

/-- A new command does not change the older ones. -/
theorem cmdBlocks_append (entry : CmdEntry) (inside : cmd < cmds.length) :
    cmdBlocks (cmds ++ [entry]) cmd = cmdBlocks cmds cmd := by
  unfold cmdBlocks
  rw [List.getElem?_append_left inside]

/-- A new command does not change the blocks of older entries. -/
theorem blkOf_append (entry : CmdEntry) (inside : ref.1 < cmds.length) :
    blkOf (cmds ++ [entry]) ref = blkOf cmds ref := by
  unfold blkOf
  rw [List.getElem?_append_left inside]

/-- A new command does not change the entries of the older ones. -/
theorem refsBelow_append (entry : CmdEntry) (inside : base ≤ cmds.length) :
    refsBelow (cmds ++ [entry]) base = refsBelow cmds base := by
  induction base with
  | zero => rfl
  | succ base ih =>
    rw [refsBelow, refsBelow, ih (by omega)]
    unfold cmdRefs
    rw [cmdBlocks_append entry inside]

/-- The block of an entry of a command that writes. -/
theorem blkOf_of_write {lba secs : Nat} {op : Text} (index : Nat)
    (entry : cmds[cmd]? = some ⟨some lba, secs, op⟩) :
    blkOf cmds (cmd, index) = startBlk lba + index := by
  unfold blkOf
  rw [entry]

/-! ## The live entries -/

namespace CrashDisk

variable (disk : CrashDisk)

/-- The entry has not been rolled back. -/
def IsLive (ref : EntryRef) : Prop := (disk.entries ref).offset.isSome

instance (ref : EntryRef) : Decidable (disk.IsLive ref) := inferInstanceAs (Decidable (_ = true))

/-- The entries that have not been rolled back, in the order in which they have been issued. -/
def live : List EntryRef :=
  (refsBelow disk.cmdCache disk.cmdCache.length).filter fun ref => disk.IsLive ref

/-- The data of an entry. -/
def dataOf (ref : EntryRef) : Option Block :=
  (disk.entries ref).offset.bind fun offset => disk.dataFile[offset]?

end CrashDisk

/-- A block write that has not been rolled back. -/
structure LiveWrite where
  /-- The command. -/
  cmd : Nat
  /-- The block. -/
  blk : Nat
  /-- The data. -/
  data : Block
  deriving DecidableEq

/-- The block writes of a command. -/
def issued (cmd lba : Nat) (data : List Block) : List LiveWrite :=
  data.mapIdx fun index block => ⟨cmd, startBlk lba + index, block⟩

/-- The disk holds the listed writes. -/
structure Holds (disk : CrashDisk) (writes : List LiveWrite) : Prop where
  /-- The rings. -/
  rings : Rings (blkOf disk.cmdCache) disk disk.live
  /-- The writes. -/
  shows : (disk.live.map fun ref => (disk.dataOf ref).map fun data =>
    (⟨ref.1, blkOf disk.cmdCache ref, data⟩ : LiveWrite)) = writes.map some
  /-- Commands are rolled back from their ends. -/
  front : ∀ ref ∈ disk.live, ∀ index < ref.2, (ref.1, index) ∈ disk.live
  /-- No entry behind `m_cache_top` is live. -/
  top : ∀ ref ∈ disk.live, ref.1 < disk.cacheTop
  /-- `m_cache_top` points to a command or to the end. -/
  topLe : disk.cacheTop ≤ disk.cmdCache.length
  /-- `m_cache_size`. -/
  size : disk.cacheSize = disk.dataFile.length
  /-- Marks have a text. -/
  marked : ∀ entry ∈ disk.cmdCache, entry.op = [] ↔ entry.startLba.isSome

variable {disk next : CrashDisk} {writes : List LiveWrite} {live : List EntryRef}

/-- The live entries. -/
theorem mem_live : ref ∈ disk.live ↔
    ref.1 < disk.cmdCache.length ∧ ref.2 < cmdBlocks disk.cmdCache ref.1 ∧ disk.IsLive ref := by
  unfold CrashDisk.live
  rw [List.mem_filter, mem_refsBelow, decide_eq_true_iff, and_assoc]

/-- No live entry is listed twice. -/
theorem live_nodup (disk : CrashDisk) : disk.live.Nodup := (refsBelow_nodup _ _).filter _

/-- The data of a live entry is in the data file. -/
theorem Holds.dataOf (holds : Holds disk writes) (member : ref ∈ disk.live) :
    ∃ data, disk.dataOf ref = some data := by
  have listed := List.mem_map_of_mem (f := fun ref => (disk.dataOf ref).map fun data =>
    (⟨ref.1, blkOf disk.cmdCache ref, data⟩ : LiveWrite)) member
  rw [holds.shows, List.mem_map] at listed
  obtain ⟨write, -, same⟩ := listed
  cases found : disk.dataOf ref with
  | none =>
    rw [found] at same
    cases same
  | some data => exact ⟨data, rfl⟩

/-- Rings depend on the blocks of their entries. -/
theorem Rings.blkOf_congr {blkOf blkOf' : EntryRef → Nat} (rings : Rings blkOf disk live)
    (same : ∀ ref ∈ live, blkOf' ref = blkOf ref) : Rings blkOf' disk live := by
  have equal : ∀ blk, versions blkOf' live blk = versions blkOf live blk := fun blk =>
    List.filter_congr fun ref listed => by rw [same ref listed]
  refine ⟨fun blk => ?_, fun blk notEmpty => ?_⟩
  · rw [equal]
    exact rings.newest blk
  · rw [equal] at notEmpty ⊢
    exact rings.rings blk notEmpty

/-! ## Writing -/

/-- `cache_enque` changes no offset. -/
theorem cacheEnque_offset (disk : CrashDisk) (ref : EntryRef) (blk : Nat) (other : EntryRef) :
    ((disk.cacheEnque ref blk).entries other).offset = (disk.entries other).offset := by
  unfold CrashDisk.cacheEnque
  dsimp only
  cases disk.lbaMapping blk with
  | none => rw [offset_setPrev, offset_setNext]
  | some cur => rw [offset_setPrev, offset_setNext, offset_setNext, offset_setPrev]

/-- The offsets behind the rounds of `add_command`. -/
theorem addBlocks_offsets (disk : CrashDisk) (cmd start count : Nat) :
    ∀ next, next = (List.range count).foldl (CrashDisk.addBlock cmd start) disk →
      (∀ index < count, (next.entries (cmd, index)).offset = some (disk.cacheSize + index)) ∧
      (∀ ref, ref.1 ≠ cmd → (next.entries ref).offset = (disk.entries ref).offset) ∧
      next.cacheSize = disk.cacheSize + count ∧
      { next with
        lbaMapping := disk.lbaMapping, entries := disk.entries
        cacheSize := disk.cacheSize } = disk := by
  induction count with
  | zero =>
    rintro next rfl
    exact ⟨nofun, fun _ _ => rfl, rfl, rfl⟩
  | succ count ih =>
    rintro next rfl
    rw [List.range_succ, List.foldl_append]
    obtain ⟨offsets, others, size, rest⟩ := ih _ rfl
    generalize (List.range count).foldl (CrashDisk.addBlock cmd start) disk = before
      at offsets others size rest ⊢
    let marked := { before with
      entries := setOffset before.entries (cmd, count) (some before.cacheSize) }
    have kept := cacheEnque_offset marked (cmd, count) (start + count)
    refine ⟨fun index inside => ?_, fun ref foreign => ?_, ?_, ?_⟩
    · change ((marked.cacheEnque (cmd, count) (start + count)).entries _).offset = _
      rw [kept]
      rcases Nat.lt_succ_iff_lt_or_eq.mp inside with older | rfl
      · have apart : (cmd, index) ≠ (cmd, count) := fun same =>
          Nat.ne_of_lt older (Prod.mk.inj same).2
        rw [offset_setOffset_of_ne _ apart]
        exact offsets index older
      · rw [offset_setOffset_self, size]
    · change ((marked.cacheEnque (cmd, count) (start + count)).entries _).offset = _
      rw [kept, offset_setOffset_of_ne _ fun same => foreign (congrArg Prod.fst same)]
      exact others ref foreign
    · change before.cacheSize + 1 = _
      rw [size]
      rfl
    · rw [← rest]
      rfl

/-- The rings behind the rounds of `add_command`. -/
theorem addBlocks_rings {blkOf : EntryRef → Nat} {start : Nat} (count : Nat)
    (blocks : ∀ index < count, blkOf (cmd, index) = start + index)
    (rings : Rings blkOf disk live)
    (nodup : (live ++ (List.range count).map fun index => (cmd, index)).Nodup) :
    Rings blkOf ((List.range count).foldl (CrashDisk.addBlock cmd start) disk)
      (live ++ (List.range count).map fun index => (cmd, index)) := by
  induction count with
  | zero =>
    rw [List.range_zero, List.map_nil, List.append_nil]
    exact rings
  | succ count ih =>
    rw [List.range_succ, List.map_append, ← List.append_assoc] at nodup ⊢
    rw [List.foldl_append]
    have rings := ih (fun index before => blocks index (Nat.lt_succ_of_lt before))
      (List.nodup_append.mp nodup).1
    generalize (List.range count).foldl (CrashDisk.addBlock cmd start) disk = before at rings ⊢
    let marked := { before with
      entries := setOffset before.entries (cmd, count) (some before.cacheSize) }
    have markedRings : Rings blkOf marked
        (live ++ (List.range count).map fun index => (cmd, index)) :=
      rings.congr rfl (nexts_setOffset ..) (prevs_setOffset ..)
    have fresh : (cmd, count) ∉ live ++ (List.range count).map fun index => (cmd, index) :=
      fun listed => (List.nodup_append.mp nodup).2.2 _ listed _ (List.mem_singleton_self _) rfl
    have added := markedRings.cacheEnque (List.nodup_append.mp nodup).1 fresh
      (blocks count (Nat.lt_succ_self _))
    exact ⟨added.newest, added.rings⟩

/-- What a command leaves of a disk. -/
theorem addCommand_offsets (disk : CrashDisk) (lba secs : Nat) :
    ∀ next, next = disk.addCommand lba secs →
      next.cmdCache = disk.cmdCache ++ [⟨some lba, secs, []⟩] ∧
      (∀ index < blockCount lba secs,
        (next.entries (disk.cmdCache.length, index)).offset = some (disk.cacheSize + index)) ∧
      (∀ ref, ref.1 ≠ disk.cmdCache.length →
        (next.entries ref).offset = (disk.entries ref).offset) ∧
      next.cacheSize = disk.cacheSize + blockCount lba secs ∧
      next.cacheTop = disk.cmdCache.length + 1 ∧
      next.dataFile = disk.dataFile ∧ next.diskSize = disk.diskSize := by
  rintro next rfl
  let appended : CrashDisk :=
    { disk with cmdCache := disk.cmdCache ++ [(⟨some lba, secs, []⟩ : CmdEntry)] }
  obtain ⟨offsets, others, size, rest⟩ :=
    addBlocks_offsets appended disk.cmdCache.length (startBlk lba) (blockCount lba secs) _ rfl
  have sameCmds := congrArg CrashDisk.cmdCache rest
  have sameFile := congrArg CrashDisk.dataFile rest
  have sameSize := congrArg CrashDisk.diskSize rest
  refine ⟨sameCmds, offsets, others, size, ?_, sameFile, sameSize⟩
  have length := congrArg List.length sameCmds
  exact length.trans List.length_append

/-- The live entries and the rings behind a command. -/
theorem addCommand_rings (lba secs : Nat) (rings : Rings (blkOf disk.cmdCache) disk disk.live) :
    ∀ next, next = disk.addCommand lba secs →
      next.live = disk.live ++ cmdRefs next.cmdCache disk.cmdCache.length ∧
      Rings (blkOf next.cmdCache) next next.live := by
  rintro next rfl
  obtain ⟨sameCmds, offsets, others, -⟩ := addCommand_offsets disk lba secs _ rfl
  let cmds := disk.cmdCache ++ [(⟨some lba, secs, []⟩ : CmdEntry)]
  change _ = cmds at sameCmds
  let appended : CrashDisk := { disk with cmdCache := cmds }
  have new : cmds[disk.cmdCache.length]? = some ⟨some lba, secs, []⟩ := by simp [cmds]
  have blocks : cmdBlocks cmds disk.cmdCache.length = blockCount lba secs := by
    unfold cmdBlocks
    rw [new]
  have refs : cmdRefs cmds disk.cmdCache.length =
      (List.range (blockCount lba secs)).map fun index => (disk.cmdCache.length, index) := by
    unfold cmdRefs
    rw [blocks]
  have older : ∀ ref ∈ disk.live, ref.1 < disk.cmdCache.length := fun ref member =>
    (mem_live.mp member).1
  have appendedRings : Rings (blkOf cmds) appended disk.live :=
    Rings.blkOf_congr (rings.congr rfl rfl rfl) fun ref member => blkOf_append _ (older ref member)
  have nodup : (disk.live ++
      (List.range (blockCount lba secs)).map fun index => (disk.cmdCache.length, index)).Nodup := by
    rw [← refs]
    refine List.nodup_append.mpr ⟨live_nodup disk, ?_, ?_⟩
    · rw [refs]
      exact List.nodup_range.map fun first second same => (Prod.mk.inj same).2
    · rintro first listed second added rfl
      exact Nat.ne_of_lt (older first listed) (mem_cmdRefs.mp added).1
  have filled := addBlocks_rings (blockCount lba secs)
    (fun index _ => blkOf_of_write index new) appendedRings nodup
  have live : (disk.addCommand lba secs).live =
      disk.live ++ cmdRefs cmds disk.cmdCache.length := by
    unfold CrashDisk.live CrashDisk.IsLive
    rw [sameCmds, List.length_append, List.length_singleton, refsBelow, List.filter_append,
      refsBelow_append _ (le_refl _)]
    congr 1
    · refine List.filter_congr fun ref listed => decide_eq_decide.mpr ?_
      rw [others ref (Nat.ne_of_lt (mem_refsBelow.mp listed).1)]
    · refine List.filter_eq_self.mpr fun ref listed => decide_eq_true ?_
      obtain ⟨here, inside⟩ := mem_cmdRefs.mp listed
      rw [blocks] at inside
      obtain ⟨cmd, index⟩ := ref
      cases here
      rw [offsets index inside]
      rfl
  rw [live, sameCmds, refs]
  exact ⟨rfl, filled.congr rfl rfl rfl⟩

/-- The block writes of a command, by their indices. -/
theorem issued_eq {lba : Nat} {data : List Block} {blocks : Nat} (whole : data.length = blocks) :
    (issued cmd lba data).map some = (List.range blocks).map fun index =>
      data[index]?.map fun block => (⟨cmd, startBlk lba + index, block⟩ : LiveWrite) := by
  unfold issued
  refine List.ext_getElem (by simp [whole]) fun index inside _ => ?_
  have small : index < data.length := by simpa using inside
  simp [small]

/-- `WriteSectors` appends its blocks. -/
theorem Holds.writeSectors {lba secs : Nat} {data : List Block} (holds : Holds disk writes)
    (whole : data.length = blockCount lba secs)
    (room : endBlk lba secs ≤ disk.diskSize / sectorPerBlock) :
    ∃ next, disk.writeSectors data lba secs = some next ∧
      Holds next (writes ++ issued disk.cmdCache.length lba data) ∧
      next.cmdCache = disk.cmdCache ++ [⟨some lba, secs, []⟩] ∧
      next.diskSize = disk.diskSize := by
  unfold CrashDisk.writeSectors
  rw [if_neg (Nat.not_lt.mpr room)]
  refine ⟨_, rfl, ?_⟩
  let written : CrashDisk := { disk with dataFile := disk.dataFile ++ data }
  change Holds (written.addCommand lba secs) _ ∧ (written.addCommand lba secs).cmdCache = _ ∧
    (written.addCommand lba secs).diskSize = _
  have writtenRings : Rings (blkOf written.cmdCache) written written.live :=
    holds.rings.congr rfl rfl rfl
  obtain ⟨cmds, offsets, others, size, top, file, sameSize⟩ :=
    addCommand_offsets written lba secs _ rfl
  obtain ⟨live, rings⟩ := addCommand_rings lba secs writtenRings _ rfl
  generalize written.addCommand lba secs = next at *
  change next.live = disk.live ++ cmdRefs next.cmdCache disk.cmdCache.length at live
  have new : next.cmdCache[disk.cmdCache.length]? = some ⟨some lba, secs, []⟩ := by
    rw [cmds]
    simp [written]
  have blocks : cmdBlocks next.cmdCache disk.cmdCache.length = blockCount lba secs := by
    unfold cmdBlocks
    rw [new]
  have older : ∀ ref ∈ disk.live, ref.1 < disk.cmdCache.length := fun ref member =>
    (mem_live.mp member).1
  refine ⟨⟨rings, ?_, fun ref member => ?_, fun ref member => ?_, ?_, ?_, ?_⟩, cmds, sameSize⟩
  · rw [live, List.map_append, List.map_append, ← holds.shows, issued_eq whole]
    congr 1
    · refine List.map_congr_left fun ref member => ?_
      obtain ⟨data', found⟩ := holds.dataOf member
      have kept : next.dataOf ref = disk.dataOf ref := by
        rw [found]
        unfold CrashDisk.dataOf at found ⊢
        rw [others ref (Nat.ne_of_lt (older ref member)), file]
        change ((disk.entries ref).offset.bind fun offset => (disk.dataFile ++ data)[offset]?) = _
        cases offset : (disk.entries ref).offset with
        | none => rw [offset] at found; cases found
        | some offset =>
          rw [offset] at found
          exact (List.getElem?_append_left (List.getElem?_eq_some_iff.mp found).1).trans found
      rw [kept, cmds]
      change _ = ((disk.dataOf ref).map fun data =>
        (⟨ref.1, blkOf disk.cmdCache ref, data⟩ : LiveWrite))
      rw [blkOf_append _ (older ref member)]
    · unfold cmdRefs
      rw [blocks, List.map_map]
      refine List.map_congr_left fun index member => ?_
      have small := List.mem_range.mp member
      have data' : next.dataOf (disk.cmdCache.length, index) = data[index]? := by
        unfold CrashDisk.dataOf
        have offset : (next.entries (disk.cmdCache.length, index)).offset =
            some (disk.dataFile.length + index) := by
          rw [← holds.size]
          exact offsets index small
        rw [offset, file]
        change (disk.dataFile ++ data)[disk.dataFile.length + index]? = _
        rw [List.getElem?_append_right (Nat.le_add_right _ _), Nat.add_sub_cancel_left]
      change (next.dataOf (disk.cmdCache.length, index)).map _ = _
      rw [data', blkOf_of_write index new]
  · intro index before
    rw [live, List.mem_append] at member ⊢
    rcases member with old | added
    · exact .inl (holds.front ref old index before)
    · obtain ⟨here, inside⟩ := mem_cmdRefs.mp added
      exact .inr (mem_cmdRefs.mpr ⟨here, Nat.lt_trans before inside⟩)
  · rw [top]
    change ref.1 < disk.cmdCache.length + 1
    rw [live, List.mem_append] at member
    rcases member with old | added
    · exact Nat.lt_succ_of_lt (older ref old)
    · exact (mem_cmdRefs.mp added).1 ▸ Nat.lt_succ_self _
  · rw [top, cmds, List.length_append]
    exact le_refl _
  · rw [size, file, whole.symm]
    change disk.cacheSize + data.length = (disk.dataFile ++ data).length
    rw [holds.size, List.length_append]
  · rw [cmds]
    intro entry member
    rcases List.mem_append.mp member with old | added
    · exact holds.marked entry old
    · rw [List.mem_singleton.mp added]
      exact ⟨fun _ => rfl, fun _ => rfl⟩

/-- A mark leaves the blocks alone. -/
theorem Holds.addMark {text : Text} (holds : Holds disk writes) (notEmpty : text ≠ []) :
    Holds (disk.addMark text) writes := by
  have none : cmdRefs (disk.cmdCache ++ [⟨none, 0, text⟩]) disk.cmdCache.length = [] := by
    unfold cmdRefs cmdBlocks
    simp
  have live : (disk.addMark text).live = disk.live := by
    unfold CrashDisk.live CrashDisk.addMark
    dsimp only
    rw [List.length_append, List.length_singleton, refsBelow, none, List.append_nil,
      refsBelow_append _ (le_refl _)]
    rfl
  have older : ∀ ref ∈ disk.live, blkOf (disk.addMark text).cmdCache ref = blkOf disk.cmdCache ref :=
    fun ref member => blkOf_append _ (mem_live.mp member).1
  refine ⟨?_, ?_, ?_, fun ref member => ?_, ?_, holds.size, fun entry member => ?_⟩
  · rw [live]
    exact Rings.blkOf_congr (holds.rings.congr rfl rfl rfl) older
  · rw [live, ← holds.shows]
    refine List.map_congr_left fun ref member => ?_
    rw [older ref member]
    rfl
  · rw [live]
    exact holds.front
  · rw [live] at member
    exact Nat.lt_succ_of_lt (mem_live.mp member).1
  · unfold CrashDisk.addMark
    rw [List.length_append]
    exact le_refl _
  · rcases List.mem_append.mp member with old | added
    · exact holds.marked entry old
    · rw [List.mem_singleton.mp added]
      exact ⟨fun empty => absurd empty notEmpty, nofun⟩

/-- A fresh disk holds nothing. -/
theorem holds_initializeDevice (sectors : Nat) : Holds (CrashDisk.initializeDevice sectors) [] where
  rings := ⟨fun _ => rfl, fun _ notEmpty => absurd rfl notEmpty⟩
  shows := rfl
  front := nofun
  top := nofun
  topLe := le_refl _
  size := rfl
  marked := nofun

end FsChecking.Device.Crash
