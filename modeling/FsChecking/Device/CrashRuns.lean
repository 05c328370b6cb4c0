import FsChecking.Device.CrashBackLog

/-!
# Runs of the crash disk

What the calls of the crash disk show of its live block writes, and runs of calls. A run keeps the
history as long as no mark is empty and no `BackLog` meets a block that has been rolled back.
-/

namespace FsChecking.Device.Crash

open Lib

variable {cmds : List CmdEntry} {disk next : CrashDisk} {writes : List LiveWrite}
  {ref : EntryRef} {cmd base num blk index : Nat}

/-! ## Reading -/

/-- The data of the last live write of a block. -/
def lastWrite (writes : List LiveWrite) (blk : Nat) : Option Block :=
  (writes.filter fun write => write.blk = blk).getLast?.map LiveWrite.data

/-- What a block contains. -/
def contents (writes : List LiveWrite) (blk : Nat) : Block :=
  (lastWrite writes blk).getD (List.replicate blockLen 0)

/-- The write of a live entry. -/
def CrashDisk.writeOf (disk : CrashDisk) (ref : EntryRef) : LiveWrite :=
  ⟨ref.1, blkOf disk.cmdCache ref, (disk.dataOf ref).getD []⟩

/-- The writes are the ones of the live entries. -/
theorem Holds.writes_eq (holds : Holds disk writes) : writes = disk.live.map disk.writeOf := by
  have same : writes.map some = (disk.live.map disk.writeOf).map some := by
    rw [← holds.shows, List.map_map]
    refine List.map_congr_left fun ref member => ?_
    obtain ⟨data, found⟩ := holds.dataOf member
    change _ = some (disk.writeOf ref)
    unfold CrashDisk.writeOf
    rw [found]
    rfl
  exact List.map_injective_iff.mpr (fun _ _ => Option.some.inj) same

/-- A block reads as its last live write. Only the first sector of an unmapped block is cleared. -/
theorem Holds.readSingleBlock (holds : Holds disk writes) (buf : Block) :
    disk.readSingleBlock buf blk = some
      ((lastWrite writes blk).getD (List.replicate sectorSize 0 ++ buf.drop sectorSize)) := by
  have last : lastWrite writes blk =
      (versions (blkOf disk.cmdCache) disk.live blk).getLast?.map fun ref =>
        (disk.writeOf ref).data := by
    unfold lastWrite versions
    rw [holds.writes_eq, List.filter_map, List.getLast?_map, Option.map_map]
    rfl
  unfold CrashDisk.readSingleBlock
  rw [last, holds.rings.newest blk]
  cases newest : (versions (blkOf disk.cmdCache) disk.live blk).getLast? with
  | none => rfl
  | some ref =>
    obtain ⟨data, found⟩ :=
      holds.dataOf (mem_versions.mp (List.mem_of_getLast? newest)).1
    change disk.dataOf ref = some (disk.writeOf ref).data
    unfold CrashDisk.writeOf
    rw [found]
    rfl

/-- What is read into a buffer. -/
def readInto (writes : List LiveWrite) (buf : Block) (blk : Nat) : Block :=
  (lastWrite writes blk).getD (List.replicate sectorSize 0 ++ buf.drop sectorSize)

/-- Blocks read one after another. -/
theorem Holds.readBlocks (holds : Holds disk writes) (bufs : List Block) (blk : Nat) :
    disk.readBlocks bufs blk =
      some (bufs.mapIdx fun index buf => readInto writes buf (blk + index)) := by
  induction bufs generalizing blk with
  | nil => rfl
  | cons buf rest ih =>
    unfold CrashDisk.readBlocks
    rw [holds.readSingleBlock, Option.bind_eq_bind, Option.bind_some, ih, List.mapIdx_cons]
    have shifted : (fun index buf => readInto writes buf (blk + 1 + index)) =
        fun index buf => readInto writes buf (blk + (index + 1)) := by
      funext index buf
      rw [Nat.add_right_comm, Nat.add_assoc]
    rw [shifted]
    rfl

/-- The part of a buffer that is not cleared is zero. -/
def Cleared (buf : Block) : Prop :=
  buf.drop sectorSize = List.replicate (blockLen - sectorSize) 0

instance (buf : Block) : Decidable (Cleared buf) := inferInstanceAs (Decidable (_ = _))

/-- A whole block is read as its contents if it has been written, or if the buffer is cleared. -/
theorem readInto_eq_iff {buf : Block} :
    readInto writes buf blk = contents writes blk ↔ (lastWrite writes blk = none → Cleared buf) := by
  unfold readInto contents
  cases lastWrite writes blk with
  | some data =>
    rw [Option.getD_some, Option.getD_some]
    exact ⟨fun _ found => absurd found (Option.some_ne_none data), fun _ => rfl⟩
  | none =>
    have parts : List.replicate blockLen (0 : UInt8) =
        List.replicate sectorSize 0 ++ List.replicate (blockLen - sectorSize) 0 := by
      rw [List.replicate_append_replicate]
      exact congrArg (fun count => List.replicate count (0 : UInt8)) (by decide)
    unfold Cleared
    rw [Option.getD_none, Option.getD_none, parts, List.append_cancel_left_eq]
    generalize List.replicate (blockLen - sectorSize) (0 : UInt8) = zeros
    exact ⟨fun same _ => same, fun cleared => cleared rfl⟩

/-- Sectors that a caller may transfer. -/
structure Transfer (disk : CrashDisk) (blocks : List Block) (lba secs : Nat) : Prop where
  /-- The sectors begin with a block. -/
  first : lba % sectorPerBlock = 0
  /-- The sectors end with a block. -/
  whole : secs % sectorPerBlock = 0
  /-- The sectors are on the disk. -/
  inside : lba + secs ≤ disk.diskSize
  /-- The caller has a block of memory for each block. -/
  count : blocks.length = blockCount lba secs
  /-- These blocks are complete. -/
  complete : ∀ block ∈ blocks, block.length = blockLen

/-- The blocks of a transfer are on the disk. -/
theorem Transfer.room {blocks : List Block} {lba secs : Nat}
    (transfer : Transfer disk blocks lba secs) (small : disk.diskSize < 2 ^ 32) :
    endBlk lba secs ≤ disk.diskSize / sectorPerBlock := by
  have first := transfer.first
  have whole := transfer.whole
  have inside := transfer.inside
  have exact : dword (lba + secs) = lba + secs :=
    Nat.mod_eq_of_lt (Nat.lt_of_le_of_lt inside small)
  unfold sectorPerBlock at first whole
  unfold endBlk roundUpDiv sectorPerBlock
  rw [exact]
  omega

/-- `ReadSectors` reads the contents of all blocks if the buffer is cleared where a block has no
live write. -/
theorem Holds.readSectors_iff {buf : List Block} {lba secs : Nat} (holds : Holds disk writes)
    (transfer : Transfer disk buf lba secs) (small : disk.diskSize < 2 ^ 32) :
    disk.readSectors buf lba secs =
        some ((List.range (blockCount lba secs)).map fun index =>
          contents writes (startBlk lba + index)) ↔
      ∀ index block, buf[index]? = some block →
        lastWrite writes (startBlk lba + index) = none → Cleared block := by
  have room := transfer.room small
  unfold CrashDisk.readSectors
  have proper : ¬ (disk.diskSize / sectorPerBlock < endBlk lba secs ∨
      buf.length < blockCount lba secs) := by
    rw [transfer.count]
    omega
  rw [if_neg proper, ← transfer.count, List.take_length, holds.readBlocks, Option.some.injEq]
  have spelled : ((List.range buf.length).map fun index =>
      contents writes (startBlk lba + index)) =
        buf.mapIdx fun index _ => contents writes (startBlk lba + index) :=
    List.ext_getElem (by simp) fun index _ _ => by simp
  rw [spelled, List.mapIdx_eq_mapIdx_iff]
  refine ⟨fun same index block found => ?_, fun cleared index inside => ?_⟩
  · obtain ⟨inside, rfl⟩ := List.getElem?_eq_some_iff.mp found
    exact readInto_eq_iff.mp (same index inside)
  · exact readInto_eq_iff.mpr
      (cleared index _ (List.getElem?_eq_getElem inside))

/-! ## Live block counts -/

/-- The number of live blocks of a command. -/
def liveCount (writes : List LiveWrite) (cmd : Nat) : Nat :=
  (writes.filter fun write => write.cmd = cmd).length

/-- The first commands that have live blocks, the newest one first, with the numbers of their live
blocks. -/
def liveLogs (cmds : List CmdEntry) (writes : List LiveWrite) : Nat → Nat → List IoEntry
  | 0, _ => []
  | cmd + 1, index =>
    match cmds[cmd]? with
    | some ⟨some lba, secs, _⟩ =>
      if liveCount writes cmd = 0 then liveLogs cmds writes cmd index
      else
        ⟨"write".toList, lba, secs, index, liveCount writes cmd⟩ ::
          liveLogs cmds writes cmd (index + liveCount writes cmd)
    | _ => liveLogs cmds writes cmd index

/-- The first commands that have live blocks or a mark, the newest one first. -/
def ioLogs (cmds : List CmdEntry) (writes : List LiveWrite) : Nat → Nat → List IoEntry
  | 0, _ => []
  | cmd + 1, index =>
    match cmds[cmd]? with
    | some ⟨some lba, secs, _⟩ =>
      if liveCount writes cmd = 0 then ioLogs cmds writes cmd index
      else
        ⟨"write".toList, lba, secs, index, liveCount writes cmd⟩ ::
          ioLogs cmds writes cmd (index + liveCount writes cmd)
    | some ⟨none, _, op⟩ => ⟨op, 0, 0, index, 0⟩ :: ioLogs cmds writes cmd index
    | none => ioLogs cmds writes cmd index

/-- Taking while a property holds that holds of a front takes everything with the property. -/
theorem takeWhile_eq_filter {α : Type} {holds : α → Bool} {list : List α}
    (front : list.Pairwise fun first second => holds second = true → holds first = true) :
    list.takeWhile holds = list.filter holds := by
  induction front with
  | nil => rfl
  | @cons first rest before _ ih =>
    by_cases here : holds first = true
    · rw [List.takeWhile_cons_of_pos here, List.filter_cons_of_pos here, ih]
    · rw [List.takeWhile_cons_of_neg here, List.filter_cons_of_neg here, eq_comm]
      exact List.filter_eq_nil_iff.mpr fun second member holds => here (before second member holds)

/-- The entries of a command among the ones of all commands. -/
theorem refsBelow_filter_cmd (inside : cmd < base) :
    ((refsBelow cmds base).filter fun ref => ref.1 = cmd) = cmdRefs cmds cmd := by
  have foreign : ∀ {base}, base ≤ cmd →
      ((refsBelow cmds base).filter fun ref => ref.1 = cmd) = [] := by
    intro base before
    refine List.filter_eq_nil_iff.mpr fun ref member => ?_
    have below := (mem_refsBelow.mp member).1
    rw [decide_eq_true_iff]
    omega
  induction base with
  | zero => exact absurd inside (Nat.not_lt_zero _)
  | succ base ih =>
    rw [refsBelow, List.filter_append]
    by_cases here : base = cmd
    · rw [foreign (Nat.le_of_eq here), here, List.nil_append]
      exact List.filter_eq_self.mpr fun ref member => decide_eq_true (mem_cmdRefs.mp member).1
    · have none : ((cmdRefs cmds base).filter fun ref => ref.1 = cmd) = [] := by
        refine List.filter_eq_nil_iff.mpr fun ref member => ?_
        rw [(mem_cmdRefs.mp member).1, decide_eq_true_iff]
        exact here
      rw [none, List.append_nil]
      exact ih (by omega)

/-- The live blocks at the beginning of a command are its live blocks. -/
theorem Holds.liveBlocks (holds : Holds disk writes) (inside : cmd < disk.cmdCache.length) :
    disk.liveBlocks cmd (cmdBlocks disk.cmdCache cmd) = liveCount writes cmd := by
  have front : (List.range (cmdBlocks disk.cmdCache cmd)).Pairwise fun first second =>
      (disk.entries (cmd, second)).offset.isSome = true →
        (disk.entries (cmd, first)).offset.isSome = true := by
    refine List.pairwise_iff_getElem.mpr fun first second firstIn secondIn before valid => ?_
    simp only [List.getElem_range] at valid ⊢
    rw [List.length_range] at secondIn
    have live : (cmd, second) ∈ disk.live := mem_live.mpr ⟨inside, secondIn, valid⟩
    exact (mem_live.mp (holds.front _ live first before)).2.2
  have here : (disk.live.filter fun ref => ref.1 = cmd) =
      (cmdRefs disk.cmdCache cmd).filter fun ref => disk.IsLive ref := by
    unfold CrashDisk.live
    rw [List.filter_comm, refsBelow_filter_cmd inside]
  unfold CrashDisk.liveBlocks liveCount
  rw [takeWhile_eq_filter front, holds.writes_eq, List.filter_map, List.length_map]
  change _ = (disk.live.filter fun ref => ref.1 = cmd).length
  rw [here]
  unfold cmdRefs
  rw [List.filter_map, List.length_map]
  congr 1
  exact List.filter_congr fun index _ => Bool.decide_eq_true.symm

/-- `GetIoLogs` lists marks and commands with live blocks. -/
theorem Holds.ioLogsFrom (holds : Holds disk writes) (inside : base ≤ disk.cmdCache.length)
    (ioNr index : Nat) :
    disk.ioLogsFrom base ioNr index = some ((ioLogs disk.cmdCache writes base index).take ioNr) := by
  induction base generalizing ioNr index with
  | zero =>
    cases ioNr with
    | zero => rfl
    | succ ioNr => rfl
  | succ cmd ih =>
    have deeper := ih (Nat.le_of_succ_le inside)
    cases ioNr with
    | zero => rfl
    | succ ioNr =>
      obtain ⟨entry, found⟩ : ∃ entry, disk.cmdCache[cmd]? = some entry :=
        ⟨disk.cmdCache[cmd], List.getElem?_eq_getElem inside⟩
      have counted := holds.liveBlocks inside
      have marked := holds.marked entry (List.mem_of_getElem? found)
      unfold CrashDisk.ioLogsFrom ioLogs
      unfold cmdBlocks at counted
      rw [found] at counted ⊢
      dsimp only [Option.bind_eq_bind, Option.bind_some]
      obtain ⟨lba, secs, op⟩ := entry
      cases lba with
      | none =>
        rw [if_neg fun empty => Bool.noConfusion (marked.mp empty), deeper]
        rfl
      | some lba =>
        dsimp only [Option.bind_some] at counted ⊢
        rw [if_pos (marked.mpr rfl), counted]
        split
        · exact deeper _ _
        · rw [deeper]
          rfl

/-- Marks have no live blocks. -/
theorem filter_ioLogs (base index : Nat) :
    ((ioLogs cmds writes base index).filter fun entry => 0 < entry.blkNr) =
      liveLogs cmds writes base index := by
  induction base generalizing index with
  | zero => rfl
  | succ cmd ih =>
    unfold ioLogs liveLogs
    cases cmds[cmd]? with
    | none => exact ih index
    | some entry =>
      obtain ⟨lba, secs, op⟩ := entry
      cases lba with
      | none =>
        dsimp only
        rw [List.filter_cons_of_neg (by simp), ih]
      | some lba =>
        dsimp only
        split
        · exact ih index
        · rename_i notNone
          have listed : 0 < liveCount writes cmd := Nat.pos_of_ne_zero notNone
          rw [List.filter_cons_of_pos (by simpa using listed), ih]

/-- Commands without live blocks are not listed. -/
theorem liveLogs_add (more : Nat) (gone : ∀ cmd, base ≤ cmd → liveCount writes cmd = 0) :
    liveLogs cmds writes (base + more) index = liveLogs cmds writes base index := by
  induction more with
  | zero => rfl
  | succ more ih =>
    rw [← Nat.add_assoc, liveLogs]
    split
    · rw [if_pos (gone _ (Nat.le_add_right _ _)), ih]
    · exact ih

/-- `GetIoLogs` reports the live block counts of all commands. -/
theorem Holds.getIoLogs (holds : Holds disk writes) :
    ∃ logs : List IoEntry, (∀ ioNr, disk.getIoLogs ioNr = some (logs.take ioNr)) ∧
      (logs.filter fun entry => 0 < entry.blkNr) =
        liveLogs disk.cmdCache writes disk.cmdCache.length 0 := by
  refine ⟨ioLogs disk.cmdCache writes disk.cacheTop 0, fun ioNr =>
    holds.ioLogsFrom holds.topLe ioNr 0, ?_⟩
  have gone : ∀ cmd, disk.cacheTop ≤ cmd → liveCount writes cmd = 0 := by
    intro cmd behind
    unfold liveCount
    rw [holds.writes_eq, List.filter_map, List.length_map, List.length_eq_zero_iff]
    refine List.filter_eq_nil_iff.mpr fun ref member same => ?_
    have before := holds.top ref member
    have equal : ref.1 = cmd := of_decide_eq_true same
    omega
  have all : liveLogs disk.cmdCache writes _ 0 = _ :=
    liveLogs_add (disk.cmdCache.length - disk.cacheTop) gone
  rw [Nat.add_sub_cancel' holds.topLe] at all
  rw [filter_ioLogs, all]

/-! ## Runs -/

/-- A call of the device. -/
inductive Call
  /-- `WriteSectors`. -/
  | writeSectors (data : List Block) (lba secs : Nat)
  /-- `IoCtrl` with a mark. -/
  | ioCtrlMark (text : Text)
  /-- `BackLog`. -/
  | backLog (num : Nat)
  /-- `ReadSectors`. -/
  | readSectors (buf : List Block) (lba secs : Nat)

/-- The disk behind a call. -/
def CrashDisk.call (disk : CrashDisk) : Call → Option CrashDisk
  | .writeSectors data lba secs => disk.writeSectors data lba secs
  | .ioCtrlMark text => some (disk.addMark text)
  | .backLog num => disk.backLog num
  | .readSectors buf lba secs => (disk.readSectors buf lba secs).map fun _ => disk

/-- A call that the interface allows. -/
def Call.Proper (disk : CrashDisk) : Call → Prop
  | .writeSectors blocks lba secs | .readSectors blocks lba secs => Transfer disk blocks lba secs
  | .ioCtrlMark _ | .backLog _ => True

/-- A mark that is not empty, and a `BackLog` that meets live blocks only. -/
def Call.Regular (disk : CrashDisk) : Call → Prop
  | .ioCtrlMark text => text ≠ []
  | .backLog num => Unrolled disk num
  | .writeSectors .. | .readSectors .. => True

/-- The live block writes behind a call. -/
def Call.apply (disk : CrashDisk) (writes : List LiveWrite) : Call → List LiveWrite
  | .writeSectors data lba _ => writes ++ issued disk.cmdCache.length lba data
  | .backLog num => rollBack writes num
  | .ioCtrlMark _ | .readSectors .. => writes

/-- The disks of runs with regular calls, and the block writes that should be live. -/
inductive History (sectors : Nat) : CrashDisk → List LiveWrite → Prop
  /-- A fresh disk. -/
  | start : History sectors (CrashDisk.initializeDevice sectors) []
  /-- One more call. -/
  | step {disk next : CrashDisk} {writes : List LiveWrite} {call : Call}
    (run : History sectors disk writes) (proper : call.Proper disk) (regular : call.Regular disk)
    (returns : disk.call call = some next) : History sectors next (call.apply disk writes)

/-- A read of blocks that are on the disk returns. -/
theorem Holds.readSectors {buf : List Block} {lba secs : Nat} (holds : Holds disk writes)
    (transfer : Transfer disk buf lba secs) (small : disk.diskSize < 2 ^ 32) :
    ∃ blocks, disk.readSectors buf lba secs = some blocks := by
  have room := transfer.room small
  unfold CrashDisk.readSectors
  have proper : ¬ (disk.diskSize / sectorPerBlock < endBlk lba secs ∨
      buf.length < blockCount lba secs) := by
    rw [transfer.count]
    omega
  rw [if_neg proper, holds.readBlocks]
  exact ⟨_, rfl⟩

/-- A regular call returns and leaves the writes that should be live. -/
theorem Holds.call {call : Call} (holds : Holds disk writes) (small : disk.diskSize < 2 ^ 32)
    (proper : call.Proper disk) (regular : call.Regular disk) :
    ∃ next, disk.call call = some next ∧ Holds next (call.apply disk writes) ∧
      next.diskSize = disk.diskSize := by
  cases call with
  | writeSectors data lba secs =>
    obtain ⟨next, done, holds, -, size⟩ :=
      holds.writeSectors proper.count (proper.room small)
    exact ⟨next, done, holds, size⟩
  | ioCtrlMark text => exact ⟨_, rfl, holds.addMark regular, rfl⟩
  | backLog num =>
    obtain ⟨next, done, holds, -, size⟩ := holds.backLog regular
    exact ⟨next, done, holds, size⟩
  | readSectors buf lba secs =>
    obtain ⟨blocks, done⟩ := holds.readSectors proper small
    exact ⟨disk, congrArg (Option.map fun _ => disk) done, holds, rfl⟩

/-- The disks of a run hold the writes that should be live. -/
theorem History.holds {sectors : Nat} (run : History sectors disk writes) (small : sectors < 2 ^ 32) :
    Holds disk writes ∧ disk.diskSize = sectors := by
  induction run with
  | start => exact ⟨holds_initializeDevice sectors, rfl⟩
  | step _ proper regular returns ih =>
    obtain ⟨holds, size⟩ := ih
    obtain ⟨next, done, nextHolds, sameSize⟩ := holds.call (size ▸ small) proper regular
    rw [returns] at done
    cases done
    exact ⟨nextHolds, sameSize.trans size⟩

/-- As long as no mark is empty and no `BackLog` meets a block that has been rolled back, the disk
behaves as the list of its live block writes: the next such call returns, a rollback by two calls is
the one by their sum, every aligned read returns the last live write of each block, provided that
the buffer is cleared for the blocks without one, and `GetIoLogs` reports the live block counts. -/
theorem history_of_regular {sectors : Nat} (run : History sectors disk writes)
    (small : sectors < 2 ^ 32) :
    (∀ call : Call, call.Proper disk → call.Regular disk →
      ∃ next, disk.call call = some next ∧ History sectors next (call.apply disk writes)) ∧
    (∀ first second, rollBack (rollBack writes first) second = rollBack writes (first + second)) ∧
    (∀ buf lba secs, Transfer disk buf lba secs →
      (disk.readSectors buf lba secs =
          some ((List.range (blockCount lba secs)).map fun index =>
            contents writes (startBlk lba + index)) ↔
        ∀ index block, buf[index]? = some block →
          lastWrite writes (startBlk lba + index) = none → Cleared block)) ∧
    ∃ logs : List IoEntry, (∀ ioNr, disk.getIoLogs ioNr = some (logs.take ioNr)) ∧
      (logs.filter fun entry => 0 < entry.blkNr) =
        liveLogs disk.cmdCache writes disk.cmdCache.length 0 := by
  obtain ⟨holds, size⟩ := run.holds small
  have sizeSmall : disk.diskSize < 2 ^ 32 := size ▸ small
  refine ⟨fun call proper regular => ?_, rollBack_rollBack writes, fun buf lba secs transfer =>
    holds.readSectors_iff transfer sizeSmall, holds.getIoLogs⟩
  obtain ⟨next, done, -, -⟩ := holds.call sizeSmall proper regular
  exact ⟨next, done, run.step proper regular done⟩

/-- A block for a run. -/
def sampleBlock (byte : UInt8) : Block := List.replicate blockLen byte

/-- A disk with two blocks that have been written by one command, and one of them rolled back. -/
theorem sample_history : ∃ disk, History 64 disk [⟨0, 0, sampleBlock 1⟩] ∧
    disk.backLog 1 = none := by
  have complete : ∀ block ∈ [sampleBlock 1, sampleBlock 2], block.length = blockLen := by
    intro block member
    rcases List.mem_pair.mp member with rfl | rfl
    · exact List.length_replicate
    · exact List.length_replicate
  have first : History 64 _ [⟨0, 0, sampleBlock 1⟩, ⟨0, 1, sampleBlock 2⟩] :=
    @History.step 64 _ _ _ (.writeSectors [sampleBlock 1, sampleBlock 2] 0 16) History.start
      ⟨rfl, rfl, by decide, rfl, complete⟩ trivial rfl
  have unrolled : ∀ data, Unrolled ({ CrashDisk.initializeDevice 64 with
      dataFile := data }.addCommand 0 16) 1 := fun data ref member => by
    have last : ref ∈ [((0, 1) : EntryRef)] := member
    rw [List.mem_singleton.mp last]
    rfl
  have second : History 64 _ [⟨0, 0, sampleBlock 1⟩] :=
    @History.step 64 _ _ _ (.backLog 1) first trivial (unrolled _) rfl
  exact ⟨_, second, rfl⟩

/-- A run that writes two blocks and rolls one of them back. -/
theorem history_of_regular_sample :
    ∃ disk, History 64 disk [⟨0, 0, sampleBlock 1⟩] ∧
      ∃ logs : List IoEntry, ∀ ioNr, disk.getIoLogs ioNr = some (logs.take ioNr) := by
  obtain ⟨disk, run, -⟩ := sample_history
  obtain ⟨-, -, -, logs, same, -⟩ := history_of_regular run (by decide)
  exact ⟨disk, run, logs, same⟩

/-- The next `BackLog` meets the block that has been rolled back, and crashes. -/
theorem backLog_crashes : ¬ ∀ disk, History 64 disk [⟨0, 0, sampleBlock 1⟩] →
    ∃ next, disk.backLog 1 = some next := by
  intro returns
  obtain ⟨disk, run, crash⟩ := sample_history
  obtain ⟨next, done⟩ := returns disk run
  rw [crash] at done
  cases done

end FsChecking.Device.Crash
