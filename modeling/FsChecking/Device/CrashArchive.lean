import FsChecking.Device.CrashRuns
import Mathlib.Algebra.BigOperators.Group.Finset.Basic
import Mathlib.Algebra.Order.BigOperators.Group.Finset
import Mathlib.Data.List.TakeWhile

/-!
# The archive of the crash disk

`SaveToFile` writes the commands with the offset of the first block of each, and `LoadFromFile`
issues them again. A loaded disk is the disk behind its commands without any rollback, so that it is
the saved disk only if nothing has been rolled back.
-/

namespace FsChecking.Device.Crash

open Lib

/-! ## Saving and loading -/

/-- What an archived write has and an archived mark has not. -/
structure WriteLog where
  /-- `lba`. -/
  lba : Nat
  /-- `secs`. -/
  secs : Nat
  /-- `offset`, when it is valid. -/
  offset : Option Nat
  deriving DecidableEq

/-- An entry of `logs`. -/
structure Log where
  /-- `cmd`. -/
  cmd : Text
  /-- The other fields. -/
  write : Option WriteLog
  deriving DecidableEq

/-- The archive. -/
structure Archive where
  /-- `sectors`. -/
  sectors : Nat
  /-- `logs`. -/
  logs : List Log
  deriving DecidableEq

/-- The `cmd` of an archived write. -/
def writeCmd : Text := "write".toList

namespace CrashDisk

variable (disk : CrashDisk)

/-- The archived command. The first of no blocks is outside the memory of the command. -/
def logOf (cmd : Nat) (entry : CmdEntry) : Option Log :=
  if entry.op = [] then do
    let lba ← entry.startLba
    if blockCount lba entry.secs = 0 then none
    else return ⟨writeCmd, some ⟨lba, entry.secs, (disk.entries (cmd, 0)).offset⟩⟩
  else some ⟨entry.op, none⟩

/-- The archived commands, from a command on. -/
def saveLogs : Nat → List CmdEntry → Option (List Log)
  | _, [] => some []
  | cmd, entry :: rest => do
    let log ← disk.logOf cmd entry
    let logs ← saveLogs (cmd + 1) rest
    return log :: logs

/-- `SaveToFile`. -/
def saveToFile : Option Archive := do
  let logs ← disk.saveLogs 0 disk.cmdCache
  return ⟨disk.diskSize, logs⟩

/-- Load a command. A write without its fields and a wrong offset are errors. -/
def loadLog (log : Log) : Option CrashDisk :=
  if log.cmd = writeCmd then do
    let write ← log.write
    if write.offset = some disk.cacheSize then some (disk.addCommand write.lba write.secs) else none
  else some (disk.addMark log.cmd)

/-- Load commands. -/
def loadLogs : List Log → CrashDisk → Option CrashDisk
  | [], disk => some disk
  | log :: logs, disk => do
    let disk ← disk.loadLog log
    loadLogs logs disk

/-- `LoadFromFile`, with the data file. -/
def loadFromFile (archive : Archive) (dataFile : List Block) : Option CrashDisk :=
  loadLogs archive.logs { initializeDevice archive.sectors with dataFile := dataFile }

/-- `BackLog`, several times. -/
def backLogs : List Nat → CrashDisk → Option CrashDisk
  | [], disk => some disk
  | num :: nums, disk => do
    let disk ← disk.backLog num
    backLogs nums disk

end CrashDisk

/-- Two disks show the same, also behind every later sequence of `BackLog`. -/
structure Agree (saved loaded : CrashDisk) : Prop where
  /-- The same rollbacks return. -/
  returns : ∀ nums, (saved.backLogs nums).isSome = (loaded.backLogs nums).isSome
  /-- All reads. -/
  reads : ∀ nums buf lba secs, ((saved.backLogs nums).bind fun disk =>
    disk.readSectors buf lba secs) = (loaded.backLogs nums).bind fun disk =>
    disk.readSectors buf lba secs
  /-- All logs. -/
  logs : ∀ nums ioNr, ((saved.backLogs nums).bind fun disk => disk.getIoLogs ioNr) =
    (loaded.backLogs nums).bind fun disk => disk.getIoLogs ioNr

/-- A disk whose archive restores it: every block is live, every mark has a text that is not the one
of a write, every write has a block, and `m_cache_top` points to the last command. -/
structure Restorable (disk : CrashDisk) : Prop where
  /-- Nothing has been rolled back. -/
  live : ∀ ref ∈ refsBelow disk.cmdCache disk.cmdCache.length, disk.IsLive ref
  /-- The texts of the marks. -/
  marks : ∀ entry ∈ disk.cmdCache, entry.startLba = none → entry.op ≠ [] ∧ entry.op ≠ writeCmd
  /-- The writes. -/
  writes : ∀ entry ∈ disk.cmdCache, ∀ lba, entry.startLba = some lba →
    0 < blockCount lba entry.secs
  /-- `m_cache_top`. -/
  top : disk.cacheTop = disk.cmdCache.length

variable {cmds : List CmdEntry} {disk next loaded : CrashDisk} {entry : CmdEntry}
  {ref : EntryRef} {cmd base num blk index sectors : Nat}

/-! ## Issuing commands again -/

/-- An entry that `add_command` or a mark has appended. -/
def Formed (entry : CmdEntry) : Prop :=
  match entry.startLba with
  | some _ => entry.op = []
  | none => entry.secs = 0

/-- The blocks of a command. -/
def entryBlocks (entry : CmdEntry) : Nat :=
  match entry.startLba with
  | some lba => blockCount lba entry.secs
  | none => 0

/-- The blocks of a command. -/
theorem cmdBlocks_of_entry (found : cmds[cmd]? = some entry) :
    cmdBlocks cmds cmd = entryBlocks entry := by
  unfold cmdBlocks entryBlocks
  rw [found]
  obtain ⟨lba, secs, op⟩ := entry
  cases lba with
  | none => rfl
  | some lba => rfl

/-- Issue a command. -/
def addEntry (disk : CrashDisk) (entry : CmdEntry) : CrashDisk :=
  match entry.startLba with
  | some lba => disk.addCommand lba entry.secs
  | none => disk.addMark entry.op

/-- The disk behind some commands, with an empty data file. -/
def rebuild (sectors : Nat) (cmds : List CmdEntry) : CrashDisk :=
  cmds.foldl addEntry (CrashDisk.initializeDevice sectors)

/-- What a command leaves of a disk. -/
theorem addEntry_spec (disk : CrashDisk) (formed : Formed entry) :
    ∀ next, next = addEntry disk entry →
      next.cmdCache = disk.cmdCache ++ [entry] ∧
      (∀ index < entryBlocks entry,
        (next.entries (disk.cmdCache.length, index)).offset = some (disk.cacheSize + index)) ∧
      (∀ ref, ref.1 ≠ disk.cmdCache.length →
        (next.entries ref).offset = (disk.entries ref).offset) ∧
      next.cacheSize = disk.cacheSize + entryBlocks entry ∧
      next.cacheTop = disk.cmdCache.length + 1 ∧
      next.dataFile = disk.dataFile ∧ next.diskSize = disk.diskSize := by
  rintro next rfl
  obtain ⟨lba, secs, op⟩ := entry
  cases lba with
  | none =>
    cases (formed : secs = 0)
    exact ⟨rfl, nofun, fun _ _ => rfl, rfl, rfl, rfl, rfl⟩
  | some lba =>
    cases (formed : op = [])
    exact addCommand_offsets disk lba secs _ rfl

/-- The rounds of `add_command` use neither `m_cache_top` nor the data file. -/
theorem addBlocks_with (cmd start cacheTop : Nat) (dataFile : List Block) (indices : List Nat)
    (disk : CrashDisk) :
    indices.foldl (CrashDisk.addBlock cmd start)
        { disk with cacheTop := cacheTop, dataFile := dataFile } =
      { indices.foldl (CrashDisk.addBlock cmd start) disk with
        cacheTop := cacheTop, dataFile := dataFile } := by
  induction indices generalizing disk with
  | nil => rfl
  | cons index indices ih => exact ih (CrashDisk.addBlock cmd start disk index)

/-- A command uses neither `m_cache_top` nor the data file. -/
theorem addEntry_with (disk : CrashDisk) (entry : CmdEntry) (cacheTop : Nat)
    (dataFile : List Block) :
    addEntry { disk with cacheTop := cacheTop, dataFile := dataFile } entry =
      { addEntry disk entry with dataFile := dataFile } := by
  unfold addEntry
  cases entry.startLba with
  | none => rfl
  | some lba =>
    unfold CrashDisk.addCommand
    have same := addBlocks_with disk.cmdCache.length (startBlk lba) cacheTop dataFile
      (List.range (blockCount lba entry.secs))
      { disk with cmdCache := disk.cmdCache ++ [⟨some lba, entry.secs, []⟩] }
    dsimp only at same ⊢
    rw [same]

/-- Commands do not use the data file. -/
theorem foldl_addEntry_with (cmds : List CmdEntry) (disk : CrashDisk) (dataFile : List Block) :
    cmds.foldl addEntry { disk with dataFile := dataFile } =
      { cmds.foldl addEntry disk with dataFile := dataFile } := by
  induction cmds generalizing disk with
  | nil => rfl
  | cons entry cmds ih =>
    have first := addEntry_with disk entry disk.cacheTop dataFile
    rw [List.foldl_cons, List.foldl_cons, ← ih]
    exact congrArg (List.foldl addEntry · cmds) first

/-! ## Reached disks -/

/-- The place of an entry among the ones that have been issued. -/
def place (cmds : List CmdEntry) (ref : EntryRef) : Nat := (refsBelow cmds ref.1).length + ref.2

/-- What is known of the disk behind any calls. -/
structure Tracked (disk : CrashDisk) : Prop where
  /-- The commands have been appended by the calls. -/
  formed : ∀ entry ∈ disk.cmdCache, Formed entry
  /-- `m_cache_top` points to a command or to the end. -/
  topLe : disk.cacheTop ≤ disk.cmdCache.length
  /-- `m_cache_size` counts all blocks. -/
  size : disk.cacheSize = (refsBelow disk.cmdCache disk.cmdCache.length).length
  /-- An entry has its place or has been rolled back. -/
  offsets : ∀ ref ∈ refsBelow disk.cmdCache disk.cmdCache.length,
    disk.IsLive ref → (disk.entries ref).offset = some (place disk.cmdCache ref)
  /-- Everything behind `m_cache_top` has been rolled back. -/
  behind : ∀ ref ∈ refsBelow disk.cmdCache disk.cmdCache.length, disk.cacheTop ≤ ref.1 →
    ¬ disk.IsLive ref
  /-- Without any rollback, the disk is the one behind its commands. -/
  built : (∀ ref ∈ refsBelow disk.cmdCache disk.cmdCache.length, disk.IsLive ref) →
    { disk with cacheTop := disk.cmdCache.length, dataFile := [] } =
      rebuild disk.diskSize disk.cmdCache

/-- The entries behind one more command. -/
theorem refsBelow_concat (cmds : List CmdEntry) (entry : CmdEntry) :
    refsBelow (cmds ++ [entry]) (cmds ++ [entry]).length =
      refsBelow cmds cmds.length ++
        (List.range (entryBlocks entry)).map fun index => (cmds.length, index) := by
  have found : (cmds ++ [entry])[cmds.length]? = some entry := by simp
  rw [List.length_append, List.length_singleton, refsBelow, refsBelow_append _ (le_refl _)]
  unfold cmdRefs
  rw [cmdBlocks_of_entry found]

/-- One more command. -/
theorem Tracked.addEntry (tracked : Tracked disk) (formed : Formed entry) :
    Tracked (addEntry disk entry) := by
  obtain ⟨sameCmds, new, others, size, top, file, sameSize⟩ := addEntry_spec disk formed _ rfl
  have refs := refsBelow_concat disk.cmdCache entry
  have old : ∀ ref ∈ refsBelow disk.cmdCache disk.cmdCache.length,
      (ref.1 < disk.cmdCache.length ∧
        ((Crash.addEntry disk entry).entries ref).offset = (disk.entries ref).offset) :=
    fun ref member =>
      have before := (mem_refsBelow.mp member).1
      ⟨before, others ref (Nat.ne_of_lt before)⟩
  refine ⟨?_, ?_, ?_, ?_, ?_, ?_⟩
  · rw [sameCmds]
    intro other member
    rcases List.mem_append.mp member with listed | added
    · exact tracked.formed other listed
    · exact List.mem_singleton.mp added ▸ formed
  · rw [sameCmds, top, List.length_append]
    exact le_refl _
  · rw [sameCmds, size, refs, List.length_append, List.length_map, List.length_range, tracked.size]
  · rw [sameCmds, refs]
    intro ref member live
    rcases List.mem_append.mp member with listed | added
    · obtain ⟨before, same⟩ := old ref listed
      unfold CrashDisk.IsLive at live
      rw [same] at live ⊢
      unfold place
      rw [refsBelow_append _ (Nat.le_of_lt before)]
      exact tracked.offsets ref listed live
    · obtain ⟨index, inside, rfl⟩ := List.mem_map.mp added
      rw [new index (List.mem_range.mp inside)]
      unfold place
      rw [refsBelow_append _ (le_refl _), tracked.size]
  · intro ref member behind
    have before := (mem_refsBelow.mp member).1
    rw [sameCmds, List.length_append] at before
    rw [top] at behind
    exact absurd before (Nat.not_lt.mpr behind)
  · intro live
    rw [sameCmds, refs] at live
    have oldLive : ∀ ref ∈ refsBelow disk.cmdCache disk.cmdCache.length, disk.IsLive ref := by
      intro ref listed
      have still := live ref (List.mem_append_left _ listed)
      unfold CrashDisk.IsLive at still
      rw [(old ref listed).2] at still
      exact still
    have built := tracked.built oldLive
    have again := addEntry_with disk entry disk.cmdCache.length []
    rw [built] at again
    have whole : rebuild disk.diskSize (disk.cmdCache ++ [entry]) =
        Crash.addEntry (rebuild disk.diskSize disk.cmdCache) entry := List.foldl_append
    rw [sameCmds, sameSize, whole, again, List.length_append, List.length_singleton, ← top,
      ← sameCmds, ← sameSize]

/-- Data that has been appended. -/
theorem Tracked.withData (tracked : Tracked disk) (dataFile : List Block) :
    Tracked { disk with dataFile := dataFile } :=
  ⟨tracked.formed, tracked.topLe, tracked.size, tracked.offsets, tracked.behind, tracked.built⟩

/-- `BackLog`. -/
theorem Tracked.backLog (tracked : Tracked disk) (done : disk.backLog num = some next) :
    Tracked next := by
  unfold CrashDisk.backLog at done
  rw [backLogFrom_eq rfl tracked.topLe, Option.map_eq_some_iff] at done
  obtain ⟨rolled, walked, rfl⟩ := done
  obtain ⟨gone, others, rest⟩ := rollRefs_offsets walked
  have sameCmds : rolled.cmdCache = disk.cmdCache := by
    have same := congrArg CrashDisk.cmdCache rest
    exact same
  have sameSize : rolled.cacheSize = disk.cacheSize := by
    have same := congrArg CrashDisk.cacheSize rest
    exact same
  let all := refsBelow disk.cmdCache disk.cacheTop
  have stays : ∀ ref, (rolled.entries ref).offset.isSome → ref ∉ all.reverse.take num ∧
      (rolled.entries ref).offset = (disk.entries ref).offset := by
    intro ref live
    have absent : ref ∉ all.reverse.take num := fun listed => by
      rw [gone ref listed] at live
      cases live
    exact ⟨absent, others ref absent⟩
  refine ⟨?_, ?_, ?_, ?_, ?_, ?_⟩
  · change ∀ entry ∈ rolled.cmdCache, _
    rw [sameCmds]
    exact tracked.formed
  · change stop disk.cmdCache disk.cacheTop num ≤ rolled.cmdCache.length
    rw [sameCmds]
    exact (stop_le _ _ _).trans tracked.topLe
  · change rolled.cacheSize = (refsBelow rolled.cmdCache rolled.cmdCache.length).length
    rw [sameCmds, sameSize]
    exact tracked.size
  · change ∀ ref ∈ refsBelow rolled.cmdCache rolled.cmdCache.length,
      (rolled.entries ref).offset.isSome →
        (rolled.entries ref).offset = some (place rolled.cmdCache ref)
    rw [sameCmds]
    intro ref member live
    have same := (stays ref live).2
    rw [same] at live ⊢
    exact tracked.offsets ref member live
  · change ∀ ref ∈ refsBelow rolled.cmdCache rolled.cmdCache.length,
      stop disk.cmdCache disk.cacheTop num ≤ ref.1 → ¬ (rolled.entries ref).offset.isSome
    rw [sameCmds]
    intro ref member behind live
    obtain ⟨absent, same⟩ := stays ref live
    rw [same] at live
    rcases Nat.lt_or_ge ref.1 disk.cacheTop with before | after
    · have listed : ref ∈ all := mem_refsBelow.mpr ⟨before, (mem_refsBelow.mp member).2⟩
      rw [List.take_reverse, List.mem_reverse] at absent
      rw [← List.take_append_drop (all.length - num) all] at listed
      have kept := (List.mem_append.mp listed).resolve_right absent
      exact absurd (before_stop kept) (Nat.not_lt.mpr behind)
    · exact tracked.behind ref member after live
  · change (∀ ref ∈ refsBelow rolled.cmdCache rolled.cmdCache.length,
      (rolled.entries ref).offset.isSome) → _
    intro live
    have none : all.reverse.take num = [] := by
      refine List.eq_nil_iff_forall_not_mem.mpr fun ref listed => ?_
      have member := mem_refsBelow.mp (List.mem_reverse.mp (List.mem_of_mem_take listed))
      have alive := live ref (by
        rw [sameCmds]
        exact mem_refsBelow.mpr ⟨Nat.lt_of_lt_of_le member.1 tracked.topLe, member.2⟩)
      exact (stays ref alive).1 listed
    have still : rolled = disk := by
      change rollRefs _ (all.reverse.take num) disk = some rolled at walked
      rw [none] at walked
      exact (Option.some.inj walked).symm
    rw [still] at live ⊢
    exact tracked.built live

/-- A fresh disk. -/
theorem tracked_initializeDevice (sectors : Nat) : Tracked (CrashDisk.initializeDevice sectors) where
  formed := nofun
  topLe := le_refl _
  size := rfl
  offsets := nofun
  behind := nofun
  built := fun _ => rfl

/-- The disks of runs with any calls that return. -/
inductive Reached (sectors : Nat) : CrashDisk → Prop
  /-- A fresh disk. -/
  | start : Reached sectors (CrashDisk.initializeDevice sectors)
  /-- One more call. -/
  | step {disk next : CrashDisk} {call : Call} (run : Reached sectors disk)
    (proper : call.Proper disk) (returns : disk.call call = some next) : Reached sectors next

/-- What is known of a reached disk. -/
theorem Reached.tracked (run : Reached sectors disk) : Tracked disk := by
  induction run with
  | start => exact tracked_initializeDevice sectors
  | @step disk next call _ _ returns tracked =>
    cases call with
    | writeSectors data lba secs =>
      change disk.writeSectors data lba secs = some next at returns
      unfold CrashDisk.writeSectors at returns
      split at returns
      · cases returns
      · cases returns
        have formed : Formed ⟨some lba, secs, []⟩ := rfl
        exact (tracked.withData _).addEntry formed
    | ioCtrlMark text =>
      cases returns
      have formed : Formed ⟨none, 0, text⟩ := rfl
      exact tracked.addEntry formed
    | backLog num => exact tracked.backLog returns
    | readSectors buf lba secs =>
      obtain ⟨_, -, rfl⟩ := Option.map_eq_some_iff.mp returns
      exact tracked

/-! ## Loading what has been saved -/

/-- A command whose archive is loaded as the same command. -/
def Stored (disk : CrashDisk) (cmd : Nat) (entry : CmdEntry) : Prop :=
  match entry.startLba with
  | some lba => 0 < blockCount lba entry.secs ∧ disk.IsLive (cmd, 0)
  | none => entry.op ≠ [] ∧ entry.op ≠ writeCmd

/-- The entries that are archived with a command, and what is loaded for them. -/
theorem loadLog_logOf (after : CrashDisk) (tracked : Tracked disk) {before : CrashDisk}
    (found : disk.cmdCache[cmd]? = some entry)
    (size : before.cacheSize = (refsBelow disk.cmdCache cmd).length) :
    (∃ log, disk.logOf cmd entry = some log ∧ before.loadLog log = some after) ↔
      Stored disk cmd entry ∧ addEntry before entry = after := by
  have formed := tracked.formed entry (List.mem_of_getElem? found)
  have blocks := cmdBlocks_of_entry found
  have inside := (List.getElem?_eq_some_iff.mp found).1
  unfold CrashDisk.logOf Stored addEntry
  unfold Formed at formed
  unfold entryBlocks at blocks
  obtain ⟨lba, secs, op⟩ := entry
  cases lba with
  | none =>
    dsimp only at formed ⊢
    by_cases empty : op = []
    · rw [if_pos empty]
      exact ⟨nofun, fun both => absurd empty both.1.1⟩
    · rw [if_neg empty]
      refine ⟨?_, ?_⟩
      · rintro ⟨log, saved, loaded⟩
        cases saved
        unfold CrashDisk.loadLog at loaded
        split at loaded
        · cases loaded
        · rename_i other
          exact ⟨⟨empty, other⟩, Option.some.inj loaded⟩
      · rintro ⟨⟨-, other⟩, rfl⟩
        refine ⟨_, rfl, ?_⟩
        unfold CrashDisk.loadLog
        rw [if_neg other]
  | some lba =>
    cases (formed : op = [])
    dsimp only [Option.bind_eq_bind, Option.bind_some] at blocks ⊢
    rw [if_pos rfl]
    by_cases noBlocks : blockCount lba secs = 0
    · rw [if_pos noBlocks]
      exact ⟨nofun, fun both => absurd noBlocks (Nat.ne_of_gt both.1.1)⟩
    · rw [if_neg noBlocks]
      have positive := Nat.pos_of_ne_zero noBlocks
      have listed : (cmd, 0) ∈ refsBelow disk.cmdCache disk.cmdCache.length :=
        mem_refsBelow.mpr ⟨inside, by rw [blocks]; exact positive⟩
      have first := tracked.offsets _ listed
      have loads : ∀ log, log = (⟨writeCmd, some ⟨lba, secs, (disk.entries (cmd, 0)).offset⟩⟩ : Log) →
          (before.loadLog log = some after ↔
            disk.IsLive (cmd, 0) ∧ before.addCommand lba secs = after) := by
        rintro log rfl
        unfold CrashDisk.loadLog
        rw [if_pos rfl]
        dsimp only [Option.bind_eq_bind, Option.bind_some]
        rw [size]
        refine ⟨fun loaded => ?_, fun both => ?_⟩
        · split at loaded
          · rename_i valid
            refine ⟨?_, Option.some.inj loaded⟩
            unfold CrashDisk.IsLive
            rw [valid]
            rfl
          · cases loaded
        · have valid : (disk.entries (cmd, 0)).offset = some (refsBelow disk.cmdCache cmd).length :=
            first both.1
          rw [if_pos valid, both.2]
      refine ⟨?_, fun both => ⟨_, rfl, (loads _ rfl).mpr ⟨both.1.2, both.2⟩⟩⟩
      rintro ⟨log, saved, loaded⟩
      have both := (loads log (Option.some.inj saved).symm).mp loaded
      exact ⟨⟨positive, both.1⟩, both.2⟩

/-- Commands that are loaded from what has been saved. -/
theorem loadLogs_saveLogs (tracked : Tracked disk) (loaded before : CrashDisk) (cmd : Nat)
    (rest : List CmdEntry) (same : disk.cmdCache.drop cmd = rest)
    (size : before.cacheSize = (refsBelow disk.cmdCache cmd).length) :
    (∃ logs, disk.saveLogs cmd rest = some logs ∧
        CrashDisk.loadLogs logs before = some loaded) ↔
      (∀ index entry, rest[index]? = some entry → Stored disk (cmd + index) entry) ∧
        rest.foldl addEntry before = loaded := by
  induction rest generalizing cmd before with
  | nil =>
    clear same size
    refine ⟨?_, fun both => ⟨[], rfl, congrArg some both.2⟩⟩
    rintro ⟨logs, saved, loaded⟩
    cases saved
    exact ⟨fun _ _ impossible => (nomatch impossible), Option.some.inj loaded⟩
  | cons entry rest ih =>
    have found : disk.cmdCache[cmd]? = some entry := by
      have head := congrArg (·[0]?) same
      simpa using head
    have further : disk.cmdCache.drop (cmd + 1) = rest := by
      rw [← List.tail_drop, same]
      rfl
    have formed := tracked.formed entry (List.mem_of_getElem? found)
    have nextSize : (addEntry before entry).cacheSize = (refsBelow disk.cmdCache (cmd + 1)).length := by
      obtain ⟨-, -, -, grown, -⟩ := addEntry_spec before formed _ rfl
      rw [grown, size, refsBelow, List.length_append]
      unfold cmdRefs
      rw [List.length_map, List.length_range, cmdBlocks_of_entry found]
    have head := fun after => loadLog_logOf after tracked found size
    have tail := ih _ _ further nextSize
    constructor
    · rintro ⟨logs, saved, loads⟩
      obtain ⟨log, first, others⟩ := Option.bind_eq_some_iff.mp saved
      obtain ⟨logs, second, same⟩ := Option.bind_eq_some_iff.mp others
      cases same
      obtain ⟨after, firstLoads, restLoads⟩ := Option.bind_eq_some_iff.mp loads
      obtain ⟨stored, rfl⟩ := (head after).mp ⟨log, first, firstLoads⟩
      obtain ⟨others, result⟩ := tail.mp ⟨logs, second, restLoads⟩
      refine ⟨fun index other listed => ?_, result⟩
      cases index with
      | zero =>
        cases listed
        exact stored
      | succ index =>
        have later := others index other listed
        rwa [Nat.add_right_comm, Nat.add_assoc] at later
    · rintro ⟨stored, result⟩
      obtain ⟨log, first, firstLoads⟩ := (head _).mpr ⟨stored 0 entry rfl, rfl⟩
      obtain ⟨logs, second, restLoads⟩ := tail.mpr ⟨fun index other listed => by
        have later := stored (index + 1) other listed
        rwa [← Nat.add_assoc, Nat.add_right_comm] at later, result⟩
      refine ⟨log :: logs, ?_, ?_⟩
      · unfold CrashDisk.saveLogs
        rw [first]
        dsimp only [Option.bind_eq_bind, Option.bind_some]
        rw [second]
        rfl
      · unfold CrashDisk.loadLogs
        rw [firstLoads]
        exact restLoads

/-- Loading what has been saved issues the commands again. -/
theorem loadFromFile_saveToFile (tracked : Tracked disk) :
    (∃ archive, disk.saveToFile = some archive ∧
        CrashDisk.loadFromFile archive disk.dataFile = some loaded) ↔
      (∀ cmd entry, disk.cmdCache[cmd]? = some entry → Stored disk cmd entry) ∧
        { rebuild disk.diskSize disk.cmdCache with dataFile := disk.dataFile } = loaded := by
  have logs := loadLogs_saveLogs tracked loaded
    { CrashDisk.initializeDevice disk.diskSize with dataFile := disk.dataFile } 0
    disk.cmdCache rfl rfl
  rw [foldl_addEntry_with] at logs
  simp only [Nat.zero_add] at logs
  refine Iff.trans ⟨?_, ?_⟩ logs
  · rintro ⟨archive, saved, loads⟩
    obtain ⟨logs, first, same⟩ := Option.bind_eq_some_iff.mp saved
    cases same
    exact ⟨logs, first, loads⟩
  · rintro ⟨logs, saved, loads⟩
    refine ⟨⟨disk.diskSize, logs⟩, ?_, loads⟩
    unfold CrashDisk.saveToFile
    rw [saved]
    rfl

/-! ## Numbers of logs -/

open scoped BigOperators

/-- The blocks of a command that `GetIoLogs` reports. -/
def reported (disk : CrashDisk) (cmd : Nat) : Nat :=
  disk.liveBlocks cmd (cmdBlocks disk.cmdCache cmd)

/-- Not more than all blocks of a command are reported. -/
theorem reported_le (disk : CrashDisk) (cmd : Nat) :
    reported disk cmd ≤ cmdBlocks disk.cmdCache cmd := by
  unfold reported CrashDisk.liveBlocks
  exact ((List.takeWhile_sublist _).length_le).trans (by rw [List.length_range])

/-- If all blocks of a command are reported, then all of them are live. -/
theorem live_of_reported (all : reported disk cmd = cmdBlocks disk.cmdCache cmd)
    (inside : index < cmdBlocks disk.cmdCache cmd) : disk.IsLive (cmd, index) := by
  unfold reported CrashDisk.liveBlocks at all
  have whole := (List.takeWhile_sublist (fun index => (disk.entries (cmd, index)).offset.isSome)
    (l := List.range (cmdBlocks disk.cmdCache cmd))).eq_of_length (by rw [all, List.length_range])
  exact List.takeWhile_eq_self_iff.mp whole index (List.mem_range.mpr inside)

/-- If all blocks of a command are live, then all of them are reported. -/
theorem reported_of_live (live : ∀ index < cmdBlocks disk.cmdCache cmd, disk.IsLive (cmd, index)) :
    reported disk cmd = cmdBlocks disk.cmdCache cmd := by
  unfold reported CrashDisk.liveBlocks
  rw [List.takeWhile_eq_self_iff.mpr fun index member => live index (List.mem_range.mp member),
    List.length_range]

/-- The numbers of entries and of blocks that `GetIoLogs` reports. -/
theorem ioLogsFrom_numbers (tracked : Tracked disk)
    (marks : ∀ entry ∈ disk.cmdCache, entry.startLba = none → entry.op ≠ [])
    (inside : base ≤ disk.cmdCache.length) (ioNr : Nat) (room : base ≤ ioNr) (first : Nat) :
    ∃ logs, disk.ioLogsFrom base ioNr first = some logs ∧ logs.length ≤ base ∧
      (logs.map IoEntry.blkNr).sum = ∑ cmd ∈ Finset.range base, reported disk cmd ∧
      ((∀ cmd < base, ∀ entry lba, disk.cmdCache[cmd]? = some entry → entry.startLba = some lba →
        0 < reported disk cmd) → logs.length = base) := by
  induction base generalizing ioNr first with
  | zero =>
    refine ⟨[], ?_, le_refl _, rfl, fun _ => rfl⟩
    cases ioNr with
    | zero => rfl
    | succ ioNr => rfl
  | succ cmd ih =>
    cases ioNr with
    | zero => exact absurd room (Nat.not_succ_le_zero _)
    | succ ioNr =>
      obtain ⟨entry, found⟩ : ∃ entry, disk.cmdCache[cmd]? = some entry :=
        ⟨disk.cmdCache[cmd], List.getElem?_eq_getElem inside⟩
      have member := List.mem_of_getElem? found
      have formed := tracked.formed entry member
      have marked := marks entry member
      have deeper := ih (Nat.le_of_succ_le inside)
      have blocks : reported disk cmd = disk.liveBlocks cmd (entryBlocks entry) := by
        unfold reported
        rw [cmdBlocks_of_entry found]
      unfold CrashDisk.ioLogsFrom
      rw [found, Finset.sum_range_succ]
      dsimp only [Option.bind_eq_bind, Option.bind_some]
      unfold Formed at formed
      unfold entryBlocks at blocks
      obtain ⟨lba, secs, op⟩ := entry
      cases lba with
      | none =>
        have notEmpty := marked rfl
        have noBlocks : reported disk cmd = 0 := blocks.trans rfl
        obtain ⟨logs, rest, few, total, exact⟩ := deeper _ (Nat.le_of_succ_le_succ room) first
        rw [if_neg notEmpty, rest]
        refine ⟨_, rfl, Nat.succ_le_succ few, ?_, fun all => ?_⟩
        · rw [List.map_cons, List.sum_cons, total, noBlocks, Nat.zero_add, Nat.add_zero]
        · rw [List.length_cons, exact fun cmd before => all cmd (Nat.lt_succ_of_lt before)]
      | some lba =>
        cases (formed : op = [])
        dsimp only [Option.bind_some] at blocks ⊢
        rw [if_pos rfl, ← blocks]
        by_cases noBlocks : reported disk cmd = 0
        · obtain ⟨logs, rest, few, total, -⟩ := deeper _ (Nat.le_of_succ_le room) first
          rw [if_pos noBlocks, rest, noBlocks]
          refine ⟨logs, rfl, Nat.le_succ_of_le few, total, fun all => ?_⟩
          exact absurd noBlocks (Nat.ne_of_gt (all cmd (Nat.lt_succ_self _) _ lba found rfl))
        · obtain ⟨logs, rest, few, total, exact⟩ :=
            deeper _ (Nat.le_of_succ_le_succ room) (first + reported disk cmd)
          rw [if_neg noBlocks, rest]
          refine ⟨_, rfl, Nat.succ_le_succ few, ?_, fun all => ?_⟩
          · rw [List.map_cons, List.sum_cons, total, Nat.add_comm]
          · rw [List.length_cons, exact fun cmd before => all cmd (Nat.lt_succ_of_lt before)]

/-! ## The archive -/

/-- The disk behind commands that have never been rolled back. -/
theorem rebuild_spec (sectors : Nat) (cmds : List CmdEntry) (formed : ∀ entry ∈ cmds, Formed entry) :
    ∀ built, built = rebuild sectors cmds →
      Tracked built ∧ built.cmdCache = cmds ∧ built.cacheTop = cmds.length ∧
        ∀ ref ∈ refsBelow cmds cmds.length, built.IsLive ref := by
  induction cmds using List.reverseRecOn with
  | nil =>
    rintro built rfl
    exact ⟨tracked_initializeDevice sectors, rfl, rfl, nofun⟩
  | append_singleton cmds entry ih =>
    rintro built rfl
    have last : Formed entry := formed entry (List.mem_append_right _ (List.mem_singleton_self _))
    obtain ⟨tracked, sameCmds, -, live⟩ :=
      ih (fun other member => formed other (List.mem_append_left _ member)) _ rfl
    have whole : rebuild sectors (cmds ++ [entry]) = addEntry (rebuild sectors cmds) entry :=
      List.foldl_append
    obtain ⟨appended, new, others, -, top, -⟩ := addEntry_spec (rebuild sectors cmds) last _ rfl
    rw [whole]
    refine ⟨tracked.addEntry last, by rw [appended, sameCmds], ?_, ?_⟩
    · rw [top, sameCmds, List.length_append]
      rfl
    · rw [refsBelow_concat]
      intro ref member
      unfold CrashDisk.IsLive
      rw [sameCmds] at new others
      rcases List.mem_append.mp member with old | added
      · rw [others ref (Nat.ne_of_lt (mem_refsBelow.mp old).1)]
        exact live ref old
      · obtain ⟨index, inside, rfl⟩ := List.mem_map.mp added
        rw [new index (List.mem_range.mp inside)]
        rfl

/-- Entries of commands are live when the blocks that are reported are all blocks. -/
theorem live_of_totals {top : Nat}
    (total : ∑ cmd ∈ Finset.range disk.cmdCache.length, cmdBlocks disk.cmdCache cmd =
      ∑ cmd ∈ Finset.range top, reported disk cmd)
    (whole : top = disk.cmdCache.length) :
    ∀ ref ∈ refsBelow disk.cmdCache disk.cmdCache.length, disk.IsLive ref := by
  intro ref member
  obtain ⟨before, inside⟩ := mem_refsBelow.mp member
  rw [whole] at total
  have each := (Finset.sum_eq_sum_iff_of_le fun cmd _ => reported_le disk cmd).mp total.symm
  exact live_of_reported (each ref.1 (Finset.mem_range.mpr before)) inside

/-- The archive of a reached disk is loaded as a disk that shows the same, now and behind every
later `BackLog`, if and only if no block has been rolled back, no mark is empty or has the name of a
write, every write has a block, and `m_cache_top` points to the last command. -/
theorem archive_restores_iff (run : Reached sectors disk) :
    (∃ archive loaded, disk.saveToFile = some archive ∧
        CrashDisk.loadFromFile archive disk.dataFile = some loaded ∧ Agree disk loaded) ↔
      Restorable disk := by
  have tracked := run.tracked
  constructor
  · rintro ⟨archive, loaded, saved, loads, agree⟩
    obtain ⟨stored, rfl⟩ := (loadFromFile_saveToFile tracked).mp ⟨archive, saved, loads⟩
    obtain ⟨builtTracked, sameCmds, builtTop, builtLive⟩ :=
      rebuild_spec disk.diskSize disk.cmdCache tracked.formed _ rfl
    let built : CrashDisk := { rebuild disk.diskSize disk.cmdCache with dataFile := disk.dataFile }
    have marks : ∀ entry ∈ disk.cmdCache, entry.startLba = none →
        entry.op ≠ [] ∧ entry.op ≠ writeCmd := by
      intro entry member mark
      obtain ⟨cmd, found⟩ := List.mem_iff_getElem?.mp member
      have kept := stored cmd entry found
      unfold Stored at kept
      rw [mark] at kept
      exact kept
    have blocks : ∀ (cmd : Nat) (entry : CmdEntry) (lba : Nat), disk.cmdCache[cmd]? = some entry → entry.startLba = some lba →
        0 < blockCount lba entry.secs := by
      intro cmd entry lba found write
      have kept := stored cmd entry found
      unfold Stored at kept
      rw [write] at kept
      exact kept.1
    have builtReported : ∀ cmd < disk.cmdCache.length,
        reported built cmd = cmdBlocks disk.cmdCache cmd := by
      intro cmd inside
      have all : reported built cmd = cmdBlocks built.cmdCache cmd := by
        refine reported_of_live fun index before => ?_
        change index < cmdBlocks (rebuild disk.diskSize disk.cmdCache).cmdCache cmd at before
        rw [sameCmds] at before
        exact builtLive (cmd, index) (mem_refsBelow.mpr ⟨inside, before⟩)
      rw [all]
      exact congrArg (cmdBlocks · cmd) sameCmds
    obtain ⟨logs, shown, few, total, -⟩ :=
      ioLogsFrom_numbers tracked (fun entry member mark => (marks entry member mark).1)
        tracked.topLe _ tracked.topLe 0
    have builtAll : Tracked built := builtTracked.withData disk.dataFile
    obtain ⟨builtLogs, builtShown, -, builtTotal, count⟩ :=
      ioLogsFrom_numbers builtAll (fun entry member mark => (marks entry (sameCmds ▸ member) mark).1)
        (Nat.le_of_eq (congrArg List.length sameCmds.symm)) disk.cmdCache.length (le_refl _) 0
    have same := agree.logs [] disk.cmdCache.length
    change disk.ioLogsFrom disk.cacheTop disk.cmdCache.length 0 =
      built.ioLogsFrom (rebuild disk.diskSize disk.cmdCache).cacheTop disk.cmdCache.length 0 at same
    rw [shown, builtTop, builtShown] at same
    cases same
    have counted : logs.length = disk.cmdCache.length := by
      refine count fun cmd inside entry lba found write => ?_
      change (rebuild disk.diskSize disk.cmdCache).cmdCache[cmd]? = some entry at found
      rw [sameCmds] at found
      rw [builtReported cmd inside, cmdBlocks_of_entry found]
      unfold entryBlocks
      rw [write]
      exact blocks cmd entry lba found write
    have top : disk.cacheTop = disk.cmdCache.length :=
      Nat.le_antisymm tracked.topLe (counted ▸ few)
    refine ⟨live_of_totals ?_ top, marks, fun entry member lba write => ?_, top⟩
    · rw [← total, builtTotal]
      exact Finset.sum_congr rfl fun cmd member => (builtReported cmd (Finset.mem_range.mp member)).symm
    · obtain ⟨cmd, found⟩ := List.mem_iff_getElem?.mp member
      exact blocks cmd entry lba found write
  · intro restorable
    have built := tracked.built restorable.live
    have restored : { rebuild disk.diskSize disk.cmdCache with dataFile := disk.dataFile } = disk := by
      rw [← built, ← restorable.top]
    have stored : ∀ cmd entry, disk.cmdCache[cmd]? = some entry → Stored disk cmd entry := by
      intro cmd entry found
      have member := List.mem_of_getElem? found
      have marks := restorable.marks entry member
      have writes := restorable.writes entry member
      have blocks := cmdBlocks_of_entry found
      unfold entryBlocks at blocks
      unfold Stored
      cases write : entry.startLba with
      | none => exact marks write
      | some lba =>
        rw [write] at blocks
        have positive := writes lba write
        refine ⟨positive, restorable.live _ (mem_refsBelow.mpr ⟨?_, ?_⟩)⟩
        · exact (List.getElem?_eq_some_iff.mp found).1
        · rw [blocks]
          exact positive
    obtain ⟨archive, saved, loads⟩ := (loadFromFile_saveToFile tracked).mpr ⟨stored, restored⟩
    exact ⟨archive, disk, saved, loads, fun _ => rfl, fun _ _ _ _ => rfl, fun _ _ => rfl⟩

/-- A reached disk with one block and a mark. -/
theorem archive_restores_iff_sample : ∃ disk, Reached 64 disk ∧
    ∃ archive loaded, disk.saveToFile = some archive ∧
      CrashDisk.loadFromFile archive disk.dataFile = some loaded ∧ Agree disk loaded := by
  have complete : ∀ block ∈ [sampleBlock 1], block.length = blockLen := by
    intro block member
    rw [List.mem_singleton.mp member]
    exact List.length_replicate
  have first : Reached 64 _ :=
    @Reached.step 64 _ _ (.writeSectors [sampleBlock 1] 0 8) Reached.start
      ⟨rfl, rfl, by decide, rfl, complete⟩ rfl
  have second : Reached 64 _ := @Reached.step 64 _ _ (.ioCtrlMark "sync".toList) first trivial rfl
  refine ⟨_, second, (archive_restores_iff second).mpr ⟨?_, ?_, ?_, rfl⟩⟩
  · intro ref member
    have only : ref ∈ [((0, 0) : EntryRef)] := member
    rw [List.mem_singleton.mp only]
    rfl
  · intro entry member mark
    have two : entry ∈ [(⟨some 0, 8, []⟩ : CmdEntry), ⟨none, 0, "sync".toList⟩] := member
    rcases List.mem_pair.mp two with rfl | rfl
    · cases mark
    · decide
  · intro entry member lba write
    have two : entry ∈ [(⟨some 0, 8, []⟩ : CmdEntry), ⟨none, 0, "sync".toList⟩] := member
    rcases List.mem_pair.mp two with rfl | rfl
    · cases write
      decide
    · cases write

/-- The archive of a disk whose only command has been rolled back is not loaded. -/
theorem rolled_archive_not_loaded : ∃ disk, Reached 64 disk ∧
    ¬ ∃ archive loaded, disk.saveToFile = some archive ∧
      CrashDisk.loadFromFile archive disk.dataFile = some loaded := by
  have complete : ∀ block ∈ [sampleBlock 1, sampleBlock 2], block.length = blockLen := by
    intro block member
    rcases List.mem_pair.mp member with rfl | rfl
    · exact List.length_replicate
    · exact List.length_replicate
  have first : Reached 64 _ :=
    @Reached.step 64 _ _ (.writeSectors [sampleBlock 1, sampleBlock 2] 0 16) Reached.start
      ⟨rfl, rfl, by decide, rfl, complete⟩ rfl
  have second : Reached 64 _ := @Reached.step 64 _ _ (.backLog 2) first trivial rfl
  refine ⟨_, second, ?_⟩
  rintro ⟨archive, loaded, saved, loads⟩
  have stored : (⟨64, [⟨writeCmd, some ⟨0, 16, none⟩⟩]⟩ : Archive) = archive := Option.some.inj saved
  rw [← stored] at loads
  cases loads

end FsChecking.Device.Crash
