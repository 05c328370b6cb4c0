import FsChecking.Config
import Mathlib.Logic.Function.Basic

/-!
# The crash disk

`CCrashDisk`: a disk that keeps every version of every block. The versions of a block form a ring
that is entered at the newest one. The versions also belong to the commands that have written them,
and a rollback takes them out of the rings again, beginning at the newest command.

A call that reads or writes outside its memory has no result. The sector size is the default one, so
that a block is 4 KB long, and the data file is a list of blocks.
-/

namespace FsChecking.Device.Crash

/-- `SECTOR_PER_BLOCK`. -/
abbrev sectorPerBlock : Nat := 8
/-- `SECTOR_SIZE`. -/
abbrev sectorSize : Nat := 512
/-- `m_block_size`. -/
abbrev blockLen : Nat := sectorPerBlock * sectorSize

/-- The bytes of a block. -/
abbrev Block : Type := List UInt8
/-- A `std::wstring`. -/
abbrev Text : Type := List Char

/-- A pointer to an `LBA_ENTRY`: the command that owns the entry, and its index there. -/
abbrev EntryRef : Type := Nat × Nat

/-- `LBA_ENTRY`. -/
structure LbaEntry where
  /-- `offset`, when it is valid. -/
  offset : Option Nat
  /-- `cache_next`. -/
  next : EntryRef
  /-- `cache_prev`. -/
  prev : EntryRef

/-- `CMD_ENTRY`. -/
structure CmdEntry where
  /-- `start_lba`, when it is valid. -/
  startLba : Option Nat
  /-- `secs`. -/
  secs : Nat
  /-- `op`. -/
  op : Text
  deriving DecidableEq

/-- `IO_ENTRY`. -/
structure IoEntry where
  /-- `op`. -/
  op : Text
  /-- `lba`. -/
  lba : Nat
  /-- `secs`. -/
  secs : Nat
  /-- `block_index`. -/
  blockIndex : Nat
  /-- `blk_nr`. -/
  blkNr : Nat
  deriving DecidableEq

/-- `CCrashDisk`. -/
structure CrashDisk where
  /-- `m_disk_size`, in sectors. -/
  diskSize : Nat
  /-- `m_lba_mapping`. -/
  lbaMapping : Nat → Option EntryRef
  /-- The entries in the `blocks` of all commands. -/
  entries : EntryRef → LbaEntry
  /-- `m_cmd_cache`. -/
  cmdCache : List CmdEntry
  /-- `m_cache_size`. -/
  cacheSize : Nat
  /-- `m_cache_top`, as the number of commands up to the one that it points to. -/
  cacheTop : Nat
  /-- The data file. -/
  dataFile : List Block

/-- The first block of `lba_to_block`. -/
def startBlk (lba : Nat) : Nat := lba / sectorPerBlock

/-- The block behind the last one of `lba_to_block`. -/
def endBlk (lba secs : Nat) : Nat := roundUpDiv (dword (lba + secs)) sectorPerBlock

/-- The number of blocks that `lba_to_block` returns. -/
def blockCount (lba secs : Nat) : Nat := endBlk lba secs - startBlk lba

/-- Change the successor of an entry. -/
def setNext (entries : EntryRef → LbaEntry) (ref next : EntryRef) : EntryRef → LbaEntry :=
  Function.update entries ref { entries ref with next := next }

/-- Change the predecessor of an entry. -/
def setPrev (entries : EntryRef → LbaEntry) (ref prev : EntryRef) : EntryRef → LbaEntry :=
  Function.update entries ref { entries ref with prev := prev }

/-- Change the offset of an entry. -/
def setOffset (entries : EntryRef → LbaEntry) (ref : EntryRef) (offset : Option Nat) :
    EntryRef → LbaEntry :=
  Function.update entries ref { entries ref with offset := offset }

namespace CrashDisk

/-- `InitializeDevice`, on an object without a command. -/
def initializeDevice (sectors : Nat) : CrashDisk where
  diskSize := sectors
  lbaMapping := fun _ => none
  entries := fun ref => ⟨none, ref, ref⟩
  cmdCache := []
  cacheSize := 0
  cacheTop := 0
  dataFile := []

variable (disk : CrashDisk)

/-- `cache_enque`. -/
def cacheEnque (ref : EntryRef) (blk : Nat) : CrashDisk :=
  { disk with
    entries :=
      match disk.lbaMapping blk with
      | none => setPrev (setNext disk.entries ref ref) ref ref
      | some cur =>
        let next := (disk.entries cur).next
        setPrev (setNext (setNext (setPrev disk.entries ref cur) ref next) cur ref) next ref
    lbaMapping := Function.update disk.lbaMapping blk (some ref) }

/-- `cache_deque`. -/
def cacheDeque (blk : Nat) : Option CrashDisk :=
  match disk.lbaMapping blk with
  | none => none
  | some cur =>
    let entry := disk.entries cur
    if entry.next = cur ∧ entry.prev = cur then
      some { disk with lbaMapping := Function.update disk.lbaMapping blk none }
    else
      some
        { disk with
          lbaMapping := Function.update disk.lbaMapping blk (some entry.prev)
          entries := setPrev (setNext disk.entries entry.prev entry.next) entry.next entry.prev }

/-- One round of `add_command`. -/
def addBlock (cmd start : Nat) (disk : CrashDisk) (index : Nat) : CrashDisk :=
  let disk := { disk with entries := setOffset disk.entries (cmd, index) (some disk.cacheSize) }
  { disk.cacheEnque (cmd, index) (start + index) with cacheSize := disk.cacheSize + 1 }

/-- `add_command`. -/
def addCommand (lba secs : Nat) : CrashDisk :=
  let cmd := disk.cmdCache.length
  let disk := { disk with cmdCache := disk.cmdCache ++ [⟨some lba, secs, []⟩] }
  let disk := (List.range (blockCount lba secs)).foldl (addBlock cmd (startBlk lba)) disk
  { disk with cacheTop := disk.cmdCache.length }

/-- `WriteSectors`, with the blocks that are written. -/
def writeSectors (data : List Block) (lba secs : Nat) : Option CrashDisk :=
  if disk.diskSize / sectorPerBlock < endBlk lba secs then none
  else some ({ disk with dataFile := disk.dataFile ++ data }.addCommand lba secs)

/-- A mark behind the last command. -/
def addMark (text : Text) : CrashDisk :=
  { disk with
    cmdCache := disk.cmdCache ++ [⟨none, 0, text⟩], cacheTop := disk.cmdCache.length + 1 }

/-- `ReadSingleBlock`, with what the buffer contains before. The code keeps the file position, the
offset times the size of a block, in a `LONG`: this is what it does in data files below 2 GB. -/
def readSingleBlock (buf : Block) (blk : Nat) : Option Block :=
  match disk.lbaMapping blk with
  | none => some (List.replicate sectorSize 0 ++ buf.drop sectorSize)
  | some ref => (disk.entries ref).offset.bind fun offset => disk.dataFile[offset]?

/-- Read blocks one after another. -/
def readBlocks : List Block → Nat → Option (List Block)
  | [], _ => some []
  | buf :: rest, blk => do
    let block ← disk.readSingleBlock buf blk
    let blocks ← readBlocks rest (blk + 1)
    return block :: blocks

/-- `ReadSectors`, with what the buffer contains before. -/
def readSectors (buf : List Block) (lba secs : Nat) : Option (List Block) :=
  if disk.diskSize / sectorPerBlock < endBlk lba secs ∨ buf.length < blockCount lba secs then none
  else disk.readBlocks (buf.take (blockCount lba secs)) (startBlk lba)

/-- The number of blocks at the beginning of a command that have not been rolled back. -/
def liveBlocks (cmd count : Nat) : Nat :=
  ((List.range count).takeWhile fun index => (disk.entries (cmd, index)).offset.isSome).length

/-- `GetIoLogs`, from a command on, for a number of entries. -/
def ioLogsFrom : Nat → Nat → Nat → Option (List IoEntry)
  | 0, _, _ => some []
  | _ + 1, 0, _ => some []
  | cmd + 1, ioNr + 1, index => do
    let entry ← disk.cmdCache[cmd]?
    if entry.op = [] then
      let lba ← entry.startLba
      let live := disk.liveBlocks cmd (blockCount lba entry.secs)
      if live = 0 then ioLogsFrom cmd (ioNr + 1) index
      else
        let rest ← ioLogsFrom cmd ioNr (index + live)
        return ⟨"write".toList, lba, entry.secs, index, live⟩ :: rest
    else
      let rest ← ioLogsFrom cmd ioNr index
      return ⟨entry.op, 0, 0, index, 0⟩ :: rest

/-- `GetIoLogs`. -/
def getIoLogs (ioNr : Nat) : Option (List IoEntry) := disk.ioLogsFrom disk.cacheTop ioNr 0

/-- The inner loop of `BackLog`: the number of blocks that are still to be rolled back, and the
disk. -/
def backBlocks (cmd start : Nat) : Nat → Nat → CrashDisk → Option (Nat × CrashDisk)
  | 0, num, disk => some (num, disk)
  | _ + 1, 0, disk => some (0, disk)
  | blkNr + 1, num + 1, disk => do
    let disk ← disk.cacheDeque (start + blkNr)
    backBlocks cmd start blkNr num
      { disk with entries := setOffset disk.entries (cmd, blkNr) none }

/-- `BackLog`, from a command on. -/
def backLogFrom : Nat → Nat → CrashDisk → Option CrashDisk
  | 0, _, disk => some { disk with cacheTop := 0 }
  | cmd + 1, num, disk => do
    let entry ← disk.cmdCache[cmd]?
    match entry.startLba with
    | none => backLogFrom cmd num disk
    | some lba =>
      let (num, disk) ← backBlocks cmd (startBlk lba) (blockCount lba entry.secs) num disk
      if num = 0 then some { disk with cacheTop := cmd + 1 } else backLogFrom cmd num disk

/-- `BackLog`. -/
def backLog (num : Nat) : Option CrashDisk := backLogFrom disk.cacheTop num disk

end CrashDisk

end FsChecking.Device.Crash
