import FsChecking.Lib.Program
import FsChecking.Lib.Playback
import Mathlib.Algebra.GroupWithZero.Nat

/-!
# The journal device

`CJournalDevice`: the content of a device in memory, a snapshot of it, and a log of the writes since
the snapshot, from which a part of the writes can be played back.
-/

namespace FsChecking.Device

open Lib

/-- A value stored in a `size_t`. -/
abbrev qword (value : Nat) : Nat := value % 2 ^ 64
/-- The largest `UINT`. -/
abbrev uintMax : Nat := 2 ^ 32 - 1

/-- How a call of a device ends early. -/
inductive Fault where
  /-- It throws an exception. -/
  | thrown
  /-- It reads or writes outside an array. -/
  | undefined
  deriving DecidableEq

namespace Journal

/-- `LOG_STRUCTURE`. -/
structure LogStructure where
  /-- `lba`. -/
  lba : Nat
  /-- `secs`. -/
  secs : Nat
  /-- `data_ptr`, from the beginning of `m_log_buf`. -/
  dataPtr : Nat

/-- `CJournalDevice`. -/
structure JournalDevice where
  /-- `m_buf`. -/
  buf : List UInt8
  /-- `m_snapshot`. -/
  snapshot : List UInt8
  /-- `m_sector_size`. -/
  sectorSize : Nat
  /-- `m_journal_enable`. -/
  journalEnable : Bool
  /-- `m_log_capacity`. -/
  logCapacity : Nat
  /-- `m_journal_id`. -/
  journalId : Nat
  /-- `m_logs`. -/
  logs : Nat → LogStructure
  /-- `m_log_buf`. -/
  logBuf : List UInt8
  /-- `m_log_data_ptr`, from the beginning of `m_log_buf`. -/
  logDataPtr : Nat

/-- A program of the device. -/
abbrev Program (α : Type) : Type := EStateM Fault JournalDevice α

/-- `m_capacity`: the length of `m_buf`. -/
def JournalDevice.capacity (dev : JournalDevice) : Nat := dev.buf.length

/-- `CreateFileImage`: the image as the content, and an empty log in memory that is not cleared. -/
def createFileImage (image : List UInt8) (sectorSize logCapacity : Nat) (logBuf : List UInt8) :
    JournalDevice where
  buf := image
  snapshot := image
  sectorSize := sectorSize
  journalEnable := true
  logCapacity := logCapacity
  journalId := 0
  logs := fun _ => ⟨0, 0, 0⟩
  logBuf := logBuf
  logDataPtr := 0

/-- `InternalWrite`. -/
def internalWrite (data : List UInt8) (lba secs : Nat) : Program Unit := do
  let dev ← get
  let offset := qword (lba * dev.sectorSize)
  let len := qword (secs * dev.sectorSize)
  throwIf (dev.capacity < qword (offset + len)) .thrown
  throwIf (dev.capacity < offset + len ∨ data.length < len) .undefined
  set { dev with buf := overwrite dev.buf offset (data.take len) }

/-- `WriteSectors`. -/
def writeSectors (data : List UInt8) (lba secs : Nat) : Program Unit := do
  internalWrite data lba secs
  let dev ← get
  let len := qword (secs * dev.sectorSize)
  if dev.journalEnable then
    throwIf (dev.logCapacity ≤ dev.journalId) .thrown
    throwIf (dev.logBuf.length < qword (dev.logDataPtr + len)) .thrown
    throwIf (dev.logBuf.length < dev.logDataPtr + len) .undefined
    throwIf (uintMax < lba) .thrown
    let entry := { dev.logs dev.journalId with lba := lba }
    set { dev with logs := Function.update dev.logs dev.journalId entry }
    throwIf (uintMax < secs) .thrown
    let dev := { dev with
      logs := Function.update dev.logs dev.journalId
        { entry with secs := secs, dataPtr := dev.logDataPtr }
      logBuf := overwrite dev.logBuf dev.logDataPtr (data.take len)
      logDataPtr := dev.logDataPtr + len }
    set dev
    throwIf (uintMax < len) .thrown
    set { dev with journalId := dev.journalId + 1 }

/-- One round of `BackLog`. -/
def playbackLog (index : Nat) : Program Unit := do
  let dev ← get
  let log := dev.logs index
  internalWrite (dev.logBuf.drop log.dataPtr) log.lba log.secs

/-- `BackLog`. -/
def backLog (num : Nat) : Program Unit := do
  let dev ← get
  throwIf (dev.journalId < num) .thrown
  set { dev with buf := dev.snapshot }
  (List.range (dev.journalId - num)).forM playbackLog

/-- `ResetLog`. -/
def resetLog : Program Unit :=
  modify fun dev => { dev with snapshot := dev.buf, journalId := 0, logDataPtr := 0 }

/-- `ReadSectors`. -/
def readSectors (lba secs : Nat) : Program (List UInt8) := do
  let dev ← get
  let offset := qword (lba * dev.sectorSize)
  let len := qword (secs * dev.sectorSize)
  throwIf (dev.capacity < offset + len) .undefined
  return slice dev.buf offset len

/-- The calls of the device. -/
inductive Call where
  /-- `WriteSectors`. -/
  | writeSectors (data : List UInt8) (lba secs : Nat)
  /-- `BackLog`. -/
  | backLog (num : Nat)
  /-- `ResetLog`. -/
  | resetLog
  /-- `ReadSectors`. -/
  | readSectors (lba secs : Nat)
  deriving DecidableEq

/-- Carry out a call; only `ReadSectors` returns data. -/
def Call.run : Call → Program (List UInt8)
  | .writeSectors data lba secs => do
    Journal.writeSectors data lba secs
    return []
  | .backLog num => do
    Journal.backLog num
    return []
  | .resetLog => do
    Journal.resetLog
    return []
  | .readSectors lba secs => Journal.readSectors lba secs

end Journal

end FsChecking.Device
