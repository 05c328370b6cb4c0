import FsChecking.Config
import FsChecking.Lib.LittleEndian

/-!
# Stamps in test files

The testers fill files with slots of 16 bytes, each stamped with the number of the slot in the file.
`FillFile`, `FillBuffer` and `WriteTest` prepare the bytes in a buffer of slots and hand a part of
it to the file; `FileVerify` reads a file back. The file keeps what is written to it.
-/

namespace FsChecking.FsTester

open Lib

/-! ## Slots -/

/-- `FILE_FILL_DATA`. -/
structure FileFillData where
  /-- `offset`. -/
  offset : Nat
  /-- `fid`. -/
  fid : Nat
  /-- `rev`. -/
  rev : Nat
  /-- `dummy`. -/
  dummy : Nat
  /-- `checksum`. -/
  checksum : Nat

/-- `sizeof(FILE_FILL_DATA)`. -/
abbrev slotSize : Nat := 16
/-- `FILE_BUF_SIZE`. -/
def fileBufSize : Nat := 256 * 1024
/-- `data_nr`: the slots of a buffer. -/
def dataNr : Nat := fileBufSize / slotSize

/-- A byte of a slot. -/
def FileFillData.byte (slot : FileFillData) (index : Nat) : Nat :=
  if index < 8 then byteOf slot.offset index
  else if index < 12 then byteOf slot.fid (index - 8)
  else if index < 14 then byteOf slot.rev (index - 12)
  else if index = 14 then slot.dummy
  else slot.checksum

/-- The slot in the first bytes of a memory. -/
def slotAt (byte : Nat → Nat) : FileFillData where
  offset := readBytes 8 byte
  fid := readBytes 4 fun index => byte (8 + index)
  rev := readBytes 2 fun index => byte (12 + index)
  dummy := byte 14
  checksum := byte 15

/-- The sum of the first 15 bytes, in a `BYTE`. -/
def checksumOf (byte : Nat → Nat) : Nat := ((List.range 15).map byte).sum % 256

/-- What `FillFile` and `FillBuffer` put into a slot. -/
def stamp (fid revision number : Nat) : FileFillData :=
  let slot : FileFillData :=
    { offset := number % 2 ^ 64, fid := fid, rev := revision % 2 ^ 16, dummy := 0x55, checksum := 0 }
  { slot with checksum := checksumOf slot.byte }

/-! ## The writers -/

/-- A call of `DokanWriteFile`: a number of bytes from an address of a buffer of slots to a position
of the file. -/
structure WriteCall where
  /-- The buffer. -/
  buffer : Nat → FileFillData
  /-- The number of slots of the buffer. -/
  bufferNr : Nat
  /-- The address of the first byte in the buffer. -/
  address : Nat
  /-- The number of bytes. -/
  length : Nat
  /-- The position in the file. -/
  position : Nat

/-- The loop of `FillFile`, for a number of rounds. -/
def fillFileLoop (fid revision : Nat) : Nat → Nat → Nat → Nat → Nat → List WriteCall
  | 0, _, _, _, _ => []
  | rounds + 1, start, index, offset, remain =>
    if remain = 0 then []
    else
      let toWrite := min remain fileBufSize
      { buffer := fun ii => stamp fid revision (ii + index * dataNr)
        bufferNr := dataNr
        -- `buf + offset` counts slots, not bytes
        address := offset * slotSize
        length := toWrite
        position := start } ::
      fillFileLoop fid revision rounds (start + toWrite) (dword (index + 1)) 0 (remain - toWrite)

/-- `FillFile`: its calls of `DokanWriteFile`. Every round writes at least one byte. -/
def fillFile (fid revision start len : Nat) : List WriteCall :=
  fillFileLoop fid revision len start 0 (start - start / fileBufSize * fileBufSize) len

/-- `FillBuffer`: the buffer, over what it held. -/
def fillBuffer (buffer : Nat → FileFillData) (fid revision offset len : Nat) (ii : Nat) :
    FileFillData :=
  if ii < len / slotSize then stamp fid revision (offset / slotSize + ii) else buffer ii

/-- `round_up` to whole slots. -/
def roundUp (value : Nat) : Nat := (value + slotSize - 1) / slotSize * slotSize

/-- `PrepareTest`: the size of the buffer of a trace whose longest transfer has a given length. -/
def maxBufSize (longest : Nat) : Nat := roundUp longest + slotSize

/-- `WriteTest` with a buffer of a given size: its call of `DokanWriteFile`. -/
def writeTest (buffer : Nat → FileFillData) (bufSize fid revision start len : Nat) : WriteCall :=
  let alignedStart := start / slotSize * slotSize
  let alignedLen := roundUp (start + len) - alignedStart
  let bufferNr := alignedLen / slotSize
  let offset := start - alignedStart
  let index := alignedStart / slotSize
  { buffer := fun ii =>
      if ii < bufferNr then
        { buffer ii with fid := fid, rev := revision % 2 ^ 16, offset := (ii + index) % 2 ^ 64 }
      else buffer ii
    bufferNr := bufSize / slotSize
    -- `buf + offset` counts slots, not bytes
    address := offset * slotSize
    length := dword len
    position := start }

/-! ## The verifier -/

/-- A file. -/
structure File where
  /-- The byte at each position. -/
  byte : Nat → Nat
  /-- The length. -/
  size : Nat

/-- The byte that a call hands to the file, counted from its first one. -/
def WriteCall.byte (call : WriteCall) (index : Nat) : Nat :=
  (call.buffer ((call.address + index) / slotSize)).byte ((call.address + index) % slotSize)

/-- The file after a call. -/
def File.write (file : File) (call : WriteCall) : File where
  byte position :=
    if call.position ≤ position ∧ position < call.position + call.length then
      call.byte (position - call.position)
    else file.byte position
  size := if call.length = 0 then file.size else max file.size (call.position + call.length)

/-- How `FileVerify` fails. -/
inductive VerifyError where
  /-- The file ends too early. -/
  | shortRead
  /-- A slot does not compare. -/
  | mismatch
  /-- The rounds have not been enough. -/
  | unfinished
  deriving DecidableEq

/-- A slot that `FileVerify` reports. -/
def Miscompares (fid revision number : Nat) (byte : Nat → Nat) : Prop :=
  (slotAt byte).fid ≠ fid ∨ (revision ≠ 0 ∧ (slotAt byte).rev ≠ revision) ∨
    (slotAt byte).offset ≠ number ∨ (slotAt byte).checksum ≠ checksumOf byte

instance (fid revision number : Nat) (byte : Nat → Nat) :
    Decidable (Miscompares fid revision number byte) := inferInstanceAs (Decidable (_ ∨ _))

/-- The inner loop of `FileVerify`: what remains, or nothing for a mismatch. -/
def verifySlots (fid revision index : Nat) (byte : Nat → Nat) : Nat → Nat → Nat → Option Nat
  | 0, _, remain => some remain
  | count + 1, ii, remain =>
    if remain < slotSize then some remain
    else if Miscompares fid revision (ii + index * dataNr)
        (fun position => byte (ii * slotSize + position)) then none
    else verifySlots fid revision index byte count (ii + 1) (remain - slotSize)

/-- The outer loop of `FileVerify`, for a number of rounds. -/
def verifyLoop (fid revision : Nat) (file : File) :
    Nat → Nat → Nat → Nat → Except VerifyError Unit
  | 0, _, _, remain => if remain = 0 then .ok () else .error .unfinished
  | rounds + 1, index, offset, remain =>
    if remain = 0 then .ok ()
    else
      let toRead := min remain fileBufSize
      let read := min toRead (file.size - offset)
      if read < toRead then .error .shortRead
      else
        match verifySlots fid revision index (fun position => file.byte (offset + position))
            dataNr 0 remain with
        | none => .error .mismatch
        | some remain =>
          verifyLoop fid revision file rounds (dword (index + 1)) (offset + read) remain

/-- `FileVerify` on a file that opens, for a number of rounds. -/
def fileVerify (file : File) (fid revision len rounds : Nat) : Except VerifyError Unit :=
  verifyLoop fid revision file rounds 0 0 len

/-! ## The stream of stamps -/

/-- The slots of a buffer, and the bytes of a slot. -/
theorem sizes : slotSize = 16 ∧ fileBufSize = 262144 ∧ dataNr = 16384 := ⟨rfl, rfl, rfl⟩

/-- The bytes that a call hands over come from inside its buffer, and each one is the byte of a slot
in the place where the stream of stamps has it: the slot that covers a position carries the file's
number, the revision and the number of the slot. -/
def WriteCall.Agrees (call : WriteCall) (fid revision : Nat) : Prop :=
  ∀ index < call.length,
    (call.address + index) / slotSize < call.bufferNr ∧
    (call.address + index) % slotSize = (call.position + index) % slotSize ∧
    (call.buffer ((call.address + index) / slotSize)).fid = fid ∧
    (call.buffer ((call.address + index) / slotSize)).rev = revision ∧
    (call.buffer ((call.address + index) / slotSize)).offset = (call.position + index) / slotSize

/-- The calls hand over the bytes for a range of positions, each position once. -/
def Covers : Nat → Nat → List WriteCall → Prop
  | _, len, [] => len = 0
  | start, len, call :: rest =>
    call.position = start ∧ call.length ≤ len ∧
      Covers (start + call.length) (len - call.length) rest

/-- A writer stamps a range of a file. -/
def Stamps (fid revision start len : Nat) (calls : List WriteCall) : Prop :=
  Covers start len calls ∧ ∀ call ∈ calls, call.Agrees fid revision

section Writers

variable {fid revision start len rounds index offset remain : Nat}

/-- `FillFile` hands over the whole range. -/
theorem fillFileLoop_covers (enough : remain ≤ rounds) :
    Covers start remain (fillFileLoop fid revision rounds start index offset remain) := by
  induction rounds generalizing start index offset remain with
  | zero => exact Nat.le_zero.mp enough
  | succ rounds ih =>
    unfold fillFileLoop
    by_cases done : remain = 0
    · rw [if_pos done]
      exact done
    · rw [if_neg done]
      refine ⟨rfl, Nat.min_le_left _ _, ih ?_⟩
      show remain - min remain fileBufSize ≤ rounds
      have size := sizes.2.1
      omega

/-- The call of `FillFile` for a chunk that begins at a multiple of the buffer. -/
def chunkCall (fid revision chunk length : Nat) : WriteCall where
  buffer := fun ii => stamp fid revision (ii + dword chunk * dataNr)
  bufferNr := dataNr
  address := 0 * slotSize
  length := length
  position := chunk * fileBufSize

/-- From the beginning of a chunk, `FillFile` hands over that chunk and all later ones. -/
theorem mem_fillFileLoop {call : WriteCall} (chunk : Nat) (enough : remain ≤ rounds) :
    call ∈ fillFileLoop fid revision rounds (chunk * fileBufSize) (dword chunk) 0 remain ↔
      ∃ place, chunk ≤ place ∧ place * fileBufSize < chunk * fileBufSize + remain ∧
        call = chunkCall fid revision place
          (min (chunk * fileBufSize + remain - place * fileBufSize) fileBufSize) := by
  have positive : 0 < fileBufSize := by decide
  have nothing : ∀ rounds start index, call ∈ fillFileLoop fid revision rounds start index 0 0 ↔
      False := by
    intro rounds start index
    cases rounds <;> exact ⟨nofun, nofun⟩
  have first : ∀ chunk remain : Nat, chunk * fileBufSize + remain - chunk * fileBufSize = remain :=
    fun _ _ => Nat.add_sub_cancel_left _ _
  induction rounds generalizing chunk remain with
  | zero =>
    obtain rfl := Nat.le_zero.mp enough
    rw [nothing, false_iff]
    rintro ⟨place, late, early, -⟩
    rw [Nat.add_zero] at early
    exact absurd early (Nat.not_lt.mpr (Nat.mul_le_mul_right _ late))
  | succ rounds ih =>
    by_cases done : remain = 0
    · subst done
      rw [nothing, false_iff]
      rintro ⟨place, late, early, -⟩
      rw [Nat.add_zero] at early
      exact absurd early (Nat.not_lt.mpr (Nat.mul_le_mul_right _ late))
    · have next : dword (dword chunk + 1) = dword (chunk + 1) := by
        show (chunk % 2 ^ 32 + 1) % 2 ^ 32 = (chunk + 1) % 2 ^ 32
        omega
      have unfolded : fillFileLoop fid revision (rounds + 1) (chunk * fileBufSize) (dword chunk) 0
          remain = chunkCall fid revision chunk (min remain fileBufSize) ::
            fillFileLoop fid revision rounds (chunk * fileBufSize + min remain fileBufSize)
              (dword (chunk + 1)) 0 (remain - min remain fileBufSize) := by
        rw [fillFileLoop, if_neg done, next]
        rfl
      rw [unfolded, List.mem_cons]
      by_cases last : remain ≤ fileBufSize
      · rw [Nat.min_eq_left last, Nat.sub_self, nothing, or_false]
        constructor
        · rintro rfl
          refine ⟨chunk, Nat.le_refl chunk, Nat.lt_add_of_pos_right (Nat.pos_of_ne_zero done), ?_⟩
          rw [first, Nat.min_eq_left last]
        · rintro ⟨place, late, early, rfl⟩
          have below : place * fileBufSize < (chunk + 1) * fileBufSize := by
            rw [Nat.succ_mul]
            exact Nat.lt_of_lt_of_le early (Nat.add_le_add_left last _)
          obtain rfl := Nat.le_antisymm late (Nat.le_of_lt_succ (Nat.lt_of_mul_lt_mul_right below))
          rw [first, Nat.min_eq_left last]
      · obtain ⟨rest, rfl⟩ := Nat.exists_eq_add_of_le (Nat.le_of_not_le last)
        have whole : min (fileBufSize + rest) fileBufSize = fileBufSize :=
          Nat.min_eq_right (Nat.le_add_right _ _)
        have start : chunk * fileBufSize + fileBufSize = (chunk + 1) * fileBufSize :=
          (Nat.succ_mul ..).symm
        have fewer : rest ≤ rounds := by omega
        rw [whole, Nat.add_sub_cancel_left, start]
        refine Iff.trans (or_congr Iff.rfl (ih (chunk + 1) fewer)) ?_
        rw [← Nat.add_assoc, start]
        constructor
        · rintro (rfl | ⟨place, late, early, rfl⟩)
          · have room : (chunk + 1) * fileBufSize + rest - chunk * fileBufSize =
                fileBufSize + rest := by
              rw [← start, Nat.add_assoc, Nat.add_sub_cancel_left]
            refine ⟨chunk, Nat.le_refl chunk, ?_, ?_⟩
            · rw [← start]
              omega
            · rw [room, whole]
          · exact ⟨place, Nat.le_of_succ_le late, early, rfl⟩
        · rintro ⟨place, late, early, rfl⟩
          obtain rfl | later := Nat.eq_or_lt_of_le late
          · have room : (chunk + 1) * fileBufSize + rest - chunk * fileBufSize =
                fileBufSize + rest := by
              rw [← start, Nat.add_assoc, Nat.add_sub_cancel_left]
            rw [room, whole]
            exact .inl rfl
          · exact .inr ⟨place, later, early, rfl⟩

/-- From the beginning of a file, `FillFile` hands over every chunk. -/
theorem mem_fillFile {call : WriteCall} :
    call ∈ fillFile fid revision 0 len ↔
      ∃ place, place * fileBufSize < len ∧
        call = chunkCall fid revision place (min (len - place * fileBufSize) fileBufSize) := by
  have loop : call ∈ fillFileLoop fid revision len (0 * fileBufSize) (dword 0) 0 len ↔ _ :=
    mem_fillFileLoop 0 (Nat.le_refl len)
  rw [Nat.zero_mul, Nat.zero_add] at loop
  have offset : 0 - 0 / fileBufSize * fileBufSize = 0 := Nat.zero_sub _
  have begin : dword 0 = 0 := rfl
  rw [begin] at loop
  rw [fillFile, offset, loop]
  exact ⟨fun ⟨place, _, early, same⟩ => ⟨place, early, same⟩,
    fun ⟨place, early, same⟩ => ⟨place, Nat.zero_le place, early, same⟩⟩

/-- A chunk agrees while the counter of chunks has not wrapped. -/
theorem chunkCall_agrees (small : revision < 2 ^ 16) {chunk : Nat} (few : chunk < 2 ^ 32)
    (short : len ≤ fileBufSize) : (chunkCall fid revision chunk len).Agrees fid revision := by
  intro index less
  change index < len at less
  obtain ⟨slot, size, number⟩ := sizes
  have same : dword chunk = chunk := Nat.mod_eq_of_lt few
  rw [size] at short
  dsimp only [chunkCall, stamp]
  rw [slot, size, number, same]
  refine ⟨by omega, by omega, rfl, Nat.mod_eq_of_lt small, by omega⟩

/-- The first chunk after the counter of chunks has wrapped is stamped like the first one. -/
theorem chunkCall_wrapped (length : Nat) (present : 0 < length) :
    ¬ (chunkCall fid revision (2 ^ 32) length).Agrees fid revision := by
  intro agrees
  obtain ⟨-, -, -, -, wrapped⟩ := agrees 0 present
  have first : (0 * slotSize + 0) / slotSize + dword (2 ^ 32) * dataNr = 0 := by decide
  have place : (2 ^ 32 * fileBufSize + 0) / slotSize ≠ 0 := by decide
  dsimp only [chunkCall, stamp] at wrapped
  rw [first] at wrapped
  exact place wrapped.symm

/-- A start whose first byte is found in the first chunk, where a byte offset counts slots. -/
theorem start_eq_zero {start offset : Nat} (rest : offset = start % 262144)
    (place : offset * 16 % 16 = start % 16) (slot : offset * 16 / 16 = start / 16) : start = 0 := by
  have whole : start = 16 * offset := by omega
  have split : start = 262144 * (start / 262144) + offset := by omega
  have small : offset < 262144 := by omega
  omega

/-- `FillFile` stamps its range if and only if there is nothing to do, or it begins at the beginning
of the file and the counter of chunks does not wrap. -/
theorem fillFile_stamps_iff (small : revision < 2 ^ 16) :
    Stamps fid revision start len (fillFile fid revision start len) ↔
      len = 0 ∨ start = 0 ∧ len ≤ 2 ^ 50 := by
  obtain ⟨cell, size, number⟩ := sizes
  have chunks : 2 ^ 32 * fileBufSize = 2 ^ 50 := by decide
  constructor
  · rintro ⟨-, agrees⟩
    by_cases empty : len = 0
    · exact .inl empty
    · obtain ⟨rounds, rfl⟩ := Nat.exists_eq_succ_of_ne_zero empty
      -- the first byte of the first chunk
      have first : WriteCall.Agrees
          { buffer := fun ii => stamp fid revision (ii + 0 * dataNr), bufferNr := dataNr
            address := (start - start / fileBufSize * fileBufSize) * slotSize
            length := min (rounds + 1) fileBufSize, position := start } fid revision := by
        apply agrees
        unfold fillFile fillFileLoop
        rw [if_neg empty]
        exact List.mem_cons_self
      have present : 0 < min (rounds + 1) fileBufSize :=
        Nat.lt_min.mpr ⟨Nat.succ_pos rounds, by decide⟩
      obtain ⟨-, place, -, -, slot⟩ := first 0 present
      have rest : start - start / fileBufSize * fileBufSize = start % 262144 := by
        rw [size]
        omega
      have few : start % 262144 * 16 / 16 < 2 ^ 64 := by omega
      dsimp only [stamp] at place slot
      rw [rest, cell, Nat.add_zero, Nat.add_zero] at place slot
      rw [Nat.zero_mul, Nat.add_zero, Nat.mod_eq_of_lt few] at slot
      obtain rfl := start_eq_zero rfl place slot
      refine .inr ⟨rfl, Nat.le_of_not_lt fun long => ?_⟩
      have inside : 2 ^ 32 * fileBufSize < rounds + 1 := by rwa [chunks]
      have handed := agrees _ (mem_fillFile.mpr ⟨2 ^ 32, inside, rfl⟩)
      apply chunkCall_wrapped _ _ handed
      exact Nat.lt_min.mpr ⟨Nat.sub_pos_of_lt inside, by decide⟩
  · intro condition
    refine ⟨fillFileLoop_covers (Nat.le_refl len), ?_⟩
    cases condition with
    | inl empty =>
      subst empty
      exact fun call member => nomatch member
    | inr fine =>
      obtain ⟨rfl, bound⟩ := fine
      intro call member
      obtain ⟨place, early, rfl⟩ := mem_fillFile.mp member
      apply chunkCall_agrees small _ (Nat.min_le_right _ _)
      rw [← chunks] at bound
      exact Nat.lt_of_mul_lt_mul_right (Nat.lt_of_lt_of_le early bound)

/-- Rounding up reaches the value, and a whole number of slots. -/
theorem roundUp_spec (value : Nat) :
    roundUp value % 16 = 0 ∧ value ≤ roundUp value ∧ roundUp value < value + 16 := by
  show (value + 15) / 16 * 16 % 16 = 0 ∧ value ≤ (value + 15) / 16 * 16 ∧
    (value + 15) / 16 * 16 < value + 16
  omega

/-- The slots that `WriteTest` fills are in the buffer that `PrepareTest` made. -/
theorem alignedLen_le {longest : Nat} (fits : len ≤ longest) :
    (roundUp (start + len) - start / slotSize * slotSize) / slotSize ≤
      maxBufSize longest / slotSize := by
  show (roundUp (start + len) - start / 16 * 16) / 16 ≤ (roundUp longest + 16) / 16
  have aligned := roundUp_spec (start + len)
  have whole := roundUp_spec longest
  omega

/-- `WriteTest` at the beginning of a slot agrees, as far as one transfer can tell its length. -/
theorem writeTest_agrees {longest : Nat} (buffer : Nat → FileFillData) (small : revision < 2 ^ 16)
    (place : start < 2 ^ 64) (fits : len ≤ longest) (aligned : start % 16 = 0)
    (short : len < 2 ^ 32) :
    (writeTest buffer (maxBufSize longest) fid revision start len).Agrees fid revision := by
  intro index less
  have whole : dword len = len := Nat.mod_eq_of_lt short
  change index < dword len at less
  rw [whole] at less
  obtain ⟨multiple, reached, -⟩ := roundUp_spec (start + len)
  have room : (roundUp (start + len) - start / slotSize * slotSize) / slotSize ≤
      maxBufSize longest / slotSize := alignedLen_le fits
  have begin : start / slotSize * slotSize = start := by
    show start / 16 * 16 = start
    omega
  have address : (start - start) * slotSize + index = index := by
    rw [Nat.sub_self, Nat.zero_mul, Nat.zero_add]
  dsimp only [writeTest]
  rw [begin] at room ⊢
  rw [address]
  have filled : index / slotSize < (roundUp (start + len) - start) / slotSize := by
    show index / 16 < (roundUp (start + len) - start) / 16
    omega
  rw [if_pos filled]
  refine ⟨Nat.lt_of_lt_of_le filled room, ?_, rfl, Nat.mod_eq_of_lt small, ?_⟩
  · show index % 16 = (start + index) % 16
    omega
  · have few : index / 16 + start / 16 < 2 ^ 64 := by omega
    show (index / 16 + start / 16) % 2 ^ 64 = (start + index) / 16
    rw [Nat.mod_eq_of_lt few]
    omega

/-- `WriteTest` stamps its range if and only if there is nothing to do, or it begins at the beginning
of a slot and one transfer can tell its length. -/
theorem writeTest_stamps_iff {longest : Nat} (buffer : Nat → FileFillData)
    (small : revision < 2 ^ 16) (place : start < 2 ^ 64) (fits : len ≤ longest) :
    Stamps fid revision start len [writeTest buffer (maxBufSize longest) fid revision start len] ↔
      len = 0 ∨ start % 16 = 0 ∧ len < 2 ^ 32 := by
  constructor
  · rintro ⟨⟨-, -, whole⟩, agrees⟩
    by_cases empty : len = 0
    · exact .inl empty
    · have cut : dword len < 2 ^ 32 := Nat.mod_lt _ (by decide)
      have told : len ≤ dword len := Nat.le_of_sub_eq_zero whole
      have present : 0 < dword len := Nat.lt_of_lt_of_le (Nat.pos_of_ne_zero empty) told
      obtain ⟨-, same, -⟩ := agrees _ List.mem_cons_self 0 present
      change ((start - start / 16 * 16) * 16 + 0) % 16 = (start + 0) % 16 at same
      exact .inr ⟨by omega, Nat.lt_of_le_of_lt told cut⟩
  · intro condition
    have told : dword len = len := by
      apply Nat.mod_eq_of_lt
      cases condition with
      | inl empty => omega
      | inr fine => exact fine.2
    refine ⟨⟨rfl, Nat.le_of_eq told, ?_⟩, fun call member => ?_⟩
    · show len - dword len = 0
      rw [told, Nat.sub_self]
    · obtain rfl := List.mem_singleton.mp member
      cases condition with
      | inl empty =>
        intro index less
        change index < dword len at less
        rw [told, empty] at less
        exact absurd less (Nat.not_lt_zero _)
      | inr fine => exact writeTest_agrees buffer small place fits fine.1 fine.2

end Writers


/-! ## What a file holds -/

/-- An empty file. -/
def File.empty : File := { byte := fun _ => 0, size := 0 }

/-- A new file after some calls. -/
def produced (calls : List WriteCall) : File := calls.foldl File.write File.empty

/-- `FillBuffer` for a range of positions, and the call that hands its buffer over. -/
def fillRange (fid revision : Nat) (range : Nat × Nat) : WriteCall where
  buffer := fillBuffer (fun _ => ⟨0, 0, 0, 0, 0⟩) fid revision range.1 range.2
  bufferNr := range.2 / slotSize
  address := 0
  length := range.2
  position := range.1

/-- Ranges of whole slots that cover a file of a given length. -/
structure CoveringRanges (len : Nat) (ranges : List (Nat × Nat)) : Prop where
  /-- Every range begins and ends with a slot. -/
  aligned : ∀ range ∈ ranges, range.1 % slotSize = 0 ∧ range.2 % slotSize = 0
  /-- No range goes past the end. -/
  inside : ∀ range ∈ ranges, range.1 + range.2 ≤ len
  /-- Every position is in a range. -/
  covered : ∀ position < len, ∃ range ∈ ranges,
    range.1 ≤ position ∧ position < range.1 + range.2

/-- A position is in what a call hands over. -/
def WriteCall.Reaches (call : WriteCall) (position : Nat) : Prop :=
  call.position ≤ position ∧ position < call.position + call.length

instance (call : WriteCall) (position : Nat) : Decidable (call.Reaches position) :=
  inferInstanceAs (Decidable (_ ∧ _))

section Files

variable {calls : List WriteCall} {file : File} {len position value : Nat}

/-- A position that is in some call holds what all such calls agree on. -/
theorem foldl_write_byte
    (same : ∀ call ∈ calls, call.Reaches position → call.byte (position - call.position) = value)
    (present : file.byte position = value ∨ ∃ call ∈ calls, call.Reaches position) :
    (calls.foldl File.write file).byte position = value := by
  induction calls generalizing file with
  | nil =>
    obtain held | ⟨call, member, -⟩ := present
    · exact held
    · exact nomatch member
  | cons call rest ih =>
    apply ih fun other member => same other (List.mem_cons_of_mem _ member)
    by_cases reached : call.Reaches position
    · left
      show (if call.Reaches position then _ else _) = value
      rw [if_pos reached]
      exact same call List.mem_cons_self reached
    · obtain held | ⟨other, member, reaches⟩ := present
      · left
        show (if call.Reaches position then _ else _) = value
        rw [if_neg reached]
        exact held
      · cases member with
        | head => exact absurd reaches reached
        | tail _ member => exact .inr ⟨other, member, reaches⟩

/-- A file grows to the end of the farthest call. -/
theorem foldl_write_size (inside : ∀ call ∈ calls, call.position + call.length ≤ len)
    (begin : file.size ≤ len)
    (reached : len = file.size ∨ ∃ call ∈ calls, call.Reaches (len - 1)) :
    (calls.foldl File.write file).size = len := by
  induction calls generalizing file with
  | nil =>
    obtain same | ⟨call, member, -⟩ := reached
    · exact same.symm
    · exact nomatch member
  | cons call rest ih =>
    have ends := inside call List.mem_cons_self
    have size : (file.write call).size =
        if call.length = 0 then file.size else max file.size (call.position + call.length) := rfl
    apply ih fun other member => inside other (List.mem_cons_of_mem _ member)
    · rw [size]
      split <;> omega
    · rw [size]
      obtain same | ⟨other, member, reaches⟩ := reached
      · left
        split <;> omega
      · cases member with
        | head =>
          left
          obtain ⟨low, high⟩ := reaches
          split <;> omega
        | tail _ member => exact .inr ⟨other, member, reaches⟩

end Files

/-- A file of a given length is full of stamps: each slot has a number, and holds the stamp that
carries it. -/
structure Stamped (file : File) (fid revision len : Nat) (number : Nat → Nat) : Prop where
  /-- The length. -/
  size : file.size = len
  /-- The bytes. -/
  held : ∀ position < len, file.byte position =
    (stamp fid revision (number (position / slotSize))).byte (position % slotSize)

/-- The number that a slot gets when chunks are counted in a `DWORD`. -/
def chunkedNumber (slot : Nat) : Nat := slot % dataNr + dword (slot / dataNr) * dataNr

/-- A file that `FillFile` produced is full of stamps, numbered chunk by chunk. -/
theorem produced_fillFile (fid revision len : Nat) :
    Stamped (produced (fillFile fid revision 0 len)) fid revision len chunkedNumber := by
  obtain ⟨cell, size, number⟩ := sizes
  -- the chunk of a position
  have reached : ∀ position < len, ∃ call ∈ fillFile fid revision 0 len,
      call.Reaches position := by
    intro position less
    have low : position / fileBufSize * fileBufSize ≤ position := Nat.div_mul_le_self ..
    refine ⟨_, mem_fillFile.mpr ⟨position / fileBufSize, Nat.lt_of_le_of_lt low less, rfl⟩, low, ?_⟩
    show position < position / fileBufSize * fileBufSize +
      min (len - position / fileBufSize * fileBufSize) fileBufSize
    rw [size]
    omega
  constructor
  · apply foldl_write_size
    · intro call member
      obtain ⟨place, early, rfl⟩ := mem_fillFile.mp member
      show place * fileBufSize + min (len - place * fileBufSize) fileBufSize ≤ len
      omega
    · exact Nat.zero_le len
    · by_cases empty : len = 0
      · exact .inl empty
      · exact .inr (reached (len - 1) (Nat.sub_lt (Nat.pos_of_ne_zero empty) Nat.one_pos))
  · intro position less
    apply foldl_write_byte _ (.inr (reached position less))
    intro call member reaches
    obtain ⟨place, early, rfl⟩ := mem_fillFile.mp member
    obtain ⟨low, high⟩ := reaches
    change place * fileBufSize ≤ position at low
    change position < place * fileBufSize + min _ fileBufSize at high
    have short : position < place * fileBufSize + fileBufSize :=
      Nat.lt_of_lt_of_le high (Nat.add_le_add_left (Nat.min_le_right _ _) _)
    have index : 0 * slotSize + (position - place * fileBufSize) = position - place * fileBufSize := by
      rw [Nat.zero_mul, Nat.zero_add]
    dsimp only [WriteCall.byte, chunkCall, chunkedNumber]
    rw [index]
    rw [size] at low short ⊢
    rw [number, cell]
    have same : position / 16 / 16384 = place := by omega
    have slot : (position - place * 262144) / 16 = position / 16 % 16384 := by omega
    have byte : (position - place * 262144) % 16 = position % 16 := by omega
    rw [same, slot, byte]

/-- A file that `FillBuffer` produced is full of stamps, numbered one by one, in whatever order its
ranges come. -/
theorem produced_fillRange (fid revision : Nat) {len : Nat} {ranges : List (Nat × Nat)}
    (covering : CoveringRanges len ranges) :
    Stamped (produced (ranges.map (fillRange fid revision))) fid revision len id := by
  have reached : ∀ position < len, ∃ call ∈ ranges.map (fillRange fid revision),
      call.Reaches position := by
    intro position less
    obtain ⟨range, member, low, high⟩ := covering.covered position less
    exact ⟨_, List.mem_map.mpr ⟨range, member, rfl⟩, low, high⟩
  constructor
  · apply foldl_write_size
    · intro call member
      obtain ⟨range, chosen, rfl⟩ := List.mem_map.mp member
      exact covering.inside range chosen
    · exact Nat.zero_le len
    · by_cases empty : len = 0
      · exact .inl empty
      · exact .inr (reached (len - 1) (Nat.sub_lt (Nat.pos_of_ne_zero empty) Nat.one_pos))
  · intro position less
    apply foldl_write_byte _ (.inr (reached position less))
    intro call member reaches
    obtain ⟨⟨offset, length⟩, chosen, rfl⟩ := List.mem_map.mp member
    obtain ⟨low, high⟩ := reaches
    change offset ≤ position at low
    change position < offset + length at high
    obtain ⟨first, last⟩ := covering.aligned _ chosen
    change offset % 16 = 0 at first
    change length % 16 = 0 at last
    have whole : (position - offset) / 16 < length / 16 := by omega
    have slot : offset / 16 + (position - offset) / 16 = position / 16 := by omega
    have byte : (position - offset) % 16 = position % 16 := by omega
    dsimp only [WriteCall.byte, fillRange, fillBuffer]
    rw [Nat.zero_add, if_pos whole, slot, byte]
    rfl

/-! ## What the verifier finds -/

/-- The sum depends on the first 15 bytes. -/
theorem checksumOf_congr {byte byte' : Nat → Nat} (same : ∀ index < 15, byte index = byte' index) :
    checksumOf byte = checksumOf byte' := by
  have bytes : (List.range 15).map byte = (List.range 15).map byte' := by
    apply List.map_congr_left
    exact fun index member => same index (List.mem_range.mp member)
  rw [checksumOf, checksumOf, bytes]

/-- The checksum of a slot is not in its first 15 bytes. -/
theorem byte_of_checksum (slot : FileFillData) (checksum : Nat) {index : Nat} (early : index < 15) :
    ({ slot with checksum := checksum } : FileFillData).byte index = slot.byte index := by
  unfold FileFillData.byte
  split
  · rfl
  · split
    · rfl
    · split
      · rfl
      · have last : index = 14 := by omega
        rw [if_pos last, if_pos last]

section Verifier

variable {fid revision number expected : Nat} {byte : Nat → Nat}

/-- The verifier reports a stamp if and only if its number is not the expected one. -/
theorem miscompares_stamp_iff (narrow : fid < 2 ^ 32) (small : revision < 2 ^ 16)
    (stored : ∀ index < 16, byte index = (stamp fid revision number).byte index) :
    Miscompares fid revision expected byte ↔ number % 2 ^ 64 ≠ expected := by
  have offset : (slotAt byte).offset = number % 2 ^ 64 := by
    apply readBytes_of_lt (Nat.mod_lt _ (by decide))
    intro index less
    rw [stored index (by omega), FileFillData.byte, if_pos less]
    rfl
  have file : (slotAt byte).fid = fid := by
    apply readBytes_of_lt narrow
    intro index less
    rw [stored (8 + index) (by omega), FileFillData.byte, if_neg (by omega), if_pos (by omega),
      Nat.add_sub_cancel_left]
    rfl
  have rev : (slotAt byte).rev = revision := by
    apply readBytes_of_lt small
    intro index less
    rw [stored (12 + index) (by omega), FileFillData.byte, if_neg (by omega), if_neg (by omega),
      if_pos (by omega), Nat.add_sub_cancel_left]
    show byteOf (revision % 2 ^ 16) index = byteOf revision index
    rw [Nat.mod_eq_of_lt small]
  have checksum : (slotAt byte).checksum = checksumOf byte := by
    show byte 15 = checksumOf byte
    rw [stored 15 (by decide), FileFillData.byte, if_neg (by decide), if_neg (by decide),
      if_neg (by decide), if_neg (by decide)]
    apply checksumOf_congr
    intro index less
    rw [stored index (by omega)]
    exact (byte_of_checksum _ _ less).symm
  unfold Miscompares
  rw [offset, file, rev, checksum]
  constructor
  · rintro (other | ⟨-, other⟩ | other | other)
    · exact absurd rfl other
    · exact absurd rfl other
    · exact other
    · exact absurd rfl other
  · exact fun other => .inr (.inr (.inl other))

/-- The inner loop of `FileVerify` gets through if and only if no slot that it comes to compares
wrongly. It comes to every whole slot, up to the end of the buffer. -/
theorem verifySlots_some_iff {count ii index remain rest : Nat} :
    verifySlots fid revision index byte count ii remain = some rest ↔
      rest = remain - min count (remain / 16) * 16 ∧
        ∀ jj < min count (remain / 16), ¬ Miscompares fid revision (ii + jj + index * dataNr)
          fun position => byte ((ii + jj) * slotSize + position) := by
  induction count generalizing ii remain with
  | zero =>
    rw [Nat.zero_min, Nat.zero_mul, Nat.sub_zero]
    show some remain = some rest ↔ _
    rw [Option.some.injEq]
    exact ⟨fun same => ⟨same.symm, nofun⟩, fun same => same.1.symm⟩
  | succ count ih =>
    unfold verifySlots
    by_cases short : remain < slotSize
    · have few : min (count + 1) (remain / 16) = 0 := by
        change remain < 16 at short
        omega
      rw [if_pos short, few, Nat.zero_mul, Nat.sub_zero, Option.some.injEq]
      exact ⟨fun same => ⟨same.symm, nofun⟩, fun same => same.1.symm⟩
    · change ¬ remain < 16 at short
      have more : min (count + 1) (remain / 16) = min count ((remain - 16) / 16) + 1 := by omega
      have left : ∀ slots, remain - 16 - slots * 16 = remain - (slots + 1) * 16 := by
        intro slots
        omega
      have next : ∀ jj, ii + 1 + jj = ii + (jj + 1) := by
        intro jj
        omega
      rw [if_neg short, more]
      by_cases found : Miscompares fid revision (ii + index * dataNr)
          fun position => byte (ii * slotSize + position)
      · rw [if_pos found]
        refine ⟨nofun, fun ⟨_, fine⟩ => absurd found ?_⟩
        exact fine 0 (Nat.succ_pos _)
      · rw [if_neg found, ih, left]
        refine and_congr_right fun _ => ⟨fun fine jj less => ?_, fun fine jj less => ?_⟩
        · cases jj with
          | zero => exact found
          | succ jj =>
            have later := fine jj (Nat.lt_of_succ_lt_succ less)
            rwa [next] at later
        · have later := fine (jj + 1) (Nat.succ_lt_succ less)
          rwa [← next] at later

variable {file : File} {rounds index offset remain : Nat}

/-- What a round of `FileVerify` has found when the verification ends well: the file is long enough,
the slots of the buffer compare well, and so does the rest. -/
theorem verifyLoop_round (present : remain ≠ 0)
    (passed : verifyLoop fid revision file (rounds + 1) index offset remain = .ok ()) :
    (∀ jj < min dataNr (remain / 16), ¬ Miscompares fid revision (jj + index * dataNr)
      fun position => file.byte (offset + (jj * slotSize + position))) ∧
    verifyLoop fid revision file rounds (dword (index + 1)) (offset + min remain fileBufSize)
      (remain - min dataNr (remain / 16) * 16) = .ok () := by
  unfold verifyLoop at passed
  rw [if_neg present] at passed
  dsimp only at passed
  split at passed
  · cases passed
  · rename_i long
    have read : min (min remain fileBufSize) (file.size - offset) = min remain fileBufSize :=
      Nat.min_eq_left (Nat.le_of_not_lt fun short => long (by omega))
    rw [read] at passed
    split at passed
    · cases passed
    · rename_i rest found
      obtain ⟨rfl, fine⟩ := verifySlots_some_iff.mp found
      refine ⟨fun jj less => ?_, passed⟩
      have slot := fine jj less
      rwa [Nat.zero_add] at slot

/-- Where there is nothing left, the verification ends well. -/
theorem verifyLoop_nothing :
    verifyLoop fid revision file rounds index offset 0 = .ok () := by
  cases rounds <;> rfl

/-- The verification ends well only for a whole number of slots. -/
theorem verifyLoop_aligned
    (passed : verifyLoop fid revision file rounds index offset remain = .ok ()) :
    remain % 16 = 0 := by
  induction rounds generalizing index offset remain with
  | zero =>
    by_cases done : remain = 0
    · rw [done]
    · rw [verifyLoop, if_neg done] at passed
      cases passed
  | succ rounds ih =>
    by_cases done : remain = 0
    · rw [done]
    · have rest := ih (verifyLoop_round done passed).2
      omega

/-- The verification has compared the first slot of each chunk with the number of the chunk in a
`DWORD`. -/
theorem verifyLoop_chunk (chunk : Nat) (early : index < 2 ^ 32)
    (inside : chunk * fileBufSize + 16 ≤ remain)
    (passed : verifyLoop fid revision file rounds index offset remain = .ok ()) :
    ¬ Miscompares fid revision ((index + chunk) % 2 ^ 32 * dataNr)
      fun position => file.byte (offset + chunk * fileBufSize + position) := by
  obtain ⟨-, size, number⟩ := sizes
  have present : remain ≠ 0 := by omega
  induction rounds generalizing index offset remain chunk with
  | zero =>
    rw [verifyLoop, if_neg present] at passed
    cases passed
  | succ rounds ih =>
    obtain ⟨fine, rest⟩ := verifyLoop_round present passed
    cases chunk with
    | zero =>
      have some : 0 < min dataNr (remain / 16) := by
        rw [number]
        omega
      have first := fine 0 some
      rw [Nat.zero_add, Nat.zero_mul] at first
      rw [Nat.add_zero, Nat.mod_eq_of_lt early, Nat.zero_mul, Nat.add_zero]
      simpa only [Nat.zero_add] using first
    | succ chunk =>
      rw [Nat.succ_mul] at inside
      have whole : min remain fileBufSize = fileBufSize := by omega
      have slots : min dataNr (remain / 16) * 16 = fileBufSize := by
        rw [number, size]
        rw [size] at inside
        omega
      rw [whole, slots] at rest
      have left : chunk * fileBufSize + 16 ≤ remain - fileBufSize := by omega
      have later := ih chunk (Nat.mod_lt _ (by decide)) left rest (by omega)
      have same : (dword (index + 1) + chunk) % 2 ^ 32 = (index + (chunk + 1)) % 2 ^ 32 := by
        show ((index + 1) % 2 ^ 32 + chunk) % 2 ^ 32 = _
        omega
      have place : offset + fileBufSize + chunk * fileBufSize =
          offset + (chunk + 1) * fileBufSize := by
        rw [Nat.succ_mul]
        omega
      rwa [same, place] at later

/-- The verification of whole slots ends well where the file is long enough and every slot has the
number that the verifier counts. -/
theorem verifyLoop_of_stamped (chunk : Nat) (aligned : remain % 16 = 0)
    (long : chunk * fileBufSize + remain ≤ file.size)
    (fine : ∀ slot, chunk * dataNr ≤ slot → slot * 16 < chunk * fileBufSize + remain →
      ¬ Miscompares fid revision (chunkedNumber slot)
        fun position => file.byte (slot * slotSize + position))
    (enough : remain ≤ rounds) :
    verifyLoop fid revision file rounds (dword chunk) (chunk * fileBufSize) remain = .ok () := by
  obtain ⟨cell, size, number⟩ := sizes
  induction rounds generalizing chunk remain with
  | zero =>
    obtain rfl := Nat.le_zero.mp enough
    exact verifyLoop_nothing
  | succ rounds ih =>
    by_cases done : remain = 0
    · subst done
      exact verifyLoop_nothing
    · have read : min (min remain fileBufSize) (file.size - chunk * fileBufSize) =
          min remain fileBufSize := by
        apply Nat.min_eq_left
        omega
      have next : dword (dword chunk + 1) = dword (chunk + 1) := by
        show (chunk % 2 ^ 32 + 1) % 2 ^ 32 = (chunk + 1) % 2 ^ 32
        omega
      have slots : verifySlots fid revision (dword chunk)
          (fun position => file.byte (chunk * fileBufSize + position)) dataNr 0 remain =
            some (remain - min dataNr (remain / 16) * 16) := by
        rw [verifySlots_some_iff]
        refine ⟨rfl, fun jj less => ?_⟩
        rw [number] at less
        have inside : (chunk * dataNr + jj) * 16 < chunk * fileBufSize + remain := by
          rw [number, size]
          omega
        have slot := fine (chunk * dataNr + jj) (Nat.le_add_right _ _) inside
        have same : chunkedNumber (chunk * dataNr + jj) = 0 + jj + dword chunk * dataNr := by
          have quotient : (chunk * 16384 + jj) / 16384 = chunk := by omega
          have rest : (chunk * 16384 + jj) % 16384 = 0 + jj := by omega
          rw [chunkedNumber, number, quotient, rest]
        have place : ∀ position, (chunk * dataNr + jj) * slotSize + position =
            chunk * fileBufSize + ((0 + jj) * slotSize + position) := by
          intro position
          rw [number, size, cell]
          omega
        simpa only [same, place] using slot
      rw [verifyLoop, if_neg done]
      dsimp only
      rw [read, if_neg (Nat.lt_irrefl _), slots]
      dsimp only
      rw [next]
      by_cases last : remain ≤ fileBufSize
      · have nothing : remain - min dataNr (remain / 16) * 16 = 0 := by
          rw [number]
          rw [size] at last
          omega
        rw [nothing]
        exact verifyLoop_nothing
      · have whole : min remain fileBufSize = fileBufSize :=
          Nat.min_eq_right (Nat.le_of_not_le last)
        have used : min dataNr (remain / 16) * 16 = fileBufSize := by
          rw [number, size]
          rw [size] at last
          omega
        have start : chunk * fileBufSize + fileBufSize = (chunk + 1) * fileBufSize :=
          (Nat.succ_mul ..).symm
        have ends : (chunk + 1) * fileBufSize + (remain - fileBufSize) =
            chunk * fileBufSize + remain := by
          rw [← start]
          omega
        rw [whole, used, start]
        apply ih (chunk + 1)
        · rw [size]
          omega
        · rw [ends]
          exact long
        · intro slot late early
          rw [ends] at early
          apply fine slot (Nat.le_trans _ late) early
          exact Nat.mul_le_mul_right _ (Nat.le_succ chunk)
        · rw [size]
          omega

/-- A file full of stamps passes if and only if its last slot is whole and the numbers of its slots
are those that the verifier counts. -/
theorem fileVerify_of_stamped {len : Nat} {number : Nat → Nat} (narrow : fid < 2 ^ 32)
    (small : revision < 2 ^ 16) (stamped : Stamped file fid revision len number)
    (aligned : len % 16 = 0)
    (numbered : ∀ slot, slot * 16 < len → number slot % 2 ^ 64 = chunkedNumber slot) :
    fileVerify file fid revision len len = .ok () := by
  have start : 0 * fileBufSize + len = len := by rw [Nat.zero_mul, Nat.zero_add]
  have passed : verifyLoop fid revision file len (dword 0) (0 * fileBufSize) len = .ok () := by
    apply verifyLoop_of_stamped 0 aligned
    · exact Nat.le_of_eq (start.trans stamped.size.symm)
    · intro slot _ early
      rw [start] at early
      have stored : ∀ index < 16, file.byte (slot * slotSize + index) =
          (stamp fid revision (number slot)).byte index := by
        intro index less
        have place : (slot * slotSize + index) / slotSize = slot := by
          show (slot * 16 + index) / 16 = slot
          omega
        have byte : (slot * slotSize + index) % slotSize = index := by
          show (slot * 16 + index) % 16 = index
          omega
        rw [stamped.held _ (by show slot * 16 + index < len; omega), place, byte]
      rw [miscompares_stamp_iff narrow small stored, Decidable.not_not]
      exact numbered slot early
    · exact Nat.le_refl len
  rwa [Nat.zero_mul] at passed

/-- The number of a slot in chunks fits its field. -/
theorem chunkedNumber_mod (slot : Nat) : chunkedNumber slot % 2 ^ 64 = chunkedNumber slot := by
  apply Nat.mod_eq_of_lt
  show slot % 16384 + slot / 16384 % 2 ^ 32 * 16384 < 2 ^ 64
  omega

/-- The number of a slot in chunks is its number while the counter of chunks has not wrapped. -/
theorem chunkedNumber_of_lt {slot : Nat} (early : slot < 2 ^ 46) : chunkedNumber slot = slot := by
  have few : slot / 16384 % 2 ^ 32 = slot / 16384 := Nat.mod_eq_of_lt (by omega)
  show slot % 16384 + slot / 16384 % 2 ^ 32 * 16384 = slot
  rw [few]
  omega

/-- A file that `FillFile` produced passes if and only if its last slot is whole. -/
theorem fillFile_verified_iff {len : Nat} (narrow : fid < 2 ^ 32) (small : revision < 2 ^ 16) :
    (∃ rounds, fileVerify (produced (fillFile fid revision 0 len)) fid revision len rounds =
      .ok ()) ↔ len % 16 = 0 := by
  constructor
  · rintro ⟨rounds, passed⟩
    exact verifyLoop_aligned passed
  · intro aligned
    refine ⟨len, fileVerify_of_stamped narrow small (produced_fillFile fid revision len) aligned ?_⟩
    exact fun slot _ => chunkedNumber_mod slot

/-- A file that `FillBuffer` produced passes if and only if the counter of chunks does not wrap. -/
theorem fillRange_verified_iff {len : Nat} {ranges : List (Nat × Nat)} (narrow : fid < 2 ^ 32)
    (small : revision < 2 ^ 16) (covering : CoveringRanges len ranges) :
    (∃ rounds, fileVerify (produced (ranges.map (fillRange fid revision))) fid revision len rounds =
      .ok ()) ↔ len ≤ 2 ^ 50 := by
  have stamped := produced_fillRange fid revision covering
  constructor
  · rintro ⟨rounds, passed⟩
    refine Nat.le_of_not_lt fun long => ?_
    have aligned := verifyLoop_aligned passed
    have chunks : 2 ^ 32 * fileBufSize = 2 ^ 50 := by decide
    have inside : 2 ^ 32 * fileBufSize + 16 ≤ len := by
      rw [chunks]
      omega
    apply verifyLoop_chunk (2 ^ 32) (by decide) inside passed
    have stored : ∀ index < 16, (produced (ranges.map (fillRange fid revision))).byte
        (0 + 2 ^ 32 * fileBufSize + index) = (stamp fid revision (2 ^ 46)).byte index := by
      intro index less
      have place : (0 + 2 ^ 50 + index) / 16 = 2 ^ 46 := by omega
      have byte : (0 + 2 ^ 50 + index) % 16 = index := by omega
      rw [chunks, stamped.held _ (by omega), slotSize, place, byte]
      rfl
    rw [miscompares_stamp_iff narrow small stored, Nat.zero_add, Nat.mod_self, Nat.zero_mul]
    decide
  · intro bound
    have aligned : len % 16 = 0 := by
      by_cases empty : len = 0
      · rw [empty]
      · obtain ⟨range, member, low, high⟩ := covering.covered (len - 1) (by omega)
        have ends := covering.inside range member
        obtain ⟨first, last⟩ := covering.aligned range member
        change range.1 % 16 = 0 at first
        change range.2 % 16 = 0 at last
        omega
    refine ⟨len, fileVerify_of_stamped narrow small stamped aligned fun slot early => ?_⟩
    have few : slot < 2 ^ 46 := by omega
    rw [chunkedNumber_of_lt few]
    exact Nat.mod_eq_of_lt (Nat.lt_trans few (by decide))

end Verifier

/-! ## Writers and verifier -/

/-- Exactly when the stamps agree. `FillFile` and `WriteTest` take an offset in bytes for an offset
in slots, and `FillFile` numbers from the beginning of its range; `FileVerify` never consumes a
partial last slot, and counts its chunks in a `DWORD`. -/
theorem stamps_agree_iff {fid revision start len longest : Nat} (buffer : Nat → FileFillData)
    (narrow : fid < 2 ^ 32) (small : revision < 2 ^ 16) (place : start < 2 ^ 64)
    (fits : len ≤ longest) :
    (Stamps fid revision start len (fillFile fid revision start len) ↔
      len = 0 ∨ start = 0 ∧ len ≤ 2 ^ 50) ∧
    (Stamps fid revision start len
        [writeTest buffer (maxBufSize longest) fid revision start len] ↔
      len = 0 ∨ start % 16 = 0 ∧ len < 2 ^ 32) ∧
    ((∃ rounds, fileVerify (produced (fillFile fid revision 0 len)) fid revision len rounds =
      .ok ()) ↔ len % 16 = 0) ∧
    ∀ ranges, CoveringRanges len ranges →
      ((∃ rounds, fileVerify (produced (ranges.map (fillRange fid revision))) fid revision len
        rounds = .ok ()) ↔ len ≤ 2 ^ 50) :=
  ⟨fillFile_stamps_iff small, writeTest_stamps_iff buffer small place fits,
    fillFile_verified_iff narrow small,
    fun _ covering => fillRange_verified_iff narrow small covering⟩

/-- Three ranges that overlap, the last one first, cover a file of a chunk and four slots. -/
theorem coveringRanges_chunk :
    CoveringRanges 262208 [(131072, 131136), (0, 131072), (65536, 131072)] := by
  refine ⟨by decide, by decide, fun position less => ?_⟩
  by_cases early : position < 131072
  · exact ⟨(0, 131072), by decide, Nat.zero_le _, (by omega : position < 0 + 131072)⟩
  · exact ⟨(131072, 131136), by decide, (by omega : 131072 ≤ position),
      (by omega : position < 131072 + 131136)⟩

/-- A file of a chunk and four slots that `FillFile` fills in two rounds is stamped and passes, so is
one that `FillBuffer` fills in three ranges, and `WriteTest` stamps as much from the fourth slot
on. -/
theorem stamps_agree_iff_chunk :
    Stamps 7 3 0 262208 (fillFile 7 3 0 262208) ∧
    Stamps 7 3 48 262208
      [writeTest (fun _ => ⟨0, 0, 0, 0, 0⟩) (maxBufSize 262208) 7 3 48 262208] ∧
    (∃ rounds, fileVerify (produced (fillFile 7 3 0 262208)) 7 3 262208 rounds = .ok ()) ∧
    ∃ rounds, fileVerify (produced
      ([(131072, 131136), (0, 131072), (65536, 131072)].map (fillRange 7 3))) 7 3 262208 rounds =
        .ok () := by
  obtain ⟨fill, -, verify, ranges⟩ := @stamps_agree_iff 7 3 0 262208 262208
    (fun _ => ⟨0, 0, 0, 0, 0⟩) (by decide) (by decide) (by decide) (by decide)
  obtain ⟨-, write, -⟩ := @stamps_agree_iff 7 3 48 262208 262208
    (fun _ => ⟨0, 0, 0, 0, 0⟩) (by decide) (by decide) (by decide) (by decide)
  exact ⟨fill.mpr (by decide), write.mpr (by decide), verify.mpr (by decide),
    (ranges _ coveringRanges_chunk).mpr (by decide)⟩

/-- `FillFile` from the second slot on, `WriteTest` from the middle of a slot, and a file of ten
bytes. -/
theorem stamps_diverge :
    ¬ Stamps 1 1 16 16 (fillFile 1 1 16 16) ∧
    ¬ Stamps 1 1 8 8 [writeTest (fun _ => ⟨0, 0, 0, 0, 0⟩) (maxBufSize 8) 1 1 8 8] ∧
    ∀ rounds, fileVerify (produced (fillFile 1 1 0 10)) 1 1 10 rounds ≠ .ok () := by
  refine ⟨fun stamps => ?_, fun stamps => ?_, fun rounds passed => ?_⟩
  · have condition := (fillFile_stamps_iff (by decide)).mp stamps
    omega
  · have condition :=
      (writeTest_stamps_iff _ (by decide) (by decide) (Nat.le_refl 8)).mp stamps
    omega
  · exact absurd (verifyLoop_aligned passed) (by decide)

end FsChecking.FsTester
