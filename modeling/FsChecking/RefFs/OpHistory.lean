import FsChecking.Lib.Playback
import FsChecking.RefFs.Canonical

/-!
# The history of operations in the code of a state

`EncodingAppendOp` appends a letter for every operation to a small array, and `Encode` puts the code
of the tree, a digit for the resets and the last letters into a buffer of its caller. Both limits
are the sizes of these arrays, and neither is checked.
-/

namespace FsChecking.RefFs

open Lib

/-! ## Codes that can be printed -/

/-- The code of a file lies in its buffer and contains no terminator. -/
def RefFile.Legible (file : RefFile) : Prop := file.Sized ∧ '\x00' ∉ file.code

/-- All codes can be printed, and the reset counter is a digit. -/
structure Legible (fs : ReferenceFs) : Prop where
  /-- `m_reset_count`. -/
  resets : fs.resetCount ≤ maxFileVersion
  /-- The codes. -/
  files : ∀ index, (fs.files index).Legible

variable {fs : ReferenceFs} {index : Nat}

/-- A code that is written. -/
theorem RefFile.legible_setCode (file : RefFile) {text : Text} (plain : '\x00' ∉ text) :
    (file.setCode text).Legible := ⟨setCode_sized file text, by rwa [code_setCode]⟩

/-- A code that is printed. -/
theorem RefFile.legible_printCode (file : RefFile) {text : Text} (plain : '\x00' ∉ text) :
    (file.printCode text).Legible := ⟨printCode_sized file text, by rwa [code_printCode]⟩

/-- A file whose memory is zero. -/
theorem RefFile.legible_zero : RefFile.zero.Legible := by
  refine ⟨Nat.zero_le _, ?_⟩
  show '\x00' ∉ List.take 0 _
  rw [List.take_zero]
  exact List.not_mem_nil

/-- The label of a file. -/
theorem RefFile.plain_label (file : RefFile) : '\x00' ∉ file.label := by
  rw [label_eq]
  exact (IsCode.leaf _ _).plain

/-- Replacing a file. -/
theorem Legible.setFile (legible : Legible fs) {file : RefFile} (fine : file.Legible) :
    Legible (fs.setFile index file) where
  resets := legible.resets
  files := by
    intro other
    by_cases here : other = index
    · rw [here, ReferenceFs.setFile_self]
      exact fine
    · rw [ReferenceFs.setFile_of_ne here]
      exact legible.files other

/-- The codes of children that are appended to a text. -/
theorem Legible.appendCodes (legible : Legible fs) (children : List Nat) {text : Text}
    (plain : '\x00' ∉ text) :
    (∀ whole, fs.appendCodes children text = .ok whole → '\x00' ∉ whole) ∧
      ∀ part, fs.appendCodes children text = .error part → '\x00' ∉ part := by
  induction children generalizing text with
  | nil =>
    refine ⟨fun whole done => ?_, fun part failed => ?_⟩
    · cases done
      exact plain
    · cases failed
  | cons child rest ih =>
    unfold ReferenceFs.appendCodes
    dsimp only
    split
    · refine ⟨fun whole done => ?_, fun part failed => ?_⟩
      · cases done
      · cases failed
        exact plain
    · apply ih
      rw [List.mem_append]
      exact not_or.mpr ⟨plain, (legible.files child).2⟩

/-- `UpdateEncode` on one file. -/
theorem Legible.refresh (legible : Legible fs) (index : Nat) :
    Ends Legible (refresh index) fs := by
  unfold RefFs.refresh
  apply Ends.get
  dsimp only
  split
  · apply Ends.throwIf legible
    intro _
    have plain := legible.appendCodes ((fs.files index).kids.insertionSort fs.Before)
      (show '\x00' ∉ ['['] by decide)
    split
    · rename_i text done
      apply legible.setFile
      apply RefFile.legible_setCode
      rw [List.mem_append]
      exact not_or.mpr ⟨plain.1 text done, by decide⟩
    · rename_i text failed
      apply Ends.set
      apply legible.setFile
      exact RefFile.legible_setCode _ (plain.2 text failed)
  · apply legible.setFile
    exact RefFile.legible_printCode _ (RefFile.plain_label _)

/-- `UpdateEncode`, for a number of ancestors. -/
theorem Legible.updateEncodeWithin (fuel : Nat) (legible : Legible fs) (index : Nat) :
    Ends Legible (updateEncodeWithin fuel index) fs := by
  induction fuel generalizing fs index with
  | zero => exact legible
  | succ fuel ih =>
    unfold RefFs.updateEncodeWithin
    apply Ends.bind (legible.refresh index)
    intro _ next nextLegible
    apply Ends.get
    dsimp only
    split
    · exact nextLegible
    · exact ih nextLegible _

/-- `UpdateEncode`. -/
theorem Legible.updateEncode (legible : Legible fs) (index : Nat) :
    Ends Legible (updateEncode index) fs := legible.updateEncodeWithin _ index

/-- A change that leaves the codes. -/
theorem Legible.congr {fs' : ReferenceFs} (legible : Legible fs)
    (resets : fs'.resetCount = fs.resetCount)
    (files : ∀ index, (fs'.files index).encode = (fs.files index).encode ∧
      (fs'.files index).encodeSize = (fs.files index).encodeSize) : Legible fs' where
  resets := resets.trans_le legible.resets
  files := by
    intro index
    unfold RefFile.Legible RefFile.Sized RefFile.code
    rw [(files index).1, (files index).2]
    exact legible.files index

/-- Replacing a file by one with the same code. -/
theorem Legible.setFile_sameCode (legible : Legible fs) {file : RefFile}
    (encode : file.encode = (fs.files index).encode)
    (encodeSize : file.encodeSize = (fs.files index).encodeSize) :
    Legible (fs.setFile index file) := by
  apply legible.setFile
  unfold RefFile.Legible RefFile.Sized RefFile.code
  rw [encode, encodeSize]
  exact legible.files index

/-- `get_file`. -/
theorem Legible.getFile (legible : Legible fs) : Ends Legible getFile fs := by
  have moved : Legible (fs.setFile fs.freeList { fs.files fs.freeList with next := fs.usedList }) :=
    legible.setFile_sameCode rfl rfl
  exact moved.congr rfl fun _ => ⟨rfl, rfl⟩

/-- `put_file`. -/
theorem Legible.putFile (legible : Legible fs) (index : Nat) : Ends Legible (putFile index) fs := by
  have freed : ∀ fs : ReferenceFs, Legible fs → Legible
      { fs.setFile index { RefFile.zero with next := fs.freeList, fid := invalidNid } with
        freeList := index, freeNum := fs.freeNum + 1 } := by
    intro fs legible
    have cleared : Legible
        (fs.setFile index { RefFile.zero with next := fs.freeList, fid := invalidNid }) :=
      legible.setFile RefFile.legible_zero
    exact cleared.congr rfl fun _ => ⟨rfl, rfl⟩
  unfold RefFs.putFile
  apply Ends.get
  dsimp only
  split
  · apply Ends.set
    exact freed _ (legible.congr rfl fun _ => ⟨rfl, rfl⟩)
  · split
    · exact legible
    · apply Ends.set
      exact freed _ (legible.setFile_sameCode rfl rfl)

/-- `RemoveChild`. -/
theorem Legible.removeChild (legible : Legible fs) (parentId child : Nat) :
    Ends Legible (removeChild parentId child) fs := by
  unfold RefFs.removeChild
  apply Ends.get
  dsimp only
  split
  · exact legible
  · exact legible.setFile_sameCode rfl rfl

/-- `AddPath`. -/
theorem Legible.addPath (legible : Legible fs) (path : Text) (isDir : Bool) (fid : Nat) :
    Ends Legible (addPath path isDir fid) fs := by
  unfold RefFs.addPath
  apply Ends.get
  dsimp only
  split
  · exact legible
  · apply Ends.throwIf legible
    intro _
    split
    · exact legible
    · apply Ends.bind legible.getFile
      intro objId taken takenLegible
      split
      · exact takenLegible
      · rename_i parentId _
        apply Ends.throwIf takenLegible
        intro _
        apply Ends.get
        apply Ends.throwIf takenLegible
        intro _
        let entered := taken.setFile objId (initFile (taken.files objId) parentId
          (taken.files parentId).depth path isDir fid)
        have enteredLegible : Legible entered := by
          apply takenLegible.setFile
          have plain : '\x00' ∉ if isDir then ['[', ']'] else ['(', '0', ')'] := by
            cases isDir <;> decide
          have printed := RefFile.legible_printCode (taken.files objId) plain
          exact printed
        have listed : Legible (entered.setFile parentId
            { entered.files parentId with
              children := (entered.files parentId).children.set (entered.files parentId).size objId
              size := (entered.files parentId).size + 1 }) :=
          enteredLegible.setFile_sameCode rfl rfl
        apply Ends.throwIf takenLegible
        intro _
        apply Ends.set
        apply Ends.bind
        · apply Legible.updateEncode
          split
          · exact listed.congr rfl fun _ => ⟨rfl, rfl⟩
          · exact listed.congr rfl fun _ => ⟨rfl, rfl⟩
        · exact fun _ _ legible => legible

/-- `UpdateFile` on a file. -/
theorem Legible.updateFile (legible : Legible fs) (index len : Nat) :
    Ends Legible (updateFile index len) fs := by
  unfold RefFs.updateFile
  apply Ends.throwIf legible
  intro _
  apply Ends.change
  apply Legible.updateEncode
  exact legible.setFile_sameCode rfl rfl

/-- `UpdateFile` on a path. -/
theorem Legible.updatePath (legible : Legible fs) (path : Text) (len : Nat) :
    Ends Legible (updatePath path len) fs := by
  unfold RefFs.updatePath
  apply Ends.get
  split
  · exact legible
  · apply Ends.throwIf legible
    exact fun _ => legible.updateFile _ _

/-- `OpenFile`. -/
theorem Legible.openFile (legible : Legible fs) (index : Nat) :
    Ends Legible (openFile index) fs := by
  unfold RefFs.openFile
  apply Ends.get
  apply Ends.throwIf legible
  intro _
  apply Ends.throwIf legible
  intro _
  apply Ends.set
  apply Ends.bind
  · apply Legible.updateEncode
    exact legible.setFile_sameCode rfl rfl
  · exact fun _ _ legible => legible.congr rfl fun _ => ⟨rfl, rfl⟩

/-- `CloseFile`. -/
theorem Legible.closeFile (legible : Legible fs) (index : Nat) :
    Ends Legible (closeFile index) fs := by
  unfold RefFs.closeFile
  apply Ends.get
  apply Ends.throwIf legible
  intro _
  apply Ends.set
  apply Ends.bind
  · apply Legible.updateEncode
    exact legible.setFile_sameCode rfl rfl
  · exact fun _ _ legible => legible.congr rfl fun _ => ⟨rfl, rfl⟩

/-- `RemoveFile`. -/
theorem Legible.removeFile (legible : Legible fs) (path : Text) :
    Ends Legible (removeFile path) fs := by
  unfold RefFs.removeFile
  apply Ends.get
  dsimp only
  split
  · exact legible
  · apply Ends.throwIf legible
    intro _
    apply Ends.bind (legible.removeChild _ _)
    intro _ next nextLegible
    apply Ends.change
    apply Ends.bind
    · apply Legible.updateEncode
      split
      · exact nextLegible.congr rfl fun _ => ⟨rfl, rfl⟩
      · exact nextLegible.congr rfl fun _ => ⟨rfl, rfl⟩
    · exact fun _ _ legible => legible.putFile _

/-- `MoveFile`. -/
theorem Legible.moveFile (legible : Legible fs) (src dst : Text) :
    Ends Legible (moveFile src dst) fs := by
  unfold RefFs.moveFile
  apply Ends.get
  apply Ends.throwIf legible
  intro _
  have renamed : Legible { fs with
      files := fun index =>
        if index ∈ fs.usedFiles then
          { fs.files index with fn := moved src dst (fs.files index).fn }
        else fs.files index } := by
    refine Legible.congr legible ?_ ?_
    · rfl
    · intro index
      dsimp only
      split <;> exact ⟨rfl, rfl⟩
  apply Ends.set
  split
  · exact renamed
  · apply Ends.throwIf renamed
    intro _
    apply Ends.change
    apply Legible.updateEncode
    exact renamed.setFile_sameCode rfl rfl

/-- `Demount`. -/
theorem Legible.demount (legible : Legible fs) : Legible fs.demount where
  resets := by
    show (if fs.resetCount < maxFileVersion then fs.resetCount + 1 else fs.resetCount) ≤ _
    split
    · omega
    · exact legible.resets
  files := by
    intro index
    unfold ReferenceFs.demount
    dsimp only
    split
    · exact legible.files index
    · exact legible.files index

/-- Every call keeps the codes legible, whether it returns or throws. -/
theorem Legible.call (legible : Legible fs) (call : Call) : Ends Legible call.run fs := by
  cases call with
  | addPath path isDir fid => exact Ends.bind (legible.addPath path isDir fid) fun _ _ fine => fine
  | removeFile path => exact Ends.bind (legible.removeFile path) fun _ _ fine => fine
  | moveFile src dst => exact Ends.bind (legible.moveFile src dst) fun _ _ fine => fine
  | updatePath path len => exact Ends.bind (legible.updatePath path len) fun _ _ fine => fine
  | updateFile index len => exact Ends.bind (legible.updateFile index len) fun _ _ fine => fine
  | openFile index => exact Ends.bind (legible.openFile index) fun _ _ fine => fine
  | closeFile index => exact Ends.bind (legible.closeFile index) fun _ _ fine => fine
  | demount => exact legible.demount

/-- `Initialize` over memory with any contents. -/
theorem legible_initialized (fs : ReferenceFs) : Legible fs.initialized where
  resets := Nat.zero_le _
  files := by
    intro index
    unfold ReferenceFs.initialized
    dsimp only
    split
    · have printed := RefFile.legible_printCode RefFile.zero (show '\x00' ∉ ['[', ']'] by decide)
      exact printed
    · split
      · exact RefFile.legible_zero
      · exact RefFile.legible_zero

/-! ## The letters of the operations -/

/-- `OP_CODE`. -/
inductive OpCode where
  /-- `OP_NOP`. -/
  | nop
  /-- `OP_NO_EFFECT`. -/
  | noEffect
  /-- `OP_THREAD_CREATE`. -/
  | threadCreate
  /-- `OP_THREAD_EXIT`. -/
  | threadExit
  /-- `OP_FILE_CREATE`. -/
  | fileCreate
  /-- `OP_FILE_CLOSE`. -/
  | fileClose
  /-- `OP_FILE_READ`. -/
  | fileRead
  /-- `OP_FILE_WRITE`. -/
  | fileWrite
  /-- `OP_FILE_FLUSH`. -/
  | fileFlush
  /-- `OP_FILE_OPEN`. -/
  | fileOpen
  /-- `OP_FILE_DELETE`. -/
  | fileDelete
  /-- `OP_FILE_OVERWRITE`. -/
  | fileOverwrite
  /-- `OP_DIR_CREATE`. -/
  | dirCreate
  /-- `OP_DIR_DELETE`. -/
  | dirDelete
  /-- `OP_MOVE`. -/
  | move
  /-- `OP_DEMOUNT_MOUNT`. -/
  | demountMount
  /-- `OP_POWER_OFF_RECOVER`. -/
  | powerOffRecover
  /-- `OP_FILE_VERIFY`. -/
  | fileVerify
  /-- `OP_MARK_TRACE_BEGIN`. -/
  | markTraceBegin
  deriving DecidableEq

/-- The letter that `EncodingAppendOp` gives an operation. -/
def OpCode.letter : OpCode → Option Char
  | .fileCreate => some 'F'
  | .fileWrite => some 'W'
  | .fileFlush => some 'S'
  | .fileDelete => some 'R'
  | .fileOverwrite => some 'W'
  | .dirCreate => some 'D'
  | .dirDelete => some 'E'
  | .move => some 'M'
  | _ => none

/-- The size of `m_op_code`. -/
abbrev opCodeSize : Nat := 20

/-- `CReferenceFs` with the history of its operations. -/
structure CodedFs where
  /-- The files. -/
  fs : ReferenceFs
  /-- `m_op_code`. -/
  opCode : Text
  /-- `m_op_code_len`. -/
  opCodeLen : Nat

/-- `EncodingAppendOp`. -/
def encodingAppendOp (op : OpCode) : EStateM Fault CodedFs Unit := do
  match op.letter with
  | none => return ()
  | some code =>
    let coded ← get
    throwIf (coded.opCode.length ≤ coded.opCodeLen) .undefined
    set { coded with
      opCode := coded.opCode.set coded.opCodeLen code, opCodeLen := (coded.opCodeLen + 1) % 2 ^ 8 }

/-- `memcpy_s` into the buffer, to an index with `destSize` bytes left, as far as it is told. -/
def memcpyS (start destSize : Nat) (source : Text) (count : Nat) : EStateM Fault Text Unit :=
  if count = 0 then pure ()
  else do
    throwIf (destSize < count) .abort
    let buffer ← get
    throwIf (source.length < count ∨ buffer.length < start + count) .undefined
    set (overwrite buffer start (source.take count))

/-- Store one character in the buffer. -/
def storeChar (index : Nat) (char : Char) : EStateM Fault Text Unit := do
  let buffer ← get
  throwIf (buffer.length ≤ index) .undefined
  set (buffer.set index char)

/-- The digit of the reset counter. -/
def resetDigit (fs : ReferenceFs) : Char := Char.ofNat ((fs.resetCount + '0'.toNat) % 2 ^ 8)

/-- A difference of type `size_t`. -/
def sizeSub (left right : Nat) : Nat := (left + 2 ^ 64 - right) % 2 ^ 64

/-- `Encode` into a buffer that its caller says has `bufLen` bytes; the result is the length. -/
def encode (coded : CodedFs) (bufLen : Nat) (opLen : Int32) : EStateM Fault Text Nat := do
  let root := coded.fs.files 0
  memcpyS 0 (sizeSub bufLen 1) root.encode root.encodeSize
  storeChar root.encodeSize (resetDigit coded.fs)
  let ptr := root.encodeSize + 1
  let copyLen := min opLen.toInt coded.opCodeLen
  let start := (coded.opCodeLen - copyLen).toNat
  -- a negative length becomes a huge count
  let count := (copyLen % 2 ^ 64).toNat
  memcpyS ptr (sizeSub bufLen (ptr + 1)) (coded.opCode.drop start) count
  storeChar (ptr + count) '\x00'
  return ptr + count

/-- The last letters of a history. -/
def lastCodes (count : Nat) (codes : Text) : Text := codes.drop (codes.length - count)

/-- The string for a tree and a history of operations. -/
def historyString (coded : CodedFs) (executed : Text) (opLen : Int32) : Text :=
  (coded.fs.files 0).code ++ resetDigit coded.fs :: lastCodes opLen.toInt.toNat executed

/-- `Encode` puts the string of the executed operations with its terminator into the buffer. -/
def EncodesTo (coded : CodedFs) (executed : Text) (opLen : Int32) (buffer : Text) : Prop :=
  (historyString coded executed opLen).length < buffer.length ∧
    '\x00' ∉ historyString coded executed opLen ∧ (resetDigit coded.fs).isDigit ∧
    encode coded maxEncodeSize opLen buffer = .ok (historyString coded executed opLen).length
      (historyString coded executed opLen ++
        '\x00' :: buffer.drop ((historyString coded executed opLen).length + 1))

/-- When `memcpy_s` returns, and what it leaves. -/
theorem memcpyS_eq_ok {start destSize count : Nat} {source buffer buffer' : Text}
    {result : Unit} :
    memcpyS start destSize source count buffer = .ok result buffer' ↔
      (count = 0 ∨ count ≤ destSize ∧ count ≤ source.length ∧ start + count ≤ buffer.length) ∧
        buffer' = overwrite buffer start (source.take count) := by
  unfold memcpyS
  by_cases empty : count = 0
  · subst empty
    simp only [if_pos, true_or, true_and, List.take_zero]
    have same : overwrite buffer start [] = buffer := by simp [overwrite]
    rw [same]
    constructor
    · rintro ⟨⟩
      rfl
    · rintro rfl
      rfl
  · rw [if_neg empty, throwIf_bind_eq_ok, get_bind_apply, throwIf_bind_eq_ok]
    simp only [empty, false_or]
    constructor
    · rintro ⟨room, inside, ⟨⟩⟩
      exact ⟨⟨by omega, by omega, by omega⟩, rfl⟩
    · rintro ⟨⟨room, source, inside⟩, rfl⟩
      exact ⟨by omega, by omega, rfl⟩

/-- When a character is stored, and what that leaves. -/
theorem storeChar_eq_ok {index : Nat} {char : Char} {buffer buffer' : Text} {result : Unit} :
    storeChar index char buffer = .ok result buffer' ↔
      index < buffer.length ∧ buffer' = overwrite buffer index [char] := by
  unfold storeChar
  rw [get_bind_apply, throwIf_bind_eq_ok]
  constructor
  · rintro ⟨inside, ⟨⟩⟩
    exact ⟨Nat.lt_of_not_le inside, set_eq_overwrite (Nat.lt_of_not_le inside) _⟩
  · rintro ⟨inside, rfl⟩
    exact ⟨Nat.not_le.mpr inside, by rw [← set_eq_overwrite inside]; rfl⟩

/-- The number of the last letters. -/
theorem length_lastCodes (count : Nat) (codes : Text) :
    (lastCodes count codes).length = min count codes.length := by
  rw [lastCodes, List.length_drop]
  omega

/-- The history of a state is stored in its array. -/
structure Stores (coded : CodedFs) (kept : Text) : Prop where
  /-- The array. -/
  size : coded.opCode.length = opCodeSize
  /-- The length. -/
  length : coded.opCodeLen = kept.length
  /-- The history fits. -/
  fits : kept.length ≤ opCodeSize
  /-- The letters. -/
  letters : coded.opCode.take kept.length = kept

variable {coded : CodedFs} {kept : Text}

/-- The last letters, as `Encode` reads them. -/
theorem Stores.take_drop (stores : Stores coded kept) {count : Nat} (fits : count ≤ kept.length) :
    (coded.opCode.drop (kept.length - count)).take count = lastCodes count kept := by
  rw [lastCodes]
  conv_rhs => rw [← stores.letters]
  rw [List.length_take_of_le (by rw [stores.size]; exact stores.fits), List.drop_take]
  congr 1
  omega

/-- How many letters are copied for a length that is not negative. -/
theorem Stores.copy_count (stores : Stores coded kept) {opLen : Int32} (natural : 0 ≤ opLen.toInt) :
    (min opLen.toInt coded.opCodeLen % 2 ^ 64).toNat = min opLen.toInt.toNat kept.length ∧
      (coded.opCodeLen - min opLen.toInt coded.opCodeLen).toNat =
        kept.length - min opLen.toInt.toNat kept.length := by
  have upper : opLen.toInt < 2 ^ 31 := opLen.toInt_lt
  rw [stores.length]
  omega

/-- A history whose string fits. -/
def Fits (coded : CodedFs) (kept : Text) (opLen : Int32) : Prop :=
  0 ≤ opLen.toInt ∧
    (coded.fs.files 0).encodeSize + 1 + min opLen.toInt.toNat kept.length < maxEncodeSize

/-- The length of the string. -/
theorem length_historyString (sized : (coded.fs.files 0).Sized) (codes : Text) (opLen : Int32) :
    (historyString coded codes opLen).length =
      (coded.fs.files 0).encodeSize + 1 + min opLen.toInt.toNat codes.length := by
  rw [historyString, List.length_append, List.length_cons, length_lastCodes, sized.length_code]
  omega

/-- `Encode` of a string that fits. -/
theorem Stores.encode_of_fits (stores : Stores coded kept) (sized : (coded.fs.files 0).Sized)
    {opLen : Int32} (fits : Fits coded kept opLen) {buffer : Text}
    (size : buffer.length = maxEncodeSize) :
    encode coded maxEncodeSize opLen buffer = .ok (historyString coded kept opLen).length
      (overwrite buffer 0 (historyString coded kept opLen ++ ['\x00'])) := by
  obtain ⟨natural, room⟩ := fits
  obtain ⟨count, start⟩ := stores.copy_count natural
  have few : min opLen.toInt.toNat kept.length ≤ kept.length := Nat.min_le_right _ _
  have letters := stores.take_drop few
  have codeLength := sized.length_code
  have total := length_historyString sized kept opLen
  have last : lastCodes (min opLen.toInt.toNat kept.length) kept =
      lastCodes opLen.toInt.toNat kept := by
    unfold lastCodes
    congr 1
    omega
  have stored := length_lastCodes opLen.toInt.toNat kept
  have whole : maxEncodeSize = 512 := rfl
  rw [whole] at size room
  unfold encode
  simp only [count, start]
  rw [bind_eq_ok]
  refine ⟨(), overwrite buffer 0 (coded.fs.files 0).code, ?_, ?_⟩
  · rw [memcpyS_eq_ok]
    refine ⟨.inr ⟨?_, sized, by omega⟩, rfl⟩
    rw [whole, sizeSub]
    omega
  rw [bind_eq_ok]
  refine ⟨(), overwrite buffer 0 ((coded.fs.files 0).code ++ [resetDigit coded.fs]), ?_, ?_⟩
  · rw [storeChar_eq_ok]
    refine ⟨?_, ?_⟩
    · rw [length_overwrite (by omega)]
      omega
    · rw [← codeLength, ← Nat.zero_add (coded.fs.files 0).code.length]
      exact (overwrite_overwrite (by omega)).symm
  have front : ((coded.fs.files 0).code ++ [resetDigit coded.fs]).length =
      (coded.fs.files 0).encodeSize + 1 := by
    rw [List.length_append, codeLength]
    rfl
  rw [bind_eq_ok]
  refine ⟨(), overwrite buffer 0 (historyString coded kept opLen), ?_, ?_⟩
  · rw [memcpyS_eq_ok, letters, last]
    refine ⟨.inr ⟨?_, ?_, ?_⟩, ?_⟩
    · rw [whole, sizeSub]
      omega
    · rw [List.length_drop, stores.size]
      have bound := stores.fits
      omega
    · rw [length_overwrite (by omega)]
      omega
    · rw [← front, ← Nat.zero_add (List.length _), overwrite_overwrite (by omega),
        List.append_assoc]
      rfl
  rw [bind_eq_ok]
  refine ⟨(), overwrite buffer 0 (historyString coded kept opLen ++ ['\x00']), ?_, ?_⟩
  · rw [storeChar_eq_ok]
    refine ⟨?_, ?_⟩
    · rw [length_overwrite (by omega)]
      omega
    · rw [← total, ← Nat.zero_add (List.length _)]
      exact (overwrite_overwrite (by omega)).symm
  · rw [total]
    rfl

/-- `Encode` returns only when the string fits. -/
theorem Stores.fits_of_encode (stores : Stores coded kept) {opLen : Int32} {buffer buffer' : Text}
    (size : buffer.length = maxEncodeSize) {length : Nat}
    (run : encode coded maxEncodeSize opLen buffer = .ok length buffer') :
    Fits coded kept opLen := by
  have lower : -2 ^ 31 ≤ opLen.toInt := opLen.le_toInt
  have whole : maxEncodeSize = 512 := rfl
  rw [whole] at size
  unfold encode at run
  obtain ⟨_, first, copied, run⟩ := bind_eq_ok.mp run
  obtain ⟨codeFits, rfl⟩ := memcpyS_eq_ok.mp copied
  obtain ⟨_, second, stored, run⟩ := bind_eq_ok.mp run
  obtain ⟨digitFits, rfl⟩ := storeChar_eq_ok.mp stored
  obtain ⟨_, third, copied, run⟩ := bind_eq_ok.mp run
  obtain ⟨lettersFit, rfl⟩ := memcpyS_eq_ok.mp copied
  obtain ⟨_, fourth, stored, run⟩ := bind_eq_ok.mp run
  obtain ⟨endFits, -⟩ := storeChar_eq_ok.mp stored
  have natural : 0 ≤ opLen.toInt := by
    by_contra negative
    have wrapped : 20 < (min opLen.toInt (coded.opCodeLen : Int) % 2 ^ 64).toNat := by
      omega
    have array : coded.opCode.length = 20 := stores.size
    simp only [List.length_drop] at lettersFit
    omega
  refine ⟨natural, ?_⟩
  obtain ⟨count, -⟩ := stores.copy_count natural
  rw [count] at lettersFit endFits
  have inside : (coded.fs.files 0).encodeSize ≤ 511 := by
    cases codeFits with
    | inl empty => omega
    | inr fits =>
      have room := fits.1
      rw [whole, sizeSub] at room
      omega
  have code : ((coded.fs.files 0).encode.take (coded.fs.files 0).encodeSize).length ≤ 511 :=
    (List.length_take_le _ _).trans inside
  have firstSize : (overwrite buffer 0
      ((coded.fs.files 0).encode.take (coded.fs.files 0).encodeSize)).length = 512 := by
    rw [length_overwrite (by omega), size]
  have secondSize : (overwrite (overwrite buffer 0
      ((coded.fs.files 0).encode.take (coded.fs.files 0).encodeSize))
      (coded.fs.files 0).encodeSize [resetDigit coded.fs]).length = 512 := by
    rw [length_overwrite (by rw [firstSize, List.length_singleton]; omega), firstSize]
  rw [secondSize] at lettersFit
  have short := List.length_take_le (min opLen.toInt.toNat kept.length)
    (coded.opCode.drop (coded.opCodeLen - min opLen.toInt coded.opCodeLen).toNat)
  rw [length_overwrite (by rw [secondSize]; omega), secondSize] at endFits
  exact endFits

/-! ## Runs of operations on a chain of states -/

/-- The states of a chain, the newest first, each with the letters of the operations that led to
it, and the letters of all operations that have been executed. -/
inductive ChainRun : List (CodedFs × Text) → Text → Prop where
  /-- A new reference, over memory with any contents. `m_op_code_len` is zero by its member
  initializer; `Initialize` does not reset it. -/
  | start (fs : ReferenceFs) (garbage : Text) (size : garbage.length = opCodeSize) :
    ChainRun [({ fs := fs.initialized, opCode := garbage, opCodeLen := 0 }, [])] []
  /-- An operation on a copy of the newest state, whatever calls it consists of. -/
  | operates {coded coded' : CodedFs} {kept executed : Text} {chain : List (CodedFs × Text)}
    {fs' : ReferenceFs} (op : OpCode) (before : ChainRun ((coded, kept) :: chain) executed)
    (calls : Run (fun _ _ => True) coded.fs fs')
    (appended : encodingAppendOp op { coded with fs := fs' } = .ok () coded') :
    ChainRun ((coded', kept ++ op.letter.toList) :: (coded, kept) :: chain)
      (executed ++ op.letter.toList)
  /-- A recovery that goes back to some state of the chain; its operation has no letter. -/
  | recovers {coded older : CodedFs} {kept olderKept executed : Text}
    {chain : List (CodedFs × Text)} (before : ChainRun ((coded, kept) :: chain) executed)
    (found : (older, olderKept) ∈ (coded, kept) :: chain) :
    ChainRun (({ older with fs := older.fs.demount }, olderKept) :: (coded, kept) :: chain) executed

/-- Calls keep the codes legible. -/
theorem Legible.run {fs' : ReferenceFs} (legible : Legible fs)
    (run : Run (fun _ _ => True) fs fs') : Legible fs' := by
  induction run with
  | start => exact legible
  | returns call _ _ does ih =>
    have ends := ih.call call
    unfold Ends at ends
    rwa [does] at ends
  | throws call _ _ does ih =>
    have ends := ih.call call
    unfold Ends at ends
    rwa [does] at ends

/-- Letters are not terminators. -/
theorem OpCode.plain_letter (op : OpCode) : '\x00' ∉ op.letter.toList := by
  cases op <;> decide

/-- `EncodingAppendOp` returns exactly when it has nothing to append or finds room, and then the
history has the letter. -/
theorem Stores.append (stores : Stores coded kept) (op : OpCode) :
    ((∃ coded', encodingAppendOp op coded = .ok () coded') ↔
      op.letter = none ∨ kept.length < opCodeSize) ∧
    ∀ coded', encodingAppendOp op coded = .ok () coded' →
      coded'.fs = coded.fs ∧ Stores coded' (kept ++ op.letter.toList) := by
  unfold encodingAppendOp
  cases letter : op.letter with
  | none =>
    refine ⟨iff_of_true ⟨coded, rfl⟩ (.inl rfl), ?_⟩
    rintro coded' ⟨⟩
    rw [Option.toList_none, List.append_nil]
    exact ⟨rfl, stores⟩
  | some code =>
    dsimp only
    rw [get_bind_apply]
    simp only [throwIf_bind_eq_ok, stores.size, stores.length, reduceCtorEq, false_or, Nat.not_le]
    refine ⟨⟨fun ⟨_, room, _⟩ => room, fun room => ⟨_, room, rfl⟩⟩, ?_⟩
    rintro coded' ⟨room, ⟨⟩⟩
    refine ⟨rfl, ?_, ?_, ?_, ?_⟩
    · exact (List.length_set ..).trans stores.size
    · show (kept.length + 1) % 2 ^ 8 = (kept ++ [code]).length
      rw [List.length_append, List.length_singleton]
      exact Nat.mod_eq_of_lt (by unfold opCodeSize at room; omega)
    · rw [Option.toList_some, List.length_append, List.length_singleton]
      exact room
    · show (coded.opCode.set kept.length code).take (kept ++ [code]).length = kept ++ [code]
      rw [List.length_append, List.length_singleton,
        set_eq_overwrite (by rw [stores.size]; exact room), overwrite]
      rw [stores.letters]
      apply List.take_left'
      rw [List.length_append, List.length_singleton]

/-- What holds of every state of a chain. -/
structure Chained (coded : CodedFs) (kept : Text) : Prop where
  /-- The codes. -/
  legible : Legible coded.fs
  /-- The history. -/
  stores : Stores coded kept
  /-- The letters. -/
  plain : '\x00' ∉ kept

/-- Every state of a chain keeps its history, and the letters are no terminators. -/
theorem ChainRun.chained {chain : List (CodedFs × Text)} {executed : Text}
    (run : ChainRun chain executed) :
    (∀ state ∈ chain, Chained state.1 state.2) ∧ '\x00' ∉ executed := by
  induction run with
  | start fs garbage size =>
    refine ⟨?_, List.not_mem_nil⟩
    intro state member
    obtain rfl := List.mem_singleton.mp member
    exact
      { legible := legible_initialized fs
        stores := ⟨size, rfl, Nat.zero_le _, List.take_zero⟩
        plain := List.not_mem_nil }
  | @operates coded coded' kept executed chain fs' op before calls appended ih =>
    have newest := ih.1 _ List.mem_cons_self
    have stores : Stores { coded with fs := fs' } kept :=
      ⟨newest.stores.size, newest.stores.length, newest.stores.fits, newest.stores.letters⟩
    obtain ⟨same, stores'⟩ := (stores.append op).2 coded' appended
    refine ⟨?_, ?_⟩
    · intro state member
      cases member with
      | head =>
        exact
          { legible := by
              rw [same]
              exact newest.legible.run calls
            stores := stores'
            plain := by
              rw [List.mem_append]
              exact not_or.mpr ⟨newest.plain, op.plain_letter⟩ }
      | tail _ member => exact ih.1 state member
    · rw [List.mem_append]
      exact not_or.mpr ⟨ih.2, op.plain_letter⟩
  | @recovers coded older kept olderKept executed chain before found ih =>
    refine ⟨?_, ih.2⟩
    intro state member
    cases member with
    | head =>
      have state := ih.1 _ found
      exact
        { legible := state.legible.demount
          stores := ⟨state.stores.size, state.stores.length, state.stores.fits,
            state.stores.letters⟩
          plain := state.plain }
    | tail _ member => exact ih.1 state member

/-- The reset counter is printed as a digit. -/
theorem Legible.isDigit_resetDigit (legible : Legible fs) :
    (resetDigit fs).isDigit ∧ resetDigit fs ≠ '\x00' := by
  have few : fs.resetCount < 3 := Nat.lt_succ_of_le legible.resets
  have digits : ∀ count < 3, (Char.ofNat ((count + '0'.toNat) % 2 ^ 8)).isDigit ∧
      Char.ofNat ((count + '0'.toNat) % 2 ^ 8) ≠ '\x00' := by decide
  exact digits fs.resetCount few

/-- The string contains no terminator. -/
theorem Chained.plain_historyString (chained : Chained coded kept) {codes : Text}
    (plain : '\x00' ∉ codes) (opLen : Int32) : '\x00' ∉ historyString coded codes opLen := by
  rw [historyString, List.mem_append, List.mem_cons, not_or, not_or]
  exact ⟨(chained.legible.files 0).2, chained.legible.isDigit_resetDigit.2.symm,
    fun member => plain (List.mem_of_mem_drop member)⟩

/-- The string in front of its terminator. -/
theorem takeWhile_terminated {text rest : Text} (plain : '\x00' ∉ text) :
    (text ++ '\x00' :: rest).takeWhile (· ≠ '\x00') = text := by
  rw [List.takeWhile_append_of_pos fun char member => by
    rw [decide_eq_true_eq]
    rintro rfl
    exact plain member]
  simp

/-- Two strings with their terminators and what stands behind them. -/
theorem eq_of_terminated {first second rest rest' : Text} (plain : '\x00' ∉ first)
    (plain' : '\x00' ∉ second) (same : first ++ '\x00' :: rest = second ++ '\x00' :: rest') :
    first = second ∧ rest = rest' := by
  have strings := congrArg (List.takeWhile (· ≠ '\x00')) same
  rw [takeWhile_terminated plain, takeWhile_terminated plain'] at strings
  subst strings
  exact ⟨rfl, (List.cons.inj (List.append_cancel_left same)).2⟩

/-- In every state of every run, `EncodingAppendOp` stays in its array if and only if fewer than
twenty letters are stored or there is none to store, and `Encode` gives the string of the
operations executed so far, inside the buffer, if and only if that many letters can be asked for,
the string fits, and the recoveries have not taken back one of the last letters. -/
theorem opHistory_exact_iff {chain : List (CodedFs × Text)} {executed : Text}
    (run : ChainRun ((coded, kept) :: chain) executed) :
    (∀ op, (∃ coded', encodingAppendOp op coded = .ok () coded') ↔
      op.letter = none ∨ kept.length < opCodeSize) ∧
    ∀ (opLen : Int32) (buffer : Text), buffer.length = maxEncodeSize →
      (EncodesTo coded executed opLen buffer ↔ Fits coded kept opLen ∧
        lastCodes opLen.toInt.toNat kept = lastCodes opLen.toInt.toNat executed) := by
  obtain ⟨states, plain⟩ := run.chained
  have chained : Chained coded kept := states _ List.mem_cons_self
  have sized := (chained.legible.files 0).1
  refine ⟨fun op => (chained.stores.append op).1, fun opLen buffer size => ?_⟩
  constructor
  · rintro ⟨-, -, -, runs⟩
    have fits := chained.stores.fits_of_encode size runs
    refine ⟨fits, ?_⟩
    rw [chained.stores.encode_of_fits sized fits size, overwrite_zero, List.append_assoc] at runs
    have same := (EStateM.Result.ok.inj runs).2
    have strings := (eq_of_terminated (chained.plain_historyString chained.plain opLen)
      (chained.plain_historyString plain opLen) same).1
    exact (List.cons.inj (List.append_cancel_left strings)).2
  · rintro ⟨fits, same⟩
    have strings : historyString coded executed opLen = historyString coded kept opLen := by
      unfold historyString
      rw [same]
    have length := length_historyString sized kept opLen
    have room := fits.2
    rw [EncodesTo, strings]
    refine ⟨by omega, chained.plain_historyString chained.plain opLen,
      chained.legible.isDigit_resetDigit.1, ?_⟩
    rw [chained.stores.encode_of_fits sized fits size, overwrite_zero, List.append_assoc,
      List.length_append]
    rfl

/-- A chain of one operation. -/
theorem opHistory_exact_iff_create :
    ∃ coded chain, ChainRun ((coded, ['F']) :: chain) ['F'] ∧
      EncodesTo coded ['F'] 3 (List.replicate maxEncodeSize 'x') := by
  have run := ChainRun.operates .fileCreate
    (.start ReferenceFs.zero (List.replicate opCodeSize 'x') List.length_replicate) .start rfl
  refine ⟨_, _, run, ?_⟩
  apply ((opHistory_exact_iff run).2 3 _ List.length_replicate).mpr
  exact ⟨⟨by decide, by decide⟩, rfl⟩

/-- A chain of operations that create files, as far as the array allows. -/
theorem chainRun_creates (count : Nat) (few : count ≤ opCodeSize) :
    ∃ coded chain, ChainRun ((coded, List.replicate count 'F') :: chain)
      (List.replicate count 'F') := by
  induction count with
  | zero =>
    exact ⟨_, _, .start ReferenceFs.zero (List.replicate opCodeSize '\x00') List.length_replicate⟩
  | succ count ih =>
    obtain ⟨coded, chain, run⟩ := ih (by omega)
    have chained := run.chained.1 _ List.mem_cons_self
    obtain ⟨coded', appended⟩ := (chained.stores.append .fileCreate).1.mpr
      (.inr (by rw [List.length_replicate]; omega))
    have next := ChainRun.operates .fileCreate run .start appended
    rw [List.replicate_succ']
    exact ⟨_, _, next⟩

/-- The twenty-first operation that has a letter is written behind the array. -/
theorem opHistory_overflows :
    ∃ coded kept chain executed, ChainRun ((coded, kept) :: chain) executed ∧
      ¬∃ coded', encodingAppendOp .fileCreate coded = .ok () coded' := by
  obtain ⟨coded, chain, run⟩ := chainRun_creates opCodeSize (Nat.le_refl _)
  have chained : Chained coded (List.replicate opCodeSize 'F') :=
    run.chained.1 _ List.mem_cons_self
  refine ⟨coded, _, chain, _, run, ?_⟩
  rw [(chained.stores.append .fileCreate).1, List.length_replicate]
  decide

end FsChecking.RefFs
