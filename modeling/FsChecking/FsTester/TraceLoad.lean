import FsChecking.FsTester.TraceNames

/-!
# Loading traces

`LoadTrace` reads a trace file into the buffer that all trace files share, splits it into lines and
the lines into fields, and turns every line behind the header into an entry of the trace.
`Config` loads the traces one after another.
-/

namespace FsChecking.FsTester

open Lib

/-! ## Numbers -/

/-- What `isspace` accepts. -/
def isSpace (letter : Char) : Bool :=
  letter == ' ' || (9 ≤ letter.toNat && letter.toNat ≤ 13)

/-- What `isdigit` accepts. -/
def isDigit (letter : Char) : Bool := 48 ≤ letter.toNat && letter.toNat ≤ 57

/-- The value of digits. -/
def digitsValue (digits : Text) : Nat :=
  digits.foldl (fun value letter => 10 * value + (letter.toNat - 48)) 0

/-- The number that a text begins with. -/
def numberOf (text : Text) : Int :=
  match text.dropWhile isSpace with
  | '-' :: digits => - (digitsValue (digits.takeWhile isDigit) : Int)
  | '+' :: digits => digitsValue (digits.takeWhile isDigit)
  | digits => digitsValue (digits.takeWhile isDigit)

/-- A number in the range of a signed type of a width, and there as an unsigned one. -/
def saturated (width : Nat) (value : Int) : Nat :=
  (max (-2 ^ (width - 1)) (min value (2 ^ (width - 1) - 1)) % 2 ^ width).toNat

/-- `_atoi64`, stored in 64 bits. -/
def atoi64 (text : Text) : Nat := saturated 64 (numberOf text)

/-- `atoi`, stored in a `DWORD`. -/
def atoi (text : Text) : Nat := saturated 32 (numberOf text)

/-! ## Fields -/

/-- How loading ends early. -/
inductive LoadFault where
  /-- An exception is thrown. -/
  | thrown
  /-- Memory is read that does not belong to the field. -/
  | undefined
  deriving DecidableEq

/-- `StringToOpCode`. -/
def stringToOpCode (text : Text) : Option OpCode :=
  if text = "Thread Create".toList then some .threadCreate
  else if text = "Thread Exit".toList then some .threadExit
  else if text = "CreateFile".toList then some .fileCreate
  else if text = "CloseFile".toList then some .fileClose
  else if text = "ReadFile".toList then some .fileRead
  else if text = "WriteFile".toList then some .fileWrite
  else if text = "FlushBuffersFile".toList then some .fileFlush
  else none

/-- `PATH_PREFIX`. -/
def pathPrefix : Nat := 44

/-- A line that is being read: the entry, `mode`, the tester, and `m_max_buf_size` of the trace. -/
structure Row where
  /-- `op`. -/
  op : TraceEntry
  /-- `mode`. -/
  mode : OpCode
  /-- The tester. -/
  tester : TraceTester
  /-- `m_max_buf_size`. -/
  maxBufSize : Nat

/-- An operation on an offset and a length. -/
abbrev OpCode.Transfers (code : OpCode) : Prop := code = .fileRead ∨ code = .fileWrite

/-- An operation on a thread. -/
abbrev OpCode.OnThread (code : OpCode) : Prop := code = .threadCreate ∨ code = .threadExit

/-- `NewFileInfo`. -/
def newFileInfo (op : TraceEntry) (tester : TraceTester) : Nat × TraceTester :=
  findOrNewFile op.filePath op.isDir tester

/-- The string that begins `PATH_PREFIX` characters behind the beginning of a field. Behind the field
there are two terminators, in the places of the quote and of the comma, and then the rest of the file
buffer; nothing when no string ends in it. -/
def pathText (value behind : Text) : Option Text :=
  let memory := (value ++ Char.ofNat 0 :: Char.ofNat 0 :: behind).drop pathPrefix
  if Char.ofNat 0 ∈ memory then some (memory.takeWhile fun letter => letter ≠ Char.ofNat 0)
  else none

/-- The `switch` of `LoadTrace`: a field by its place in the line, and what the file buffer holds
behind its terminators. `decode` is `Utf8ToUnicode`. -/
def readField (decode : Text → Text) (fieldSn : Nat) (value behind : Text) (row : Row) :
    Except LoadFault Row :=
  match fieldSn with
  | 0 => .ok { row with op := { row.op with ts := atoi64 value } }
  | 1 =>
    match stringToOpCode value with
    | some code => .ok { row with op := { row.op with opCode := code } }
    | none => .error .thrown
  | 2 =>
    if value = [] then .ok row
    else
      match pathText value behind with
      | none => .error .undefined
      | some path =>
        let op := { row.op with filePath := decode path }
        let found := newFileInfo op row.tester
        .ok { row with op := { op with fid := found.1 }, tester := found.2 }
  | 4 => .ok { row with op := { row.op with threadId := atoi value } }
  | 5 =>
    if row.op.opCode.Transfers then .ok { row with op := { row.op with offset := atoi64 value } }
    else if row.op.opCode = .fileCreate then
      .ok { row with mode :=
        if value = "Open".toList then .fileOpen
        else if value = "Create".toList then .fileCreate
        else if value = "Overwrite".toList then .fileOverwrite
        else if value = "Delete".toList then .fileDelete
        else row.mode }
    else if row.op.opCode.OnThread then
      .ok { row with op := { row.op with newThreadId := atoi value } }
    else .ok row
  | 6 =>
    if row.op.opCode.Transfers then
      let length := atoi64 value
      .ok { row with
        op := { row.op with length := length }
        maxBufSize := if row.maxBufSize < length then length else row.maxBufSize }
    else if row.op.opCode = .fileCreate then
      .ok { row with op := { row.op with isDir := decide (value.head? = some 'T') } }
    else .ok row
  | 7 =>
    if row.op.opCode = .fileCreate then
      .ok { row with op := { row.op with isAsync := decide (value.head? ≠ some 'T') } }
    else .ok row
  | _ => .ok row

/-- The loop over the fields of a line. -/
def readFields (decode : Text → Text) : Nat → List (Text × Text) → Row → Except LoadFault Row
  | _, [], row => .ok row
  | fieldSn, (value, behind) :: values, row => do
    let row ← readField decode fieldSn value behind row
    readFields decode (fieldSn + 1) values row

/-! ## Lines -/

/-- What `CreateFile` becomes by its mode. -/
def TraceEntry.withMode (op : TraceEntry) (mode : OpCode) : TraceEntry :=
  if op.opCode = .fileCreate then
    if mode = .fileOpen then { op with opCode := .fileOpen }
    else if mode = .fileDelete then { op with opCode := .fileDelete }
    else if mode = .fileOverwrite then { op with opCode := .fileOverwrite }
    else op
  else op

/-- The end of a transfer, in a `size_t`. -/
def TraceEntry.stop (op : TraceEntry) : Nat := (op.offset + op.length) % 2 ^ 64

/-- An entry with one more transfer, in `UINT64`s. -/
def FileAccessInfo.withAccess (info : FileAccessInfo) (op : TraceEntry) : FileAccessInfo :=
  let info := if info.maxLength < op.stop then { info with maxLength := op.stop } else info
  if op.opCode = .fileRead then
    { info with totalRead := (info.totalRead + op.length) % 2 ^ 64 }
  else { info with totalWrite := (info.totalWrite + op.length) % 2 ^ 64 }

/-- `CalculateFileAccess`. -/
def calculateFileAccess (op : TraceEntry) (tester : TraceTester) : Except LoadFault TraceTester :=
  if op.fid < tester.fileAccess.length then
    if op.opCode.Transfers then
      .ok { tester with
        fileAccess := tester.fileAccess.modify op.fid fun info => info.withAccess op }
    else .error .thrown
  else .error .thrown

/-- The fields of a line, without the first and the last character, and what stands behind their
terminators: the rest of the line, which has not been split yet, its terminator and what follows. -/
def fieldValues (line after : Text) : List (Text × Text) :=
  (placedTokens (fun letter => letter == ',') line).map fun token =>
    (token.2.dropLast.tail, (line ++ Char.ofNat 0 :: after).drop (token.1 + token.2.length + 1))

/-- A trace with one more entry. -/
def TraceTester.withEntry (tester : TraceTester) (tid : Nat) (op : TraceEntry) (maxBufSize : Nat) :
    TraceTester :=
  { tester with traces := tester.traces.modify tid fun trace =>
      { trace with trace := trace.trace ++ [op], maxBufSize := maxBufSize } }

/-- The rest of the loop over the lines, behind the fields of a line. -/
def finishRow (tid : Nat) (row : Row) : Except LoadFault TraceTester := do
  let op := row.op.withMode row.mode
  let tester ←
    if op.opCode.Transfers then calculateFileAccess op row.tester else .ok row.tester
  .ok (tester.withEntry tid op row.maxBufSize)

/-- A line before its first field. -/
def startRow (tid : Nat) (tester : TraceTester) : Row :=
  { op := {}, mode := .nop, tester, maxBufSize := (tester.traces.getD tid {}).maxBufSize }

/-- A line of a trace, by its fields. -/
def loadRow (decode : Text → Text) (tid : Nat) (values : List (Text × Text))
    (tester : TraceTester) : Except LoadFault TraceTester := do
  let row ← readFields decode 0 values (startRow tid tester)
  finishRow tid row

/-- The loop over the lines of a file buffer. -/
def loadLines (decode : Text → Text) (tid bufEnd : Nat) (memory : Text) :
    List (Nat × Text) → TraceTester → Except LoadFault TraceTester
  | [], tester => .ok tester
  | (place, line) :: lines, tester =>
    if bufEnd ≤ place then .ok tester
    else do
      let tester ← loadRow decode tid
        (fieldValues line (memory.drop (place + line.length + 1))) tester
      loadLines decode tid bufEnd memory lines tester

/-- The search for the header: the lines behind it. -/
def skipHeader : List (Nat × Text) → Option (List (Nat × Text))
  | [] => none
  | (_, line) :: lines =>
    match line with
    | [] => skipHeader lines
    | letter :: _ => if letter = '#' then skipHeader lines else some lines

/-- `m_file_buf_size`. -/
def traceBufSize : Nat := 128 * 1024 * 1024

/-- The ends of lines. -/
def endsLine (letter : Char) : Bool := letter == '\r' || letter == '\n'

/-- A trace of a configuration: the file, the thread, and what the file buffer holds behind the data
of the file. -/
structure TraceSource where
  /-- `fn`. -/
  fn : Text
  /-- `tid`. -/
  thread : Nat
  /-- The rest of the file buffer. -/
  stale : Text

/-- `tid - 1`, in a `UINT`. -/
def TraceSource.tid (source : TraceSource) : Nat := dword (source.thread + (2 ^ 32 - 1))

/-- `LoadTrace`, with the contents of the files. -/
def loadTrace (decode : Text → Text) (files : Text → Option Text) (fn : Text) (tid : Nat)
    (stale : Text) (tester : TraceTester) : Except LoadFault TraceTester :=
  match files fn with
  | none => .error .thrown
  | some content =>
    let data := content.take traceBufSize
    let memory := data ++ stale
    let buffer := memory.takeWhile fun letter => letter ≠ Char.ofNat 0
    match skipHeader (placedTokens endsLine buffer).tail with
    | none => .error .undefined
    | some lines =>
      let traces := if tester.traces.length ≤ tid then tester.traces ++ [({} : TraceInfo)]
        else tester.traces
      if tid < traces.length then
        loadLines decode tid data.length memory lines
          { tester with traces := traces.modify tid fun trace => { trace with traceFn := fn } }
      else .error .thrown

/-- The loop of `Config` over the traces; threads are counted from one. -/
def loadTraces (decode : Text → Text) (files : Text → Option Text) :
    List TraceSource → TraceTester → Except LoadFault TraceTester
  | [], tester => .ok tester
  | source :: sources, tester => do
    let tester ← loadTrace decode files source.fn source.tid source.stale tester
    loadTraces decode files sources tester

/-- `Config`. -/
def config (decode : Text → Text) (files : Text → Option Text) (sources : List TraceSource) :
    Except LoadFault TraceTester :=
  loadTraces decode files sources .withRoot

/-! ## What a field leaves -/

section Rows

variable {decode : Text → Text} {tester tester' start : TraceTester} {row row' : Row}
  {fieldSn tid : Nat} {value behind : Text} {values : List (Text × Text)} {op : TraceEntry}
  {asked : Text → Prop} {busy : Option Nat}

/-- A field that is not the path leaves the names alone. -/
theorem readField_other (notPath : fieldSn ≠ 2)
    (read : readField decode fieldSn value behind row = .ok row') :
    row'.tester = row.tester ∧ row'.op.fid = row.op.fid ∧ row'.op.filePath = row.op.filePath ∧
      (fieldSn ≠ 6 → row'.op.isDir = row.op.isDir) := by
  unfold readField at read
  split at read
  case h_3 => exact absurd rfl notPath
  case h_2 =>
    cases known : stringToOpCode value with
    | none =>
      rw [known] at read
      cases read
    | some code =>
      rw [known] at read
      cases read
      exact ⟨rfl, rfl, rfl, fun _ => rfl⟩
  case h_6 =>
    refine ⟨?_, ?_, ?_, fun other => absurd rfl other⟩ <;> (repeat' split at read) <;> cases read <;>
      rfl
  all_goals
    refine ⟨?_, ?_, ?_, fun _ => ?_⟩ <;> (repeat' split at read) <;> cases read <;> rfl

/-- The path. -/
theorem readField_path (read : readField decode 2 value behind row = .ok row') :
    row' = row ∨ ∃ path, row' = { row with
      op := { row.op with
        filePath := path, fid := (findOrNewFile path row.op.isDir row.tester).1 }
      tester := (findOrNewFile path row.op.isDir row.tester).2 } := by
  unfold readField at read
  dsimp only at read
  by_cases none : value = []
  · rw [if_pos none] at read
    exact .inl (Except.ok.inj read).symm
  · rw [if_neg none] at read
    cases path : pathText value behind with
    | none =>
      rw [path] at read
      cases read
    | some path =>
      rw [path] at read
      exact .inr ⟨_, (Except.ok.inj read).symm⟩

/-- A field never takes entries away. -/
theorem length_readField (read : readField decode fieldSn value behind row = .ok row') :
    row.tester.fileAccess.length ≤ row'.tester.fileAccess.length := by
  by_cases isPath : fieldSn = 2
  · subst isPath
    rcases readField_path read with rfl | ⟨path, rfl⟩
    · exact Nat.le_refl _
    · exact length_findOrNewFile path row.op.isDir row.tester
  · rw [(readField_other isPath read).1]

/-- The fields never take entries away. -/
theorem length_readFields (read : readFields decode fieldSn values row = .ok row') :
    row.tester.fileAccess.length ≤ row'.tester.fileAccess.length := by
  induction values generalizing fieldSn row with
  | nil =>
    cases read
    exact Nat.le_refl _
  | cons value values ih =>
    rw [readFields] at read
    cases first : readField decode fieldSn value.1 value.2 row with
    | error fault =>
      rw [first] at read
      cases read
    | ok middle =>
      rw [first] at read
      exact (length_readField first).trans (ih read)

/-- A line that is being read, from a tester on and in front of a field. -/
structure Reading (asked : Text → Prop) (start : TraceTester) (fieldSn : Nat) (row : Row) :
    Prop where
  /-- Entries have been added. -/
  grown : Grown start row.tester
  /-- They fit the paths. -/
  sound : Sound (fun path => asked path ∨ (row.op.fid ≠ 0 ∧ path = row.op.filePath)) none row.tester
  /-- The entry has the number of its path. -/
  placed : (row.op.fid = 0 ∧ row.op.filePath = []) ∨
    row.tester.pathMap row.op.filePath = some row.op.fid
  /-- The path has not been read yet. -/
  unplaced : fieldSn ≤ 2 → row.op.fid = 0 ∧ row.op.filePath = []
  /-- The mark of directories has not been read yet. -/
  plain : fieldSn ≤ 6 → row.op.isDir = false

/-- What is asked for may be said in another way. -/
theorem Sound.rephrase {asked' : Text → Prop} (sound : Sound asked busy tester)
    (same : ∀ path, asked' path ↔ asked path) : Sound asked' busy tester := by
  obtain rfl : asked' = asked := funext fun path => propext (same path)
  exact sound

/-- One field. -/
theorem Reading.field (reading : Reading asked start fieldSn row)
    (read : readField decode fieldSn value behind row = .ok row')
    (few : row'.tester.fileAccess.length < 2 ^ 32) : Reading asked start (fieldSn + 1) row' := by
  by_cases isPath : fieldSn = 2
  · subst isPath
    rcases readField_path read with rfl | ⟨path, rfl⟩
    · exact { reading with
        unplaced := fun late => absurd late (by decide)
        plain := fun _ => reading.plain (by decide) }
    · have plain := reading.plain (by decide)
      obtain ⟨noFid, noPath⟩ := reading.unplaced (by decide)
      have sound : Sound asked none row.tester := reading.sound.rephrase fun path =>
        (or_iff_left fun here => here.1 noFid).symm
      obtain ⟨busy, -, idle, soundAfter, found, grown⟩ := findOrNewFile_spec sound few
      obtain rfl := idle plain
      refine ⟨reading.grown.trans grown, soundAfter.rephrase fun other => ?_, .inr found,
        fun late => absurd late (by decide), fun _ => plain⟩
      have present : (findOrNewFile path row.op.isDir row.tester).1 ≠ 0 :=
        Nat.ne_of_gt ((soundAfter.found_iff _ _).mp found).1
      exact or_congr_right (and_iff_right present)
  · obtain ⟨sameTester, sameFid, samePath, sameMark⟩ := readField_other isPath read
    refine ⟨?_, ?_, ?_, ?_, ?_⟩
    · rw [sameTester]
      exact reading.grown
    · rw [sameTester, sameFid, samePath]
      exact reading.sound
    · rw [sameTester, sameFid, samePath]
      exact reading.placed
    · intro early
      rw [sameFid, samePath]
      exact reading.unplaced (Nat.le_of_succ_le early)
    · intro early
      rw [sameMark (by omega)]
      exact reading.plain (Nat.le_of_succ_le early)

/-- All fields. -/
theorem Reading.fields (reading : Reading asked start fieldSn row)
    (read : readFields decode fieldSn values row = .ok row')
    (few : row'.tester.fileAccess.length < 2 ^ 32) :
    Reading asked start (fieldSn + values.length) row' := by
  induction values generalizing fieldSn row with
  | nil =>
    cases read
    exact reading
  | cons value values ih =>
    rw [readFields] at read
    cases first : readField decode fieldSn value.1 value.2 row with
    | error fault =>
      rw [first] at read
      cases read
    | ok middle =>
      rw [first] at read
      have fewMiddle := Nat.lt_of_le_of_lt (length_readFields read) few
      have rest := ih (reading.field first fewMiddle) read
      rw [List.length_cons, Nat.add_comm values.length, ← Nat.add_assoc]
      exact rest

/-! ## What a line leaves -/

/-- The entries of all traces. -/
def TraceTester.entries (tester : TraceTester) : List TraceEntry :=
  tester.traces.flatMap TraceInfo.trace

/-- A path that an entry has brought. -/
def AskedFor (tester : TraceTester) (path : Text) : Prop :=
  ∃ op ∈ tester.entries, op.fid ≠ 0 ∧ op.filePath = path

/-- A tester with traces: the entries of the files fit the entries of the traces. -/
structure Loaded (tester : TraceTester) : Prop where
  /-- The names are those of the traces. -/
  sound : Sound (AskedFor tester) none tester
  /-- An operation has the number of its path. -/
  placed : ∀ op ∈ tester.entries,
    (op.fid = 0 ∧ op.filePath = []) ∨ tester.pathMap op.filePath = some op.fid
  /-- A file is as long as every transfer needs. -/
  reached : ∀ op ∈ tester.entries, op.opCode.Transfers →
    op.stop ≤ (tester.info op.fid).maxLength
  /-- A file is not longer. -/
  needed : ∀ fid, (tester.info fid).maxLength = 0 ∨ ∃ op ∈ tester.entries,
    op.opCode.Transfers ∧ op.fid = fid ∧ op.stop = (tester.info fid).maxLength

/-- Before the first trace. -/
theorem loaded_withRoot : Loaded .withRoot where
  sound := sound_withRoot.rephrase fun path =>
    iff_of_false (by rintro ⟨op, none, -⟩; cases none) id
  placed op member := by cases member
  reached op member := by cases member
  needed fid := by
    apply Or.inl
    obtain _ | _ | fid := fid <;> rfl

/-- What the names need of an entry. -/
structure SameNode (info info' : FileAccessInfo) : Prop where
  /-- The number. -/
  fid : info'.fid = info.fid
  /-- The number of the parent. -/
  parentFid : info'.parentFid = info.parentFid
  /-- The name. -/
  fileName : info'.fileName = info.fileName
  /-- The number of children. -/
  childNr : info'.childNr = info.childNr
  /-- Whether it is a directory. -/
  isDir : info'.isDir = info.isDir
  /-- The revision. -/
  revision : info'.revision = info.revision

/-- Entries may be read and written without a change of the names. -/
theorem Sound.congr (sound : Sound asked busy tester) (tester' : TraceTester)
    (maxFid : tester'.maxFid = tester.maxFid)
    (length : tester'.fileAccess.length = tester.fileAccess.length)
    (pathMap : tester'.pathMap = tester.pathMap)
    (same : ∀ fid, SameNode (tester.info fid) (tester'.info fid)) : Sound asked busy tester' := by
  have children : ∀ fid, tester'.children fid = tester.children fid := by
    intro fid
    unfold TraceTester.children
    simp only [maxFid, (same _).parentFid]
  constructor <;> intros <;>
    simp only [maxFid, length, pathMap, (same _).fid, (same _).parentFid, (same _).fileName,
      (same _).childNr, (same _).isDir, (same _).revision, children] at *
  · exact sound.length
  · exact sound.found_iff _ _
  · exact sound.root
  · exact sound.named _
  · exact sound.dummy
  · exact sound.numbered _ ‹_›
  · exact sound.parent _ ‹_› ‹_›
  · exact sound.older _ ‹_› ‹_›
  · exact sound.top
  · exact sound.counted _ ‹_› ‹_›
  · exact sound.directory _ ‹_› ‹_›
  · exact sound.revision _

/-- An entry with one more transfer. -/
theorem sameNode_withAccess (info : FileAccessInfo) (op : TraceEntry) :
    SameNode info (info.withAccess op) ∧
      (info.withAccess op).maxLength = max info.maxLength op.stop := by
  unfold FileAccessInfo.withAccess
  by_cases longer : info.maxLength < op.stop
  · have length : max info.maxLength op.stop = op.stop := Nat.max_eq_right (Nat.le_of_lt longer)
    by_cases reads : op.opCode = .fileRead
    · simp only [if_pos longer, if_pos reads, length]
      exact ⟨⟨rfl, rfl, rfl, rfl, rfl, rfl⟩, trivial⟩
    · simp only [if_pos longer, if_neg reads, length]
      exact ⟨⟨rfl, rfl, rfl, rfl, rfl, rfl⟩, trivial⟩
  · have length : max info.maxLength op.stop = info.maxLength :=
      Nat.max_eq_left (Nat.le_of_not_lt longer)
    by_cases reads : op.opCode = .fileRead
    · simp only [if_neg longer, if_pos reads, length]
      exact ⟨⟨rfl, rfl, rfl, rfl, rfl, rfl⟩, trivial⟩
    · simp only [if_neg longer, if_neg reads, length]
      exact ⟨⟨rfl, rfl, rfl, rfl, rfl, rfl⟩, trivial⟩

/-- The entries after a transfer. -/
theorem calculateFileAccess_spec (counts : calculateFileAccess op tester = .ok tester') :
    op.opCode.Transfers ∧ tester'.traces = tester.traces ∧ tester'.pathMap = tester.pathMap ∧
      tester'.maxFid = tester.maxFid ∧ tester'.fileAccess.length = tester.fileAccess.length ∧
      (∀ fid, SameNode (tester.info fid) (tester'.info fid)) ∧
      ∀ fid, (tester'.info fid).maxLength =
        if fid = op.fid then max (tester.info fid).maxLength op.stop
        else (tester.info fid).maxLength := by
  unfold calculateFileAccess at counts
  by_cases inside : op.fid < tester.fileAccess.length
  case neg =>
    rw [if_neg inside] at counts
    cases counts
  by_cases transfers : op.opCode.Transfers
  case neg =>
    rw [if_pos inside, if_neg transfers] at counts
    cases counts
  rw [if_pos inside, if_pos transfers] at counts
  cases counts
  have infos : ∀ fid, TraceTester.info
      { tester with fileAccess := tester.fileAccess.modify op.fid fun info => info.withAccess op }
      fid = if fid = op.fid then (tester.info fid).withAccess op else tester.info fid := by
    intro fid
    unfold TraceTester.info
    rw [List.getD_eq_getElem?_getD, List.getD_eq_getElem?_getD, List.getElem?_modify]
    by_cases same : fid = op.fid
    · subst same
      simp [List.getElem?_eq_getElem inside]
    · simp [same, Ne.symm same]
  refine ⟨transfers, rfl, rfl, rfl, List.length_modify .., fun fid => ?_, fun fid => ?_⟩
  · rw [infos]
    by_cases same : fid = op.fid
    · rw [if_pos same]
      exact (sameNode_withAccess _ op).1
    · rw [if_neg same]
      exact ⟨rfl, rfl, rfl, rfl, rfl, rfl⟩
  · rw [infos]
    by_cases same : fid = op.fid
    · rw [if_pos same, if_pos same]
      exact (sameNode_withAccess _ op).2
    · rw [if_neg same, if_neg same]

/-- The entries of the traces after one more. -/
theorem mem_entries_withEntry {op' : TraceEntry} {maxBufSize : Nat}
    (inside : tid < tester.traces.length) :
    op' ∈ (tester.withEntry tid op maxBufSize).entries ↔ op' ∈ tester.entries ∨ op' = op := by
  unfold TraceTester.entries TraceTester.withEntry
  dsimp only
  rw [List.modify_eq_take_cons_drop inside, List.flatMap_append, List.flatMap_cons]
  have whole : tester.traces.flatMap TraceInfo.trace =
      (tester.traces.take tid).flatMap TraceInfo.trace ++
        (tester.traces[tid].trace ++ (tester.traces.drop (tid + 1)).flatMap TraceInfo.trace) := by
    rw [← List.flatMap_cons, ← List.flatMap_append, List.getElem_cons_drop, List.take_append_drop]
  rw [whole]
  simp only [List.mem_append, List.mem_singleton]
  constructor
  · rintro (early | (here | new) | late)
    · exact .inl (.inl early)
    · exact .inl (.inr (.inl here))
    · exact .inr new
    · exact .inl (.inr (.inr late))
  · rintro ((early | here | late) | new)
    · exact .inl early
    · exact .inr (.inl (.inl here))
    · exact .inr (.inr late)
    · exact .inr (.inl (.inr new))

/-- The mode changes the operation only. -/
theorem withMode_spec (op : TraceEntry) (mode : OpCode) :
    (op.withMode mode).fid = op.fid ∧ (op.withMode mode).filePath = op.filePath := by
  unfold TraceEntry.withMode
  split_ifs <;> exact ⟨rfl, rfl⟩

/-- The end of a line: its transfer is counted, and it becomes an entry. -/
theorem finishRow_spec (finished : finishRow tid row = .ok tester') :
    ∃ counted : TraceTester,
      tester' = counted.withEntry tid (row.op.withMode row.mode) row.maxBufSize ∧
      counted.traces = row.tester.traces ∧ counted.pathMap = row.tester.pathMap ∧
      counted.maxFid = row.tester.maxFid ∧
      counted.fileAccess.length = row.tester.fileAccess.length ∧
      (∀ fid, SameNode (row.tester.info fid) (counted.info fid)) ∧
      ∀ fid, (counted.info fid).maxLength =
        if (row.op.withMode row.mode).opCode.Transfers ∧ fid = row.op.fid then
          max (row.tester.info fid).maxLength (row.op.withMode row.mode).stop
        else (row.tester.info fid).maxLength := by
  unfold finishRow at finished
  dsimp only at finished
  by_cases transfers : (row.op.withMode row.mode).opCode.Transfers
  · rw [if_pos transfers] at finished
    cases counts : calculateFileAccess (row.op.withMode row.mode) row.tester with
    | error fault =>
      rw [counts] at finished
      cases finished
    | ok counted =>
      rw [counts] at finished
      obtain ⟨-, traces, pathMap, maxFid, length, nodes, lengths⟩ := calculateFileAccess_spec counts
      refine ⟨counted, (Except.ok.inj finished).symm, traces, pathMap, maxFid, length, nodes,
        fun fid => ?_⟩
      rw [lengths, (withMode_spec _ _).1]
      exact if_congr (and_iff_right transfers).symm rfl rfl
  · rw [if_neg transfers] at finished
    refine ⟨row.tester, (Except.ok.inj finished).symm, rfl, rfl, rfl, rfl,
      fun fid => ⟨rfl, rfl, rfl, rfl, rfl, rfl⟩, fun fid => ?_⟩
    rw [if_neg fun both => transfers both.1]

/-- A line that has been read becomes an entry of a tester with traces. -/
theorem Loaded.finish (loaded : Loaded start) (inside : tid < start.traces.length)
    (reading : Reading (AskedFor start) start fieldSn row)
    (finished : finishRow tid row = .ok tester') : Loaded tester' := by
  obtain ⟨counted, rfl, traces, pathMap, maxFid, length, nodes, lengths⟩ := finishRow_spec finished
  obtain ⟨sameFid, samePath⟩ := withMode_spec row.op row.mode
  generalize row.op.withMode row.mode = op at *
  have sameTraces : counted.traces = start.traces := traces.trans reading.grown.traces
  have entries : ∀ op', op' ∈ (counted.withEntry tid op row.maxBufSize).entries ↔
      op' ∈ start.entries ∨ op' = op := by
    intro op'
    rw [mem_entries_withEntry (sameTraces ▸ inside)]
    unfold TraceTester.entries
    rw [sameTraces]
  have longer : ∀ fid, (start.info fid).maxLength ≤ (counted.info fid).maxLength := by
    intro fid
    rw [lengths, ← reading.grown.maxLength]
    by_cases here : op.opCode.Transfers ∧ fid = row.op.fid
    · rw [if_pos here]
      exact Nat.le_max_left _ _
    · rw [if_neg here]
  refine ⟨?_, ?_, ?_, ?_⟩
  · have sound := reading.sound.congr counted maxFid length pathMap nodes
    refine (sound.congr (counted.withEntry tid op row.maxBufSize) rfl rfl rfl
      fun fid => ⟨rfl, rfl, rfl, rfl, rfl, rfl⟩).rephrase fun path => ?_
    unfold AskedFor
    simp only [entries]
    constructor
    · rintro ⟨op', old | rfl, present, rfl⟩
      · exact .inl ⟨op', old, present, rfl⟩
      · exact .inr ⟨sameFid ▸ present, samePath⟩
    · rintro (⟨op', old, present, same⟩ | ⟨present, rfl⟩)
      · exact ⟨op', .inl old, present, same⟩
      · exact ⟨op, .inr rfl, sameFid ▸ present, samePath⟩
  · intro op' member
    show _ ∨ counted.pathMap _ = _
    rw [pathMap]
    rcases (entries op').mp member with old | rfl
    · rcases loaded.placed op' old with none | found
      · exact .inl none
      · exact .inr (reading.grown.found _ _ found)
    · rw [sameFid, samePath]
      exact reading.placed
  · intro op' member transfers
    show op'.stop ≤ (counted.info op'.fid).maxLength
    rcases (entries op').mp member with old | rfl
    · exact (loaded.reached op' old transfers).trans (longer _)
    · rw [lengths, if_pos ⟨transfers, sameFid⟩]
      exact Nat.le_max_right _ _
  · intro fid
    show (counted.info fid).maxLength = 0 ∨ ∃ op', _ ∧ _ ∧ _ ∧ _ = (counted.info fid).maxLength
    have before : (counted.info fid).maxLength = (start.info fid).maxLength →
        (counted.info fid).maxLength = 0 ∨ ∃ op' ∈ (counted.withEntry tid op row.maxBufSize).entries,
          op'.opCode.Transfers ∧ op'.fid = fid ∧ op'.stop = (counted.info fid).maxLength := by
      intro same
      rw [same]
      rcases loaded.needed fid with none | ⟨op', old, needs⟩
      · exact .inl none
      · exact .inr ⟨op', (entries op').mpr (.inl old), needs⟩
    have now := lengths fid
    rw [reading.grown.maxLength] at now
    by_cases here : op.opCode.Transfers ∧ fid = row.op.fid
    · rw [if_pos here] at now
      rcases Nat.le_total op.stop (start.info fid).maxLength with short | long
      · exact before (now.trans (Nat.max_eq_left short))
      · rw [Nat.max_eq_right long] at now
        exact .inr ⟨op, (entries op).mpr (.inr rfl), here.1, sameFid.trans here.2.symm, now.symm⟩
    · rw [if_neg here] at now
      exact before now

/-! ## What a trace leaves -/

/-- The entry of a line begins without a path. -/
theorem Loaded.reading (loaded : Loaded start) (tid : Nat) :
    Reading (AskedFor start) start 0 (startRow tid start) where
  grown := .refl start
  sound := loaded.sound.rephrase fun _ => or_iff_left fun here => here.1 rfl
  placed := .inl ⟨rfl, rfl⟩
  unplaced _ := ⟨rfl, rfl⟩
  plain _ := rfl

/-- A line that loads: its fields, and its end. -/
theorem loadRow_ok (loads : loadRow decode tid values tester = .ok tester') :
    ∃ row, readFields decode 0 values (startRow tid tester) = .ok row ∧
      finishRow tid row = .ok tester' := by
  unfold loadRow at loads
  cases read : readFields decode 0 values (startRow tid tester) with
  | error fault =>
    rw [read] at loads
    cases loads
  | ok row =>
    rw [read] at loads
    exact ⟨row, rfl, loads⟩

/-- A line never takes entries away. -/
theorem length_loadRow (loads : loadRow decode tid values tester = .ok tester') :
    tester.fileAccess.length ≤ tester'.fileAccess.length := by
  obtain ⟨row, read, finished⟩ := loadRow_ok loads
  obtain ⟨counted, rfl, -, -, -, length, -⟩ := finishRow_spec finished
  exact (length_readFields read).trans (Nat.le_of_eq length.symm)

/-- A line. -/
theorem Loaded.afterRow (loaded : Loaded tester) (inside : tid < tester.traces.length)
    (loads : loadRow decode tid values tester = .ok tester')
    (few : tester'.fileAccess.length < 2 ^ 32) :
    Loaded tester' ∧ tester'.traces.length = tester.traces.length := by
  obtain ⟨row, read, finished⟩ := loadRow_ok loads
  have finish := finishRow_spec finished
  obtain ⟨counted, same, traces, -, -, length, -⟩ := finish
  have fewRow : row.tester.fileAccess.length < 2 ^ 32 := by
    rw [← length]
    rw [same] at few
    exact few
  have reading := (loaded.reading tid).fields read fewRow
  refine ⟨loaded.finish inside reading finished, ?_⟩
  rw [same]
  show (counted.traces.modify _ _).length = _
  rw [List.length_modify, traces, reading.grown.traces]

/-- A line is behind the data, or its row is loaded before the other lines. -/
theorem loadLines_cons_ok {bufEnd : Nat} {memory : Text} {line : Nat × Text}
    {lines : List (Nat × Text)}
    (loads : loadLines decode tid bufEnd memory (line :: lines) tester = .ok tester') :
    tester' = tester ∨ ∃ values middle, loadRow decode tid values tester = .ok middle ∧
      loadLines decode tid bufEnd memory lines middle = .ok tester' := by
  rw [loadLines] at loads
  by_cases behind : bufEnd ≤ line.1
  · rw [if_pos behind] at loads
    exact .inl (Except.ok.inj loads).symm
  · rw [if_neg behind] at loads
    cases first : loadRow decode tid
        (fieldValues line.2 (memory.drop (line.1 + line.2.length + 1))) tester with
    | error fault =>
      rw [first] at loads
      cases loads
    | ok middle =>
      rw [first] at loads
      exact .inr ⟨_, middle, first, loads⟩

/-- Lines never take entries away. -/
theorem length_loadLines {bufEnd : Nat} {memory : Text} {lines : List (Nat × Text)}
    (loads : loadLines decode tid bufEnd memory lines tester = .ok tester') :
    tester.fileAccess.length ≤ tester'.fileAccess.length := by
  induction lines generalizing tester with
  | nil =>
    cases loads
    exact Nat.le_refl _
  | cons line lines ih =>
    rcases loadLines_cons_ok loads with rfl | ⟨values, middle, first, loads⟩
    · exact Nat.le_refl _
    · exact (length_loadRow first).trans (ih loads)

/-- The lines of a trace. -/
theorem Loaded.afterLines {bufEnd : Nat} {memory : Text} {lines : List (Nat × Text)}
    (loaded : Loaded tester) (inside : tid < tester.traces.length)
    (loads : loadLines decode tid bufEnd memory lines tester = .ok tester')
    (few : tester'.fileAccess.length < 2 ^ 32) : Loaded tester' := by
  induction lines generalizing tester with
  | nil =>
    cases loads
    exact loaded
  | cons line lines ih =>
    rcases loadLines_cons_ok loads with rfl | ⟨values, middle, first, loads⟩
    · exact loaded
    · obtain ⟨loadedMiddle, same⟩ := loaded.afterRow inside first
        (Nat.lt_of_le_of_lt (length_loadLines loads) few)
      exact ih loadedMiddle (same ▸ inside) loads

/-- `LoadTrace` in front of the lines: the trace gets its name. -/
def TraceTester.withTrace (tester : TraceTester) (tid : Nat) (fn : Text) : TraceTester :=
  { tester with traces :=
      (if tester.traces.length ≤ tid then tester.traces ++ [({} : TraceInfo)]
        else tester.traces).modify tid fun trace => { trace with traceFn := fn } }

/-- The entries of the files when one more trace begins. -/
theorem fileAccess_withTrace (tester : TraceTester) (tid : Nat) (fn : Text) :
    (tester.withTrace tid fn).fileAccess = tester.fileAccess := rfl

/-- A trace that loads. -/
theorem loadTrace_ok {files : Text → Option Text} {fn stale : Text}
    (loads : loadTrace decode files fn tid stale tester = .ok tester') :
    ∃ bufEnd memory lines, tid < (tester.withTrace tid fn).traces.length ∧
      loadLines decode tid bufEnd memory lines (tester.withTrace tid fn) = .ok tester' := by
  unfold loadTrace at loads
  cases opened : files fn with
  | none =>
    rw [opened] at loads
    cases loads
  | some content =>
    rw [opened] at loads
    dsimp only at loads
    cases header : skipHeader (placedTokens endsLine
        ((content.take traceBufSize ++ stale).takeWhile fun letter => letter ≠ Char.ofNat 0)).tail
      with
    | none =>
      rw [header] at loads
      cases loads
    | some lines =>
      rw [header] at loads
      dsimp only at loads
      by_cases inside : tid < (if tester.traces.length ≤ tid then
          tester.traces ++ [({} : TraceInfo)] else tester.traces).length
      · rw [if_pos inside] at loads
        exact ⟨_, _, lines, (List.length_modify ..).symm ▸ inside, loads⟩
      · rw [if_neg inside] at loads
        cases loads

/-- The entries of the traces when one more trace begins. -/
theorem entries_withTrace (tester : TraceTester) (tid : Nat) (fn : Text) :
    (tester.withTrace tid fn).entries = tester.entries := by
  have named : ∀ traces : List TraceInfo, (traces.modify tid fun trace =>
      { trace with traceFn := fn }).flatMap TraceInfo.trace = traces.flatMap TraceInfo.trace := by
    intro traces
    induction traces generalizing tid with
    | nil => cases tid <;> rfl
    | cons trace traces ih =>
      cases tid with
      | zero => rfl
      | succ tid => rw [List.modify_succ_cons, List.flatMap_cons, ih, List.flatMap_cons]
  unfold TraceTester.entries TraceTester.withTrace
  rw [named]
  by_cases new : tester.traces.length ≤ tid
  · rw [if_pos new, List.flatMap_append]
    exact List.append_nil _
  · rw [if_neg new]

/-- The beginning of a trace. -/
theorem Loaded.withTrace (loaded : Loaded tester) (tid : Nat) (fn : Text) :
    Loaded (tester.withTrace tid fn) := by
  have entries := entries_withTrace tester tid fn
  refine ⟨?_, ?_, ?_, ?_⟩
  · refine (loaded.sound.congr (tester.withTrace tid fn) rfl rfl rfl
      fun fid => ⟨rfl, rfl, rfl, rfl, rfl, rfl⟩).rephrase fun path => ?_
    unfold AskedFor
    rw [entries]
  · rw [entries]
    exact loaded.placed
  · rw [entries]
    exact loaded.reached
  · rw [entries]
    exact loaded.needed

/-- The first file is loaded before the others. -/
theorem loadTraces_cons_ok_iff {files : Text → Option Text} {source : TraceSource}
    {sources : List TraceSource} :
    loadTraces decode files (source :: sources) tester = .ok tester' ↔
      ∃ middle, loadTrace decode files source.fn source.tid source.stale tester = .ok middle ∧
        loadTraces decode files sources middle = .ok tester' := by
  rw [loadTraces]
  cases first : loadTrace decode files source.fn source.tid source.stale tester with
  | error fault =>
    constructor
    · intro loads
      cases loads
    · rintro ⟨middle, same, -⟩
      cases same
  | ok middle =>
    constructor
    · exact fun loads => ⟨middle, rfl, loads⟩
    · rintro ⟨_, same, loads⟩
      cases same
      exact loads

/-- Traces never take entries away. -/
theorem length_loadTraces {files : Text → Option Text} {sources : List TraceSource}
    (loads : loadTraces decode files sources tester = .ok tester') :
    tester.fileAccess.length ≤ tester'.fileAccess.length := by
  induction sources generalizing tester with
  | nil =>
    cases loads
    exact Nat.le_refl _
  | cons source sources ih =>
    obtain ⟨middle, first, loads⟩ := loadTraces_cons_ok_iff.mp loads
    obtain ⟨bufEnd, memory, lines, -, loadsFirst⟩ := loadTrace_ok first
    have kept := length_loadLines loadsFirst
    rw [fileAccess_withTrace] at kept
    exact kept.trans (ih loads)

/-- The traces of a configuration, one after another. -/
theorem Loaded.afterTraces {files : Text → Option Text} {sources : List TraceSource}
    (loaded : Loaded tester) (loads : loadTraces decode files sources tester = .ok tester')
    (few : tester'.fileAccess.length < 2 ^ 32) : Loaded tester' := by
  induction sources generalizing tester with
  | nil =>
    cases loads
    exact loaded
  | cons source sources ih =>
    obtain ⟨middle, first, loads⟩ := loadTraces_cons_ok_iff.mp loads
    obtain ⟨bufEnd, memory, lines, inside, loadsFirst⟩ := loadTrace_ok first
    have fewMiddle := Nat.lt_of_le_of_lt (length_loadTraces loads) few
    exact ih ((loaded.withTrace _ _).afterLines inside loadsFirst fewMiddle) loads

end Rows

end FsChecking.FsTester
