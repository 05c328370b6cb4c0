import FsChecking.FsTester.TraceLoad

/-!
# The format of traces

A trace file has a comment, lines that begin with a number sign, a header, and lines of eight quoted
fields. Such a text loads into one entry for each line, whatever an earlier file has left in the file
buffer.
-/

namespace FsChecking.FsTester

open Lib

/-! ## Lines -/

/-- The fields of a line, without the quotes. -/
structure TraceRow where
  /-- `FIELD_TIMESTAMP`. -/
  timestamp : Text
  /-- `FIELD_OPERATION`. -/
  operation : Text
  /-- `FIELD_PATH`. -/
  path : Text
  /-- `FIELD_RESULT`. -/
  result : Text
  /-- `FIELD_TID`. -/
  tid : Text
  /-- `FIELD_PARAM1`. -/
  param1 : Text
  /-- `FIELD_PARAM2`. -/
  param2 : Text
  /-- `FIELD_PARAM3`. -/
  param3 : Text

/-- The fields in their order. -/
def TraceRow.fields (row : TraceRow) : List Text :=
  [row.timestamp, row.operation, row.path, row.result, row.tid, row.param1, row.param2, row.param3]

/-- A field in quotes. -/
def quoted (value : Text) : Text := '"' :: (value ++ ['"'])

/-- The line of a row. -/
def TraceRow.line (row : TraceRow) : Text := joined ',' (row.fields.map quoted)

/-- The operation of a row, before the mode. -/
def TraceRow.code (row : TraceRow) : OpCode := (stringToOpCode row.operation).getD .nop

/-- The path of a row, behind the prefix. -/
def TraceRow.filePath (decode : Text → Text) (row : TraceRow) : Text :=
  if row.path = [] then [] else decode (row.path.drop pathPrefix)

/-- The mode of a row. -/
def TraceRow.mode (row : TraceRow) : OpCode :=
  if row.code = .fileCreate then
    if row.param1 = "Open".toList then .fileOpen
    else if row.param1 = "Create".toList then .fileCreate
    else if row.param1 = "Overwrite".toList then .fileOverwrite
    else if row.param1 = "Delete".toList then .fileDelete
    else .nop
  else .nop

/-- What a row says, but for the number of its path. -/
def TraceRow.entry (decode : Text → Text) (row : TraceRow) : TraceEntry where
  ts := atoi64 row.timestamp
  opCode :=
    if row.code = .fileCreate ∧ row.mode ∉ [.fileCreate, .nop] then row.mode else row.code
  threadId := atoi row.tid
  filePath := row.filePath decode
  newThreadId := if row.code.OnThread then atoi row.param1 else 0
  isDir := if row.code = .fileCreate then decide (row.param2.head? = some 'T') else false
  isAsync := if row.code = .fileCreate then decide (row.param3.head? ≠ some 'T') else false
  offset := if row.code.Transfers then atoi64 row.param1 else 0
  length := if row.code.Transfers then atoi64 row.param2 else 0

/-- A row that loads: its operation is known. -/
def TraceRow.Readable (row : TraceRow) : Prop := (stringToOpCode row.operation).isSome = true

/-- A row whose path is empty, or so long that what stands behind the prefix is its rest or one of
its terminators. -/
structure TraceRow.Prefixed (row : TraceRow) : Prop where
  /-- The path has no terminator. -/
  plain : Char.ofNat 0 ∉ row.path
  /-- The path reaches to the end of the prefix. -/
  reaches : row.path = [] ∨ pathPrefix ≤ row.path.length + 1

/-- The fields with nothing behind them. -/
def TraceRow.values (row : TraceRow) : List (Text × Text) :=
  row.fields.map fun value => (value, [])

section Rows

variable {decode : Text → Text} {tester tester' : TraceTester} {row : TraceRow} {tid : Nat}

/-- The number of the path of a row, and the tester behind it. -/
def TraceRow.found (decode : Text → Text) (row : TraceRow) (tester : TraceTester) :
    Nat × TraceTester :=
  if row.path = [] then (0, tester) else findOrNewFile (row.filePath decode) false tester

/-- The known operations. -/
theorem stringToOpCode_cases {text : Text} {code : OpCode} (known : stringToOpCode text = some code) :
    code = .threadCreate ∨ code = .threadExit ∨ code = .fileCreate ∨ code = .fileClose ∨
      code = .fileRead ∨ code = .fileWrite ∨ code = .fileFlush := by
  unfold stringToOpCode at known
  split_ifs at known <;> cases known <;> simp

/-- Behind the prefix stands the rest of a path that reaches there, whatever the memory behind it
holds. -/
theorem pathText_eq {value : Text} (plain : Char.ofNat 0 ∉ value)
    (reaches : pathPrefix ≤ value.length + 1) (behind : Text) :
    pathText value behind = some (value.drop pathPrefix) := by
  have found : ∃ rest, (value ++ Char.ofNat 0 :: Char.ofNat 0 :: behind).drop pathPrefix =
      value.drop pathPrefix ++ Char.ofNat 0 :: rest := by
    by_cases long : pathPrefix ≤ value.length
    · exact ⟨_, List.drop_append_of_le_length long⟩
    · have ends : pathPrefix = value.length + 1 := by omega
      refine ⟨behind, ?_⟩
      rw [List.drop_eq_nil_of_le (Nat.le_of_lt (Nat.lt_of_not_le long)), ends, ← List.drop_drop,
        List.drop_left]
      rfl
  obtain ⟨rest, memory⟩ := found
  have string : ∀ letter ∈ value.drop pathPrefix, decide (letter ≠ Char.ofNat 0) = true := by
    intro letter member
    rw [decide_eq_true_eq]
    rintro rfl
    exact plain (List.mem_of_mem_drop member)
  unfold pathText
  rw [memory]
  dsimp only
  rw [if_pos (by simp), List.takeWhile_append_of_pos string, List.takeWhile_cons_of_neg (by simp),
    List.append_nil]

/-- A path that is two letters short of the prefix is taken for the rest of the line. -/
example : pathText (List.replicate 42 'x') ("\"SUCCESS\",\"1\"".toList ++ [Char.ofNat 0]) =
    some "\"SUCCESS\",\"1\"".toList := by decide

/-- What stands behind the fields of such a row does not matter. -/
theorem TraceRow.Prefixed.loadRow_eq (prefixed : row.Prefixed) {values : List (Text × Text)}
    (fields : values.map Prod.fst = row.fields) (decode : Text → Text) (tid : Nat)
    (tester : TraceTester) :
    loadRow decode tid values tester = loadRow decode tid row.values tester := by
  have path : ∀ behind read, readField decode 2 row.path behind read =
      readField decode 2 row.path [] read := by
    intro behind read
    unfold readField
    dsimp only
    by_cases none : row.path = []
    · rw [if_pos none, if_pos none]
    · have reaches := prefixed.reaches.resolve_left none
      rw [if_neg none, if_neg none, pathText_eq prefixed.plain reaches,
        pathText_eq prefixed.plain reaches]
  unfold TraceRow.fields at fields
  obtain ⟨⟨_, b₀⟩, _, rfl, rfl, fields₁⟩ := List.map_eq_cons_iff.mp fields
  obtain ⟨⟨_, b₁⟩, _, rfl, rfl, fields₂⟩ := List.map_eq_cons_iff.mp fields₁
  obtain ⟨⟨_, b₂⟩, _, rfl, rfl, fields₃⟩ := List.map_eq_cons_iff.mp fields₂
  obtain ⟨⟨_, b₃⟩, _, rfl, rfl, fields₄⟩ := List.map_eq_cons_iff.mp fields₃
  obtain ⟨⟨_, b₄⟩, _, rfl, rfl, fields₅⟩ := List.map_eq_cons_iff.mp fields₄
  obtain ⟨⟨_, b₅⟩, _, rfl, rfl, fields₆⟩ := List.map_eq_cons_iff.mp fields₅
  obtain ⟨⟨_, b₆⟩, _, rfl, rfl, fields₇⟩ := List.map_eq_cons_iff.mp fields₆
  obtain ⟨⟨_, b₇⟩, _, rfl, rfl, fields₈⟩ := List.map_eq_cons_iff.mp fields₇
  rw [List.map_eq_nil_iff.mp fields₈]
  unfold loadRow TraceRow.values TraceRow.fields
  simp only [List.map_cons, readFields, path]
  rfl

/-- The fields of a row up to the path: time stamp, operation and path. -/
theorem readFields_front (decode : Text → Text) (tid : Nat) (tester : TraceTester)
    (readable : row.Readable) (prefixed : row.Prefixed) :
    readFields decode 0 row.values (startRow tid tester) =
      readFields decode 3 ([row.result, row.tid, row.param1, row.param2, row.param3].map
        fun value => (value, []))
        { op := {
            ts := atoi64 row.timestamp
            opCode := row.code
            filePath := row.filePath decode
            fid := (row.found decode tester).1 }
          mode := .nop
          tester := (row.found decode tester).2
          maxBufSize := (tester.traces.getD tid {}).maxBufSize } := by
  obtain ⟨code, known⟩ := Option.isSome_iff_exists.mp readable
  unfold TraceRow.values TraceRow.fields TraceRow.found TraceRow.filePath TraceRow.code
  by_cases none : row.path = []
  · simp only [List.map_cons, readFields, readField, startRow, known, none, if_pos, bind,
      Except.bind, Option.getD_some]
  · have path := pathText_eq prefixed.plain (prefixed.reaches.resolve_left none)
    simp only [List.map_cons, readFields, readField, startRow, known, if_neg none, path,
      newFileInfo, bind, Except.bind, Option.getD_some]

/-- The fields of a row that loads. -/
theorem readFields_row (decode : Text → Text) (tid : Nat) (tester : TraceTester)
    (readable : row.Readable) (prefixed : row.Prefixed) :
    ∃ read : Row, readFields decode 0 row.values (startRow tid tester) = .ok read ∧
      read.op.withMode read.mode = { row.entry decode with fid := (row.found decode tester).1 } ∧
      read.tester = (row.found decode tester).2 ∧
      read.maxBufSize = if row.code.Transfers then
        max (tester.traces.getD tid {}).maxBufSize (row.entry decode).length
        else (tester.traces.getD tid {}).maxBufSize := by
  obtain ⟨code, known⟩ := Option.isSome_iff_exists.mp readable
  have isCode : row.code = code := by
    rw [TraceRow.code, known]
    rfl
  rw [readFields_front decode tid tester readable prefixed]
  unfold TraceRow.entry TraceRow.mode
  rw [isCode]
  generalize row.found decode tester = found
  have longest : ∀ maxBufSize length : Nat,
      (if maxBufSize < length then length else maxBufSize) = max maxBufSize length := by
    intro maxBufSize length
    split <;> omega
  rcases stringToOpCode_cases known with rfl | rfl | rfl | rfl | rfl | rfl | rfl
  case' inr.inr.inl =>
    refine ⟨_, rfl, ?_, rfl, rfl⟩
    generalize "Open".toList = opening
    generalize "Create".toList = creating
    generalize "Overwrite".toList = overwriting
    generalize "Delete".toList = deleting
    dsimp only
    by_cases opens : row.param1 = opening
    · simp only [if_pos opens]
      rfl
    by_cases creates : row.param1 = creating
    · simp only [if_neg opens, if_pos creates]
      rfl
    by_cases overwrites : row.param1 = overwriting
    · simp only [if_neg opens, if_neg creates, if_pos overwrites]
      rfl
    by_cases deletes : row.param1 = deleting
    · simp only [if_neg opens, if_neg creates, if_neg overwrites, if_pos deletes]
      rfl
    simp only [if_neg opens, if_neg creates, if_neg overwrites, if_neg deletes]
    rfl
  case' inr.inr.inr.inr.inl => exact ⟨_, rfl, by simp [TraceEntry.withMode], rfl, longest _ _⟩
  case' inr.inr.inr.inr.inr.inl => exact ⟨_, rfl, by simp [TraceEntry.withMode], rfl, longest _ _⟩
  all_goals exact ⟨_, rfl, by simp [TraceEntry.withMode], rfl, rfl⟩

/-- A path brings at most one name for each of its prefixes. -/
theorem length_findOrNewFile_le (path : Text) (isDir : Bool) (tester : TraceTester) :
    (findOrNewFile path isDir tester).2.fileAccess.length ≤
      tester.fileAccess.length + path.length + 1 := by
  induction size : path.length using Nat.strong_induction_on generalizing path isDir with
  | _ size ih =>
    cases known : tester.pathMap path with
    | some fid =>
      rw [findOrNewFile_found known]
      exact Nat.le_add_right_of_le (Nat.le_add_right _ _)
    | none =>
      rw [findOrNewFile_new known, length_newEntry]
      apply Nat.succ_le_succ
      unfold parentEntry
      cases found : lastIndexOf '\\' path with
      | none => exact Nat.le_add_right _ _
      | some ss =>
        dsimp only
        by_cases top : path.take ss = []
        · rw [if_pos top]
          exact Nat.le_add_right _ _
        · rw [if_neg top]
          have shorter := size ▸ length_take_lastIndexOf found
          have above := ih _ shorter _ true rfl
          omega

/-- The names that a row brings. -/
theorem TraceRow.length_found (row : TraceRow) (decode : Text → Text) (tester : TraceTester) :
    (row.found decode tester).2.fileAccess.length ≤
      tester.fileAccess.length + (row.filePath decode).length + 1 := by
  unfold TraceRow.found
  by_cases none : row.path = []
  · rw [if_pos none]
    exact Nat.le_add_right_of_le (Nat.le_add_right _ _)
  · rw [if_neg none]
    exact length_findOrNewFile_le _ _ _

/-- The number of a row is in use. -/
theorem Loaded.found_lt (loaded : Loaded tester) (row : TraceRow)
    (few : tester.fileAccess.length + (row.filePath decode).length + 1 < 2 ^ 32) :
    (row.found decode tester).1 < (row.found decode tester).2.fileAccess.length := by
  have short := Nat.lt_of_le_of_lt (row.length_found decode tester) few
  unfold TraceRow.found at short ⊢
  by_cases none : row.path = []
  · rw [if_pos none]
    show 0 < tester.fileAccess.length
    rw [loaded.sound.length]
    exact Nat.lt_trans Nat.one_pos loaded.sound.lt_maxFid
  · rw [if_neg none] at short ⊢
    obtain ⟨busy, -, -, sound, found, -⟩ := findOrNewFile_spec loaded.sound short
    rw [sound.length]
    exact ((sound.found_iff _ _).mp found).2.1

/-- A trace with an entry for a row. -/
def TraceInfo.withRow (trace : TraceInfo) (decode : Text → Text) (row : TraceRow) (fid : Nat) :
    TraceInfo :=
  { trace with
    trace := trace.trace ++ [{ row.entry decode with fid := fid }]
    maxBufSize := if row.code.Transfers then max trace.maxBufSize (row.entry decode).length
      else trace.maxBufSize }

/-- A row that loads becomes an entry. -/
theorem Loaded.row_loads (loaded : Loaded tester) (inside : tid < tester.traces.length)
    (readable : row.Readable) (prefixed : row.Prefixed)
    (few : tester.fileAccess.length + (row.filePath decode).length + 1 < 2 ^ 32) :
    ∃ tester', loadRow decode tid row.values tester = .ok tester' ∧
      tester'.traces = tester.traces.modify tid (fun trace =>
        trace.withRow decode row (row.found decode tester).1) ∧
      tester'.fileAccess.length ≤ tester.fileAccess.length + (row.filePath decode).length + 1 := by
  obtain ⟨read, reads, op, same, maxBufSize⟩ :=
    readFields_row decode tid tester readable prefixed
  have grown := row.length_found decode tester
  have short : read.tester.fileAccess.length < 2 ^ 32 := by
    rw [same]
    exact Nat.lt_of_le_of_lt grown few
  have kept := ((loaded.reading tid).fields reads short).grown.traces
  have inUse := loaded.found_lt row few
  have stored : tester.traces.getD tid {} = tester.traces[tid] := by
    rw [List.getD_eq_getElem?_getD, List.getElem?_eq_getElem inside]
    rfl
  have entry : ∀ counted : TraceTester, counted.traces = tester.traces →
      (counted.withEntry tid { row.entry decode with fid := (row.found decode tester).1 }
        read.maxBufSize).traces = tester.traces.modify tid (fun trace =>
          trace.withRow decode row (row.found decode tester).1) := by
    intro counted sameTraces
    show counted.traces.modify tid _ = _
    rw [sameTraces, List.modify_eq_take_cons_drop inside, List.modify_eq_take_cons_drop inside,
      maxBufSize, stored]
    rfl
  have rowOk : loadRow decode tid row.values tester = finishRow tid read := by
    unfold loadRow
    rw [reads]
    rfl
  rw [rowOk, finishRow]
  dsimp only
  rw [op]
  by_cases transfers : (row.entry decode).opCode.Transfers
  · have counts : calculateFileAccess { row.entry decode with fid := (row.found decode tester).1 }
        read.tester = .ok { read.tester with
          fileAccess := read.tester.fileAccess.modify (row.found decode tester).1 fun info =>
            info.withAccess { row.entry decode with fid := (row.found decode tester).1 } } := by
      unfold calculateFileAccess
      rw [if_pos (same ▸ inUse), if_pos transfers]
    rw [if_pos transfers, counts]
    refine ⟨_, rfl, entry _ kept, ?_⟩
    show (List.modify _ _ _).length ≤ _
    rw [List.length_modify, same]
    exact grown
  · rw [if_neg transfers]
    refine ⟨_, rfl, entry _ kept, ?_⟩
    show read.tester.fileAccess.length ≤ _
    rw [same]
    exact grown

/-- A row that becomes an entry could be read. -/
theorem readable_of_loadRow (loads : loadRow decode tid row.values tester = .ok tester') :
    row.Readable := by
  obtain ⟨read, reads, -⟩ := loadRow_ok loads
  cases known : stringToOpCode row.operation with
  | none =>
    simp only [TraceRow.values, TraceRow.fields, List.map_cons, readFields, readField, known, bind,
      Except.bind] at reads
    cases reads
  | some code =>
    unfold TraceRow.Readable
    rw [known]
    rfl

end Rows

/-! ## Files -/

/-- A trace file. -/
structure TraceFile where
  /-- The first line. -/
  comment : Text
  /-- The lines that begin with a number sign. -/
  comments : List Text
  /-- The header. -/
  header : Text
  /-- The rows. -/
  rows : List TraceRow

/-- The lines behind the first one. -/
def TraceFile.lines (file : TraceFile) : List Text :=
  file.comments ++ file.header :: file.rows.map TraceRow.line

/-- The text of a trace file. -/
def TraceFile.text (file : TraceFile) : Text :=
  (file.comment :: file.lines).flatMap fun line => line ++ ['\n']

/-- A letter that a line may have. -/
def Inline (letter : Char) : Prop := endsLine letter = false ∧ letter ≠ Char.ofNat 0

instance (letter : Char) : Decidable (Inline letter) := inferInstanceAs (Decidable (_ ∧ _))

/-- A trace file that is well formed. -/
structure TraceFile.WellFormed (file : TraceFile) : Prop where
  /-- The first line is not empty. -/
  comment : file.comment ≠ [] ∧ ∀ letter ∈ file.comment, Inline letter
  /-- The comments. -/
  comments : ∀ line ∈ file.comments, line.head? = some '#' ∧ ∀ letter ∈ line, Inline letter
  /-- The header is not empty, and not a comment. -/
  header : file.header ≠ [] ∧ file.header.head? ≠ some '#' ∧ ∀ letter ∈ file.header, Inline letter
  /-- Fields have no commas. -/
  fields : ∀ row ∈ file.rows, ∀ value ∈ row.fields, ∀ letter ∈ value, Inline letter ∧ letter ≠ ','
  /-- A path is empty, or only its last letter may be missing to the prefix. -/
  paths : ∀ row ∈ file.rows, row.path = [] ∨ pathPrefix ≤ row.path.length + 1
  /-- The file fits the buffer. -/
  fits : file.text.length ≤ traceBufSize

section Files

variable {decode : Text → Text} {tester tester' : TraceTester} {row : TraceRow} {tid : Nat}
  {file : TraceFile}

/-- A quoted field is a word. -/
theorem isWord_quoted {value : Text} (plain : ∀ letter ∈ value, letter ≠ ',') :
    IsWord (fun letter => letter == ',') (quoted value) where
  notEmpty := List.cons_ne_nil _ _
  plain letter member := by
    rw [quoted, List.mem_cons, List.mem_append, List.mem_singleton] at member
    rw [beq_eq_false_iff_ne]
    rcases member with rfl | inside | rfl
    · decide
    · exact plain letter inside
    · decide

/-- The fields of the line of a row. -/
theorem fieldValues_line (plain : ∀ value ∈ row.fields, ∀ letter ∈ value, letter ≠ ',')
    (after : Text) : (fieldValues row.line after).map Prod.fst = row.fields := by
  have words : ∀ word ∈ row.fields.map quoted, IsWord (fun letter => letter == ',') word := by
    intro word member
    obtain ⟨value, isField, rfl⟩ := List.mem_map.mp member
    exact isWord_quoted (plain value isField)
  have unquoted : ∀ value : Text, (quoted value).dropLast.tail = value := by
    intro value
    rw [quoted, ← List.cons_append, List.dropLast_concat]
    rfl
  have found : (placedTokens (fun letter => letter == ',') row.line).map Prod.snd =
      row.fields.map quoted := tokens_joined words (by rfl)
  have same : (fun token : Text => token.dropLast.tail) ∘ quoted = id := funext unquoted
  unfold fieldValues
  rw [List.map_map]
  change (placedTokens _ row.line).map ((fun token : Text => token.dropLast.tail) ∘ Prod.snd) = _
  rw [← List.map_map, found, List.map_map, same, List.map_id]

/-- The line of a row is a line. -/
theorem TraceRow.line_inline
    (plain : ∀ value ∈ row.fields, ∀ letter ∈ value, Inline letter) :
    row.line ≠ [] ∧ ∀ letter ∈ row.line, Inline letter := by
  constructor
  · exact List.cons_ne_nil _ _
  · intro letter member
    rcases mem_joined member with rfl | ⟨word, isWord, inside⟩
    · exact ⟨by decide, by decide⟩
    · obtain ⟨value, isField, rfl⟩ := List.mem_map.mp isWord
      rw [quoted, List.mem_cons, List.mem_append, List.mem_singleton] at inside
      rcases inside with rfl | inside | rfl
      · exact ⟨by decide, by decide⟩
      · exact plain value isField letter inside
      · exact ⟨by decide, by decide⟩

/-- The lines of a well-formed file. -/
theorem TraceFile.WellFormed.lines (wellFormed : file.WellFormed) :
    ∀ line ∈ file.comment :: file.lines, line ≠ [] ∧ ∀ letter ∈ line, Inline letter := by
  intro line member
  rw [TraceFile.lines, List.mem_cons, List.mem_append, List.mem_cons] at member
  rcases member with rfl | comment | rfl | member
  · exact wellFormed.comment
  · obtain ⟨head, inline⟩ := wellFormed.comments line comment
    refine ⟨?_, inline⟩
    rintro rfl
    cases head
  · exact ⟨wellFormed.header.1, wellFormed.header.2.2⟩
  · obtain ⟨row, isRow, rfl⟩ := List.mem_map.mp member
    exact TraceRow.line_inline fun value isField letter inside =>
      (wellFormed.fields row isRow value isField letter inside).1

/-- The search for the header goes past the comments. -/
theorem skipHeader_comments {comments : List (Nat × Text)} {header : Nat × Text}
    {lines : List (Nat × Text)} (areComments : ∀ line ∈ comments, line.2.head? = some '#')
    (notEmpty : header.2 ≠ []) (isHeader : header.2.head? ≠ some '#') :
    skipHeader (comments ++ header :: lines) = some lines := by
  induction comments with
  | nil =>
    obtain ⟨place, line⟩ := header
    cases line with
    | nil => exact absurd rfl notEmpty
    | cons letter line =>
      have other : letter ≠ '#' := fun same => isHeader (congrArg some same)
      rw [List.nil_append, skipHeader]
      exact if_neg other
  | cons comment comments ih =>
    have isComment := areComments comment List.mem_cons_self
    obtain ⟨place, line⟩ := comment
    cases line with
    | nil => cases isComment
    | cons letter line =>
      rw [List.cons_append, skipHeader, if_pos (Option.some.inj isComment)]
      exact ih fun line member => areComments line (List.mem_cons_of_mem _ member)

/-- The rows of a file, one after another. -/
def loadRows (decode : Text → Text) (tid : Nat) :
    List TraceRow → TraceTester → Except LoadFault TraceTester
  | [], tester => .ok tester
  | row :: rows, tester => do
    let tester ← loadRow decode tid row.values tester
    loadRows decode tid rows tester

/-- The loop over the lines stops behind the data. -/
theorem loadLines_rows {rows : List TraceRow} {early late : List (Nat × Text)} {bufEnd : Nat}
    (memory : Text) (areRows : ∀ row ∈ rows, row.Prefixed)
    (plain : ∀ row ∈ rows, ∀ value ∈ row.fields, ∀ letter ∈ value, letter ≠ ',')
    (lines : early.map Prod.snd = rows.map TraceRow.line) (inside : ∀ line ∈ early, line.1 < bufEnd)
    (behind : ∀ line ∈ late, bufEnd ≤ line.1) (tester : TraceTester) :
    loadLines decode tid bufEnd memory (early ++ late) tester =
      loadRows decode tid rows tester := by
  induction rows generalizing early tester with
  | nil =>
    rw [List.map_eq_nil_iff.mp lines, List.nil_append]
    cases late with
    | nil => rfl
    | cons line late =>
      rw [loadLines, if_pos (behind line List.mem_cons_self)]
      rfl
  | cons row rows ih =>
    obtain ⟨line, early, rfl, same, rest⟩ := List.map_eq_cons_iff.mp lines
    have first := Nat.not_le.mpr (inside line List.mem_cons_self)
    have values := fieldValues_line (plain row List.mem_cons_self)
      (memory.drop (line.1 + line.2.length + 1))
    rw [← same] at values
    rw [List.cons_append, loadLines, if_neg first,
      (areRows row List.mem_cons_self).loadRow_eq values, loadRows]
    congr 1
    funext tester
    exact ih (fun row member => areRows row (List.mem_cons_of_mem _ member))
      (fun row member => plain row (List.mem_cons_of_mem _ member)) rest
      (fun line member => inside line (List.mem_cons_of_mem _ member)) tester

/-- The text of a file ends with a line end. -/
theorem TraceFile.exists_text_eq (file : TraceFile) : ∃ front, file.text = front ++ ['\n'] := by
  unfold TraceFile.text
  rw [← List.dropLast_append_getLast (List.cons_ne_nil file.comment file.lines),
    List.flatMap_append, List.flatMap_singleton]
  exact ⟨_, (List.append_assoc ..).symm⟩

/-- No letter of a well-formed file ends the string in the buffer. -/
theorem TraceFile.WellFormed.ne_zero (wellFormed : file.WellFormed) :
    ∀ letter ∈ file.text, (decide (letter ≠ Char.ofNat 0)) = true := by
  intro letter member
  obtain ⟨line, isLine, inside⟩ := List.mem_flatMap.mp member
  rw [decide_eq_true_eq]
  rcases List.mem_append.mp inside with inLine | atEnd
  · exact ((wellFormed.lines line isLine).2 letter inLine).2
  · rw [List.mem_singleton.mp atEnd]
    decide

/-- The tokens of a file are those in front of what an earlier file has left behind it. -/
theorem TraceFile.placedTokens_text (file : TraceFile) (behind : Text) :
    placedTokens endsLine (file.text ++ behind) =
      tokensFrom endsLine [] 0 file.text ++ tokensFrom endsLine [] file.text.length behind := by
  obtain ⟨front, split⟩ := file.exists_text_eq
  have ends : endsLine '\n' = true := rfl
  have parts : tokensFrom endsLine [] 0 (front ++ '\n' :: behind) =
      tokensFrom endsLine [] 0 (front ++ ['\n']) ++
        tokensFrom endsLine [] (0 + ([] : Text).length + front.length + 1) behind :=
    tokensFrom_split ends behind
  have length : 0 + ([] : Text).length + front.length + 1 = file.text.length := by
    rw [split, List.length_append, List.length_singleton, List.length_nil]
    omega
  rw [length, ← split] at parts
  unfold placedTokens
  rw [split, List.append_assoc, ← split]
  exact parts

/-- The paths of a well-formed file reach to the end of the prefix. -/
theorem TraceFile.WellFormed.prefixed (wellFormed : file.WellFormed) :
    ∀ row ∈ file.rows, row.Prefixed := by
  refine fun row isRow => ⟨fun ends => ?_, wellFormed.paths row isRow⟩
  have isField : row.path ∈ row.fields := by simp [TraceRow.fields]
  exact (wellFormed.fields row isRow row.path isField _ ends).1.2 rfl

/-- The tokens of a well-formed file are its lines. -/
theorem TraceFile.WellFormed.tokens (wellFormed : file.WellFormed) :
    (tokensFrom endsLine [] 0 file.text).map Prod.snd = file.comment :: file.lines := by
  have areWords : ∀ line ∈ file.comment :: file.lines, IsWord endsLine line := by
    intro line member
    obtain ⟨notEmpty, plain⟩ := wellFormed.lines line member
    exact ⟨notEmpty, fun letter inside => (plain letter inside).1⟩
  exact tokensFrom_flatMap areWords rfl 0

/-- A well-formed file loads by its rows, whatever the buffer holds behind it. -/
theorem loadTrace_rows {files : Text → Option Text} {fn : Text} (wellFormed : file.WellFormed)
    (opened : files fn = some file.text) (follows : tid ≤ tester.traces.length) (stale : Text) :
    loadTrace decode files fn tid stale tester =
      loadRows decode tid file.rows (tester.withTrace tid fn) := by
  have data : file.text.take traceBufSize = file.text := List.take_of_length_le wellFormed.fits
  have found := wellFormed.tokens
  have inside : ∀ line ∈ tokensFrom endsLine [] 0 file.text, line.1 < file.text.length := by
    intro line member
    have bound := (tokensFrom_inside member).2
    rw [List.length_nil] at bound
    omega
  have late : ∀ behind : Text, ∀ line ∈ tokensFrom endsLine [] file.text.length behind,
      file.text.length ≤ line.1 := fun behind line member => (tokensFrom_inside member).1
  -- the places of the lines
  generalize same : tokensFrom endsLine [] 0 file.text = early at *
  obtain ⟨first, early, rfl, -, rest⟩ := List.map_eq_cons_iff.mp found
  obtain ⟨comments, early, rfl, areComments, rest⟩ := List.map_eq_append_iff.mp rest
  obtain ⟨header, early, rfl, isHeader, areRows⟩ := List.map_eq_cons_iff.mp rest
  unfold loadTrace
  rw [opened]
  dsimp only
  rw [data, List.takeWhile_append_of_pos wellFormed.ne_zero, file.placedTokens_text, same,
    List.cons_append, List.tail_cons, List.append_assoc, List.cons_append, skipHeader_comments]
  · have traces : tid < (if tester.traces.length ≤ tid then tester.traces ++ [({} : TraceInfo)]
        else tester.traces).length := by
      by_cases new : tester.traces.length ≤ tid
      · rw [if_pos new, List.length_append, List.length_singleton]
        omega
      · rw [if_neg new]
        omega
    dsimp only
    rw [if_pos traces]
    apply loadLines_rows _ wellFormed.prefixed _ areRows
    · intro line member
      apply inside
      exact List.mem_cons_of_mem _ (List.mem_append_right _ (List.mem_cons_of_mem _ member))
    · exact late _
    · exact fun row isRow value isField letter inField =>
        (wellFormed.fields row isRow value isField letter inField).2
  · intro line member
    have isComment : line.2 ∈ file.comments := by
      rw [← areComments]
      exact List.mem_map_of_mem member
    exact (wellFormed.comments _ isComment).1
  · rw [isHeader]
    exact wellFormed.header.1
  · rw [isHeader]
    exact wellFormed.header.2.1

/-! ## Configurations -/

/-- An entry without the number of its path. -/
def TraceEntry.unnumbered (op : TraceEntry) : TraceEntry := { op with fid := 0 }

/-- As many names as rows can bring. -/
def namesBound (decode : Text → Text) (rows : List TraceRow) : Nat :=
  (rows.map fun row => (row.filePath decode).length + 1).sum

/-- The entries of a thread, without the numbers of their paths. -/
def TraceTester.operations (tester : TraceTester) (tid : Nat) : List TraceEntry :=
  (tester.traces.getD tid {}).trace.map TraceEntry.unnumbered

/-- Every entry is an operation of a thread. -/
theorem mem_operations {op : TraceEntry} (member : op ∈ tester.entries) :
    ∃ tid, op.unnumbered ∈ tester.operations tid := by
  obtain ⟨trace, isTrace, inside⟩ := List.mem_flatMap.mp member
  obtain ⟨tid, early, rfl⟩ := List.getElem_of_mem isTrace
  refine ⟨tid, ?_⟩
  rw [TraceTester.operations, List.getD_eq_getElem?_getD, List.getElem?_eq_getElem early]
  exact List.mem_map_of_mem inside

/-- A trace that is modified, and the others. -/
theorem getD_modify {traces : List TraceInfo} {change : TraceInfo → TraceInfo}
    (inside : tid < traces.length) (other : Nat) :
    (traces.modify tid change).getD other {} =
      if other = tid then change (traces.getD tid {}) else traces.getD other {} := by
  rw [List.getD_eq_getElem?_getD, List.getD_eq_getElem?_getD, List.getD_eq_getElem?_getD,
    List.getElem?_modify]
  by_cases same : other = tid
  · subst same
    simp [List.getElem?_eq_getElem inside]
  · simp [same, Ne.symm same]

/-- Rows that load become the entries of their thread. -/
theorem Loaded.rows_load {rows : List TraceRow} (loaded : Loaded tester)
    (decode : Text → Text) (inside : tid < tester.traces.length)
    (prefixed : ∀ row ∈ rows, row.Prefixed) (readable : ∀ row ∈ rows, row.Readable)
    (few : tester.fileAccess.length + namesBound decode rows < 2 ^ 32) :
    ∃ tester', loadRows decode tid rows tester = .ok tester' ∧ Loaded tester' ∧
      tester'.traces.length = tester.traces.length ∧
      tester'.fileAccess.length ≤ tester.fileAccess.length + namesBound decode rows ∧
      ∀ other, tester'.operations other = tester.operations other ++
        if other = tid then rows.map (TraceRow.entry decode) else [] := by
  induction rows generalizing tester with
  | nil =>
    refine ⟨tester, rfl, loaded, rfl, Nat.le_refl _, fun other => ?_⟩
    rw [List.map_nil, ite_self, List.append_nil]
  | cons row rows ih =>
    have bound : namesBound decode (row :: rows) =
        (row.filePath decode).length + 1 + namesBound decode rows := rfl
    have fewRow : tester.fileAccess.length + (row.filePath decode).length + 1 < 2 ^ 32 := by omega
    obtain ⟨middle, first, traces, length⟩ :=
      loaded.row_loads inside (readable row List.mem_cons_self)
        (prefixed row List.mem_cons_self) fewRow
    obtain ⟨loadedMiddle, count⟩ :=
      loaded.afterRow inside first (Nat.lt_of_le_of_lt length fewRow)
    obtain ⟨tester', rest, loaded', count', length', operations⟩ := ih loadedMiddle (count ▸ inside)
      (fun row member => prefixed row (List.mem_cons_of_mem _ member))
      (fun row member => readable row (List.mem_cons_of_mem _ member)) (by omega)
    refine ⟨tester', ?_, loaded', count'.trans count, by omega, fun other => ?_⟩
    · rw [loadRows, first]
      exact rest
    · have here : middle.operations other = tester.operations other ++
          if other = tid then [row.entry decode] else [] := by
        unfold TraceTester.operations
        rw [traces, getD_modify inside]
        by_cases same : other = tid
        · rw [if_pos same, if_pos same, same]
          exact List.map_append
        · rw [if_neg same, if_neg same, List.append_nil]
      rw [operations, here, List.append_assoc]
      by_cases same : other = tid
      · rw [if_pos same, if_pos same, if_pos same]
        rfl
      · rw [if_neg same, if_neg same, if_neg same]
        rfl

/-- Rows that become entries could be read. -/
theorem readable_of_loadRows {rows : List TraceRow}
    (loads : loadRows decode tid rows tester = .ok tester') : ∀ row ∈ rows, row.Readable := by
  induction rows generalizing tester with
  | nil => nofun
  | cons row rows ih =>
    rw [loadRows] at loads
    cases first : loadRow decode tid row.values tester with
    | error fault =>
      rw [first] at loads
      cases loads
    | ok middle =>
      rw [first] at loads
      intro other member
      rcases List.mem_cons.mp member with rfl | later
      · exact readable_of_loadRow first
      · exact ih loads other later

/-- Every trace belongs to a thread that has one, or to the next thread. -/
def ThreadsFollow : Nat → List TraceSource → Prop
  | _, [] => True
  | count, source :: sources =>
    source.tid ≤ count ∧ ThreadsFollow (max count (source.tid + 1)) sources

/-- The number of traces when one more begins. -/
theorem length_withTrace (fn : Text) (follows : tid ≤ tester.traces.length) :
    (tester.withTrace tid fn).traces.length = max tester.traces.length (tid + 1) := by
  unfold TraceTester.withTrace
  dsimp only
  rw [List.length_modify]
  by_cases new : tester.traces.length ≤ tid
  · rw [if_pos new, List.length_append, List.length_singleton]
    omega
  · rw [if_neg new]
    omega

/-- The operations when one more trace begins. -/
theorem operations_withTrace {fn : Text} (follows : tid ≤ tester.traces.length) (other : Nat) :
    (tester.withTrace tid fn).operations other = tester.operations other := by
  have inside : tid < (if tester.traces.length ≤ tid then tester.traces ++ [({} : TraceInfo)]
      else tester.traces).length := by
    have length := length_withTrace fn follows
    unfold TraceTester.withTrace at length
    dsimp only at length
    rw [List.length_modify] at length
    omega
  have extended : ∀ place, (if tester.traces.length ≤ tid then
      tester.traces ++ [({} : TraceInfo)] else tester.traces).getD place {} =
        tester.traces.getD place {} := by
    intro place
    by_cases new : tester.traces.length ≤ tid
    · rw [if_pos new, List.getD_eq_getElem?_getD, List.getD_eq_getElem?_getD,
        List.getElem?_append]
      by_cases early : place < tester.traces.length
      · rw [if_pos early]
      · rw [if_neg early, List.getElem?_eq_none (Nat.le_of_not_lt early)]
        cases place - tester.traces.length <;> rfl
    · rw [if_neg new]
  unfold TraceTester.operations TraceTester.withTrace
  dsimp only
  rw [getD_modify inside, extended, extended]
  by_cases same : other = tid
  · rw [if_pos same, same]
  · rw [if_neg same]

/-- The rows of the traces of a configuration. -/
def allRows (content : Text → TraceFile) (sources : List TraceSource) : List TraceRow :=
  sources.flatMap fun source => (content source.fn).rows

/-- The names of more files add up. -/
theorem namesBound_append (rows rows' : List TraceRow) :
    namesBound decode (rows ++ rows') = namesBound decode rows + namesBound decode rows' := by
  unfold namesBound
  rw [List.map_append, List.sum_append]

/-- A file whose operations are known loads. -/
theorem Loaded.source_loads {files : Text → Option Text} {source : TraceSource} {file : TraceFile}
    (loaded : Loaded tester) (decode : Text → Text) (opened : files source.fn = some file.text)
    (wellFormed : file.WellFormed) (follows : source.tid ≤ tester.traces.length)
    (readable : ∀ row ∈ file.rows, row.Readable)
    (few : tester.fileAccess.length + namesBound decode file.rows < 2 ^ 32) :
    ∃ middle, loadTrace decode files source.fn source.tid source.stale tester = .ok middle ∧
      Loaded middle ∧ middle.traces.length = max tester.traces.length (source.tid + 1) ∧
      middle.fileAccess.length ≤ tester.fileAccess.length + namesBound decode file.rows ∧
      ∀ tid, middle.operations tid = tester.operations tid ++
        if tid = source.tid then file.rows.map (TraceRow.entry decode) else [] := by
  have length := length_withTrace source.fn follows
  have inside : source.tid < (tester.withTrace source.tid source.fn).traces.length := by omega
  have names := congrArg List.length (fileAccess_withTrace tester source.tid source.fn)
  obtain ⟨middle, loads, loadedMiddle, count, lengthMiddle, operations⟩ :=
    (loaded.withTrace source.tid source.fn).rows_load decode inside wellFormed.prefixed readable
      (by omega)
  refine ⟨middle, ?_, loadedMiddle, count.trans length, by omega, fun tid => ?_⟩
  · rw [loadTrace_rows wellFormed opened follows]
    exact loads
  · rw [operations, operations_withTrace follows]

/-- Traces that load, one after another. -/
theorem Loaded.sources_load {files : Text → Option Text} {content : Text → TraceFile}
    {sources : List TraceSource} (loaded : Loaded tester)
    (opened : ∀ source ∈ sources, files source.fn = some (content source.fn).text)
    (wellFormed : ∀ source ∈ sources, (content source.fn).WellFormed)
    (follow : ThreadsFollow tester.traces.length sources)
    (few : tester.fileAccess.length + namesBound decode (allRows content sources) < 2 ^ 32) :
    ((∃ tester', loadTraces decode files sources tester = .ok tester') ↔
      ∀ row ∈ allRows content sources, row.Readable) ∧
    ∀ tester', loadTraces decode files sources tester = .ok tester' →
      tester'.fileAccess.length ≤
        tester.fileAccess.length + namesBound decode (allRows content sources) ∧
      ∀ tid, tester'.operations tid = tester.operations tid ++ sources.flatMap fun source =>
        if tid = source.tid then (content source.fn).rows.map (TraceRow.entry decode) else [] := by
  induction sources generalizing tester with
  | nil =>
    refine ⟨iff_of_true ⟨tester, rfl⟩ nofun, fun tester' loads => ?_⟩
    cases loads
    exact ⟨Nat.le_refl _, fun tid => (List.append_nil _).symm⟩
  | cons source sources ih =>
    have bound : namesBound decode (allRows content (source :: sources)) =
        namesBound decode (content source.fn).rows +
          namesBound decode (allRows content sources) := namesBound_append _ _
    obtain ⟨follows, follow⟩ := follow
    have openedFirst := opened source List.mem_cons_self
    have wellFormedFirst := wellFormed source List.mem_cons_self
    have readableIff : (∀ row ∈ allRows content (source :: sources), row.Readable) ↔
        (∀ row ∈ (content source.fn).rows, row.Readable) ∧
          ∀ row ∈ allRows content sources, row.Readable := by
      unfold allRows
      rw [List.flatMap_cons]
      exact List.forall_mem_append
    by_cases readable : ∀ row ∈ (content source.fn).rows, row.Readable
    · obtain ⟨middle, loads, loadedMiddle, count, lengthMiddle, operations⟩ :=
        loaded.source_loads decode openedFirst wellFormedFirst follows readable (by omega)
      have followMiddle : ThreadsFollow middle.traces.length sources := by
        rw [count]
        exact follow
      have fewMiddle : middle.fileAccess.length +
          namesBound decode (allRows content sources) < 2 ^ 32 := by
        omega
      have rest := ih loadedMiddle
        (fun source member => opened source (List.mem_cons_of_mem _ member))
        (fun source member => wellFormed source (List.mem_cons_of_mem _ member))
        followMiddle fewMiddle
      refine ⟨?_, fun tester' loads' => ?_⟩
      · rw [readableIff, and_iff_right readable, ← rest.1]
        refine exists_congr fun tester' => ?_
        rw [loadTraces_cons_ok_iff, loads]
        constructor
        · rintro ⟨_, same, later⟩
          rw [Except.ok.inj same]
          exact later
        · exact fun later => ⟨_, rfl, later⟩
      · obtain ⟨middle', same, later⟩ := loadTraces_cons_ok_iff.mp loads'
        obtain rfl := Except.ok.inj (loads.symm.trans same)
        obtain ⟨lengthAfter, operationsAfter⟩ := rest.2 tester' later
        refine ⟨by omega, fun tid => ?_⟩
        rw [operationsAfter, operations, List.flatMap_cons, List.append_assoc]
    · have fails : ∀ tester', loadTraces decode files (source :: sources) tester ≠ .ok tester' := by
        intro tester' loads
        obtain ⟨middle, first, -⟩ := loadTraces_cons_ok_iff.mp loads
        rw [loadTrace_rows wellFormedFirst openedFirst follows] at first
        exact readable (readable_of_loadRows first)
      refine ⟨iff_of_false (fun loads => fails _ loads.choose_spec) fun all => ?_,
        fun tester' loads => absurd loads (fails tester')⟩
      exact readable (readableIff.mp all).1

/-- `Config` on well-formed trace files, whatever the file buffer holds: it returns exactly when
every operation is known; then the trace of a thread has one entry for each line of its files, in
their order, that says what the line says. -/
theorem config_loads {files : Text → Option Text} {content : Text → TraceFile}
    {sources : List TraceSource}
    (opened : ∀ source ∈ sources, files source.fn = some (content source.fn).text)
    (wellFormed : ∀ source ∈ sources, (content source.fn).WellFormed)
    (follow : ThreadsFollow 0 sources)
    (few : 2 + namesBound decode (allRows content sources) < 2 ^ 32) :
    ((∃ tester, config decode files sources = .ok tester) ↔
      ∀ row ∈ allRows content sources, row.Readable) ∧
    ∀ tester, config decode files sources = .ok tester →
      tester.fileAccess.length < 2 ^ 32 ∧
      ∀ tid, tester.operations tid = sources.flatMap fun source =>
        if tid = source.tid then (content source.fn).rows.map (TraceRow.entry decode) else [] := by
  obtain ⟨returns, entries⟩ := loaded_withRoot.sources_load opened wellFormed follow few
  refine ⟨returns, fun tester loads => ?_⟩
  obtain ⟨length, operations⟩ := entries tester loads
  exact ⟨Nat.lt_of_le_of_lt length few, operations⟩

end Files

/-- A file with one line: a write to a file in a directory. -/
def sampleFile : TraceFile where
  comment := "# trace".toList
  comments := []
  header := "Time".toList
  rows := [{
    timestamp := "5".toList
    operation := "WriteFile".toList
    path := List.replicate pathPrefix 'x' ++ "\\d\\f".toList
    result := []
    tid := "1".toList
    param1 := "16".toList
    param2 := "32".toList
    param3 := [] }]

/-- Letters that have been checked one by one. -/
theorem inline_of_all {text : Text} (plain : Char → Bool)
    (checked : (text.all fun letter => decide (Inline letter) && plain letter) = true) :
    ∀ letter ∈ text, Inline letter ∧ plain letter = true := by
  intro letter member
  have both := List.all_eq_true.mp checked letter member
  rw [Bool.and_eq_true, decide_eq_true_eq] at both
  exact both

/-- The file is well formed. -/
theorem sampleFile_wellFormed : sampleFile.WellFormed where
  comment := ⟨by decide, fun letter inside =>
    (inline_of_all (fun _ => true) (by decide) letter inside).1⟩
  comments line none := by cases none
  header := ⟨by decide, by decide, fun letter inside =>
    (inline_of_all (fun _ => true) (by decide) letter inside).1⟩
  fields row member value isField letter inside := by
    obtain rfl := List.mem_singleton.mp member
    have inFields := List.mem_flatten.mpr ⟨value, isField, inside⟩
    have checked := inline_of_all (fun letter => decide (letter ≠ ',')) (by decide) letter inFields
    exact ⟨checked.1, of_decide_eq_true checked.2⟩
  paths row member := by
    obtain rfl := List.mem_singleton.mp member
    exact .inr (by decide)
  fits := by decide

/-- Its line can be read. -/
theorem sampleFile_readable : ∀ row ∈ sampleFile.rows, row.Readable := by
  intro row member
  obtain rfl := List.mem_singleton.mp member
  show (stringToOpCode _).isSome = true
  decide

/-- A configuration with one trace. -/
def sampleSources : List TraceSource := [{ fn := [], thread := 1, stale := "junk".toList }]

/-- What the trace says. -/
def sampleOperation : TraceEntry where
  ts := 5
  opCode := .fileWrite
  threadId := 1
  filePath := "\\d\\f".toList
  offset := 16
  length := 32

/-- The configuration loads the trace. -/
theorem config_loads_sample : ∃ tester,
    config id (fun _ => some sampleFile.text) sampleSources = .ok tester ∧
      tester.operations 0 = [sampleOperation] := by
  have loads := @config_loads id (fun _ => some sampleFile.text) (fun _ => sampleFile)
    sampleSources (fun _ _ => rfl)
    (fun _ _ => sampleFile_wellFormed) ⟨by decide, trivial⟩ (by decide)
  obtain ⟨tester, returns⟩ := loads.1.mpr sampleFile_readable
  refine ⟨tester, returns, ?_⟩
  rw [(loads.2 tester returns).2]
  decide

/-- The configuration has one operation. -/
theorem sample_loads : ∃ tester,
    config id (fun _ => some sampleFile.text) sampleSources = .ok tester ∧
      tester.fileAccess.length < 2 ^ 32 ∧
      ∀ op ∈ tester.entries, op.filePath = sampleOperation.filePath := by
  have loads := @Loaded.sources_load id .withRoot (fun _ => some sampleFile.text)
    (fun _ => sampleFile) sampleSources loaded_withRoot (fun _ _ => rfl)
    (fun _ _ => sampleFile_wellFormed) ⟨by decide, trivial⟩ (by decide)
  obtain ⟨tester, returns⟩ := loads.1.mpr sampleFile_readable
  obtain ⟨length, operations⟩ := loads.2 tester returns
  refine ⟨tester, returns, Nat.lt_of_le_of_lt length (by decide), fun op member => ?_⟩
  obtain ⟨tid, isOperation⟩ := mem_operations member
  rw [operations] at isOperation
  have first : tid = 0 := by
    by_contra other
    have none : sampleSources.flatMap (fun source =>
        if tid = source.tid then sampleFile.rows.map (TraceRow.entry id) else []) = [] := by
      have apart : tid ≠ TraceSource.tid { fn := [], thread := 1, stale := "junk".toList } := other
      rw [sampleSources, List.flatMap_singleton, if_neg apart]
    rw [none] at isOperation
    cases isOperation
  subst first
  have only : (TraceTester.withRoot.operations 0 ++ sampleSources.flatMap fun source =>
      if 0 = source.tid then sampleFile.rows.map (TraceRow.entry id) else []) =
        [sampleOperation] := by decide
  rw [only, List.mem_singleton] at isOperation
  have path : op.unnumbered.filePath = sampleOperation.filePath := by rw [isOperation]
  exact path

end FsChecking.FsTester
