import FsChecking.FsTester.Stamps
import FsChecking.Lib.Tokens
import Mathlib.Data.List.Nodup
import Mathlib.Logic.Function.Basic
import Mathlib.Tactic.IntervalCases

/-!
# The names of the traces

`CTraceTester` numbers the files that its traces name. `FindOrNewFile` gives a name that it has not
seen a number, after the name of its directory; the entries of the files are kept in the order of
the numbers, and a map leads from a name to its number.
-/

namespace FsChecking.FsTester

open Lib

/-- Text: the bytes of a trace file, or the wide characters of a path. -/
abbrev Text : Type := List Char

/-! ## The state of the tester -/

/-- `OP_CODE`, as far as traces go. -/
inductive OpCode where
  /-- `OP_NOP`. -/
  | nop
  /-- `OP_NO_EFFECT`. -/
  | noEffect
  /-- `OP_THREAD_CREATE`. -/
  | threadCreate
  /-- `OP_THREAD_EXIT`. -/
  | threadExit
  /-- `OP_FILE_CREATE`. -/
  | fileCreate
  /-- `OP_FILE_CLOSE`. -/
  | fileClose
  /-- `OP_FILE_READ`. -/
  | fileRead
  /-- `OP_FILE_WRITE`. -/
  | fileWrite
  /-- `OP_FILE_FLUSH`. -/
  | fileFlush
  /-- `OP_FILE_OPEN`. -/
  | fileOpen
  /-- `OP_FILE_DELETE`. -/
  | fileDelete
  /-- `OP_FILE_OVERWRITE`. -/
  | fileOverwrite
  deriving DecidableEq

/-- `TRACE_ENTRY`. The vector of a trace makes new entries of zeros; the members of the union are
told apart by the operation. -/
structure TraceEntry where
  /-- `ts`. -/
  ts : Nat := 0
  /-- `op_code`. -/
  opCode : OpCode := .nop
  /-- `thread_id`. -/
  threadId : Nat := 0
  /-- `fid`. -/
  fid : Nat := 0
  /-- `file_path`. -/
  filePath : Text := []
  /-- `new_thread_id`. -/
  newThreadId : Nat := 0
  /-- `is_dir`. -/
  isDir : Bool := false
  /-- `is_async`. -/
  isAsync : Bool := false
  /-- `offset`. -/
  offset : Nat := 0
  /-- `length`. -/
  length : Nat := 0
  deriving DecidableEq

/-- `TRACE_INFO`, as `LoadTrace` fills it: the entries in use are its trace. -/
structure TraceInfo where
  /-- `m_trace`, up to `m_trace_nr`. -/
  trace : List TraceEntry := []
  /-- `m_trace_fn`. -/
  traceFn : Text := []
  /-- `m_max_buf_size`. -/
  maxBufSize : Nat := 0

/-- `FILE_ACCESS_INFO`. -/
structure FileAccessInfo where
  /-- `file_name`. -/
  fileName : Text := []
  /-- `fid`. -/
  fid : Nat := 0
  /-- `parent_fid`. -/
  parentFid : Nat := 0
  /-- `max_length`. -/
  maxLength : Nat := 0
  /-- `total_read`. -/
  totalRead : Nat := 0
  /-- `total_write`. -/
  totalWrite : Nat := 0
  /-- `is_dir`: set before it is read. -/
  isDir : Bool := false
  /-- `child_nr`. -/
  childNr : Nat := 0
  /-- `revision`. -/
  revision : Nat := 1

/-- `CTraceTester`, between its configuration and its test. -/
structure TraceTester where
  /-- `m_traces`. -/
  traces : List TraceInfo
  /-- `m_path_map`. -/
  pathMap : Text → Option Nat
  /-- `m_max_fid`. -/
  maxFid : Nat
  /-- `m_file_access`. -/
  fileAccess : List FileAccessInfo

/-- The name of the root. -/
def rootName : Text := ['\\']

/-- `Config`, before the traces: a dummy and the root. -/
def TraceTester.withRoot : TraceTester where
  traces := []
  pathMap := Function.update (fun _ => none) rootName (some 1)
  maxFid := 2
  fileAccess := [({} : FileAccessInfo), { fid := 1, fileName := rootName, parentFid := 0, isDir := true }]

/-! ## `FindOrNewFile` -/

/-- A directory with one more entry. -/
def FileAccessInfo.withChild (info : FileAccessInfo) : FileAccessInfo :=
  { info with childNr := info.childNr + 1, isDir := true }

/-- The second half of `FindOrNewFile`: a new entry below a directory. -/
def TraceTester.newEntry (tester : TraceTester) (path : Text) (parentId : Nat) (isDir : Bool) :
    Nat × TraceTester :=
  let fid := tester.maxFid
  (fid, { tester with
    maxFid := dword (fid + 1)
    pathMap := Function.update tester.pathMap path (some fid)
    fileAccess := ((tester.fileAccess ++ [({} : FileAccessInfo)]).modify parentId FileAccessInfo.withChild).modify fid
      fun info => { info with fid := fid, parentFid := parentId, fileName := path, isDir := isDir } })

/-- What stands before the last backslash is shorter. -/
theorem length_take_lastIndexOf {path : Text} {ss : Nat}
    (found : lastIndexOf '\\' path = some ss) : (path.take ss).length < path.length := by
  obtain ⟨last, split, -, length⟩ := exists_of_lastIndexOf found
  have total := congrArg List.length split
  rw [List.length_append, List.length_cons] at total
  omega

/-- `FindOrNewFile`: the number of a path, and the tester after that. -/
def findOrNewFile (path : Text) (isDir : Bool) (tester : TraceTester) : Nat × TraceTester :=
  match tester.pathMap path with
  | some fid => (fid, tester)
  | none =>
    let parent :=
      match found : lastIndexOf '\\' path with
      | none => (1, tester)
      | some ss =>
        if path.take ss = [] then (1, tester)
        else findOrNewFile (path.take ss) true tester
    parent.2.newEntry path parent.1 isDir
termination_by path.length
decreasing_by exact length_take_lastIndexOf found

/-! ## Names -/

/-- A name without its last component. -/
def parentName (name : Text) : Text :=
  match lastIndexOf '\\' name with
  | none => rootName
  | some ss => if name.take ss = [] then rootName else name.take ss

/-- A name is a path or one of its parent prefixes. -/
def AtOrAbove (name path : Text) : Prop :=
  name = path ∨ (name ≠ [] ∧ name ++ ['\\'] <+: path)

/-- Above a path is what is at or above its parent. -/
theorem atOrAbove_iff {name path : Text} :
    AtOrAbove name path ↔ name = path ∨ ∃ ss, lastIndexOf '\\' path = some ss ∧
      path.take ss ≠ [] ∧ AtOrAbove name (path.take ss) := by
  unfold AtOrAbove
  apply or_congr_right
  cases found : lastIndexOf '\\' path with
  | none =>
    apply iff_of_false
    · rintro ⟨-, before⟩
      apply lastIndexOf_eq_none.mp found
      exact before.subset (List.mem_append_right _ List.mem_cons_self)
    · rintro ⟨ss, none, -⟩
      cases none
  | some ss =>
    obtain ⟨last, split, plain, length⟩ := exists_of_lastIndexOf found
    have before : name ++ ['\\'] <+: path ↔
        name = path.take ss ∨ name ++ ['\\'] <+: path.take ss := by
      conv_lhs => rw [split]
      exact prefix_split_iff plain
    rw [before]
    constructor
    · rintro ⟨notEmpty, same | above⟩
      · exact ⟨ss, rfl, same ▸ notEmpty, .inl same⟩
      · refine ⟨ss, rfl, fun empty => ?_, .inr ⟨notEmpty, above⟩⟩
        rw [empty] at above
        exact absurd (List.prefix_nil.mp above) (List.append_ne_nil_of_right_ne_nil _ (by simp))
    · rintro ⟨ss', same, notEmpty, here⟩
      obtain rfl := Option.some.inj same
      rcases here with rfl | ⟨some, above⟩
      · exact ⟨notEmpty, .inl rfl⟩
      · exact ⟨some, .inr above⟩

/-- An entry of the list, or a new one where the list has none. -/
def TraceTester.info (tester : TraceTester) (fid : Nat) : FileAccessInfo :=
  tester.fileAccess.getD fid {}

/-- What `FindOrNewFile` knows of the parent when it makes an entry. -/
def parentEntry (path : Text) (tester : TraceTester) : Nat × TraceTester :=
  match lastIndexOf '\\' path with
  | none => (1, tester)
  | some ss => if path.take ss = [] then (1, tester) else findOrNewFile (path.take ss) true tester

/-- A path that has a number. -/
theorem findOrNewFile_found {tester : TraceTester} {path : Text} {fid : Nat}
    (found : tester.pathMap path = some fid) (isDir : Bool) :
    findOrNewFile path isDir tester = (fid, tester) := by
  rw [findOrNewFile, found]

/-- A path that has none. -/
theorem findOrNewFile_new {tester : TraceTester} {path : Text}
    (new : tester.pathMap path = none) (isDir : Bool) :
    findOrNewFile path isDir tester =
      (parentEntry path tester).2.newEntry path (parentEntry path tester).1 isDir := by
  rw [findOrNewFile, new, parentEntry]
  dsimp only
  split <;> rename_i found
  · rw [found]
  · rw [found]

/-! ## Entries -/

section Entries

variable {tester tester' tester'' : TraceTester} {path name : Text} {parentId fid : Nat}
  {isDir : Bool} {asked asked' : Text → Prop} {busy : Option Nat}

/-- The new entry, and the entry of its directory. -/
theorem info_newEntry (path : Text) (isDir : Bool) (length : tester.fileAccess.length = tester.maxFid)
    (older : parentId < tester.maxFid) (fid : Nat) :
    (tester.newEntry path parentId isDir).2.info fid =
      if fid = tester.maxFid then
        { fid := fid, parentFid := parentId, fileName := path, isDir := isDir }
      else if fid = parentId then (tester.info fid).withChild
      else tester.info fid := by
  unfold TraceTester.info TraceTester.newEntry
  dsimp only
  rw [List.getD_eq_getElem?_getD, List.getD_eq_getElem?_getD, List.getElem?_modify,
    List.getElem?_modify, List.getElem?_append, length]
  by_cases new : fid = tester.maxFid
  · have apart : parentId ≠ tester.maxFid := Nat.ne_of_lt older
    simp [new, apart]
  · have apart : tester.maxFid ≠ fid := Ne.symm new
    by_cases early : fid < tester.maxFid
    · have stored := List.getElem?_eq_getElem (length ▸ early)
      by_cases above : fid = parentId
      · subst above
        simp [new, apart, early, stored]
      · simp [new, apart, early, stored, above, Ne.symm above]
    · have none : [({} : FileAccessInfo)][fid - tester.maxFid]? = none :=
        List.getElem?_eq_none (by rw [List.length_singleton]; omega)
      have beyond : tester.fileAccess.length ≤ fid := by omega
      have away : parentId ≠ fid := by omega
      simp [new, apart, early, away, Ne.symm away, List.getElem?_eq_none beyond, none]

/-- There is one more entry. -/
theorem length_newEntry : (tester.newEntry path parentId isDir).2.fileAccess.length =
    tester.fileAccess.length + 1 := by
  unfold TraceTester.newEntry
  rw [List.length_modify, List.length_modify, List.length_append, List.length_singleton]

/-- The number of entries below an entry. -/
def TraceTester.children (tester : TraceTester) (fid : Nat) : Nat :=
  (List.range tester.maxFid).countP fun below => (tester.info below).parentFid = fid

/-- The paths that have been asked for, what is above them, and the root. -/
def Named (asked : Text → Prop) (name : Text) : Prop :=
  name = rootName ∨ ∃ path, asked path ∧ AtOrAbove name path

/-- The entries fit the paths that have been asked for; a directory that has been made for the sake
of an entry may be waiting for it. -/
structure Sound (asked : Text → Prop) (busy : Option Nat) (tester : TraceTester) : Prop where
  /-- The next number is the number of entries. -/
  length : tester.fileAccess.length = tester.maxFid
  /-- The map leads from the names to the numbers. -/
  found_iff : ∀ name fid, tester.pathMap name = some fid ↔
    0 < fid ∧ fid < tester.maxFid ∧ (tester.info fid).fileName = name
  /-- The root is the first one. -/
  root : tester.pathMap rootName = some 1
  /-- The names are those that have been asked for. -/
  named : ∀ name, (tester.pathMap name).isSome ↔ Named asked name
  /-- The first entry has no name. -/
  dummy : (tester.info 0).fileName = []
  /-- Every entry has its number. -/
  numbered : ∀ fid < tester.maxFid, (tester.info fid).fid = fid
  /-- The parent is the directory of the name. -/
  parent : ∀ fid < tester.maxFid, 1 < fid →
    tester.pathMap (parentName (tester.info fid).fileName) = some (tester.info fid).parentFid
  /-- The parent is older. -/
  older : ∀ fid < tester.maxFid, 1 < fid → (tester.info fid).parentFid < fid
  /-- The root is below the entry that has no name. -/
  top : (tester.info 1).parentFid = 0 ∧ (tester.info 0).parentFid = 0
  /-- Children are counted. -/
  counted : ∀ fid, 0 < fid → fid < tester.maxFid →
    (tester.info fid).childNr = tester.children fid
  /-- Directories are the root and what has children. -/
  directory : ∀ fid, 0 < fid → fid < tester.maxFid →
    ((tester.info fid).isDir = true ↔ fid = 1 ∨ 0 < (tester.info fid).childNr ∨ busy = some fid)
  /-- Nothing has been written. -/
  revision : ∀ fid, (tester.info fid).revision = 1

/-- The root has a number. -/
theorem Sound.lt_maxFid (sound : Sound asked busy tester) : 1 < tester.maxFid :=
  ((sound.found_iff rootName 1).mp sound.root).2.1

/-- A number is found under one name. -/
theorem Sound.inj {name' : Text} (sound : Sound asked busy tester)
    (found : tester.pathMap name = some fid) (found' : tester.pathMap name' = some fid) :
    name = name' :=
  ((sound.found_iff name fid).mp found).2.2.symm.trans ((sound.found_iff name' fid).mp found').2.2

/-- Before the first path. -/
theorem sound_withRoot : Sound (fun _ => False) none TraceTester.withRoot where
  length := rfl
  found_iff name fid := by
    show Function.update (fun _ => none) rootName (some 1) name = some fid ↔ _
    rw [Function.update_apply]
    constructor
    · intro found
      by_cases same : name = rootName
      · rw [if_pos same] at found
        obtain rfl := Option.some.inj found
        exact ⟨by decide, by decide, same.symm⟩
      · rw [if_neg same] at found
        cases found
    · rintro ⟨present, early, same⟩
      have first : fid = 1 := by
        have bound : fid < 2 := early
        omega
      subst first
      exact if_pos same.symm
  root := rfl
  named name := by
    show (Function.update (fun _ => none) rootName (some 1) name).isSome ↔ _
    rw [Function.update_apply]
    constructor
    · intro found
      by_cases same : name = rootName
      · exact .inl same
      · rw [if_neg same] at found
        cases found
    · rintro (same | ⟨path, none, -⟩)
      · rw [if_pos same]
        rfl
      · exact none.elim
  dummy := rfl
  numbered fid early := by
    have bound : fid < 2 := early
    interval_cases fid <;> rfl
  parent fid early late := by
    have bound : fid < 2 := early
    omega
  older fid early late := by
    have bound : fid < 2 := early
    omega
  top := ⟨rfl, rfl⟩
  counted fid present early := by
    have bound : fid < 2 := early
    interval_cases fid
    rfl
  directory fid present early := by
    have bound : fid < 2 := early
    interval_cases fid
    decide
  revision fid := by
    obtain _ | _ | fid := fid <;> rfl

/-- The children after a new entry. -/
theorem children_newEntry (path : Text) (isDir : Bool) (length : tester.fileAccess.length = tester.maxFid)
    (few : tester.maxFid + 1 < 2 ^ 32) (older : parentId < tester.maxFid) (fid : Nat) :
    (tester.newEntry path parentId isDir).2.children fid =
      tester.children fid + if parentId = fid then 1 else 0 := by
  have next : (tester.newEntry path parentId isDir).2.maxFid = tester.maxFid + 1 :=
    Nat.mod_eq_of_lt few
  have before : (List.range tester.maxFid).countP (fun below =>
      ((tester.newEntry path parentId isDir).2.info below).parentFid = fid) =
      tester.children fid := by
    apply List.countP_congr
    intro below member
    have early : below < tester.maxFid := List.mem_range.mp member
    rw [info_newEntry path isDir length older, if_neg (Nat.ne_of_lt early)]
    by_cases above : below = parentId
    · rw [if_pos above]
      exact Iff.rfl
    · rw [if_neg above]
  have here : ((tester.newEntry path parentId isDir).2.info tester.maxFid).parentFid = parentId := by
    rw [info_newEntry path isDir length older, if_pos rfl]
  unfold TraceTester.children at before ⊢
  rw [next, List.range_succ, List.countP_append, before, List.countP_singleton, here]
  simp only [decide_eq_true_eq]

/-- A tester with a new entry below a directory. -/
structure Entered (tester tester' : TraceTester) (path : Text) (parentId : Nat) (isDir : Bool) :
    Prop where
  /-- The next number. -/
  next : tester'.maxFid = tester.maxFid + 1
  /-- There is one more entry. -/
  length : tester'.fileAccess.length = tester.maxFid + 1
  /-- The path gets the number. -/
  map : ∀ name, tester'.pathMap name =
    if name = path then some tester.maxFid else tester.pathMap name
  /-- The entries. -/
  infos : ∀ fid, tester'.info fid =
    if fid = tester.maxFid then
      { fid := fid, parentFid := parentId, fileName := path, isDir := isDir }
    else if fid = parentId then (tester.info fid).withChild
    else tester.info fid
  /-- The directory has one more child. -/
  children : ∀ fid, tester'.children fid = tester.children fid + if parentId = fid then 1 else 0

/-- What `newEntry` does to a tester whose entries fit. -/
theorem entered_newEntry (path : Text) (isDir : Bool) (length : tester.fileAccess.length = tester.maxFid)
    (few : tester.maxFid + 1 < 2 ^ 32) (older : parentId < tester.maxFid) :
    Entered tester (tester.newEntry path parentId isDir).2 path parentId isDir where
  next := Nat.mod_eq_of_lt few
  length := length_newEntry.trans (congrArg (· + 1) length)
  map name := Function.update_apply tester.pathMap path (some tester.maxFid) name
  infos := info_newEntry path isDir length older
  children := children_newEntry path isDir length few older

/-- The new entry. -/
theorem Entered.made (entered : Entered tester tester' path parentId isDir) :
    tester'.info tester.maxFid =
      { fid := tester.maxFid, parentFid := parentId, fileName := path, isDir := isDir } := by
  rw [entered.infos, if_pos rfl]

/-- The other entries keep their names. -/
theorem Entered.kept (entered : Entered tester tester' path parentId isDir)
    (old : fid ≠ tester.maxFid) :
    (tester'.info fid).fileName = (tester.info fid).fileName ∧
      (tester'.info fid).parentFid = (tester.info fid).parentFid ∧
      (tester'.info fid).fid = (tester.info fid).fid ∧
      (tester'.info fid).revision = (tester.info fid).revision := by
  rw [entered.infos, if_neg old]
  by_cases above : fid = parentId
  · rw [if_pos above]
    exact ⟨rfl, rfl, rfl, rfl⟩
  · rw [if_neg above]
    exact ⟨rfl, rfl, rfl, rfl⟩

/-- Names keep their numbers. -/
theorem Entered.found (entered : Entered tester tester' path parentId isDir)
    (new : tester.pathMap path = none) (found : tester.pathMap name = some fid) :
    tester'.pathMap name = some fid := by
  have old : name ≠ path := by
    rintro rfl
    rw [new] at found
    cases found
  rw [entered.map, if_neg old, found]

/-- The map still leads from the names to the numbers. -/
theorem Sound.found_iff_entered (sound : Sound asked busy tester)
    (entered : Entered tester tester' path parentId isDir) (new : tester.pathMap path = none)
    (name : Text) (fid : Nat) : tester'.pathMap name = some fid ↔
      0 < fid ∧ fid < tester'.maxFid ∧ (tester'.info fid).fileName = name := by
  have least := sound.lt_maxFid
  rw [entered.map, entered.next]
  by_cases same : name = path
  · rw [if_pos same]
    constructor
    · intro here
      obtain rfl := Option.some.inj here
      rw [entered.made]
      exact ⟨by omega, by omega, same.symm⟩
    · rintro ⟨present, early, named⟩
      by_cases last : fid = tester.maxFid
      · rw [last]
      · rw [(entered.kept last).1] at named
        have found := (sound.found_iff name fid).mpr ⟨present, by omega, named⟩
        rw [same, new] at found
        cases found
  · rw [if_neg same, sound.found_iff]
    constructor
    · rintro ⟨present, early, named⟩
      exact ⟨present, by omega, (entered.kept (Nat.ne_of_lt early)).1.trans named⟩
    · rintro ⟨present, early, named⟩
      by_cases last : fid = tester.maxFid
      · rw [last, entered.made] at named
        exact absurd named.symm same
      · exact ⟨present, by omega, (entered.kept last).1.symm.trans named⟩

/-- Nothing is below a number that is not in use. -/
theorem Sound.children_maxFid (sound : Sound asked busy tester) :
    tester.children tester.maxFid = 0 := by
  apply List.countP_eq_zero.mpr
  intro below member
  have early : below < tester.maxFid := List.mem_range.mp member
  have least := sound.lt_maxFid
  rw [decide_eq_true_eq]
  by_cases late : 1 < below
  · have older := sound.older below early late
    omega
  · have top := sound.top
    interval_cases below <;> omega

/-- Children are still counted. -/
theorem Sound.counted_entered (sound : Sound asked busy tester)
    (entered : Entered tester tester' path parentId isDir) (older : parentId < tester.maxFid)
    (present : 0 < fid) (early : fid < tester'.maxFid) :
    (tester'.info fid).childNr = tester'.children fid := by
  rw [entered.next] at early
  rw [entered.children]
  by_cases last : fid = tester.maxFid
  · rw [last, entered.made, sound.children_maxFid, if_neg (Nat.ne_of_lt older)]
  · have count := sound.counted fid present (by omega)
    rw [entered.infos, if_neg last]
    by_cases above : fid = parentId
    · rw [if_pos above, if_pos above.symm, ← count]
      rfl
    · rw [if_neg above, if_neg (Ne.symm above), count, Nat.add_zero]

/-- The directory that was waiting has a child now; a new directory waits for one. -/
theorem Sound.directory_entered (sound : Sound asked busy tester)
    (entered : Entered tester tester' path parentId isDir)
    (waiting : busy = none ∨ busy = some parentId) (present : 0 < fid)
    (early : fid < tester'.maxFid) : (tester'.info fid).isDir = true ↔
      fid = 1 ∨ 0 < (tester'.info fid).childNr ∨
        (if isDir = true then some tester.maxFid else none) = some fid := by
  have least := sound.lt_maxFid
  rw [entered.next] at early
  by_cases last : fid = tester.maxFid
  · rw [last, entered.made]
    cases isDir with
    | false =>
      apply iff_of_false nofun
      rintro (first | some | other)
      · omega
      · exact absurd some (Nat.lt_irrefl 0)
      · cases other
    | true => exact iff_of_true rfl (.inr (.inr rfl))
  · have directory := sound.directory fid present (by omega)
    have other : ¬ (if isDir = true then some tester.maxFid else none) = some fid := by
      cases isDir with
      | false => nofun
      | true => exact fun same => last (Option.some.inj same).symm
    rw [entered.infos, if_neg last]
    by_cases above : fid = parentId
    · rw [if_pos above]
      exact iff_of_true rfl (.inr (.inl (Nat.succ_pos _)))
    · have idle : busy ≠ some fid := by
        rintro rfl
        rcases waiting with none | same
        · cases none
        · exact above (Option.some.inj same)
      rw [if_neg above, directory, or_iff_left idle, or_iff_left other]

/-- A new entry below a directory that has been found or made. -/
theorem Sound.newEntry (sound : Sound asked busy tester) (isDir : Bool)
    (few : tester.maxFid + 1 < 2 ^ 32) (new : tester.pathMap path = none)
    (parent : tester.pathMap (parentName path) = some parentId)
    (waiting : busy = none ∨ busy = some parentId)
    (more : ∀ name, Named asked' name ↔ name = path ∨ Named asked name) :
    Sound asked' (if isDir = true then some tester.maxFid else none)
      (tester.newEntry path parentId isDir).2 := by
  have older := ((sound.found_iff _ _).mp parent).2.1
  have entered := entered_newEntry path isDir sound.length few older
  have least := sound.lt_maxFid
  generalize (tester.newEntry path parentId isDir).2 = tester' at *
  have next := entered.next
  refine ⟨entered.length.trans next.symm, sound.found_iff_entered entered new,
    entered.found new sound.root, ?_, ?_, ?_, ?_, ?_, ?_,
    fun fid => sound.counted_entered entered older,
    fun fid => sound.directory_entered entered waiting, ?_⟩
  · intro name
    rw [entered.map, more, ← sound.named]
    by_cases same : name = path
    · rw [if_pos same]
      exact iff_of_true rfl (.inl same)
    · rw [if_neg same]
      exact ⟨.inr, fun named => named.resolve_left same⟩
  · exact (entered.kept (by omega)).1.trans sound.dummy
  · intro fid early
    by_cases last : fid = tester.maxFid
    · rw [last, entered.made]
    · exact (entered.kept last).2.2.1.trans (sound.numbered fid (by omega))
  · intro fid early late
    by_cases last : fid = tester.maxFid
    · rw [last, entered.made]
      exact entered.found new parent
    · rw [(entered.kept last).1, (entered.kept last).2.1]
      exact entered.found new (sound.parent fid (by omega) late)
  · intro fid early late
    by_cases last : fid = tester.maxFid
    · rw [last, entered.made]
      exact older
    · rw [(entered.kept last).2.1]
      exact sound.older fid (by omega) late
  · have first : 1 ≠ tester.maxFid := Nat.ne_of_lt least
    have zero : 0 ≠ tester.maxFid := by omega
    rw [(entered.kept first).2.1, (entered.kept zero).2.1]
    exact sound.top
  · intro fid
    by_cases last : fid = tester.maxFid
    · rw [last, entered.made]
    · exact (entered.kept last).2.2.2.trans (sound.revision fid)

/-! ## Growth -/

/-- Names keep their numbers, and entries keep what has been read and written. -/
structure Grown (tester tester' : TraceTester) : Prop where
  /-- The traces are kept. -/
  traces : tester'.traces = tester.traces
  /-- Entries are added. -/
  length : tester.fileAccess.length ≤ tester'.fileAccess.length
  /-- Names keep their numbers. -/
  found : ∀ name fid, tester.pathMap name = some fid → tester'.pathMap name = some fid
  /-- Lengths are kept, and new entries have none. -/
  maxLength : ∀ fid, (tester'.info fid).maxLength = (tester.info fid).maxLength

/-- Nothing has changed. -/
theorem Grown.refl (tester : TraceTester) : Grown tester tester where
  traces := rfl
  length := Nat.le_refl _
  found _ _ found := found
  maxLength _ := rfl

/-- One growth after another. -/
theorem Grown.trans (first : Grown tester tester') (second : Grown tester' tester'') :
    Grown tester tester'' where
  traces := second.traces.trans first.traces
  length := first.length.trans second.length
  found name fid found := second.found name fid (first.found name fid found)
  maxLength fid := (second.maxLength fid).trans (first.maxLength fid)

/-- A new entry. -/
theorem Sound.newEntry_grown (sound : Sound asked busy tester) (new : tester.pathMap path = none)
    (parent : tester.pathMap name = some parentId) (isDir : Bool) :
    Grown tester (tester.newEntry path parentId isDir).2 where
  traces := rfl
  length := by
    rw [length_newEntry]
    exact Nat.le_succ _
  found other fid found := by
    show Function.update tester.pathMap path (some tester.maxFid) other = some fid
    have old : other ≠ path := by
      rintro rfl
      rw [new] at found
      cases found
    rw [Function.update_of_ne old, found]
  maxLength fid := by
    have older := ((sound.found_iff _ _).mp parent).2.1
    rw [info_newEntry path isDir sound.length older]
    by_cases last : fid = tester.maxFid
    · have beyond : tester.fileAccess[fid]? = none :=
        List.getElem?_eq_none (by rw [sound.length, last])
      rw [if_pos last, TraceTester.info, List.getD_eq_getElem?_getD, beyond]
      rfl
    · rw [if_neg last]
      by_cases above : fid = parentId
      · rw [if_pos above]
        rfl
      · rw [if_neg above]

/-- The search never takes entries away. -/
theorem length_findOrNewFile (path : Text) (isDir : Bool) (tester : TraceTester) :
    tester.fileAccess.length ≤ (findOrNewFile path isDir tester).2.fileAccess.length := by
  induction size : path.length using Nat.strong_induction_on generalizing path isDir with
  | _ size ih =>
    cases known : tester.pathMap path with
    | some fid =>
      rw [findOrNewFile_found known]
    | none =>
      rw [findOrNewFile_new known, length_newEntry]
      apply Nat.le_succ_of_le
      unfold parentEntry
      cases found : lastIndexOf '\\' path with
      | none => exact Nat.le_refl _
      | some ss =>
        dsimp only
        by_cases top : path.take ss = []
        · rw [if_pos top]
        · rw [if_neg top]
          exact ih _ (size ▸ length_take_lastIndexOf found) _ true rfl

/-- A path that is asked for anew brings the names at and above it. -/
theorem named_insert : Named (fun other => asked other ∨ other = path) name ↔
    Named asked name ∨ AtOrAbove name path := by
  unfold Named
  constructor
  · rintro (root | ⟨other, old | rfl, above⟩)
    · exact .inl (.inl root)
    · exact .inl (.inr ⟨other, old, above⟩)
    · exact .inr above
  · rintro ((root | ⟨other, old, above⟩) | above)
    · exact .inl root
    · exact .inr ⟨other, .inl old, above⟩
    · exact .inr ⟨path, .inr rfl, above⟩

/-- What is above a name is above what that name is above of. -/
theorem AtOrAbove.trans {upper : Text} (first : AtOrAbove upper name)
    (second : AtOrAbove name path) : AtOrAbove upper path := by
  rcases second with rfl | ⟨some, before⟩
  · exact first
  · rcases first with rfl | ⟨notEmpty, above⟩
    · exact .inr ⟨some, before⟩
    · exact .inr ⟨notEmpty, above.trans ((List.prefix_append _ _).trans before)⟩

/-- A name that has been found brings nothing new. -/
theorem Sound.again (sound : Sound asked busy tester) (found : tester.pathMap path = some fid) :
    Sound (fun other => asked other ∨ other = path) busy tester := by
  refine { sound with named := fun name => ?_ }
  rw [sound.named, named_insert]
  refine ⟨.inl, fun named => named.elim id fun above => ?_⟩
  have here : Named asked path := (sound.named path).mp (by rw [found]; rfl)
  rcases here with root | ⟨other, old, above'⟩
  · subst root
    rcases above with rfl | ⟨some, before⟩
    · exact .inl rfl
    · have short := before.length_le
      rw [List.length_append, List.length_singleton] at short
      exact absurd (List.length_eq_zero_iff.mp (Nat.le_zero.mp (Nat.le_of_succ_le_succ short))) some
  · exact .inr ⟨other, old, above.trans above'⟩

/-- A path whose parent is the root brings its own name only. -/
theorem named_insert_top
    (top : ∀ ss, lastIndexOf '\\' path = some ss → path.take ss = []) (name : Text) :
    Named (fun other => asked other ∨ other = path) name ↔ name = path ∨ Named asked name := by
  rw [named_insert, atOrAbove_iff, or_comm]
  apply or_congr_left
  apply or_iff_left
  rintro ⟨ss, found, below, -⟩
  exact below (top ss found)

/-- A path with another parent brings its own name and what is named with the parent. -/
theorem named_insert_below {ss : Nat} (found : lastIndexOf '\\' path = some ss)
    (below : path.take ss ≠ []) (name : Text) :
    Named (fun other => asked other ∨ other = path) name ↔
      name = path ∨ Named (fun other => asked other ∨ other = path.take ss) name := by
  rw [named_insert, named_insert, @atOrAbove_iff name path, found]
  constructor
  · rintro (old | same | ⟨_, here, -, above⟩)
    · exact .inr (.inl old)
    · exact .inl same
    · rw [← Option.some.inj here] at above
      exact .inr (.inr above)
  · rintro (same | old | above)
    · exact .inr (.inl same)
    · exact .inl old
    · exact .inr (.inr ⟨ss, rfl, below, above⟩)

/-- A path is not named with its parent. -/
theorem not_named_parent {ss : Nat} (unknown : ¬ Named asked path)
    (found : lastIndexOf '\\' path = some ss) :
    ¬ Named (fun other => asked other ∨ other = path.take ss) path := by
  have shorter := length_take_lastIndexOf found
  rw [named_insert]
  rintro (old | same | ⟨-, before⟩)
  · exact unknown old
  · rw [← same] at shorter
    exact Nat.lt_irrefl _ shorter
  · have short := before.length_le
    rw [List.length_append] at short
    omega

/-- What is there when the number of a name is known: the result of a search. -/
structure Located (asked : Text → Prop) (name : Text) (busy : Option Nat) (tester : TraceTester)
    (result : Nat × TraceTester) : Prop where
  /-- At most the entry itself waits for its first child. -/
  waiting : busy = none ∨ busy = some result.1
  /-- The tables are sound. -/
  sound : Sound asked busy result.2
  /-- The name has the number. -/
  found : result.2.pathMap name = some result.1
  /-- What was there is kept. -/
  grown : Grown tester result.2

/-- The parent of a new name, when the search is right for shorter paths. -/
theorem parentEntry_spec (sound : Sound asked none tester) (unknown : ¬ Named asked path)
    (few : (parentEntry path tester).2.fileAccess.length < 2 ^ 32)
    (shorter : ∀ upper : Text, upper.length < path.length →
      (findOrNewFile upper true tester).2.fileAccess.length < 2 ^ 32 →
      ∃ busy, Located (fun other => asked other ∨ other = upper) upper busy tester
        (findOrNewFile upper true tester)) :
    ∃ asked' busy, Located asked' (parentName path) busy tester (parentEntry path tester) ∧
      (∀ name, Named (fun other => asked other ∨ other = path) name ↔
        name = path ∨ Named asked' name) ∧
      ¬ Named asked' path := by
  unfold parentEntry parentName at *
  cases found : lastIndexOf '\\' path with
  | none =>
    refine ⟨asked, none, ⟨.inl rfl, sound, sound.root, .refl tester⟩, ?_, unknown⟩
    refine named_insert_top fun ss present => ?_
    rw [found] at present
    cases present
  | some ss =>
    rw [found] at few
    dsimp only at few ⊢
    by_cases top : path.take ss = []
    · rw [if_pos top] at few ⊢
      rw [if_pos top]
      refine ⟨asked, none, ⟨.inl rfl, sound, sound.root, .refl tester⟩, ?_, unknown⟩
      refine named_insert_top fun place here => ?_
      rw [found] at here
      rw [← Option.some.inj here]
      exact top
    · rw [if_neg top] at few ⊢
      rw [if_neg top]
      obtain ⟨busy, located⟩ := shorter _ (length_take_lastIndexOf found) few
      exact ⟨_, busy, located, named_insert_below found top, not_named_parent unknown found⟩

/-- `FindOrNewFile`: the path has its number, and everything above it is there. -/
theorem findOrNewFile_spec (sound : Sound asked none tester)
    (few : (findOrNewFile path isDir tester).2.fileAccess.length < 2 ^ 32) :
    ∃ busy, (busy = none ∨ busy = some (findOrNewFile path isDir tester).1) ∧
      (isDir = false → busy = none) ∧
      Sound (fun other => asked other ∨ other = path) busy (findOrNewFile path isDir tester).2 ∧
      (findOrNewFile path isDir tester).2.pathMap path =
        some (findOrNewFile path isDir tester).1 ∧
      Grown tester (findOrNewFile path isDir tester).2 := by
  induction size : path.length using Nat.strong_induction_on generalizing path isDir with
  | _ size ih =>
    cases known : tester.pathMap path with
    | some fid =>
      rw [findOrNewFile_found known]
      exact ⟨none, .inl rfl, fun _ => rfl, sound.again known, known, .refl tester⟩
    | none =>
      rw [findOrNewFile_new known] at few ⊢
      have unknown : ¬ Named asked path := by
        rw [← sound.named, known]
        nofun
      rw [length_newEntry] at few
      obtain ⟨asked', busy, ⟨waiting, soundAbove, parent, grown⟩, more, fresh⟩ :=
        parentEntry_spec sound unknown (Nat.lt_of_succ_lt few) fun upper shorter fewUpper => by
          obtain ⟨busy, waiting, -, soundAbove, parent, grown⟩ :=
            ih _ (size ▸ shorter) fewUpper rfl
          exact ⟨busy, waiting, soundAbove, parent, grown⟩
      have new : (parentEntry path tester).2.pathMap path = none := by
        rw [← Option.not_isSome_iff_eq_none, soundAbove.named]
        exact fresh
      rw [soundAbove.length] at few
      refine ⟨_, ?_, ?_, soundAbove.newEntry isDir few new parent waiting more, ?_,
        grown.trans (soundAbove.newEntry_grown new parent isDir)⟩
      · cases isDir with
        | false => exact .inl rfl
        | true => exact .inr rfl
      · rintro rfl
        rfl
      · exact Function.update_self path _ _

end Entries

end FsChecking.FsTester
