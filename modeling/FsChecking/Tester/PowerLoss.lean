import FsChecking.RefFs.OpHistory
import FsChecking.Tester.StateManager

/-!
# Verification after a power loss

`VerifyState` compares a simulator with a reference. `VerifyForPower` goes from a state to its
parents until the recovered simulator agrees with a reference, and takes that reference over. The
simulator is any implementation of `IFsSimulator`: each call may change it and may throw.
-/

namespace FsChecking.Tester

open Lib RefFs

/-! ## The simulator's interface -/

/-- `ERROR_CODE`, with the values outside the enumeration. -/
inductive ErrorCode where
  | ok | noOperation | noSpace | maxOpenFile | alreadyExist | general | readNoMappingData
  | physicalAddNomatch | createExist | create | openFile | getInfomation | deleteFile | deleteDir
  | nonEmpty | readFile | wrongFileSize | wrongFileData | pending | sync | parentNotExist
  | wrongPath | verifyFile | ckptFail | wrongBlockType | wrongFileType | wrongFileNum | sitMismatch
  | phyAddrMismatch | invalidIndex | invalidCheckpoint | journalOverflow | deadNid | lostNid
  | doubledNid | invalidNid | deadBlk | lostBlk | doubledBlk | invalidBlk | unknown
  | other (value : Int)
  deriving DecidableEq

/-- The value of `ERR_UNKNOWN`. -/
abbrev errUnknown : Int := 40

/-- The code that `VerifyState` makes of an exception's code. -/
def ErrorCode.caught : ErrorCode → ErrorCode
  | .other value => if errUnknown < value then .unknown else .other value
  | code => code

/-- How a call ends early. -/
inductive Interrupt where
  /-- It throws a `CJCException` with this code. -/
  | exception (code : ErrorCode)
  /-- It ends the process, or its behaviour is undefined. -/
  | fault (fault : RefFs.Fault)

/-- `FILE_DATA`. -/
structure FileData where
  /-- `fid`. -/
  fid : Nat
  /-- `offset`. -/
  offset : Nat

/-- `IFsSimulator`: the calls that the verification makes. -/
structure IFsSimulator (σ : Type) where
  /-- `GetFsInfo`; the information is not read. -/
  getFsInfo : EStateM Interrupt σ Unit
  /-- `GetFileDirNum`: the number of files and the number of directories. -/
  getFileDirNum (fid : Nat) : EStateM Interrupt σ (Nat × Nat)
  /-- `FileOpen`: the code and the id of the file. -/
  fileOpen (path : Text) : EStateM Interrupt σ (ErrorCode × Nat)
  /-- `FileClose`. -/
  fileClose (fid : Nat) : EStateM Interrupt σ Unit
  /-- `GetFileSize`. -/
  getFileSize (fid : Nat) : EStateM Interrupt σ Nat
  /-- `FileRead`: the pages that are read. -/
  fileRead (fid offset secs : Nat) : EStateM Interrupt σ (List FileData)

/-! ## Verifying one state -/

/-- The settings of the tester that the verification reads. -/
structure VerifyConfig where
  /-- `m_skip_check_file_data`. -/
  skipCheckFileData : Bool
  /-- `m_closed.m_opcode_len`. -/
  opcodeLen : Int32

section Verify

variable {σ : Type} (sim : IFsSimulator σ) (config : VerifyConfig)

/-- `Encode` into a local buffer whose contents are not used. -/
def encodeState (ref : CodedFs) : EStateM Interrupt σ Unit :=
  match encode ref maxEncodeSize config.opcodeLen (List.replicate maxEncodeSize '\x00') with
  | .ok _ _ => pure ()
  | .error fault _ => throw (.fault fault)

/-- Some page does not carry its own stamp. -/
def Mismatch (fid : Nat) (data : List FileData) : Prop :=
  ∃ entry ∈ data.zipIdx, entry.1.fid ≠ fid ∨ entry.1.offset ≠ entry.2

instance (fid : Nat) (data : List FileData) : Decidable (Mismatch fid data) :=
  inferInstanceAs (Decidable (∃ entry ∈ data.zipIdx, _))

/-- The part of `VerifyState` for the data of an open file: the code it returns, if it does. -/
def verifyData (file : RefFile) (fid : Nat) : EStateM Interrupt σ (Option ErrorCode) := do
  let fileSecs ← sim.getFileSize fid
  if file.size ≠ fileSecs then
    sim.fileClose fid
    return some .verifyFile
  else if config.skipCheckFileData then
    sim.fileClose fid
    return none
  else
    let data ← sim.fileRead fid 0 fileSecs
    throwIf (maxFileBlks < data.length) (.fault .undefined)
    sim.fileClose fid
    return if Mismatch fid data then some .verifyFile else none

/-- The body of the loop of `VerifyState`: the code it returns, if it does. -/
def verifyFile (ref : CodedFs) (file : RefFile) : EStateM Interrupt σ (Option ErrorCode) := do
  if file.fn = ['\\'] then return none
  else
    encodeState config ref
    let (ir, fid) ← sim.fileOpen file.fn
    if ir = .maxOpenFile then return none
    else if ir ≠ .ok ∨ fid = invalidNid then
      return some (if ir = .ok then .openFile else ir)
    else if file.isDir then
      sim.fileClose fid
      return none
    else verifyData sim config file fid

/-- The loop of `VerifyState`. -/
def verifyFiles (ref : CodedFs) : List Nat → EStateM Interrupt σ ErrorCode
  | [] => return .ok
  | index :: rest => do
    match ← verifyFile sim config ref (ref.fs.files index) with
    | some code => return code
    | none => verifyFiles ref rest

/-- The part of `VerifyState` inside `try`. -/
def verifyAll (ref : CodedFs) : EStateM Interrupt σ ErrorCode := do
  sim.getFsInfo
  let (realFileNr, realDirNr) ← sim.getFileDirNum 0
  if realDirNr ≠ ref.fs.dirNum then return .wrongFileNum
  else if realFileNr ≠ ref.fs.fileNum then return .wrongFileNum
  else
    encodeState config ref
    verifyFiles sim config ref ref.fs.usedFiles

/-- `VerifyState`. -/
def verifyState (ref : CodedFs) : EStateM RefFs.Fault σ ErrorCode := fun fs =>
  match verifyAll sim config ref fs with
  | .ok code fs' => .ok code fs'
  | .error (.exception code) fs' => .ok code.caught fs'
  | .error (.fault fault) fs' => .error fault fs'

end Verify

/-! ## Going back to an older state -/

/-- The file systems of a state. -/
structure Content (σ : Type) where
  /-- `m_ref_fs`. -/
  ref : CodedFs
  /-- `m_real_fs`. -/
  real : σ
  /-- `m_stable`. -/
  stable : Bool

variable {σ ω : Type}

/-- Replace the contents of a state. -/
def setContent (cur : Nat) (content : Content σ) (manager : StateManager (Content σ) ω) :
    StateManager (Content σ) ω :=
  manager.setState cur { manager.state cur with content := content }

/-- The simulator of a state. -/
def realFs (cur : Nat) : Lens (StateManager (Content σ) ω) σ where
  get manager := (manager.state cur).content.real
  put real manager := setContent cur { (manager.state cur).content with real := real } manager
  get_put real manager := by simp [setContent, StateManager.setState]
  put_get manager := by simp [setContent, StateManager.setState]

/-- Replace the reference of a state. -/
def setRef (cur : Nat) (ref : CodedFs) (manager : StateManager (Content σ) ω) :
    StateManager (Content σ) ω :=
  setContent cur { (manager.state cur).content with ref := ref } manager

/-- The verification accepts a state. -/
def Passes (err : ErrorCode) : Prop := err = .ok ∨ err = .noOperation

instance (err : ErrorCode) : Decidable (Passes err) := inferInstanceAs (Decidable (_ ∨ _))

section Power

variable (sim : IFsSimulator σ) (config : VerifyConfig)

/-- The loop of `VerifyForPower`, for a number of rounds. -/
def verifyParents : Nat → Nat → Option Nat → ErrorCode →
    EStateM RefFs.Fault (StateManager (Content σ) ω) ErrorCode
  | _, _, none, err => return err
  | 0, _, some _, _ => throw .undefined
  | fuel + 1, cur, some state, _ => do
    let manager ← get
    let err ← (realFs cur).zoom (verifyState sim config (manager.state state).content.ref)
    if Passes err then
      modify fun manager =>
        if state = cur then manager else setRef cur (manager.state state).content.ref manager
      return err
    else verifyParents fuel cur (manager.state state).parent err

/-- `VerifyForPower`, for a number of rounds of its loop. -/
def verifyForPower (fuel cur : Nat) :
    EStateM RefFs.Fault (StateManager (Content σ) ω) ErrorCode := do
  let err ← verifyParents sim config fuel cur (some cur) .ok
  modify fun manager =>
    let ref := (manager.state cur).content.ref
    setRef cur { ref with fs := ref.fs.demount } manager
  return err

end Power

/-! ## The search for a state that passes -/

section Search

variable {α : Type} (verify : α → EStateM RefFs.Fault σ ErrorCode)

/-- The first state that the verification accepts, with its code; without one, the last code. -/
def firstPassing : List α → ErrorCode → EStateM RefFs.Fault σ (ErrorCode × Option α)
  | [], err => return (err, none)
  | state :: older, _ => do
    let err ← verify state
    if Passes err then return (err, some state) else firstPassing older err

/-- The verification rejects all these states, one after the other. -/
def Rejects : List α → σ → σ → Prop
  | [], fs, fs' => fs' = fs
  | state :: older, fs, fs'' =>
    ∃ err fs', verify state fs = .ok err fs' ∧ ¬Passes err ∧ Rejects older fs' fs''

variable {verify} {states : List α} {fs fs' : σ}

/-- The search finds a state exactly when it accepts that state after it has rejected all states in
front of it. -/
theorem firstPassing_eq_some {err code : ErrorCode} {found : α} :
    firstPassing verify states err fs = .ok (code, some found) fs' ↔
      ∃ newer older middle, states = newer ++ found :: older ∧ Rejects verify newer fs middle ∧
        verify found middle = .ok code fs' ∧ Passes code := by
  induction states generalizing err fs with
  | nil =>
    constructor
    · rintro ⟨⟩
    · rintro ⟨newer, older, middle, split, -⟩
      exact absurd split (List.append_ne_nil_of_right_ne_nil _ (List.cons_ne_nil _ _)).symm
  | cons state rest ih =>
    rw [firstPassing, bind_eq_ok]
    constructor
    · rintro ⟨verdict, next, verified, run⟩
      by_cases passes : Passes verdict
      · rw [if_pos passes] at run
        cases run
        exact ⟨[], rest, fs, rfl, rfl, verified, passes⟩
      · rw [if_neg passes, ih] at run
        obtain ⟨newer, older, middle, rfl, rejected, accepted⟩ := run
        exact ⟨state :: newer, older, middle, rfl, ⟨verdict, next, verified, passes, rejected⟩,
          accepted⟩
    · rintro ⟨newer, older, middle, split, rejected, verified, passes⟩
      cases newer with
      | nil =>
        cases split
        cases rejected
        refine ⟨code, fs', verified, ?_⟩
        rw [if_pos passes]
        rfl
      | cons head newer =>
        cases split
        obtain ⟨verdict, next, first, fails, rejected⟩ := rejected
        refine ⟨verdict, next, first, ?_⟩
        rw [if_neg fails, ih]
        exact ⟨newer, older, middle, rfl, rejected, verified, passes⟩

/-- When all states are rejected, the search ends without a state. -/
theorem firstPassing_of_rejects (rejects : Rejects verify states fs fs') (err : ErrorCode) :
    ∃ code, firstPassing verify states err fs = .ok (code, none) fs' := by
  induction states generalizing err fs with
  | nil =>
    cases rejects
    exact ⟨err, rfl⟩
  | cons state rest ih =>
    obtain ⟨verdict, next, verified, fails, rejected⟩ := rejects
    obtain ⟨code, run⟩ := ih rejected verdict
    refine ⟨code, ?_⟩
    rw [firstPassing, bind_eq_ok]
    refine ⟨verdict, next, verified, ?_⟩
    rw [if_neg fails]
    exact run

/-- A search that ends without a state has rejected all of them; its code is not a pass unless it
began with one. -/
theorem rejects_of_firstPassing {err code : ErrorCode}
    (run : firstPassing verify states err fs = .ok (code, none) fs') :
    Rejects verify states fs fs' ∧ (states ≠ [] → ¬Passes code) := by
  induction states generalizing err fs with
  | nil =>
    cases run
    exact ⟨rfl, fun nonempty => absurd rfl nonempty⟩
  | cons state rest ih =>
    rw [firstPassing, bind_eq_ok] at run
    obtain ⟨verdict, next, verified, run⟩ := run
    by_cases passes : Passes verdict
    · rw [if_pos passes] at run
      cases run
    · rw [if_neg passes] at run
      obtain ⟨rejected, fails⟩ := ih run
      refine ⟨⟨verdict, next, verified, passes, rejected⟩, fun _ => ?_⟩
      cases rest with
      | nil =>
        cases run
        exact passes
      | cons head tail => exact fails (List.cons_ne_nil _ _)

/-- At most one state is the first that is not rejected. -/
theorem Rejects.unique {newer newer' older older' : List α} {state state' : α} {code code' : ErrorCode}
    {middle middle' last last' : σ} (split : newer ++ state :: older = newer' ++ state' :: older')
    (rejects : Rejects verify newer fs middle) (verified : verify state middle = .ok code last)
    (passes : Passes code) (rejects' : Rejects verify newer' fs middle')
    (verified' : verify state' middle' = .ok code' last') (passes' : Passes code') :
    newer = newer' ∧ state = state' := by
  induction newer generalizing newer' fs with
  | nil =>
    cases rejects
    cases newer' with
    | nil =>
      cases split
      exact ⟨rfl, rfl⟩
    | cons head rest =>
      cases split
      obtain ⟨err, next, first, fails, -⟩ := rejects'
      rw [verified] at first
      cases first
      exact absurd passes fails
  | cons head rest ih =>
    obtain ⟨err, next, first, fails, rejected⟩ := rejects
    cases newer' with
    | nil =>
      cases split
      cases rejects'
      rw [verified'] at first
      cases first
      exact absurd passes' fails
    | cons head' rest' =>
      obtain ⟨rfl, tails⟩ := List.cons.inj split
      obtain ⟨err', next', first', -, rejected'⟩ := rejects'
      rw [first] at first'
      cases first'
      obtain ⟨rfl, rfl⟩ := ih tails rejected rejected'
      exact ⟨rfl, rfl⟩

end Search

/-! ## The walk is the search -/

section Walk

variable (manager : StateManager (Content σ) ω) (cur : Nat) (fs : σ)

/-- Replacing the simulator of a state leaves every reference. -/
@[simp] theorem put_ref (state : Nat) :
    (((realFs cur).put fs manager).state state).content.ref = (manager.state state).content.ref := by
  by_cases here : state = cur
  · subst here
    simp [realFs, setContent, StateManager.setState]
  · simp [realFs, setContent, StateManager.setState, here]

/-- Replacing the simulator of a state leaves every parent. -/
@[simp] theorem put_parent (state : Nat) :
    (((realFs cur).put fs manager).state state).parent = (manager.state state).parent := by
  by_cases here : state = cur
  · subst here
    simp [realFs, setContent, StateManager.setState]
  · simp [realFs, setContent, StateManager.setState, here]

/-- The last simulator stays. -/
@[simp] theorem put_put (fs' : σ) :
    (realFs cur).put fs' ((realFs cur).put fs manager) = (realFs cur).put fs' manager := by
  simp [realFs, setContent, StateManager.setState]

/-- Running a program on the simulator that has been put in place. -/
theorem zoom_put {α : Type} (program : EStateM RefFs.Fault σ α) :
    (realFs cur).zoom program ((realFs cur).put fs manager) =
      match program fs with
      | .ok value fs' => .ok value ((realFs cur).put fs' manager)
      | .error fault fs' => .error fault ((realFs cur).put fs' manager) := by
  unfold Lens.zoom
  rw [(realFs cur).get_put]
  cases program fs with
  | ok value fs' => simp only [put_put]
  | error fault fs' => simp only [put_put]

/-- A state takes over its own reference. -/
theorem setRef_self : setRef cur (manager.state cur).content.ref manager = manager := by
  simp [setRef, setContent, StateManager.setState]

/-- The reference that a state takes over. -/
@[simp] theorem setRef_ref (ref : CodedFs) :
    ((setRef cur ref manager).state cur).content.ref = ref := by
  simp [setRef, setContent, StateManager.setState]

/-- The last reference stays. -/
theorem setRef_setRef (ref ref' : CodedFs) :
    setRef cur ref' (setRef cur ref manager) = setRef cur ref' manager := by
  simp [setRef, setContent, StateManager.setState]

variable {manager cur fs}
variable {sim : IFsSimulator σ} {config : VerifyConfig}

/-- The verification of a state of the manager. -/
abbrev verifyAt (sim : IFsSimulator σ) (config : VerifyConfig)
    (manager : StateManager (Content σ) ω) (state : Nat) : EStateM RefFs.Fault σ ErrorCode :=
  verifyState sim config (manager.state state).content.ref

/-- What the walk leaves after a search. -/
def afterSearch (manager : StateManager (Content σ) ω) (cur : Nat) :
    EStateM.Result RefFs.Fault σ (ErrorCode × Option Nat) →
      EStateM.Result RefFs.Fault (StateManager (Content σ) ω) ErrorCode
  | .ok (code, some state) fs =>
    .ok code (setRef cur (manager.state state).content.ref ((realFs cur).put fs manager))
  | .ok (code, none) fs => .ok code ((realFs cur).put fs manager)
  | .error fault fs => .error fault ((realFs cur).put fs manager)

/-- The loop of `VerifyForPower` on a chain of parents is the search along the chain. -/
theorem verifyParents_eq {pointer : Option Nat} {nodes : List Nat} {fuel : Nat} {err : ErrorCode}
    (chain : Chain (fun state => (manager.state state).parent) pointer nodes)
    (enough : nodes.length ≤ fuel) :
    verifyParents sim config fuel cur pointer err ((realFs cur).put fs manager) =
      afterSearch manager cur (firstPassing (verifyAt sim config manager) nodes err fs) := by
  induction nodes generalizing pointer fuel err fs with
  | nil =>
    obtain rfl := Chain.nil_iff.mp chain
    cases fuel <;> rfl
  | cons state older ih =>
    obtain ⟨rfl, rest⟩ := chain
    cases fuel with
    | zero => exact absurd enough (Nat.not_succ_le_zero _)
    | succ fuel =>
      have shorter : older.length ≤ fuel := Nat.le_of_succ_le_succ enough
      rw [verifyParents, get_bind_apply, firstPassing, bind_apply, bind_apply, put_ref, put_parent,
        zoom_put]
      have own : verifyState sim config (manager.state state).content.ref fs =
        verifyAt sim config manager state fs := rfl
      rw [own]
      cases verifyAt sim config manager state fs with
      | error fault fs' => rfl
      | ok verdict fs' =>
        dsimp only
        by_cases passes : Passes verdict
        · rw [if_pos passes, if_pos passes, modify_bind_apply]
          by_cases here : state = cur
          · subst here
            rw [if_pos rfl]
            have same := setRef_self ((realFs state).put fs' manager) state
            rw [put_ref] at same
            show EStateM.Result.ok verdict _ = EStateM.Result.ok verdict _
            rw [same]
          · rw [if_neg here, put_ref]
            rfl
        · rw [if_neg passes, if_neg passes]
          exact ih rest shorter

end Walk

/-! ## Recovery and stable states -/

/-- A reference is another one with all files closed, up to the counter of resets. -/
structure Closes (ref closed : CodedFs) : Prop where
  /-- The files. -/
  files : ∀ index < maxFileNum,
    closed.fs.files index = { ref.fs.files index with isOpen := false }
  /-- `m_opened`. -/
  opened : closed.fs.opened = 0
  /-- The lists. -/
  lists : closed.fs.usedList = ref.fs.usedList ∧ closed.fs.freeList = ref.fs.freeList ∧
    closed.fs.freeNum = ref.fs.freeNum
  /-- `m_file_num` and `m_dir_num`. -/
  counts : closed.fs.fileNum = ref.fs.fileNum ∧ closed.fs.dirNum = ref.fs.dirNum
  /-- The history of operations. -/
  history : closed.opCode = ref.opCode ∧ closed.opCodeLen = ref.opCodeLen

/-- A reference has the tree of another one; only the marks of open files differ. -/
structure SameTree (ref other : CodedFs) : Prop where
  /-- The files. -/
  files : ∀ index, ∃ isOpen, other.fs.files index = { ref.fs.files index with isOpen := isOpen }
  /-- The lists. -/
  lists : other.fs.usedList = ref.fs.usedList ∧ other.fs.freeList = ref.fs.freeList ∧
    other.fs.freeNum = ref.fs.freeNum
  /-- `m_file_num` and `m_dir_num`. -/
  counts : other.fs.fileNum = ref.fs.fileNum ∧ other.fs.dirNum = ref.fs.dirNum
  /-- The history of operations. -/
  history : other.opCode = ref.opCode ∧ other.opCodeLen = ref.opCodeLen

/-- Every open file has a number. -/
def Numbered (ref : CodedFs) : Prop :=
  ∀ index < maxFileNum, (ref.fs.files index).isOpen = true → (ref.fs.files index).fid ≠ invalidNid

/-- A reference after `Demount`. -/
def demounted (ref : CodedFs) : CodedFs := { ref with fs := ref.fs.demount }

/-- `Demount` closes all files exactly when all open files have numbers. -/
theorem closes_demounted {ref : CodedFs} : Closes ref (demounted ref) ↔ Numbered ref := by
  constructor
  · intro closes index inside isOpen unnumbered
    have file := closes.files index inside
    have kept : (demounted ref).fs.files index = ref.fs.files index :=
      if_neg fun numbered => numbered.2 unnumbered
    rw [kept] at file
    have flag := congrArg RefFile.isOpen file
    rw [isOpen] at flag
    cases flag
  · intro numbered
    refine ⟨?_, rfl, ⟨rfl, rfl, rfl⟩, ⟨rfl, rfl⟩, ⟨rfl, rfl⟩⟩
    intro index inside
    by_cases valid : (ref.fs.files index).fid = invalidNid
    · have closed : (ref.fs.files index).isOpen = false := by
        cases isOpen : (ref.fs.files index).isOpen with
        | false => rfl
        | true => exact absurd valid (numbered index inside isOpen)
      have kept : (demounted ref).fs.files index = ref.fs.files index :=
        if_neg fun numbered => numbered.2 valid
      rw [kept, ← closed]
    · exact if_pos ⟨inside, valid⟩

/-- `Demount` leaves the tree. -/
theorem sameTree_demounted (ref : CodedFs) : SameTree ref (demounted ref) := by
  refine ⟨fun index => ?_, ⟨rfl, rfl, rfl⟩, ⟨rfl, rfl⟩, ⟨rfl, rfl⟩⟩
  show ∃ isOpen, ite _ _ _ = _
  split
  · exact ⟨false, rfl⟩
  · exact ⟨(ref.fs.files index).isOpen, rfl⟩

/-- A recovery does not look past a stable state: when it reports success, the simulator matches the
reference of some state with no stable state in between, and that reference, closed, has been taken
over; when no state matches, the tree stays. -/
structure StopsAtStable (sim : IFsSimulator σ) (config : VerifyConfig)
    (manager : StateManager (Content σ) ω) (cur : Nat) (nodes : List Nat)
    (result : EStateM.Result RefFs.Fault (StateManager (Content σ) ω) ErrorCode) : Prop where
  /-- Success. -/
  accepted : ∀ manager', result = .ok .ok manager' → ∃ newer state older fs fs',
    nodes = newer ++ state :: older ∧
    Rejects (verifyAt sim config manager) newer (manager.state cur).content.real fs ∧
    verifyAt sim config manager state fs = .ok .ok fs' ∧
    (∀ between ∈ newer.tail, (manager.state between).content.stable = false) ∧
    Closes (manager.state state).content.ref (manager'.state cur).content.ref
  /-- No state matches. -/
  unmatched : ∀ fs, Rejects (verifyAt sim config manager) nodes (manager.state cur).content.real fs →
    ∃ err manager', result = .ok err manager' ∧ err ≠ .ok ∧
      SameTree (manager.state cur).content.ref (manager'.state cur).content.ref

section Recovery

variable {sim : IFsSimulator σ} {config : VerifyConfig} {manager : StateManager (Content σ) ω}
variable {cur fuel : Nat} {nodes : List Nat}

/-- `VerifyForPower` on a chain of parents. -/
theorem verifyForPower_eq
    (chain : Chain (fun state => (manager.state state).parent) (some cur) nodes)
    (enough : nodes.length ≤ fuel) :
    verifyForPower sim config fuel cur manager =
      match firstPassing (verifyAt sim config manager) nodes .ok (manager.state cur).content.real with
      | .ok (code, found) fs => .ok code (setRef cur
          (demounted (manager.state (found.getD cur)).content.ref) ((realFs cur).put fs manager))
      | .error fault fs => .error fault ((realFs cur).put fs manager) := by
  have whole : (realFs cur).put (manager.state cur).content.real manager = manager :=
    (realFs cur).put_get manager
  have walk : verifyParents sim config fuel cur (some cur) .ok
      ((realFs cur).put (manager.state cur).content.real manager) =
        afterSearch manager cur (firstPassing (verifyAt sim config manager) nodes .ok
          (manager.state cur).content.real) := verifyParents_eq chain enough
  rw [whole] at walk
  rw [verifyForPower, bind_apply, walk]
  cases firstPassing (verifyAt sim config manager) nodes .ok (manager.state cur).content.real with
  | error fault fs => rfl
  | ok pair fs =>
    obtain ⟨code, found⟩ := pair
    cases found with
    | none =>
      show EStateM.Result.ok code (setRef cur (demounted _) _) = _
      rw [put_ref]
      rfl
    | some state =>
      show EStateM.Result.ok code (setRef cur (demounted _) _) = _
      rw [setRef_ref, setRef_setRef]
      rfl

/-- The verification for a power loss stops at stable states if and only if, whenever the first
state that is not rejected passes, no stable state lies between it and the current one, and the open
files of its reference have numbers. -/
theorem verifyForPower_stopsAtStable_iff
    (chain : Chain (fun state => (manager.state state).parent) (some cur) nodes)
    (enough : nodes.length ≤ fuel) :
    StopsAtStable sim config manager cur nodes (verifyForPower sim config fuel cur manager) ↔
      ∀ newer state older fs fs', nodes = newer ++ state :: older →
        Rejects (verifyAt sim config manager) newer (manager.state cur).content.real fs →
        verifyAt sim config manager state fs = .ok .ok fs' →
        (∀ between ∈ newer.tail, (manager.state between).content.stable = false) ∧
          Numbered (manager.state state).content.ref := by
  have result : verifyForPower sim config fuel cur manager = _ := verifyForPower_eq chain enough
  constructor
  · intro stops newer state older fs fs' split rejects verified
    have search : firstPassing (verifyAt sim config manager) nodes .ok
        (manager.state cur).content.real = .ok (.ok, some state) fs' :=
      firstPassing_eq_some.mpr ⟨newer, older, fs, split, rejects, verified, .inl rfl⟩
    rw [search] at result
    obtain ⟨newer', state', older', fs₁, fs₂, split', rejects', verified', unstable, closes⟩ :=
      stops.accepted _ result
    obtain ⟨rfl, rfl⟩ := rejects.unique (split.symm.trans split') verified (.inl rfl) rejects'
      verified' (.inl rfl)
    rw [setRef_ref] at closes
    exact ⟨unstable, closes_demounted.mp closes⟩
  · intro condition
    constructor
    · intro manager' returned
      rw [result] at returned
      cases search : firstPassing (verifyAt sim config manager) nodes .ok
          (manager.state cur).content.real with
      | error fault fs =>
        rw [search] at returned
        cases returned
      | ok pair fs' =>
        obtain ⟨code, found⟩ := pair
        rw [search] at returned
        cases returned
        cases found with
        | none =>
          have nonempty : nodes ≠ [] := by
            obtain ⟨rest, whole, -⟩ := chain.of_some
            rw [whole]
            exact List.cons_ne_nil _ _
          exact absurd (.inl rfl) ((rejects_of_firstPassing search).2 nonempty)
        | some state =>
          obtain ⟨newer, older, fs, split, rejects, verified, -⟩ := firstPassing_eq_some.mp search
          obtain ⟨unstable, numbered⟩ :=
            condition newer state older fs fs' split rejects verified
          refine ⟨newer, state, older, fs, fs', split, rejects, verified, unstable, ?_⟩
          rw [setRef_ref]
          exact closes_demounted.mpr numbered
    · intro fs rejects
      obtain ⟨code, search⟩ := firstPassing_of_rejects rejects .ok
      obtain ⟨-, fails⟩ := rejects_of_firstPassing search
      rw [search] at result
      refine ⟨code, _, result, ?_, ?_⟩
      · rintro rfl
        obtain ⟨rest, whole, -⟩ := chain.of_some
        rw [whole] at fails
        exact fails (List.cons_ne_nil _ _) (.inl rfl)
      · rw [setRef_ref]
        exact sameTree_demounted _

end Recovery

/-! ## A recovery that loses what a mount had made stable -/

/-- A file system that holds only its root. -/
def formatted : IFsSimulator Unit where
  getFsInfo := pure ()
  getFileDirNum _ := pure (0, 1)
  fileOpen _ := pure (.openFile, invalidNid)
  fileClose _ := throw (.exception .openFile)
  getFileSize _ := throw (.exception .openFile)
  fileRead _ _ _ := throw (.exception .openFile)

/-- A new reference in which a directory is made for each path. -/
def withDirs (paths : List Text) : CodedFs where
  fs := paths.foldl (fun fs path => finalState (addPath path true 1 fs)) ReferenceFs.zero.initialized
  opCode := List.replicate opCodeSize '\x00'
  opCodeLen := 0

/-- Three states: the first is new, the second has made a directory, after which the file system may
have been mounted again, and the third has made one more directory. -/
def threeStates (mounted : Bool) : StateManager (Content Unit) Unit where
  state
    | 0 => ⟨⟨withDirs [], (), true⟩, (), none, 0, 2⟩
    | 1 => ⟨⟨withDirs ["\\a".toList], (), mounted⟩, (), some 0, 1, 2⟩
    | _ => ⟨⟨withDirs ["\\a".toList, "\\b".toList], (), false⟩, (), some 1, 2, 1⟩
  allocated := 3
  freeList := none
  freeNr := 0

/-- The settings of the sample runs. -/
def sampleConfig : VerifyConfig := ⟨false, 3⟩

/-- The parents of the last state. -/
theorem threeStates_chain (mounted : Bool) :
    Chain (fun state => ((threeStates mounted).state state).parent) (some 2) [2, 1, 0] :=
  ⟨rfl, rfl, rfl, rfl⟩

/-- Verifying the empty file system. -/
theorem verifyAll_formatted (ref : CodedFs) :
    verifyAll formatted sampleConfig ref =
      if 1 ≠ ref.fs.dirNum then pure .wrongFileNum
      else if 0 ≠ ref.fs.fileNum then pure .wrongFileNum
      else encodeState sampleConfig ref >>= fun _ =>
        verifyFiles formatted sampleConfig ref ref.fs.usedFiles := rfl

/-- The empty file system does not match a reference with another number of directories. -/
theorem verifyState_formatted_of_ne {ref : CodedFs} (differs : 1 ≠ ref.fs.dirNum) :
    verifyState formatted sampleConfig ref () = .ok .wrongFileNum () := by
  rw [verifyState, verifyAll_formatted, if_pos differs]
  rfl

/-- The empty file system matches a new reference. -/
theorem verifyState_formatted_new :
    verifyState formatted sampleConfig (withDirs []) () = .ok .ok () := by
  have usedFiles : (withDirs []).fs.usedFiles = [0] :=
    (initialized_slots ReferenceFs.zero).usedFiles_eq
  have returns : returned (encode (withDirs []) maxEncodeSize sampleConfig.opcodeLen
      (List.replicate maxEncodeSize '\x00')) = true := by decide +kernel
  obtain ⟨length, buffer, encoded⟩ := eq_ok_of_returned returns
  have printed : encodeState sampleConfig (withDirs []) () = .ok () () := by
    rw [encodeState, encoded]
    rfl
  have files : verifyFiles formatted sampleConfig (withDirs []) [0] () = .ok .ok () := rfl
  have dirs : ¬1 ≠ (withDirs []).fs.dirNum := not_not.mpr rfl
  have noFiles : ¬0 ≠ (withDirs []).fs.fileNum := not_not.mpr rfl
  rw [verifyState, verifyAll_formatted, if_neg dirs, if_neg noFiles, bind_apply, printed, usedFiles]
  dsimp only
  rw [files]

/-- The recovered file system is empty: the states that have made directories are rejected. -/
theorem threeStates_rejects (mounted : Bool) :
    Rejects (verifyAt formatted sampleConfig (threeStates mounted)) [2, 1] () () := by
  have last : verifyAt formatted sampleConfig (threeStates mounted) 2 () = .ok .wrongFileNum () :=
    verifyState_formatted_of_ne
      (show 1 ≠ (withDirs ["\\a".toList, "\\b".toList]).fs.dirNum by decide +kernel)
  have made : verifyAt formatted sampleConfig (threeStates mounted) 1 () = .ok .wrongFileNum () :=
    verifyState_formatted_of_ne (show 1 ≠ (withDirs ["\\a".toList]).fs.dirNum by decide +kernel)
  exact ⟨_, (), last, by decide, _, (), made, by decide, rfl⟩

/-- The first state passes. -/
theorem threeStates_passes (mounted : Bool) :
    verifyAt formatted sampleConfig (threeStates mounted) 0 () = .ok .ok () :=
  verifyState_formatted_new

/-- No other state is the first that passes. -/
theorem threeStates_first {mounted : Bool} {newer older : List Nat} {state : Nat} {fs fs' : Unit}
    (split : [2, 1, 0] = newer ++ state :: older)
    (rejects : Rejects (verifyAt formatted sampleConfig (threeStates mounted)) newer () fs)
    (verified : verifyAt formatted sampleConfig (threeStates mounted) state fs = .ok .ok fs') :
    newer = [2, 1] ∧ state = 0 := by
  have whole : newer ++ state :: older = [2, 1] ++ 0 :: [] := split.symm
  exact rejects.unique whole verified (.inl rfl) (threeStates_rejects mounted)
    (threeStates_passes mounted) (.inl rfl)

/-- The second state has been mounted, and the recovery passes all the same. -/
theorem verifyForPower_passes_stable :
    ¬StopsAtStable formatted sampleConfig (threeStates true) 2 [2, 1, 0]
      (verifyForPower formatted sampleConfig 3 2 (threeStates true)) := by
  have search : firstPassing (verifyAt formatted sampleConfig (threeStates true)) [2, 1, 0] .ok
      ((threeStates true).state 2).content.real = .ok (.ok, some 0) () :=
    firstPassing_eq_some.mpr
      ⟨[2, 1], [], (), rfl, threeStates_rejects true, threeStates_passes true, .inl rfl⟩
  have result : verifyForPower formatted sampleConfig 3 2 (threeStates true) = _ :=
    verifyForPower_eq (threeStates_chain true) (Nat.le_refl 3)
  rw [search] at result
  intro stops
  obtain ⟨newer, state, older, fs, fs', split, rejects, verified, unstable, -⟩ :=
    stops.accepted _ result
  obtain ⟨rfl, rfl⟩ := threeStates_first split rejects verified
  have mounted := unstable 1 (List.mem_singleton.mpr rfl)
  cases mounted

/-- A new reference has no open file. -/
theorem initialized_closed (fs : ReferenceFs) (index : Nat) :
    (fs.initialized.files index).isOpen = false := by
  unfold ReferenceFs.initialized
  dsimp only
  split
  · rfl
  · split
    · rfl
    · rfl

/-- Without the mount the recovery may go back to the first state. -/
theorem verifyForPower_stopsAtStable_unmounted :
    StopsAtStable formatted sampleConfig (threeStates false) 2 [2, 1, 0]
      (verifyForPower formatted sampleConfig 3 2 (threeStates false)) := by
  apply (verifyForPower_stopsAtStable_iff (threeStates_chain false) (Nat.le_refl 3)).mpr
  intro newer state older fs fs' split rejects verified
  obtain ⟨rfl, rfl⟩ := threeStates_first split rejects verified
  refine ⟨?_, ?_⟩
  · intro between member
    rw [List.mem_singleton.mp member]
    rfl
  · intro index inside isOpen
    change ((withDirs []).fs.files index).isOpen = true at isOpen
    have closed : ((withDirs []).fs.files index).isOpen = false := initialized_closed _ _
    rw [closed] at isOpen
    cases isOpen

end FsChecking.Tester
