import FsChecking.RefFs.Rooted
import FsChecking.Storage.Model
import FsChecking.Tester.Explorer

/-!
# The operations that a state allows

`GenerateOps` of the exhaustive tester and of the statistic tester: both walk over the used files of
the reference and fill an array with the operations to try. `AddOp` throws when the array is full.
-/

namespace FsChecking.Tester

open Lib RefFs

/-! ## The array of operations -/

/-- `TRACE_ENTRY`, the members that the generators write. -/
structure TraceEntry where
  /-- `op_code`. -/
  opCode : OpCode
  /-- `file_path`. -/
  filePath : Text
  /-- `dst`. -/
  dst : Text
  /-- `fid`. -/
  fid : Nat
  /-- `offset`, in the same storage as `rollback`. -/
  offset : Nat
  /-- `length`. -/
  length : Nat

/-- The array `ops` and the index of its first free entry. -/
structure OpArray where
  /-- `ops`. -/
  ops : Nat → TraceEntry
  /-- `index`. -/
  index : Nat

/-- The operations that have been added. -/
def OpArray.added (array : OpArray) : List TraceEntry := (List.range array.index).map array.ops

/-- What the four versions of `AddOp` share: fill the next entry of an array of a given size. -/
def addEntry (opSize : Nat) (fill : TraceEntry → TraceEntry) : EStateM RefFs.Fault OpArray Unit := do
  let array ← get
  throwIf (opSize ≤ array.index) .thrown
  set ({ ops := Function.update array.ops array.index (fill (array.ops array.index))
         index := array.index + 1 } : OpArray)

/-- `AddOp` with a path. -/
def addPathOp (opSize : Nat) (opCode : OpCode) (filePath : Text) : EStateM RefFs.Fault OpArray Unit :=
  addEntry opSize fun _ => ⟨opCode, filePath, [], 0, 0, 0⟩

/-- `AddOp` with a path, a file number and a range. -/
def addFileOp (opSize : Nat) (opCode : OpCode) (filePath : Text) (fid offset length : Nat) :
    EStateM RefFs.Fault OpArray Unit :=
  addEntry opSize fun _ => ⟨opCode, filePath, [], fid, offset, length⟩

/-- `AddOp` with an operation alone. -/
def addBareOp (opSize : Nat) (opCode : OpCode) : EStateM RefFs.Fault OpArray Unit :=
  addEntry opSize fun _ => ⟨opCode, [], [], 0, 0, 0⟩

/-- `AddOp` with a rollback; the length stays what it was. -/
def addRollbackOp (opSize : Nat) (opCode : OpCode) (rollback : Nat) :
    EStateM RefFs.Fault OpArray Unit :=
  addEntry opSize fun entry => ⟨opCode, [], [], 0, rollback, entry.length⟩

/-! ## The two generators -/

/-- The settings of the tester that the generators read. -/
structure Limits where
  /-- `m_max_child_num`. -/
  maxChildNum : Nat
  /-- `m_max_dir_depth`. -/
  maxDirDepth : Nat
  /-- `m_max_file_op`. -/
  maxFileOp : Nat
  /-- `m_check_power_loss`. -/
  checkPowerLoss : Bool

/-- `GetFileNumber`. -/
def fileNumber (fs : ReferenceFs) : Nat := (maxFileNum + 2 ^ 32 - fs.freeNum) % 2 ^ 32

/-- The three tests that skip a directory, in the order of the code, all fail. -/
def Expands (limits : Limits) (fs : ReferenceFs) (file : RefFile) : Prop :=
  ¬limits.maxChildNum ≤ file.size ∧ ¬sizeSub limits.maxDirDepth 1 ≤ file.depth ∧
    ¬maxFileNum ≤ fileNumber fs

instance (limits : Limits) (fs : ReferenceFs) (file : RefFile) :
    Decidable (Expands limits fs file) := inferInstanceAs (Decidable (_ ∧ _))

section Generators

variable (opSize : Nat) (limits : Limits) (fs : ReferenceFs)

/-- The branch of both generators for an open file. -/
def generateOpened (file : RefFile) : EStateM RefFs.Fault OpArray Unit := do
  doIf (file.ver < limits.maxFileOp) (addFileOp opSize .fileWrite file.fn file.fid 0 file.size)
  addFileOp opSize .fileClose file.fn file.fid 0 0

/-- The body of the loop of `CExTester::GenerateOps`. -/
def generateEntry (file : RefFile) : EStateM RefFs.Fault OpArray Unit :=
  if file.isDir then
    doIf (Expands limits fs file) do
      addPathOp opSize .fileCreate file.fn
      addPathOp opSize .dirCreate file.fn
      doIf (file.fn ≠ ['\\']) do
        doIf (file.size = 0) (addPathOp opSize .dirDelete file.fn)
        addPathOp opSize .move file.fn
  else if file.isOpen then generateOpened opSize limits file
  else do
    addPathOp opSize .fileDelete file.fn
    addPathOp opSize .fileOpen file.fn
    addPathOp opSize .move file.fn

/-- The loop that adds power outages, from a rollback on, while there is room. -/
def addRollbacks (ioNr : Nat) : Nat → Nat → EStateM RefFs.Fault OpArray Unit
  | 0, _ => pure ()
  | rounds + 1, rollback => do
    let array ← get
    if rollback < ioNr ∧ array.index < opSize then do
      addRollbackOp opSize .powerOffRecover rollback
      addRollbacks ioNr rounds (rollback + 1)
    else pure ()

/-- `CExTester::GenerateOps`: the number of operations. -/
def generateOps (lastOp : OpCode) (storage : Storage.CStorage) : EStateM RefFs.Fault OpArray Nat := do
  modify fun array => { array with index := 0 }
  fs.usedFiles.forM fun index => generateEntry opSize limits fs (fs.files index)
  addBareOp opSize .demountMount
  doIf (limits.checkPowerLoss = true)
    (if lastOp = .fileWrite then addRollbackOp opSize .powerOffRecover 0
    else addRollbacks opSize storage.getCacheNum storage.getCacheNum 0)
  let array ← get
  return array.index

/-- The body of the loop of `CExStatisticTester::GenerateOps`. -/
def generateStatisticEntry (file : RefFile) : EStateM RefFs.Fault OpArray Unit :=
  if file.isDir then
    doIf (Expands limits fs file) do
      addPathOp opSize .fileCreate file.fn
      addPathOp opSize .dirCreate file.fn
      -- `path != "\\"` compares two pointers, and these always differ
      doIf (file.size = 0) (addPathOp opSize .dirDelete file.fn)
  else if file.isOpen then generateOpened opSize limits file
  else do
    addPathOp opSize .fileDelete file.fn
    addPathOp opSize .fileOpen file.fn

/-- `CExStatisticTester::GenerateOps`, with the value that `rand` returns. -/
def generateStatisticOps (storage : Storage.CStorage) (random : Nat) :
    EStateM RefFs.Fault OpArray Nat := do
  modify fun array => { array with index := 0 }
  fs.usedFiles.forM fun index => generateStatisticEntry opSize limits fs (fs.files index)
  addBareOp opSize .demountMount
  doIf (limits.checkPowerLoss = true)
    (doIf (0 < storage.getCacheNum)
      (addRollbackOp opSize .powerOffRecover (random % storage.getCacheNum)))
  let array ← get
  return array.index

end Generators

/-! ## What a generator adds -/

/-- While there is room for a number of operations, the program returns; it adds at most that number,
and all added operations have a property exactly when a condition holds. -/
def Adds (opSize : Nat) (good : TraceEntry → Prop) (program : EStateM RefFs.Fault OpArray Unit)
    (most : Nat) (cond : Prop) : Prop :=
  ∀ array, array.index + most ≤ opSize → ∃ array', program array = .ok () array' ∧
    array'.index ≤ array.index + most ∧
    ((∀ op ∈ array'.added, good op) ↔ (∀ op ∈ array.added, good op) ∧ cond)

namespace Adds

variable {opSize most more : Nat} {good : TraceEntry → Prop} {cond cond' : Prop}
variable {program : EStateM RefFs.Fault OpArray Unit}

/-- Nothing is added. -/
theorem pure : Adds opSize good (Pure.pure ()) 0 True := fun array _ =>
  ⟨array, rfl, Nat.le_refl _, iff_of_eq (and_true _).symm⟩

/-- Filling the next entry adds it at the end. -/
theorem added_update (array : OpArray) (entry : TraceEntry) :
    (⟨Function.update array.ops array.index entry, array.index + 1⟩ : OpArray).added =
      array.added ++ [entry] := by
  unfold OpArray.added
  rw [List.range_succ, List.map_append, List.map_singleton]
  congr 1
  · apply List.map_congr_left
    intro index member
    exact Function.update_of_ne (Nat.ne_of_lt (List.mem_range.mp member)) _ _
  · exact congrArg (fun last => [last]) (Function.update_self ..)

/-- One operation is added. -/
theorem entry {fill : TraceEntry → TraceEntry} (fine : ∀ entry, good (fill entry) ↔ cond) :
    Adds opSize good (addEntry opSize fill) 1 cond := by
  intro array room
  let array' : OpArray :=
    ⟨Function.update array.ops array.index (fill (array.ops array.index)), array.index + 1⟩
  refine ⟨array', ?_, Nat.le_refl _, ?_⟩
  · unfold addEntry
    rw [get_bind_apply, throwIf_bind_of_not (by omega)]
    rfl
  · rw [added_update, List.forall_mem_append, List.forall_mem_singleton, fine]

/-- More room and an equivalent condition. -/
theorem weaken (adds : Adds opSize good program most cond) (room : most ≤ more)
    (same : cond ↔ cond') : Adds opSize good program more cond' := by
  intro array fits
  obtain ⟨array', runs, bound, holds⟩ := adds array (by omega)
  exact ⟨array', runs, by omega, by rw [holds, same]⟩

/-- One program after the other. -/
theorem bind {next : EStateM RefFs.Fault OpArray Unit}
    (first : Adds opSize good program most cond) (second : Adds opSize good next more cond') :
    Adds opSize good (program >>= fun _ => next) (most + more) (cond ∧ cond') := by
  intro array fits
  obtain ⟨middle, runs, bound, holds⟩ := first array (by omega)
  obtain ⟨array', runs', bound', holds'⟩ := second middle (by omega)
  refine ⟨array', ?_, by omega, ?_⟩
  · rw [bind_apply, runs]
    exact runs'
  · rw [holds', holds, and_assoc]

/-- A program that only runs under a condition. -/
theorem doIf {test : Prop} [Decidable test] (adds : test → Adds opSize good program most cond) :
    Adds opSize good (doIf test program) most (test → cond) := by
  unfold Lib.doIf
  by_cases holds : test
  · rw [if_pos holds]
    exact (adds holds).weaken (Nat.le_refl _) ⟨fun met _ => met, fun met => met holds⟩
  · rw [if_neg holds]
    exact Adds.pure.weaken (Nat.zero_le _) (iff_of_true trivial fun test => absurd test holds)

/-- A loop over a list. -/
theorem forM {α : Type} {items : List α} {body : α → EStateM RefFs.Fault OpArray Unit}
    {most : α → Nat} {cond : α → Prop}
    (round : ∀ item ∈ items, Adds opSize good (body item) (most item) (cond item)) :
    Adds opSize good (items.forM body) (items.map most).sum (∀ item ∈ items, cond item) := by
  induction items with
  | nil => exact Adds.pure.weaken (Nat.le_refl _) (by simp)
  | cons item rest ih =>
    have others := ih fun item member => round item (List.mem_cons_of_mem _ member)
    rw [List.map_cons, List.sum_cons]
    exact ((round item List.mem_cons_self).bind others).weaken (Nat.le_refl _)
      (List.forall_mem_cons).symm

end Adds

/-! ## Operations that can be carried out -/

/-- The operation names a used file with a property. -/
def Names (fs : ReferenceFs) (op : TraceEntry) (property : RefFile → Prop) : Prop :=
  ∃ index ∈ fs.usedFiles, (fs.files index).fn = op.filePath ∧ property (fs.files index)

/-- The reference, and for a power outage a storage with a history of a given length, can carry out
the operation. -/
def Enabled (limits : Limits) (fs : ReferenceFs) (history : Nat) (op : TraceEntry) : Prop :=
  match op.opCode with
  | .fileCreate | .dirCreate =>
    Names fs op fun file => file.isDir = true ∧ file.size < limits.maxChildNum
  | .fileWrite | .fileClose =>
    Names fs op fun file => file.isDir = false ∧ file.isOpen = true ∧ file.fid = op.fid
  | .fileOpen | .fileDelete => Names fs op fun file => file.isDir = false ∧ file.isOpen = false
  | .move => Names fs op fun file => (file.isDir = false ∧ file.isOpen = false) ∨
      (file.isDir = true ∧ op.filePath ≠ ['\\'])
  | .dirDelete =>
    Names fs op fun file => file.isDir = true ∧ op.filePath ≠ ['\\'] ∧ file.size = 0
  | .powerOffRecover => op.offset < history
  | _ => True

section Entries

variable {opSize history index : Nat} {limits : Limits} {fs : ReferenceFs}

/-- The operations on an open file. -/
theorem generateOpened_adds (used : index ∈ fs.usedFiles) (isFile : (fs.files index).isDir = false)
    (isOpen : (fs.files index).isOpen = true) :
    Adds opSize (Enabled limits fs history) (generateOpened opSize limits (fs.files index)) 2
      True := by
  have named : Names fs ⟨.fileWrite, (fs.files index).fn, [], (fs.files index).fid, 0,
      (fs.files index).size⟩ fun file => file.isDir = false ∧ file.isOpen = true ∧
        file.fid = (fs.files index).fid := ⟨index, used, rfl, isFile, isOpen, rfl⟩
  have write : Adds opSize (Enabled limits fs history)
      (addFileOp opSize .fileWrite (fs.files index).fn (fs.files index).fid 0 (fs.files index).size)
      1 True := Adds.entry fun _ => iff_of_true named trivial
  have close : Adds opSize (Enabled limits fs history)
      (addFileOp opSize .fileClose (fs.files index).fn (fs.files index).fid 0 0) 1 True :=
    Adds.entry fun _ => iff_of_true named trivial
  exact ((Adds.doIf fun _ => write).bind close).weaken (Nat.le_refl _) (by simp)

/-- An operation on a path that can be carried out. -/
theorem addPathOp_adds {opCode : OpCode} {path : Text}
    (enabled : Enabled limits fs history ⟨opCode, path, [], 0, 0, 0⟩) :
    Adds opSize (Enabled limits fs history) (addPathOp opSize opCode path) 1 True :=
  Adds.entry fun _ => iff_of_true enabled trivial

/-- A directory that is not skipped can be created in. -/
theorem creates (used : index ∈ fs.usedFiles) (isDir : (fs.files index).isDir = true)
    (expands : Expands limits fs (fs.files index)) :
    Enabled limits fs history ⟨.fileCreate, (fs.files index).fn, [], 0, 0, 0⟩ ∧
      Enabled limits fs history ⟨.dirCreate, (fs.files index).fn, [], 0, 0, 0⟩ :=
  have named := ⟨index, used, rfl, isDir, Nat.lt_of_not_le expands.1⟩
  ⟨named, named⟩

/-- A closed file can be deleted, opened and moved. -/
theorem closedFile (used : index ∈ fs.usedFiles) (isFile : (fs.files index).isDir = false)
    (isClosed : (fs.files index).isOpen = false) :
    Enabled limits fs history ⟨.fileDelete, (fs.files index).fn, [], 0, 0, 0⟩ ∧
      Enabled limits fs history ⟨.fileOpen, (fs.files index).fn, [], 0, 0, 0⟩ ∧
      Enabled limits fs history ⟨.move, (fs.files index).fn, [], 0, 0, 0⟩ :=
  have named := ⟨index, used, rfl, isFile, isClosed⟩
  ⟨named, named, index, used, rfl, .inl ⟨isFile, isClosed⟩⟩

/-- The most operations that the exhaustive tester adds for a file. -/
def mostOps (file : RefFile) : Nat := if file.isDir = true ∧ file.fn = ['\\'] then 2 else 4

/-- The exhaustive tester deletes and moves only directories that are not the root. -/
theorem removals_add (used : index ∈ fs.usedFiles) (isDir : (fs.files index).isDir = true) :
    Adds opSize (Enabled limits fs history)
      (doIf ((fs.files index).fn ≠ ['\\']) do
        doIf ((fs.files index).size = 0) (addPathOp opSize .dirDelete (fs.files index).fn)
        addPathOp opSize .move (fs.files index).fn)
      (if (fs.files index).fn = ['\\'] then 0 else 2) True := by
  by_cases isRoot : (fs.files index).fn = ['\\']
  · rw [if_pos isRoot]
    unfold doIf
    rw [if_neg (not_not.mpr isRoot)]
    exact Adds.pure
  · have delete : (fs.files index).size = 0 →
        Enabled limits fs history ⟨.dirDelete, (fs.files index).fn, [], 0, 0, 0⟩ :=
      fun empty => ⟨index, used, rfl, isDir, isRoot, empty⟩
    have moving : Enabled limits fs history ⟨.move, (fs.files index).fn, [], 0, 0, 0⟩ :=
      ⟨index, used, rfl, .inr ⟨isDir, isRoot⟩⟩
    rw [if_neg isRoot]
    apply (Adds.doIf fun _ => (Adds.doIf fun empty => addPathOp_adds (delete empty)).bind
      (addPathOp_adds moving)).weaken (Nat.le_refl _)
    simp

/-- The exhaustive tester adds operations that can be carried out. -/
theorem generateEntry_adds (used : index ∈ fs.usedFiles) :
    Adds opSize (Enabled limits fs history) (generateEntry opSize limits fs (fs.files index))
      (mostOps (fs.files index)) True := by
  unfold generateEntry
  cases isDir : (fs.files index).isDir with
  | true =>
    rw [if_pos rfl]
    apply (Adds.doIf fun expands => (addPathOp_adds (creates used isDir expands).1).bind
      ((addPathOp_adds (creates used isDir expands).2).bind (removals_add used isDir))).weaken
    · unfold mostOps
      rw [isDir]
      by_cases isRoot : (fs.files index).fn = ['\\']
      · rw [if_pos isRoot, if_pos ⟨rfl, isRoot⟩]
      · rw [if_neg isRoot, if_neg fun both => isRoot both.2]
    · simp
  | false =>
    rw [if_neg Bool.false_ne_true]
    have room : mostOps (fs.files index) = 4 := by
      unfold mostOps
      rw [isDir, if_neg fun both => Bool.false_ne_true both.1]
    rw [room]
    cases isOpen : (fs.files index).isOpen with
    | true =>
      rw [if_pos rfl]
      exact (generateOpened_adds used isDir isOpen).weaken (by decide) Iff.rfl
    | false =>
      rw [if_neg Bool.false_ne_true]
      obtain ⟨delete, opening, moving⟩ := closedFile used isDir isOpen
      apply ((addPathOp_adds delete).bind
        ((addPathOp_adds opening).bind (addPathOp_adds moving))).weaken
      · decide
      · simp

/-- The statistic tester adds operations that can be carried out, unless it deletes the root. -/
theorem generateStatisticEntry_adds (used : index ∈ fs.usedFiles) :
    Adds opSize (Enabled limits fs history)
      (generateStatisticEntry opSize limits fs (fs.files index)) 3
      ((fs.files index).isDir = true → Expands limits fs (fs.files index) →
        (fs.files index).size = 0 → (fs.files index).fn ≠ ['\\']) := by
  unfold generateStatisticEntry
  cases isDir : (fs.files index).isDir with
  | true =>
    rw [if_pos rfl]
    have delete : (fs.files index).size = 0 → Adds opSize (Enabled limits fs history)
        (addPathOp opSize .dirDelete (fs.files index).fn) 1 ((fs.files index).fn ≠ ['\\']) := by
      intro empty
      apply Adds.entry
      intro _
      constructor
      · rintro ⟨other, -, -, -, notRoot, -⟩
        exact notRoot
      · exact fun notRoot => ⟨index, used, rfl, isDir, notRoot, empty⟩
    apply (Adds.doIf fun expands => (addPathOp_adds (creates used isDir expands).1).bind
      ((addPathOp_adds (creates used isDir expands).2).bind (Adds.doIf delete))).weaken
    · decide
    · simp
  | false =>
    rw [if_neg Bool.false_ne_true]
    have vacuous : True ↔ (false = true → Expands limits fs (fs.files index) →
        (fs.files index).size = 0 → (fs.files index).fn ≠ ['\\']) :=
      iff_of_true trivial fun isDir => absurd isDir Bool.false_ne_true
    cases isOpen : (fs.files index).isOpen with
    | true =>
      rw [if_pos rfl]
      exact (generateOpened_adds used isDir isOpen).weaken (by decide) vacuous
    | false =>
      rw [if_neg Bool.false_ne_true]
      obtain ⟨delete, opening, -⟩ := closedFile used isDir isOpen
      apply ((addPathOp_adds delete).bind (addPathOp_adds opening)).weaken
      · decide
      · rw [← vacuous, and_true]

end Entries

/-! ## The whole generators -/

/-- A sum of bounded terms. -/
theorem sum_le_mul {α : Type} {items : List α} {most : α → Nat} {bound : Nat}
    (each : ∀ item ∈ items, most item ≤ bound) : (items.map most).sum ≤ bound * items.length := by
  induction items with
  | nil => exact Nat.zero_le _
  | cons head rest ih =>
    have first := each head List.mem_cons_self
    have others := ih fun item member => each item (List.mem_cons_of_mem _ member)
    rw [List.map_cons, List.sum_cons, List.length_cons, Nat.mul_succ]
    omega

/-- A sum in which one of the terms is small. -/
theorem sum_le_of_mem {α : Type} {items : List α} {most : α → Nat} {bound saved : Nat}
    (each : ∀ item ∈ items, most item ≤ bound) {item : α} (member : item ∈ items)
    (small : most item + saved ≤ bound) :
    (items.map most).sum + saved ≤ bound * items.length := by
  induction items with
  | nil => cases member
  | cons head rest ih =>
    have first := each head List.mem_cons_self
    have others : ∀ item ∈ rest, most item ≤ bound :=
      fun item member => each item (List.mem_cons_of_mem _ member)
    rw [List.map_cons, List.sum_cons, List.length_cons, Nat.mul_succ]
    rcases List.mem_cons.mp member with rfl | later
    · have total := sum_le_mul others
      omega
    · have total := ih others later
      omega

section Whole

variable {opSize history ioNr : Nat} {limits : Limits} {fs earlier : ReferenceFs}
variable {storage : Storage.CStorage}

/-- The power outages that are added as long as there is room. -/
theorem addRollbacks_adds (below : ∀ rollback < ioNr, rollback < history) (rounds rollback : Nat)
    {array : OpArray} (fits : array.index ≤ opSize) :
    ∃ array', addRollbacks opSize ioNr rounds rollback array = .ok () array' ∧
      ((∀ op ∈ array'.added, Enabled limits fs history op) ↔
        ∀ op ∈ array.added, Enabled limits fs history op) := by
  induction rounds generalizing rollback array with
  | zero => exact ⟨array, rfl, Iff.rfl⟩
  | succ rounds ih =>
    unfold addRollbacks
    rw [get_bind_apply]
    by_cases goesOn : rollback < ioNr ∧ array.index < opSize
    · rw [if_pos goesOn]
      have one : Adds opSize (Enabled limits fs history)
          (addRollbackOp opSize .powerOffRecover rollback) 1 True :=
        Adds.entry fun _ => iff_of_true (below rollback goesOn.1) trivial
      obtain ⟨middle, runs, bound, holds⟩ := one array goesOn.2
      obtain ⟨array', runs', holds'⟩ := ih (rollback + 1) (bound.trans goesOn.2)
      refine ⟨array', ?_, ?_⟩
      · rw [bind_apply, runs]
        exact runs'
      · rw [holds', holds, and_true]
    · rw [if_neg goesOn]
      exact ⟨array, rfl, Iff.rfl⟩

/-- `GetCacheNum` counts some of the writes of the history. -/
theorem getCacheNum_le (asserted : storage.beginCacheNr ≤ storage.cacheNr) :
    storage.getCacheNum ≤ storage.cacheNr := by
  unfold Storage.CStorage.getCacheNum
  omega

/-- A generator returns, and all operations that it has added can be carried out. -/
def Generates (limits : Limits) (fs : ReferenceFs) (storage : Storage.CStorage)
    (result : EStateM.Result RefFs.Fault OpArray Nat) : Prop :=
  ∃ array, result = .ok array.index array ∧
    ∀ op ∈ array.added, Enabled limits fs storage.cacheNr op

/-- A generator that returns. -/
theorem generates_iff {result : EStateM.Result RefFs.Fault OpArray Nat} {array : OpArray}
    {cond : Prop} (returns : result = .ok array.index array)
    (holds : (∀ op ∈ array.added, Enabled limits fs storage.cacheNr op) ↔ cond) :
    Generates limits fs storage result ↔ cond := by
  rw [← holds]
  constructor
  · rintro ⟨array', returns', enabled⟩
    rw [returns] at returns'
    obtain ⟨-, rfl⟩ := EStateM.Result.ok.inj returns'
    exact enabled
  · exact fun enabled => ⟨array, returns, enabled⟩

/-- Both generators begin with an empty array, add the operations on the files and then one that
mounts the file system again. -/
theorem files_and_mount {body : RefFile → EStateM RefFs.Fault OpArray Unit} {most : Nat → Nat}
    {cond : Nat → Prop} (round : ∀ index ∈ fs.usedFiles,
      Adds opSize (Enabled limits fs history) (body (fs.files index)) (most index) (cond index))
    (room : (fs.usedFiles.map most).sum + 2 ≤ opSize) (array : OpArray)
    (last : EStateM RefFs.Fault OpArray Unit) :
    ∃ middle, (do
        modify fun array => { array with index := 0 }
        fs.usedFiles.forM fun index => body (fs.files index)
        addBareOp opSize .demountMount
        last
        let array ← get
        return array.index : EStateM RefFs.Fault OpArray Nat) array =
        (last >>= fun _ => do
          let array ← get
          return array.index) middle ∧
      middle.index + 1 ≤ opSize ∧
      ((∀ op ∈ middle.added, Enabled limits fs history op) ↔ ∀ index ∈ fs.usedFiles, cond index) := by
  have mount : Adds opSize (Enabled limits fs history) (addBareOp opSize .demountMount) 1 True :=
    Adds.entry fun _ => iff_of_true trivial trivial
  have fits : { array with index := 0 }.index + (fs.usedFiles.map most).sum ≤ opSize := by
    show 0 + _ ≤ _
    omega
  obtain ⟨first, runs, bound, holds⟩ := Adds.forM round { array with index := 0 } fits
  change first.index ≤ 0 + _ at bound
  obtain ⟨middle, runs', bound', holds'⟩ := mount first (by omega)
  refine ⟨middle, ?_, by omega, ?_⟩
  · rw [modify_bind_apply, bind_apply, runs]
    dsimp only
    rw [bind_apply, runs']
  · rw [holds', holds, and_true]
    exact and_iff_right (fun op member => nomatch member)

/-- The exhaustive tester, in a state with the root and at most `NODE_NR` files. -/
theorem generateOps_generates_iff (rooted : Rooted fs) (few : fs.usedFiles.length ≤ nodeNr)
    (asserted : storage.beginCacheNr ≤ storage.cacheNr) (lastOp : OpCode) (array : OpArray) :
    Generates limits fs storage (generateOps maxWorkNr limits fs lastOp storage array) ↔
      (limits.checkPowerLoss = true → lastOp = .fileWrite → 0 < storage.cacheNr) := by
  have root : mostOps (fs.files 0) + 2 ≤ 4 := by
    obtain ⟨used, free, inside⟩ := rooted
    unfold mostOps
    rw [if_pos ⟨inside.isDir, inside.name⟩]
  have each : ∀ index ∈ fs.usedFiles, mostOps (fs.files index) ≤ 4 := by
    intro index _
    unfold mostOps
    split <;> decide
  have total := sum_le_of_mem each rooted.root_used root
  have room : (fs.usedFiles.map fun index => mostOps (fs.files index)).sum + 2 ≤ maxWorkNr := by
    have limit : nodeNr = 128 := rfl
    rw [limit] at few
    show _ ≤ 512
    omega
  obtain ⟨middle, whole, space, holds⟩ := files_and_mount
    (fun index used => generateEntry_adds used) room array
    (doIf (limits.checkPowerLoss = true)
      (if lastOp = .fileWrite then addRollbackOp maxWorkNr .powerOffRecover 0
      else addRollbacks maxWorkNr storage.getCacheNum storage.getCacheNum 0))
  have powers : ∃ array', doIf (limits.checkPowerLoss = true)
      (if lastOp = .fileWrite then addRollbackOp maxWorkNr .powerOffRecover 0
      else addRollbacks maxWorkNr storage.getCacheNum storage.getCacheNum 0) middle =
        .ok () array' ∧ ((∀ op ∈ array'.added, Enabled limits fs storage.cacheNr op) ↔
          (limits.checkPowerLoss = true → lastOp = .fileWrite → 0 < storage.cacheNr)) := by
    have start : ∀ op ∈ middle.added, Enabled limits fs storage.cacheNr op :=
      holds.mpr fun _ _ => trivial
    by_cases checks : limits.checkPowerLoss = true
    · unfold doIf
      rw [if_pos checks]
      by_cases wrote : lastOp = .fileWrite
      · have one : Adds maxWorkNr (Enabled limits fs storage.cacheNr)
            (addRollbackOp maxWorkNr .powerOffRecover 0) 1 (0 < storage.cacheNr) :=
          Adds.entry fun _ => Iff.rfl
        obtain ⟨array', runs, -, holds'⟩ := one middle space
        rw [if_pos wrote]
        refine ⟨array', runs, ?_⟩
        rw [holds']
        exact ⟨fun both _ _ => both.2, fun some => ⟨start, some checks wrote⟩⟩
      · have below : ∀ rollback < storage.getCacheNum, rollback < storage.cacheNr :=
          fun rollback less => Nat.lt_of_lt_of_le less (getCacheNum_le asserted)
        obtain ⟨array', runs, holds'⟩ := addRollbacks_adds below storage.getCacheNum 0
          (Nat.le_of_succ_le space)
        rw [if_neg wrote]
        refine ⟨array', runs, ?_⟩
        rw [holds']
        exact iff_of_true start fun _ same => absurd same wrote
    · refine ⟨middle, ?_, iff_of_true start fun checked => absurd checked checks⟩
      unfold doIf
      rw [if_neg checks]
      rfl
  obtain ⟨array', runs, enabled⟩ := powers
  have returns : generateOps maxWorkNr limits fs lastOp storage array =
      .ok array'.index array' := by
    change generateOps maxWorkNr limits fs lastOp storage array = _ at whole
    rw [whole, bind_apply, runs]
    rfl
  exact generates_iff returns enabled

/-- The statistic tester, in a state with at most `NODE_NR` files. -/
theorem generateStatisticOps_generates_iff (few : fs.usedFiles.length ≤ nodeNr)
    (asserted : storage.beginCacheNr ≤ storage.cacheNr) (random : Nat) (array : OpArray) :
    Generates limits fs storage
        (generateStatisticOps maxWorkNr limits fs storage random array) ↔
      ∀ index ∈ fs.usedFiles, (fs.files index).isDir = true →
        Expands limits fs (fs.files index) → (fs.files index).size = 0 →
        (fs.files index).fn ≠ ['\\'] := by
  have total := sum_le_mul fun index (_ : index ∈ fs.usedFiles) => Nat.le_refl 3
  have room : (fs.usedFiles.map fun _ => 3).sum + 2 ≤ maxWorkNr := by
    have limit : nodeNr = 128 := rfl
    rw [limit] at few
    show _ ≤ 512
    omega
  obtain ⟨middle, whole, space, holds⟩ := files_and_mount
    (fun index used => generateStatisticEntry_adds used) room array
    (doIf (limits.checkPowerLoss = true) (doIf (0 < storage.getCacheNum)
      (addRollbackOp maxWorkNr .powerOffRecover (random % storage.getCacheNum))))
  have power : Adds maxWorkNr (Enabled limits fs storage.cacheNr)
      (doIf (limits.checkPowerLoss = true) (doIf (0 < storage.getCacheNum)
        (addRollbackOp maxWorkNr .powerOffRecover (random % storage.getCacheNum)))) 1
      (limits.checkPowerLoss = true → 0 < storage.getCacheNum → True) := by
    apply Adds.doIf
    intro _
    apply Adds.doIf
    intro some
    have below : random % storage.getCacheNum < storage.cacheNr :=
      Nat.lt_of_lt_of_le (Nat.mod_lt random some) (getCacheNum_le asserted)
    exact Adds.entry fun _ => iff_of_true below trivial
  obtain ⟨array', runs, -, enabled⟩ := power middle space
  have returns : generateStatisticOps maxWorkNr limits fs storage random array =
      .ok array'.index array' := by
    change generateStatisticOps maxWorkNr limits fs storage random array = _ at whole
    rw [whole, bind_apply, runs]
    rfl
  apply generates_iff returns
  rw [enabled, holds]
  exact and_iff_left fun _ _ => trivial

/-- In every state that calls which spare the root lead to, with at most `NODE_NR` files, both
generators return, and all their operations can be carried out, if and only if the root is not an
empty directory that the statistic tester does not skip, and there is a write to lose after a write
when power losses are tried. -/
theorem generators_generate_iff (run : Run SparesRoot earlier.initialized fs)
    (few : fs.usedFiles.length ≤ nodeNr) (asserted : storage.beginCacheNr ≤ storage.cacheNr)
    (lastOp : OpCode) (random : Nat) (array : OpArray) :
    Generates limits fs storage (generateOps maxWorkNr limits fs lastOp storage array) ∧
      Generates limits fs storage
        (generateStatisticOps maxWorkNr limits fs storage random array) ↔
    (∀ index ∈ fs.usedFiles, (fs.files index).isDir = true →
        Expands limits fs (fs.files index) → (fs.files index).size = 0 →
        (fs.files index).fn ≠ ['\\']) ∧
      (limits.checkPowerLoss = true → lastOp = .fileWrite → 0 < storage.cacheNr) := by
  have rooted := run.rooted (rooted_initialized earlier)
  rw [generateOps_generates_iff rooted few asserted, generateStatisticOps_generates_iff few asserted]
  exact and_comm

end Whole

/-! ## The root in an empty file system -/

/-- The settings of the sample runs. -/
def sampleLimits : Limits := ⟨5, 5, 5, true⟩

/-- An array of operations as memory may have it. -/
def someArray : OpArray := ⟨fun _ => ⟨.nop, [], [], 0, 0, 0⟩, 0⟩

/-- A storage with some writes, of which two came after the copy. -/
def someStorage : Storage.CStorage := ⟨fun _ => none, none, 12, 10⟩

/-- In an empty file system the statistic tester deletes the root. -/
theorem generateStatisticOps_deletes_root :
    ¬(Generates sampleLimits ReferenceFs.zero.initialized someStorage
        (generateOps maxWorkNr sampleLimits ReferenceFs.zero.initialized .nop someStorage someArray) ∧
      Generates sampleLimits ReferenceFs.zero.initialized someStorage
        (generateStatisticOps maxWorkNr sampleLimits ReferenceFs.zero.initialized someStorage 7
          someArray)) := by
  have usedFiles : ReferenceFs.zero.initialized.usedFiles = [0] :=
    (initialized_slots ReferenceFs.zero).usedFiles_eq
  rintro ⟨-, generates⟩
  rw [generateStatisticOps_generates_iff (by rw [usedFiles]; decide) (by decide)] at generates
  exact generates 0 (by rw [usedFiles]; exact List.mem_singleton_self 0) rfl (by decide) rfl rfl

/-- With a directory and a file in it. -/
theorem generators_generate_iff_sample :
    ∃ fs, follow SparesRoot [.addPath "\\a".toList true 1, .addPath "\\a\\b".toList false 2]
        ReferenceFs.zero.initialized = some fs ∧
      Generates sampleLimits fs someStorage
        (generateOps maxWorkNr sampleLimits fs .fileWrite someStorage someArray) ∧
      Generates sampleLimits fs someStorage
        (generateStatisticOps maxWorkNr sampleLimits fs someStorage 7 someArray) := by
  let built := follow SparesRoot
    [.addPath "\\a".toList true 1, .addPath "\\a\\b".toList false 2] ReferenceFs.zero.initialized
  have facts : built.isSome = true ∧
      built.map (fun fs => decide (fs.usedFiles.length ≤ nodeNr)) = some true ∧
      built.map (fun fs => decide (∀ index ∈ fs.usedFiles, (fs.files index).size = 0 →
        (fs.files index).fn ≠ ['\\'])) = some true := by
    decide +kernel
  obtain ⟨done, few, root⟩ := facts
  obtain ⟨fs, last⟩ := Option.isSome_iff_exists.mp done
  rw [last, Option.map_some] at few root
  have few := of_decide_eq_true (Option.some.inj few)
  have root := of_decide_eq_true (Option.some.inj root)
  refine ⟨fs, last, ?_⟩
  apply (generators_generate_iff (Run.follow .start last) few (by decide) .fileWrite 7
    someArray).mpr
  exact ⟨fun index used _ _ empty => root index used empty, fun _ _ => by decide⟩


end FsChecking.Tester
