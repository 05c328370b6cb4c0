import FsChecking.Storage.Isolation
import FsChecking.Tester.GenerateOps
import FsChecking.Tester.PowerLoss

/-!
# The sweep over crash points

`OneTest` of the statistic tester carries out one operation after the other on one simulator. With
power losses checked, it counts the block writes of the operation by the difference of two calls of
`GetCacheNum`, and tries `TestPowerOutage` with every smaller rollback on a fresh copy. What the file
system does in a call is arbitrary: some block writes, and an end.
-/

namespace FsChecking.Tester

open Lib Storage

variable {α : Type}

/-! ## The simulator as `OneTest` sees it -/

/-- What a call of the file system does, apart from a reset: its block writes, in order, and the code
it returns or throws. -/
structure Behaviour (α : Type) where
  /-- The block writes. -/
  writes : List (Lba × α)
  /-- The code, or the code of the exception. -/
  result : Except ErrorCode ErrorCode

/-- What a round of `OneTest` finds outside the storages. -/
structure Round (α : Type) where
  /-- `m_ref_fs` in front of the operation. -/
  ref : RefFs.ReferenceFs
  /-- The number that `GenerateOps` draws for the rollback. -/
  draw : Nat
  /-- The number that `OneTest` draws for the operation. -/
  choice : Nat
  /-- The operation; for a power outage, what comes after the reset. -/
  operation : Behaviour α
  /-- What comes after the reset of each copy. -/
  outage : Nat → Behaviour α
  /-- `m_data` of each copy as its constructor leaves it. -/
  memory : Nat → Lba → Option Nat

/-- The state of `OneTest`. -/
structure Bench (α : Type) where
  /-- The storages. -/
  world : World α
  /-- `ops`. -/
  ops : OpArray
  /-- The calls of `TestPowerOutage` in the sweep of this round: the rollback, and the storages at
  the call. -/
  tried : List (Nat × World α)

/-- How an exception of a storage ends a call. -/
def interruptOf : StorageError → Interrupt
  | .readNoMappingData => .exception .readNoMappingData
  | .physicalAddNomatch => .exception .physicalAddNomatch
  | .rollbackTooLong => .exception .general
  | .nullPointer => .fault .undefined

/-- `err > ERR_NO_SPACE`. -/
def ErrorCode.fatal : ErrorCode → Bool
  | .ok | .noOperation | .noSpace => false
  | .other value => 2 < value
  | _ => true

/-- A call of a storage. -/
def callStorage (op : Storage.Op α) : EStateM Interrupt (Bench α) Unit := fun bench =>
  match bench.world.step op with
  | (world, .ok _) => .ok () { bench with world := world }
  | (world, .error error) => .error (interruptOf error) { bench with world := world }

/-- The storage of a simulator. -/
def storageOf (name : Nat) : EStateM Interrupt (Bench α) CStorage := do
  match (← get).world.object name with
  | none => throw (.fault .undefined)
  | some storage => return storage

/-- A call of the file system, apart from a reset. -/
def behave (name : Nat) (behaviour : Behaviour α) : EStateM Interrupt (Bench α) ErrorCode := do
  behaviour.writes.forM fun write => callStorage (.blockWrite name write.1 write.2)
  match behaviour.result with
  | .ok code => return code
  | .error code => throw (.exception code)

/-- `CF2fsSimulator::Reset`: the count arrives in a `WORD`. -/
def resetStorage (name rollback : Nat) : EStateM Interrupt (Bench α) Unit :=
  callStorage (.rollback name (Fin.ofNat (2 ^ 16) rollback))

/-- `TestPowerOutage`. -/
def testPowerOutage (name rollback : Nat) (behaviour : Behaviour α) :
    EStateM Interrupt (Bench α) ErrorCode := do
  resetStorage name rollback
  behave name behaviour

/-- The `switch` of `FsOperatorCore`. -/
def carryOut (name : Nat) (op : TraceEntry) (behaviour : Behaviour α) :
    EStateM Interrupt (Bench α) ErrorCode :=
  if op.opCode = .powerOffRecover then testPowerOutage name op.offset behaviour
  else behave name behaviour

/-- `FsOperatorCore`: it returns `ERR_OK` or `ERR_NO_OPERATION`, and throws every other code. -/
def fsOperatorCore (name : Nat) (op : TraceEntry) (behaviour : Behaviour α) :
    EStateM Interrupt (Bench α) ErrorCode := do
  let ir ← carryOut name op behaviour
  if ir ≠ .ok ∧ ir ≠ .noOperation then throw (.exception ir) else return ir

/-! ## `OneTest` -/

section OneTest

variable (limits : Limits) (real copy : Nat) (round : Round α)

/-- `GenerateOps`, and the choice among its operations. -/
def chooseOp (storage : CStorage) : EStateM Interrupt (Bench α) TraceEntry := fun bench =>
  match generateStatisticOps maxWorkNr limits round.ref storage round.draw bench.ops with
  | .ok opNr ops => .ok (ops.ops (round.choice % opNr)) { bench with ops := ops }
  | .error fault ops => .error (.fault fault) { bench with ops := ops }

/-- The operation of a round: the value of `start_io_nr` after it, or nothing for
`ERR_NO_OPERATION`. -/
def operate : EStateM Interrupt (Bench α) (Option Nat) := do
  modify fun bench => { bench with tried := [] }
  let storage ← storageOf real
  let op ← chooseOp limits round storage
  let ir ← fsOperatorCore real op round.operation
  if ir = .noOperation then return none
  else if op.opCode = .powerOffRecover then
    return some (dword (storage.getCacheNum + 2 ^ 32 - op.offset))
  else return some storage.getCacheNum

/-- The loop of the sweep, for a number of rounds: the code with which it ends early. The copy is a
new simulator, which goes with its state. -/
def outages : Nat → Nat → EStateM Interrupt (Bench α) (Option ErrorCode)
  | 0, _ => return none
  | rounds + 1, ii => do
    callStorage (.clone copy real (round.memory ii))
    modify fun bench => { bench with tried := bench.tried ++ [(ii, bench.world)] }
    let err ← testPowerOutage copy ii (round.outage ii)
    if err.fatal then return some err
    else do
      callStorage (.destroy copy)
      outages rounds (ii + 1)

/-- The sweep after an operation. -/
def sweep (startIoNr : Nat) : EStateM Interrupt (Bench α) (Option ErrorCode) := do
  let storage ← storageOf real
  let ioCount := dword (storage.getCacheNum + 2 ^ 32 - startIoNr)
  outages real copy round ioCount 0

/-- A round of `OneTest`: the code with which it ends the test. -/
def testRound : EStateM Interrupt (Bench α) (Option ErrorCode) := do
  match ← operate limits real round with
  | none => return none
  | some startIoNr =>
    if limits.checkPowerLoss then sweep real copy round startIoNr else return none

/-- `OneTest` on a simulator, for the rounds that it makes. -/
def oneTest : List (Round α) → EStateM Interrupt (Bench α) (Option ErrorCode)
  | [] => return none
  | round :: rest => do
    match ← testRound limits real copy round with
    | some err => return some err
    | none => oneTest rest

end OneTest

/-! ## What a run is measured by -/

/-- `op.rollback` of a power outage; no other operation takes writes back. -/
def TraceEntry.rollback (op : TraceEntry) : Nat :=
  if op.opCode = .powerOffRecover then op.offset else 0

/-- The outage of the copy with this rollback fails. -/
def Round.fails (round : Round α) (rollback : Nat) : Bool :=
  match (round.outage rollback).result with
  | .ok code => code.fatal
  | .error _ => true

/-- The items up to the first one that fails. -/
def untilFailure (fails : Nat → Bool) : List Nat → List Nat
  | [] => []
  | item :: rest => if fails item then [item] else item :: untilFailure fails rest

/-- A property of every round of a run of `OneTest`. -/
def Along (limits : Limits) (real copy : Nat) (property : Round α → Bench α → Prop) :
    List (Round α) → Bench α → Prop
  | [], _ => True
  | round :: rest, bench =>
    property round bench ∧ ∀ bench', testRound limits real copy round bench = .ok none bench' →
      Along limits real copy property rest bench'

/-- A property along a run holds of every round that `OneTest` comes to. -/
theorem Along.of_runs {limits : Limits} {real copy : Nat} {property : Round α → Bench α → Prop}
    {done rest : List (Round α)} {round : Round α} {bench bench' : Bench α}
    (along : Along limits real copy property (done ++ round :: rest) bench)
    (runs : oneTest limits real copy done bench = .ok none bench') : property round bench' := by
  induction done generalizing bench with
  | nil =>
    cases runs
    exact along.1
  | cons first done ih =>
    rw [oneTest, bind_eq_ok] at runs
    obtain ⟨code, middle, one, others⟩ := runs
    cases code with
    | some err => cases others
    | none => exact ih (along.2 middle one) others

/-- The storage of the simulator and all others behave as private histories; the simulator is a
fresh copy, and there is a free name for more. -/
def Started (real copy : Nat) (bench : Bench α) : Prop :=
  ∃ ops family storage, Run ops bench.world family ∧ (∀ op ∈ ops, op.OwnTable) ∧
    copy ≠ real ∧ family copy = none ∧ bench.world.object real = some storage ∧
    storage.beginCacheNr = storage.cacheNr

/-- An attempt of the sweep: the copy has the history of the simulator, and a reset with the rollback
takes exactly that many of the newest writes back. -/
def Undoes (copy : Nat) (family : Family α) (history : History α) (attempt : Nat × World α) : Prop :=
  Isolated attempt.2 (Function.update family copy (some history)) ∧
    (attempt.2.step (.rollback copy (Fin.ofNat (2 ^ 16) attempt.1))).2 = .ok none ∧
    Isolated (attempt.2.step (.rollback copy (Fin.ofNat (2 ^ 16) attempt.1))).1
      (Function.update family copy (some (history.drop attempt.1)))

/-- Every crash point of an operation that completes is tried: the sweep calls `TestPowerOutage` on
fresh copies with the rollbacks below the number of its writes, in order, until one fails, and each
reset undoes exactly that many of the newest writes. -/
def TriesAll (limits : Limits) (real copy : Nat) (round : Round α) (bench : Bench α) : Prop :=
  ∀ startIoNr bench', operate limits real round bench = .ok (some startIoNr) bench' →
    ∃ family older,
      Isolated bench'.world family ∧ family copy = none ∧
      family real = some (round.operation.writes.reverse ++ older) ∧
      let tried := (finalState (testRound limits real copy round bench)).tried
      tried.map Prod.fst = untilFailure round.fails (List.range round.operation.writes.length) ∧
        ∀ attempt ∈ tried, Undoes copy family (round.operation.writes.reverse ++ older) attempt

/-- The counters of the operation stay in their ranges: `GetCacheNum` in 16 bits, `m_cache_nr` in 32
bits. New simulators start with a null table. -/
def Round.Fits (limits : Limits) (real : Nat) (round : Round α) (bench : Bench α) : Prop :=
  (∀ rollback lba, round.memory rollback lba = none) ∧
    ∀ storage op bench', bench.world.object real = some storage →
      chooseOp limits round storage { bench with tried := [] } = .ok op bench' →
      storage.getCacheNum - op.rollback + round.operation.writes.length < 2 ^ 16 ∧
        storage.cacheNr - op.rollback + round.operation.writes.length < 2 ^ 32

/-! ## The counters of a storage -/

section Counters

variable {storage after : CStorage} {manager manager' : StorageDataManager α}

/-- `BlockWrite` counts its write. -/
theorem blockWrite_counts {lba : Lba} {block : α}
    (done : storage.blockWrite manager lba block = .ok (manager', after)) :
    after.cacheNr = dword (storage.cacheNr + 1) ∧ after.beginCacheNr = storage.beginCacheNr := by
  unfold CStorage.blockWrite at done
  cases taken : manager.get with
  | error fault =>
    rw [taken] at done
    cases done
  | ok pair =>
    rw [taken] at done
    cases done
    exact ⟨rfl, rfl⟩

/-- A round of `Rollback` takes a write off the count, and lowers the beginning with it. -/
theorem rollbackOne_counts (done : CStorage.rollbackOne manager storage = .ok (manager', after)) :
    after.cacheNr = dword (storage.cacheNr + (2 ^ 32 - 1)) ∧
      after.beginCacheNr = min after.cacheNr storage.beginCacheNr := by
  unfold CStorage.rollbackOne at done
  cases tail : storage.cacheTail with
  | none =>
    rw [tail] at done
    cases done
  | some address =>
    rw [tail] at done
    dsimp only at done
    split at done
    · cases done
      exact ⟨rfl, rfl⟩
    · split at done
      · cases done
        exact ⟨rfl, rfl⟩
      · cases done

/-- `Rollback` takes its writes off the count, and leaves a beginning that is not later. -/
theorem rollbackLoop_counts {count : Nat}
    (done : CStorage.rollbackLoop count manager storage = .ok (manager', after))
    (enough : storage.beginCacheNr + count ≤ storage.cacheNr) (narrow : storage.cacheNr < 2 ^ 32) :
    after.cacheNr = storage.cacheNr - count ∧ after.beginCacheNr = storage.beginCacheNr := by
  induction count generalizing manager storage with
  | zero =>
    cases done
    exact ⟨rfl, rfl⟩
  | succ count ih =>
    unfold CStorage.rollbackLoop at done
    cases one : CStorage.rollbackOne manager storage with
    | error fault =>
      rw [one] at done
      cases done
    | ok pair =>
      obtain ⟨middle, less⟩ := pair
      rw [one] at done
      obtain ⟨fewer, begin⟩ := rollbackOne_counts one
      have left : less.cacheNr = storage.cacheNr - 1 := by
        rw [fewer]
        show (storage.cacheNr + (2 ^ 32 - 1)) % 2 ^ 32 = storage.cacheNr - 1
        omega
      have same : less.beginCacheNr = storage.beginCacheNr := by
        rw [begin]
        omega
      obtain ⟨rest, kept⟩ := ih done (by omega) (by omega)
      exact ⟨by omega, kept.trans same⟩

end Counters

/-! ## Calls of storages -/

/-- The storages behave as private histories. -/
def Holds (world : World α) (family : Family α) : Prop :=
  ∃ live free names, Represents world family live free names

/-- A representation isolates. -/
theorem Holds.isolated {world : World α} {family : Family α} (holds : Holds world family) :
    Isolated world family := by
  obtain ⟨live, free, names, represents⟩ := holds
  exact represents.isolated

section Calls

variable {bench : Bench α} {family : Family α} {name : Nat} {history : History α}

/-- A permitted call that reads nothing returns, and keeps the histories. -/
theorem callStorage_ok (holds : Holds bench.world family) {op : Storage.Op α}
    (permitted : op.Permitted family) (ownTable : op.OwnTable) (silent : family.reply op = .ok none) :
    (bench.world.step op).2 = .ok none ∧
      callStorage op bench = .ok () { bench with world := (bench.world.step op).1 } ∧
      Holds (bench.world.step op).1 (family.step op) := by
  obtain ⟨live, free, names, represents⟩ := holds
  obtain ⟨next, reply⟩ := represents.step op permitted ownTable
  rw [silent] at reply
  refine ⟨reply, ?_, next⟩
  have split : bench.world.step op = ((bench.world.step op).1, .ok none) := by rw [← reply]
  unfold callStorage
  rw [split]

/-- The storage of an object that has a history, and its count. -/
theorem Holds.exists_storage {world : World α} (holds : Holds world family)
    (present : family name = some history) :
    ∃ storage, world.object name = some storage ∧ storage.cacheNr = dword history.length := by
  obtain ⟨live, free, names, represents⟩ := holds
  obtain ⟨storage, here⟩ := represents.exists_object (by rw [present]; exact Option.some_ne_none _)
  obtain ⟨path, record⟩ := represents.recorded name storage history here present
  exact ⟨storage, here, record.length⟩

/-- Reading the storage of a simulator that exists. -/
theorem storageOf_eq {storage : CStorage} (here : bench.world.object name = some storage) :
    storageOf name bench = .ok storage bench := by
  unfold storageOf
  rw [get_bind_apply, here]
  rfl

/-- What calls on one object leave: the histories, the counters of the object, and the other objects
as they were. -/
structure Leaves (name : Nat) (world world' : World α) (family' : Family α) (cacheNr begun : Nat) :
    Prop where
  /-- The storages behave as private histories. -/
  holds : Holds world' family'
  /-- The counters of the object. -/
  here : ∃ storage, world'.object name = some storage ∧ storage.cacheNr = cacheNr ∧
    storage.beginCacheNr = begun
  /-- The other objects. -/
  others : ∀ other, other ≠ name → world'.object other = world.object other

/-- A result that is stored in an object leaves the others. -/
theorem update_others {world world' : World α}
    {result : Except StorageError (StorageDataManager α × CStorage)}
    (same : world.update name result = (world', .ok none)) :
    ∀ other, other ≠ name → world'.object other = world.object other := by
  intro other apart
  cases result with
  | error fault =>
    obtain ⟨rfl, -⟩ := Prod.mk.inj same
    rfl
  | ok pair =>
    obtain ⟨rfl, -⟩ := Prod.mk.inj same
    exact Function.update_of_ne apart ..

/-- A result that is stored in an object. -/
theorem update_leaves {world world' : World α} {family' : Family α}
    (result : Except StorageError (StorageDataManager α × CStorage)) {cacheNr begun : Nat}
    (same : world.update name result = (world', .ok none)) (holds : Holds world' family')
    (counts : ∀ manager after, result = .ok (manager, after) →
      after.cacheNr = cacheNr ∧ after.beginCacheNr = begun) :
    Leaves name world world' family' cacheNr begun := by
  have others := update_others same
  cases result with
  | error fault => cases same
  | ok pair =>
    obtain ⟨manager, after⟩ := pair
    obtain ⟨rfl, -⟩ := Prod.mk.inj same
    exact ⟨holds, ⟨after, Function.update_self .., counts manager after rfl⟩, others⟩

variable {storage : CStorage}

/-- A block write. -/
theorem blockWrite_leaves (holds : Holds bench.world family) (present : family name = some history)
    (here : bench.world.object name = some storage) (write : Lba × α) :
    ∃ world', callStorage (.blockWrite name write.1 write.2) bench =
        .ok () { bench with world := world' } ∧
      Leaves name bench.world world' (Function.update family name (some (write :: history)))
        (dword (storage.cacheNr + 1)) storage.beginCacheNr := by
  have exists_family : family name ≠ none := by
    rw [present]
    exact Option.some_ne_none history
  obtain ⟨reply, called, next⟩ :=
    callStorage_ok holds (show Op.Permitted family (.blockWrite name write.1 write.2) from
      exists_family) trivial rfl
  refine ⟨_, called, ?_⟩
  rw [Family.step, present] at next
  have step : bench.world.step (.blockWrite name write.1 write.2) =
      bench.world.update name (storage.blockWrite bench.world.manager write.1 write.2) := by
    simp only [World.step, here]
  apply update_leaves (storage.blockWrite bench.world.manager write.1 write.2)
  · rw [← step, ← reply]
  · exact next
  · exact fun manager after done => blockWrite_counts done

/-- A rollback of writes that the object has. -/
theorem rollback_leaves (holds : Holds bench.world family) (present : family name = some history)
    (here : bench.world.object name = some storage) {count : Nat} (short : count < 2 ^ 16)
    (enough : count ≤ storage.cacheNr) :
    ∃ world', resetStorage name count bench = .ok () { bench with world := world' } ∧
      bench.world.step (.rollback name (Fin.ofNat (2 ^ 16) count)) = (world', .ok none) ∧
      Holds world' (Function.update family name (some (history.drop count))) ∧
      (storage.beginCacheNr + count ≤ storage.cacheNr →
        Leaves name bench.world world' (Function.update family name (some (history.drop count)))
          (storage.cacheNr - count) storage.beginCacheNr) ∧
      ∀ other, other ≠ name → world'.object other = bench.world.object other := by
  have value : (Fin.ofNat (2 ^ 16) count : Nat) = count := Nat.mod_eq_of_lt short
  obtain ⟨same, found, length⟩ := holds.exists_storage present
  obtain rfl : same = storage := Option.some.inj (found.symm.trans here)
  have permitted : Op.Permitted family (.rollback name (Fin.ofNat (2 ^ 16) count)) := by
    refine ⟨history, present, ?_⟩
    rw [value, ← length]
    exact enough
  obtain ⟨reply, called, next⟩ := callStorage_ok holds permitted trivial rfl
  rw [Family.step, present, Option.map_some, value] at next
  have step : bench.world.step (.rollback name (Fin.ofNat (2 ^ 16) count)) =
      bench.world.update name (CStorage.rollbackLoop count bench.world.manager same) := by
    simp only [World.step, here, CStorage.rollback, value, Nat.not_lt.mpr enough, ↓reduceIte]
  have narrow : same.cacheNr < 2 ^ 32 := by
    rw [length]
    exact Nat.mod_lt _ (by decide)
  have stored : bench.world.update name (CStorage.rollbackLoop count bench.world.manager same) =
      ((bench.world.step (.rollback name (Fin.ofNat (2 ^ 16) count))).1, .ok none) := by
    rw [← step, ← reply]
  refine ⟨_, called, ?_, next, fun room => ?_, update_others stored⟩
  · rw [← reply]
  · exact update_leaves _ stored next fun manager after done => rollbackLoop_counts done room narrow

/-- The block writes of a call. -/
theorem writes_leave (holds : Holds bench.world family) (present : family name = some history)
    (here : bench.world.object name = some storage) (writes : List (Lba × α)) :
    ∃ world', writes.forM (fun write => callStorage (.blockWrite name write.1 write.2)) bench =
        .ok () { bench with world := world' } ∧
      Leaves name bench.world world' (Function.update family name (some (writes.reverse ++ history)))
        (dword (storage.cacheNr + writes.length)) storage.beginCacheNr := by
  induction writes generalizing bench family history storage with
  | nil =>
    obtain ⟨same, found, length⟩ := holds.exists_storage present
    obtain rfl : same = storage := Option.some.inj (found.symm.trans here)
    refine ⟨bench.world, rfl, ?_, ⟨same, here, ?_, rfl⟩, fun _ _ => rfl⟩
    · rw [List.reverse_nil, List.nil_append, ← present, Function.update_eq_self]
      exact holds
    · show same.cacheNr = same.cacheNr % 2 ^ 32
      rw [length]
      exact (Nat.mod_mod _ _).symm
  | cons write rest ih =>
    obtain ⟨middle, first, left⟩ := blockWrite_leaves holds present here write
    obtain ⟨stored, there, count, begun⟩ := left.here
    obtain ⟨world', others, done⟩ :=
      ih (show Holds ({ bench with world := middle } : Bench α).world _ from left.holds)
        (Function.update_self ..) there
    refine ⟨world', ?_, ?_, ?_, fun other apart => ?_⟩
    · change (callStorage (.blockWrite name write.1 write.2) >>= fun _ => rest.forM fun write =>
        callStorage (.blockWrite name write.1 write.2)) bench = _
      rw [bind_apply, first]
      exact others
    · have idem := done.holds
      rw [Function.update_idem] at idem
      rwa [List.reverse_cons, List.append_assoc, List.singleton_append]
    · have total : dword (stored.cacheNr + rest.length) =
          dword (storage.cacheNr + (write :: rest).length) := by
        rw [count, List.length_cons]
        show ((storage.cacheNr + 1) % 2 ^ 32 + rest.length) % 2 ^ 32 =
          (storage.cacheNr + (rest.length + 1)) % 2 ^ 32
        omega
      rw [← total, ← begun]
      exact done.here
    · rw [done.others other apart]
      exact left.others other apart

/-- A call of the file system returns or throws its code after its writes. -/
theorem behave_eq {behaviour : Behaviour α} {bench' : Bench α}
    (written : behaviour.writes.forM
      (fun write => callStorage (.blockWrite name write.1 write.2)) bench = .ok () bench') :
    behave name behaviour bench = match behaviour.result with
      | .ok code => .ok code bench'
      | .error code => .error (.exception code) bench' := by
  unfold behave
  rw [bind_apply, written]
  dsimp only
  cases behaviour.result <;> rfl

end Calls

/-! ## The sweep -/

section Sweep

variable {real copy : Nat} {round : Round α} {bench : Bench α} {world : World α} {family : Family α}
  {history : History α} {storage : CStorage} {rounds ii : Nat}

/-- The simulator has a history and a storage, and there is a free name for copies. -/
structure Ready (real copy : Nat) (world : World α) (family : Family α) (history : History α)
    (storage : CStorage) : Prop where
  /-- The storages behave as private histories. -/
  holds : Holds world family
  /-- The name is free. -/
  fresh : family copy = none
  /-- The history of the simulator. -/
  present : family real = some history
  /-- The storage of the simulator. -/
  here : world.object real = some storage

/-- The name for copies is not that of the simulator. -/
theorem Ready.apart (ready : Ready real copy world family history storage) : real ≠ copy := by
  rintro rfl
  have present := ready.present
  rw [ready.fresh] at present
  cases present

/-- A new simulator is a copy of the storage. -/
theorem clone_leaves (ready : Ready real copy bench.world family history storage)
    {memory : Lba → Option Nat} (empty : ∀ lba, memory lba = none) :
    ∃ world', callStorage (.clone copy real memory) bench = .ok () { bench with world := world' } ∧
      Holds world' (Function.update family copy (some history)) ∧
      world'.object copy = some storage.copyOf ∧ world'.object real = some storage := by
  have permitted : Op.Permitted family (.clone copy real memory) := by
    refine ⟨ready.fresh, ?_⟩
    rw [ready.present]
    exact Option.some_ne_none history
  obtain ⟨-, called, next⟩ := callStorage_ok ready.holds permitted empty rfl
  rw [Family.step, ready.present] at next
  have step : (bench.world.step (.clone copy real memory)).1 =
      bench.world.copyInto copy memory storage := by
    simp only [World.step, ready.here]
  refine ⟨_, called, next, ?_, ?_⟩
  · rw [step]
    exact Function.update_self ..
  · rw [step]
    exact (Function.update_of_ne ready.apart ..).trans ready.here

/-- A copy that goes leaves the storages as they were before it came. -/
theorem destroy_leaves {held : Option (History α)}
    (holds : Holds bench.world (Function.update family copy held)) (present : held ≠ none)
    (fresh : family copy = none) :
    ∃ world', callStorage (.destroy copy) bench = .ok () { bench with world := world' } ∧
      Holds world' family ∧
      ∀ other, other ≠ copy → world'.object other = bench.world.object other := by
  have permitted : Op.Permitted (Function.update family copy held) (.destroy copy) := by
    show Function.update family copy held copy ≠ none
    rwa [Function.update_self]
  obtain ⟨reply, called, next⟩ := callStorage_ok holds permitted trivial rfl
  rw [Family.step, Function.update_idem, ← fresh, Function.update_eq_self] at next
  refine ⟨_, called, next, fun other apart => ?_⟩
  cases here : bench.world.object copy with
  | none =>
    simp only [World.step, here]
  | some storage =>
    simp only [World.step, here]
    exact Function.update_of_ne apart ..

/-- The state after a call of `TestPowerOutage` in the sweep. -/
def Bench.attempted (bench : Bench α) (ii : Nat) (called after : World α) : Bench α :=
  { bench with world := after, tried := bench.tried ++ [(ii, called)] }

/-- A round of the sweep with a rollback of writes that the simulator has. -/
theorem outages_succ (rounds : Nat) (ready : Ready real copy bench.world family history storage)
    (empty : ∀ lba, round.memory ii lba = none) (short : ii < 2 ^ 16)
    (enough : ii ≤ storage.cacheNr) :
    ∃ called after left, Undoes copy family history (ii, called) ∧
      Ready real copy left family history storage ∧
      outages real copy round (rounds + 1) ii bench = match (round.outage ii).result with
        | .error code => .error (.exception code) (bench.attempted ii called after)
        | .ok code =>
          if code.fatal then .ok (some code) (bench.attempted ii called after)
          else outages real copy round rounds (ii + 1) (bench.attempted ii called left) := by
  obtain ⟨called, cloned, copied, there, here⟩ := clone_leaves ready empty
  let logged : Bench α := bench.attempted ii called called
  obtain ⟨reset, resetCall, resetStep, undone, -, others⟩ :=
    rollback_leaves (show Holds logged.world _ from copied) (Function.update_self ..) there short enough
  rw [Function.update_idem] at undone
  obtain ⟨fewer, found, -⟩ := undone.exists_storage (Function.update_self ..)
  obtain ⟨after, written, done⟩ :=
    writes_leave (show Holds ({ logged with world := reset } : Bench α).world _ from undone)
      (Function.update_self ..) found (round.outage ii).writes
  have holds := done.holds
  rw [Function.update_idem] at holds
  obtain ⟨left, destroyed, back, others'⟩ := destroy_leaves
    (show Holds (bench.attempted ii called after).world _ from holds) (Option.some_ne_none _) ready.fresh
  refine ⟨called, after, left, ⟨copied.isolated, ?_, ?_⟩,
    ⟨back, ready.fresh, ready.present, ?_⟩, ?_⟩
  · exact congrArg Prod.snd resetStep
  · rw [show called.step _ = _ from resetStep]
    exact undone.isolated
  · rw [others' real ready.apart]
    show after.object real = some storage
    rw [done.others real ready.apart]
    show reset.object real = some storage
    rw [others real ready.apart]
    exact here
  · have ran : testPowerOutage copy ii (round.outage ii) logged = match (round.outage ii).result with
        | .ok code => .ok code (bench.attempted ii called after)
        | .error code => .error (.exception code) (bench.attempted ii called after) := by
      rw [testPowerOutage, bind_apply, resetCall]
      exact behave_eq written
    rw [outages, bind_apply, cloned]
    dsimp only
    rw [modify_bind_apply]
    change (testPowerOutage copy ii (round.outage ii) >>= _) logged = _
    rw [bind_apply, ran]
    cases (round.outage ii).result with
    | error code => rfl
    | ok code =>
      dsimp only
      by_cases fatal : code.fatal = true
      · rw [if_pos fatal, if_pos fatal]
        rfl
      · rw [if_neg fatal, if_neg fatal, bind_apply, destroyed]
        rfl

/-- The sweep tries the rollbacks in order until one fails, each on a copy of the simulator; if none
fails, the simulator is as before. -/
theorem outages_spec (ready : Ready real copy bench.world family history storage)
    (empty : ∀ rollback lba, round.memory rollback lba = none) (short : ii + rounds ≤ 2 ^ 16)
    (enough : ii + rounds ≤ storage.cacheNr) :
    ∃ attempts : List (Nat × World α),
      (finalState (outages real copy round rounds ii bench)).tried = bench.tried ++ attempts ∧
      attempts.map Prod.fst = untilFailure round.fails (List.range' ii rounds) ∧
      (∀ attempt ∈ attempts, Undoes copy family history attempt) ∧
      (∀ bench', outages real copy round rounds ii bench = .ok none bench' →
        Ready real copy bench'.world family history storage) ∧
      ((∀ rollback < ii + rounds, round.fails rollback = false) →
        ∃ bench', outages real copy round rounds ii bench = .ok none bench') := by
  induction rounds generalizing bench ii with
  | zero =>
    refine ⟨[], (List.append_nil _).symm, rfl, nofun, ?_, fun _ => ⟨bench, rfl⟩⟩
    rintro bench' ⟨⟩
    exact ready
  | succ rounds ih =>
    obtain ⟨called, after, left, undoes, ready', one⟩ :=
      outages_succ rounds ready (empty ii) (by omega) (by omega)
    rw [one, List.range'_succ]
    have fails : round.fails ii = match (round.outage ii).result with
      | .ok code => code.fatal
      | .error _ => true := rfl
    -- the sweep ends with this round
    have last : round.fails ii = true → ∃ attempts : List (Nat × World α),
        bench.tried ++ [(ii, called)] = bench.tried ++ attempts ∧
        attempts.map Prod.fst =
          untilFailure round.fails (ii :: List.range' (ii + 1) rounds) ∧
        (∀ attempt ∈ attempts, Undoes copy family history attempt) := by
      intro failed
      refine ⟨[(ii, called)], rfl, ?_, ?_⟩
      · rw [untilFailure, if_pos failed]
        rfl
      · exact List.forall_mem_singleton.mpr undoes
    cases result : (round.outage ii).result with
    | error code =>
      rw [result] at fails
      obtain ⟨attempts, tried, counts, undo⟩ := last fails
      refine ⟨attempts, tried, counts, undo, nofun, fun none => ?_⟩
      rw [none ii (by omega)] at fails
      cases fails
    | ok code =>
      rw [result] at fails
      dsimp only at fails ⊢
      cases fatal : code.fatal with
      | true =>
        rw [if_pos rfl]
        obtain ⟨attempts, tried, counts, undo⟩ := last (fails.trans fatal)
        refine ⟨attempts, tried, counts, undo, nofun, fun none => ?_⟩
        rw [none ii (by omega), fatal] at fails
        cases fails
      | false =>
        rw [if_neg Bool.false_ne_true]
        obtain ⟨attempts, tried, counts, undo, passed, total⟩ :=
          ih (show Ready real copy (bench.attempted ii called left).world family history storage
            from ready') (show ii + 1 + rounds ≤ 2 ^ 16 by omega)
            (show ii + 1 + rounds ≤ storage.cacheNr by omega)
        have shifted : ii + 1 + rounds = ii + (rounds + 1) := by omega
        rw [shifted] at total
        refine ⟨(ii, called) :: attempts, ?_, ?_, ?_, passed, total⟩
        · rw [tried]
          exact List.append_assoc ..
        · rw [untilFailure, if_neg (by rw [fails, fatal]; exact Bool.false_ne_true),
            List.map_cons, counts]
        · exact List.forall_mem_cons.mpr ⟨undoes, undo⟩

end Sweep

/-! ## The rollback that is generated -/

section Generated

variable {opSize : Nat} {limits : Limits} {fs : RefFs.ReferenceFs} {storage : CStorage}

/-- All operations that have been added have a property, and some have been added. -/
def Carries (good : TraceEntry → Prop) (least : Nat) (array : OpArray) : Prop :=
  least ≤ array.index ∧ ∀ op ∈ array.added, good op

variable {good : TraceEntry → Prop} {least : Nat}

/-- Adding an operation with the property. -/
theorem addEntry_carries {fill : TraceEntry → TraceEntry} (fine : ∀ entry, good (fill entry)) :
    Moves (Retains (Carries good least)) (addEntry opSize fill) := by
  intro array carries
  unfold addEntry
  rw [get_bind_apply]
  by_cases full : opSize ≤ array.index
  · rw [throwIf_bind_of full]
    exact carries
  · rw [throwIf_bind_of_not full]
    refine ⟨Nat.le_succ_of_le carries.1, fun op member => ?_⟩
    change op ∈ OpArray.added ⟨_, _⟩ at member
    rw [Adds.added_update, List.mem_append, List.mem_singleton] at member
    obtain earlier | rfl := member
    · exact carries.2 op earlier
    · exact fine _

/-- An operation that is no power outage, or takes back fewer writes than there are. -/
def Within (ioNr : Nat) (op : TraceEntry) : Prop :=
  op.opCode = .powerOffRecover → op.offset < ioNr

/-- The operations on the entries are no power outages. -/
theorem generateStatisticEntry_carries {ioNr : Nat} (file : RefFs.RefFile) :
    Moves (Retains (Carries (Within ioNr) least)) (generateStatisticEntry opSize limits fs file) := by
  have path : ∀ (opCode : RefFs.OpCode) (filePath : RefFs.Text), opCode ≠ .powerOffRecover →
      Moves (Retains (Carries (Within ioNr) least)) (addPathOp opSize opCode filePath) :=
    fun opCode _ other => addEntry_carries fun _ same => absurd same other
  have opened : Moves (Retains (Carries (Within ioNr) least)) (generateOpened opSize limits file) :=
    Moves.bind (Moves.doIf fun _ => addEntry_carries fun _ => nofun)
      fun _ => addEntry_carries fun _ => nofun
  unfold generateStatisticEntry
  split
  · apply Moves.doIf
    intro _
    apply Moves.bind (path .fileCreate _ nofun)
    intro _
    apply Moves.bind (path .dirCreate _ nofun)
    intro _
    apply Moves.doIf
    exact fun _ => path .dirDelete _ nofun
  · split
    · exact opened
    · exact Moves.bind (path .fileDelete _ nofun) fun _ => path .fileOpen _ nofun

/-- The statistic tester adds at least one operation, and its power outages take back fewer writes
than `GetCacheNum` counts. -/
theorem generateStatisticOps_carries {random opNr : Nat} {array array' : OpArray}
    (runs : generateStatisticOps opSize limits fs storage random array = .ok opNr array') :
    opNr = array'.index ∧ Carries (Within storage.getCacheNum) 1 array' := by
  unfold generateStatisticOps at runs
  rw [modify_bind_apply, bind_eq_ok] at runs
  obtain ⟨_, files, first, runs⟩ := runs
  rw [bind_eq_ok] at runs
  obtain ⟨_, mounted, mount, runs⟩ := runs
  rw [bind_eq_ok] at runs
  obtain ⟨_, last, power, returns⟩ := runs
  obtain ⟨rfl, rfl⟩ := EStateM.Result.ok.inj returns
  refine ⟨rfl, ?_⟩
  have begin : Carries (Within storage.getCacheNum) 0 { array with index := 0 } :=
    ⟨Nat.le_refl 0, nofun⟩
  have each : ∀ index, Moves (Retains (Carries (Within storage.getCacheNum) 0))
      (generateStatisticEntry opSize limits fs (fs.files index)) :=
    fun index => generateStatisticEntry_carries (fs.files index)
  have all : Moves (Retains (Carries (Within storage.getCacheNum) 0))
      (fs.usedFiles.forM fun index => generateStatisticEntry opSize limits fs (fs.files index)) :=
    Moves.forM each
  have filled := all { array with index := 0 } begin
  rw [first] at filled
  have again : Carries (Within storage.getCacheNum) 1 mounted := by
    unfold addBareOp addEntry at mount
    rw [get_bind_apply, throwIf_bind_eq_ok] at mount
    obtain ⟨-, stored⟩ := mount
    cases stored
    refine ⟨Nat.succ_le_succ (Nat.zero_le _), fun op member => ?_⟩
    change op ∈ OpArray.added ⟨_, _⟩ at member
    rw [Adds.added_update, List.mem_append, List.mem_singleton] at member
    obtain earlier | rfl := member
    · exact filled.2 op earlier
    · exact nofun
  have outage : Moves (Retains (Carries (Within storage.getCacheNum) 1))
      (doIf (limits.checkPowerLoss = true) (doIf (0 < storage.getCacheNum)
        (addRollbackOp opSize .powerOffRecover (random % storage.getCacheNum)))) := by
    apply Moves.doIf
    intro _
    apply Moves.doIf
    exact fun some => addEntry_carries fun _ _ => Nat.mod_lt random some
  have done := outage mounted again
  rw [power] at done
  exact done

end Generated

/-! ## The operation of a round -/

section Operation

variable {limits : Limits} {real copy : Nat} {round : Round α} {bench bench' : Bench α}
  {family : Family α} {history : History α} {storage : CStorage}

/-- A simulator that has got a new history is ready. -/
theorem Ready.leaves {world world' : World α} {history' : History α} {cacheNr begun : Nat}
    (ready : Ready real copy world family history storage)
    (left : Leaves real bench.world world' (Function.update family real (some history')) cacheNr
      begun) :
    ∃ storage', Ready real copy world' (Function.update family real (some history')) history'
      storage' ∧ storage'.cacheNr = cacheNr ∧ storage'.beginCacheNr = begun := by
  obtain ⟨storage', here, count, start⟩ := left.here
  refine ⟨storage', ⟨left.holds, ?_, Function.update_self .., here⟩, count, start⟩
  rw [Function.update_of_ne (Ne.symm ready.apart)]
  exact ready.fresh

/-- What is chosen when the operations are generated. -/
theorem chooseOp_of_generated {opNr : Nat} {ops : OpArray}
    (generated : generateStatisticOps maxWorkNr limits round.ref storage round.draw bench.ops =
      .ok opNr ops) :
    chooseOp limits round storage bench =
      .ok (ops.ops (round.choice % opNr)) { bench with ops := ops } := by
  unfold chooseOp
  rw [generated]

/-- The chosen operation takes back no more writes than `GetCacheNum` counts. -/
theorem chooseOp_spec {op : TraceEntry}
    (chosen : chooseOp limits round storage bench = .ok op bench') :
    bench'.world = bench.world ∧ bench'.tried = bench.tried ∧
      op.rollback ≤ storage.getCacheNum := by
  unfold chooseOp at chosen
  cases generated : generateStatisticOps maxWorkNr limits round.ref storage round.draw bench.ops with
  | error fault ops =>
    rw [generated] at chosen
    cases chosen
  | ok opNr ops =>
    rw [generated] at chosen
    cases chosen
    obtain ⟨rfl, least, within⟩ := generateStatisticOps_carries generated
    refine ⟨rfl, rfl, ?_⟩
    have member : ops.ops (round.choice % ops.index) ∈ ops.added :=
      List.mem_map.mpr ⟨_, List.mem_range.mpr (Nat.mod_lt _ least), rfl⟩
    unfold TraceEntry.rollback
    split
    · rename_i outage
      exact Nat.le_of_lt (within _ member outage)
    · exact Nat.zero_le _

/-- The operation: a power outage takes its rollback back first, and then come its writes. -/
theorem fsOperatorCore_spec (ready : Ready real copy bench.world family history storage)
    {op : TraceEntry} (short : op.rollback < 2 ^ 16)
    (enough : storage.beginCacheNr + op.rollback ≤ storage.cacheNr) (behaviour : Behaviour α) :
    ∃ world' storage', Ready real copy world'
        (Function.update family real (some (behaviour.writes.reverse ++ history.drop op.rollback)))
        (behaviour.writes.reverse ++ history.drop op.rollback) storage' ∧
      storage'.cacheNr = dword (storage.cacheNr - op.rollback + behaviour.writes.length) ∧
      storage'.beginCacheNr = storage.beginCacheNr ∧
      (behaviour.result = .ok .ok →
        fsOperatorCore real op behaviour bench = .ok .ok { bench with world := world' }) ∧
      ∀ ir bench', fsOperatorCore real op behaviour bench = .ok ir bench' →
        bench' = { bench with world := world' } := by
  -- the storage after the reset, if there is one
  have taken : ∃ middle stored, Ready real copy middle
        (Function.update family real (some (history.drop op.rollback)))
        (history.drop op.rollback) stored ∧
      stored.cacheNr = storage.cacheNr - op.rollback ∧
      stored.beginCacheNr = storage.beginCacheNr ∧
      carryOut real op behaviour bench = behave real behaviour { bench with world := middle } := by
    unfold TraceEntry.rollback at short enough ⊢
    unfold carryOut
    by_cases outage : op.opCode = .powerOffRecover
    · rw [if_pos outage] at short enough
      rw [if_pos outage, if_pos outage]
      obtain ⟨middle, called, -, -, left, -⟩ := rollback_leaves ready.holds ready.present ready.here
        short (Nat.le_trans (Nat.le_add_left _ _) enough)
      obtain ⟨stored, next, count, begun⟩ := ready.leaves (left enough)
      refine ⟨middle, stored, next, count, begun, ?_⟩
      rw [testPowerOutage, bind_apply, called]
    · rw [if_neg outage, if_neg outage]
      refine ⟨bench.world, storage, ?_, rfl, rfl, rfl⟩
      rw [List.drop_zero, ← ready.present, Function.update_eq_self]
      exact ⟨ready.holds, ready.fresh, ready.present, ready.here⟩
  obtain ⟨middle, stored, next, count, begun, same⟩ := taken
  obtain ⟨world', written, left⟩ := writes_leave
    (show Holds ({ bench with world := middle } : Bench α).world _ from next.holds) next.present next.here behaviour.writes
  rw [Function.update_idem] at left
  obtain ⟨storage', done, total, start⟩ := ready.leaves left
  refine ⟨world', storage', done, ?_, start.trans begun, fun fine => ?_, fun ir bench' returns => ?_⟩
  · rw [total, count]
  · unfold fsOperatorCore
    rw [bind_apply, same, behave_eq written, fine]
    rfl
  · unfold fsOperatorCore at returns
    rw [bind_apply, same, behave_eq written] at returns
    cases result : behaviour.result with
    | error code =>
      rw [result] at returns
      cases returns
    | ok code =>
      rw [result] at returns
      dsimp only at returns
      split at returns
      · cases returns
      · cases returns
        rfl

/-- The difference of two calls of `GetCacheNum` counts the writes in between while the count stays
below `2 ^ 16`, and `m_cache_nr` in its range. -/
theorem ioCount_eq {before after : CStorage} {rollback writes : Nat}
    (begun : before.beginCacheNr + rollback ≤ before.cacheNr) (narrow : before.cacheNr < 2 ^ 32)
    (taken : rollback ≤ before.getCacheNum)
    (count : after.cacheNr = dword (before.cacheNr - rollback + writes))
    (start : after.beginCacheNr = before.beginCacheNr)
    (few : before.getCacheNum - rollback + writes < 2 ^ 16)
    (inside : before.cacheNr - rollback + writes < 2 ^ 32) :
    after.cacheNr = before.cacheNr - rollback + writes ∧
      after.getCacheNum = before.getCacheNum - rollback + writes ∧
      dword (after.getCacheNum + 2 ^ 32 - dword (before.getCacheNum + 2 ^ 32 - rollback)) =
        writes := by
  have total : after.cacheNr = before.cacheNr - rollback + writes :=
    count.trans (Nat.mod_eq_of_lt inside)
  have counted : after.getCacheNum = before.getCacheNum - rollback + writes := by
    unfold CStorage.getCacheNum at taken few ⊢
    rw [start, total]
    omega
  refine ⟨total, counted, ?_⟩
  rw [counted]
  show (before.getCacheNum - rollback + writes + 2 ^ 32 -
    (before.getCacheNum + 2 ^ 32 - rollback) % 2 ^ 32) % 2 ^ 32 = writes
  have first : before.getCacheNum < 2 ^ 16 := Nat.mod_lt _ (by decide)
  omega

/-- The operation of a round that fits leaves the simulator with its writes in front of an older
history, and the sweep will count exactly these. -/
theorem operate_spec (ready : Ready real copy bench.world family history storage)
    (begun : storage.beginCacheNr ≤ storage.cacheNr) (fits : round.Fits limits real bench)
    {result : Option Nat} (runs : operate limits real round bench = .ok result bench') :
    ∃ family' older storage', Ready real copy bench'.world family'
        (round.operation.writes.reverse ++ older) storage' ∧
      storage'.beginCacheNr ≤ storage'.cacheNr ∧ bench'.tried = [] ∧
      round.operation.writes.length ≤ storage'.cacheNr ∧
      round.operation.writes.length < 2 ^ 16 ∧
      ∀ startIoNr, result = some startIoNr →
        dword (storage'.getCacheNum + 2 ^ 32 - startIoNr) = round.operation.writes.length := by
  have narrow : storage.cacheNr < 2 ^ 32 := by
    obtain ⟨same, found, length⟩ := ready.holds.exists_storage ready.present
    obtain rfl : same = storage := Option.some.inj (found.symm.trans ready.here)
    rw [length]
    exact Nat.mod_lt _ (by decide)
  unfold operate at runs
  rw [modify_bind_apply] at runs
  have stored := storageOf_eq
    (show ({ bench with tried := [] } : Bench α).world.object real = some storage from ready.here)
  rw [bind_apply, stored] at runs
  dsimp only at runs
  rw [bind_eq_ok] at runs
  obtain ⟨op, chosenBench, chosen, runs⟩ := runs
  obtain ⟨few, inside⟩ := fits.2 storage op chosenBench ready.here chosen
  obtain ⟨world, tried, taken⟩ := chooseOp_spec chosen
  have short : op.rollback < 2 ^ 16 := Nat.lt_of_le_of_lt taken (Nat.mod_lt _ (by decide))
  have enough : storage.beginCacheNr + op.rollback ≤ storage.cacheNr := by
    unfold CStorage.getCacheNum at taken
    omega
  have ready' : Ready real copy chosenBench.world family history storage := by
    rw [world]
    exact ready
  rw [bind_eq_ok] at runs
  obtain ⟨ir, done, core, runs⟩ := runs
  obtain ⟨world', storage', next, count, start, -, returned⟩ :=
    fsOperatorCore_spec ready' short enough round.operation
  obtain rfl := returned ir done core
  obtain ⟨total, -, counts⟩ := ioCount_eq enough narrow taken count start few inside
  have same : bench' = { chosenBench with world := world' } := by
    split at runs
    · cases runs
      rfl
    · split at runs
      · cases runs
        rfl
      · cases runs
        rfl
  subst same
  refine ⟨_, _, storage', next, ?_, tried, ?_, ?_, fun startIoNr some => ?_⟩
  · rw [start, total]
    omega
  · rw [total]
    omega
  · omega
  · subst some
    have value : startIoNr = dword (storage.getCacheNum + 2 ^ 32 - op.rollback) := by
      unfold TraceEntry.rollback
      split at runs
      · cases runs
      · split at runs
        · rename_i outage
          cases runs
          rw [if_pos outage]
        · rename_i regular
          cases runs
          rw [if_neg regular]
          have first : storage.getCacheNum < 2 ^ 16 := Nat.mod_lt _ (by decide)
          show storage.getCacheNum = (storage.getCacheNum + 2 ^ 32 - 0) % 2 ^ 32
          omega
    rw [value]
    exact counts

/-- The sweep counts the writes between the two calls of `GetCacheNum`. -/
theorem sweep_eq (here : bench.world.object real = some storage) {startIoNr writes : Nat}
    (counts : dword (storage.getCacheNum + 2 ^ 32 - startIoNr) = writes) :
    sweep real copy round startIoNr bench = outages real copy round writes 0 bench := by
  unfold sweep
  rw [bind_apply, storageOf_eq here]
  dsimp only
  rw [counts]

/-- The sweep after an operation of a round that fits. -/
theorem sweep_spec (ready : Ready real copy bench.world family history storage)
    (empty : ∀ rollback lba, round.memory rollback lba = none) {startIoNr writes : Nat}
    (counts : dword (storage.getCacheNum + 2 ^ 32 - startIoNr) = writes)
    (short : writes ≤ 2 ^ 16) (enough : writes ≤ storage.cacheNr) :
    ∃ attempts : List (Nat × World α),
      (finalState (sweep real copy round startIoNr bench)).tried = bench.tried ++ attempts ∧
      attempts.map Prod.fst = untilFailure round.fails (List.range writes) ∧
      (∀ attempt ∈ attempts, Undoes copy family history attempt) ∧
      (∀ bench', sweep real copy round startIoNr bench = .ok none bench' →
        Ready real copy bench'.world family history storage) ∧
      ((∀ rollback < writes, round.fails rollback = false) →
        ∃ bench', sweep real copy round startIoNr bench = .ok none bench') := by
  have total : 0 + writes = writes := Nat.zero_add writes
  rw [sweep_eq ready.here counts, List.range_eq_range']
  have spec := outages_spec ready empty (show 0 + writes ≤ 2 ^ 16 by omega)
    (show 0 + writes ≤ storage.cacheNr by omega)
  rwa [total] at spec

/-- An operation that is no power outage and completes. -/
theorem operate_of_core {op : TraceEntry} {chosenBench : Bench α}
    (here : bench.world.object real = some storage)
    (chosen : chooseOp limits round storage { bench with tried := [] } = .ok op chosenBench)
    (regular : op.opCode ≠ .powerOffRecover)
    (core : fsOperatorCore real op round.operation chosenBench = .ok .ok bench') :
    operate limits real round bench = .ok (some storage.getCacheNum) bench' := by
  unfold operate
  rw [modify_bind_apply, bind_apply, storageOf_eq
    (show ({ bench with tried := [] } : Bench α).world.object real = some storage from here)]
  dsimp only
  rw [bind_apply, chosen]
  dsimp only
  rw [bind_apply, core]
  dsimp only
  rw [if_neg nofun, if_neg regular]
  rfl

/-- After an operation that completes comes its sweep. -/
theorem testRound_of_operate (checks : limits.checkPowerLoss = true) {startIoNr : Nat}
    (operated : operate limits real round bench = .ok (some startIoNr) bench') :
    testRound limits real copy round bench = sweep real copy round startIoNr bench' := by
  unfold testRound
  rw [bind_apply, operated]
  dsimp only
  rw [if_pos checks]

/-- A round that fits tries every crash point of its operation, and leaves the simulator ready for
the next one. -/
theorem testRound_spec (ready : Ready real copy bench.world family history storage)
    (begun : storage.beginCacheNr ≤ storage.cacheNr) (fits : round.Fits limits real bench)
    (checks : limits.checkPowerLoss = true) :
    TriesAll limits real copy round bench ∧
      ∀ bench', testRound limits real copy round bench = .ok none bench' →
        ∃ family' history' storage', Ready real copy bench'.world family' history' storage' ∧
          storage'.beginCacheNr ≤ storage'.cacheNr := by
  constructor
  · intro startIoNr middle operated
    obtain ⟨family', older, storage', next, -, tried, enough, few, counts⟩ :=
      operate_spec ready begun fits operated
    obtain ⟨attempts, logged, order, undoes, -, -⟩ :=
      sweep_spec next fits.1 (counts startIoNr rfl) (Nat.le_of_lt few) enough
    refine ⟨family', older, next.holds.isolated, next.fresh, next.present, ?_⟩
    rw [testRound_of_operate checks operated, logged, tried, List.nil_append]
    exact ⟨order, undoes⟩
  · intro bench' runs
    cases operated : operate limits real round bench with
    | error fault middle =>
      unfold testRound at runs
      rw [bind_apply, operated] at runs
      cases runs
    | ok result middle =>
      obtain ⟨family', older, storage', next, begun', -, enough, few, counts⟩ :=
        operate_spec ready begun fits operated
      cases result with
      | none =>
        unfold testRound at runs
        rw [bind_apply, operated] at runs
        cases runs
        exact ⟨family', _, storage', next, begun'⟩
      | some startIoNr =>
        rw [testRound_of_operate checks operated] at runs
        obtain ⟨-, -, -, -, passed, -⟩ :=
          sweep_spec next fits.1 (counts startIoNr rfl) (Nat.le_of_lt few) enough
        exact ⟨family', _, storage', passed bench' runs, begun'⟩

/-- A run that is ready and fits tries every crash point. -/
theorem along_triesAll {rounds : List (Round α)}
    (ready : Ready real copy bench.world family history storage)
    (begun : storage.beginCacheNr ≤ storage.cacheNr) (checks : limits.checkPowerLoss = true)
    (fits : Along limits real copy (fun round bench => round.Fits limits real bench) rounds bench) :
    Along limits real copy (TriesAll limits real copy) rounds bench := by
  induction rounds generalizing bench family history storage with
  | nil => trivial
  | cons round rest ih =>
    obtain ⟨tries, next⟩ := testRound_spec ready begun fits.1 checks
    refine ⟨tries, fun bench' runs => ?_⟩
    obtain ⟨family', history', storage', ready', begun'⟩ := next bench' runs
    exact ih ready' begun' (fits.2 bench' runs)

/-- A test that starts is ready. -/
theorem Started.ready (started : Started real copy bench) :
    ∃ family history storage, Ready real copy bench.world family history storage ∧
      storage.beginCacheNr = storage.cacheNr := by
  obtain ⟨ops, family, storage, run, ownTables, apart, fresh, here, begun⟩ := started
  have holds : Holds bench.world family := run.represents ownTables
  obtain ⟨live, free, names, represents⟩ := holds
  obtain ⟨history, path, present, -⟩ := represents.exists_history here
  exact ⟨family, history, storage, ⟨⟨live, free, names, represents⟩, fresh, present, here⟩, begun⟩

/-- In every run of `OneTest` whose operations keep the counters in their ranges, every crash point
of every operation that completes is tried: all along the rounds, and so in every round that comes
after rounds of which `OneTest` has returned. -/
theorem oneTest_tries_all (started : Started real copy bench)
    (checks : limits.checkPowerLoss = true) {rounds : List (Round α)}
    (fits : Along limits real copy (fun round bench => round.Fits limits real bench) rounds bench) :
    Along limits real copy (TriesAll limits real copy) rounds bench ∧
      ∀ done round rest, rounds = done ++ round :: rest →
        ∀ bench', oneTest limits real copy done bench = .ok none bench' →
          TriesAll limits real copy round bench' := by
  obtain ⟨family, history, storage, ready, begun⟩ := started.ready
  have along := along_triesAll ready (Nat.le_of_eq begun) checks fits
  refine ⟨along, fun done round rest same bench' runs => ?_⟩
  rw [same] at along
  exact along.of_runs runs

end Operation

/-! ## A test of many mounts -/

/-- Only mounts and power outages are generated. -/
def mountLimits : Limits := ⟨0, 5, 5, true⟩

/-- The round of a mount that writes one block; an outage that takes two writes back would fail. -/
def mountRound : Round Nat where
  ref := RefFs.ReferenceFs.zero.initialized
  draw := 0
  choice := 0
  operation := ⟨[(0, 7)], .ok .ok⟩
  outage := fun rollback => if rollback = 1 then ⟨[], .ok .verifyFile⟩ else ⟨[], .ok .ok⟩
  memory := fun _ _ => none

/-- An initialised simulator. -/
def mountBench : Bench Nat := ⟨World.start blankMemory, someArray, []⟩

/-- The test starts. -/
theorem mountBench_started : Started 0 1 mountBench :=
  ⟨[], Family.start, CStorage.initialized, .start blankMemory, nofun, by decide, rfl, rfl, rfl⟩

section Mounts

variable {bench : Bench Nat} {family : Family Nat} {history : History Nat} {storage : CStorage}

/-- The first operation that is generated is a mount. -/
theorem chooseOp_mount (bench : Bench Nat) (storage : CStorage) :
    ∃ bench', chooseOp mountLimits mountRound storage bench =
      .ok ⟨.demountMount, [], [], 0, 0, 0⟩ bench' ∧
    bench'.world = bench.world ∧ bench'.tried = bench.tried := by
  have used : mountRound.ref.usedFiles = [0] :=
    (RefFs.initialized_slots RefFs.ReferenceFs.zero).usedFiles_eq
  let mount : TraceEntry := ⟨.demountMount, [], [], 0, 0, 0⟩
  have files : (mountRound.ref.usedFiles.forM fun index =>
      generateStatisticEntry maxWorkNr mountLimits mountRound.ref (mountRound.ref.files index))
        { bench.ops with index := 0 } = .ok ⟨⟩ { bench.ops with index := 0 } := by
    have skipped : generateStatisticEntry maxWorkNr mountLimits mountRound.ref
        (mountRound.ref.files 0) = pure ⟨⟩ := by
      have isDir : (mountRound.ref.files 0).isDir = true := rfl
      have full : ¬ Expands mountLimits mountRound.ref (mountRound.ref.files 0) :=
        fun expands => expands.1 (Nat.zero_le _)
      unfold generateStatisticEntry doIf
      rw [if_pos isDir, if_neg full]
    rw [used]
    change ((generateStatisticEntry maxWorkNr mountLimits mountRound.ref (mountRound.ref.files 0)) >>=
      fun _ => pure PUnit.unit) _ = _
    rw [skipped]
    rfl
  have mounted : addBareOp maxWorkNr .demountMount { bench.ops with index := 0 } =
      .ok ⟨⟩ ⟨Function.update bench.ops.ops 0 mount, 1⟩ := rfl
  have powers : ∃ ops : OpArray, (doIf (mountLimits.checkPowerLoss = true)
      (doIf (0 < storage.getCacheNum) (addRollbackOp maxWorkNr .powerOffRecover
        (mountRound.draw % storage.getCacheNum)))) ⟨Function.update bench.ops.ops 0 mount, 1⟩ =
        .ok ⟨⟩ ops ∧ ops.ops 0 = mount := by
    have checks : mountLimits.checkPowerLoss = true := rfl
    unfold doIf
    rw [if_pos checks]
    split
    · let outage : TraceEntry := ⟨.powerOffRecover, [], [], 0, mountRound.draw % storage.getCacheNum,
        (Function.update bench.ops.ops 0 mount 1).length⟩
      have kept : Function.update (Function.update bench.ops.ops 0 mount) 1 outage 0 = mount := by
        rw [Function.update_of_ne Nat.zero_ne_one, Function.update_self]
      exact ⟨⟨Function.update (Function.update bench.ops.ops 0 mount) 1 outage, 2⟩, rfl, kept⟩
    · refine ⟨⟨Function.update bench.ops.ops 0 mount, 1⟩, rfl, ?_⟩
      exact Function.update_self 0 mount bench.ops.ops
  obtain ⟨ops, power, first⟩ := powers
  have generated : generateStatisticOps maxWorkNr mountLimits mountRound.ref storage mountRound.draw
      bench.ops = .ok ops.index ops := by
    unfold generateStatisticOps
    rw [modify_bind_apply]
    refine bind_eq_ok.mpr ⟨_, _, files, bind_eq_ok.mpr ⟨_, _, mounted, ?_⟩⟩
    exact bind_eq_ok.mpr ⟨_, _, power, rfl⟩
  refine ⟨{ bench with ops := ops }, ?_, rfl, rfl⟩
  have choice : mountRound.choice % ops.index = 0 := Nat.zero_mod _
  rw [chooseOp_of_generated generated, choice, first]

/-- A mount adds its write. -/
theorem operate_mount (ready : Ready 0 1 bench.world family history storage)
    (begun : storage.beginCacheNr ≤ storage.cacheNr) :
    ∃ bench' family' history' storage',
      operate mountLimits 0 mountRound bench = .ok (some storage.getCacheNum) bench' ∧
      Ready 0 1 bench'.world family' history' storage' ∧ bench'.tried = [] ∧
      storage'.cacheNr = dword (storage.cacheNr + 1) ∧
      storage'.beginCacheNr = storage.beginCacheNr := by
  obtain ⟨chosenBench, chosen, world, tried⟩ :=
    chooseOp_mount { bench with tried := [] } storage
  have ready' : Ready 0 1 chosenBench.world family history storage := by
    rw [world]
    exact ready
  let mount : TraceEntry := ⟨.demountMount, [], [], 0, 0, 0⟩
  have zero : mount.rollback = 0 := if_neg nofun
  obtain ⟨world', storage', next, count, start, returns, -⟩ := fsOperatorCore_spec ready'
    (show mount.rollback < 2 ^ 16 by rw [zero]; decide) (by rw [zero]; exact begun) mountRound.operation
  have one : mountRound.operation.writes.length = 1 := rfl
  rw [zero, one, Nat.sub_zero] at count
  refine ⟨{ chosenBench with world := world' }, _, _, storage', ?_, next, tried, count, start⟩
  exact operate_of_core ready.here chosen nofun (returns rfl)

/-- The rounds before the count reaches `2 ^ 16` go on. -/
theorem testRound_mount (ready : Ready 0 1 bench.world family history storage)
    (begun : storage.beginCacheNr = 0) (few : storage.cacheNr + 1 < 2 ^ 16) :
    ∃ bench' family' history' storage', testRound mountLimits 0 1 mountRound bench = .ok none bench' ∧
      Ready 0 1 bench'.world family' history' storage' ∧
      storage'.cacheNr = storage.cacheNr + 1 ∧ storage'.beginCacheNr = 0 := by
  obtain ⟨middle, family', history', storage', operated, next, -, count, start⟩ :=
    operate_mount ready (by omega)
  have total : storage'.cacheNr = storage.cacheNr + 1 :=
    count.trans (Nat.mod_eq_of_lt (by omega))
  have counts : dword (storage'.getCacheNum + 2 ^ 32 - storage.getCacheNum) = 1 := by
    unfold CStorage.getCacheNum
    rw [start, total, begun]
    show (_ + 2 ^ 32 - _) % 2 ^ 32 = 1
    omega
  obtain ⟨-, -, -, -, passed, passes⟩ :=
    sweep_spec next (show ∀ rollback lba, mountRound.memory rollback lba = none from fun _ _ => rfl)
      counts (by decide) (by omega)
  obtain ⟨bench', swept⟩ := passes fun rollback less => by
    obtain rfl : rollback = 0 := Nat.lt_one_iff.mp less
    rfl
  refine ⟨bench', family', history', storage', ?_, passed bench' swept, total, start.trans begun⟩
  rw [testRound_of_operate rfl operated, swept]

/-- When the count passes `2 ^ 16`, the sweep goes on beyond the one write of the operation. -/
theorem not_triesAll_mount (ready : Ready 0 1 bench.world family history storage)
    (begun : storage.beginCacheNr = 0) (last : storage.cacheNr = 65535) :
    ¬ TriesAll mountLimits 0 1 mountRound bench := by
  intro tries
  obtain ⟨middle, family', history', storage', operated, next, tried, count, start⟩ :=
    operate_mount ready (by omega)
  have total : storage'.cacheNr = 65536 := by
    unfold dword at count
    omega
  have before : storage.getCacheNum = 65535 := by
    unfold CStorage.getCacheNum
    omega
  have after : storage'.getCacheNum = 0 := by
    unfold CStorage.getCacheNum
    omega
  have counts : ∃ more, dword (storage'.getCacheNum + 2 ^ 32 - storage.getCacheNum) = more + 1 + 1 := by
    rw [after, before]
    exact ⟨4294901759, rfl⟩
  obtain ⟨more, counts⟩ := counts
  obtain ⟨-, -, -, -, -, order, -⟩ := tries _ middle operated
  obtain ⟨first, _, left, -, next', one⟩ := outages_succ (more + 1) next
    (show ∀ lba, mountRound.memory 0 lba = none from fun _ => rfl) (by decide) (Nat.zero_le _)
  obtain ⟨second, reset', _, -, -, two⟩ := outages_succ more
    (show Ready 0 1 (middle.attempted 0 first left).world family' history' storage' from next')
    (show ∀ lba, mountRound.memory 1 lba = none from fun _ => rfl) (by decide) (by omega)
  have swept : testRound mountLimits 0 1 mountRound bench =
      .ok (some .verifyFile) ((middle.attempted 0 first left).attempted 1 second reset') := by
    rw [testRound_of_operate rfl operated, sweep_eq next.here counts]
    exact one.trans two
  rw [swept] at order
  change ((middle.tried ++ [(0, first)]) ++ [(1, second)]).map Prod.fst = _ at order
  rw [tried] at order
  have one : untilFailure mountRound.fails (List.range mountRound.operation.writes.length) = [0] := by
    decide
  rw [one] at order
  cases order

/-- A run of mounts comes to the passing of `2 ^ 16`. -/
theorem not_along_mounts (rounds : Nat) (ready : Ready 0 1 bench.world family history storage)
    (begun : storage.beginCacheNr = 0) (last : storage.cacheNr + rounds = 65535) :
    ¬ Along mountLimits 0 1 (TriesAll mountLimits 0 1) (List.replicate (rounds + 1) mountRound)
      bench := by
  induction rounds generalizing bench family history storage with
  | zero => exact fun along => not_triesAll_mount ready begun last along.1
  | succ rounds ih =>
    rintro ⟨-, rest⟩
    obtain ⟨bench', family', history', storage', runs, next, count, start⟩ :=
      testRound_mount ready begun (by omega)
    exact ih next start (by omega) (rest bench' runs)

end Mounts

/-- In a run of 65536 mounts with one write each, the last sweep tries a rollback of a write that
its operation has not issued. -/
theorem mounts_not_triesAll :
    Started 0 1 mountBench ∧ mountLimits.checkPowerLoss = true ∧
      ¬ Along mountLimits 0 1 (TriesAll mountLimits 0 1) (List.replicate 65536 mountRound)
        mountBench := by
  refine ⟨mountBench_started, rfl, ?_⟩
  obtain ⟨live, free, names, represents⟩ := Run.represents (.start blankMemory) nofun
  have ready : Ready 0 1 mountBench.world Family.start [] CStorage.initialized :=
    ⟨⟨live, free, names, represents⟩, rfl, rfl, rfl⟩
  exact not_along_mounts 65535 ready rfl rfl

/-- The first of these mounts. -/
theorem oneTest_tries_all_mount :
    Along mountLimits 0 1 (TriesAll mountLimits 0 1) [mountRound] mountBench := by
  refine (oneTest_tries_all mountBench_started rfl ?_).1
  refine ⟨⟨fun _ _ => rfl, fun storage op bench' here _ => ?_⟩, fun _ _ => trivial⟩
  obtain rfl := Option.some.inj here
  have none : CStorage.initialized.getCacheNum = 0 := rfl
  have empty : CStorage.initialized.cacheNr = 0 := rfl
  rw [none, empty, Nat.zero_sub]
  exact ⟨by decide, by decide⟩

end FsChecking.Tester
