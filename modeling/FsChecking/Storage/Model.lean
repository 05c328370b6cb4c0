import Mathlib.Logic.Function.Basic
import FsChecking.Config

/-!
# Versioned block storage

`CStorage` keeps, for every block address, a chain of versions (`pre_ver`), and through all
versions of all blocks a chain of writes in issue order (`pre_write`). The version nodes are
shared between all storages copied from one another and are reclaimed by reference counting.
Pointers are addresses into one node memory; `none` is the null pointer. The block payload is only
ever copied, so it stays a type variable.
-/

namespace FsChecking.Storage

variable {α : Type}

/-- `StorageDataBase`: one version of one block. -/
structure StorageData (α : Type) where
  /-- `data`. -/
  data : α
  /-- `pre_ver`: the previous version of the same block; on the free list, the next free node. -/
  preVer : Option Nat
  /-- `pre_write`: the write issued before this one. -/
  preWrite : Option Nat
  /-- `m_ref`. -/
  ref : Int
  /-- `lba`; `INVALID_BLK` while the node is free. -/
  lba : Nat

/-- A block address inside `m_data`; `BlockWrite` asserts the bound. -/
abbrev Lba : Type := Fin totalBlockNr

/-- `CStorage`, without the members kept for debugging. -/
structure CStorage where
  /-- `m_data`: the current version of every block. -/
  data : Lba → Option Nat
  /-- `m_cache_tail`: the last write. -/
  cacheTail : Option Nat
  /-- `m_cache_nr`: the number of writes in the history, in a `UINT`. -/
  cacheNr : Nat
  /-- `m_begin_cache_nr`: the length of the history at the last copy. -/
  beginCacheNr : Nat

/-- `StorageDataManager` together with the memory of the nodes it hands out. -/
structure StorageDataManager (α : Type) where
  /-- The node at each address. -/
  node : Nat → StorageData α
  /-- The first address not yet obtained from `new`. -/
  limit : Nat
  /-- `m_free_list`. -/
  freeList : Option Nat
  /-- `m_free_nr`. -/
  freeNr : Nat

/-- The exceptions that storage operations throw. -/
inductive StorageError where
  /-- `ERR_READ_NO_MAPPING_DATA`. -/
  | readNoMappingData
  /-- `ERR_PHYSICAL_ADD_NOMATCH`. -/
  | physicalAddNomatch
  /-- `ERR_APP`: the rollback count exceeds the history. -/
  | rollbackTooLong
  /-- A null pointer is followed, which C++ leaves undefined. -/
  | nullPointer
  deriving DecidableEq

namespace StorageDataManager

/-- `STORAGE_DATA_ALLOCATE_SIZE`. -/
@[irreducible] def allocateSize : Nat := 4096

/-- A buffer is never empty. -/
theorem allocateSize_eq : allocateSize = 4095 + 1 := by unfold allocateSize; rfl

/-- Replace the node at one address. -/
def setNode (manager : StorageDataManager α) (address : Nat) (value : StorageData α) :
    StorageDataManager α :=
  { manager with node := Function.update manager.node address value }

/-- The node at position `index` of a buffer that starts at `start`, linked to its successor. The
payload and `pre_write` of a new node are never read before `BlockWrite` sets them. -/
def bufferNode (manager : StorageDataManager α) (start index : Nat) : StorageData α :=
  { manager.node (start + index) with
    preVer := if index + 1 < allocateSize then some (start + index + 1) else manager.freeList
    lba := invalidBlk }

/-- `AllocateBuffer`: a new array of nodes is put in front of the free list. -/
def allocateBuffer (manager : StorageDataManager α) : StorageDataManager α :=
  let start := manager.limit
  { node := fun address =>
      if start ≤ address ∧ address < start + allocateSize then
        manager.bufferNode start (address - start)
      else manager.node address
    limit := start + allocateSize
    freeList := some start
    freeNr := manager.freeNr + allocateSize }

/-- Unlink the first free node, which gets one reference and no earlier version. -/
def unlinkFree (manager : StorageDataManager α) (address : Nat) : StorageDataManager α :=
  let node := manager.node address
  { manager.setNode address { node with ref := 1, preVer := none } with
    freeList := node.preVer
    freeNr := manager.freeNr - 1 }

/-- The part of `get` after the free list has been refilled. -/
def takeFree (manager : StorageDataManager α) : Except StorageError (Nat × StorageDataManager α) :=
  match manager.freeList with
  | none => .error .nullPointer
  | some address => .ok (address, manager.unlinkFree address)

/-- `get`: a free node with one reference and no earlier version. -/
def get (manager : StorageDataManager α) : Except StorageError (Nat × StorageDataManager α) :=
  takeFree (if manager.freeNr = 0 then manager.allocateBuffer else manager)

/-- `AddRef` on the node at an address. -/
def addRef (manager : StorageDataManager α) (address : Nat) : StorageDataManager α :=
  let node := manager.node address
  manager.setNode address { node with ref := node.ref + 1 }

/-- `InterlockedDecrement(&m_ref)`; the new count stays in the node. -/
def decRef (manager : StorageDataManager α) (address : Nat) : StorageDataManager α :=
  let node := manager.node address
  manager.setNode address { node with ref := node.ref - 1 }

/-- `Reclaim`: push a node on the free list. -/
def reclaim (manager : StorageDataManager α) (address : Nat) : StorageDataManager α :=
  let node := manager.node address
  { manager.setNode address
      { node with lba := invalidBlk, preWrite := none, preVer := manager.freeList } with
    freeList := some address
    freeNr := manager.freeNr + 1 }

/-- The `while (pre)` loop of `put`. Every round reclaims a node, so the number of nodes ever
allocated bounds the rounds. -/
def putLoop : Nat → Option Nat → StorageDataManager α → StorageDataManager α
  | 0, _, manager => manager
  | _, none, manager => manager
  | fuel + 1, some pre, manager =>
    let manager := manager.decRef pre
    if (manager.node pre).ref ≠ 0 then manager
    else putLoop fuel (manager.node pre).preVer (manager.reclaim pre)

/-- `put`: drop one reference; a node without references is reclaimed together with the earlier
versions that only it kept alive. -/
def put (manager : StorageDataManager α) (address : Nat) : StorageDataManager α :=
  let manager := manager.decRef address
  if (manager.node address).ref ≠ 0 then manager
  else (putLoop (manager.limit + 1) (manager.node address).preVer manager).reclaim address

/-- Release every version a block table points to: the loop over `m_data` in the destructor and
in `CopyFrom`. -/
def putAll (manager : StorageDataManager α) (table : Lba → Option Nat) : StorageDataManager α :=
  (List.finRange totalBlockNr).foldl
    (fun manager lba => match table lba with
      | none => manager
      | some address => manager.put address) manager

/-- Take a reference on every version a block table points to. -/
def addRefAll (manager : StorageDataManager α) (table : Lba → Option Nat) : StorageDataManager α :=
  (List.finRange totalBlockNr).foldl
    (fun manager lba => match table lba with
      | none => manager
      | some address => manager.addRef address) manager

end StorageDataManager

/-- All storages of a process: the shared manager and the live objects by name. -/
structure World (α : Type) where
  /-- `sdata_manager`. -/
  manager : StorageDataManager α
  /-- The live `CStorage` objects. -/
  object : Nat → Option CStorage

namespace CStorage

/-- The object that `Initialize` leaves. -/
def initialized : CStorage :=
  { data := fun _ => none, cacheTail := none, cacheNr := 0, beginCacheNr := 0 }

/-- `BlockWrite`. -/
def blockWrite (storage : CStorage) (manager : StorageDataManager α) (lba : Lba) (block : α) :
    Except StorageError (StorageDataManager α × CStorage) := do
  let (address, manager) ← manager.get
  let node := manager.node address
  let manager := manager.setNode address
    { node with
      lba := lba
      data := block
      preVer := storage.data lba
      preWrite := storage.cacheTail }
  .ok (manager,
    { storage with
      data := Function.update storage.data lba (some address)
      cacheTail := some address
      cacheNr := dword (storage.cacheNr + 1) })

/-- `BlockRead`. -/
def blockRead (storage : CStorage) (manager : StorageDataManager α) (lba : Lba) :
    Except StorageError α :=
  match storage.data lba with
  | none => .error .readNoMappingData
  | some address =>
    let node := manager.node address
    if node.lba ≠ lba then .error .physicalAddNomatch else .ok node.data

/-- One round of the loop in `Rollback`. -/
def rollbackOne (manager : StorageDataManager α) (storage : CStorage) :
    Except StorageError (StorageDataManager α × CStorage) :=
  match storage.cacheTail with
  | none => .error .nullPointer
  | some address =>
    let node := manager.node address
    let cacheNr := dword (storage.cacheNr + (2 ^ 32 - 1))
    let storage :=
      { storage with
        cacheTail := node.preWrite
        cacheNr := cacheNr
        beginCacheNr := min cacheNr storage.beginCacheNr }
    if node.lba = invalidBlk then .ok (manager, storage)
    else if inside : node.lba < totalBlockNr then
      let manager := match node.preVer with
        | none => manager
        | some previous => manager.addRef previous
      .ok (manager.put address,
        { storage with data := Function.update storage.data ⟨node.lba, inside⟩ node.preVer })
    else .error .physicalAddNomatch

/-- The loop of `Rollback`. -/
def rollbackLoop : Nat → StorageDataManager α → CStorage →
    Except StorageError (StorageDataManager α × CStorage)
  | 0, manager, storage => .ok (manager, storage)
  | count + 1, manager, storage => do
    let (manager, storage) ← rollbackOne manager storage
    rollbackLoop count manager storage

/-- `Rollback`; the count arrives in a `WORD`. -/
def rollback (storage : CStorage) (manager : StorageDataManager α) (count : Fin (2 ^ 16)) :
    Except StorageError (StorageDataManager α × CStorage) :=
  if storage.cacheNr < count then .error .rollbackTooLong
  else rollbackLoop count manager storage

/-- What `CopyFrom` leaves in the destination. -/
def copyOf (source : CStorage) : CStorage :=
  { source with beginCacheNr := source.cacheNr }

/-- `GetCacheNum`: the number of writes since the copy, in a `WORD`. -/
def getCacheNum (storage : CStorage) : Nat :=
  (storage.cacheNr + 2 ^ 32 - storage.beginCacheNr) % 2 ^ 32 % 2 ^ 16

end CStorage

/-- The operations on a family of storages. -/
inductive Op (α : Type) where
  /-- Construct the object `target` and call `CopyFrom(source)` on it. The constructor leaves
  `m_data` as the memory was, which is `memory`. -/
  | clone (target source : Nat) (memory : Lba → Option Nat)
  /-- `target.CopyFrom(&source)` on an object that already holds a history. -/
  | copyFrom (target source : Nat)
  /-- `BlockWrite`. -/
  | blockWrite (target : Nat) (lba : Lba) (block : α)
  /-- `BlockRead`. -/
  | blockRead (target : Nat) (lba : Lba)
  /-- `Rollback`. -/
  | rollback (target : Nat) (count : Fin (2 ^ 16))
  /-- `~CStorage`. -/
  | destroy (target : Nat)

namespace World

/-- One storage object, initialised, and no nodes yet. The contents of memory that is not yet
allocated do not matter. -/
def start (memory : Nat → StorageData α) : World α :=
  { manager := { node := memory, limit := 0, freeList := none, freeNr := 0 }
    object := fun name => if name = 0 then some CStorage.initialized else none }

/-- `CopyFrom` into an object whose `m_data` is `old`: the old versions are released first, then
the source's table is copied and every copied pointer counted. -/
def copyInto (world : World α) (target : Nat) (old : Lba → Option Nat) (source : CStorage) :
    World α :=
  { manager := (world.manager.putAll old).addRefAll source.data
    object := Function.update world.object target (some source.copyOf) }

/-- Store the result of an operation that changes one object. -/
def update (world : World α) (target : Nat)
    (result : Except StorageError (StorageDataManager α × CStorage)) :
    World α × Except StorageError (Option α) :=
  match result with
  | .error error => (world, .error error)
  | .ok (manager, storage) =>
    ({ manager, object := Function.update world.object target (some storage) }, .ok none)

/-- Execute one operation; the reply is the block read, if any. A call on an object that does not
exist is undefined. -/
def step (world : World α) : Op α → World α × Except StorageError (Option α)
  | .clone target source memory =>
    match world.object source with
    | none => (world, .error .nullPointer)
    | some storage => (world.copyInto target memory storage, .ok none)
  | .copyFrom target source =>
    match world.object target, world.object source with
    | some old, some storage => (world.copyInto target old.data storage, .ok none)
    | _, _ => (world, .error .nullPointer)
  | .blockWrite target lba block =>
    match world.object target with
    | none => (world, .error .nullPointer)
    | some storage => world.update target (storage.blockWrite world.manager lba block)
  | .blockRead target lba =>
    match world.object target with
    | none => (world, .error .nullPointer)
    | some storage => (world, (storage.blockRead world.manager lba).map some)
  | .rollback target count =>
    match world.object target with
    | none => (world, .error .nullPointer)
    | some storage => world.update target (storage.rollback world.manager count)
  | .destroy target =>
    match world.object target with
    | none => (world, .error .nullPointer)
    | some storage =>
      ({ manager := world.manager.putAll storage.data
         object := Function.update world.object target none }, .ok none)

end World

end FsChecking.Storage
