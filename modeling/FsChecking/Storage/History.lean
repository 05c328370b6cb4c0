import FsChecking.Storage.Counting

/-!
# Storages as private histories

The abstract storage is a list of writes, newest first, one list for each object: reading looks for
the newest write to an address, rolling back drops writes from the front, copying copies the list.
`Run` executes operations on the shared, reference-counted implementation and on the private lists
side by side, and `Isolated` says that they agree and that no node an object can still reach is
free. `Recorded` is the representation of one history in the nodes of the shared memory.
-/

namespace FsChecking.Storage

open Lib

variable {α : Type}

/-- The writes that a storage has survived, newest first. -/
abbrev History (α : Type) : Type := List (Lba × α)

/-- The block that the newest write to an address stored. -/
def History.lastWrite (history : History α) (lba : Lba) : Option α :=
  (history.find? fun write => write.1 = lba).map Prod.snd

/-- One private history for every live object. -/
abbrev Family (α : Type) : Type := Nat → Option (History α)

namespace Family

/-- A single object without writes. -/
def start : Family α := fun name => if name = 0 then some [] else none

/-- The effect of an operation on the private histories. -/
def step (family : Family α) : Op α → Family α
  | .clone target source _ => Function.update family target (family source)
  | .copyFrom target source => Function.update family target (family source)
  | .blockWrite target lba block =>
    Function.update family target ((family target).map ((lba, block) :: ·))
  | .blockRead _ _ => family
  | .rollback target count =>
    Function.update family target ((family target).map (List.drop count))
  | .destroy target => Function.update family target none

/-- The block that a read of one history returns. -/
def readReply (history : Option (History α)) (lba : Lba) : Except StorageError (Option α) :=
  match history.bind (·.lastWrite lba) with
  | none => .error .readNoMappingData
  | some block => .ok (some block)

/-- The reply to an operation: the block of the newest write to the address that is read. -/
def reply (family : Family α) : Op α → Except StorageError (Option α)
  | .blockRead target lba => readReply (family target) lba
  | _ => .ok none

end Family

/-- The operation is called on existing objects, constructs a new one, and rolls back no more
writes than there are. -/
def Op.Permitted (family : Family α) : Op α → Prop
  | .clone target source _ => family target = none ∧ family source ≠ none
  | .copyFrom target source => family target ≠ none ∧ family source ≠ none
  | .blockWrite target _ _ => family target ≠ none
  | .blockRead target _ => family target ≠ none
  | .rollback target count =>
    ∃ history, family target = some history ∧ count ≤ dword history.length
  | .destroy target => family target ≠ none

/-- A constructed object starts with a null table, and no object is copied onto itself. -/
def Op.OwnTable : Op α → Prop
  | .clone _ _ memory => ∀ lba, memory lba = none
  | .copyFrom target source => target ≠ source
  | _ => True

/-- Operations executed on the implementation and on the private histories. -/
inductive Run : List (Op α) → World α → Family α → Prop where
  /-- One initialised storage. -/
  | start (memory : Nat → StorageData α) : Run [] (World.start memory) Family.start
  /-- One more operation. -/
  | step {ops : List (Op α)} {world : World α} {family : Family α} (op : Op α)
      (before : Run ops world family) (permitted : op.Permitted family) :
      Run (ops ++ [op]) (world.step op).1 (family.step op)

/-- A node that a storage can reach through `m_data`, `pre_ver` or `pre_write`. -/
inductive Reaches (manager : StorageDataManager α) (storage : CStorage) : Nat → Prop where
  /-- Through the block table. -/
  | table {lba : Lba} {address : Nat} (entry : storage.data lba = some address) :
      Reaches manager storage address
  /-- Through an earlier version. -/
  | preVer {address previous : Nat} (before : Reaches manager storage address)
      (link : (manager.node address).preVer = some previous) : Reaches manager storage previous
  /-- Through an earlier write. -/
  | preWrite {address previous : Nat} (before : Reaches manager storage address)
      (link : (manager.node address).preWrite = some previous) : Reaches manager storage previous

/-- A node on the free list of the manager. -/
inductive OnFreeList (manager : StorageDataManager α) : Nat → Prop where
  /-- The first free node. -/
  | head {address : Nat} (start : manager.freeList = some address) : OnFreeList manager address
  /-- The node after a free node. -/
  | next {address following : Nat} (before : OnFreeList manager address)
      (link : (manager.node address).preVer = some following) : OnFreeList manager following

/-- The shared implementation behaves as the private histories, and nothing reachable is free. -/
structure Isolated (world : World α) (family : Family α) : Prop where
  /-- The same objects exist. -/
  same : ∀ name, world.object name = none ↔ family name = none
  /-- Every object counts the writes of its own history. -/
  length : ∀ name storage history, world.object name = some storage →
    family name = some history → storage.cacheNr = dword history.length
  /-- Every permitted operation replies as on the private histories; in particular a read returns
  the newest surviving write of its own object, whatever the other objects have done. -/
  replies : ∀ op : Op α, op.Permitted family → op.OwnTable → (world.step op).2 = family.reply op
  /-- No reachable node is free. -/
  inUse : ∀ name storage address, world.object name = some storage →
    Reaches world.manager storage address → ¬ OnFreeList world.manager address

/-! ## One recorded history -/

/-- The newest node of a path that holds an address. -/
def versionIn (manager : StorageDataManager α) (path : List Nat) (lba : Nat) : Option Nat :=
  path.find? fun address => (manager.node address).lba = lba

/-- Every node of a path links to the next older version of its own block. -/
def Versioned (manager : StorageDataManager α) : List Nat → Prop
  | [] => True
  | address :: rest =>
    (manager.node address).preVer = versionIn manager rest (manager.node address).lba ∧
      Versioned manager rest

/-- A storage object holds a history in the nodes of a path, newest first. -/
structure Recorded (manager : StorageDataManager α) (storage : CStorage) (history : History α)
    (path : List Nat) : Prop where
  /-- The writes are chained in issue order. -/
  chain : Chain (fun address => (manager.node address).preWrite) storage.cacheTail path
  /-- The nodes hold the writes. -/
  contents : path.map (fun address => ((manager.node address).lba, (manager.node address).data)) =
    history.map fun write => ((write.1 : Nat), write.2)
  /-- The versions of each block are chained. -/
  versions : Versioned manager path
  /-- The table points to the newest versions. -/
  table : ∀ lba : Lba, storage.data lba = versionIn manager path lba
  /-- The writes are counted. -/
  length : storage.cacheNr = dword history.length

/-- The version lookup depends only on the addresses stored in the path. -/
theorem versionIn_congr {before after : StorageDataManager α} {path : List Nat}
    (same : ∀ address ∈ path, (after.node address).lba = (before.node address).lba) (lba : Nat) :
    versionIn after path lba = versionIn before path lba := by
  induction path with
  | nil => rfl
  | cons head rest ih =>
    have tail := ih (fun address inside => same address (List.mem_cons_of_mem _ inside))
    simp only [versionIn, List.find?_cons, same head List.mem_cons_self] at tail ⊢
    rw [tail]

/-- The version chains depend only on the nodes of the path. -/
theorem versioned_congr {before after : StorageDataManager α} {path : List Nat}
    (sameLba : ∀ address ∈ path, (after.node address).lba = (before.node address).lba)
    (sameVer : ∀ address ∈ path, (after.node address).preVer = (before.node address).preVer)
    (versions : Versioned before path) : Versioned after path := by
  induction path with
  | nil => trivial
  | cons head rest ih =>
    have tailLba : ∀ address ∈ rest, (after.node address).lba = (before.node address).lba :=
      fun address inside => sameLba address (List.mem_cons_of_mem _ inside)
    obtain ⟨link, older⟩ := versions
    refine ⟨?_, ih tailLba
      (fun address inside => sameVer address (List.mem_cons_of_mem _ inside)) older⟩
    rw [sameVer head List.mem_cons_self, sameLba head List.mem_cons_self, link,
      versionIn_congr tailLba]

/-- The earlier version of a node of a path is in the path. -/
theorem versioned_mem {manager : StorageDataManager α} {path : List Nat} {address previous : Nat}
    (versions : Versioned manager path) (member : address ∈ path)
    (link : (manager.node address).preVer = some previous) : previous ∈ path := by
  induction path with
  | nil => cases member
  | cons head rest ih =>
    obtain ⟨first, older⟩ := versions
    rcases List.mem_cons.mp member with rfl | later
    · exact List.mem_cons_of_mem _ (List.mem_of_find?_eq_some (first.symm.trans link))
    · exact List.mem_cons_of_mem _ (ih older later)

/-- The nodes of a path are in every set that holds the newest versions and is closed under
earlier versions. -/
theorem path_subset {manager : StorageDataManager α} {path : List Nat} {nodes : Finset Nat}
    (versions : Versioned manager path)
    (newest : ∀ lba address, versionIn manager path lba = some address → address ∈ nodes)
    (closed : ∀ address ∈ nodes, ∀ previous, (manager.node address).preVer = some previous →
      previous ∈ nodes) : ∀ address ∈ path, address ∈ nodes := by
  induction path with
  | nil => simp
  | cons head rest ih =>
    obtain ⟨link, older⟩ := versions
    have headIn : head ∈ nodes := newest (manager.node head).lba head (by simp [versionIn])
    refine List.forall_mem_cons.mpr ⟨headIn, ih older (fun lba address found => ?_)⟩
    -- the newest version in the rest is either still the newest, or the one that `head` replaced
    by_cases replaced : (manager.node head).lba = lba
    · subst replaced
      exact closed head headIn address (link.trans found)
    · exact newest lba address (by simpa [versionIn, replaced] using found)

/-- Reading a node found in a path gives the newest write of the history, and finds a node exactly
when there is one. -/
theorem versionIn_lastWrite {manager : StorageDataManager α} {path : List Nat}
    {history : History α}
    (contents : path.map (fun address =>
      ((manager.node address).lba, (manager.node address).data)) =
      history.map fun write => ((write.1 : Nat), write.2)) (lba : Lba) :
    (versionIn manager path lba).map (fun address => (manager.node address).data) =
        history.lastWrite lba ∧
      ∀ address, versionIn manager path lba = some address →
        (manager.node address).lba = lba := by
  refine ⟨?_, fun address found => by simpa using List.find?_some found⟩
  induction path generalizing history with
  | nil =>
    have empty : history = [] := by simpa using contents.symm
    simp [versionIn, History.lastWrite, empty]
  | cons head rest ih =>
    cases history with
    | nil => simp at contents
    | cons write older =>
      simp only [List.map_cons, List.cons.injEq, Prod.mk.injEq] at contents
      obtain ⟨⟨sameLba, sameData⟩, tail⟩ := contents
      have later := ih tail
      by_cases here : write.1 = lba
      · simp [versionIn, History.lastWrite, sameLba, here, sameData]
      · have apart : (write.1 : Nat) ≠ lba := fun equal => here (Fin.ext equal)
        simpa [versionIn, History.lastWrite, sameLba, here, apart] using later

namespace Recorded

variable {manager : StorageDataManager α} {storage : CStorage} {history : History α}
  {path : List Nat}

/-- A record survives every change that leaves the nodes of its path alone but for counts. -/
theorem transfer (recorded : Recorded manager storage history path)
    {after : StorageDataManager α} {nodes : Finset Nat} (same : Unchanged manager after nodes)
    (inside : ∀ address ∈ path, address ∈ nodes) : Recorded after storage history path := by
  have sameNode : ∀ address ∈ path, after.node address =
      { manager.node address with ref := (after.node address).ref } :=
    fun address member => same address (inside address member)
  have sameLba : ∀ address ∈ path, (after.node address).lba = (manager.node address).lba :=
    fun address member => by rw [sameNode address member]
  refine ⟨?_, ?_, ?_, ?_, recorded.length⟩
  · exact recorded.chain.congr (fun address member => by rw [sameNode address member])
  · rw [← recorded.contents]
    exact List.map_congr_left (fun address member => by rw [sameNode address member])
  · exact versioned_congr sameLba (fun address member => by rw [sameNode address member])
      recorded.versions
  · intro lba
    rw [recorded.table, versionIn_congr sameLba]

/-- The path of a record is live when the table is and live nodes keep their earlier versions. -/
theorem path_live (recorded : Recorded manager storage history path) {nodes : Finset Nat}
    (pointed : ∀ lba address, storage.data lba = some address → address ∈ nodes)
    (closed : ∀ address ∈ nodes, ∀ previous, (manager.node address).preVer = some previous →
      previous ∈ nodes) : ∀ address ∈ path, address ∈ nodes := by
  refine path_subset recorded.versions (fun lba address found => ?_) closed
  -- an address found in the path is the address of a write, hence inside the table
  have member := List.mem_of_find?_eq_some found
  have value : (manager.node address).lba = lba := by simpa using List.find?_some found
  have stored : ((manager.node address).lba, (manager.node address).data) ∈
      history.map fun write => ((write.1 : Nat), write.2) := by
    rw [← recorded.contents]
    exact List.mem_map_of_mem member
  obtain ⟨write, _, same⟩ := List.mem_map.mp stored
  have sameLba : (write.1 : Nat) = (manager.node address).lba := congrArg Prod.fst same
  have entry : storage.data write.1 = some address := by
    rw [recorded.table, sameLba, value]
    exact found
  exact pointed write.1 address entry

/-- Reading returns the newest write of the history. -/
theorem blockRead (recorded : Recorded manager storage history path) (lba : Lba) :
    (storage.blockRead manager lba).map some = Family.readReply (some history) lba := by
  obtain ⟨data, address⟩ := versionIn_lastWrite recorded.contents lba
  have entry := recorded.table lba
  cases found : versionIn manager path lba with
  | none =>
    rw [found] at data entry
    simp only [Family.readReply, Option.bind_some, ← data, CStorage.blockRead, entry,
      Option.map_none]
    rfl
  | some node =>
    rw [found] at data entry
    have same := address node found
    simp only [Family.readReply, Option.bind_some, ← data, CStorage.blockRead, entry,
      Option.map_some, same, ne_eq, not_true_eq_false, ↓reduceIte]
    rfl

/-- The record of the remaining history after the newest write is removed. -/
theorem tail {lba : Lba} {block : α} {address : Nat} (beginCacheNr : Nat)
    (recorded : Recorded manager storage ((lba, block) :: history) (address :: path)) :
    storage.cacheTail = some address ∧ (manager.node address).lba = lba ∧
      storage.data lba = some address ∧
      Recorded manager
        { data := Function.update storage.data lba (manager.node address).preVer
          cacheTail := (manager.node address).preWrite
          cacheNr := dword history.length
          beginCacheNr } history path := by
  obtain ⟨start, older⟩ := recorded.chain
  obtain ⟨link, versions⟩ := recorded.versions
  have contents := recorded.contents
  simp only [List.map_cons, List.cons.injEq, Prod.mk.injEq] at contents
  obtain ⟨⟨sameLba, _⟩, rest⟩ := contents
  refine ⟨start, sameLba, ?_, older, rest, versions, fun other => ?_, rfl⟩
  · rw [recorded.table]
    simp [versionIn, sameLba]
  · change Function.update storage.data lba (manager.node address).preVer other = _
    by_cases same : other = lba
    · subst same
      rw [Function.update_self, link, sameLba]
    · have apart : ¬ (lba : Nat) = other := fun equal => same (Fin.ext equal.symm)
      rw [Function.update_of_ne same, recorded.table]
      simp [versionIn, sameLba, apart]

/-- Every node that the storage reaches is on its path. -/
theorem reaches_mem (recorded : Recorded manager storage history path) {address : Nat}
    (reached : Reaches manager storage address) : address ∈ path := by
  induction reached with
  | table entry =>
    rw [recorded.table] at entry
    exact List.mem_of_find?_eq_some entry
  | preVer _ link member => exact versioned_mem recorded.versions member link
  | preWrite _ link member => exact recorded.chain.next_mem member link

end Recorded

end FsChecking.Storage
