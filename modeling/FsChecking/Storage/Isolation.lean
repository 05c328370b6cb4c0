import Mathlib.Algebra.Order.BigOperators.Group.Finset
import FsChecking.Storage.History

/-!
# Isolation of storages

The reference counts of the shared nodes are exact for the tables of all live objects, and every
object records its own history. Both facts together are an invariant of every run that constructs
objects over a null table and copies no object onto itself, and they give isolation
(`run_isolated`). Both exclusions are necessary: `CopyFrom` releases the old table before it takes
references on the new one, so that a copy onto itself frees what it then keeps
(`copyFrom_itself_frees`), and it releases whatever table the constructor found in memory
(`clone_over_stale_table_frees`).
-/

namespace FsChecking.Storage

open Lib

variable {α : Type}

/-- Replacing one element of a family replaces its summand. -/
theorem sum_update_add {ι β : Type} [DecidableEq ι] {names : Finset ι} {name : ι}
    (member : name ∈ names) (family : ι → β) (value : β) (count : β → Nat) :
    ∑ other ∈ names, count (Function.update family name value other) + count (family name) =
      ∑ other ∈ names, count (family other) + count value := by
  have others : ∑ other ∈ names.erase name, count (Function.update family name value other) =
      ∑ other ∈ names.erase name, count (family other) := by
    refine Finset.sum_congr rfl (fun other inside => ?_)
    rw [Function.update_of_ne (Finset.ne_of_mem_erase inside)]
  rw [← Finset.add_sum_erase names _ member, ← Finset.add_sum_erase names _ member, others,
    Function.update_self]
  omega

/-- The number of entries of an object's table that point to an address. -/
def objectCount (address : Nat) : Option CStorage → Nat
  | none => 0
  | some storage => tableCount storage.data address

/-- The number of table entries of all objects that point to an address. -/
def rootCount (names : Finset Nat) (object : Nat → Option CStorage) (address : Nat) : Nat :=
  ∑ name ∈ names, objectCount address (object name)

/-- Replacing a table entry moves one pointer. -/
theorem tableCount_update (table : Lba → Option Nat) (lba : Lba) (pointer : Option Nat)
    (address : Nat) :
    tableCount (Function.update table lba pointer) address + pendingCount (table lba) address =
      tableCount table address + pendingCount pointer address :=
  sum_update_add (Finset.mem_univ lba) table pointer (pendingCount · address)

/-- An entry of a table is counted. -/
theorem tableCount_pos {table : Lba → Option Nat} {lba : Lba} {address : Nat}
    (entry : table lba = some address) : 0 < tableCount table address := by
  refine Finset.sum_pos' (fun _ _ => Nat.zero_le _) ⟨lba, Finset.mem_univ lba, ?_⟩
  simp [entry]

/-- An entry of a live object's table is counted among all. -/
theorem rootCount_pos {names : Finset Nat} {object : Nat → Option CStorage} {name : Nat}
    {storage : CStorage} {lba : Lba} {address : Nat} (member : name ∈ names)
    (here : object name = some storage) (entry : storage.data lba = some address) :
    0 < rootCount names object address := by
  refine Finset.sum_pos' (fun _ _ => Nat.zero_le _) ⟨name, member, ?_⟩
  rw [here]
  exact tableCount_pos entry

/-- The shared memory represents the private histories: `live` and `free` are the nodes in use and
the free nodes, `names` includes all live objects. -/
structure Represents (world : World α) (family : Family α) (live : Finset Nat) (free : List Nat)
    (names : Finset Nat) : Prop where
  /-- The reference counts are exact for the tables of all objects. -/
  counted : Counted world.manager live (rootCount names world.object) free
  /-- No object is left out. -/
  named : ∀ name, world.object name ≠ none → name ∈ names
  /-- The same objects exist. -/
  same : ∀ name, world.object name = none ↔ family name = none
  /-- Every object records its own history. -/
  recorded : ∀ name storage history, world.object name = some storage →
    family name = some history → ∃ path, Recorded world.manager storage history path

namespace Represents

variable {world : World α} {family : Family α} {live : Finset Nat} {free : List Nat}
  {names : Finset Nat}

/-- A table entry of a live object points to a live node. -/
theorem pointed (represents : Represents world family live free names) {name : Nat}
    {storage : CStorage} (here : world.object name = some storage) (lba : Lba) (address : Nat)
    (entry : storage.data lba = some address) : address ∈ live :=
  represents.counted.rooted address
    (rootCount_pos (represents.named name (by simp [here])) here entry)

/-- The history of an object that exists. -/
theorem exists_history (represents : Represents world family live free names) {name : Nat}
    {storage : CStorage} (here : world.object name = some storage) :
    ∃ history path, family name = some history ∧
      Recorded world.manager storage history path := by
  cases present : family name with
  | none => simp [(represents.same name).mpr present] at here
  | some history =>
    obtain ⟨path, recorded⟩ := represents.recorded name storage history here present
    exact ⟨history, path, rfl, recorded⟩

/-- An object that has a history exists. -/
theorem exists_object (represents : Represents world family live free names) {name : Nat}
    (present : family name ≠ none) : ∃ storage, world.object name = some storage :=
  Option.ne_none_iff_exists'.mp (fun gone => present ((represents.same name).mp gone))

/-- More names may be listed. -/
theorem extend (represents : Represents world family live free names) (name : Nat) :
    Represents world family live free (insert name names) := by
  refine ⟨?_, fun other alive => Finset.mem_insert_of_mem (represents.named other alive),
    represents.same, represents.recorded⟩
  by_cases inside : name ∈ names
  · rw [Finset.insert_eq_of_mem inside]
    exact represents.counted
  · have gone : world.object name = none := by
      by_contra alive
      exact inside (represents.named name alive)
    have sameCount : rootCount (insert name names) world.object =
        rootCount names world.object := by
      funext address
      simp [rootCount, Finset.sum_insert inside, gone, objectCount]
    rw [sameCount]
    exact represents.counted

/-- An operation on one object that leaves the nodes still in use alone but for their counts, and
records the new history of its own object, keeps the representation. -/
theorem replace (represents : Represents world family live free names) {target : Nat}
    {object : Option CStorage} {history : Option (History α)} {manager : StorageDataManager α}
    {kept live' : Finset Nat} {free' : List Nat} (member : target ∈ names)
    (unchanged : Unchanged world.manager manager kept)
    (closed : ∀ address ∈ kept, ∀ previous,
      (world.manager.node address).preVer = some previous → previous ∈ kept)
    (others : ∀ name storage, name ≠ target → world.object name = some storage →
      ∀ lba address, storage.data lba = some address → address ∈ kept)
    (counted : Counted manager live'
      (rootCount names (Function.update world.object target object)) free')
    (same : object = none ↔ history = none)
    (recorded : ∀ storage written, object = some storage → history = some written →
      ∃ path, Recorded manager storage written path) :
    Represents { manager, object := Function.update world.object target object }
      (Function.update family target history) live' free' names := by
  refine ⟨counted, fun name alive => ?_, fun name => ?_, fun name storage written here present => ?_⟩
  · by_cases here : name = target
    · exact here ▸ member
    · exact represents.named name (by simpa [here] using alive)
  · by_cases here : name = target
    · subst here
      simpa using same
    · simpa [here] using represents.same name
  · by_cases own : name = target
    · subst own
      exact recorded storage written (by simpa using here) (by simpa using present)
    · have before : world.object name = some storage := by simpa [own] using here
      obtain ⟨path, record⟩ := represents.recorded name storage written before
        (by simpa [own] using present)
      exact ⟨path, record.transfer unchanged
        (record.path_live (others name storage own before) closed)⟩

/-- The nodes that stay in use after a release are closed under earlier versions. -/
theorem closed_of_counted {before after : StorageDataManager α} {kept : Finset Nat}
    {roots : Nat → Nat} {rest : List Nat} (counted : Counted after kept roots rest)
    (unchanged : Unchanged before after kept) : ∀ address ∈ kept, ∀ previous,
      (before.node address).preVer = some previous → previous ∈ kept := by
  intro address inside previous link
  refine counted.closed address inside previous ?_
  rw [unchanged address inside]
  exact link

/-- The pointers of all objects but one. -/
theorem rootCount_update {names : Finset Nat} {target : Nat} (member : target ∈ names)
    (object : Nat → Option CStorage) (value : Option CStorage) (address : Nat) :
    rootCount names (Function.update object target value) address +
        objectCount address (object target) =
      rootCount names object address + objectCount address value :=
  sum_update_add member object value (objectCount address)

/-- `CopyFrom` onto another object: the destination may have any table whose pointers are counted
for it. -/
theorem copyInto (represents : Represents world family live free names) {target source : Nat}
    {storage : CStorage} (old : Lba → Option Nat) (apart : target ≠ source)
    (here : world.object source = some storage)
    (own : ∀ address, tableCount old address = objectCount address (world.object target)) :
    ∃ live' free' names', Represents (world.copyInto target old storage)
      (Function.update family target (family source)) live' free' names' := by
  have wide := represents.extend target
  have member : target ∈ insert target names := Finset.mem_insert_self target names
  obtain ⟨history, path, present, record⟩ := wide.exists_history here
  let others := rootCount (insert target names) (Function.update world.object target none)
  have split : (fun node => others node + tableCount old node) =
      rootCount (insert target names) world.object := by
    funext node
    have := rootCount_update member world.object none node
    simp only [objectCount, Nat.add_zero] at this
    rw [own node]
    exact this
  have exact := wide.counted
  rw [← split] at exact
  obtain ⟨⟨live', free', _, _, done, same⟩, _⟩ := exact.putAll old
  have pointed : ∀ name object, name ≠ target → world.object name = some object →
      ∀ lba address, object.data lba = some address → address ∈ live' := by
    intro name object different alive lba address entry
    refine done.rooted address (rootCount_pos (wide.named name (by simp [alive])) ?_ entry)
    rw [Function.update_of_ne different]
    exact alive
  obtain ⟨counted, sameRefs⟩ := done.addRefAll storage.data
    (pointed source storage (Ne.symm apart) here)
  have unchanged := same.trans (Finset.Subset.refl live') sameRefs
  have closed := closed_of_counted counted unchanged
  refine ⟨live', free', insert target names, ?_⟩
  refine wide.replace member unchanged closed pointed ?_ ?_ ?_
  · have total : (fun node => others node + tableCount storage.data node) =
        rootCount (insert target names)
          (Function.update world.object target (some storage.copyOf)) := by
      funext node
      have added := rootCount_update member world.object (some storage.copyOf) node
      have removed := rootCount_update member world.object none node
      simp only [objectCount, CStorage.copyOf, Nat.add_zero] at added removed
      simp only [others, CStorage.copyOf]
      omega
    rw [← total]
    exact counted
  · simp [present]
  · rintro _ written ⟨⟩ held
    obtain rfl : written = history := by
      rw [present] at held
      exact (Option.some.inj held).symm
    have kept := record.transfer unchanged
      (record.path_live (pointed source storage (Ne.symm apart) here) closed)
    exact ⟨path, kept.chain, kept.contents, kept.versions, kept.table, kept.length⟩

/-- `~CStorage`. -/
theorem destroy (represents : Represents world family live free names) {target : Nat}
    {storage : CStorage} (here : world.object target = some storage) :
    ∃ live' free', Represents
      { manager := world.manager.putAll storage.data
        object := Function.update world.object target none }
      (Function.update family target none) live' free' names := by
  have member := represents.named target (by simp [here])
  have split : (fun node => rootCount names (Function.update world.object target none) node +
      tableCount storage.data node) = rootCount names world.object := by
    funext node
    have := rootCount_update member world.object none node
    simpa only [here, objectCount, Nat.add_zero] using this
  have exact := represents.counted
  rw [← split] at exact
  obtain ⟨⟨live', free', _, _, done, same⟩, _⟩ := exact.putAll storage.data
  refine ⟨live', free', represents.replace member same (closed_of_counted done same) ?_ done
    (by simp) (by simp)⟩
  intro name object different alive lba address entry
  refine done.rooted address (rootCount_pos (represents.named name (by simp [alive])) ?_ entry)
  rw [Function.update_of_ne different]
  exact alive

/-- `BlockWrite` adds a write to the history of its object. -/
theorem blockWrite (represents : Represents world family live free names) {target : Nat}
    {storage : CStorage} {history : History α} (here : world.object target = some storage)
    (present : family target = some history) (lba : Lba) (block : α) :
    ∃ manager after live' free', storage.blockWrite world.manager lba block = .ok (manager, after) ∧
      Represents { manager, object := Function.update world.object target (some after) }
        (Function.update family target (some ((lba, block) :: history))) live' free' names := by
  have member := represents.named target (by simp [here])
  obtain ⟨path, record⟩ := represents.recorded target storage history here present
  obtain ⟨address, fresh, rest, taken, exact, dead, unlisted, below, one, same⟩ :=
    represents.counted.get
  let node : StorageData α :=
    { fresh.node address with
      lba := lba, data := block, preVer := storage.data lba, preWrite := storage.cacheTail }
  let after : CStorage :=
    { storage with
      data := Function.update storage.data lba (some address)
      cacheTail := some address
      cacheNr := dword (storage.cacheNr + 1) }
  have sameNode : ∀ other ∈ live, (fresh.setNode address node).node other =
      world.manager.node other := by
    intro other inside
    have apart : other ≠ address := fun equal => dead (equal ▸ inside)
    rw [← same other inside]
    simp [StorageDataManager.setNode, apart]
  have newNode : (fresh.setNode address node).node address = node := by
    simp [StorageDataManager.setNode]
  have balanced : ∀ other, rootCount names (Function.update world.object target (some after)) other +
      pendingCount node.preVer other = rootCount names world.object other +
        pendingCount (some address) other := by
    intro other
    have objects := rootCount_update member world.object (some after) other
    have entries := tableCount_update storage.data lba (some address) other
    simp only [here, objectCount] at objects
    change rootCount names (Function.update world.object target (some after)) other +
      tableCount storage.data other = rootCount names world.object other +
        tableCount (Function.update storage.data lba (some address)) other at objects
    change _ + pendingCount (storage.data lba) other = _
    omega
  have counted : Counted (fresh.setNode address node) (insert address live)
      (rootCount names (Function.update world.object target (some after))) rest :=
    exact.insert dead unlisted below one (represents.pointed here lba) balanced
  have unchanged : Unchanged world.manager (fresh.setNode address node) live := by
    intro other inside
    rw [sameNode other inside]
  have closed := represents.counted.closed
  have inside := record.path_live (represents.pointed here) closed
  have kept := record.transfer unchanged inside
  refine ⟨_, after, _, rest, ?_, represents.replace member unchanged closed
    (fun name object _ alive => represents.pointed alive) counted (by simp) ?_⟩
  · simp only [CStorage.blockWrite, taken]
    rfl
  rintro _ _ ⟨⟩ ⟨⟩
  refine ⟨address :: path, ⟨rfl, ?_⟩, ?_, ⟨?_, kept.versions⟩, fun other => ?_, ?_⟩
  · change Chain _ ((fresh.setNode address node).node address).preWrite path
    rw [newNode]
    exact kept.chain
  · rw [List.map_cons, List.map_cons, newNode, kept.contents]
  · rw [newNode]
    exact kept.table lba
  · change Function.update storage.data lba (some address) other = _
    by_cases equal : other = lba
    · subst equal
      simp [versionIn, newNode, node]
    · have apart : ¬ (lba : Nat) = other := fun equal' => equal (Fin.ext equal'.symm)
      rw [Function.update_of_ne equal, kept.table]
      simp [versionIn, newNode, node, apart]
  · change (storage.cacheNr + 1) % 2 ^ 32 = (history.length + 1) % 2 ^ 32
    rw [record.length]
    exact Nat.mod_add_mod ..

/-- One round of `Rollback` removes the newest write of its object. -/
theorem rollbackOne (represents : Represents world family live free names) {target : Nat}
    {storage : CStorage} {write : Lba × α} {history : History α}
    (here : world.object target = some storage)
    (present : family target = some (write :: history)) (some_left : 0 < storage.cacheNr) :
    ∃ manager after live' free', CStorage.rollbackOne world.manager storage = .ok (manager, after) ∧
      after.cacheNr = storage.cacheNr - 1 ∧
      Represents { manager, object := Function.update world.object target (some after) }
        (Function.update family target (some history)) live' free' names := by
  obtain ⟨lba, block⟩ := write
  have member := represents.named target (by simp [here])
  obtain ⟨path, record⟩ := represents.recorded target storage _ here present
  cases path with
  | nil => exact absurd record.contents (by simp)
  | cons address path =>
    have length := record.length
    simp only [List.length_cons, dword] at length
    have fewer : dword (storage.cacheNr + (2 ^ 32 - 1)) = dword history.length := by
      simp only [dword]
      omega
    obtain ⟨start, sameLba, entry, remaining⟩ :=
      record.tail (min (dword history.length) storage.beginCacheNr)
    let after : CStorage :=
      { data := Function.update storage.data lba (world.manager.node address).preVer
        cacheTail := (world.manager.node address).preWrite
        cacheNr := dword history.length
        beginCacheNr := min (dword history.length) storage.beginCacheNr }
    let held : StorageDataManager α :=
      (world.manager.node address).preVer.elim world.manager world.manager.addRef
    have pointed : address ∈ live := represents.pointed here lba address entry
    -- the table entry will point to the earlier version, which gets its reference first
    obtain ⟨exact, sameRefs⟩ : Counted held live (fun node => rootCount names world.object node +
        pendingCount (world.manager.node address).preVer node) free ∧
        Unchanged world.manager held live := by
      cases link : (world.manager.node address).preVer with
      | none =>
        simpa [held, link, pendingCount] using
          And.intro represents.counted (Unchanged.refl world.manager live)
      | some previous =>
        have older := represents.counted.closed address pointed previous link
        have counted := represents.counted.addRef older
        refine ⟨?_, ?_⟩
        · have sum : (fun node => rootCount names world.object node +
              pendingCount (some previous) node) = Function.update
                (rootCount names world.object) previous
                (rootCount names world.object previous + 1) := by
            funext node
            by_cases equal : node = previous
            · simp [equal, pendingCount]
            · simp [equal, pendingCount, Ne.symm equal]
          rw [sum]
          simpa only [held, link, Option.elim_some] using counted
        · simp only [held, link, Option.elim_some]
          exact unchanged_setRef world.manager previous _ live
    have rooted : 0 < rootCount names world.object address := rootCount_pos member here entry
    obtain ⟨⟨live', free', _, _, done, same⟩, _⟩ := exact.put (Nat.add_pos_left rooted _)
    have roots : Counted.dropRoot (fun node => rootCount names world.object node +
        pendingCount (world.manager.node address).preVer node) address =
        rootCount names (Function.update world.object target (some after)) := by
      funext node
      have objects := rootCount_update member world.object (some after) node
      have entries := tableCount_update storage.data lba (world.manager.node address).preVer node
      simp only [here, objectCount] at objects
      change rootCount names (Function.update world.object target (some after)) node +
        tableCount storage.data node = rootCount names world.object node + tableCount
          (Function.update storage.data lba (world.manager.node address).preVer) node at objects
      rw [entry] at entries
      by_cases equal : node = address
      · subst equal
        simp only [pendingCount, ↓reduceIte] at entries
        simp only [Counted.dropRoot, Function.update_self, pendingCount]
        omega
      · simp only [pendingCount, Option.some.injEq, Ne.symm equal, ↓reduceIte] at entries
        simp only [Counted.dropRoot, Function.update_of_ne equal, pendingCount]
        omega
    rw [roots] at done
    have unchanged : Unchanged world.manager (held.put address) live' :=
      sameRefs.trans (by assumption) same
    have closed := closed_of_counted done unchanged
    have others : ∀ name object, Function.update world.object target (some after) name =
        some object → ∀ lba node, object.data lba = some node → node ∈ live' := by
      intro name object alive lba node link
      have listed : name ∈ names := by
        by_cases own : name = target
        · exact own ▸ member
        · exact represents.named name (by simp [own] at alive; simp [alive])
      exact done.rooted node (rootCount_pos listed alive link)
    refine ⟨held.put address, after, live', free', ?_, ?_, represents.replace member unchanged
      closed (fun name object different alive => others name object (by simpa [different])) done
      (by simp) ?_⟩
    · have inside : (lba : Nat) < totalBlockNr := lba.isLt
      have real : ¬ (lba : Nat) = invalidBlk := by
        have : totalBlockNr < invalidBlk := by decide
        omega
      simp only [CStorage.rollbackOne, start, sameLba, real, ↓reduceIte, inside, ↓reduceDIte,
        fewer]
      dsimp only [held, after]
      cases (world.manager.node address).preVer with
      | none => rfl
      | some previous => rfl
    · change history.length % 2 ^ 32 = _
      omega
    rintro _ _ ⟨⟩ ⟨⟩
    exact ⟨path, remaining.transfer unchanged
      (remaining.path_live (others target after (by simp)) closed)⟩

/-- `Rollback` removes the newest writes of its object. -/
theorem rollbackLoop (represents : Represents world family live free names) {target : Nat}
    {storage : CStorage} {history : History α} (here : world.object target = some storage)
    (present : family target = some history) (count : Nat) (enough : count ≤ storage.cacheNr) :
    ∃ manager after live' free',
      CStorage.rollbackLoop count world.manager storage = .ok (manager, after) ∧
      Represents { manager, object := Function.update world.object target (some after) }
        (Function.update family target (some (history.drop count))) live' free' names := by
  induction count generalizing world family live free storage history with
  | zero =>
    refine ⟨world.manager, storage, live, free, rfl, ?_⟩
    rwa [List.drop_zero, ← here, ← present, Function.update_eq_self, Function.update_eq_self]
  | succ count ih =>
    obtain ⟨path, record⟩ := represents.recorded target storage history here present
    cases history with
    | nil =>
      have := record.length
      simp only [List.length_nil, dword, Nat.zero_mod] at this
      omega
    | cons write older =>
      obtain ⟨manager, after, live', free', done, fewer, next⟩ :=
        represents.rollbackOne here present (by omega)
      obtain ⟨manager', after', live'', free'', rest, last⟩ :=
        ih next (Function.update_self ..) (Function.update_self ..) (by omega)
      simp only [Function.update_idem] at last
      exact ⟨manager', after', live'', free'',
        by simp only [CStorage.rollbackLoop, done]; exact rest, last⟩

/-- Every permitted operation that leaves foreign tables alone keeps the representation and replies
as the private histories do. -/
theorem step (represents : Represents world family live free names) (op : Op α)
    (permitted : op.Permitted family) (ownTable : op.OwnTable) :
    (∃ live' free' names', Represents (world.step op).1 (family.step op) live' free' names') ∧
      (world.step op).2 = family.reply op := by
  cases op with
  | clone target source memory =>
    obtain ⟨new, present⟩ := permitted
    obtain ⟨storage, here⟩ := represents.exists_object present
    have gone := (represents.same target).mpr new
    have apart : target ≠ source := fun equal => present (equal ▸ new)
    have empty : ∀ address, tableCount memory address =
        objectCount address (world.object target) := by
      intro address
      have null : ∀ lba, memory lba = none := ownTable
      simp [tableCount, null, gone, objectCount]
    simp only [World.step, here]
    exact ⟨represents.copyInto memory apart here empty, rfl⟩
  | copyFrom target source =>
    obtain ⟨old, here⟩ := represents.exists_object permitted.1
    obtain ⟨storage, there⟩ := represents.exists_object permitted.2
    simp only [World.step, here, there]
    exact ⟨represents.copyInto old.data ownTable there (fun address => by rw [here]; rfl), rfl⟩
  | blockWrite target lba block =>
    obtain ⟨storage, here⟩ := represents.exists_object permitted
    obtain ⟨history, path, present, _⟩ := represents.exists_history here
    obtain ⟨manager, after, live', free', done, next⟩ :=
      represents.blockWrite here present lba block
    simp only [World.step, here, World.update, done, Family.step, present, Option.map_some]
    exact ⟨⟨live', free', names, next⟩, rfl⟩
  | blockRead target lba =>
    obtain ⟨storage, here⟩ := represents.exists_object permitted
    obtain ⟨history, path, present, record⟩ := represents.exists_history here
    simp only [World.step, here, Family.reply, present]
    exact ⟨⟨live, free, names, represents⟩, record.blockRead lba⟩
  | rollback target count =>
    obtain ⟨history, present, enough⟩ := permitted
    have alive : family target ≠ none := by simp [present]
    obtain ⟨storage, here⟩ := represents.exists_object alive
    obtain ⟨path, record⟩ := represents.recorded target storage history here present
    rw [← record.length] at enough
    obtain ⟨manager, after, live', free', done, next⟩ :=
      represents.rollbackLoop here present count enough
    simp only [World.step, here, CStorage.rollback, Nat.not_lt.mpr enough, ↓reduceIte,
      World.update, done, Family.step, present, Option.map_some]
    exact ⟨⟨live', free', names, next⟩, rfl⟩
  | destroy target =>
    obtain ⟨storage, here⟩ := represents.exists_object permitted
    obtain ⟨live', free', next⟩ := represents.destroy here
    simp only [World.step, here]
    exact ⟨⟨live', free', names, next⟩, rfl⟩

/-- One initialised storage has no pointers at all. -/
theorem start (memory : Nat → StorageData α) :
    Represents (World.start memory) Family.start ∅ [] {0} := by
  have empty : rootCount {0} (World.start memory).object = fun _ => 0 := by
    funext address
    rw [rootCount, Finset.sum_singleton]
    change tableCount (fun _ => none) address = 0
    unfold tableCount
    exact Finset.sum_eq_zero fun lba _ => if_neg nofun
  refine ⟨?_, fun name alive => ?_, fun name => ?_, fun name storage history here present => ?_⟩
  · rw [empty]
    exact ⟨rfl, List.nodup_nil, rfl, by simp, by simp, by simp, by simp, by simp, by simp, by simp⟩
  · by_contra other
    exact alive (by simpa [World.start] using other)
  · simp only [World.start, Family.start]
    split <;> simp
  · by_cases first : name = 0
    · subst first
      obtain rfl : CStorage.initialized = storage := by simpa [World.start] using here
      obtain rfl : [] = history := by simpa [Family.start] using present
      exact ⟨[], rfl, rfl, trivial, fun _ => rfl, rfl⟩
    · simp [World.start, first] at here

/-- A free node is on the list that the invariant names. -/
theorem free_mem (represents : Represents world family live free names) {address : Nat}
    (onList : OnFreeList world.manager address) : address ∈ free := by
  have chain := represents.counted.freeChain
  induction onList with
  | head start =>
    rw [start] at chain
    obtain ⟨rest, rfl, _⟩ := chain.of_some
    exact List.mem_cons_self
  | next _ link member => exact chain.next_mem member link

/-- The representation gives isolation. -/
theorem isolated (represents : Represents world family live free names) :
    Isolated world family := by
  refine ⟨represents.same, fun name storage history here present => ?_,
    fun op permitted ownTable => (represents.step op permitted ownTable).2,
    fun name storage address here reached onList => ?_⟩
  · obtain ⟨path, record⟩ := represents.recorded name storage history here present
    exact record.length
  · obtain ⟨history, path, _, record⟩ := represents.exists_history here
    have member := record.path_live (represents.pointed here) represents.counted.closed address
      (record.reaches_mem reached)
    exact represents.counted.freeDead address (represents.free_mem onList) member

end Represents

/-- Every run over own tables keeps the shared memory a representation of the histories. -/
theorem Run.represents {ops : List (Op α)} {world : World α} {family : Family α}
    (run : Run ops world family) (ownTables : ∀ op ∈ ops, op.OwnTable) :
    ∃ live free names, Represents world family live free names := by
  induction run with
  | start memory => exact ⟨∅, [], {0}, Represents.start memory⟩
  | step op _ permitted ih =>
    obtain ⟨live, free, names, before⟩ :=
      ih (fun op member => ownTables op (List.mem_append_left _ member))
    exact (before.step op permitted (ownTables op (by simp))).1

/-- In every run whose copies go to other objects with an own table, each object behaves as its
private list of writes and no node that a live object reaches is free. -/
theorem run_isolated {ops : List (Op α)} {world : World α} {family : Family α}
    (run : Run ops world family) (ownTables : ∀ op ∈ ops, op.OwnTable) :
    Isolated world family := by
  obtain ⟨live, free, names, represents⟩ := run.represents ownTables
  exact represents.isolated

/-- Fresh memory for runs on concrete blocks. -/
def blankMemory : Nat → StorageData Nat := fun _ =>
  { data := 0, preVer := none, preWrite := none, ref := 0, lba := 0 }

/-- A snapshot is taken, the original writes on and rolls back: both stay isolated. -/
theorem run_isolated_snapshot : ∃ (world : World Nat) (family : Family Nat),
    Run [.blockWrite 0 5 7, .clone 1 0 (fun _ => none), .blockWrite 0 5 8, .rollback 0 1]
      world family ∧ Isolated world family := by
  have written := (Run.start blankMemory).step (.blockWrite 0 5 7)
    (by simp [Op.Permitted, Family.start])
  have cloned := written.step (.clone 1 0 (fun _ => none))
    (by simp [Op.Permitted, Family.start, Family.step])
  have rewritten := cloned.step (.blockWrite 0 5 8)
    (by simp [Op.Permitted, Family.start, Family.step])
  have rolledBack := rewritten.step (.rollback 0 1)
    (by simp [Op.Permitted, Family.start, Family.step, dword])
  exact ⟨_, _, rolledBack, run_isolated rolledBack (by simp [Op.OwnTable])⟩

/-- A table entry of a live object that is the first free node refutes isolation. -/
theorem not_isolated_of_free {world : World α} {family : Family α} (name address : Nat)
    (lba : Lba) (entry : (world.object name).bind (·.data lba) = some address)
    (free : world.manager.freeList = some address) : ¬ Isolated world family := by
  intro isolated
  obtain ⟨storage, here, pointed⟩ := Option.bind_eq_some_iff.mp entry
  exact isolated.inUse name storage address here (.table pointed) (.head free)

/-- `CopyFrom` with the object itself as source releases the table before it counts it again: the
version of block 5 stays in the table and is on the free list. -/
theorem copyFrom_itself_frees : ∃ (world : World Nat) (family : Family Nat),
    Run [.blockWrite 0 5 7, .copyFrom 0 0] world family ∧ ¬ Isolated world family := by
  have written := (Run.start blankMemory).step (.blockWrite 0 5 7)
    (by simp [Op.Permitted, Family.start])
  have copied := written.step (.copyFrom 0 0) (by simp [Op.Permitted, Family.start, Family.step])
  exact ⟨_, _, copied, not_isolated_of_free 0 0 5 (by decide +kernel) (by decide +kernel)⟩

/-- `CopyFrom` into an object constructed over the memory of a destroyed one releases the versions
that the old table still points to, although the original holds them. -/
theorem clone_over_stale_table_frees : ∃ (world : World Nat) (family : Family Nat),
    Run [.blockWrite 0 5 7, .clone 1 0 (fun lba => if lba = 5 then some 0 else none)]
      world family ∧ ¬ Isolated world family := by
  have written := (Run.start blankMemory).step (.blockWrite 0 5 7)
    (by simp [Op.Permitted, Family.start])
  have cloned := written.step (.clone 1 0 (fun lba => if lba = 5 then some 0 else none))
    (by simp [Op.Permitted, Family.start, Family.step])
  exact ⟨_, _, cloned, not_isolated_of_free 0 0 5 (by decide +kernel) (by decide +kernel)⟩

end FsChecking.Storage
