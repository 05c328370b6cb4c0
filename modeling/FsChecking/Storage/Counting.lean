import Mathlib.Algebra.BigOperators.Fin
import Mathlib.Data.Finset.Card
import FsChecking.Lib.Chain
import FsChecking.Storage.Model

/-!
# Exact reference counts

The invariant behind the sharing of version nodes: the count of every live node is the number of
external pointers to it (`roots`, the tables of the live objects) plus the number of live nodes
whose `pre_ver` it is, and the nodes of the free list are not live. `put` may reclaim a whole chain
of versions; `Counted.put` shows that it reclaims only nodes that nothing live points to, and
changes nothing but counts in the nodes it leaves.
-/

namespace FsChecking.Storage

open Lib

variable {α : Type}

/-- The number of entries of a block table that point to an address. -/
def tableCount (table : Lba → Option Nat) (address : Nat) : Nat :=
  ∑ lba : Lba, if table lba = some address then 1 else 0

/-- The pending reference of a pointer that is about to be released. -/
def pendingCount (pointer : Option Nat) (address : Nat) : Nat :=
  if pointer = some address then 1 else 0

/-- The reference counts are exact for a set of live nodes, external pointer counts `roots` and a
free list. -/
structure Counted (manager : StorageDataManager α) (live : Finset Nat) (roots : Nat → Nat)
    (free : List Nat) : Prop where
  /-- The free list runs through `free`. -/
  freeChain : Chain (fun address => (manager.node address).preVer) manager.freeList free
  /-- No node is free twice. -/
  freeNodup : free.Nodup
  /-- `m_free_nr` is the length of the free list. -/
  freeNr : manager.freeNr = free.length
  /-- A free node is not live. -/
  freeDead : ∀ address ∈ free, address ∉ live
  /-- Free nodes are allocated. -/
  freeBelow : ∀ address ∈ free, address < manager.limit
  /-- Live nodes are allocated. -/
  liveBelow : ∀ address ∈ live, address < manager.limit
  /-- Earlier versions of live nodes are live. -/
  closed : ∀ address ∈ live, ∀ previous, (manager.node address).preVer = some previous →
    previous ∈ live
  /-- External pointers lead to live nodes. -/
  rooted : ∀ address, 0 < roots address → address ∈ live
  /-- The count is the number of pointers. -/
  counted : ∀ address ∈ live, (manager.node address).ref =
    roots address + (live.filter fun node => (manager.node node).preVer = some address).card
  /-- Live nodes are referenced. -/
  held : ∀ address ∈ live, 0 < (manager.node address).ref

/-- The second manager differs from the first in the nodes of a set only by their counts. -/
def Unchanged (before after : StorageDataManager α) (nodes : Finset Nat) : Prop :=
  ∀ address ∈ nodes,
    after.node address = { before.node address with ref := (after.node address).ref }

namespace Unchanged

/-- Nothing changes by doing nothing. -/
theorem refl (manager : StorageDataManager α) (nodes : Finset Nat) :
    Unchanged manager manager nodes := fun _ _ => rfl

/-- Changes of counts compose, over the nodes that the second change still covers. -/
theorem trans {first second third : StorageDataManager α} {nodes fewer : Finset Nat}
    (subset : fewer ⊆ nodes) (left : Unchanged first second nodes)
    (right : Unchanged second third fewer) : Unchanged first third fewer := by
  intro address member
  rw [right address member, left address (subset member)]

end Unchanged

/-- Overwriting the count of one node is a change of counts. -/
theorem unchanged_setRef (manager : StorageDataManager α) (address : Nat) (ref : Int)
    (nodes : Finset Nat) :
    Unchanged manager (manager.setNode address { manager.node address with ref }) nodes := by
  intro other _
  by_cases same : other = address
  · subst same
    simp [StorageDataManager.setNode]
  · simp [StorageDataManager.setNode, same]

/-- Overwriting the count of one node leaves every `pre_ver` alone. -/
theorem setRef_preVer (manager : StorageDataManager α) (address : Nat) (ref : Int) (other : Nat) :
    ((manager.setNode address { manager.node address with ref }).node other).preVer =
      (manager.node other).preVer := by
  by_cases same : other = address
  · subst same
    simp [StorageDataManager.setNode]
  · simp [StorageDataManager.setNode, same]

namespace Counted

variable {manager : StorageDataManager α} {live : Finset Nat} {roots : Nat → Nat}
  {free : List Nat}

/-- Changing the count of a live node together with its external pointers keeps the counts
exact, as long as the node stays referenced. -/
theorem setRef (exact : Counted manager live roots free) {address : Nat} (member : address ∈ live)
    (ref : Int) (count : Nat) (balanced : ref + roots address = (manager.node address).ref + count)
    (positive : 0 < ref) :
    Counted (manager.setNode address { manager.node address with ref }) live
      (Function.update roots address count) free := by
  have sameVer := setRef_preVer manager address ref
  refine ⟨?_, exact.freeNodup, exact.freeNr, exact.freeDead, exact.freeBelow, exact.liveBelow,
    ?_, ?_, ?_, ?_⟩
  · exact exact.freeChain.congr (fun node _ => sameVer node)
  · intro node inside previous link
    rw [sameVer] at link
    exact exact.closed node inside previous link
  · intro node pointed
    by_cases same : node = address
    · exact same ▸ member
    · rw [Function.update_of_ne same] at pointed
      exact exact.rooted node pointed
  · intro node inside
    simp only [sameVer]
    have before := exact.counted node inside
    by_cases same : node = address
    · subst same
      simp only [StorageDataManager.setNode, Function.update_self]
      omega
    · simpa [StorageDataManager.setNode, same] using before
  · intro node inside
    by_cases same : node = address
    · subst same
      simpa [StorageDataManager.setNode] using positive
    · simpa [StorageDataManager.setNode, same] using exact.held node inside

/-- `AddRef` counts one more external pointer. -/
theorem addRef (exact : Counted manager live roots free) {address : Nat}
    (member : address ∈ live) :
    Counted (manager.addRef address) live
      (Function.update roots address (roots address + 1)) free := by
  have positive := exact.held address member
  have balanced : (manager.node address).ref + 1 + roots address =
      (manager.node address).ref + (roots address + 1 : Nat) := by omega
  exact exact.setRef member _ _ balanced (by omega)

/-- A node that loses its last reference can be taken out of the live set: its own pointer to the
earlier version becomes a pending external one. -/
theorem erase (exact : Counted manager live roots free) {address : Nat} (member : address ∈ live)
    (last : (manager.node address).ref = 1) (single : roots address = 1) :
    Counted (manager.decRef address) (live.erase address)
      (fun node => Function.update roots address 0 node +
        pendingCount (manager.node address).preVer node) free ∧
    address ∉ (live.erase address) := by
  have sameVer := setRef_preVer manager address ((manager.node address).ref - 1)
  have none : (live.filter fun node => (manager.node node).preVer = some address).card = 0 := by
    have := exact.counted address member
    omega
  have unpointed : ∀ node ∈ live, (manager.node node).preVer ≠ some address := by
    intro node inside link
    have := Finset.card_eq_zero.mp none
    exact Finset.eq_empty_iff_forall_notMem.mp this node (by simp [inside, link])
  refine ⟨⟨?_, exact.freeNodup, exact.freeNr, ?_, exact.freeBelow, ?_, ?_, ?_, ?_, ?_⟩,
    Finset.notMem_erase address live⟩
  · exact exact.freeChain.congr (fun node _ => sameVer node)
  · intro node inside erased
    exact exact.freeDead node inside (Finset.mem_of_mem_erase erased)
  · intro node inside
    exact exact.liveBelow node (Finset.mem_of_mem_erase inside)
  · intro node inside previous link
    rw [StorageDataManager.decRef, sameVer] at link
    have kept := Finset.mem_of_mem_erase inside
    refine Finset.mem_erase.mpr ⟨?_, exact.closed node kept previous link⟩
    rintro rfl
    exact unpointed node kept link
  · intro node pointed
    by_cases same : node = address
    · subst same
      have : pendingCount (manager.node node).preVer node = 0 := by
        simp [pendingCount, unpointed node member]
      simp [this] at pointed
    · rw [Function.update_of_ne same] at pointed
      refine Finset.mem_erase.mpr ⟨same, ?_⟩
      by_cases link : (manager.node address).preVer = some node
      · exact exact.closed address member node link
      · exact exact.rooted node (by simpa [pendingCount, link] using pointed)
  · intro node inside
    obtain ⟨other, kept⟩ := Finset.mem_erase.mp inside
    have before := exact.counted node kept
    simp only [StorageDataManager.decRef, sameVer]
    have content : ((manager.setNode address
        { manager.node address with ref := (manager.node address).ref - 1 }).node node).ref =
        (manager.node node).ref := by
      simp [StorageDataManager.setNode, other]
    rw [content, before, Function.update_of_ne other, Finset.filter_erase]
    by_cases link : (manager.node address).preVer = some node
    · have inFilter : address ∈ live.filter fun b => (manager.node b).preVer = some node := by
        simp [member, link]
      have := Finset.card_erase_add_one inFilter
      simp only [pendingCount, link, ↓reduceIte]
      omega
    · have notIn : address ∉ live.filter fun b => (manager.node b).preVer = some node := by
        simp [link]
      rw [Finset.erase_eq_of_notMem notIn]
      simp [pendingCount, link]
  · intro node inside
    obtain ⟨other, kept⟩ := Finset.mem_erase.mp inside
    simpa [StorageDataManager.decRef, StorageDataManager.setNode, other] using
      exact.held node kept

/-- Reclaiming a node that is neither live nor free puts it in front of the free list. -/
theorem reclaim (exact : Counted manager live roots free) {address : Nat}
    (dead : address ∉ live) (taken : address ∉ free) (below : address < manager.limit) :
    Counted (manager.reclaim address) live roots (address :: free) := by
  have sameNode : ∀ node, node ≠ address →
      (manager.reclaim address).node node = manager.node node := by
    intro node other
    simp [StorageDataManager.reclaim, StorageDataManager.setNode, other]
  have liveNode : ∀ node ∈ live, (manager.reclaim address).node node = manager.node node :=
    fun node inside => sameNode node (fun same => dead (same ▸ inside))
  have limit : (manager.reclaim address).limit = manager.limit := rfl
  refine ⟨?_, List.nodup_cons.mpr ⟨taken, exact.freeNodup⟩, ?_, ?_, ?_, ?_, ?_, exact.rooted,
    ?_, ?_⟩
  · refine ⟨rfl, ?_⟩
    have link : ((manager.reclaim address).node address).preVer = manager.freeList := by
      simp [StorageDataManager.reclaim, StorageDataManager.setNode]
    change Chain _ ((manager.reclaim address).node address).preVer free
    rw [link]
    refine exact.freeChain.congr (fun node inside => ?_)
    rw [sameNode node (fun same => taken (same ▸ inside))]
  · simp [StorageDataManager.reclaim, StorageDataManager.setNode, exact.freeNr]
  · intro node inside
    rcases List.mem_cons.mp inside with rfl | later
    · exact dead
    · exact exact.freeDead node later
  · intro node inside
    rcases List.mem_cons.mp inside with rfl | later
    · exact below
    · exact exact.freeBelow node later
  · exact exact.liveBelow
  · intro node inside previous link
    rw [liveNode node inside] at link
    exact exact.closed node inside previous link
  · intro node inside
    have sameFilter : (live.filter fun other =>
        ((manager.reclaim address).node other).preVer = some node) =
        live.filter fun other => (manager.node other).preVer = some node :=
      Finset.filter_congr (fun other kept => by rw [liveNode other kept])
    rw [liveNode node inside, exact.counted node inside, sameFilter]
  · intro node inside
    rw [liveNode node inside]
    exact exact.held node inside

/-- The counts after one external pointer has been dropped. -/
abbrev dropRoot (roots : Nat → Nat) (address : Nat) : Nat → Nat :=
  Function.update roots address (roots address - 1)

/-- What releasing references may do to an exactly counted manager: some live nodes move to the
free list, the others keep all but their counts. -/
structure Released (manager after : StorageDataManager α) (live : Finset Nat) (roots : Nat → Nat)
    (free : List Nat) : Prop where
  /-- The remaining live nodes and the longer free list are counted exactly. -/
  counted : ∃ live' free', live' ⊆ live ∧ (∀ address ∈ free', address ∈ free ∨ address ∈ live) ∧
    Counted after live' roots free' ∧ Unchanged manager after live'
  /-- No memory is obtained. -/
  limit : after.limit = manager.limit

/-- The reclaiming loop of `put`, started on a pending pointer, releases that pointer. -/
theorem putLoop (fuel : Nat) (pointer : Option Nat) (enough : live.card < fuel)
    (exact : Counted manager live (fun node => roots node + pendingCount pointer node) free) :
    Released manager (manager.putLoop fuel pointer) live roots free := by
  induction fuel generalizing manager live free pointer with
  | zero => omega
  | succ fuel ih =>
    cases pointer with
    | none =>
      have same : (fun node => roots node + pendingCount none node) = roots := by
        funext node
        simp [pendingCount]
      rw [same] at exact
      exact ⟨⟨live, free, Finset.Subset.refl live, fun _ => Or.inl, exact,
        Unchanged.refl manager live⟩, rfl⟩
    | some pre =>
      have member : pre ∈ live := exact.rooted pre (by simp [pendingCount])
      have pending : roots pre + pendingCount (some pre) pre = roots pre + 1 := by
        simp [pendingCount]
      have dropped : ((manager.decRef pre).node pre).ref = (manager.node pre).ref - 1 := by
        simp [StorageDataManager.decRef, StorageDataManager.setNode]
      have sameRoots : Function.update
          (fun node => roots node + pendingCount (some pre) node) pre (roots pre) = roots := by
        funext node
        by_cases other : node = pre
        · simp [other]
        · simp [other, pendingCount, Ne.symm other]
      simp only [StorageDataManager.putLoop, dropped]
      by_cases more : (manager.node pre).ref - 1 ≠ 0
      · rw [if_pos more]
        have positive := exact.held pre member
        have kept := exact.setRef member ((manager.node pre).ref - 1) (roots pre)
          (by omega) (by omega)
        rw [sameRoots] at kept
        exact ⟨⟨live, free, Finset.Subset.refl live, fun _ => Or.inl, kept,
          unchanged_setRef manager pre _ live⟩, rfl⟩
      · rw [if_neg more]
        have last : (manager.node pre).ref = 1 := by omega
        have single : roots pre + pendingCount (some pre) pre = 1 := by
          have := exact.counted pre member
          omega
        obtain ⟨erased, out⟩ := exact.erase member last single
        have bare : (fun node => Function.update
            (fun node => roots node + pendingCount (some pre) node) pre 0 node +
              pendingCount (manager.node pre).preVer node) =
            fun node => roots node + pendingCount (manager.node pre).preVer node := by
          funext node
          by_cases other : node = pre
          · subst other
            simp only [Function.update_self]
            omega
          · simp [other, pendingCount, Ne.symm other]
        rw [bare] at erased
        have taken : pre ∉ free := fun inside => exact.freeDead pre inside member
        have reclaimed := erased.reclaim out taken (exact.liveBelow pre member)
        have smaller : (live.erase pre).card < fuel := by
          have := Finset.card_erase_add_one member
          omega
        have link : ((manager.decRef pre).node pre).preVer = (manager.node pre).preVer :=
          setRef_preVer manager pre _ pre
        rw [link]
        obtain ⟨⟨live', free', subset, origin, done, same⟩, limit⟩ :=
          ih _ smaller reclaimed
        refine ⟨⟨live', free', subset.trans (Finset.erase_subset _ _), ?_, done, ?_⟩, limit⟩
        · intro node inside
          rcases origin node inside with old | erasedNode
          · rcases List.mem_cons.mp old with rfl | older
            · exact Or.inr member
            · exact Or.inl older
          · exact Or.inr (Finset.mem_of_mem_erase erasedNode)
        · have first : Unchanged manager ((manager.decRef pre).reclaim pre) live' := by
            intro node inside
            have other : node ≠ pre := Finset.ne_of_mem_erase (subset inside)
            simp [StorageDataManager.reclaim, StorageDataManager.decRef,
              StorageDataManager.setNode, other]
          exact first.trans (Finset.Subset.refl _) same

/-- `put` drops one external pointer. -/
theorem put (exact : Counted manager live roots free) {address : Nat}
    (pointed : 0 < roots address) :
    Released manager (manager.put address) live (dropRoot roots address) free := by
  have member := exact.rooted address pointed
  have positive := exact.held address member
  have dropped : ((manager.decRef address).node address).ref = (manager.node address).ref - 1 := by
    simp [StorageDataManager.decRef, StorageDataManager.setNode]
  simp only [StorageDataManager.put, dropped]
  by_cases more : (manager.node address).ref - 1 ≠ 0
  · rw [if_pos more]
    have kept := exact.setRef member ((manager.node address).ref - 1) (roots address - 1)
      (by omega) (by omega)
    exact ⟨⟨live, free, Finset.Subset.refl live, fun _ => Or.inl, kept,
      unchanged_setRef manager address _ live⟩, rfl⟩
  · rw [if_neg more]
    have last : (manager.node address).ref = 1 := by omega
    have single : roots address = 1 := by
      have := exact.counted address member
      omega
    obtain ⟨erased, out⟩ := exact.erase member last single
    have bare : Function.update roots address 0 = dropRoot roots address := by
      rw [dropRoot, single]
    rw [bare] at erased
    have link : ((manager.decRef address).node address).preVer = (manager.node address).preVer :=
      setRef_preVer manager address _ address
    have enough : (live.erase address).card < (manager.decRef address).limit + 1 := by
      have below : live ⊆ Finset.range manager.limit := fun node inside =>
        Finset.mem_range.mpr (exact.liveBelow node inside)
      have bound := Finset.card_le_card ((Finset.erase_subset address live).trans below)
      rw [Finset.card_range] at bound
      exact Nat.lt_succ_of_le bound
    rw [link]
    obtain ⟨⟨live', free', subset, origin, done, same⟩, limit⟩ :=
      putLoop _ (manager.node address).preVer enough erased
    have below : address < ((manager.decRef address).putLoop
        ((manager.decRef address).limit + 1) (manager.node address).preVer).limit := by
      rw [limit]
      exact exact.liveBelow address member
    have fresh : address ∉ free' := by
      intro inside
      rcases origin address inside with old | kept
      · exact exact.freeDead address old member
      · exact out kept
    refine ⟨⟨live', address :: free', subset.trans (Finset.erase_subset _ _), ?_,
      done.reclaim (fun inside => out (subset inside)) fresh below, ?_⟩, limit⟩
    · intro node inside
      rcases List.mem_cons.mp inside with rfl | later
      · exact Or.inr member
      · rcases origin node later with old | kept
        · exact Or.inl old
        · exact Or.inr (Finset.mem_of_mem_erase kept)
    · have first := (unchanged_setRef manager address ((manager.node address).ref - 1)
        live').trans (Finset.Subset.refl _) same
      refine first.trans (Finset.Subset.refl _) (fun node inside => ?_)
      have other : node ≠ address := Finset.ne_of_mem_erase (subset inside)
      simp [StorageDataManager.reclaim, StorageDataManager.setNode, other]

/-- Releasing the pointers of a list of table entries, one `put` after the other. -/
theorem putList (table : Lba → Option Nat) (lbas : List Lba)
    (exact : Counted manager live
      (fun node => roots node + (lbas.map fun lba => pendingCount (table lba) node).sum) free) :
    Released manager
      (lbas.foldl (fun manager lba => match table lba with
        | none => manager
        | some address => manager.put address) manager) live roots free := by
  induction lbas generalizing manager live free with
  | nil =>
    exact ⟨⟨live, free, Finset.Subset.refl live, fun _ => Or.inl, by simpa using exact,
      Unchanged.refl manager live⟩, rfl⟩
  | cons lba rest ih =>
    cases entry : table lba with
    | none =>
      have fewer : Counted manager live
          (fun node => roots node + (rest.map fun lba => pendingCount (table lba) node).sum)
          free := by
        simpa [entry, pendingCount] using exact
      simpa [entry] using ih fewer
    | some address =>
      have pointed : 0 < roots address +
          ((lba :: rest).map fun lba => pendingCount (table lba) address).sum := by
        simp only [List.map_cons, entry, pendingCount, ↓reduceIte, List.sum_cons]
        omega
      obtain ⟨⟨live', free', subset, origin, done, same⟩, limit⟩ := exact.put pointed
      have fewer : dropRoot (fun node => roots node +
          ((lba :: rest).map fun lba => pendingCount (table lba) node).sum) address =
          fun node => roots node + (rest.map fun lba => pendingCount (table lba) node).sum := by
        funext node
        by_cases other : node = address
        · subst other
          simp only [dropRoot, Function.update_self, List.map_cons, entry, pendingCount,
            ↓reduceIte, List.sum_cons]
          omega
        · simp [entry, pendingCount, dropRoot, other, Ne.symm other]
      rw [fewer] at done
      obtain ⟨⟨last, freeLast, subset', origin', done', same'⟩, limit'⟩ := ih done
      simp only [List.foldl_cons, entry]
      refine ⟨⟨last, freeLast, subset'.trans subset, ?_, done', same.trans subset' same'⟩,
        limit'.trans limit⟩
      intro node inside
      rcases origin' node inside with old | kept
      · exact origin node old
      · exact Or.inr (subset kept)

/-- Releasing a whole block table. -/
theorem putAll (table : Lba → Option Nat)
    (exact : Counted manager live (fun node => roots node + tableCount table node) free) :
    Released manager (manager.putAll table) live roots free := by
  refine putList table _ ?_
  have sums : (fun node => roots node + tableCount table node) = fun node =>
      roots node + ((List.finRange totalBlockNr).map
        fun lba => pendingCount (table lba) node).sum := by
    funext node
    rw [tableCount, Fin.sum_univ_def]
    rfl
  rwa [sums] at exact

/-- Counting the pointers of a list of table entries. -/
theorem addRefList (table : Lba → Option Nat) (lbas : List Lba)
    (inside : ∀ lba address, table lba = some address → address ∈ live)
    (exact : Counted manager live roots free) :
    Counted (lbas.foldl (fun manager lba => match table lba with
        | none => manager
        | some address => manager.addRef address) manager) live
      (fun node => roots node + (lbas.map fun lba => pendingCount (table lba) node).sum) free ∧
    Unchanged manager (lbas.foldl (fun manager lba => match table lba with
        | none => manager
        | some address => manager.addRef address) manager) live := by
  induction lbas generalizing manager roots with
  | nil => exact ⟨by simpa using exact, Unchanged.refl manager live⟩
  | cons lba rest ih =>
    cases entry : table lba with
    | none => simpa [entry, pendingCount] using ih exact
    | some address =>
      obtain ⟨done, same⟩ := ih (exact.addRef (inside lba address entry))
      simp only [List.foldl_cons, entry]
      refine ⟨?_, (unchanged_setRef manager address _ live).trans (Finset.Subset.refl _) same⟩
      have more : (fun node => Function.update roots address (roots address + 1) node +
          (rest.map fun lba => pendingCount (table lba) node).sum) = fun node =>
          roots node + ((lba :: rest).map fun lba => pendingCount (table lba) node).sum := by
        funext node
        by_cases other : node = address
        · subst other
          simp only [Function.update_self, List.map_cons, entry, pendingCount, ↓reduceIte,
            List.sum_cons]
          omega
        · simp [entry, pendingCount, other, Ne.symm other]
      rwa [more] at done

/-- Counting the pointers of a whole block table. -/
theorem addRefAll (table : Lba → Option Nat)
    (inside : ∀ lba address, table lba = some address → address ∈ live)
    (exact : Counted manager live roots free) :
    Counted (manager.addRefAll table) live (fun node => roots node + tableCount table node) free ∧
      Unchanged manager (manager.addRefAll table) live := by
  have sums : (fun node => roots node + tableCount table node) = fun node =>
      roots node + ((List.finRange totalBlockNr).map
        fun lba => pendingCount (table lba) node).sum := by
    funext node
    rw [tableCount, Fin.sum_univ_def]
    rfl
  rw [sums]
  exact addRefList table _ inside exact

/-- A new buffer only adds free nodes. -/
theorem allocateBuffer (exact : Counted manager live roots free) (empty : free = []) :
    Counted manager.allocateBuffer live roots
      ((List.range StorageDataManager.allocateSize).map (manager.limit + ·)) := by
  have liveNode : ∀ node ∈ live, manager.allocateBuffer.node node = manager.node node := by
    intro node inside
    have := exact.liveBelow node inside
    simp [StorageDataManager.allocateBuffer, Nat.not_le.mpr this]
  have chainFrom : ∀ count start, start + count = StorageDataManager.allocateSize →
      Chain (fun address => (manager.allocateBuffer.node address).preVer)
        (if start < StorageDataManager.allocateSize then some (manager.limit + start)
          else manager.freeList)
        ((List.range' start count).map (manager.limit + ·)) := by
    intro count
    induction count with
    | zero =>
      intro start sum
      have none : manager.freeList = none := by simpa [empty] using exact.freeChain
      simp [show ¬ start < StorageDataManager.allocateSize by omega, none]
    | succ count ih =>
      intro start sum
      have before : start < StorageDataManager.allocateSize := by omega
      have link : (manager.allocateBuffer.node (manager.limit + start)).preVer =
          if start + 1 < StorageDataManager.allocateSize then some (manager.limit + (start + 1))
          else manager.freeList := by
        simp [StorageDataManager.allocateBuffer, StorageDataManager.bufferNode, before,
          Nat.add_assoc]
      rw [if_pos before, List.range'_succ, List.map_cons]
      refine ⟨rfl, ?_⟩
      change Chain _ (manager.allocateBuffer.node (manager.limit + start)).preVer _
      rw [link]
      exact ih (start + 1) (by omega)
  refine ⟨?_, ?_, ?_, ?_, ?_, ?_, ?_, exact.rooted, ?_, ?_⟩
  · have whole := chainFrom StorageDataManager.allocateSize 0 (by omega)
    rw [if_pos (by simp [StorageDataManager.allocateSize_eq]), Nat.add_zero,
      ← List.range_eq_range'] at whole
    exact whole
  · exact List.Nodup.map (fun _ _ same => Nat.add_left_cancel same) List.nodup_range
  · simp [StorageDataManager.allocateBuffer, exact.freeNr, empty]
  · intro node inside member
    obtain ⟨index, _, rfl⟩ := List.mem_map.mp inside
    have := exact.liveBelow _ member
    omega
  · intro node inside
    obtain ⟨index, bounded, rfl⟩ := List.mem_map.mp inside
    have := List.mem_range.mp bounded
    simp only [StorageDataManager.allocateBuffer]
    omega
  · intro node inside
    have := exact.liveBelow node inside
    simp only [StorageDataManager.allocateBuffer]
    omega
  · intro node inside previous link
    rw [liveNode node inside] at link
    exact exact.closed node inside previous link
  · intro node inside
    have sameFilter : (live.filter fun other =>
        (manager.allocateBuffer.node other).preVer = some node) =
        live.filter fun other => (manager.node other).preVer = some node :=
      Finset.filter_congr (fun other kept => by rw [liveNode other kept])
    rw [liveNode node inside, exact.counted node inside, sameFilter]
  · intro node inside
    rw [liveNode node inside]
    exact exact.held node inside

/-- Unlinking the first free node leaves it neither free nor live. -/
theorem takeFree {address : Nat} {rest : List Nat}
    (exact : Counted manager live roots (address :: rest)) :
    ∃ after, manager.takeFree = .ok (address, after) ∧ Counted after live roots rest ∧
      address ∉ live ∧ address ∉ rest ∧ address < after.limit ∧
      (after.node address).ref = 1 ∧ ∀ node ∈ live, after.node node = manager.node node := by
  obtain ⟨start, tail⟩ := exact.freeChain
  have dead := exact.freeDead address List.mem_cons_self
  obtain ⟨fresh, nodup⟩ := List.nodup_cons.mp exact.freeNodup
  have sameNode : ∀ node, node ≠ address →
      (manager.unlinkFree address).node node = manager.node node :=
    fun node other => Function.update_of_ne other _ _
  have liveNode : ∀ node ∈ live, (manager.unlinkFree address).node node = manager.node node :=
    fun node inside => sameNode node (fun same => dead (same ▸ inside))
  refine ⟨manager.unlinkFree address, by simp only [StorageDataManager.takeFree, start], ?_, dead,
    fresh, exact.freeBelow address List.mem_cons_self,
    by simp [StorageDataManager.unlinkFree, StorageDataManager.setNode], liveNode⟩
  refine ⟨?_, nodup, ?_, ?_, ?_, exact.liveBelow, ?_, exact.rooted, ?_, ?_⟩
  · refine Chain.congr (fun node inside => ?_) tail
    rw [sameNode node (fun same => fresh (same ▸ inside))]
  · simp [StorageDataManager.unlinkFree, exact.freeNr]
  · exact fun node inside => exact.freeDead node (List.mem_cons_of_mem _ inside)
  · exact fun node inside => exact.freeBelow node (List.mem_cons_of_mem _ inside)
  · intro node inside previous link
    rw [liveNode node inside] at link
    exact exact.closed node inside previous link
  · intro node inside
    have sameFilter : (live.filter fun other =>
        ((manager.unlinkFree address).node other).preVer = some node) =
        live.filter fun other => (manager.node other).preVer = some node :=
      Finset.filter_congr (fun other kept => by rw [liveNode other kept])
    rw [liveNode node inside, exact.counted node inside, sameFilter]
  · intro node inside
    rw [liveNode node inside]
    exact exact.held node inside

/-- `get` returns a node that is not in use, obtaining memory when no node is free. -/
theorem get (exact : Counted manager live roots free) :
    ∃ address after rest, manager.get = .ok (address, after) ∧ Counted after live roots rest ∧
      address ∉ live ∧ address ∉ rest ∧ address < after.limit ∧
      (after.node address).ref = 1 ∧ ∀ node ∈ live, after.node node = manager.node node := by
  cases free with
  | nil =>
    have zero : manager.freeNr = 0 := exact.freeNr
    have filled := exact.allocateBuffer rfl
    rw [StorageDataManager.allocateSize_eq, List.range_succ_eq_map, List.map_cons] at filled
    obtain ⟨after, taken, done, dead, fresh, below, one, same⟩ := filled.takeFree
    refine ⟨_, after, _, ?_, done, dead, fresh, below, one, fun node inside => ?_⟩
    · simp only [StorageDataManager.get, zero, ↓reduceIte, taken]
    · have := exact.liveBelow node inside
      rw [same node inside]
      simp [StorageDataManager.allocateBuffer, Nat.not_le.mpr this]
  | cons address rest =>
    have some : manager.freeNr ≠ 0 := by simp [exact.freeNr]
    obtain ⟨after, taken, facts⟩ := exact.takeFree
    exact ⟨address, after, rest, by simp only [StorageDataManager.get, some, ↓reduceIte, taken],
      facts⟩

/-- A node that is neither free nor live becomes live when one external pointer leads to it; the
version it links to loses an external pointer to it. -/
theorem insert (exact : Counted manager live roots free) {address : Nat} {node : StorageData α}
    {roots' : Nat → Nat} (dead : address ∉ live) (taken : address ∉ free)
    (below : address < manager.limit) (one : node.ref = 1)
    (linked : ∀ previous, node.preVer = some previous → previous ∈ live)
    (balanced : ∀ other, roots' other + pendingCount node.preVer other =
      roots other + pendingCount (some address) other) :
    Counted (manager.setNode address node) (Insert.insert address live) roots' free := by
  have here : (manager.setNode address node).node address = node := by
    simp [StorageDataManager.setNode]
  have sameNode : ∀ other, other ≠ address →
      (manager.setNode address node).node other = manager.node other :=
    fun other apart => by simp [StorageDataManager.setNode, apart]
  have apart : ∀ other ∈ live, other ≠ address := fun other inside same => dead (same ▸ inside)
  have unpointed : ∀ other ∈ live, (manager.node other).preVer ≠ some address :=
    fun other inside link => dead (exact.closed other inside address link)
  have notSelf : node.preVer ≠ some address := fun link => dead (linked address link)
  have unrooted : roots address = 0 := by
    by_contra some
    exact dead (exact.rooted address (by omega))
  refine ⟨?_, exact.freeNodup, exact.freeNr, ?_, exact.freeBelow, ?_, ?_, ?_, ?_, ?_⟩
  · refine exact.freeChain.congr (fun other inside => ?_)
    rw [sameNode other (fun same => taken (same ▸ inside))]
  · intro other inside member
    rcases Finset.mem_insert.mp member with rfl | kept
    · exact taken inside
    · exact exact.freeDead other inside kept
  · intro other member
    rcases Finset.mem_insert.mp member with rfl | kept
    · exact below
    · exact exact.liveBelow other kept
  · intro other member previous link
    rcases Finset.mem_insert.mp member with rfl | kept
    · rw [here] at link
      exact Finset.mem_insert_of_mem (linked previous link)
    · rw [sameNode other (apart other kept)] at link
      exact Finset.mem_insert_of_mem (exact.closed other kept previous link)
  · intro other pointed
    have balance := balanced other
    by_cases same : other = address
    · exact Finset.mem_insert.mpr (Or.inl same)
    · refine Finset.mem_insert_of_mem (exact.rooted other ?_)
      have : pendingCount (some address) other = 0 := by simp [pendingCount, Ne.symm same]
      omega
  · intro other member
    have balance := balanced other
    have sameFilter : (live.filter fun b =>
        ((manager.setNode address node).node b).preVer = some other) =
        live.filter fun b => (manager.node b).preVer = some other :=
      Finset.filter_congr (fun b kept => by rw [sameNode b (apart b kept)])
    rw [Finset.filter_insert, here, sameFilter]
    rcases Finset.mem_insert.mp member with rfl | kept
    · have empty : (live.filter fun b => (manager.node b).preVer = some other) = ∅ :=
        Finset.filter_eq_empty_iff.mpr (fun b inside => unpointed b inside)
      rw [if_neg notSelf, empty, here, one]
      simp only [pendingCount, notSelf, ↓reduceIte, unrooted] at balance
      simp only [Finset.card_empty]
      omega
    · rw [sameNode other (apart other kept), exact.counted other kept]
      have noNew : pendingCount (some address) other = 0 := by
        simp [pendingCount, Ne.symm (apart other kept)]
      by_cases link : node.preVer = some other
      · have outside : address ∉ live.filter fun b => (manager.node b).preVer = some other :=
          fun inside => dead (Finset.mem_filter.mp inside).1
        rw [if_pos link, Finset.card_insert_of_notMem outside]
        simp only [pendingCount, link, ↓reduceIte] at balance
        simp only [pendingCount] at noNew
        omega
      · rw [if_neg link]
        simp only [pendingCount, link, ↓reduceIte] at balance
        simp only [pendingCount] at noNew
        omega
  · intro other member
    rcases Finset.mem_insert.mp member with rfl | kept
    · rw [here, one]
      exact Int.one_pos
    · rw [sameNode other (apart other kept)]
      exact exact.held other kept

end Counted

end FsChecking.Storage
