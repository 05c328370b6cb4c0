import Mathlib.Data.List.Nodup
import FsChecking.Config
import FsChecking.Lib.FreeStack
import FsChecking.PerfSim.SegmentManager

/-!
# Node table of the performance simulator

`CInodeManager_`: two stacks of node objects and one table from ids to objects. The objects are
recycled, the ids are not, so the length of a run that the table supports is the number of ids.
-/

namespace FsChecking.PerfSim

open Lib

/-- `MAX_NODE_NUM`. -/
abbrev maxNodeNum : Nat := 10240

/-- `CNodeInfoBase::NODE_TYPE`. -/
inductive NodeType where
  /-- `NODE_FREE`. -/
  | free
  /-- `NODE_INODE`. -/
  | inode
  /-- `NODE_INDEX`. -/
  | index
  deriving DecidableEq

/-- The node objects that pointers refer to. -/
inductive NodeRef where
  /-- An element of `m_inode_buffer`. -/
  | inode (slot : Nat)
  /-- An element of `m_dnode_buffer`. -/
  | dnode (slot : Nat)
  deriving DecidableEq

/-- A pointer into `m_inode_buffer`. -/
def NodeRef.isInode : NodeRef → Bool
  | .inode _ => true
  | .dnode _ => false

/-- `CNodeInfoBase`, without the data pages. -/
structure NodeInfo (P : Type) where
  /-- `m_type`. -/
  nodeType : NodeType
  /-- `m_fid`. -/
  fid : Nat
  /-- `data_page`. -/
  dataPage : P
  /-- `parent`. -/
  parent : Option NodeRef

/-- The members of `CPageInfo` that describe a node. -/
structure NodePage where
  /-- `type` is `PAGE_NODE`. -/
  isNode : Bool
  /-- `inode`. -/
  inode : Option NodeRef
  /-- `data`. -/
  data : Option NodeRef
  /-- `dirty`. -/
  dirty : Bool

/-- `CInodeManager_`, with the pages that its nodes are in. -/
structure InodeManager (P : Type) where
  /-- `m_nodes`. -/
  nodes : Nat → Option NodeRef
  /-- `m_node_nr`. -/
  nodeNr : Nat
  /-- `m_free_inodes` and `m_inode_head`. -/
  inodes : FreeStack NodeRef
  /-- `m_free_dnodes` and `m_dnode_head`. -/
  dnodes : FreeStack NodeRef
  /-- `m_inode_buffer` and `m_dnode_buffer`. -/
  buffer : NodeRef → NodeInfo P
  /-- The pages. -/
  pages : P → NodePage

variable {P : Type} [DecidableEq P]

/-- Programs of a node table. -/
abbrev NodeM (P : Type) := EStateM SimError (InodeManager P)

namespace InodeManager

/-- `CInodeManager_::CInodeManager_`, over memory with the given contents. -/
def create (nodes : Nat → Option NodeRef) (buffer : NodeRef → NodeInfo P) (pages : P → NodePage) :
    InodeManager P where
  nodes := nodes
  nodeNr := 1
  inodes := { slots := .inode, head := 0 }
  dnodes := { slots := .dnode, head := 0 }
  buffer := buffer
  pages := pages

/-- Change one page. -/
def updatePage (manager : InodeManager P) (page : P) (change : NodePage → NodePage) :
    InodeManager P :=
  { manager with pages := Function.update manager.pages page (change (manager.pages page)) }

/-- A page is to hold a node. -/
def markNode (manager : InodeManager P) (page : P) : InodeManager P :=
  manager.updatePage page fun info => { info with isNode := true }

/-- Initialise a node object and enter it into the table under the next id. -/
def enter (manager : InodeManager P) (node : NodeRef) (nodeType : NodeType)
    (parent owner : Option NodeRef) (page : P) : InodeManager P :=
  { manager.updatePage page fun info =>
      { info with inode := owner, data := some node, dirty := true } with
    buffer := Function.update manager.buffer node
      { nodeType := nodeType, fid := dword manager.nodeNr, dataPage := page, parent := parent }
    nodes := Function.update manager.nodes manager.nodeNr (some node)
    nodeNr := manager.nodeNr + 1 }

end InodeManager

/-- `allocate_inode` of a page that is not null. -/
def allocateInode (type : NodeType) (parent : Option NodeRef) (page : P) : NodeM P NodeRef := do
  modify fun manager => manager.markNode page
  let manager ← get
  throwIf (manager.nodeNr ≥ maxNodeNum * 2) (.app "out of memory for pages")
  if type = .inode then
    throwIf (manager.inodes.head ≥ maxNodeNum) (.app "out of memory for inodes")
    let (node, inodes) := manager.inodes.take
    set ({ manager with inodes := inodes }.enter node .inode none (some node) page)
    return node
  else
    throwIf (manager.dnodes.head ≥ maxNodeNum) (.app "out of memory for dnodes")
    let (node, dnodes) := manager.dnodes.take
    set ({ manager with dnodes := dnodes }.enter node .index parent parent page)
    return node

/-- `free_inode`. -/
def freeInode (nid : Nat) : NodeM P P := do
  let manager ← get
  let node := manager.nodes nid
  modify fun manager => { manager with nodes := Function.update manager.nodes nid none }
  match node with
  | none => throw .undefined
  | some node =>
    let info := manager.buffer node
    match info.nodeType with
    | .inode =>
      throwIf (manager.inodes.head = 0) (.app "inode buffer is full")
      modify fun manager => { manager with inodes := manager.inodes.give node }
    | .index =>
      throwIf (manager.dnodes.head = 0) (.app "dnode buffer is full")
      modify fun manager => { manager with dnodes := manager.dnodes.give node }
    | .free => pure ()
    return info.dataPage

section Calls

variable {manager : InodeManager P}

/-- `allocate_inode` when the ids are used up. -/
theorem allocateInode_full (type : NodeType) (parent : Option NodeRef) (page : P)
    (full : maxNodeNum * 2 ≤ manager.nodeNr) :
    allocateInode type parent page manager = .error (.app "out of memory for pages")
      (manager.markNode page) := by
  unfold allocateInode
  rw [modify_bind_apply, get_bind_apply, throwIf_bind_of
    (show (manager.markNode page).nodeNr ≥ maxNodeNum * 2 from full)]

/-- `allocate_inode` of an inode. -/
theorem allocateInode_inode (parent : Option NodeRef) (page : P)
    (id : manager.nodeNr < maxNodeNum * 2) (object : manager.inodes.head < maxNodeNum) :
    allocateInode .inode parent page manager = .ok manager.inodes.take.1
      ({ manager.markNode page with
        inodes := manager.inodes.take.2 }.enter manager.inodes.take.1 .inode none
          (some manager.inodes.take.1) page) := by
  unfold allocateInode
  rw [modify_bind_apply, get_bind_apply, throwIf_bind_of_not
    (show ¬(manager.markNode page).nodeNr ≥ maxNodeNum * 2 from Nat.not_le.mpr id), if_pos rfl,
    throwIf_bind_of_not
      (show ¬(manager.markNode page).inodes.head ≥ maxNodeNum from Nat.not_le.mpr object)]
  rfl

/-- `allocate_inode` of an index node. -/
theorem allocateInode_dnode {type : NodeType} (parent : Option NodeRef) (page : P)
    (other : type ≠ .inode) (id : manager.nodeNr < maxNodeNum * 2)
    (object : manager.dnodes.head < maxNodeNum) :
    allocateInode type parent page manager = .ok manager.dnodes.take.1
      ({ manager.markNode page with
        dnodes := manager.dnodes.take.2 }.enter manager.dnodes.take.1 .index parent parent page) := by
  unfold allocateInode
  rw [modify_bind_apply, get_bind_apply, throwIf_bind_of_not
    (show ¬(manager.markNode page).nodeNr ≥ maxNodeNum * 2 from Nat.not_le.mpr id), if_neg other,
    throwIf_bind_of_not
      (show ¬(manager.markNode page).dnodes.head ≥ maxNodeNum from Nat.not_le.mpr object)]
  rfl

/-- The table behind a call that frees an id, before the object is given back. -/
def InodeManager.forget (manager : InodeManager P) (nid : Nat) : InodeManager P :=
  { manager with nodes := Function.update manager.nodes nid none }

omit [DecidableEq P] in
/-- `free_inode` of an inode. -/
theorem freeInode_inode {nid : Nat} {node : NodeRef} (entered : manager.nodes nid = some node)
    (type : (manager.buffer node).nodeType = .inode) (used : manager.inodes.head ≠ 0) :
    freeInode nid manager = .ok (manager.buffer node).dataPage
      { manager.forget nid with inodes := manager.inodes.give node } := by
  unfold freeInode
  rw [get_bind_apply, modify_bind_apply]
  simp only [entered, type]
  rw [throwIf_bind_of_not used]
  rfl

omit [DecidableEq P] in
/-- `free_inode` of an index node. -/
theorem freeInode_dnode {nid : Nat} {node : NodeRef} (entered : manager.nodes nid = some node)
    (type : (manager.buffer node).nodeType = .index) (used : manager.dnodes.head ≠ 0) :
    freeInode nid manager = .ok (manager.buffer node).dataPage
      { manager.forget nid with dnodes := manager.dnodes.give node } := by
  unfold freeInode
  rw [get_bind_apply, modify_bind_apply]
  simp only [entered, type]
  rw [throwIf_bind_of_not used]
  rfl

end Calls

/-! ## Runs -/

/-- A call of the node table. -/
inductive NodeCall (P : Type) where
  /-- `allocate_inode(type, parent, page)`. -/
  | allocateInode (type : NodeType) (parent : Option NodeRef) (page : P)
  /-- `free_inode(nid)`. -/
  | freeInode (nid : Nat)

/-- Whether a call allocates. -/
def NodeCall.allocates : NodeCall P → Bool
  | .allocateInode _ _ _ => true
  | .freeInode _ => false

/-- The inodes among the live nodes, which are listed with their ids. -/
def inodesOf (live : List (Nat × NodeRef)) : List NodeRef :=
  (live.map Prod.snd).filter fun node => node.isInode

/-- The index nodes among the live nodes. -/
def dnodesOf (live : List (Nat × NodeRef)) : List NodeRef :=
  (live.map Prod.snd).filter fun node => !node.isInode

/-- Less than a full buffer of inodes and less than a full buffer of index nodes are live. -/
def Within (live : List (Nat × NodeRef)) : Prop :=
  (inodesOf live).length ≤ maxNodeNum - 1 ∧ (dnodesOf live).length ≤ maxNodeNum - 1

/-- The live nodes without the one of an id. -/
def without (live : List (Nat × NodeRef)) (nid : Nat) : List (Nat × NodeRef) :=
  live.filter fun entry => entry.1 ≠ nid

namespace InodeManager

/-- The state behind a call. -/
def after (manager : InodeManager P) : NodeCall P → InodeManager P
  | .allocateInode type parent page => finalState (allocateInode type parent page manager)
  | .freeInode nid => finalState (freeInode nid manager)

/-- The live nodes behind a call. -/
def liveAfter (manager : InodeManager P) (live : List (Nat × NodeRef)) :
    NodeCall P → List (Nat × NodeRef)
  | .allocateInode type parent page =>
    match allocateInode type parent page manager with
    | .ok node manager' => ((manager'.buffer node).fid, node) :: live
    | .error _ _ => live
  | .freeInode nid => without live nid

/-- Only live nodes are freed, and the numbers of live nodes stay within the bounds. -/
def Proper : InodeManager P → List (Nat × NodeRef) → List (NodeCall P) → Prop
  | _, live, [] => Within live
  | manager, live, call :: calls =>
    Within live ∧ (∀ nid, call = .freeInode nid → nid ∈ live.map Prod.fst) ∧
      Proper (manager.after call) (manager.liveAfter live call) calls

/-- What looking ids up gives: the node of a live id, and nothing for an id that was freed and has
not been handed out again. -/
structure LooksUp (manager : InodeManager P) (live : List (Nat × NodeRef)) (gone : List Nat) :
    Prop where
  /-- The live ids. -/
  used : ∀ entry ∈ live, manager.nodes entry.1 = some entry.2
  /-- The freed ids. -/
  freed : ∀ nid ∈ gone, manager.nodes nid = none

/-- Every allocation returns a node that is not in use with an id that is not in use, every id is
looked up as it should, and every live node can be freed. -/
def Exact : InodeManager P → List (Nat × NodeRef) → List Nat → List (NodeCall P) → Prop
  | manager, live, gone, [] => manager.LooksUp live gone
  | manager, live, gone, .allocateInode type parent page :: calls =>
    manager.LooksUp live gone ∧ ∃ node manager',
      allocateInode type parent page manager = .ok node manager' ∧
      node ∉ live.map Prod.snd ∧ (manager'.buffer node).fid ∉ live.map Prod.fst ∧
      Exact manager' (((manager'.buffer node).fid, node) :: live)
        (gone.filter fun nid => nid ≠ (manager'.buffer node).fid) calls
  | manager, live, gone, .freeInode nid :: calls =>
    manager.LooksUp live gone ∧ ∃ page manager',
      freeInode nid manager = .ok page manager' ∧
      Exact manager' (without live nid) (nid :: gone) calls

/-- The invariant of the node table. -/
structure Tracks (manager : InodeManager P) (live : List (Nat × NodeRef)) (gone : List Nat) :
    Prop extends manager.LooksUp live gone where
  /-- The inode objects. -/
  inodes : manager.inodes.Holds ((List.range maxNodeNum).map .inode) (inodesOf live)
  /-- The index node objects. -/
  dnodes : manager.dnodes.Holds ((List.range maxNodeNum).map .dnode) (dnodesOf live)
  /-- An object knows its kind. -/
  typed : ∀ entry ∈ live,
    (manager.buffer entry.2).nodeType = if entry.2.isInode then .inode else .index
  /-- The live ids are distinct. -/
  ids : (live.map Prod.fst).Nodup
  /-- The live ids have been handed out. -/
  live_lt : ∀ entry ∈ live, entry.1 < manager.nodeNr
  /-- The freed ids have been handed out. -/
  gone_lt : ∀ nid ∈ gone, nid < manager.nodeNr
  /-- There are ids for as many nodes as there are objects. -/
  bounded : manager.nodeNr ≤ maxNodeNum * 2

end InodeManager

/-- One live node taken out of the others. -/
theorem perm_without {live : List (Nat × NodeRef)} {nid : Nat} {node : NodeRef}
    (ids : (live.map Prod.fst).Nodup) (mem : (nid, node) ∈ live) :
    live.Perm ((nid, node) :: without live nid) := by
  induction live with
  | nil => cases mem
  | cons entry live ih =>
    rw [List.map_cons, List.nodup_cons] at ids
    cases mem with
    | head =>
      have others : without live nid = live := by
        apply List.filter_eq_self.mpr
        intro other inside
        have distinct : other.1 ≠ nid := by
          intro same
          exact ids.1 (List.mem_map.mpr ⟨other, inside, same⟩)
        simpa using distinct
      have whole : without ((nid, node) :: live) nid = live := by
        rw [without, List.filter_cons_of_neg (by simp)]
        exact others
      rw [whole]
    | tail _ mem =>
      have kept : entry.1 ≠ nid := fun same => ids.1 (same ▸ List.mem_map_of_mem mem)
      have whole : without (entry :: live) nid = entry :: without live nid := by
        rw [without, List.filter_cons_of_pos (by simpa using kept)]
        rfl
      rw [whole]
      exact ((ih ids.2 mem).cons entry).trans (List.Perm.swap _ _ _)

/-- The members of the live nodes without one id. -/
theorem mem_without {live : List (Nat × NodeRef)} {nid : Nat} {entry : Nat × NodeRef} :
    entry ∈ without live nid ↔ entry ∈ live ∧ entry.1 ≠ nid := by
  rw [without, List.mem_filter, decide_eq_true_eq]

/-- A live node is listed under its kind. -/
theorem inodesOf_cons_inode (live : List (Nat × NodeRef)) (nid : Nat) {node : NodeRef}
    (kind : node.isInode = true) :
    inodesOf ((nid, node) :: live) = node :: inodesOf live ∧
      dnodesOf ((nid, node) :: live) = dnodesOf live := by
  simp [inodesOf, dnodesOf, kind]

/-- A live node is listed under its kind. -/
theorem inodesOf_cons_dnode (live : List (Nat × NodeRef)) (nid : Nat) {node : NodeRef}
    (kind : node.isInode = false) :
    inodesOf ((nid, node) :: live) = inodesOf live ∧
      dnodesOf ((nid, node) :: live) = node :: dnodesOf live := by
  simp [inodesOf, dnodesOf, kind]

/-- A node that is not listed under its kind is not live. -/
theorem notMem_live {live : List (Nat × NodeRef)} {node : NodeRef}
    (inode : node.isInode = true → node ∉ inodesOf live)
    (dnode : node.isInode = false → node ∉ dnodesOf live) : node ∉ live.map Prod.snd := by
  intro used
  cases kind : node.isInode with
  | true => exact inode kind (List.mem_filter.mpr ⟨used, kind⟩)
  | false => exact dnode kind (List.mem_filter.mpr ⟨used, by rw [kind]; rfl⟩)

namespace InodeManager

variable {manager : InodeManager P} {live : List (Nat × NodeRef)} {gone : List Nat}

omit [DecidableEq P] in
/-- A new node table. -/
theorem tracks_create (nodes : Nat → Option NodeRef) (buffer : NodeRef → NodeInfo P)
    (pages : P → NodePage) : (create nodes buffer pages).Tracks [] [] where
  used _ mem := nomatch mem
  freed _ mem := nomatch mem
  inodes := FreeStack.holds_nil _ _ (by rw [List.length_map, List.length_range])
  dnodes := FreeStack.holds_nil _ _ (by rw [List.length_map, List.length_range])
  typed _ mem := nomatch mem
  ids := List.nodup_nil
  live_lt _ mem := nomatch mem
  gone_lt _ mem := nomatch mem
  bounded := by
    show 1 ≤ maxNodeNum * 2
    decide

/-- The id of an object that enters the table. -/
theorem fid_enter (manager : InodeManager P) (node : NodeRef) (nodeType : NodeType)
    (parent owner : Option NodeRef) (page : P) :
    ((manager.enter node nodeType parent owner page).buffer node).fid = dword manager.nodeNr := by
  unfold enter
  dsimp only
  rw [Function.update_self]

/-- An object enters the table under the next id. -/
theorem Tracks.enter (stacked : InodeManager P) {node : NodeRef} (parent owner : Option NodeRef)
    (page : P) (tracks : manager.Tracks live gone) (room : manager.nodeNr < maxNodeNum * 2)
    (fresh : node ∉ live.map Prod.snd) (nodes : stacked.nodes = manager.nodes)
    (buffer : stacked.buffer = manager.buffer) (nodeNr : stacked.nodeNr = manager.nodeNr)
    (inodes : stacked.inodes.Holds ((List.range maxNodeNum).map .inode)
      (inodesOf ((manager.nodeNr, node) :: live)))
    (dnodes : stacked.dnodes.Holds ((List.range maxNodeNum).map .dnode)
      (dnodesOf ((manager.nodeNr, node) :: live))) :
    (stacked.enter node (if node.isInode then .inode else .index) parent owner page).Tracks
      ((manager.nodeNr, node) :: live) (gone.filter fun nid => nid ≠ manager.nodeNr) where
  used := by
    intro entry mem
    show Function.update stacked.nodes stacked.nodeNr (some node) entry.1 = some entry.2
    rw [nodes, nodeNr]
    cases mem with
    | head => exact Function.update_self _ _ _
    | tail _ mem =>
      rw [Function.update_of_ne (Nat.ne_of_lt (tracks.live_lt entry mem))]
      exact tracks.used entry mem
  freed := by
    intro nid mem
    rw [List.mem_filter, decide_eq_true_eq] at mem
    show Function.update stacked.nodes stacked.nodeNr (some node) nid = none
    rw [nodes, nodeNr, Function.update_of_ne mem.2]
    exact tracks.freed nid mem.1
  inodes := inodes
  dnodes := dnodes
  typed := by
    intro entry mem
    show (Function.update stacked.buffer node _ entry.2).nodeType = _
    rw [buffer]
    cases mem with
    | head => rw [Function.update_self]
    | tail _ mem =>
      have apart : entry.2 ≠ node := fun same => fresh (same ▸ List.mem_map_of_mem mem)
      rw [Function.update_of_ne apart]
      exact tracks.typed entry mem
  ids := by
    rw [List.map_cons, List.nodup_cons]
    refine ⟨?_, tracks.ids⟩
    intro used
    obtain ⟨entry, mem, same⟩ := List.mem_map.mp used
    have below := tracks.live_lt entry mem
    omega
  live_lt := by
    intro entry mem
    show entry.1 < stacked.nodeNr + 1
    rw [nodeNr]
    cases mem with
    | head => exact Nat.lt_succ_self _
    | tail _ mem => exact Nat.lt_succ_of_lt (tracks.live_lt entry mem)
  gone_lt := by
    intro nid mem
    show nid < stacked.nodeNr + 1
    rw [nodeNr]
    exact Nat.lt_succ_of_lt (tracks.gone_lt nid (List.mem_of_mem_filter mem))
  bounded := by
    show stacked.nodeNr + 1 ≤ maxNodeNum * 2
    rw [nodeNr]
    exact room

end InodeManager

namespace InodeManager

variable {manager : InodeManager P} {live : List (Nat × NodeRef)} {gone : List Nat}

/-- An allocation with ids to spare, within the bounds. -/
theorem Tracks.allocateInode (type : NodeType) (parent : Option NodeRef) (page : P)
    (tracks : manager.Tracks live gone) (within : Within live)
    (room : manager.nodeNr < maxNodeNum * 2) :
    ∃ node manager', PerfSim.allocateInode type parent page manager = .ok node manager' ∧
      node ∉ live.map Prod.snd ∧ (manager'.buffer node).fid = manager.nodeNr ∧
      manager'.nodeNr = manager.nodeNr + 1 ∧
      manager'.Tracks ((manager.nodeNr, node) :: live)
        (gone.filter fun nid => nid ≠ manager.nodeNr) := by
  have small : dword manager.nodeNr = manager.nodeNr := Nat.mod_eq_of_lt (room.trans (by decide))
  by_cases inode : type = .inode
  · subst inode
    have available : (inodesOf live).length < ((List.range maxNodeNum).map NodeRef.inode).length := by
      rw [List.length_map, List.length_range]
      have bound := within.1
      omega
    have taken := tracks.inodes.take available
    have kind : manager.inodes.take.1.isInode = true := by
      have mem := taken.shares.subset (List.mem_cons_self ..)
      obtain ⟨slot, -, same⟩ := List.mem_map.mp mem
      rw [← same]
      rfl
    have fresh : manager.inodes.take.1 ∉ live.map Prod.snd := by
      apply notMem_live
      · intro _
        exact tracks.inodes.take_notMem
          (List.Nodup.map (fun _ _ same => NodeRef.inode.inj same) List.nodup_range) available
      · intro other
        rw [kind] at other
        cases other
    have object : manager.inodes.head < maxNodeNum := by
      rw [tracks.inodes.head]
      simpa using available
    have lists := inodesOf_cons_inode live manager.nodeNr kind
    refine ⟨_, _, allocateInode_inode parent page room object, fresh, ?_, rfl, ?_⟩
    · rw [fid_enter]
      exact small
    · have entered := tracks.enter { manager.markNode page with
          inodes := manager.inodes.take.2 } none (some manager.inodes.take.1) page room fresh rfl rfl rfl
        (by rw [lists.1]; exact taken) (by rw [lists.2]; exact tracks.dnodes)
      rw [kind, if_pos rfl] at entered
      exact entered
  · have available : (dnodesOf live).length < ((List.range maxNodeNum).map NodeRef.dnode).length := by
      rw [List.length_map, List.length_range]
      have bound := within.2
      omega
    have taken := tracks.dnodes.take available
    have kind : manager.dnodes.take.1.isInode = false := by
      have mem := taken.shares.subset (List.mem_cons_self ..)
      obtain ⟨slot, -, same⟩ := List.mem_map.mp mem
      rw [← same]
      rfl
    have fresh : manager.dnodes.take.1 ∉ live.map Prod.snd := by
      apply notMem_live
      · intro other
        rw [kind] at other
        cases other
      · intro _
        exact tracks.dnodes.take_notMem
          (List.Nodup.map (fun _ _ same => NodeRef.dnode.inj same) List.nodup_range) available
    have object : manager.dnodes.head < maxNodeNum := by
      rw [tracks.dnodes.head]
      simpa using available
    have lists := inodesOf_cons_dnode live manager.nodeNr kind
    refine ⟨_, _, allocateInode_dnode parent page inode room object, fresh, ?_, rfl, ?_⟩
    · rw [fid_enter]
      exact small
    · have entered := tracks.enter { manager.markNode page with
          dnodes := manager.dnodes.take.2 } parent parent page room fresh
        rfl rfl rfl (by rw [lists.1]; exact tracks.inodes) (by rw [lists.2]; exact taken)
      rw [kind] at entered
      exact entered

omit [DecidableEq P] in
/-- Forgetting an id whose object has been given back. -/
theorem Tracks.forget {given : InodeManager P} {nid : Nat} (tracks : manager.Tracks live gone)
    (mem : nid ∈ live.map Prod.fst) (nodes : given.nodes = (manager.forget nid).nodes)
    (buffer : given.buffer = manager.buffer) (nodeNr : given.nodeNr = manager.nodeNr)
    (inodes : given.inodes.Holds ((List.range maxNodeNum).map .inode)
      (inodesOf (without live nid)))
    (dnodes : given.dnodes.Holds ((List.range maxNodeNum).map .dnode)
      (dnodesOf (without live nid))) :
    given.Tracks (without live nid) (nid :: gone) where
  used := by
    intro entry inside
    rw [mem_without] at inside
    rw [nodes]
    show Function.update manager.nodes nid none entry.1 = some entry.2
    rw [Function.update_of_ne inside.2]
    exact tracks.used entry inside.1
  freed := by
    intro other inside
    rw [nodes]
    show Function.update manager.nodes nid none other = none
    by_cases same : other = nid
    · rw [same]
      exact Function.update_self _ _ _
    · rw [Function.update_of_ne same]
      cases inside with
      | head => exact absurd rfl same
      | tail _ inside => exact tracks.freed other inside
  inodes := inodes
  dnodes := dnodes
  typed := by
    intro entry inside
    rw [buffer]
    exact tracks.typed entry (mem_without.mp inside).1
  ids := tracks.ids.sublist (List.filter_sublist.map Prod.fst)
  live_lt := by
    intro entry inside
    rw [nodeNr]
    exact tracks.live_lt entry (mem_without.mp inside).1
  gone_lt := by
    intro other inside
    rw [nodeNr]
    cases inside with
    | head =>
      obtain ⟨entry, live, same⟩ := List.mem_map.mp mem
      rw [← same]
      exact tracks.live_lt entry live
    | tail _ inside => exact tracks.gone_lt other inside
  bounded := by
    rw [nodeNr]
    exact tracks.bounded

omit [DecidableEq P] in
/-- Freeing a live node. -/
theorem Tracks.freeInode {nid : Nat} (tracks : manager.Tracks live gone)
    (mem : nid ∈ live.map Prod.fst) :
    ∃ page manager', PerfSim.freeInode nid manager = .ok page manager' ∧
      manager'.nodeNr = manager.nodeNr ∧ manager'.Tracks (without live nid) (nid :: gone) := by
  obtain ⟨⟨nid, node⟩, inside, rfl⟩ := List.mem_map.mp mem
  have entered := tracks.used _ inside
  have typed := tracks.typed _ inside
  have order := (perm_without tracks.ids inside).map Prod.snd
  rw [List.map_cons] at order
  cases kind : node.isInode with
  | true =>
    rw [kind, if_pos rfl] at typed
    have first : (inodesOf live).Perm (node :: inodesOf (without live nid)) := by
      have parts := order.filter fun node => node.isInode
      rwa [List.filter_cons_of_pos kind] at parts
    have second : (dnodesOf live).Perm (dnodesOf (without live nid)) := by
      have parts := order.filter fun node => !node.isInode
      rwa [List.filter_cons_of_neg (by rw [kind]; decide)] at parts
    have used : manager.inodes.head ≠ 0 := by
      rw [tracks.inodes.head, first.length_eq]
      exact Nat.succ_ne_zero _
    refine ⟨_, _, freeInode_inode entered typed used, rfl, ?_⟩
    exact tracks.forget mem rfl rfl rfl (tracks.inodes.perm first).give (tracks.dnodes.perm second)
  | false =>
    rw [kind] at typed
    have first : (inodesOf live).Perm (inodesOf (without live nid)) := by
      have parts := order.filter fun node => node.isInode
      rwa [List.filter_cons_of_neg (by rw [kind]; decide)] at parts
    have second : (dnodesOf live).Perm (node :: dnodesOf (without live nid)) := by
      have parts := order.filter fun node => !node.isInode
      rwa [List.filter_cons_of_pos (by rw [kind]; rfl)] at parts
    have used : manager.dnodes.head ≠ 0 := by
      rw [tracks.dnodes.head, second.length_eq]
      exact Nat.succ_ne_zero _
    refine ⟨_, _, freeInode_dnode entered typed used, rfl, ?_⟩
    exact tracks.forget mem rfl rfl rfl (tracks.inodes.perm first) (tracks.dnodes.perm second).give

/-- From any state of a run, the calls are exact if and only if there are ids for all of them. -/
theorem Tracks.exact_iff (calls : List (NodeCall P)) (tracks : manager.Tracks live gone)
    (proper : manager.Proper live calls) :
    manager.Exact live gone calls ↔
      manager.nodeNr + calls.countP (·.allocates) ≤ maxNodeNum * 2 := by
  induction calls generalizing manager live gone with
  | nil => exact iff_of_true tracks.toLooksUp tracks.bounded
  | cons call calls ih =>
    obtain ⟨within, allowed, properRest⟩ := proper
    cases call with
    | allocateInode type parent page =>
      rw [List.countP_cons_of_pos rfl]
      by_cases room : manager.nodeNr < maxNodeNum * 2
      · obtain ⟨node, manager', allocated, fresh, fid, nodeNr, tracks'⟩ :=
          tracks.allocateInode type parent page within room
        have moves : manager.after (.allocateInode type parent page) = manager' := by
          simp only [after, allocated, finalState]
        have adds : manager.liveAfter live (.allocateInode type parent page) =
            (manager.nodeNr, node) :: live := by
          simp only [liveAfter, allocated, fid]
        rw [moves, adds] at properRest
        have rest := ih tracks' properRest
        rw [nodeNr] at rest
        have unused : manager.nodeNr ∉ live.map Prod.fst := by
          have ids := tracks'.ids
          rw [List.map_cons, List.nodup_cons] at ids
          exact ids.1
        constructor
        · rintro ⟨-, node', manager'', allocated', -, -, exact'⟩
          rw [allocated] at allocated'
          cases allocated'
          rw [fid] at exact'
          have bound := rest.mp exact'
          omega
        · intro bound
          refine ⟨tracks.toLooksUp, node, manager', allocated, fresh, ?_, ?_⟩
          · rw [fid]
            exact unused
          · rw [fid]
            exact rest.mpr (by omega)
      · refine iff_of_false ?_ (by omega)
        rintro ⟨-, node, manager', allocated, -⟩
        rw [allocateInode_full type parent page (by omega)] at allocated
        cases allocated
    | freeInode nid =>
      obtain ⟨page, manager', freed, nodeNr, tracks'⟩ := tracks.freeInode (allowed nid rfl)
      have moves : manager.after (.freeInode nid) = manager' := by
        simp only [after, freed, finalState]
      rw [moves] at properRest
      have rest := ih tracks' properRest
      rw [nodeNr] at rest
      rw [List.countP_cons_of_neg (by simp [NodeCall.allocates]), ← rest]
      constructor
      · rintro ⟨-, page', manager'', freed', exact'⟩
        rw [freed] at freed'
        cases freed'
        exact exact'
      · intro exact'
        exact ⟨tracks.toLooksUp, page, manager', freed, exact'⟩

end InodeManager

/-- From a new node table over memory with any contents, any calls that free only live nodes and
stay within the bounds are exact if and only if no more than `2 * MAX_NODE_NUM - 1` of them
allocate. -/
theorem nodeTable_exact_iff (nodes : Nat → Option NodeRef) (buffer : NodeRef → NodeInfo P)
    (pages : P → NodePage) (calls : List (NodeCall P))
    (proper : (InodeManager.create nodes buffer pages).Proper [] calls) :
    (InodeManager.create nodes buffer pages).Exact [] [] calls ↔
      calls.countP (·.allocates) ≤ maxNodeNum * 2 - 1 := by
  rw [(InodeManager.tracks_create nodes buffer pages).exact_iff calls proper]
  have start : (InodeManager.create nodes buffer pages).nodeNr = 1 := rfl
  have positive : 0 < maxNodeNum := by decide
  rw [start]
  omega

/-- A node that is created and deleted again and again, and created once more. -/
def churn : Nat → Nat → List (NodeCall Unit)
  | _, 0 => [.allocateInode .inode none ()]
  | nid, times + 1 => .allocateInode .inode none () :: .freeInode nid :: churn (nid + 1) times

/-- The allocations of such a run. -/
theorem countP_churn (nid times : Nat) : (churn nid times).countP (·.allocates) = times + 1 := by
  induction times generalizing nid with
  | zero => rfl
  | succ times ih =>
    rw [churn, List.countP_cons_of_pos rfl, List.countP_cons_of_neg (by simp [NodeCall.allocates]),
      ih]

/-- A run with at most one live node is within the bounds. -/
theorem within_of_length_le {live : List (Nat × NodeRef)} (short : live.length ≤ 1) :
    Within live := by
  have inodes : (inodesOf live).length ≤ live.length :=
    (List.length_filter_le _ _).trans_eq (List.length_map _)
  have dnodes : (dnodesOf live).length ≤ live.length :=
    (List.length_filter_le _ _).trans_eq (List.length_map _)
  have bound : 1 ≤ maxNodeNum - 1 := by decide
  exact ⟨by omega, by omega⟩

/-- Such a run only frees live nodes. -/
theorem proper_churn (times : Nat) {manager : InodeManager Unit} {gone : List Nat}
    (tracks : manager.Tracks [] gone) (room : manager.nodeNr + times ≤ maxNodeNum * 2) :
    manager.Proper [] (churn manager.nodeNr times) := by
  induction times generalizing manager gone with
  | zero =>
    refine ⟨within_of_length_le (Nat.zero_le 1), nofun, ?_⟩
    apply within_of_length_le
    cases run : allocateInode .inode none () manager with
    | ok node manager' =>
      simp only [InodeManager.liveAfter, run]
      exact Nat.le_refl 1
    | error fault manager' =>
      simp only [InodeManager.liveAfter, run]
      exact Nat.zero_le 1
  | succ times ih =>
    obtain ⟨node, manager', allocated, -, fid, nodeNr, tracks'⟩ :=
      tracks.allocateInode .inode none () (within_of_length_le (Nat.zero_le 1)) (by omega)
    have moves : manager.after (.allocateInode .inode none ()) = manager' := by
      simp only [InodeManager.after, allocated, finalState]
    have adds : manager.liveAfter [] (.allocateInode .inode none ()) =
        [(manager.nodeNr, node)] := by
      simp only [InodeManager.liveAfter, allocated, fid]
    refine ⟨within_of_length_le (Nat.zero_le 1), nofun, ?_⟩
    rw [moves, adds]
    have live : manager.nodeNr ∈ [(manager.nodeNr, node)].map Prod.fst := List.mem_singleton_self _
    obtain ⟨page, manager'', freed, nodeNr', tracks''⟩ := tracks'.freeInode live
    have moves' : manager'.after (.freeInode manager.nodeNr) = manager'' := by
      simp only [InodeManager.after, freed, finalState]
    have drops : without [(manager.nodeNr, node)] manager.nodeNr = [] := by
      simp [without]
    refine ⟨within_of_length_le (Nat.le_refl 1), ?_, ?_⟩
    · intro nid same
      cases same
      exact live
    · rw [moves']
      rw [drops] at tracks''
      show manager''.Proper (without [(manager.nodeNr, node)] manager.nodeNr) _
      rw [drops, ← nodeNr, ← nodeNr']
      exact ih tracks'' (by omega)

/-- An empty node table over cleared memory. -/
def emptyNodeTable : InodeManager Unit :=
  .create (fun _ => none)
    (fun _ => { nodeType := .free, fid := 0, dataPage := (), parent := none })
    (fun _ => { isNode := false, inode := none, data := none, dirty := false })

/-- Creating and deleting one node over and over uses the ids up. -/
theorem nodeTable_runs_out :
    emptyNodeTable.Proper [] (churn 1 (maxNodeNum * 2 - 1)) ∧
      ¬emptyNodeTable.Exact [] [] (churn 1 (maxNodeNum * 2 - 1)) := by
  have tracks : emptyNodeTable.Tracks [] [] := InodeManager.tracks_create _ _ _
  have start : emptyNodeTable.nodeNr = 1 := rfl
  have positive : 0 < maxNodeNum := by decide
  have proper := proper_churn (maxNodeNum * 2 - 1) tracks (by omega)
  rw [start] at proper
  refine ⟨proper, ?_⟩
  rw [tracks.exact_iff _ proper, countP_churn, start]
  omega

/-- A run of three creations and deletions. -/
theorem nodeTable_exact_iff_three : emptyNodeTable.Exact [] [] (churn 1 3) := by
  apply (nodeTable_exact_iff _ _ _ (churn 1 3) ?_).mpr
  · rw [countP_churn]
    decide
  · exact proper_churn 3 (InodeManager.tracks_create _ _ _) (by decide)

end FsChecking.PerfSim
