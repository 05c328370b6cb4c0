import FsChecking.F2fs.FsckSound
import FsChecking.F2fs.FsckBounds

/-!
# The path that the check tracks

`fsck` keeps the name of the file that it is checking in `path`. The root starts as the name `\`,
and every directory, the root too, appends a `\` behind its own name, so the names of the files in
the root start with two of them. The walk is run here with an observer that compares the buffer with
the name of the node whenever an inode is started.
-/

namespace FsChecking.F2fs

open Lib

/-! ## Names and the observer -/

/-- The type of the block that stores a node. -/
def Role.blockType : Role → BlockType
  | .inode => .inode
  | .index _ => .index

/-- The blocks of reached nodes were written and say what they are. -/
structure WellStored (fs : Fs) : Prop where
  /-- The ids of nodes are inside the NAT. -/
  inside : ∀ {nid role}, Reached fs nid role → nid < nodeNr
  /-- The block of a node. -/
  node : ∀ {nid role}, Reached fs nid role → ∃ data, fs.blockAt (fs.nat.nat nid) = some data ∧
    data.blockType = role.blockType ∧ data.node.nid = nid
  /-- An inode is its own inode. -/
  inode : ∀ {nid}, Reached fs nid .inode → (fs.nodeAt nid).ino = nid
  /-- The block of an entry of a directory. -/
  dentry : ∀ {nid entry}, Reached fs nid (.index .dir) → entry < indexSize →
    (fs.nodeAt nid).index.index entry ≠ invalidBlk →
    ∃ data, fs.blockAt ((fs.nodeAt nid).index.index entry) = some data ∧ data.blockType = .dentry
  /-- The root is a directory. -/
  root : (fs.nodeAt rootFid).inode.fileType = .dir

/-- The name in a dentry. -/
def DentryBlock.name (block : DentryBlock) (slot : Nat) : List Char :=
  (List.range (block.dentries slot).nameLen).map fun place =>
    block.filenames (slot * fnSlotLen + place)

/-- The length of the name in a dentry. -/
theorem DentryBlock.length_name (block : DentryBlock) (slot : Nat) :
    (block.name slot).length = (block.dentries slot).nameLen := by
  rw [DentryBlock.name, List.length_map, List.length_range]

/-- A character of the name in a dentry. -/
theorem DentryBlock.getElem_name (block : DentryBlock) (slot place : Nat)
    (inside : place < (block.name slot).length) :
    (block.name slot)[place] = block.filenames (slot * fnSlotLen + place) := by
  simp only [DentryBlock.name, List.getElem_map, List.getElem_range]

/-- The full path name of a file in a directory. -/
def joinPath (dir name : List Char) : List Char :=
  (if dir = ['\\'] then dir else dir ++ ['\\']) ++ name

/-- The full path names of the files and directories of a mounted file system. -/
inductive FullPath (fs : Fs) : Nat → List Char → Prop where
  /-- The root directory. -/
  | root : FullPath fs rootFid ['\\']
  /-- A file in a directory. -/
  | dentry {dir slot entry place : Nat} {path : List Char} (parent : FullPath fs dir path)
      (isDir : (fs.nodeAt dir).inode.fileType = .dir) (inside : slot < indexTableSize)
      (valid : (fs.nodeAt dir).inode.index slot ≠ invalidBlk) (small : entry < indexSize)
      (mapped : (fs.nodeAt ((fs.nodeAt dir).inode.index slot)).index.index entry ≠ invalidBlk)
      (fits : place < dentryPerBlock)
      (used : ((fs.dentryAt
        ((fs.nodeAt ((fs.nodeAt dir).inode.index slot)).index.index entry)).dentries place).ino ≠
        invalidBlk) :
      FullPath fs
        ((fs.dentryAt
          ((fs.nodeAt ((fs.nodeAt dir).inode.index slot)).index.index entry)).dentries place).ino
        (joinPath path ((fs.dentryAt
          ((fs.nodeAt ((fs.nodeAt dir).inode.index slot)).index.index entry)).name place))

/-- The path buffer holds a name and a terminator. -/
def Fsck.Holds (fsck : Fsck) (name : List Char) : Prop :=
  (∀ place (inside : place < name.length), fsck.path place = name[place]) ∧
    fsck.path name.length = Char.ofNat 0

/-- The path buffer holds the full path name of a node. -/
def HoldsPath (m : Fs) (fsck : Fsck) (nid : Nat) : Prop :=
  ∃ name, FullPath m nid name ∧ fsck.Holds name

open Classical in
/-- A call that starts a node, with an observer: it stops when an inode is started and the buffer
does not hold its name. -/
noncomputable def watchNode (m : Fs) (chkNode : Nat → FileType → BlockType → CheckM Nat)
    (nid : Nat) (fileType : FileType) (blockType : BlockType) : CheckM Nat := do
  let check ← get
  throwIf (blockType = .inode ∧ ¬ HoldsPath m check.fsck nid) .undefined
  chkNode nid fileType blockType

/-- `fsck_chk_node_blk` with the observer at every call. -/
noncomputable def watchedNodeBlk (m : Fs) : Nat → Nat → FileType → BlockType → CheckM Nat
  | 0 => fun _ _ _ => throw .undefined
  | depth + 1 => watchNode m (chkNodeBlk (watchedNodeBlk m depth))

/-- The walk of the check over a mounted file system never leaves the path buffer, copies every name
whole, and starts every inode with its full path name in the buffer. -/
def PathTracked (m : Fs) (fix : Bool) : Prop :=
  ∀ check, watchedNodeBlk m (nodeNr + 1) rootFid .dir .inode { fs := m, fsck := .start fix } ≠
    .error .undefined check

/-- No entry of an index node has a dentry in use. -/
def EntryEmpty (m : Fs) (nid entry : Nat) : Prop :=
  (m.nodeAt nid).index.index entry ≠ invalidBlk → ∀ slot < dentryPerBlock,
    ((m.dentryAt ((m.nodeAt nid).index.index entry)).dentries slot).ino = invalidBlk

/-- The index node in a slot of the root has no dentry in use. -/
def SlotEmpty (m : Fs) (slot : Nat) : Prop :=
  (m.nodeAt rootFid).inode.index slot ≠ invalidBlk → ∀ entry < indexSize,
    EntryEmpty m ((m.nodeAt rootFid).inode.index slot) entry

/-- The root directory has no file. -/
def RootEmpty (m : Fs) : Prop := ∀ slot < indexTableSize, SlotEmpty m slot

/-! ## Names of the files in the root -/

section Names

variable {m : Fs}

/-- A node of consistent metadata has only one place. -/
theorem Consistent.place_eq (consistent : Consistent m) (stored : WellStored m) {nid : Nat}
    {role : Role} {place other : Place} (reached : Reached m nid role)
    (refers : Refers m place nid) (refers' : Refers m other nid) : place = other := by
  have below := consistent.below (.node reached)
  have allocated : m.nat.nat nid ≠ invalidBlk := by
    have small : mainBlkNr < invalidBlk := by decide
    omega
  obtain ⟨only, -, unique⟩ := consistent.node nid (stored.inside reached) allocated
  exact (unique place refers).trans (unique other refers').symm

/-- Directories are reached. -/
theorem FullPath.reached {nid : Nat} {path : List Char} (full : FullPath m nid path) :
    Reached m nid .inode := by
  induction full with
  | root => exact .root
  | dentry parent isDir inside valid small mapped fits used ih =>
    have node := Reached.slot ih inside valid
    rw [isDir] at node
    exact .dentry node small mapped fits used

/-- The root has one name. -/
theorem FullPath.of_root (consistent : Consistent m) (stored : WellStored m) {nid : Nat}
    {path : List Char} (full : FullPath m nid path) (same : nid = rootFid) : path = ['\\'] := by
  cases full with
  | root => rfl
  | dentry parent isDir inside valid small mapped fits used =>
    have node := Reached.slot parent.reached inside valid
    rw [isDir] at node
    have refers := Refers.dentry node small mapped fits used
    rw [same] at refers
    exact nomatch consistent.place_eq stored .root .root refers

/-- A file in the root has one name. -/
theorem FullPath.of_rootDentry (consistent : Consistent m) (stored : WellStored m)
    {slot entry place nid : Nat} {path : List Char} (inside : slot < indexTableSize)
    (valid : (m.nodeAt rootFid).inode.index slot ≠ invalidBlk) (small : entry < indexSize)
    (mapped : (m.nodeAt ((m.nodeAt rootFid).inode.index slot)).index.index entry ≠ invalidBlk)
    (fits : place < dentryPerBlock)
    (used : ((m.dentryAt
      ((m.nodeAt ((m.nodeAt rootFid).inode.index slot)).index.index entry)).dentries place).ino ≠
      invalidBlk)
    (full : FullPath m nid path)
    (same : nid = ((m.dentryAt
      ((m.nodeAt ((m.nodeAt rootFid).inode.index slot)).index.index entry)).dentries place).ino) :
    path = '\\' :: (m.dentryAt
      ((m.nodeAt ((m.nodeAt rootFid).inode.index slot)).index.index entry)).name place := by
  have node := Reached.slot .root inside valid
  rw [stored.root] at node
  have refers := Refers.dentry node small mapped fits used
  rw [← same] at refers
  cases full with
  | root => exact nomatch consistent.place_eq stored .root .root refers
  | @dentry dir slot' entry' place' path parent isDir inside' valid' small' mapped' fits' used' =>
    have node' := Reached.slot parent.reached inside' valid'
    rw [isDir] at node'
    have reached := Reached.dentry node' small' mapped' fits' used'
    have places := consistent.place_eq stored reached (.dentry node' small' mapped' fits' used')
      refers
    rw [Place.dentry.injEq] at places
    obtain ⟨nodes, entries, slots⟩ := places
    have index := Refers.slot parent.reached inside' valid'
    rw [nodes] at index
    have slots' := consistent.place_eq stored node index (.slot .root inside valid)
    rw [Place.slot.injEq] at slots'
    obtain ⟨rfl, rfl⟩ := slots'
    subst entries slots
    rw [parent.of_root consistent stored rfl, joinPath, if_pos rfl, List.singleton_append]

end Names

/-! ## Parts of the walk before the first file -/

section Parts

variable {m : Fs} {α β : Type} {held : Nat}

/-- A check in which only pages and the record have changed since mounting, with some free pages. -/
structure Ready (m : Fs) (held : Nat) (free : List Nat) (check : Check) : Prop where
  /-- Only pages change. -/
  frame : check.fs = { m with pages := check.fs.pages }
  /-- The free pages. -/
  pool : FreePages check.fs.pages free
  /-- There are enough of them. -/
  enough : held ≤ free.length

/-- A part of the walk either returns, with its pages given back, or has come to a file in the root
and then the path is lost. -/
structure Part (m : Fs) (held : Nat) (pre : Fsck → Prop) (program : CheckM α)
    (post : α → Fsck → Prop) : Prop where
  /-- What a run does. -/
  run : ∀ check free, Ready m held free check → pre check.fsck →
    Outcome
      (fun value after => Ready m held free after ∧ Kept free check after ∧ post value after.fsck)
      (fun fault _ => fault = .undefined ∧ ¬ RootEmpty m) (program check)

namespace Part

variable {pre : Fsck → Prop} {post : α → Fsck → Prop}

/-- A step that returns and only changes the record. -/
theorem quiet {program : CheckM α}
    (run : ∀ check, check.fs = { m with pages := check.fs.pages } → pre check.fsck →
      ∃ value fsck, program check = .ok value { check with fsck } ∧
        (∀ nid, check.fsck.nodeMap nid = true → fsck.nodeMap nid = true) ∧ post value fsck) :
    Part m held pre program post := by
  refine ⟨fun check free ready holds => ?_⟩
  obtain ⟨value, fsck, done, grown, reached⟩ := run check ready.frame holds
  rw [done]
  exact ⟨⟨ready.frame, ready.pool, ready.enough⟩, ⟨ready.pool, fun _ _ => rfl, rfl, grown⟩, reached⟩

/-- Returning a value. -/
theorem pure {value : α} (holds : ∀ fsck, pre fsck → post value fsck) :
    Part m held pre (Pure.pure value) post :=
  quiet fun check _ before => ⟨value, check.fsck, rfl, fun _ marked => marked,
    holds check.fsck before⟩

/-- Sequencing. -/
theorem bind {first : CheckM α} {next : α → CheckM β} {middle : α → Fsck → Prop}
    {post : β → Fsck → Prop} (left : Part m held pre first middle)
    (right : ∀ value, Part m held (middle value) (next value) post) :
    Part m held pre (first >>= next) post := by
  refine ⟨fun check free ready holds => ?_⟩
  have done := left.run check free ready holds
  rw [bind_apply]
  cases run : first check with
  | ok value check' =>
    rw [run] at done
    obtain ⟨ready', kept, reached⟩ := done
    have done' := (right value).run check' free ready' reached
    dsimp only
    cases run' : next value check' with
    | ok value' after =>
      rw [run'] at done'
      obtain ⟨ready'', kept', reached'⟩ := done'
      exact ⟨ready'', ⟨kept'.pool, fun page used => (kept'.used page used).trans (kept.used page used),
        kept'.storage.trans kept.storage, fun nid marked => kept'.grown nid (kept.grown nid marked)⟩,
        reached'⟩
    | error fault after =>
      rw [run'] at done'
      exact done'
  | error fault after =>
    rw [run] at done
    exact done

/-- Relying on more, promising less. -/
theorem conseq {program : CheckM α} {pre' : Fsck → Prop} {post' : α → Fsck → Prop}
    (part : Part m held pre program post) (before : ∀ fsck, pre' fsck → pre fsck)
    (after : ∀ value fsck, post value fsck → post' value fsck) : Part m held pre' program post' := by
  refine ⟨fun check free ready holds => ?_⟩
  have done := part.run check free ready (before _ holds)
  cases run : program check with
  | ok value check' =>
    rw [run] at done
    obtain ⟨ready', kept, reached⟩ := done
    exact ⟨ready', kept, after _ _ reached⟩
  | error fault check' =>
    rw [run] at done
    exact done

/-- A part that relies on a fact. -/
theorem assume {program : CheckM α} {fact : Prop}
    (part : fact → Part m held pre program post) :
    Part m held (fun fsck => pre fsck ∧ fact) program post :=
  ⟨fun check free ready holds => (part holds.2).run check free ready holds.1⟩

/-- A check that does not throw. -/
theorem guard {wrong : Prop} [Decidable wrong] {fault : Fault} (right : ¬ wrong) {next : CheckM α}
    (part : Part m held pre next post) :
    Part m held pre (throwIf wrong fault >>= fun _ => next) post := by
  refine ⟨fun check free ready holds => ?_⟩
  rw [throwIf_bind_of_not right]
  exact part.run check free ready holds

/-- A program that is skipped. -/
theorem skip {cond : Prop} [Decidable cond] (off : ¬ cond) {program : CheckM PUnit}
    {next : CheckM α} (part : Part m held pre next post) :
    Part m held pre (doIf cond program >>= fun _ => next) post := by
  refine ⟨fun check free ready holds => ?_⟩
  rw [doIf_bind_of_not off]
  exact part.run check free ready holds

/-- Reading the state. -/
theorem read {next : Check → CheckM α}
    (part : ∀ check, check.fs = { m with pages := check.fs.pages } → pre check.fsck →
      Part m held pre (next check) post) :
    Part m held pre (get >>= next) post := by
  refine ⟨fun check free ready holds => ?_⟩
  rw [get_bind_apply]
  exact (part check ready.frame holds).run check free ready holds

/-- A loop over the first numbers that threads a value. -/
theorem foldlM_range {body : α → Nat → CheckM α} {invariant : Nat → α → Fsck → Prop} {number : Nat}
    (each : ∀ index < number, ∀ value, Part m held (invariant index value) (body value index)
      (invariant (index + 1))) (start : α) :
    Part m held (invariant 0 start) ((List.range number).foldlM body start) (invariant number) := by
  induction number with
  | zero => exact pure fun _ holds => holds
  | succ number ih =>
    rw [List.range_succ, List.foldlM_append]
    refine bind (ih fun index inside => each index (Nat.lt_succ_of_lt inside)) fun value => ?_
    rw [List.foldlM_cons]
    exact bind (each number (Nat.lt_succ_self number) value) fun result => pure fun _ holds => holds

/-- A loop over the first numbers. -/
theorem forM_range {body : Nat → CheckM PUnit} {invariant : Nat → Fsck → Prop} {number : Nat}
    (each : ∀ index < number, Part m held (invariant index) (body index)
      fun _ => invariant (index + 1)) :
    Part m held (invariant 0) ((List.range number).forM body) fun _ => invariant number := by
  induction number with
  | zero => exact pure fun _ holds => holds
  | succ number ih =>
    rw [List.range_succ]
    show Part m held _ (ForM.forM (List.range number ++ [number]) body) _
    rw [List.forM_append]
    refine bind (ih fun index inside => each index (Nat.lt_succ_of_lt inside)) fun _ => ?_
    exact bind (each number (Nat.lt_succ_self number)) fun _ => pure fun _ holds => holds

/-- A part that takes a page, reads a written block into it, works with it and gives it back. -/
theorem withPage {blk : Nat} {data : BlockData} (body : Nat → BlockData → CheckM α)
    (found : m.blockAt blk = some data)
    (part : ∀ page, Part m held pre (body page data) post) :
    Part m (held + 1) pre
      (do
        let page ← fsLens.zoom (pagesLens.zoom allocate)
        fsLens.zoom (readInto (phyblkToLba blk) page)
        let data ← fsLens.zoom (getData page)
        let value ← body page data
        fsLens.zoom (pagesLens.zoom (free page))
        return value) post := by
  refine ⟨fun check free ready holds => ?_⟩
  have enough := ready.enough
  obtain ⟨page, rest, rfl⟩ := List.exists_cons_of_length_pos (by omega : 0 < free.length)
  obtain ⟨rfl, -⟩ := ready.pool.head
  have stored : storedAt check.fs.storage (phyblkToLba blk) = some data := by
    rw [ready.frame]
    exact found
  rw [bind_apply, allocate_withPages ready.pool]
  dsimp only
  rw [bind_apply, read_withPages stored]
  dsimp only
  rw [bind_apply, getData_withPages]
  dsimp only
  have inner : Ready m held rest (check.withPages (check.fs.pages.takeInto data)) := by
    refine ⟨?_, ready.pool.takeInto data, ?_⟩
    · show { check.fs with pages := check.fs.pages.takeInto data } = _
      rw [ready.frame]
      rfl
    · rw [List.length_cons] at enough
      omega
  have done := (part check.fs.pages.freePtr).run _ rest inner holds
  rw [bind_apply]
  cases run : body check.fs.pages.freePtr data
      (check.withPages (check.fs.pages.takeInto data)) with
  | ok value after =>
    rw [run] at done
    obtain ⟨ready', kept, reached⟩ := done
    obtain ⟨released, kept'⟩ := Kept.release ready.pool kept
    dsimp only
    rw [bind_apply, released]
    refine ⟨⟨?_, kept'.pool, ready.enough⟩, kept', reached⟩
    show { after.fs with pages := after.fs.pages.release check.fs.pages.freePtr } = _
    rw [ready'.frame]
    rfl
  | error fault after =>
    rw [run] at done
    exact done

end Part

end Parts

/-! ## Marks of consistent metadata -/

section Marks

variable {m : Fs}

/-- The marks name only nodes and blocks that were visited. -/
structure Tracked (m : Fs) (nodes : Nat → Prop) (blocks : Nat → Nat → Prop) (fsck : Fsck) : Prop where
  /-- The marked nodes. -/
  nodeMap : ∀ nid, fsck.nodeMap nid = true → nodes nid
  /-- The marked blocks. -/
  mainAreaMap : ∀ blk, fsck.mainAreaMap blk = true →
    ∃ nid offset, Owns m blk nid offset ∧ blocks nid offset

/-- More may be visited. -/
theorem Tracked.mono {nodes nodes' : Nat → Prop} {blocks blocks' : Nat → Nat → Prop} {fsck : Fsck}
    (tracked : Tracked m nodes blocks fsck) (more : ∀ nid, nodes nid → nodes' nid)
    (more' : ∀ nid offset, blocks nid offset → blocks' nid offset) :
    Tracked m nodes' blocks' fsck where
  nodeMap nid marked := more nid (tracked.nodeMap nid marked)
  mainAreaMap blk marked := by
    obtain ⟨nid, offset, owns, visited⟩ := tracked.mainAreaMap blk marked
    exact ⟨nid, offset, owns, more' nid offset visited⟩

/-- The record with one more node marked. -/
def Fsck.markNode (fsck : Fsck) (nid : Nat) : Fsck :=
  { fsck with nodeMap := Function.update fsck.nodeMap nid true }

/-- The record with one more block marked. -/
def Fsck.markBlk (fsck : Fsck) (blk : Nat) : Fsck :=
  { fsck with mainAreaMap := Function.update fsck.mainAreaMap blk true }

/-- Marked nodes stay marked. -/
theorem Fsck.grown_markNode (fsck : Fsck) (nid other : Nat) (marked : fsck.nodeMap other = true) :
    (fsck.markNode nid).nodeMap other = true := by
  by_cases here : other = nid
  · rw [here]
    exact Function.update_self ..
  · exact (Function.update_of_ne here ..).trans marked

/-- One more node is visited. -/
theorem Tracked.markNode {nodes : Nat → Prop} {blocks : Nat → Nat → Prop} {fsck : Fsck}
    (tracked : Tracked m nodes blocks fsck) {nodes' : Nat → Prop} {nid : Nat} (here : nodes' nid)
    (more : ∀ other, nodes other → nodes' other) : Tracked m nodes' blocks (fsck.markNode nid) where
  nodeMap other marked := by
    by_cases same : other = nid
    · exact same ▸ here
    · refine more other (tracked.nodeMap other ?_)
      exact (Function.update_of_ne same ..).symm.trans marked
  mainAreaMap := tracked.mainAreaMap

/-- One more block is visited. -/
theorem Tracked.markBlk {nodes : Nat → Prop} {blocks : Nat → Nat → Prop} {fsck : Fsck}
    (tracked : Tracked m nodes blocks fsck) {blocks' : Nat → Nat → Prop} {blk nid offset : Nat}
    (owns : Owns m blk nid offset) (here : blocks' nid offset)
    (more : ∀ nid offset, blocks nid offset → blocks' nid offset) :
    Tracked m nodes blocks' (fsck.markBlk blk) where
  nodeMap := tracked.nodeMap
  mainAreaMap other marked := by
    by_cases same : other = blk
    · exact ⟨nid, offset, same ▸ owns, here⟩
    · have before : fsck.mainAreaMap other = true :=
        (Function.update_of_ne same ..).symm.trans marked
      obtain ⟨nid', offset', owns', visited⟩ := tracked.mainAreaMap other before
      exact ⟨nid', offset', owns', more nid' offset' visited⟩

/-- A block whose owner was not visited is not marked. -/
theorem Tracked.unmarked {nodes : Nat → Prop} {blocks : Nat → Nat → Prop} {fsck : Fsck}
    (tracked : Tracked m nodes blocks fsck) (consistent : Consistent m) {blk nid offset : Nat}
    (owns : Owns m blk nid offset) (fresh : ¬ blocks nid offset) : ¬ fsck.mainAreaMap blk = true := by
  intro marked
  obtain ⟨nid', offset', owns', visited⟩ := tracked.mainAreaMap blk marked
  obtain ⟨rfl, rfl⟩ := consistent.distinct owns owns'
  exact fresh visited

/-- The summary of an owned block is right. -/
theorem chkSummary_of_owns (consistent : Consistent m) {check : Check}
    (frame : check.fs = { m with pages := check.fs.pages }) {blk nid offset : Nat}
    (owns : Owns m blk nid offset) (message : String) (subject : List Nat) :
    chkSummary message subject nid offset blk check = .ok ⟨⟩ check := by
  have segments : check.fs.segments = m.segments := by rw [frame]
  have valid := consistent.valid owns
  have summary := consistent.summary owns
  have named : check.fs.segments.getBlockInfo blk = { nid, offset } := by
    rw [segments]
    unfold SegmentManager.getBlockInfo
    dsimp only
    rw [valid, summary.1, summary.2]
    rfl
  rw [chkSummary, get_bind_apply, named]
  unfold doIf
  rw [if_neg (by simp)]
  rfl

/-- The address checks of a node that was not visited succeed. -/
theorem chkNodeAddress_of_fresh (consistent : Consistent m) (stored : WellStored m) {check : Check}
    (frame : check.fs = { m with pages := check.fs.pages }) {nodes : Nat → Prop}
    {blocks : Nat → Nat → Prop} (tracked : Tracked m nodes blocks check.fsck) {nid : Nat} {role : Role}
    (reached : Reached m nid role) (fresh : ¬ nodes nid) (fresh' : ¬ blocks nid invalidBlk) :
    chkNodeAddress nid check =
      .ok (m.nat.nat nid) { check with fsck := check.fsck.markNode nid } := by
  have owns := Owns.node reached
  have table : check.fs.nat = m.nat := by rw [frame]
  have segments : check.fs.segments = m.segments := by rw [frame]
  have inside := consistent.below owns
  have valid := consistent.valid owns
  have marked : ({ check with fsck := check.fsck.markNode nid } : Check).fs =
      { m with pages := check.fs.pages } := frame
  have compared := chkSummary_of_owns consistent marked owns
    "nid [%d], block=%d in ssa does not match, ssa.nid=%d, ssa.offset=%d" [nid]
  unfold Fsck.markNode at compared
  unfold chkNodeAddress setNodeBitmap modifyFsck
  rw [throwIf_bind_of_not (Nat.not_le.mpr (stored.inside reached)), get_bind_apply,
    throwIf_bind_of_not fun marked => fresh (tracked.nodeMap nid marked), modify_bind_apply,
    get_bind_apply]
  dsimp only
  rw [table, segments, throwIf_bind_of_not (Nat.not_le.mpr inside),
    throwIf_bind_of_not (tracked.unmarked consistent owns fresh'),
    throwIf_bind_of_not (by rw [valid]; exact Bool.noConfusion), bind_apply, compared]
  rfl

end Marks

/-! ## The first file -/

section FirstFile

variable {m : Fs} {chkNode : Nat → FileType → BlockType → CheckM Nat}

/-- The cursor stands behind the two backslashes of the root. -/
structure Fsck.AtRoot (fsck : Fsck) : Prop where
  /-- The cursor. -/
  pathPtr : fsck.pathPtr = 2
  /-- The second backslash. -/
  path : fsck.path 1 = '\\'

/-- The observer stops. -/
theorem watchNode_of_lost {check : Check} {nid : Nat} {fileType : FileType}
    (lost : ¬ HoldsPath m check.fsck nid) :
    watchNode m chkNode nid fileType .inode check = .error .undefined check := by
  rw [watchNode, get_bind_apply]
  unfold throwIf
  rw [if_pos ⟨rfl, lost⟩]
  rfl

/-- The observer lets the call pass. -/
theorem watchNode_of_held {check : Check} {nid : Nat} {fileType : FileType} {blockType : BlockType}
    (held : blockType = .inode → HoldsPath m check.fsck nid) :
    watchNode m chkNode nid fileType blockType check = chkNode nid fileType blockType check := by
  rw [watchNode, get_bind_apply]
  unfold throwIf
  rw [if_neg fun wrong => wrong.2 (held wrong.1)]
  rfl

/-- The observer lets index nodes pass. -/
theorem watchNode_of_index {check : Check} {nid : Nat} {fileType : FileType} :
    watchNode m chkNode nid fileType .index check = chkNode nid fileType .index check :=
  watchNode_of_held nofun

/-- A name copied behind two backslashes is not the name behind one. -/
theorem Fsck.not_holds_of_shifted {fsck : Fsck} {name : List Char} (start : fsck.path 1 = '\\')
    (copied : ∀ place (inside : place < name.length), fsck.path (2 + place) = name[place]) :
    ¬ fsck.Holds ('\\' :: name) := by
  rintro ⟨same, ended⟩
  have all : ∀ place, place ≤ name.length → fsck.path (place + 1) = '\\' := by
    intro place
    induction place with
    | zero => exact fun _ => start
    | succ place ih =>
      intro inside
      have before : fsck.path (place + 1) = name[place] :=
        same (place + 1) (Nat.succ_lt_succ inside)
      rw [Nat.add_assoc, Nat.add_comm place 2, copied place inside, ← before]
      exact ih (Nat.le_of_succ_le inside)
  rw [List.length_cons, all name.length le_rfl] at ended
  exact absurd ended (by decide)

/-- A name that was appended is followed by a terminator. -/
theorem appendName_cases {check : Check} (block : DentryBlock) (index : Nat) :
    appendName block index check = .error .undefined (finalState (appendName block index check)) ∨
      ∃ fsck, appendName block index check = .ok ⟨⟩ { check with fsck } ∧
        (∀ place < check.fsck.pathPtr, fsck.path place = check.fsck.path place) ∧
        ∀ place (inside : place < (block.name index).length),
          fsck.path (check.fsck.pathPtr + place) = (block.name index)[place] := by
  have length := block.length_name index
  unfold appendName pokePath modifyFsck
  rw [get_bind_apply]
  by_cases full : check.fsck.pathPtr + (block.dentries index).nameLen > maxPathSize
  · rw [throwIf_bind_of full]
    exact Or.inl rfl
  · rw [throwIf_bind_of_not full, modify_bind_apply, get_bind_apply]
    by_cases ended : check.fsck.pathPtr + (block.dentries index).nameLen ≥ maxPathSize
    · rw [throwIf_bind_of ended]
      exact Or.inl rfl
    · rw [throwIf_bind_of_not ended]
      refine Or.inr ⟨_, rfl, fun place before => ?_, fun place inside => ?_⟩
      · dsimp only
        rw [Function.update_of_ne (by omega), if_neg (by omega)]
      · dsimp only
        rw [Function.update_of_ne (by omega), if_pos (by omega), block.getElem_name]
        congr 1
        omega

/-- At the first file in the root the path is lost: it does not fit into the buffer, or the buffer
does not hold it. -/
theorem chkDentry_lost (consistent : Consistent m) (stored : WellStored m) {check : Check}
    (root : check.fsck.AtRoot) {slot entry place : Nat} (inside : slot < indexTableSize)
    (valid : (m.nodeAt rootFid).inode.index slot ≠ invalidBlk) (small : entry < indexSize)
    (mapped : (m.nodeAt ((m.nodeAt rootFid).inode.index slot)).index.index entry ≠ invalidBlk)
    (fits : place < dentryPerBlock)
    (used : ((m.dentryAt
      ((m.nodeAt ((m.nodeAt rootFid).inode.index slot)).index.index entry)).dentries place).ino ≠
      invalidBlk) :
    ∃ check', chkDentry (watchNode m chkNode) (m.dentryAt
        ((m.nodeAt ((m.nodeAt rootFid).inode.index slot)).index.index entry)) place check =
      .error .undefined check' := by
  generalize same : m.dentryAt
    ((m.nodeAt ((m.nodeAt rootFid).inode.index slot)).index.index entry) = block at used
  unfold chkDentry doIf
  rw [if_pos used, bind_apply]
  cases appendName_cases block place with
  | inl lost =>
    rw [lost]
    exact ⟨_, rfl⟩
  | inr copied =>
    obtain ⟨fsck, done, before, name⟩ := copied
    rw [done]
    rw [root.pathPtr] at before name
    have lost : ¬ HoldsPath m fsck (block.dentries place).ino := by
      rintro ⟨path, full, holds⟩
      subst same
      rw [full.of_rootDentry consistent stored inside valid small mapped fits used rfl] at holds
      exact Fsck.not_holds_of_shifted ((before 1 (by decide)).trans root.path) name holds
    refine ⟨{ check with fsck }, ?_⟩
    dsimp only
    rw [bind_apply, watchNode_of_lost lost]

end FirstFile

/-! ## The root directory up to its first file -/

section Root

variable {m : Fs} {held : Nat}

/-- The root and the index nodes in its first slots. -/
def RootSlots (m : Fs) (number nid : Nat) : Prop :=
  nid = rootFid ∨ ∃ slot < number, (m.nodeAt rootFid).inode.index slot ≠ invalidBlk ∧
    (m.nodeAt rootFid).inode.index slot = nid

/-- The blocks of the root and its first slots, and those of the first entries of the next one. -/
def RootEntries (m : Fs) (slot number nid offset : Nat) : Prop :=
  RootSlots m slot nid ∨
    nid = (m.nodeAt rootFid).inode.index slot ∧ (offset = invalidBlk ∨ offset < number)

/-- The walk has visited the first slots of the root. -/
structure InSlots (m : Fs) (number : Nat) (fsck : Fsck) : Prop where
  /-- The marks. -/
  tracked : Tracked m (RootSlots m number) (fun nid _ => RootSlots m number nid) fsck
  /-- The path. -/
  root : fsck.AtRoot

/-- The walk has visited the first entries of the index node in a slot of the root. -/
structure InEntries (m : Fs) (slot number : Nat) (fsck : Fsck) : Prop where
  /-- The marks. -/
  tracked : Tracked m (RootSlots m (slot + 1)) (RootEntries m slot number) fsck
  /-- The path. -/
  root : fsck.AtRoot

/-- More slots. -/
theorem RootSlots.succ {number nid : Nat} (visited : RootSlots m number nid) :
    RootSlots m (number + 1) nid := by
  refine visited.imp_right ?_
  rintro ⟨slot, inside, valid, same⟩
  exact ⟨slot, Nat.lt_succ_of_lt inside, valid, same⟩

/-- The next slot. -/
theorem RootSlots.self {slot : Nat} (valid : (m.nodeAt rootFid).inode.index slot ≠ invalidBlk) :
    RootSlots m (slot + 1) ((m.nodeAt rootFid).inode.index slot) :=
  Or.inr ⟨slot, Nat.lt_succ_self slot, valid, rfl⟩

/-- The index node in the next slot was not visited. -/
theorem RootSlots.fresh (consistent : Consistent m) (stored : WellStored m) {slot : Nat}
    (inside : slot < indexTableSize)
    (valid : (m.nodeAt rootFid).inode.index slot ≠ invalidBlk) :
    ¬ RootSlots m slot ((m.nodeAt rootFid).inode.index slot) := by
  have reached := Reached.slot .root inside valid
  have refers := Refers.slot .root inside valid
  rintro (root | ⟨other, before, valid', same⟩)
  · rw [root] at refers reached
    exact nomatch consistent.place_eq stored reached .root refers
  · have refers' := Refers.slot .root (before.trans inside) valid'
    rw [same] at refers'
    have places := consistent.place_eq stored reached refers refers'
    rw [Place.slot.injEq] at places
    exact absurd places.2 (Nat.ne_of_gt before)

/-- The first dentries of a block of the root are not in use. -/
structure IdleDentries (m : Fs) (slot entry number : Nat) (fsck : Fsck) : Prop where
  /-- What the walk has visited. -/
  visited : InEntries m slot (entry + 1) fsck
  /-- The dentries. -/
  idle : ∀ other < number, ((m.dentryAt ((m.nodeAt
    ((m.nodeAt rootFid).inode.index slot)).index.index entry)).dentries other).ino = invalidBlk

/-- The dentries of a block of the root. -/
theorem chkDentries_part (consistent : Consistent m) (stored : WellStored m)
    (chkNode : Nat → FileType → BlockType → CheckM Nat) {slot entry : Nat}
    (inside : slot < indexTableSize) (valid : (m.nodeAt rootFid).inode.index slot ≠ invalidBlk)
    (small : entry < indexSize)
    (mapped : (m.nodeAt ((m.nodeAt rootFid).inode.index slot)).index.index entry ≠ invalidBlk) :
    Part m held (InEntries m slot (entry + 1))
      ((List.range dentryPerBlock).forM (chkDentry (watchNode m chkNode) (m.dentryAt
        ((m.nodeAt ((m.nodeAt rootFid).inode.index slot)).index.index entry))))
      fun _ fsck => InEntries m slot (entry + 1) fsck ∧
        EntryEmpty m ((m.nodeAt rootFid).inode.index slot) entry := by
  have each : ∀ place < dentryPerBlock, Part m held (IdleDentries m slot entry place)
      (chkDentry (watchNode m chkNode) (m.dentryAt
        ((m.nodeAt ((m.nodeAt rootFid).inode.index slot)).index.index entry)) place)
      fun _ => IdleDentries m slot entry (place + 1) := by
    intro place fits
    by_cases used : ((m.dentryAt ((m.nodeAt ((m.nodeAt rootFid).inode.index slot)).index.index
        entry)).dentries place).ino ≠ invalidBlk
    · refine ⟨fun check free ready holds => ?_⟩
      obtain ⟨check', lost⟩ := chkDentry_lost consistent stored holds.visited.root inside valid
        small mapped fits used
      rw [lost]
      exact ⟨rfl, fun empty => used (empty slot inside valid entry small mapped place fits)⟩
    · unfold chkDentry doIf
      rw [if_neg used]
      refine .pure fun fsck before => ⟨before.visited, fun other inside' => ?_⟩
      rcases Nat.lt_succ_iff_lt_or_eq.mp inside' with earlier | rfl
      · exact before.idle other earlier
      · exact not_not.mp used
  have loop : Part m held (IdleDentries m slot entry 0) _
      fun _ => IdleDentries m slot entry dentryPerBlock := Part.forM_range each
  refine loop.conseq (fun fsck before => ⟨before, ?_⟩)
    fun _ fsck after => ⟨after.visited, fun _ => after.idle⟩
  exact fun _ inside' => absurd inside' (Nat.not_lt_zero _)

/-- A directory block of the root. -/
theorem chkDentryBlk_part (consistent : Consistent m) (stored : WellStored m)
    (chkNode : Nat → FileType → BlockType → CheckM Nat) {slot entry : Nat}
    (inside : slot < indexTableSize) (valid : (m.nodeAt rootFid).inode.index slot ≠ invalidBlk)
    (small : entry < indexSize)
    (mapped : (m.nodeAt ((m.nodeAt rootFid).inode.index slot)).index.index entry ≠ invalidBlk) :
    Part m (held + 1) (InEntries m slot (entry + 1))
      (chkDentryBlk (watchNode m chkNode) ((m.nodeAt rootFid).inode.index slot) entry
        ((m.nodeAt ((m.nodeAt rootFid).inode.index slot)).index.index entry))
      fun _ fsck => InEntries m slot (entry + 1) fsck ∧
        EntryEmpty m ((m.nodeAt rootFid).inode.index slot) entry := by
  have node := Reached.slot .root inside valid
  rw [stored.root] at node
  obtain ⟨data, found, typed⟩ := stored.dentry node small mapped
  have content : data.dentry = m.dentryAt
      ((m.nodeAt ((m.nodeAt rootFid).inode.index slot)).index.index entry) := by
    rw [Fs.dentryAt, found]
    rfl
  have whole : Part m (held + 1) (InEntries m slot (entry + 1)) _ _ := Part.withPage
    (fun page data => do
      doIf (data.blockType ≠ .dentry) (failFreed page .wrongBlockType
        "data [%d, %d], phy=%d block type (%d) unmatch, expected: BLOCK_DENTRY"
        fun link => [(m.nodeAt rootFid).inode.index slot, entry,
          (m.nodeAt ((m.nodeAt rootFid).inode.index slot)).index.index entry, link])
      (List.range dentryPerBlock).forM (chkDentry (watchNode m chkNode) data.dentry)) found
    fun page => .skip (not_not.mpr typed) (by
      rw [content]
      exact chkDentries_part consistent stored chkNode inside valid small mapped)
  simp only [bind_assoc, bind_pure_unit] at whole
  exact whole

/-- A data block of the root. -/
theorem fsckChkDataBlk_part (consistent : Consistent m) (stored : WellStored m)
    (chkNode : Nat → FileType → BlockType → CheckM Nat) {slot entry : Nat}
    (inside : slot < indexTableSize) (valid : (m.nodeAt rootFid).inode.index slot ≠ invalidBlk)
    (small : entry < indexSize)
    (mapped : (m.nodeAt ((m.nodeAt rootFid).inode.index slot)).index.index entry ≠ invalidBlk) :
    Part m (held + 1) (InEntries m slot entry)
      (fsckChkDataBlk (watchNode m chkNode) ((m.nodeAt rootFid).inode.index slot) entry
        ((m.nodeAt ((m.nodeAt rootFid).inode.index slot)).index.index entry) .dir)
      fun _ fsck => InEntries m slot (entry + 1) fsck ∧
        EntryEmpty m ((m.nodeAt rootFid).inode.index slot) entry := by
  have owns := Owns.entry (.slot .root inside valid) small mapped
  have fresh : ¬ RootEntries m slot entry ((m.nodeAt rootFid).inode.index slot) entry := by
    rintro (before | ⟨-, node | again⟩)
    · exact RootSlots.fresh consistent stored inside valid before
    · have apart : indexSize < invalidBlk := by decide
      omega
    · exact Nat.lt_irrefl entry again
  have dentries : Part m (held + 1) _ _ _ :=
    chkDentryBlk_part consistent stored chkNode inside valid small mapped
  generalize (m.nodeAt ((m.nodeAt rootFid).inode.index slot)).index.index entry = blk
    at owns dentries ⊢
  refine .guard (Nat.not_le.mpr (consistent.below owns)) (.read fun check frame before => ?_)
  refine .guard (before.tracked.unmarked consistent owns fresh) ?_
  have marked : Part m (held + 1) (InEntries m slot entry) (setMainBitmap blk)
      fun _ => InEntries m slot (entry + 1) := .quiet fun check' _ before' =>
    ⟨⟨⟩, check'.fsck.markBlk blk, rfl, fun _ marked => marked,
      before'.tracked.markBlk owns (Or.inr ⟨rfl, Or.inr (Nat.lt_succ_self entry)⟩)
        fun nid offset => Or.imp_right (And.imp_right (Or.imp_right Nat.lt_succ_of_lt)),
      before'.root.pathPtr, before'.root.path⟩
  have compared : ∀ message subject, Part m (held + 1) (InEntries m slot (entry + 1))
      (chkSummary message subject ((m.nodeAt rootFid).inode.index slot) entry blk)
      fun _ => InEntries m slot (entry + 1) := fun message subject =>
    .quiet fun check' frame' before' => ⟨⟨⟩, check'.fsck,
      chkSummary_of_owns consistent frame' owns message subject, fun _ marked => marked, before'⟩
  exact marked.bind fun _ => (compared _ _).bind fun _ => dentries

/-- The first entries of an index node of the root were visited and had no file. -/
structure IdleEntries (m : Fs) (slot number count : Nat) (fsck : Fsck) : Prop where
  /-- What the walk has visited. -/
  visited : InEntries m slot number fsck
  /-- The entries. -/
  idle : ∀ entry < number, EntryEmpty m ((m.nodeAt rootFid).inode.index slot) entry
  /-- The number of mapped entries. -/
  count : count = (List.range number).countP fun entry =>
    (m.nodeAt ((m.nodeAt rootFid).inode.index slot)).index.index entry ≠ invalidBlk

/-- An entry of an index node of the root. -/
theorem chkIndexEntry_part (consistent : Consistent m) (stored : WellStored m)
    (chkNode : Nat → FileType → BlockType → CheckM Nat) {slot entry count : Nat}
    (inside : slot < indexTableSize) (valid : (m.nodeAt rootFid).inode.index slot ≠ invalidBlk)
    (small : entry < indexSize) :
    Part m (held + 1) (IdleEntries m slot entry count)
      (do return count + (← chkIndexEntry (watchNode m chkNode)
        ((m.nodeAt rootFid).inode.index slot) .dir
        (m.nodeAt ((m.nodeAt rootFid).inode.index slot)) entry))
      (IdleEntries m slot (entry + 1)) := by
  have add : (List.range (entry + 1)).countP (fun entry =>
      (m.nodeAt ((m.nodeAt rootFid).inode.index slot)).index.index entry ≠ invalidBlk) =
      (List.range entry).countP (fun entry =>
        (m.nodeAt ((m.nodeAt rootFid).inode.index slot)).index.index entry ≠ invalidBlk) +
      if (m.nodeAt ((m.nodeAt rootFid).inode.index slot)).index.index entry ≠ invalidBlk then 1
      else 0 := by
    rw [List.range_succ, List.countP_append, List.countP_singleton]
    simp only [decide_eq_true_eq]
  unfold chkIndexEntry
  simp only [bind_assoc]
  refine .read fun check frame before => ?_
  by_cases mapped :
      (m.nodeAt ((m.nodeAt rootFid).inode.index slot)).index.index entry ≠ invalidBlk
  · rw [if_pos mapped, before.visited.root.pathPtr]
    simp only [bind_assoc, pure_bind]
    rw [if_pos mapped] at add
    have block : Part m (held + 1) _ _ _ :=
      fsckChkDataBlk_part consistent stored chkNode inside valid small mapped
    have framed : Part m (held + 1) (IdleEntries m slot entry count)
        (fsckChkDataBlk (watchNode m chkNode) ((m.nodeAt rootFid).inode.index slot) entry
          ((m.nodeAt ((m.nodeAt rootFid).inode.index slot)).index.index entry) .dir)
        fun _ => IdleEntries m slot (entry + 1) (count + 1) := by
      refine block.conseq (fun _ before => before.visited) fun _ fsck after => ?_
      refine ⟨after.1, fun other inside' => ?_, ?_⟩
      · rcases Nat.lt_succ_iff_lt_or_eq.mp inside' with earlier | rfl
        · exact before.idle other earlier
        · exact after.2
      · rw [add, before.count]
    have restored : Part m (held + 1) (IdleEntries m slot (entry + 1) (count + 1)) (setPathPtr 2)
        fun _ => IdleEntries m slot (entry + 1) (count + 1) := .quiet fun check' _ after =>
      ⟨⟨⟩, { check'.fsck with pathPtr := 2 }, rfl, fun _ marked => marked,
        ⟨⟨after.visited.tracked.nodeMap, after.visited.tracked.mainAreaMap⟩, rfl,
          after.visited.root.path⟩, after.idle, after.count⟩
    exact framed.bind fun _ => restored.bind fun _ => .pure fun _ after => after
  · rw [if_neg mapped]
    rw [if_neg mapped] at add
    simp only [pure_bind]
    refine .pure fun fsck before => ⟨⟨before.visited.tracked.mono (fun _ visited => visited)
      fun nid offset => Or.imp_right (And.imp_right (Or.imp_right Nat.lt_succ_of_lt)),
      before.visited.root⟩, fun other inside' => ?_, ?_⟩
    · rcases Nat.lt_succ_iff_lt_or_eq.mp inside' with earlier | rfl
      · exact before.idle other earlier
      · exact fun mapped' => absurd mapped' mapped
    · rw [add, before.count]

/-- The content of an index node of the root. -/
theorem fsckChkIndexBlk_part (consistent : Consistent m) (stored : WellStored m)
    (chkNode : Nat → FileType → BlockType → CheckM Nat) {slot : Nat}
    (inside : slot < indexTableSize)
    (valid : (m.nodeAt rootFid).inode.index slot ≠ invalidBlk) :
    Part m (held + 1)
      (fun fsck => Tracked m (RootSlots m (slot + 1)) (fun nid _ => RootSlots m slot nid) fsck ∧
        fsck.AtRoot)
      (fsckChkIndexBlk (watchNode m chkNode) ((m.nodeAt rootFid).inode.index slot)
        (m.nat.nat ((m.nodeAt rootFid).inode.index slot)) .dir
        (m.nodeAt ((m.nodeAt rootFid).inode.index slot)))
      fun count fsck => InSlots m (slot + 1) fsck ∧ SlotEmpty m slot ∧
        count = mappedEntries (m.nodeAt ((m.nodeAt rootFid).inode.index slot)) := by
  have reached := Reached.slot .root inside valid
  have marked : Part m (held + 1)
      (fun fsck => Tracked m (RootSlots m (slot + 1)) (fun nid _ => RootSlots m slot nid) fsck ∧
        fsck.AtRoot)
      (setMainBitmap (m.nat.nat ((m.nodeAt rootFid).inode.index slot)))
      fun _ => IdleEntries m slot 0 0 := .quiet fun check _ before =>
    ⟨⟨⟩, check.fsck.markBlk _, rfl, fun _ marked => marked,
      ⟨before.1.markBlk (.node reached) (Or.inr ⟨rfl, Or.inl rfl⟩) fun _ _ => Or.inl,
        before.2.pathPtr, before.2.path⟩,
      fun _ inside' => absurd inside' (Nat.not_lt_zero _), rfl⟩
  have entries : Part m (held + 1) (IdleEntries m slot 0 0) _ (IdleEntries m slot indexSize) :=
    Part.foldlM_range (fun entry small count =>
      chkIndexEntry_part consistent stored chkNode inside valid small) 0
  refine marked.bind fun _ => entries.bind fun count => ?_
  have counted : Part m (held + 1) (IdleEntries m slot indexSize count)
      (throwIf ((m.nodeAt ((m.nodeAt rootFid).inode.index slot)).index.validData ≠ count)
          (.fs .invalidNid
            "nid [%d] valid data in node (%d) does not match data number (%d) "
            [(m.nodeAt rootFid).inode.index slot,
              (m.nodeAt ((m.nodeAt rootFid).inode.index slot)).index.validData, count]) >>=
        fun _ => pure count)
      fun count => IdleEntries m slot indexSize count := by
    refine (Part.assume fun same => .guard (not_not.mpr same)
      (.pure fun fsck after => after)).conseq (fun fsck after => ⟨after, ?_⟩)
      fun _ _ after => after
    rw [consistent.validData reached, after.count]
    rfl
  refine counted.conseq (fun _ before => before) fun value fsck after => ⟨⟨?_, after.visited.root⟩,
    fun _ => after.idle, after.count⟩
  refine after.visited.tracked.mono (fun _ visited => visited) fun nid offset => ?_
  rintro (before | ⟨rfl, -⟩)
  · exact before.succ
  · exact .self valid

/-- A reached node that was not visited, given what is done with its content. -/
theorem chkNodeBlk_part (consistent : Consistent m) (stored : WellStored m)
    {chkNode : Nat → FileType → BlockType → CheckM Nat} {nid : Nat} {role : Role}
    {fileType : FileType} {nodes : Nat → Prop} {blocks : Nat → Nat → Prop}
    {pre middle : Fsck → Prop} {post : Nat → Fsck → Prop}
    (reached : Reached m nid role) (tracked : ∀ fsck, pre fsck → Tracked m nodes blocks fsck)
    (fresh : ¬ nodes nid) (fresh' : ¬ blocks nid invalidBlk)
    (marked : ∀ fsck, pre fsck → middle (fsck.markNode nid))
    (content : Part m held middle
      (chkNodeContent chkNode nid (m.nat.nat nid) fileType role.blockType (m.nodeAt nid)) post) :
    Part m (held + 1) pre (chkNodeBlk chkNode nid fileType role.blockType) post := by
  obtain ⟨data, found, typed, named⟩ := stored.node reached
  have same : data.node = m.nodeAt nid := by
    rw [Fs.nodeAt, found]
    rfl
  have address : Part m (held + 1) pre (chkNodeAddress nid)
      fun blk fsck => middle fsck ∧ blk = m.nat.nat nid := .quiet fun check frame before =>
    ⟨m.nat.nat nid, check.fsck.markNode nid,
      chkNodeAddress_of_fresh consistent stored frame (tracked _ before) reached fresh fresh',
      check.fsck.grown_markNode nid, marked _ before, rfl⟩
  have whole : Part m (held + 1) middle _ _ := Part.withPage
    (fun page data => do
      doIf (data.blockType ≠ role.blockType)
        (failFreed page .wrongBlockType "nid [%d] block type (%d) unmatch, expected: %d"
          fun link => [nid, link, role.blockType.toNat])
      doIf (data.node.nid ≠ nid)
        (failFreed page .invalidNid "nid [%d] does not match, nid in node= %d"
          fun _ => [nid, data.node.nid])
      chkNodeContent chkNode nid (m.nat.nat nid) fileType role.blockType data.node) found
    fun page => .skip (not_not.mpr typed) (.skip (not_not.mpr named) (by
      rw [same]
      exact content))
  simp only [bind_assoc] at whole
  refine address.bind fun blk => .assume fun here => ?_
  subst here
  exact whole

/-- The first slots of the root were visited and had no file. -/
structure IdleSlots (m : Fs) (number count : Nat) (fsck : Fsck) : Prop where
  /-- What the walk has visited. -/
  visited : InSlots m number fsck
  /-- The slots. -/
  idle : ∀ slot < number, SlotEmpty m slot
  /-- The number of mapped entries. -/
  count : count = ((List.range number).map fun slot =>
    if (m.nodeAt rootFid).inode.index slot = invalidBlk then 0
    else mappedEntries (m.nodeAt ((m.nodeAt rootFid).inode.index slot))).sum

/-- A slot of the root. -/
theorem chkIndexSlot_part (consistent : Consistent m) (stored : WellStored m)
    (chkNode : Nat → FileType → BlockType → CheckM Nat) {slot count : Nat}
    (inside : slot < indexTableSize) :
    Part m (held + 2) (IdleSlots m slot count)
      (do return count + (← chkIndexSlot (watchNode m (chkNodeBlk (watchNode m chkNode)))
        (m.nodeAt rootFid) slot))
      (IdleSlots m (slot + 1)) := by
  have add : ∀ number, number = (if (m.nodeAt rootFid).inode.index slot = invalidBlk then 0
      else mappedEntries (m.nodeAt ((m.nodeAt rootFid).inode.index slot))) →
      ∀ fsck, IdleSlots m slot count fsck → count + number =
      ((List.range (slot + 1)).map fun slot =>
        if (m.nodeAt rootFid).inode.index slot = invalidBlk then 0
        else mappedEntries (m.nodeAt ((m.nodeAt rootFid).inode.index slot))).sum := by
    intro number same fsck before
    rw [List.range_succ, List.map_append, List.sum_append, before.count, same]
    simp
  unfold chkIndexSlot
  by_cases valid : (m.nodeAt rootFid).inode.index slot ≠ invalidBlk
  · rw [if_pos valid, stored.root]
    have reached := Reached.slot .root inside valid
    have fresh := RootSlots.fresh consistent stored inside valid
    rw [stored.root] at reached
    have content : Part m (held + 1) _
        (chkNodeContent (watchNode m chkNode) ((m.nodeAt rootFid).inode.index slot)
          (m.nat.nat ((m.nodeAt rootFid).inode.index slot)) .dir (Role.index .dir).blockType
          (m.nodeAt ((m.nodeAt rootFid).inode.index slot))) _ :=
      fsckChkIndexBlk_part consistent stored chkNode inside valid
    have node : Part m (held + 2) (InSlots m slot) _ _ := chkNodeBlk_part consistent stored reached
      (fun fsck before => before.tracked) fresh fresh
      (fun fsck before => ⟨before.tracked.markNode (.self valid) fun _ visited => visited.succ,
        before.root.pathPtr, before.root.path⟩) content
    have watched : Part m (held + 2) (IdleSlots m slot count)
        (watchNode m (chkNodeBlk (watchNode m chkNode)) ((m.nodeAt rootFid).inode.index slot) .dir
          .index)
        fun number => IdleSlots m (slot + 1) (count + number) := by
      refine ⟨fun check free ready before => ?_⟩
      rw [watchNode_of_index]
      refine (node.conseq (fun _ visited => visited) fun number fsck after => ?_).run check free
        ready before.visited
      refine ⟨after.1, fun other inside' => ?_,
        add number (by rw [if_neg valid]; exact after.2.2) _ before⟩
      rcases Nat.lt_succ_iff_lt_or_eq.mp inside' with earlier | rfl
      · exact before.idle other earlier
      · exact after.2.1
    exact watched.bind fun number => .pure fun _ after => after
  · rw [if_neg valid]
    simp only [pure_bind]
    rw [not_not] at valid
    refine .pure fun fsck before => ⟨⟨before.visited.tracked.mono (fun _ visited => visited.succ)
      fun _ _ visited => visited.succ, before.visited.root⟩, fun other inside' => ?_,
      add 0 (if_pos valid).symm fsck before⟩
    rcases Nat.lt_succ_iff_lt_or_eq.mp inside' with earlier | rfl
    · exact before.idle other earlier
    · exact fun valid' => absurd valid valid'

/-- The content of the root. -/
theorem fsckChkInodeBlk_part (consistent : Consistent m) (stored : WellStored m)
    (chkNode : Nat → FileType → BlockType → CheckM Nat) :
    Part m (held + 2)
      (fun fsck => Tracked m (RootSlots m 0) (fun _ _ => False) fsck ∧ fsck.pathPtr = 1)
      (fsckChkInodeBlk (watchNode m (chkNodeBlk (watchNode m chkNode))) rootFid (m.nat.nat rootFid)
        (m.nodeAt rootFid))
      fun _ _ => RootEmpty m := by
  have marked : Part m (held + 2)
      (fun fsck => Tracked m (RootSlots m 0) (fun _ _ => False) fsck ∧ fsck.pathPtr = 1)
      (setMainBitmap (m.nat.nat rootFid))
      fun _ fsck => Tracked m (RootSlots m 0) (fun nid _ => RootSlots m 0 nid) fsck ∧
        fsck.pathPtr = 1 := .quiet fun check _ before =>
    ⟨⟨⟩, check.fsck.markBlk _, rfl, fun _ marked => marked,
      before.1.markBlk (.node .root) (Or.inl rfl) fun _ _ => False.elim, before.2⟩
  have entered : Part m (held + 2)
      (fun fsck => Tracked m (RootSlots m 0) (fun nid _ => RootSlots m 0 nid) fsck ∧
        fsck.pathPtr = 1)
      (doIf ((m.nodeAt rootFid).inode.fileType = .dir) do
        pokePath '\\'
        setPathPtr 2
        pokePath (Char.ofNat 0))
      fun _ => IdleSlots m 0 0 := .quiet fun check _ before => by
    refine ⟨⟨⟩, { check.fsck with
      pathPtr := 2
      path := Function.update (Function.update check.fsck.path 1 '\\') 2 (Char.ofNat 0) }, ?_,
      fun _ marked => marked,
      ⟨⟨before.1.nodeMap, before.1.mainAreaMap⟩, rfl, rfl⟩,
      fun _ inside' => absurd inside' (Nat.not_lt_zero _), rfl⟩
    unfold doIf pokePath setPathPtr modifyFsck
    rw [if_pos stored.root]
    simp only [bind_assoc]
    rw [get_bind_apply, throwIf_bind_of_not (by rw [before.2]; decide), modify_bind_apply,
      modify_bind_apply, get_bind_apply,
      throwIf_bind_of_not (show ¬ 2 ≥ maxPathSize by decide), before.2]
    rfl
  have slots : Part m (held + 2) (IdleSlots m 0 0) _ (IdleSlots m indexTableSize) :=
    Part.foldlM_range (fun slot inside count =>
      chkIndexSlot_part consistent stored chkNode inside) 0
  have counted : ∀ count, Part m (held + 2) (IdleSlots m indexTableSize count)
      (throwIf ((m.nodeAt rootFid).inode.blkNum ≠ count)
          (.fs .invalidNid "ino [%d] valid data blk in node (%d) does not match data blk (%d) "
            [rootFid, (m.nodeAt rootFid).inode.blkNum, count]) >>= fun _ => setPathPtr 1)
      fun _ _ => RootEmpty m := by
    intro count
    have restored : Part m (held + 2) (fun _ => RootEmpty m) (setPathPtr 1)
        fun _ _ => RootEmpty m := .quiet fun check _ empty =>
      ⟨⟨⟩, { check.fsck with pathPtr := 1 }, rfl, fun _ marked => marked, empty⟩
    refine (Part.assume fun same => .guard (not_not.mpr same) restored).conseq
      (fun fsck after => ⟨after.idle, ?_⟩) fun _ _ after => after
    rw [consistent.blkNum .root, after.count]
    rfl
  obtain ⟨data, found, -, named⟩ := stored.node .root
  have self : (m.nodeAt rootFid).ino = (m.nodeAt rootFid).nid := by
    rw [stored.inode .root, Fs.nodeAt, found]
    exact named.symm
  refine marked.bind fun _ => .read fun check frame before => ?_
  rw [before.2]
  exact entered.bind fun _ => .guard (not_not.mpr self) (slots.bind counted)

end Root

/-! ## The exact condition -/

/-- The walk over consistent metadata tracks the path exactly if the root directory has no file: the
root appends a second `\` to its name, so the first file already starts with a wrong path. -/
theorem pathTracked_iff {fs₀ fs m : Fs} {rollback : Nat} (fix : Bool)
    (unmounted : reset rollback fs₀ = .ok () fs) (mounted : mount fs = .ok () m)
    (consistent : Consistent m) (stored : WellStored m) : PathTracked m fix ↔ RootEmpty m := by
  obtain ⟨all, uncached⟩ := reset_pool unmounted
  obtain ⟨free, pool, length⟩ := mount_pool mounted uncached all (by rw [List.length_range]; decide)
  rw [List.length_range] at length
  have enough : 3 ≤ free.length := by
    have sizes : 3 + natBlkNr + 1 ≤ maxPageNum := by decide
    omega
  have held : HoldsPath m (Fsck.start fix) rootFid := by
    refine ⟨['\\'], .root, fun place inside => ?_, rfl⟩
    obtain rfl : place = 0 := Nat.lt_one_iff.mp inside
    rfl
  have content : Part m 2
      (fun fsck => Tracked m (RootSlots m 0) (fun _ _ => False) fsck ∧ fsck.pathPtr = 1)
      (chkNodeContent (watchNode m (chkNodeBlk (watchNode m (chkNodeBlk (watchedNodeBlk m 126)))))
        rootFid (m.nat.nat rootFid) .dir Role.inode.blockType (m.nodeAt rootFid))
      fun _ _ => RootEmpty m :=
    (fsckChkInodeBlk_part consistent stored _).bind fun _ => .pure fun _ empty => empty
  have node : Part m 3
      (fun fsck => Tracked m (fun _ => False) (fun _ _ => False) fsck ∧ fsck.pathPtr = 1) _ _ :=
    chkNodeBlk_part consistent stored .root (fun fsck before => before.1) not_false not_false
      (fun fsck before => ⟨before.1.markNode (Or.inl rfl) fun _ => False.elim, before.2⟩) content
  have done := node.run { fs := m, fsck := .start fix } free ⟨rfl, pool, enough⟩
    ⟨⟨nofun, nofun⟩, rfl⟩
  have walk : watchedNodeBlk m (nodeNr + 1) rootFid .dir .inode { fs := m, fsck := .start fix } =
      chkNodeBlk (watchNode m (chkNodeBlk (watchNode m (chkNodeBlk (watchedNodeBlk m 126)))))
        rootFid .dir .inode { fs := m, fsck := .start fix } := watchNode_of_held fun _ => held
  change Outcome _ _ (chkNodeBlk _ rootFid .dir .inode _) at done
  rw [← walk] at done
  unfold PathTracked
  constructor
  · intro tracked
    cases run : watchedNodeBlk m (nodeNr + 1) rootFid .dir .inode
        { fs := m, fsck := .start fix } with
    | ok count after =>
      rw [run] at done
      exact done.2.2
    | error fault after =>
      rw [run] at done
      exact absurd (done.1 ▸ run) (tracked after)
  · intro empty check lost
    rw [lost] at done
    exact done.2 empty

/-! ## Checking the hypotheses of an image -/

section Listed

variable {fs : Fs} {nodes : List (Nat × Role)}

deriving instance DecidableEq for Role

/-- The files in one entry of an index node are listed. -/
def FilesListed (fs : Fs) (nodes : List (Nat × Role)) (nid entry : Nat) : Prop :=
  (fs.nodeAt nid).index.index entry ≠ invalidBlk → ∀ slot < dentryPerBlock,
    ((fs.dentryAt ((fs.nodeAt nid).index.index entry)).dentries slot).ino ≠ invalidBlk →
    (((fs.dentryAt ((fs.nodeAt nid).index.index entry)).dentries slot).ino, .inode) ∈ nodes

instance (fs : Fs) (nodes : List (Nat × Role)) (nid entry : Nat) :
    Decidable (FilesListed fs nodes nid entry) := by
  unfold FilesListed
  infer_instance

/-- The names in one entry of an index node have a limited length. -/
def NamesWithin (fs : Fs) (limit nid entry : Nat) : Prop :=
  (fs.nodeAt nid).index.index entry ≠ invalidBlk → ∀ slot < dentryPerBlock,
    ((fs.dentryAt ((fs.nodeAt nid).index.index entry)).dentries slot).ino ≠ invalidBlk →
    ((fs.dentryAt ((fs.nodeAt nid).index.index entry)).dentries slot).nameLen ≤ limit

instance (fs : Fs) (limit nid entry : Nat) : Decidable (NamesWithin fs limit nid entry) := by
  unfold NamesWithin
  infer_instance

/-- A list of nodes contains the root and whatever its nodes refer to, and the blocks of its nodes
say what they are. -/
structure Listed (fs : Fs) (nodes : List (Nat × Role)) : Prop where
  /-- The root. -/
  root : (rootFid, .inode) ∈ nodes
  /-- Index nodes. -/
  slots : ∀ node ∈ nodes, node.2 = .inode → ∀ slot < indexTableSize,
    (fs.nodeAt node.1).inode.index slot ≠ invalidBlk →
    ((fs.nodeAt node.1).inode.index slot, .index (fs.nodeAt node.1).inode.fileType) ∈ nodes
  /-- Files. -/
  dentries : ∀ node ∈ nodes, node.2 = .index .dir → ∀ entry < indexSize,
    FilesListed fs nodes node.1 entry
  /-- The ids of nodes are inside the NAT. -/
  inside : ∀ node ∈ nodes, node.1 < nodeNr
  /-- The blocks of nodes. -/
  stored : ∀ node ∈ nodes, (fs.blockAt (fs.nat.nat node.1)).map
    (fun data => (data.blockType, data.node.nid)) = some (node.2.blockType, node.1)
  /-- An inode is its own inode. -/
  inode : ∀ node ∈ nodes, node.2 = .inode → (fs.nodeAt node.1).ino = node.1
  /-- The blocks of directories. -/
  dirs : ∀ node ∈ nodes, node.2 = .index .dir → ∀ entry < indexSize,
    (fs.nodeAt node.1).index.index entry ≠ invalidBlk →
    (fs.blockAt ((fs.nodeAt node.1).index.index entry)).map BlockData.blockType = some .dentry
  /-- The root is a directory. -/
  isDir : (fs.nodeAt rootFid).inode.fileType = .dir

/-- Reached nodes are listed. -/
theorem Listed.mem (listed : Listed fs nodes) {nid : Nat} {role : Role}
    (reached : Reached fs nid role) : (nid, role) ∈ nodes := by
  induction reached with
  | root => exact listed.root
  | slot _ inside valid ih =>
    have slots := listed.slots _ ih rfl
    dsimp only at slots
    exact slots _ inside valid
  | dentry _ inside mapped fits valid ih =>
    have dentries := listed.dentries _ ih rfl _ inside
    unfold FilesListed at dentries
    dsimp only at dentries
    exact dentries mapped _ fits valid

/-- The check of a list is sound. -/
theorem Listed.wellStored (listed : Listed fs nodes) : WellStored fs where
  inside reached := listed.inside _ (listed.mem reached)
  node reached := by
    have stored := listed.stored _ (listed.mem reached)
    dsimp only at stored
    obtain ⟨data, found, same⟩ := Option.map_eq_some_iff.mp stored
    injection same with typed named
    exact ⟨data, found, typed, named⟩
  inode reached := by
    have inode := listed.inode _ (listed.mem reached)
    dsimp only at inode
    exact inode rfl
  dentry reached small mapped := by
    have dirs := listed.dirs _ (listed.mem reached)
    dsimp only at dirs
    exact Option.map_eq_some_iff.mp (dirs rfl _ small mapped)
  root := listed.isDir

end Listed

/-- Mounted metadata that passes the check and has no spare bits is consistent. -/
theorem consistent_of_fsck {fs m : Fs} (mounted : mount fs = .ok () m)
    (checked : returned (fsck false fs) = true)
    (spare : ∀ seg < mainSegNr, ∀ bit < 32, blockPerSeg ≤ bit →
      (m.segments.segments seg).validBmp.getLsbD bit = false) : Consistent m := by
  obtain ⟨fixed, fs', returns⟩ := eq_ok_of_returned checked
  rw [fsck, bind_apply, mounted] at returns
  dsimp only at returns
  rw [get_bind_apply] at returns
  cases walk : fsckWalk { fs := m, fsck := .start false } with
  | error fault check =>
    rw [walk] at returns
    cases returns
  | ok result check =>
    obtain ⟨nodes, blocks, checked⟩ := fsckWalk_ok walk
    refine checked.consistent fun seg inside bit high => ?_
    by_cases small : bit < 32
    · exact spare seg inside bit small high
    · exact BitVec.getLsbD_of_ge _ _ (Nat.le_of_not_lt small)

/-- A simulator that was formatted, has two files in its root directory and was shut down. -/
def twoFilesFs : Fs :=
  finalState ((do
    initialzie opSegment
    let _ ← @fileCreate ⟨fun _ => 0⟩ ['\\', 'a']
    let _ ← @fileCreate ⟨fun _ => 0⟩ ['\\', 'b']
    syncFs : FsM Unit) .zeroed)

/-- An image as `Mount` finds it after `Reset`. -/
def unmountedImage (image : Fs) : Fs := finalState (reset 0 image)

/-- The mounted file system of an image. -/
def mountedImage (image : Fs) : Fs := finalState (mount (unmountedImage image))

/-- The root directory of a formatted image has no file, and the check tracks its path. -/
theorem pathTracked_iff_formatted :
    ∃ fs m, reset 0 .formatted = .ok () fs ∧ mount fs = .ok () m ∧ Consistent m ∧ WellStored m ∧
      RootEmpty m ∧ PathTracked m false := by
  have unmounted : returned (reset 0 .formatted) = true := by decide +kernel
  have mounted : returned (mount (unmountedImage .formatted)) = true := by decide +kernel
  have checked : returned (fsck false (unmountedImage .formatted)) = true := by decide +kernel
  have spare : ∀ seg < mainSegNr, ∀ bit < 32, blockPerSeg ≤ bit →
      ((mountedImage .formatted).segments.segments seg).validBmp.getLsbD bit = false := by
    decide +kernel
  have listed : Listed (mountedImage .formatted) [(rootFid, .inode)] := by
    constructor <;> decide +kernel
  have empty : RootEmpty (mountedImage .formatted) := by
    unfold RootEmpty SlotEmpty EntryEmpty
    decide +kernel
  obtain ⟨_, fs, reset⟩ := eq_ok_of_returned unmounted
  obtain ⟨_, m, mount⟩ := eq_ok_of_returned mounted
  have same : unmountedImage .formatted = fs := by rw [unmountedImage, reset, finalState_ok]
  have same' : mountedImage .formatted = m := by rw [mountedImage, mount, finalState_ok]
  rw [same] at mount checked
  rw [same'] at spare listed empty
  have consistent := consistent_of_fsck mount checked spare
  exact ⟨fs, m, reset, mount, consistent, listed.wellStored, empty,
    (pathTracked_iff false reset mount consistent listed.wellStored).mpr empty⟩

/-- With two files in the root the metadata is consistent and all names are short, but the check
loses the path. -/
theorem fsck_loses_path :
    ∃ fs m, reset 0 twoFilesFs = .ok () fs ∧ mount fs = .ok () m ∧ Consistent m ∧ WellStored m ∧
      (∀ nid path, FullPath m nid path → path.length + 2 ≤ maxPathSize) ∧
      ¬ PathTracked m false := by
  have unmounted : returned (reset 0 twoFilesFs) = true := by decide +kernel
  have mounted : returned (mount (unmountedImage twoFilesFs)) = true := by decide +kernel
  have checked : returned (fsck false (unmountedImage twoFilesFs)) = true := by decide +kernel
  have spare : ∀ seg < mainSegNr, ∀ bit < 32, blockPerSeg ≤ bit →
      ((mountedImage twoFilesFs).segments.segments seg).validBmp.getLsbD bit = false := by
    decide +kernel
  have listed : Listed (mountedImage twoFilesFs)
      [(rootFid, .inode), (2, .index .dir), (1, .inode), (3, .inode)] := by
    constructor <;> decide +kernel
  have nonempty : ¬ RootEmpty (mountedImage twoFilesFs) := by
    unfold RootEmpty SlotEmpty EntryEmpty
    decide +kernel
  have dirs : ∀ node ∈ [(rootFid, Role.inode), (2, .index .dir), (1, .inode), (3, .inode)],
      node.2 = .inode → ((mountedImage twoFilesFs).nodeAt node.1).inode.fileType = .dir →
      node.1 = rootFid := by
    decide +kernel
  have short : ∀ slot < indexTableSize,
      ((mountedImage twoFilesFs).nodeAt rootFid).inode.index slot ≠ invalidBlk →
      ∀ entry < indexSize, NamesWithin (mountedImage twoFilesFs) 4
        (((mountedImage twoFilesFs).nodeAt rootFid).inode.index slot) entry := by
    decide +kernel
  obtain ⟨_, fs, reset⟩ := eq_ok_of_returned unmounted
  obtain ⟨_, m, mount⟩ := eq_ok_of_returned mounted
  have same : unmountedImage twoFilesFs = fs := by rw [unmountedImage, reset, finalState_ok]
  have same' : mountedImage twoFilesFs = m := by rw [mountedImage, mount, finalState_ok]
  rw [same] at mount checked
  rw [same'] at spare listed nonempty dirs short
  have consistent := consistent_of_fsck mount checked spare
  have stored := listed.wellStored
  refine ⟨fs, m, reset, mount, consistent, stored, fun nid path full => ?_,
    fun tracked => nonempty ((pathTracked_iff false reset mount consistent stored).mp tracked)⟩
  cases full with
  | root => decide
  | @dentry dir slot entry place path parent isDir inside valid small mapped fits used =>
    obtain rfl : dir = rootFid := dirs _ (listed.mem parent.reached) rfl isDir
    rw [parent.of_root consistent stored rfl, joinPath, if_pos rfl, List.length_append,
      DentryBlock.length_name]
    have few := short slot inside valid entry small mapped place fits used
    have size : 4 + 3 ≤ maxPathSize := by decide
    rw [List.length_singleton]
    omega

end FsChecking.F2fs
