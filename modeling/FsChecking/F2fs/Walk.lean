import FsChecking.F2fs.Consistency
import FsChecking.Lib.Marks

/-!
# What the walk of the check visits

Every part of the walk that returns has visited a list of nodes and a list of blocks: the marks grow
by exactly these, everything that a visited node refers to is visited too, and the summaries of the
visited blocks name their owners. In check mode the tables of the file system do not change; in
repair mode only summaries do, and their segments become dirty.
-/

namespace FsChecking.F2fs

open Lib

/-! ## The tables during a walk -/

/-- The stored summary of a block, whether or not the block is valid. -/
def SegmentManager.summaryAt (manager : SegmentManager) (blk : Nat) : Summary :=
  { nid := (manager.segments (blk / blockPerSeg)).nids (blk % blockPerSeg)
    offset := (manager.segments (blk / blockPerSeg)).offset (blk % blockPerSeg) }

/-- The SIT bit of a block. -/
def SegmentManager.validAt (manager : SegmentManager) (blk : Nat) : Bool :=
  (manager.segments (blk / blockPerSeg)).validBmp.getLsbD (blk % blockPerSeg)

/-- A segment manager that differs from another one only in summaries, and these of segments that
are dirty. -/
structure Resummarized (before after : SegmentManager) : Prop where
  /-- Nothing else changes. -/
  frame : after = { before with segments := after.segments, dirtyMap := after.dirtyMap }
  /-- In a segment only the summaries change. -/
  segment : ∀ seg, after.segments seg =
    { before.segments seg with
      nids := (after.segments seg).nids, offset := (after.segments seg).offset }
  /-- Segments stay dirty. -/
  dirty : ∀ seg, before.isDirty seg = true → after.isDirty seg = true
  /-- A changed segment is dirty. -/
  changed : ∀ seg, after.isDirty seg = true ∨ after.segments seg = before.segments seg

namespace Resummarized

variable {before middle after : SegmentManager}

/-- Nothing changes. -/
theorem refl (manager : SegmentManager) : Resummarized manager manager :=
  ⟨rfl, fun _ => rfl, fun _ dirty => dirty, fun _ => Or.inr rfl⟩

/-- One change after another. -/
theorem trans (left : Resummarized before middle) (right : Resummarized middle after) :
    Resummarized before after where
  frame := by
    rw [right.frame, left.frame]
  segment seg := by
    rw [right.segment, left.segment]
  dirty seg dirty := right.dirty seg (left.dirty seg dirty)
  changed seg := by
    cases right.changed seg with
    | inl dirty => exact Or.inl dirty
    | inr same =>
      cases left.changed seg with
      | inl dirty => exact Or.inl (right.dirty seg dirty)
      | inr same' => exact Or.inr (same.trans same')

/-- `SetBlockInfo`. -/
theorem setBlockInfo (manager : SegmentManager) (nid offset blk : Nat) :
    Resummarized manager (manager.setBlockInfo nid offset blk) where
  frame := rfl
  segment seg := by
    unfold SegmentManager.setBlockInfo SegmentManager.updateSeg SegmentManager.setDirty
    by_cases here : seg = blk / blockPerSeg
    · subst here
      simp
    · simp [here]
  dirty seg dirty := by
    rw [SegmentManager.setBlockInfo, SegmentManager.isDirty_setDirty, Bool.or_eq_true]
    exact Or.inl dirty
  changed seg := by
    by_cases here : seg = blk / blockPerSeg
    · apply Or.inl
      rw [SegmentManager.setBlockInfo, SegmentManager.isDirty_setDirty, Bool.or_eq_true]
      exact Or.inr (by simp [here])
    · apply Or.inr
      unfold SegmentManager.setBlockInfo SegmentManager.updateSeg SegmentManager.setDirty
      simp [here]

/-- The SIT bits do not change. -/
theorem validAt (resummarized : Resummarized before after) (blk : Nat) :
    after.validAt blk = before.validAt blk := by
  unfold SegmentManager.validAt
  rw [resummarized.segment]

end Resummarized

/-- `SetBlockInfo` stores a summary. -/
theorem summaryAt_setBlockInfo (manager : SegmentManager) (nid offset blk other : Nat) :
    (manager.setBlockInfo nid offset blk).summaryAt other =
      if other = blk then { nid, offset } else manager.summaryAt other := by
  unfold SegmentManager.summaryAt SegmentManager.setBlockInfo SegmentManager.setDirty
    SegmentManager.updateSeg
  by_cases word : other / blockPerSeg = blk / blockPerSeg
  · have iff := flag_eq_iff word
    by_cases place : other % blockPerSeg = blk % blockPerSeg
    · rw [if_pos (iff.mpr place)]
      simp [word, place]
    · rw [if_neg (fun same => place (iff.mp same))]
      simp [word, place]
  · have apart : other ≠ blk := fun same => word (by rw [same])
    rw [if_neg apart]
    simp [word]

/-- What the check keeps while it walks over a mounted file system. -/
structure Stable (m : Fs) (fix : Bool) (check : Check) : Prop where
  /-- Only the page pool and the segments change. -/
  frame : check.fs = { m with pages := check.fs.pages, segments := check.fs.segments }
  /-- Of the segments only summaries change. -/
  segments : Resummarized m.segments check.fs.segments
  /-- The mode does not change. -/
  mode : check.fsck.needToFix = fix
  /-- As long as nothing is repaired, no segment changes. -/
  untouched : check.fsck.fixed = false → check.fs.segments = m.segments
  /-- Check mode repairs nothing. -/
  exact : fix = false → check.fsck.fixed = false

/-- Marks and the path do not matter for the tables. -/
theorem Stable.remark {m : Fs} {fix : Bool} {check check' : Check} (stable : Stable m fix check)
    (fs : check'.fs = check.fs) (fixed : check'.fsck.fixed = check.fsck.fixed)
    (mode : check'.fsck.needToFix = check.fsck.needToFix) : Stable m fix check' where
  frame := by
    rw [fs]
    exact stable.frame
  segments := by
    rw [fs]
    exact stable.segments
  mode := mode.trans stable.mode
  untouched nothing := by
    rw [fs]
    exact stable.untouched (fixed.symm.trans nothing)
  exact check := fixed.trans (stable.exact check)

/-- A step of the check that leaves the tables and the marks. -/
structure Quiet (before after : Check) : Prop where
  /-- Only pages change in the file system. -/
  frame : after.fs = { before.fs with pages := after.fs.pages }
  /-- The visited nodes. -/
  nodeMap : after.fsck.nodeMap = before.fsck.nodeMap
  /-- The visited blocks. -/
  mainAreaMap : after.fsck.mainAreaMap = before.fsck.mainAreaMap
  /-- Whether something was repaired. -/
  fixed : after.fsck.fixed = before.fsck.fixed
  /-- The mode. -/
  needToFix : after.fsck.needToFix = before.fsck.needToFix

namespace Quiet

variable {before middle after : Check}

/-- Nothing happens. -/
theorem refl (check : Check) : Quiet check check := ⟨rfl, rfl, rfl, rfl, rfl⟩

/-- One step after another. -/
theorem trans (left : Quiet before middle) (right : Quiet middle after) : Quiet before after where
  frame := by rw [right.frame, left.frame]
  nodeMap := right.nodeMap.trans left.nodeMap
  mainAreaMap := right.mainAreaMap.trans left.mainAreaMap
  fixed := right.fixed.trans left.fixed
  needToFix := right.needToFix.trans left.needToFix

/-- The segments do not change. -/
theorem segments (quiet : Quiet before after) : after.fs.segments = before.fs.segments := by
  rw [quiet.frame]

/-- The tables stay stable. -/
theorem stable (quiet : Quiet before after) {m : Fs} {fix : Bool} (stable : Stable m fix before) :
    Stable m fix after where
  frame := by
    rw [quiet.frame, stable.frame]
  segments := by
    rw [quiet.segments]
    exact stable.segments
  mode := quiet.needToFix.trans stable.mode
  untouched nothing := by
    rw [quiet.segments]
    exact stable.untouched (quiet.fixed.symm.trans nothing)
  exact check := quiet.fixed.trans (stable.exact check)

/-- Work on the page pool. -/
theorem pages {α : Type} {program : PageM α} {value : α}
    (run : fsLens.zoom (pagesLens.zoom program) before = .ok value after) : Quiet before after := by
  rw [Lens.zoom_eq_ok] at run
  obtain ⟨fs, run, rfl⟩ := run
  rw [Lens.zoom_eq_ok] at run
  obtain ⟨pool, -, rfl⟩ := run
  exact ⟨rfl, rfl, rfl, rfl, rfl⟩

/-- `pokePath`. -/
theorem pokePath {char : Char} {result : Unit}
    (run : F2fs.pokePath char before = .ok result after) : Quiet before after := by
  simp only [F2fs.pokePath, get_bind_apply, throwIf_bind_eq_ok] at run
  obtain ⟨-, run⟩ := run
  cases run
  exact ⟨rfl, rfl, rfl, rfl, rfl⟩

/-- `setPathPtr`. -/
theorem setPathPtr {pathPtr : Nat} {result : Unit}
    (run : F2fs.setPathPtr pathPtr before = .ok result after) : Quiet before after := by
  cases run
  exact ⟨rfl, rfl, rfl, rfl, rfl⟩

/-- `appendName`. -/
theorem appendName {block : DentryBlock} {index : Nat} {result : Unit}
    (run : F2fs.appendName block index before = .ok result after) : Quiet before after := by
  simp only [F2fs.appendName, get_bind_apply, throwIf_bind_eq_ok] at run
  obtain ⟨-, run⟩ := run
  rw [bind_eq_ok] at run
  obtain ⟨_, middle, moved, ended⟩ := run
  have first : Quiet before middle := by
    cases moved
    exact ⟨rfl, rfl, rfl, rfl, rfl⟩
  exact trans first (pokePath ended)

end Quiet

/-- A page that is read holds the stored block. -/
theorem readPage_ok {before middle after : Check} {blk page : Nat} {result : Unit}
    {data : BlockData}
    (read : fsLens.zoom (readInto (phyblkToLba blk) page) before = .ok result middle)
    (got : fsLens.zoom (getData page) middle = .ok data after) :
    Quiet before after ∧ data = (before.fs.blockAt blk).getD .ones := by
  rw [Lens.zoom_eq_ok] at read got
  obtain ⟨fs, read, rfl⟩ := read
  obtain ⟨fs', got, rfl⟩ := got
  rw [readInto_eq_ok] at read
  obtain ⟨stored, found, rfl⟩ := read
  cases got
  refine ⟨⟨rfl, rfl, rfl, rfl, rfl⟩, ?_⟩
  have here : before.fs.blockAt blk = some stored := found
  rw [here]
  simp [fsLens, PageAllocator.update]

/-! ## Visits -/

/-- A node that the walk visits, with the place that led to it. -/
structure Event where
  /-- The place that refers to the node. -/
  place : Place
  /-- The node. -/
  nid : Nat
  /-- Its role there. -/
  role : Role

/-- A block that the walk visits, with its owner. -/
structure BlockRef where
  /-- The block. -/
  blk : Nat
  /-- The node that owns it. -/
  nid : Nat
  /-- The place in that node, `INVALID_BLK` for the block of the node itself. -/
  offset : Nat

/-- What the walk has to visit for one slot of an inode. -/
def SlotVisited (m : Fs) (ino : Nat) (nodes : List Event) (slot : Nat) : Prop :=
  (m.nodeAt ino).inode.index slot ≠ invalidBlk →
    ⟨.slot ino slot, (m.nodeAt ino).inode.index slot,
      .index (m.nodeAt ino).inode.fileType⟩ ∈ nodes

/-- What the walk has to visit for one entry of an index node. -/
def EntryVisited (m : Fs) (nid : Nat) (fileType : FileType) (nodes : List Event)
    (blocks : List BlockRef) (entry : Nat) : Prop :=
  (m.nodeAt nid).index.index entry ≠ invalidBlk →
    ⟨(m.nodeAt nid).index.index entry, nid, entry⟩ ∈ blocks ∧
    (fileType = .dir → ∀ slot < dentryPerBlock,
      ((m.dentryAt ((m.nodeAt nid).index.index entry)).dentries slot).ino ≠ invalidBlk →
      ⟨.dentry nid entry slot,
        ((m.dentryAt ((m.nodeAt nid).index.index entry)).dentries slot).ino, .inode⟩ ∈ nodes)

/-- More may be visited. -/
theorem EntryVisited.mono {m : Fs} {nid entry : Nat} {fileType : FileType} {nodes nodes' : List Event}
    {blocks blocks' : List BlockRef} (visited : EntryVisited m nid fileType nodes blocks entry)
    (more : nodes ⊆ nodes') (more' : blocks ⊆ blocks') :
    EntryVisited m nid fileType nodes' blocks' entry := by
  intro mapped
  have here := visited mapped
  exact ⟨more' here.1, fun dir slot fits valid => more (here.2 dir slot fits valid)⟩

/-- Everything that a visited node refers to is visited, and its counter is right. -/
def Closed (m : Fs) (nodes : List Event) (blocks : List BlockRef) (event : Event) : Prop :=
  ⟨m.nat.nat event.nid, event.nid, invalidBlk⟩ ∈ blocks ∧
    match event.role with
    | .inode =>
      (∀ slot < indexTableSize, SlotVisited m event.nid nodes slot) ∧
      (m.nodeAt event.nid).inode.blkNum = mappedBlocks m (m.nodeAt event.nid)
    | .index fileType =>
      (∀ entry < indexSize, EntryVisited m event.nid fileType nodes blocks entry) ∧
      (m.nodeAt event.nid).index.validData = mappedEntries (m.nodeAt event.nid)

/-- The slots of a closed inode. -/
theorem Closed.slots {m : Fs} {nodes : List Event} {blocks : List BlockRef} {place : Place}
    {nid slot : Nat} (closed : Closed m nodes blocks ⟨place, nid, .inode⟩)
    (inside : slot < indexTableSize) : SlotVisited m nid nodes slot := closed.2.1 slot inside

/-- The entries of a closed index node. -/
theorem Closed.entries {m : Fs} {nodes : List Event} {blocks : List BlockRef} {place : Place}
    {nid entry : Nat} {fileType : FileType}
    (closed : Closed m nodes blocks ⟨place, nid, .index fileType⟩) (inside : entry < indexSize) :
    EntryVisited m nid fileType nodes blocks entry := closed.2.1 entry inside

/-- The dentries of a visited entry of a directory. -/
theorem EntryVisited.dentries {m : Fs} {nodes : List Event} {blocks : List BlockRef}
    {nid entry slot : Nat} (visited : EntryVisited m nid .dir nodes blocks entry)
    (mapped : (m.nodeAt nid).index.index entry ≠ invalidBlk) (fits : slot < dentryPerBlock)
    (valid : ((m.dentryAt ((m.nodeAt nid).index.index entry)).dentries slot).ino ≠ invalidBlk) :
    ⟨.dentry nid entry slot,
      ((m.dentryAt ((m.nodeAt nid).index.index entry)).dentries slot).ino, .inode⟩ ∈ nodes :=
  (visited mapped).2 rfl slot fits valid

/-- What is closed stays closed when more is visited. -/
theorem Closed.mono {m : Fs} {nodes nodes' : List Event} {blocks blocks' : List BlockRef}
    {event : Event} (closed : Closed m nodes blocks event) (more : nodes ⊆ nodes')
    (more' : blocks ⊆ blocks') : Closed m nodes' blocks' event := by
  obtain ⟨own, rest⟩ := closed
  refine ⟨more' own, ?_⟩
  cases role : event.role with
  | inode =>
    rw [role] at rest
    exact ⟨fun slot inside valid => more (rest.1 slot inside valid), rest.2⟩
  | index fileType =>
    rw [role] at rest
    exact ⟨fun entry inside => (rest.1 entry inside).mono more more', rest.2⟩

/-- Every visited node is closed. -/
def Complete (m : Fs) (nodes : List Event) (blocks : List BlockRef) : Prop :=
  ∀ event ∈ nodes, Closed m nodes blocks event

/-- One complete visit after another. -/
theorem Complete.append {m : Fs} {nodes nodes' : List Event} {blocks blocks' : List BlockRef}
    (left : Complete m nodes blocks) (right : Complete m nodes' blocks') :
    Complete m (nodes ++ nodes') (blocks ++ blocks') := by
  intro event member
  rw [List.mem_append] at member
  cases member with
  | inl here =>
    exact (left event here).mono (List.subset_append_left ..) (List.subset_append_left ..)
  | inr here =>
    exact (right event here).mono (List.subset_append_right ..) (List.subset_append_right ..)

/-- A part of the walk has visited these nodes and blocks. What it visited is reached from the root
if `given` holds, which says so of the node that the part started from. -/
structure Visit (m : Fs) (fix : Bool) (given : Prop) (before after : Check) (nodes : List Event)
    (blocks : List BlockRef) : Prop where
  /-- The tables. -/
  stable : Stable m fix after
  /-- The marks of nodes. -/
  nodeMap : Marked before.fsck.nodeMap after.fsck.nodeMap (nodes.map Event.nid)
  /-- The marks of blocks. -/
  mainAreaMap : Marked before.fsck.mainAreaMap after.fsck.mainAreaMap (blocks.map BlockRef.blk)
  /-- The summaries of visited blocks name their owners. -/
  summary : ∀ ref ∈ blocks, after.fs.segments.summaryAt ref.blk = ⟨ref.nid, ref.offset⟩
  /-- The summaries of other blocks do not change. -/
  others : ∀ blk, blk ∉ blocks.map BlockRef.blk →
    after.fs.segments.summaryAt blk = before.fs.segments.summaryAt blk
  /-- Visited blocks are inside the main area. -/
  below : ∀ ref ∈ blocks, ref.blk < mainBlkNr
  /-- In check mode visited blocks are valid. -/
  valid : fix = false → ∀ ref ∈ blocks, m.segments.validAt ref.blk = true
  /-- Visited nodes are reached. -/
  reached : given → ∀ event ∈ nodes, Reached m event.nid event.role ∧ Refers m event.place event.nid
  /-- Visited blocks belong to reached nodes. -/
  owned : given → ∀ ref ∈ blocks, Owns m ref.blk ref.nid ref.offset

namespace Visit

variable {m : Fs} {fix : Bool} {given : Prop} {before middle after : Check}
  {nodes nodes' : List Event} {blocks blocks' : List BlockRef}

/-- A quiet step visits nothing. -/
theorem quiet (stable : Stable m fix before) (quiet : Quiet before after) :
    Visit m fix given before after [] [] where
  stable := quiet.stable stable
  nodeMap := by
    rw [quiet.nodeMap]
    exact Marked.refl _
  mainAreaMap := by
    rw [quiet.mainAreaMap]
    exact Marked.refl _
  summary ref member := by simp at member
  others blk _ := by rw [quiet.segments]
  below ref member := by simp at member
  valid _ ref member := by simp at member
  reached _ event member := by simp at member
  owned _ ref member := by simp at member

/-- One part of the walk after another. -/
theorem append (left : Visit m fix given before middle nodes blocks)
    (right : Visit m fix given middle after nodes' blocks') :
    Visit m fix given before after (nodes ++ nodes') (blocks ++ blocks') where
  stable := right.stable
  nodeMap := by
    rw [List.map_append]
    exact left.nodeMap.append right.nodeMap
  mainAreaMap := by
    rw [List.map_append]
    exact left.mainAreaMap.append right.mainAreaMap
  summary ref member := by
    rw [List.mem_append] at member
    cases member with
    | inl here =>
      -- a block that was visited before is marked, so it is not visited again
      have marked := left.mainAreaMap.of_mem (List.mem_map_of_mem here)
      rw [right.others, left.summary ref here]
      intro again
      rw [right.mainAreaMap.fresh _ again] at marked
      cases marked
    | inr here => exact right.summary ref here
  others blk apart := by
    rw [List.map_append, List.mem_append, not_or] at apart
    rw [right.others blk apart.2, left.others blk apart.1]
  below ref member := by
    rw [List.mem_append] at member
    exact member.elim (left.below ref) (right.below ref)
  valid check ref member := by
    rw [List.mem_append] at member
    exact member.elim (left.valid check ref) (right.valid check ref)
  reached holds event member := by
    rw [List.mem_append] at member
    exact member.elim (left.reached holds event) (right.reached holds event)
  owned holds ref member := by
    rw [List.mem_append] at member
    exact member.elim (left.owned holds ref) (right.owned holds ref)

/-- A visit under a stronger assumption. -/
theorem strengthen {given' : Prop} (visit : Visit m fix given before after nodes blocks)
    (implies : given' → given) : Visit m fix given' before after nodes blocks :=
  { visit with
    reached := fun holds => visit.reached (implies holds)
    owned := fun holds => visit.owned (implies holds) }

/-- A quiet step after a part of the walk. -/
theorem thenQuiet (visit : Visit m fix given before middle nodes blocks)
    (step : Quiet middle after) : Visit m fix given before after nodes blocks := by
  have both := visit.append (Visit.quiet visit.stable step)
  rwa [List.append_nil, List.append_nil] at both

end Visit

/-! ## One block -/

/-- What a comparison with the summary leaves: the summary names the owner. -/
structure Named (m : Fs) (fix : Bool) (before after : Check) (nid offset blk : Nat) : Prop where
  /-- The tables. -/
  stable : Stable m fix after
  /-- The marks of nodes. -/
  nodeMap : after.fsck.nodeMap = before.fsck.nodeMap
  /-- The marks of blocks. -/
  mainAreaMap : after.fsck.mainAreaMap = before.fsck.mainAreaMap
  /-- The summary of the block. -/
  summary : after.fs.segments.summaryAt blk = ⟨nid, offset⟩
  /-- The summaries of other blocks. -/
  others : ∀ other, other ≠ blk →
    after.fs.segments.summaryAt other = before.fs.segments.summaryAt other
  /-- In check mode the block is valid. -/
  valid : fix = false → m.segments.validAt blk = true

/-- A summary that `GetBlockInfo` returns for a node is stored, and its block is valid. -/
theorem getBlockInfo_eq {manager : SegmentManager} {nid offset blk : Nat}
    (known : nid ≠ invalidBlk) (named : (manager.getBlockInfo blk).nid = nid)
    (placed : (manager.getBlockInfo blk).offset = offset) :
    manager.summaryAt blk = ⟨nid, offset⟩ ∧ manager.validAt blk = true := by
  unfold SegmentManager.getBlockInfo at named placed
  by_cases valid : manager.validAt blk = false
  · have clear :
        (manager.segments (blk / blockPerSeg)).validBmp.getLsbD (blk % blockPerSeg) = false := valid
    simp only [clear, if_true] at named
    exact absurd named.symm known
  · have set : (manager.segments (blk / blockPerSeg)).validBmp.getLsbD (blk % blockPerSeg) = true :=
      Bool.eq_true_of_not_eq_false valid
    simp only [set, Bool.true_eq_false, if_false] at named placed
    refine ⟨?_, set⟩
    unfold SegmentManager.summaryAt
    rw [named, placed]

/-- The comparison of a summary. -/
theorem chkSummary_ok {m : Fs} {fix : Bool} {before after : Check} {message : String}
    {subject : List Nat} {nid offset blk : Nat} {result : Unit}
    (run : chkSummary message subject nid offset blk before = .ok result after)
    (known : nid ≠ invalidBlk) (stable : Stable m fix before) :
    Named m fix before after nid offset blk := by
  simp only [chkSummary, get_bind_apply, doIf_eq_ok] at run
  cases run with
  | inl repair =>
    obtain ⟨-, run⟩ := repair
    split at run
    · rename_i mode
      rw [bind_eq_ok] at run
      obtain ⟨_, middle, stored, marked⟩ := run
      cases stored
      cases marked
      exact
        { stable :=
            { frame := by
                simp only [fsLens, segmentsLens]
                rw [stable.frame]
              segments := stable.segments.trans (.setBlockInfo ..)
              mode := stable.mode
              untouched := fun nothing => by simp at nothing
              exact := fun check => by rw [stable.mode, check] at mode; simp at mode }
          nodeMap := rfl
          mainAreaMap := rfl
          summary := by
            show (before.fs.segments.setBlockInfo nid offset blk).summaryAt blk = _
            rw [summaryAt_setBlockInfo, if_pos rfl]
          others := fun other apart => by
            show (before.fs.segments.setBlockInfo nid offset blk).summaryAt other = _
            rw [summaryAt_setBlockInfo, if_neg apart]
          valid := fun check => by rw [stable.mode, check] at mode; simp at mode }
    · cases run
  | inr same =>
    obtain ⟨agree, rfl⟩ := same
    rw [not_or, not_not, not_not] at agree
    have stored := getBlockInfo_eq known agree.1 agree.2
    exact
      { stable
        nodeMap := rfl
        mainAreaMap := rfl
        summary := stored.1
        others := fun _ _ => rfl
        valid := fun _ => by rw [← stable.segments.validAt]; exact stored.2 }

/-- Marking the block of a data entry and comparing its summary. -/
theorem dataBlock_visit {m : Fs} {fix : Bool} {before middle after : Check} {message : String}
    {subject : List Nat} {nid entry blk : Nat} {result result' : Unit} (fileType : FileType)
    (stable : Stable m fix before) (known : nid ≠ invalidBlk) (inside : entry < indexSize)
    (mapped : (m.nodeAt nid).index.index entry = blk) (valid : blk ≠ invalidBlk)
    (below : blk < mainBlkNr) (fresh : before.fsck.mainAreaMap blk = false)
    (marked : setMainBitmap blk before = .ok result middle)
    (compared : chkSummary message subject nid entry blk middle = .ok result' after) :
    Visit m fix (Reached m nid (.index fileType)) before after [] [⟨blk, nid, entry⟩] := by
  cases marked
  have named := chkSummary_ok compared known (stable.remark rfl rfl rfl)
  exact
    { stable := named.stable
      nodeMap := by
        rw [named.nodeMap]
        exact Marked.refl _
      mainAreaMap := by
        rw [named.mainAreaMap]
        exact Marked.single fresh
      summary := fun ref member => by
        rw [List.mem_singleton] at member
        rw [member]
        exact named.summary
      others := fun other apart => named.others other (by simpa using apart)
      below := fun ref member => by
        rw [List.mem_singleton] at member
        rw [member]
        exact below
      valid := fun check ref member => by
        rw [List.mem_singleton] at member
        rw [member]
        exact named.valid check
      reached := fun _ event member => by simp at member
      owned := fun holds ref member => by
        rw [List.mem_singleton] at member
        subst member mapped
        exact .entry holds inside valid }

/-- What the address checks of a node find out. -/
theorem chkNodeAddress_ok {m : Fs} {fix : Bool} {before after : Check} {nid blk : Nat}
    (stable : Stable m fix before) (run : chkNodeAddress nid before = .ok blk after) :
    blk = m.nat.nat nid ∧ nid < nodeNr ∧ blk < mainBlkNr ∧ m.segments.validAt blk = true ∧
      before.fsck.nodeMap nid = false ∧ before.fsck.mainAreaMap blk = false ∧
      Named m fix
        { before with
          fsck := { before.fsck with nodeMap := Function.update before.fsck.nodeMap nid true } }
        after nid invalidBlk blk := by
  simp only [chkNodeAddress, get_bind_apply, throwIf_bind_eq_ok, setNodeBitmap, modifyFsck,
    modify_bind_apply] at run
  obtain ⟨small, unvisited, inside, fresh, valid, run⟩ := run
  rw [bind_eq_ok] at run
  obtain ⟨_, last, compared, done⟩ := run
  cases done
  have table : before.fs.nat = m.nat := by rw [stable.frame]
  have known : nid ≠ invalidBlk := Nat.ne_of_lt ((Nat.lt_of_not_le small).trans (by decide))
  have named := chkSummary_ok compared known (stable.remark rfl rfl rfl)
  refine ⟨by rw [table], Nat.lt_of_not_le small, Nat.lt_of_not_le inside, ?_, ?_, ?_, named⟩
  · rw [← stable.segments.validAt]
    exact Bool.eq_true_of_not_eq_false valid
  · exact Bool.eq_false_of_not_eq_true unvisited
  · exact Bool.eq_false_of_not_eq_true fresh

/-- Marking a node and its block. -/
theorem nodeBlock_visit {m : Fs} {fix : Bool} {before checked read after : Check} {nid blk : Nat}
    {result : Unit} (place : Place) (role : Role) (stable : Stable m fix before)
    (run : chkNodeAddress nid before = .ok blk checked) (quiet : Quiet checked read)
    (marked : setMainBitmap blk read = .ok result after) :
    Visit m fix (Reached m nid role ∧ Refers m place nid) before after [⟨place, nid, role⟩]
      [⟨blk, nid, invalidBlk⟩] := by
  obtain ⟨address, -, below, valid, unvisited, fresh, named⟩ := chkNodeAddress_ok stable run
  cases marked
  exact
    { stable := (quiet.stable named.stable).remark rfl rfl rfl
      nodeMap := by
        show Marked _ read.fsck.nodeMap _
        rw [quiet.nodeMap, named.nodeMap]
        exact Marked.single unvisited
      mainAreaMap := by
        show Marked _ (Function.update read.fsck.mainAreaMap blk true) _
        rw [quiet.mainAreaMap, named.mainAreaMap]
        exact Marked.single fresh
      summary := fun ref member => by
        rw [List.mem_singleton] at member
        show read.fs.segments.summaryAt ref.blk = _
        rw [member, quiet.segments]
        exact named.summary
      others := fun other apart => by
        show read.fs.segments.summaryAt other = _
        rw [quiet.segments]
        exact named.others other (by simpa using apart)
      below := fun ref member => by
        rw [List.mem_singleton] at member
        rw [member]
        exact below
      valid := fun _ ref member => by
        rw [List.mem_singleton] at member
        rw [member]
        exact valid
      reached := fun holds event member => by
        rw [List.mem_singleton] at member
        subst member
        exact holds
      owned := fun holds ref member => by
        rw [List.mem_singleton] at member
        subst member address
        exact .node holds.1 }

/-! ## The walk -/

/-- The role in which the walk looks at a node. -/
def expectedRole (fileType : FileType) (blockType : BlockType) : Role :=
  if blockType = .inode then .inode else .index fileType

/-- What a call that checks a node has visited when it returns. -/
def NodeSpec (m : Fs) (fix : Bool) (chkNode : Nat → FileType → BlockType → CheckM Nat) : Prop :=
  ∀ (place : Place) (nid : Nat) (fileType : FileType) (blockType : BlockType)
    (before after : Check) (count : Nat), Stable m fix before →
    chkNode nid fileType blockType before = .ok count after →
    ∃ nodes blocks,
      Visit m fix (Reached m nid (expectedRole fileType blockType) ∧ Refers m place nid)
        before after nodes blocks ∧
      Complete m nodes blocks ∧ ⟨place, nid, expectedRole fileType blockType⟩ ∈ nodes ∧
      (blockType ≠ .inode → count = mappedEntries (m.nodeAt nid))

section Walk

variable {m : Fs} {fix : Bool} {chkNode : Nat → FileType → BlockType → CheckM Nat}

/-- One dentry. -/
theorem chkDentry_visit (spec : NodeSpec m fix chkNode) {before after : Check} {result : Unit}
    {nid entry slot : Nat} (stable : Stable m fix before) (inside : entry < indexSize)
    (mapped : (m.nodeAt nid).index.index entry ≠ invalidBlk) (fits : slot < dentryPerBlock)
    (run : chkDentry chkNode (m.dentryAt ((m.nodeAt nid).index.index entry)) slot before =
      .ok result after) :
    ∃ nodes blocks, Visit m fix (Reached m nid (.index .dir)) before after nodes blocks ∧
      Complete m nodes blocks ∧
      (((m.dentryAt ((m.nodeAt nid).index.index entry)).dentries slot).ino ≠ invalidBlk →
        ⟨.dentry nid entry slot,
          ((m.dentryAt ((m.nodeAt nid).index.index entry)).dentries slot).ino, .inode⟩ ∈ nodes) := by
  simp only [chkDentry, doIf_eq_ok] at run
  cases run with
  | inl used =>
    obtain ⟨valid, run⟩ := used
    rw [bind_eq_ok] at run
    obtain ⟨_, named, appended, run⟩ := run
    rw [bind_eq_ok] at run
    obtain ⟨count, last, checked, done⟩ := run
    cases done
    have quiet := Quiet.appendName appended
    obtain ⟨nodes, blocks, visit, complete, member, -⟩ :=
      spec (.dentry nid entry slot) _ _ _ _ _ _ (quiet.stable stable) checked
    refine ⟨nodes, blocks, ?_, complete, fun _ => member⟩
    have whole := (Visit.quiet stable quiet).append visit
    exact whole.strengthen fun reached =>
      ⟨.dentry reached inside mapped fits valid, .dentry reached inside mapped fits valid⟩
  | inr unused =>
    obtain ⟨invalid, rfl⟩ := unused
    exact ⟨[], [], .quiet stable (.refl _), by simp [Complete], fun valid => absurd valid invalid⟩

/-- The dentries of a block. -/
theorem chkDentries_visit (spec : NodeSpec m fix chkNode) {before after : Check} {result : Unit}
    {nid entry : Nat} (stable : Stable m fix before) (inside : entry < indexSize)
    (mapped : (m.nodeAt nid).index.index entry ≠ invalidBlk)
    (run : (List.range dentryPerBlock).forM
      (chkDentry chkNode (m.dentryAt ((m.nodeAt nid).index.index entry))) before =
        .ok result after) :
    ∃ nodes blocks, Visit m fix (Reached m nid (.index .dir)) before after nodes blocks ∧
      Complete m nodes blocks ∧ ∀ slot < dentryPerBlock,
      ((m.dentryAt ((m.nodeAt nid).index.index entry)).dentries slot).ino ≠ invalidBlk →
        ⟨.dentry nid entry slot,
          ((m.dentryAt ((m.nodeAt nid).index.index entry)).dentries slot).ino, .inode⟩ ∈ nodes := by
  have loop := forM_ok (fun done check => ∃ nodes blocks,
    Visit m fix (Reached m nid (.index .dir)) before check nodes blocks ∧
    Complete m nodes blocks ∧ ∀ slot ∈ done,
      ((m.dentryAt ((m.nodeAt nid).index.index entry)).dentries slot).ino ≠ invalidBlk →
        ⟨.dentry nid entry slot,
          ((m.dentryAt ((m.nodeAt nid).index.index entry)).dentries slot).ino, .inode⟩ ∈ nodes)
    ⟨[], [], .quiet stable (.refl _), by simp [Complete], by simp⟩ ?_ run
  · obtain ⟨nodes, blocks, visit, complete, visited⟩ := loop
    exact ⟨nodes, blocks, visit, complete,
      fun slot fits => visited slot (List.mem_range.mpr fits)⟩
  · rintro done slot check check' member ⟨nodes, blocks, visit, complete, visited⟩ one
    obtain ⟨nodes', blocks', visit', complete', here⟩ :=
      chkDentry_visit spec visit.stable inside mapped (List.mem_range.mp member) one
    refine ⟨nodes ++ nodes', blocks ++ blocks', visit.append visit', complete.append complete', ?_⟩
    intro other among valid
    rw [List.mem_append, List.mem_singleton] at among
    rw [List.mem_append]
    cases among with
    | inl before => exact Or.inl (visited other before valid)
    | inr same =>
      subst same
      exact Or.inr (here valid)

/-- A block of an index entry. -/
theorem fsckChkDataBlk_visit (spec : NodeSpec m fix chkNode) {before after : Check} {result : Unit}
    {nid entry : Nat} {fileType : FileType} (stable : Stable m fix before)
    (known : nid ≠ invalidBlk) (inside : entry < indexSize)
    (mapped : (m.nodeAt nid).index.index entry ≠ invalidBlk)
    (run : fsckChkDataBlk chkNode nid entry ((m.nodeAt nid).index.index entry) fileType before =
      .ok result after) :
    ∃ nodes blocks, Visit m fix (Reached m nid (.index fileType)) before after nodes blocks ∧
      Complete m nodes blocks ∧ ⟨(m.nodeAt nid).index.index entry, nid, entry⟩ ∈ blocks ∧
      (fileType = .dir → ∀ slot < dentryPerBlock,
        ((m.dentryAt ((m.nodeAt nid).index.index entry)).dentries slot).ino ≠ invalidBlk →
        ⟨.dentry nid entry slot,
          ((m.dentryAt ((m.nodeAt nid).index.index entry)).dentries slot).ino, .inode⟩ ∈ nodes) := by
  simp only [fsckChkDataBlk, throwIf_bind_eq_ok, get_bind_apply] at run
  obtain ⟨below, fresh, run⟩ := run
  rw [bind_eq_ok] at run
  obtain ⟨_, marked, mark, run⟩ := run
  rw [bind_eq_ok] at run
  obtain ⟨_, compared, compare, run⟩ := run
  have visit := dataBlock_visit fileType stable known inside rfl mapped
    (Nat.lt_of_not_le below) (Bool.eq_false_of_not_eq_true fresh) mark compare
  rw [doIf_eq_ok] at run
  cases run with
  | inl directory =>
    obtain ⟨rfl, run⟩ := directory
    simp only [bind_eq_ok] at run
    obtain ⟨page, allocated, allocate, _, read, reading, data, got, getting, _, typed, typing, _,
      walked, walk, freeing⟩ := run
    have first := Quiet.pages allocate
    obtain ⟨second, stored⟩ := readPage_ok reading getting
    have third : Quiet got typed := by
      rw [doIf_eq_ok] at typing
      cases typing with
      | inl wrong =>
        obtain ⟨-, fails⟩ := wrong
        simp only [failFreed, bind_eq_ok, get_bind_apply, throw_apply] at fails
        obtain ⟨_, _, _, ⟨⟩⟩ := fails
      | inr fine =>
        obtain ⟨-, rfl⟩ := fine
        exact .refl _
    have quiet := (first.trans second).trans third
    have content : data.dentry = m.dentryAt ((m.nodeAt nid).index.index entry) := by
      rw [stored, first.frame, visit.stable.frame]
      rfl
    rw [content] at walk
    obtain ⟨nodes, blocks, visit', complete, visited⟩ :=
      chkDentries_visit spec (quiet.stable visit.stable) inside mapped walk
    refine ⟨nodes, _ :: blocks, (visit.thenQuiet quiet).append (visit'.thenQuiet (.pages freeing)),
      ?_, List.mem_cons_self, fun _ => visited⟩
    intro event member
    exact (complete event member).mono (List.Subset.refl _) (List.subset_cons_self ..)
  | inr file =>
    obtain ⟨other, rfl⟩ := file
    exact ⟨[], _, visit, by simp [Complete], List.mem_cons_self, fun dir => absurd dir other⟩

/-- One entry of an index node. -/
theorem chkIndexEntry_visit (spec : NodeSpec m fix chkNode) {before after : Check}
    {nid entry count : Nat} {fileType : FileType} (stable : Stable m fix before)
    (known : nid ≠ invalidBlk) (inside : entry < indexSize)
    (run : chkIndexEntry chkNode nid fileType (m.nodeAt nid) entry before = .ok count after) :
    ∃ nodes blocks, Visit m fix (Reached m nid (.index fileType)) before after nodes blocks ∧
      Complete m nodes blocks ∧ EntryVisited m nid fileType nodes blocks entry ∧
      count = if (m.nodeAt nid).index.index entry ≠ invalidBlk then 1 else 0 := by
  simp only [chkIndexEntry, get_bind_apply] at run
  split at run
  · rename_i mapped
    rw [bind_eq_ok] at run
    obtain ⟨_, checked, check, run⟩ := run
    rw [bind_eq_ok] at run
    obtain ⟨_, last, back, done⟩ := run
    cases done
    obtain ⟨nodes, blocks, visit, complete, visited⟩ :=
      fsckChkDataBlk_visit spec stable known inside mapped check
    exact ⟨nodes, blocks, visit.thenQuiet (.setPathPtr back), complete, fun _ => visited,
      by rw [if_pos mapped]⟩
  · rename_i unmapped
    cases run
    exact ⟨[], [], .quiet stable (.refl _), by simp [Complete], fun mapped => absurd mapped unmapped,
      by rw [if_neg unmapped]⟩

/-- The entries of an index node. -/
theorem chkIndexEntries_visit (spec : NodeSpec m fix chkNode) {before after : Check}
    {nid count : Nat} {fileType : FileType} (stable : Stable m fix before)
    (known : nid ≠ invalidBlk)
    (run : chkIndexEntries chkNode nid fileType (m.nodeAt nid) before = .ok count after) :
    ∃ nodes blocks, Visit m fix (Reached m nid (.index fileType)) before after nodes blocks ∧
      Complete m nodes blocks ∧
      (∀ entry < indexSize, EntryVisited m nid fileType nodes blocks entry) ∧
      count = mappedEntries (m.nodeAt nid) := by
  have loop := foldlM_ok (fun done count check => ∃ nodes blocks,
    Visit m fix (Reached m nid (.index fileType)) before check nodes blocks ∧
    Complete m nodes blocks ∧ (∀ entry ∈ done, EntryVisited m nid fileType nodes blocks entry) ∧
    count = done.countP fun entry => (m.nodeAt nid).index.index entry ≠ invalidBlk)
    ⟨[], [], .quiet stable (.refl _), by simp [Complete], by simp, rfl⟩ ?_ run
  · obtain ⟨nodes, blocks, visit, complete, visited, counted⟩ := loop
    exact ⟨nodes, blocks, visit, complete,
      fun entry inside => visited entry (List.mem_range.mpr inside), counted⟩
  · rintro done entry count check count' check' member
      ⟨nodes, blocks, visit, complete, visited, counted⟩ one
    rw [bind_eq_ok] at one
    obtain ⟨found, last, one, result⟩ := one
    cases result
    obtain ⟨nodes', blocks', visit', complete', here, number⟩ :=
      chkIndexEntry_visit spec visit.stable known (List.mem_range.mp member) one
    refine ⟨nodes ++ nodes', blocks ++ blocks', visit.append visit', complete.append complete',
      ?_, ?_⟩
    · intro other among
      rw [List.mem_append, List.mem_singleton] at among
      cases among with
      | inl before =>
        exact (visited other before).mono (List.subset_append_left ..)
          (List.subset_append_left ..)
      | inr same =>
        subst same
        exact here.mono (List.subset_append_right ..) (List.subset_append_right ..)
    · rw [List.countP_append, List.countP_singleton, counted, number]
      simp only [ne_eq, decide_not, Bool.not_eq_eq_eq_not, Bool.not_true, decide_eq_false_iff_not]

/-- One slot of an inode. -/
theorem chkIndexSlot_visit (spec : NodeSpec m fix chkNode) {before after : Check}
    {ino slot count : Nat} (stable : Stable m fix before) (inside : slot < indexTableSize)
    (run : chkIndexSlot chkNode (m.nodeAt ino) slot before = .ok count after) :
    ∃ nodes blocks, Visit m fix (Reached m ino .inode) before after nodes blocks ∧
      Complete m nodes blocks ∧ SlotVisited m ino nodes slot ∧
      count = if (m.nodeAt ino).inode.index slot = invalidBlk then 0
        else mappedEntries (m.nodeAt ((m.nodeAt ino).inode.index slot)) := by
  simp only [chkIndexSlot] at run
  split at run
  · rename_i valid
    obtain ⟨nodes, blocks, visit, complete, member, counted⟩ :=
      spec (.slot ino slot) _ _ _ _ _ _ stable run
    refine ⟨nodes, blocks, ?_, complete, fun _ => member, ?_⟩
    · exact visit.strengthen fun reached => ⟨.slot reached inside valid, .slot reached inside valid⟩
    · rw [if_neg valid]
      exact counted (by decide)
  · rename_i invalid
    cases run
    rw [not_not] at invalid
    exact ⟨[], [], .quiet stable (.refl _), by simp [Complete], fun valid => absurd invalid valid,
      by rw [if_pos invalid]⟩

/-- The slots of an inode. -/
theorem chkIndexSlots_visit (spec : NodeSpec m fix chkNode) {before after : Check}
    {ino count : Nat} (stable : Stable m fix before)
    (run : chkIndexSlots chkNode (m.nodeAt ino) before = .ok count after) :
    ∃ nodes blocks, Visit m fix (Reached m ino .inode) before after nodes blocks ∧
      Complete m nodes blocks ∧ (∀ slot < indexTableSize, SlotVisited m ino nodes slot) ∧
      count = mappedBlocks m (m.nodeAt ino) := by
  have loop := foldlM_ok (fun done count check => ∃ nodes blocks,
    Visit m fix (Reached m ino .inode) before check nodes blocks ∧ Complete m nodes blocks ∧
    (∀ slot ∈ done, SlotVisited m ino nodes slot) ∧
    count = (done.map fun slot => if (m.nodeAt ino).inode.index slot = invalidBlk then 0
      else mappedEntries (m.nodeAt ((m.nodeAt ino).inode.index slot))).sum)
    ⟨[], [], .quiet stable (.refl _), by simp [Complete], by simp, rfl⟩ ?_ run
  · obtain ⟨nodes, blocks, visit, complete, visited, counted⟩ := loop
    exact ⟨nodes, blocks, visit, complete,
      fun slot inside => visited slot (List.mem_range.mpr inside), counted⟩
  · rintro done slot count check count' check' member
      ⟨nodes, blocks, visit, complete, visited, counted⟩ one
    rw [bind_eq_ok] at one
    obtain ⟨found, last, one, result⟩ := one
    cases result
    obtain ⟨nodes', blocks', visit', complete', here, number⟩ :=
      chkIndexSlot_visit spec visit.stable (List.mem_range.mp member) one
    refine ⟨nodes ++ nodes', blocks ++ blocks', visit.append visit', complete.append complete',
      ?_, ?_⟩
    · intro other among valid
      rw [List.mem_append, List.mem_singleton] at among
      rw [List.mem_append]
      cases among with
      | inl before => exact Or.inl (visited other before valid)
      | inr same =>
        subst same
        exact Or.inr (here valid)
    · rw [List.map_append, List.sum_append, List.map_singleton, List.sum_singleton, counted, number]

/-- Releasing the page and failing does not return. -/
theorem failFreed_fails {check check' : Check} {page : Nat} {code : ErrorCode} {message : String}
    {arguments : Nat → List Nat} {result : Unit} :
    failFreed page code message arguments check ≠ .ok result check' := by
  intro fails
  simp only [failFreed, bind_eq_ok, get_bind_apply, throw_apply] at fails
  obtain ⟨_, _, _, ⟨⟩⟩ := fails

/-- A guard that releases the page and fails lets the right block pass. -/
theorem guard_ok {before after : Check} {cond : Prop} [Decidable cond] {page : Nat}
    {code : ErrorCode} {message : String} {arguments : Nat → List Nat} {result : Unit}
    (run : doIf cond (failFreed page code message arguments) before = .ok result after) :
    ¬ cond ∧ after = before := by
  rw [doIf_eq_ok] at run
  cases run with
  | inl wrong => exact absurd wrong.2 failFreed_fails
  | inr fine => exact fine

/-- The extension of the path by a directory. -/
theorem enterDir_quiet {before after : Check} {cond : Prop} [Decidable cond] {pathPtr : Nat}
    {result : Unit} (run : doIf cond (do
      pokePath '\\'
      setPathPtr (pathPtr + 1)
      pokePath (Char.ofNat 0)) before = .ok result after) : Quiet before after := by
  rw [doIf_eq_ok] at run
  cases run with
  | inl enter =>
    obtain ⟨-, run⟩ := enter
    simp only [bind_eq_ok] at run
    obtain ⟨_, first, poked, _, second, moved, ended⟩ := run
    exact ((Quiet.pokePath poked).trans (.setPathPtr moved)).trans (.pokePath ended)
  | inr stay =>
    obtain ⟨-, rfl⟩ := stay
    exact .refl _

/-- The inode at the block of a node. -/
theorem fsckChkInodeBlk_visit (spec : NodeSpec m fix chkNode) {before checked read after : Check}
    {nid blk : Nat} {result : Unit} (place : Place) (stable : Stable m fix before)
    (address : chkNodeAddress nid before = .ok blk checked) (quiet : Quiet checked read)
    (run : fsckChkInodeBlk chkNode nid blk (m.nodeAt nid) read = .ok result after) :
    ∃ nodes blocks, Visit m fix (Reached m nid .inode ∧ Refers m place nid) before after nodes
      blocks ∧ Complete m nodes blocks ∧ ⟨place, nid, .inode⟩ ∈ nodes := by
  simp only [fsckChkInodeBlk] at run
  rw [bind_eq_ok] at run
  obtain ⟨_, marked, mark, run⟩ := run
  rw [get_bind_apply, bind_eq_ok] at run
  obtain ⟨_, entered, enter, run⟩ := run
  rw [throwIf_bind_eq_ok] at run
  obtain ⟨-, run⟩ := run
  rw [bind_eq_ok] at run
  obtain ⟨count, walked, walk, run⟩ := run
  rw [throwIf_bind_eq_ok, not_not] at run
  obtain ⟨counted, back⟩ := run
  have head := (nodeBlock_visit place .inode stable address quiet mark).thenQuiet
    (enterDir_quiet enter)
  obtain ⟨nodes, blocks, visit, complete, visited, number⟩ :=
    chkIndexSlots_visit spec head.stable walk
  refine ⟨_, _, head.append ((visit.strengthen And.left).thenQuiet (.setPathPtr back)), ?_,
    List.mem_append_left _ List.mem_cons_self⟩
  intro event member
  rw [List.mem_append, List.mem_singleton] at member
  cases member with
  | inl self =>
    subst self
    refine ⟨?_, fun slot inside valid => List.mem_append_right _ (visited slot inside valid), ?_⟩
    · rw [(chkNodeAddress_ok stable address).1]
      exact List.mem_append_left _ List.mem_cons_self
    · exact counted.trans number
  | inr child =>
    exact (complete event child).mono (List.subset_append_right ..) (List.subset_append_right ..)

/-- The index node at the block of a node. -/
theorem fsckChkIndexBlk_visit (spec : NodeSpec m fix chkNode) {before checked read after : Check}
    {nid blk count : Nat} {fileType : FileType} (place : Place) (stable : Stable m fix before)
    (address : chkNodeAddress nid before = .ok blk checked) (quiet : Quiet checked read)
    (run : fsckChkIndexBlk chkNode nid blk fileType (m.nodeAt nid) read = .ok count after) :
    ∃ nodes blocks, Visit m fix (Reached m nid (.index fileType) ∧ Refers m place nid) before after
      nodes blocks ∧ Complete m nodes blocks ∧ ⟨place, nid, .index fileType⟩ ∈ nodes ∧
      count = mappedEntries (m.nodeAt nid) := by
  simp only [fsckChkIndexBlk] at run
  rw [bind_eq_ok] at run
  obtain ⟨_, marked, mark, run⟩ := run
  rw [bind_eq_ok] at run
  obtain ⟨number, walked, walk, run⟩ := run
  rw [throwIf_bind_eq_ok, not_not] at run
  obtain ⟨counted, done⟩ := run
  cases done
  have head := nodeBlock_visit place (.index fileType) stable address quiet mark
  obtain ⟨same, small, -⟩ := chkNodeAddress_ok stable address
  have known : nid ≠ invalidBlk := Nat.ne_of_lt (small.trans (by decide))
  obtain ⟨nodes, blocks, visit, complete, visited, rfl⟩ :=
    chkIndexEntries_visit spec head.stable known walk
  refine ⟨_, _, head.append (visit.strengthen And.left), ?_,
    List.mem_append_left _ List.mem_cons_self, rfl⟩
  intro event member
  rw [List.mem_append, List.mem_singleton] at member
  cases member with
  | inl self =>
    subst self
    refine ⟨?_, fun entry inside => ?_, counted⟩
    · rw [same]
      exact List.mem_append_left _ List.mem_cons_self
    · exact (visited entry inside).mono (List.subset_append_right ..) (List.subset_append_right ..)
  | inr child =>
    exact (complete event child).mono (List.subset_append_right ..) (List.subset_append_right ..)

/-- A node, given what the calls for its children visit. -/
theorem chkNodeBlk_spec (spec : NodeSpec m fix chkNode) : NodeSpec m fix (chkNodeBlk chkNode) := by
  intro place nid fileType blockType before after count stable run
  simp only [chkNodeBlk, bind_eq_ok] at run
  obtain ⟨blk, checked, address, page, allocated, allocate, _, loaded, loading, data, got, getting,
    _, typed, typing, _, matched, matching, found, walked, walk, _, freed, freeing, done⟩ := run
  cases done
  obtain ⟨-, rfl⟩ := guard_ok typing
  obtain ⟨-, rfl⟩ := guard_ok matching
  have first := Quiet.pages allocate
  obtain ⟨second, stored⟩ := readPage_ok loading getting
  have quiet := first.trans second
  obtain ⟨same, -, -, -, -, -, named⟩ := chkNodeAddress_ok stable address
  have content : data.node = m.nodeAt nid := by
    rw [stored, first.frame, named.stable.frame, same]
    rfl
  rw [content] at walk
  unfold chkNodeContent at walk
  unfold expectedRole
  split at walk
  · rename_i inode
    rw [bind_eq_ok] at walk
    obtain ⟨_, last, walk, result⟩ := walk
    cases result
    obtain ⟨nodes, blocks, visit, complete, member⟩ :=
      fsckChkInodeBlk_visit spec place stable address quiet walk
    rw [if_pos inode]
    exact ⟨nodes, blocks, visit.thenQuiet (.pages freeing), complete, member,
      fun other => absurd inode other⟩
  · rename_i index
    obtain ⟨nodes, blocks, visit, complete, member, counted⟩ :=
      fsckChkIndexBlk_visit spec place stable address quiet walk
    rw [if_neg index]
    exact ⟨nodes, blocks, visit.thenQuiet (.pages freeing), complete, member, fun _ => counted⟩

end Walk

/-- What the walk from a node visits, to any depth. -/
theorem fsckChkNodeBlk_spec (m : Fs) (fix : Bool) (depth : Nat) :
    NodeSpec m fix (fsckChkNodeBlk depth) := by
  induction depth with
  | zero =>
    intro place nid fileType blockType before after count _ run
    cases run
  | succ depth ih => exact chkNodeBlk_spec ih

end FsChecking.F2fs
