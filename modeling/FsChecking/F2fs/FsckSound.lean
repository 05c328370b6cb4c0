import FsChecking.F2fs.Load
import FsChecking.F2fs.Simulator
import FsChecking.F2fs.Walk

/-!
# Soundness of the check

When `fsck` in check mode returns, the mounted metadata is consistent, but for one gap: the check
counts only the bits of `valid_bmp` that stand for blocks of the segment, and nothing looks at the
bits behind them.
-/

namespace FsChecking.F2fs

open Lib

/-! ## Reached is visited -/

section Visited

variable {m : Fs} {nodes : List Event} {blocks : List BlockRef}

/-- A complete visit that starts from the root visits every reached node. -/
theorem reached_visited (complete : Complete m nodes blocks)
    (root : ⟨.root, rootFid, .inode⟩ ∈ nodes) {nid : Nat} {role : Role}
    (reached : Reached m nid role) : ∃ place, ⟨place, nid, role⟩ ∈ nodes := by
  induction reached with
  | root => exact ⟨.root, root⟩
  | slot _ inside valid ih =>
    obtain ⟨place, member⟩ := ih
    exact ⟨_, (complete _ member).slots inside valid⟩
  | dentry _ inside mapped fits valid ih =>
    obtain ⟨place, member⟩ := ih
    exact ⟨_, ((complete _ member).entries inside).dentries mapped fits valid⟩

/-- A complete visit goes through every place that refers to a node. -/
theorem refers_visited (complete : Complete m nodes blocks)
    (root : ⟨.root, rootFid, .inode⟩ ∈ nodes) {place : Place} {nid : Nat}
    (refers : Refers m place nid) : ∃ role, ⟨place, nid, role⟩ ∈ nodes := by
  cases refers with
  | root => exact ⟨.inode, root⟩
  | slot parent inside valid =>
    obtain ⟨place, member⟩ := reached_visited complete root parent
    exact ⟨_, (complete _ member).slots inside valid⟩
  | dentry parent inside mapped fits valid =>
    obtain ⟨place, member⟩ := reached_visited complete root parent
    exact ⟨_, ((complete _ member).entries inside).dentries mapped fits valid⟩

/-- A complete visit visits every block of a reached node. -/
theorem owns_visited (complete : Complete m nodes blocks)
    (root : ⟨.root, rootFid, .inode⟩ ∈ nodes) {blk nid offset : Nat}
    (owns : Owns m blk nid offset) : ⟨blk, nid, offset⟩ ∈ blocks := by
  cases owns with
  | node reached =>
    obtain ⟨place, member⟩ := reached_visited complete root reached
    exact (complete _ member).1
  | entry reached inside mapped =>
    obtain ⟨place, member⟩ := reached_visited complete root reached
    exact ((complete _ member).entries inside mapped).1

end Visited

/-! ## The table sweeps -/

/-- The number of valid blocks of a segment, counted over its blocks. -/
def countedBlocks (info : SegmentInfo) : Nat :=
  (List.range blockPerSeg).countP fun blk => info.validBmp.getLsbD blk

/-- The check of one SIT entry. -/
theorem chkSegment_ok {fs fs' : Fs} {seg : Nat} {used : Bool}
    (run : chkSegment seg fs = .ok used fs') :
    countedBlocks (fs.segments.segments seg) = (fs.segments.segments seg).validBlkNr ∧
      used = decide (fs.segments.curSegNo (fs.segments.segments seg).segTemp = seg ∨
        (fs.segments.segments seg).validBlkNr ≠ 0) ∧ fs' = fs := by
  simp only [chkSegment, get_bind_apply, throwIf_bind_eq_ok, pure_apply] at run
  obtain ⟨counted, done⟩ := run
  cases done
  exact ⟨not_not.mp counted, rfl, rfl⟩

/-- The check of the SIT. -/
theorem fsckChkMetadata_ok {fs fs' : Fs} {result : Unit}
    (run : fsckChkMetadata fs = .ok result fs') :
    (∀ seg < mainSegNr,
      countedBlocks (fs.segments.segments seg) = (fs.segments.segments seg).validBlkNr) ∧
      fs' = fs := by
  rw [fsckChkMetadata, bind_eq_ok] at run
  obtain ⟨count, middle, loop, run⟩ := run
  have swept := foldlM_ok (fun done _ state => state = fs ∧ ∀ seg ∈ done,
    countedBlocks (fs.segments.segments seg) = (fs.segments.segments seg).validBlkNr)
    ⟨rfl, by simp⟩ ?_ loop
  · obtain ⟨rfl, counted⟩ := swept
    simp only [get_bind_apply, throwIf_eq_ok] at run
    exact ⟨fun seg inside => counted seg (List.mem_range.mpr inside), run.2⟩
  · rintro done seg _ state _ state' - ⟨rfl, counted⟩ one
    obtain ⟨used, _, one, result⟩ := bind_eq_ok.mp one
    obtain ⟨here, -, rfl⟩ := chkSegment_ok one
    cases result
    refine ⟨rfl, ?_⟩
    simp only [List.mem_append, List.mem_singleton]
    rintro other (before | rfl)
    · exact counted other before
    · exact here

/-- The sweep over one node, in check mode. -/
theorem verifyNode_ok {check check' : Check} {nid : Nat} {result : Unit}
    (mode : check.fsck.needToFix = false) (run : verifyNode nid check = .ok result check') :
    check' = check ∧ (check.fs.nat.nat nid ≠ invalidBlk → check.fsck.nodeMap nid = true) := by
  simp only [verifyNode, get_bind_apply, doIf_eq_ok, mode, Bool.false_eq_true, if_false,
    throw_apply] at run
  cases run with
  | inl dead => cases dead.2
  | inr fine =>
    obtain ⟨fine, rfl⟩ := fine
    refine ⟨rfl, fun allocated => ?_⟩
    rw [not_and] at fine
    exact Bool.eq_true_of_not_eq_false (fine allocated)

/-- The sweep over one block, in check mode. -/
theorem verifyBlk_ok {check check' : Check} {seg blk : Nat} {result : Unit}
    (mode : check.fsck.needToFix = false) (run : verifyBlk seg blk check = .ok result check') :
    check' = check ∧ ((check.fs.segments.segments seg).validBmp.getLsbD blk = true →
      check.fsck.mainAreaMap (phyBlock seg blk) = true) := by
  simp only [verifyBlk, get_bind_apply, doIf_eq_ok, mode, Bool.false_eq_true, if_false,
    throw_apply] at run
  cases run with
  | inl dead => cases dead.2
  | inr fine =>
    obtain ⟨fine, rfl⟩ := fine
    refine ⟨rfl, fun valid => ?_⟩
    rw [not_and] at fine
    exact Bool.eq_true_of_not_eq_false (fine valid)

/-- The sweep over one segment, in check mode. -/
theorem verifySegment_ok {check check' : Check} {seg : Nat} {result : Unit}
    (mode : check.fsck.needToFix = false) (run : verifySegment seg check = .ok result check') :
    check' = check ∧ ((check.fs.segments.segments seg).validBlkNr ≠ 0 → ∀ blk < blockPerSeg,
      (check.fs.segments.segments seg).validBmp.getLsbD blk = true →
      check.fsck.mainAreaMap (phyBlock seg blk) = true) := by
  simp only [verifySegment, get_bind_apply, doIf_eq_ok] at run
  cases run with
  | inl swept =>
    obtain ⟨-, run⟩ := swept
    have loop := forM_ok (fun done state => state = check ∧ ∀ blk ∈ done,
      (check.fs.segments.segments seg).validBmp.getLsbD blk = true →
      check.fsck.mainAreaMap (phyBlock seg blk) = true) ⟨rfl, by simp⟩ ?_ run
    · exact ⟨loop.1, fun _ blk inside => loop.2 blk (List.mem_range.mpr inside)⟩
    · rintro done blk state state' - ⟨rfl, marked⟩ one
      obtain ⟨rfl, here⟩ := verifyBlk_ok mode one
      refine ⟨rfl, ?_⟩
      simp only [List.mem_append, List.mem_singleton]
      rintro other (before | rfl)
      · exact marked other before
      · exact here
  | inr empty =>
    obtain ⟨empty, rfl⟩ := empty
    exact ⟨rfl, fun used => absurd used empty⟩

/-- The sweeps over both tables, in check mode. -/
theorem fsckVerify_ok {check check' : Check} {result : Unit}
    (mode : check.fsck.needToFix = false) (run : fsckVerify check = .ok result check') :
    check' = check ∧
      (∀ nid < nodeNr, check.fs.nat.nat nid ≠ invalidBlk → check.fsck.nodeMap nid = true) ∧
      ∀ seg < mainSegNr, (check.fs.segments.segments seg).validBlkNr ≠ 0 → ∀ blk < blockPerSeg,
        (check.fs.segments.segments seg).validBmp.getLsbD blk = true →
        check.fsck.mainAreaMap (phyBlock seg blk) = true := by
  rw [fsckVerify, bind_eq_ok] at run
  obtain ⟨_, middle, nodeLoop, segmentLoop⟩ := run
  have nodes := forM_ok (fun done state => state = check ∧ ∀ nid ∈ done,
    check.fs.nat.nat nid ≠ invalidBlk → check.fsck.nodeMap nid = true) ⟨rfl, by simp⟩ ?_ nodeLoop
  · obtain ⟨rfl, nodes⟩ := nodes
    have segments := forM_ok (fun done state => state = middle ∧ ∀ seg ∈ done,
      (middle.fs.segments.segments seg).validBlkNr ≠ 0 → ∀ blk < blockPerSeg,
      (middle.fs.segments.segments seg).validBmp.getLsbD blk = true →
      middle.fsck.mainAreaMap (phyBlock seg blk) = true) ⟨rfl, by simp⟩ ?_ segmentLoop
    · exact ⟨segments.1, fun nid inside => nodes nid (List.mem_range.mpr inside),
        fun seg inside => segments.2 seg (List.mem_range.mpr inside)⟩
    · rintro done seg state state' - ⟨rfl, marked⟩ one
      obtain ⟨rfl, here⟩ := verifySegment_ok mode one
      refine ⟨rfl, ?_⟩
      simp only [List.mem_append, List.mem_singleton]
      rintro other (before | rfl)
      · exact marked other before
      · exact here
  · rintro done nid state state' - ⟨rfl, marked⟩ one
    obtain ⟨rfl, here⟩ := verifyNode_ok mode one
    refine ⟨rfl, ?_⟩
    simp only [List.mem_append, List.mem_singleton]
    rintro other (before | rfl)
    · exact marked other before
    · exact here

/-! ## The whole check -/

/-- What a check that returned has found out about the mounted file system. -/
structure Checked (m : Fs) (nodes : List Event) (blocks : List BlockRef) : Prop where
  /-- The SIT counts the valid blocks. -/
  counted : ∀ seg < mainSegNr,
    countedBlocks (m.segments.segments seg) = (m.segments.segments seg).validBlkNr
  /-- The walk starts from the root. -/
  root : ⟨.root, rootFid, .inode⟩ ∈ nodes
  /-- The walk is complete. -/
  complete : Complete m nodes blocks
  /-- No node is visited twice. -/
  nodesOnce : (nodes.map Event.nid).Nodup
  /-- No block is visited twice. -/
  blocksOnce : (blocks.map BlockRef.blk).Nodup
  /-- Visited nodes are reached. -/
  reached : ∀ event ∈ nodes, Reached m event.nid event.role ∧ Refers m event.place event.nid
  /-- Visited blocks belong to reached nodes. -/
  owned : ∀ ref ∈ blocks, Owns m ref.blk ref.nid ref.offset
  /-- Visited blocks are inside the main area. -/
  below : ∀ ref ∈ blocks, ref.blk < mainBlkNr
  /-- Visited blocks are valid. -/
  valid : ∀ ref ∈ blocks, m.segments.validAt ref.blk = true
  /-- The summaries of visited blocks name their owners. -/
  summary : ∀ ref ∈ blocks, m.segments.summaryAt ref.blk = ⟨ref.nid, ref.offset⟩
  /-- Every allocated node is visited. -/
  allNodes : ∀ nid < nodeNr, m.nat.nat nid ≠ invalidBlk → nid ∈ nodes.map Event.nid
  /-- Every valid block is visited. -/
  allBlocks : ∀ seg < mainSegNr, ∀ blk < blockPerSeg,
    (m.segments.segments seg).validBmp.getLsbD blk = true →
    phyBlock seg blk ∈ blocks.map BlockRef.blk

/-- The state in which the walk starts. -/
theorem stable_start (m : Fs) (fix : Bool) : Stable m fix { fs := m, fsck := .start fix } :=
  ⟨rfl, .refl _, rfl, fun _ => rfl, fun _ => rfl⟩

/-- The checks after mounting, in check mode. -/
theorem fsckWalk_ok {m : Fs} {check : Check} {result : Unit}
    (run : fsckWalk { fs := m, fsck := .start false } = .ok result check) :
    ∃ nodes blocks, Checked m nodes blocks := by
  simp only [fsckWalk, bind_eq_ok] at run
  obtain ⟨_, _, metadata, count, walked, walk, sweep⟩ := run
  obtain ⟨fs, counting, rfl⟩ := Lens.zoom_eq_ok.mp metadata
  obtain ⟨counted, same⟩ := fsckChkMetadata_ok counting
  obtain rfl : m = fs := same.symm
  change ∀ seg < mainSegNr, countedBlocks (m.segments.segments seg) =
    (m.segments.segments seg).validBlkNr at counted
  obtain ⟨nodes, blocks, visit, complete, root, -⟩ :=
    fsckChkNodeBlk_spec m false (nodeNr + 1) .root _ _ _ _ _ _ (stable_start m false) walk
  obtain ⟨-, allNodes, allBlocks⟩ := fsckVerify_ok visit.stable.mode sweep
  have given : Reached m rootFid (expectedRole .dir .inode) ∧ Refers m .root rootFid :=
    ⟨.root, .root⟩
  have segments : walked.fs.segments = m.segments :=
    visit.stable.untouched (visit.stable.exact rfl)
  have table : walked.fs.nat = m.nat := by rw [visit.stable.frame]
  have marked : ∀ blk, walked.fsck.mainAreaMap blk = true → blk ∈ blocks.map BlockRef.blk := by
    intro blk mark
    exact ((visit.mainAreaMap.marks blk).mp mark).resolve_left (by simp [Fsck.start])
  rw [segments] at allBlocks
  rw [table] at allNodes
  refine ⟨nodes, blocks, counted, root, complete, visit.nodeMap.nodup, visit.mainAreaMap.nodup,
    visit.reached given, visit.owned given, visit.below, visit.valid rfl, ?_, ?_, ?_⟩
  · rw [← segments]
    exact visit.summary
  · intro nid inside allocated
    have mark := allNodes nid inside allocated
    exact ((visit.nodeMap.marks nid).mp mark).resolve_left (by simp [Fsck.start])
  · intro seg inside blk small set
    have used : (m.segments.segments seg).validBlkNr ≠ 0 := by
      have same := counted seg inside
      have positive : 0 < countedBlocks (m.segments.segments seg) :=
        List.countP_pos_iff.mpr ⟨blk, List.mem_range.mpr small, set⟩
      omega
    exact marked _ (allBlocks seg inside used blk small set)

/-- No SIT entry has a bit set behind the blocks of its segment. -/
def NoSpareBits (entry : Nat → BitVec 32) : Prop :=
  ∀ seg < mainSegNr, ∀ bit, blockPerSeg ≤ bit → (entry seg).getLsbD bit = false

/-- Checked metadata without spare bits is consistent. -/
theorem Checked.consistent {m : Fs} {nodes : List Event} {blocks : List BlockRef}
    (checked : Checked m nodes blocks)
    (spare : NoSpareBits fun seg => (m.segments.segments seg).validBmp) : Consistent m where
  node nid inside allocated := by
    obtain ⟨event, member, rfl⟩ := List.mem_map.mp (checked.allNodes nid inside allocated)
    refine ⟨event.place, (checked.reached event member).2, fun other refers => ?_⟩
    obtain ⟨role, visited⟩ := refers_visited checked.complete checked.root refers
    have same := List.inj_on_of_nodup_map checked.nodesOnce visited member rfl
    exact congrArg Event.place same
  below owns := checked.below _ (owns_visited checked.complete checked.root owns)
  distinct owns owns' := by
    have same := List.inj_on_of_nodup_map checked.blocksOnce
      (owns_visited checked.complete checked.root owns)
      (owns_visited checked.complete checked.root owns') rfl
    exact ⟨congrArg BlockRef.nid same, congrArg BlockRef.offset same⟩
  valid owns := checked.valid _ (owns_visited checked.complete checked.root owns)
  summary owns := by
    have named := checked.summary _ (owns_visited checked.complete checked.root owns)
    exact ⟨congrArg Summary.nid named, congrArg Summary.offset named⟩
  owned seg inside bit set := by
    have small : bit < blockPerSeg := by
      apply Nat.lt_of_not_le
      intro high
      rw [spare seg inside bit high] at set
      cases set
    obtain ⟨ref, member, same⟩ := List.mem_map.mp (checked.allBlocks seg inside bit small set)
    refine ⟨small, ref.nid, ref.offset, ?_⟩
    rw [← same]
    exact checked.owned ref member
  counted seg inside := by
    rw [← checked.counted seg inside, countedBlocks, countP_range_getLsbD]
    exact (popCount_eq_of_clear (by decide) (spare seg inside)).symm
  validData reached := by
    obtain ⟨place, member⟩ := reached_visited checked.complete checked.root reached
    exact (checked.complete _ member).2.2
  blkNum reached := by
    obtain ⟨place, member⟩ := reached_visited checked.complete checked.root reached
    exact (checked.complete _ member).2.2

/-- Loading takes the valid bits of a segment from the SIT of the image. -/
theorem Mounted.validBmp {fs m : Fs} {slot seg : Nat} (mounted : Mounted fs m slot)
    (inside : seg < mainSegNr) :
    (m.segments.segments seg).validBmp =
      (sitArea.stored (imageCkpt fs.storage slot) fs.storage seg).validBmp := by
  rw [mounted.segments, SegmentManager.sameContent_buildFreeLink _ seg]
  simp only [SegmentManager.loaded, ssaOver, sitOver, inside, if_true]
  rfl

/-- When the check returns, the mounted metadata is consistent exactly if no SIT entry of the image
has a bit set behind the blocks of its segment. -/
theorem fsck_sound {fs fs' : Fs} {fixed : Bool} (returns : fsck false fs = .ok fixed fs') :
    ∃ m slot, mount fs = .ok () m ∧ chosenSlot fs.storage = .ok slot ∧
      (Consistent m ↔ NoSpareBits fun seg =>
        (sitArea.stored (imageCkpt fs.storage slot) fs.storage seg).validBmp) := by
  rw [fsck, bind_eq_ok] at returns
  obtain ⟨_, m, mounting, run⟩ := returns
  obtain ⟨slot, mounted⟩ := mount_ok mounting
  refine ⟨m, slot, mounting, mounted.readable.ckpt.chosen, ?_⟩
  rw [get_bind_apply] at run
  cases walk : fsckWalk { fs := m, fsck := .start false } with
  | error fault check =>
    rw [walk] at run
    cases run
  | ok result check =>
    obtain ⟨nodes, blocks, checked⟩ := fsckWalk_ok walk
    constructor
    · intro consistent seg inside bit high
      show (sitArea.stored (imageCkpt fs.storage slot) fs.storage seg).validBmp.getLsbD bit = false
      rw [← mounted.validBmp inside]
      apply Bool.eq_false_of_not_eq_true
      intro set
      exact absurd (consistent.owned seg inside bit set).1 (Nat.not_lt.mpr high)
    · intro spare
      apply checked.consistent
      intro seg inside bit high
      show (m.segments.segments seg).validBmp.getLsbD bit = false
      rw [mounted.validBmp inside]
      exact spare seg inside bit high

/-- A bitmap below `2 ^ 10` has no spare bits. -/
theorem noSpareBits_of_lt {entry : Nat → BitVec 32}
    (small : ∀ seg < mainSegNr, (entry seg).toNat < 2 ^ blockPerSeg) : NoSpareBits entry :=
  fun seg inside _ high => Nat.testBit_lt_two_pow <|
    (small seg inside).trans_le (Nat.pow_le_pow_right Nat.two_pos high)

/-- An image with one file returns from the check, and its metadata is consistent: the inode of the
file is a node of the directory tree, and its blocks are counted. -/
theorem fsck_sound_populated :
    ∃ m, mount .populated = .ok () m ∧ Consistent m ∧ m.nat.nat 1 ≠ invalidBlk := by
  have run : returned (fsck false .populated) = true := by decide +kernel
  obtain ⟨fixed, fs', returns⟩ := eq_ok_of_returned run
  obtain ⟨m, slot, mounting, chosen, sound⟩ := fsck_sound returns
  have second : chosenSlot Fs.populated.storage = .ok 1 := by decide +kernel
  obtain rfl : slot = 1 := Except.ok.inj (chosen.symm.trans second)
  have node : (finalState (mount .populated)).nat.nat 1 ≠ invalidBlk := by decide +kernel
  rw [mounting, finalState_ok] at node
  refine ⟨m, mounting, sound.mpr (noSpareBits_of_lt ?_), node⟩
  decide +kernel

/-- A formatted image in which the SIT entry of segment 5 has bit 20 set. -/
def spareBitFs : Fs :=
  let block := blockOf Fs.formatted.storage sitStartBlk
  { Fs.formatted with
    storage := (⟨sitStartBlk, by decide⟩,
      { block with
        sit := Function.update block.sit 5 { block.sit 5 with validBmp := setBit 0 20 } }) ::
        Fs.formatted.storage }

/-- The check returns on an image with a spare bit, whose metadata is not consistent. -/
theorem fsck_misses_spare_bit :
    ∃ fixed fs' m, fsck false spareBitFs = .ok fixed fs' ∧ mount spareBitFs = .ok () m ∧
      ¬ Consistent m := by
  have run : returned (fsck false spareBitFs) = true := by decide +kernel
  obtain ⟨fixed, fs', returns⟩ := eq_ok_of_returned run
  have run' : returned (mount spareBitFs) = true := by decide +kernel
  obtain ⟨_, m, mounting⟩ := eq_ok_of_returned run'
  refine ⟨fixed, fs', m, returns, mounting, fun consistent => ?_⟩
  obtain ⟨slot, mounted⟩ := mount_ok mounting
  have slot : slot = 0 := by
    have chosen : chosenSlot spareBitFs.storage = .ok 0 := by decide +kernel
    exact Except.ok.inj (mounted.readable.ckpt.chosen.symm.trans chosen)
  subst slot
  have set : (m.segments.segments 5).validBmp.getLsbD 20 = true := by
    rw [mounted.validBmp (by decide)]
    decide +kernel
  exact absurd (consistent.owned 5 (by decide) 20 set).1 (by decide)

end FsChecking.F2fs
