import FsChecking.PerfSim.SegmentManager
import FsChecking.Lib.Table

/-!
# Accounting of append-only segments

The invariant of the segment tables, and what the three operations on them (allocate, write,
invalidate) do to it and to the block maps.
-/

namespace FsChecking.PerfSim

open Lib

variable {β : Type}

/-- The number of mapped entries of a segment. -/
def SegInfo.mapped (info : SegInfo β) : Nat :=
  (List.range blockPerSeg).countP fun blk => (info.blkMap blk).isSome

/-- How changing one entry changes the number of mapped entries. -/
theorem SegInfo.mapped_update {info info' : SegInfo β} {blk : Nat} (inside : blk < blockPerSeg)
    {entry : Option β} (changed : info'.blkMap = Function.update info.blkMap blk entry) :
    info'.mapped + (info.blkMap blk).isSome.toNat = info.mapped + entry.isSome.toNat := by
  unfold mapped
  rw [changed]
  exact countP_range_update Option.isSome info.blkMap inside entry

/-- A segment has no more mapped entries than entries. -/
theorem SegInfo.mapped_le (info : SegInfo β) : info.mapped ≤ blockPerSeg := by
  refine List.countP_le_length.trans ?_
  rw [List.length_range]

namespace SegmentManager

/-- The entry of a block map. -/
def at' (manager : SegmentManager β) (place : Nat × Nat) : Option β :=
  (manager.segments place.1).blkMap place.2

/-- What holds of the segment tables between the operations on them. -/
structure Sound (manager : SegmentManager β) (free : List Nat) : Prop where
  /-- The free segments. -/
  queue : manager.free.Holds free
  /-- No segment is free twice. -/
  nodup : free.Nodup
  /-- A free segment exists. -/
  inside : ∀ seg ∈ free, seg < manager.segNr
  /-- A free segment has not been written. -/
  unwritten : ∀ seg ∈ free, (manager.segments seg).curBlk = 0
  /-- The counters of mapped entries. -/
  counted : ∀ seg, (manager.segments seg).validBlkNr = (manager.segments seg).mapped
  /-- Nothing is mapped behind the written part. -/
  beyond : ∀ seg blk, (manager.segments seg).curBlk ≤ blk →
    (manager.segments seg).blkMap blk = none
  /-- No more blocks are written than there are. -/
  bounded : ∀ seg, (manager.segments seg).curBlk ≤ blockPerSeg
  /-- A log head is an existing segment that is not free. -/
  heads : ∀ temp seg, manager.curSegs temp = some seg → seg < manager.segNr ∧ seg ∉ free
  /-- The log heads are distinct. -/
  apart : ∀ left right seg, manager.curSegs left = some seg → manager.curSegs right = some seg →
    left = right
  /-- What is mapped is mapped in an existing segment. -/
  exist : ∀ seg blk, manager.segNr ≤ seg → (manager.segments seg).blkMap blk = none

/-- Every log head has room. -/
def HeadsOpen (manager : SegmentManager β) : Prop :=
  ∀ temp seg, manager.curSegs temp = some seg → (manager.segments seg).curBlk < blockPerSeg

variable {manager manager' : SegmentManager β} {free : List Nat} {seg blk : Nat} {temp : BlkTemp}
  {block : β}

/-- The segment that was changed. -/
@[simp] theorem updateSeg_self (manager : SegmentManager β) (seg : Nat)
    (change : SegInfo β → SegInfo β) :
    (manager.updateSeg seg change).segments seg = change (manager.segments seg) :=
  Function.update_self ..

/-- The other segments. -/
@[simp] theorem updateSeg_of_ne {other : Nat} {change : SegInfo β → SegInfo β}
    (apart : other ≠ seg) :
    (manager.updateSeg seg change).segments other = manager.segments other :=
  Function.update_of_ne apart ..

/-- Changing a segment keeps the queue. -/
@[simp] theorem updateSeg_free (manager : SegmentManager β) (seg : Nat)
    (change : SegInfo β → SegInfo β) : (manager.updateSeg seg change).free = manager.free := rfl

/-- Changing a segment keeps the log heads. -/
@[simp] theorem updateSeg_curSegs (manager : SegmentManager β) (seg : Nat)
    (change : SegInfo β → SegInfo β) :
    (manager.updateSeg seg change).curSegs = manager.curSegs := rfl

/-- A mapped entry lies in an existing segment, in its written part. -/
theorem Sound.mapped_place (sound : manager.Sound free) (held : manager.at' (seg, blk) = some block) :
    seg < manager.segNr ∧ blk < (manager.segments seg).curBlk ∧ blk < blockPerSeg := by
  have written : blk < (manager.segments seg).curBlk := by
    by_contra behind
    have empty := sound.beyond seg blk (Nat.le_of_not_lt behind)
    rw [at', empty] at held
    cases held
  have existing : seg < manager.segNr := by
    by_contra outside
    have empty := sound.exist seg blk (Nat.le_of_not_lt outside)
    rw [at', empty] at held
    cases held
  exact ⟨existing, written, Nat.lt_of_lt_of_le written (sound.bounded seg)⟩

/-- A free segment holds nothing. -/
theorem Sound.empty_of_free (sound : manager.Sound free) (member : seg ∈ free) (blk : Nat) :
    manager.at' (seg, blk) = none :=
  sound.beyond seg blk (by rw [sound.unwritten seg member]; exact Nat.zero_le blk)

/-- The segments hold the same and are written as far. -/
def SameContent (before after : SegmentManager β) : Prop :=
  ∀ seg, (after.segments seg).blkMap = (before.segments seg).blkMap ∧
    (after.segments seg).curBlk = (before.segments seg).curBlk ∧
    (after.segments seg).validBlkNr = (before.segments seg).validBlkNr

/-- The accounting depends on the content, the queue and the log heads. -/
theorem Sound.transfer (sound : manager.Sound free) (same : manager.SameContent manager')
    {rest : List Nat} (queue : manager'.free.Holds rest) (nodup : rest.Nodup)
    (fewer : ∀ seg ∈ rest, seg ∈ free) (segNr : manager'.segNr = manager.segNr)
    (heads : ∀ temp seg, manager'.curSegs temp = some seg → seg < manager.segNr ∧ seg ∉ rest)
    (apart : ∀ left right seg, manager'.curSegs left = some seg →
      manager'.curSegs right = some seg → left = right) : manager'.Sound rest where
  queue := queue
  nodup := nodup
  inside seg member := by
    rw [segNr]
    exact sound.inside seg (fewer seg member)
  unwritten seg member := by
    rw [(same seg).2.1]
    exact sound.unwritten seg (fewer seg member)
  counted seg := by
    rw [(same seg).2.2, SegInfo.mapped, (same seg).1]
    exact sound.counted seg
  beyond seg blk := by
    rw [(same seg).1, (same seg).2.1]
    exact sound.beyond seg blk
  bounded seg := by
    rw [(same seg).2.1]
    exact sound.bounded seg
  heads temp seg isHead := by
    rw [segNr]
    exact heads temp seg isHead
  apart := apart
  exist seg blk outside := by
    rw [(same seg).1]
    exact sound.exist seg blk (segNr ▸ outside)

/-- Changing only the temperature keeps the content. -/
theorem sameContent_updateSeg (manager : SegmentManager β) (seg : Nat)
    {change : SegInfo β → SegInfo β} (same : ∀ info : SegInfo β, (change info).blkMap = info.blkMap ∧
      (change info).curBlk = info.curBlk ∧ (change info).validBlkNr = info.validBlkNr) :
    manager.SameContent (manager.updateSeg seg change) := by
  intro other
  by_cases here : other = seg
  · subst here
    rw [updateSeg_self]
    exact same _
  · rw [updateSeg_of_ne here]
    exact ⟨rfl, rfl, rfl⟩

/-- An entry after a segment changed. -/
theorem at'_updateSeg (manager : SegmentManager β) (seg : Nat) {change : SegInfo β → SegInfo β}
    {blk : Nat} {entry : Option β}
    (changed : (change (manager.segments seg)).blkMap =
      Function.update (manager.segments seg).blkMap blk entry) :
    (manager.updateSeg seg change).at' = Function.update manager.at' (seg, blk) entry := by
  funext place
  by_cases segHere : place.1 = seg
  · rw [at', segHere, updateSeg_self, changed]
    by_cases blkHere : place.2 = blk
    · rw [blkHere, Function.update_self, show place = (seg, blk) from Prod.ext segHere blkHere,
        Function.update_self]
    · rw [Function.update_of_ne blkHere,
        Function.update_of_ne fun same => blkHere (congrArg Prod.snd same), at', segHere]
  · rw [at', updateSeg_of_ne segHere,
      Function.update_of_ne fun same => segHere (congrArg Prod.fst same), at']

/-- Writing behind the written part of a segment that is not free. -/
theorem Sound.append (sound : manager.Sound free) (existing : seg < manager.segNr)
    (used : seg ∉ free) (room : (manager.segments seg).curBlk < blockPerSeg) (block : β) :
    (manager.append seg block).Sound free := by
  have vacant := sound.beyond seg _ le_rfl
  have others : ∀ other, other ≠ seg →
      (manager.append seg block).segments other = manager.segments other :=
    fun other apart => updateSeg_of_ne apart
  have self : (manager.append seg block).segments seg =
      { manager.segments seg with
        blkMap := Function.update (manager.segments seg).blkMap (manager.segments seg).curBlk
          (some block)
        validBlkNr := (manager.segments seg).validBlkNr + 1
        curBlk := (manager.segments seg).curBlk + 1 } := updateSeg_self ..
  exact
    { queue := sound.queue
      nodup := sound.nodup
      inside := sound.inside
      unwritten := by
        intro other member
        rw [others other fun same => used (same ▸ member)]
        exact sound.unwritten other member
      counted := by
        intro other
        by_cases here : other = seg
        · subst here
          have change := SegInfo.mapped_update room (congrArg SegInfo.blkMap self)
          rw [vacant] at change
          have counter := congrArg SegInfo.validBlkNr self
          dsimp only at counter
          simp only [Option.isSome_none, Bool.toNat_false, Option.isSome_some, Bool.toNat_true]
            at change
          rw [counter, sound.counted other]
          omega
        · rw [others other here]
          exact sound.counted other
      beyond := by
        intro other blk
        by_cases here : other = seg
        · subst here
          rw [self]
          dsimp only
          intro behind
          rw [Function.update_of_ne (by omega)]
          exact sound.beyond other blk (by omega)
        · rw [others other here]
          exact sound.beyond other blk
      bounded := by
        intro other
        by_cases here : other = seg
        · subst here
          rw [self]
          exact Nat.succ_le_of_lt room
        · rw [others other here]
          exact sound.bounded other
      heads := sound.heads
      apart := sound.apart
      exist := by
        intro other blk outside
        rw [others other fun same => absurd existing (Nat.not_lt.mpr (same ▸ outside))]
        exact sound.exist other blk outside }

/-- Closing a log that has been written to its end. -/
theorem Sound.closeHead (sound : manager.Sound free) (temp : BlkTemp) (seg : Nat) :
    (manager.closeHead temp seg).Sound free := by
  unfold SegmentManager.closeHead
  split
  · have remains : ∀ other head,
        Function.update manager.curSegs temp none other = some head →
          manager.curSegs other = some head := by
      intro other head isHead
      by_cases here : other = temp
      · rw [here, Function.update_self] at isHead
        cases isHead
      · rwa [Function.update_of_ne here] at isHead
    refine sound.transfer ?_ sound.queue sound.nodup (fun _ => id) ?_ ?_ ?_
    · exact fun _ => ⟨rfl, rfl, rfl⟩
    · rfl
    · exact fun other head isHead => sound.heads other head (remains other head isHead)
    · exact fun left right head isLeft isRight =>
        sound.apart left right head (remains left head isLeft) (remains right head isRight)
  · exact sound

/-- Closing a log keeps the number of segments. -/
@[simp] theorem segNr_closeHead (manager : SegmentManager β) (temp : BlkTemp) (seg : Nat) :
    (manager.closeHead temp seg).segNr = manager.segNr := by
  unfold SegmentManager.closeHead
  split <;> rfl

/-- Clearing a mapped entry. -/
theorem Sound.clear (sound : manager.Sound free) (held : manager.at' (seg, blk) = some block) :
    (manager.clear seg blk).Sound free ∧
      (manager.clear seg blk).at' = Function.update manager.at' (seg, blk) none := by
  obtain ⟨existing, written, inside⟩ := sound.mapped_place held
  refine ⟨?_, at'_updateSeg manager seg rfl⟩
  have others : ∀ other, other ≠ seg →
      (manager.clear seg blk).segments other = manager.segments other :=
    fun other apart => updateSeg_of_ne apart
  have self : (manager.clear seg blk).segments seg =
      { manager.segments seg with
        blkMap := Function.update (manager.segments seg).blkMap blk none
        validBlkNr := dword ((manager.segments seg).validBlkNr + (2 ^ 32 - 1)) } :=
    updateSeg_self ..
  have fewer : ∀ other key, (manager.segments other).blkMap key = none →
      ((manager.clear seg blk).segments other).blkMap key = none := by
    intro other key empty
    by_cases here : other = seg
    · subst here
      rw [self]
      dsimp only
      by_cases same : key = blk
      · rw [same, Function.update_self]
      · rw [Function.update_of_ne same, empty]
    · rw [others other here, empty]
  have progress : ∀ other, ((manager.clear seg blk).segments other).curBlk =
      (manager.segments other).curBlk := by
    intro other
    by_cases here : other = seg
    · subst here
      rw [self]
    · rw [others other here]
  exact
    { queue := sound.queue
      nodup := sound.nodup
      inside := sound.inside
      unwritten := fun other member => (progress other).trans (sound.unwritten other member)
      counted := by
        intro other
        by_cases here : other = seg
        · subst here
          have change := SegInfo.mapped_update inside (congrArg SegInfo.blkMap self)
          have isMapped : (manager.segments other).blkMap blk = some block := held
          have few := SegInfo.mapped_le (manager.segments other)
          rw [isMapped] at change
          simp only [Option.isSome_none, Bool.toNat_false, Option.isSome_some, Bool.toNat_true]
            at change
          have counter := congrArg SegInfo.validBlkNr self
          dsimp only [dword] at counter
          have size : blockPerSeg = 512 := rfl
          rw [counter, sound.counted other]
          omega
        · rw [others other here]
          exact sound.counted other
      beyond := fun other key behind =>
        fewer other key (sound.beyond other key (progress other ▸ behind))
      bounded := fun other => (progress other).le.trans (sound.bounded other)
      heads := sound.heads
      apart := sound.apart
      exist := fun other key outside => fewer other key (sound.exist other key outside) }

/-- Returning a segment that holds nothing to the queue. -/
theorem Sound.release (sound : manager.Sound free) (existing : seg < manager.segNr)
    (written : (manager.segments seg).curBlk ≠ 0)
    (empty : ∀ blk, (manager.segments seg).blkMap blk = none)
    (unused : ∀ temp, manager.curSegs temp ≠ some seg) {queue : CircularQueue Nat}
    (pushed : manager.free.push seg = some queue) :
    (({ manager with free := queue }).updateSeg seg fun _ => .blank).Sound (free ++ [seg]) ∧
      (({ manager with free := queue }).updateSeg seg fun _ => .blank).at' = manager.at' := by
  obtain ⟨holds, capacity⟩ := sound.queue.push pushed
  have others : ∀ other, other ≠ seg →
      (({ manager with free := queue }).updateSeg seg fun _ => .blank).segments other =
        manager.segments other := fun other apart => updateSeg_of_ne apart
  have self : (({ manager with free := queue }).updateSeg seg fun _ => .blank).segments seg =
      .blank := updateSeg_self ..
  have used : seg ∉ free := fun member => written (sound.unwritten seg member)
  refine ⟨?_, ?_⟩
  · exact
      { queue := holds
        nodup := by
          rw [List.nodup_append]
          refine ⟨sound.nodup, by simp, ?_⟩
          intro other member last isLast same
          rw [List.mem_singleton] at isLast
          exact used (isLast ▸ same ▸ member)
        inside := by
          intro other member
          show other < queue.capacity
          rw [capacity]
          rcases List.mem_append.mp member with before | last
          · exact sound.inside other before
          · rw [List.mem_singleton.mp last]
            exact existing
        unwritten := by
          intro other member
          by_cases here : other = seg
          · rw [here, self]
            rfl
          · rw [others other here]
            rcases List.mem_append.mp member with before | last
            · exact sound.unwritten other before
            · exact absurd (List.mem_singleton.mp last) here
        counted := by
          intro other
          by_cases here : other = seg
          · rw [here, self]
            symm
            show (List.range blockPerSeg).countP (fun _ => false) = 0
            rw [List.countP_eq_zero]
            simp
          · rw [others other here]
            exact sound.counted other
        beyond := by
          intro other blk
          by_cases here : other = seg
          · rw [here, self]
            exact fun _ => rfl
          · rw [others other here]
            exact sound.beyond other blk
        bounded := by
          intro other
          by_cases here : other = seg
          · rw [here, self]
            exact Nat.zero_le _
          · rw [others other here]
            exact sound.bounded other
        heads := by
          intro temp head isHead
          obtain ⟨inside, apart⟩ := sound.heads temp head isHead
          refine ⟨?_, ?_⟩
          · show head < queue.capacity
            rw [capacity]
            exact inside
          · intro member
            rcases List.mem_append.mp member with before | last
            · exact apart before
            · exact unused temp (List.mem_singleton.mp last ▸ isHead)
        apart := sound.apart
        exist := by
          intro other blk outside
          by_cases here : other = seg
          · rw [here, self]
            rfl
          · rw [others other here]
            exact sound.exist other blk (by
              show manager.free.capacity ≤ other
              rw [← capacity]
              exact outside) }
  · funext place
    by_cases here : place.1 = seg
    · rw [at', here, self, at', here, empty]
      rfl
    · rw [at', others place.1 here, at']

end SegmentManager

open SegmentManager

variable {manager manager' : SegmentManager β} {free : List Nat} {seg blk : Nat} {temp : BlkTemp}
  {block : β}

/-- The written part after a write. -/
theorem SegmentManager.curBlk_append (manager : SegmentManager β) (seg other : Nat) (block : β) :
    ((manager.append seg block).segments other).curBlk =
      (manager.segments other).curBlk + if other = seg then 1 else 0 := by
  by_cases here : other = seg
  · rw [here, if_pos rfl]
    exact congrArg SegInfo.curBlk (updateSeg_self manager seg _)
  · rw [if_neg here]
    exact congrArg SegInfo.curBlk (updateSeg_of_ne here)

end FsChecking.PerfSim
