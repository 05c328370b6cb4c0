import FsChecking.F2fs.Segment

/-!
# Invalidating blocks

What `InvalidBlock` leaves of the segment tables when the SIT counts its bits: one bit less, and
perhaps one free segment more.
-/

namespace FsChecking.F2fs

open Lib

namespace SegmentManager

variable {manager : SegmentManager} {blk : Nat}

/-- The SIT marks a block as valid. -/
def isValid (manager : SegmentManager) (blk : Nat) : Bool :=
  (manager.segments (blk / blockPerSeg)).validBmp.getLsbD (blk % blockPerSeg)

/-- The SIT counts its bits. -/
def Counted (manager : SegmentManager) : Prop :=
  ∀ seg < mainSegNr, (manager.segments seg).validBlkNr = popCount (manager.segments seg).validBmp 32

/-- Changing the place of segments in the queue changes no bit and no count. -/
theorem SameContent.bits {before after : SegmentInfo} (same : SameContent before after) :
    after.validBmp = before.validBmp ∧ after.validBlkNr = before.validBlkNr := by
  rw [same]
  exact ⟨rfl, rfl⟩

/-- Giving a segment to the queue keeps the contents. -/
theorem sameContent_freeSegment (manager : SegmentManager) (seg other : Nat) :
    SameContent (manager.segments other) ((manager.freeSegment seg).segments other) := by
  refine SameContent.trans ?_ (sameContent_freeEnQueue _ seg other)
  exact sameContent_updateSeg manager seg other (fun info => { info with segTemp := btTempNr })
    fun _ => rfl

/-- The bits after giving a segment to the queue. -/
theorem isValid_freeSegment (manager : SegmentManager) (seg blk : Nat) :
    (manager.freeSegment seg).isValid blk = manager.isValid blk := by
  unfold isValid
  rw [(SameContent.bits (sameContent_freeSegment manager seg (blk / blockPerSeg))).1]

/-- The counts after giving a segment to the queue. -/
theorem Counted.freeSegment (counted : manager.Counted) (seg : Nat) :
    (manager.freeSegment seg).Counted := by
  intro other inside
  obtain ⟨bits, count⟩ := SameContent.bits (sameContent_freeSegment manager seg other)
  rw [bits, count]
  exact counted other inside

/-- The bits of one segment are given by the place inside. -/
theorem blk_eq_iff {blk other : Nat} (seg : other / blockPerSeg = blk / blockPerSeg) :
    other = blk ↔ other % blockPerSeg = blk % blockPerSeg :=
  flag_eq_iff seg

/-- The bits after dropping a block. -/
theorem isValid_dropBlock (manager : SegmentManager) (blk other : Nat) :
    (manager.dropBlock (blk / blockPerSeg) (blk % blockPerSeg)).isValid other =
      (manager.isValid other && !decide (other = blk)) := by
  have place : blk % blockPerSeg < 32 := Nat.lt_of_lt_of_le (Nat.mod_lt _ (by decide)) (by decide)
  unfold isValid dropBlock setDirty
  dsimp only
  by_cases seg : other / blockPerSeg = blk / blockPerSeg
  · rw [seg, updateSeg_self]
    dsimp only
    rw [getLsbD_clearBit _ place]
    simp only [blk_eq_iff seg]
  · have apart : other ≠ blk := fun same => seg (by rw [same])
    rw [updateSeg_of_ne seg]
    simp [apart]

/-- The counts after dropping a valid block. -/
theorem Counted.dropBlock (counted : manager.Counted)
    (valid : manager.isValid blk = true) :
    (manager.dropBlock (blk / blockPerSeg) (blk % blockPerSeg)).Counted := by
  intro other below
  have place : blk % blockPerSeg < 32 := Nat.lt_of_lt_of_le (Nat.mod_lt _ (by decide)) (by decide)
  unfold SegmentManager.dropBlock setDirty
  dsimp only
  by_cases seg : other = blk / blockPerSeg
  · subst seg
    rw [updateSeg_self]
    dsimp only
    have fewer := popCount_clearBit (Nat.le_refl 32) place valid
    have few := popCount_le (manager.segments (blk / blockPerSeg)).validBmp 32
    rw [counted _ below]
    unfold dword
    omega
  · rw [updateSeg_of_ne seg]
    exact counted other below

/-- What `InvalidBlock` leaves. -/
def invalidated (manager : SegmentManager) (blk : Nat) : SegmentManager :=
  let dropped := manager.dropBlock (blk / blockPerSeg) (blk % blockPerSeg)
  let info := dropped.segments (blk / blockPerSeg)
  if info.validBlkNr = 0 ∧ dropped.curSegNo info.segTemp ≠ blk / blockPerSeg then
    dropped.freeSegment (blk / blockPerSeg)
  else dropped

/-- The bits after invalidating a block. -/
theorem isValid_invalidated (manager : SegmentManager) (blk other : Nat) :
    (manager.invalidated blk).isValid other = (manager.isValid other && !decide (other = blk)) := by
  unfold invalidated
  dsimp only
  split
  · rw [isValid_freeSegment, isValid_dropBlock]
  · exact isValid_dropBlock manager blk other

/-- The counts after invalidating a valid block. -/
theorem Counted.invalidated (counted : manager.Counted) (valid : manager.isValid blk = true) :
    (manager.invalidated blk).Counted := by
  unfold SegmentManager.invalidated
  dsimp only
  split
  · exact (counted.dropBlock valid).freeSegment _
  · exact counted.dropBlock valid

end SegmentManager

/-- Invalidating a valid block returns. -/
theorem invalidBlock_of_valid {manager : SegmentManager} {blk : Nat} (counted : manager.Counted)
    (inside : blk < mainBlkNr) (valid : manager.isValid blk = true) :
    ∃ freed, invalidBlock blk manager = .ok freed (manager.invalidated blk) := by
  have seg : ¬ blk / blockPerSeg ≥ mainSegNr := by
    unfold mainBlkNr blockPerSeg mainSegNr at *
    omega
  have isBlock : blk ≠ invalidBlk := fun same => by
    rw [same] at inside
    exact absurd inside (by decide)
  have dropped := counted.dropBlock valid
  unfold SegmentManager.isValid at valid
  unfold invalidBlock invalidBlockAt SegmentManager.invalidated
  rw [if_neg isBlock, throwIf_bind_of_not seg, get_bind_apply, throwIf_bind_of_not (by simp [valid]),
    modify_bind_apply, get_bind_apply]
  dsimp only
  split
  · rename_i empty
    have clear : ¬ ((manager.dropBlock (blk / blockPerSeg) (blk % blockPerSeg)).segments
        (blk / blockPerSeg)).validBmp ≠ 0 := by
      have none := dropped (blk / blockPerSeg) (Nat.lt_of_not_le seg)
      rw [empty.1] at none
      rw [not_not]
      refine BitVec.eq_of_getLsbD_eq fun bit below => ?_
      rw [popCount_eq_zero.mp none.symm bit below]
      simp
    rw [throwIf_bind_of_not clear]
    exact ⟨true, rfl⟩
  · exact ⟨false, rfl⟩

end FsChecking.F2fs
