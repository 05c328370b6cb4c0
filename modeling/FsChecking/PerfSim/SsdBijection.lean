import FsChecking.PerfSim.SsdMapping

/-!
# The bijection of an SSD simulator

On a device whose logical and physical block numbers fit their type the map of the logical blocks is
a bijection after every sequence of requests. Both bounds are needed: a log that is filled in order,
from the first block of the first segment on, reaches the place whose number is `INVALID_BLK`.
-/

namespace FsChecking.PerfSim

open Lib SegmentManager

variable {ssd ssd' : Ssd} {segNr : Nat} {choose : LogChoice}

/-! ## A log filled in order -/

/-- So many blocks were written to one log, from the first block of the first segment on. -/
structure FilledTo (manager : SegmentManager Nat) (segNr count : Nat) : Prop where
  /-- The number of segments. -/
  size : manager.segNr = segNr
  /-- The segments that the log has not reached are free, in their order. -/
  free : manager.free.Holds (List.range' (roundUpDiv count blockPerSeg)
    (segNr - roundUpDiv count blockPerSeg))
  /-- The segment of the next block is the head of the log, once it was reached. -/
  head : manager.curSegs .hotData =
    if count % blockPerSeg = 0 then none else some (count / blockPerSeg)
  /-- The segment of the next block and those behind it are written up to there. -/
  written : ∀ seg, count / blockPerSeg ≤ seg →
    (manager.segments seg).curBlk = count - seg * blockPerSeg

variable {manager : SegmentManager Nat} {count lblk : Nat}

/-- At the end of a segment the next one is taken from the free segments. -/
theorem FilledTo.allocSegment (filled : FilledTo manager segNr count)
    (room : count / blockPerSeg + 1 < segNr) (boundary : count % blockPerSeg = 0) :
    ∃ handed, allocSegment .hotData manager = .ok (count / blockPerSeg) handed ∧
      handed.free.Holds (List.range' (count / blockPerSeg + 1)
        (segNr - (count / blockPerSeg + 1))) ∧
      handed.segNr = segNr ∧ ∀ seg, (handed.segments seg).curBlk = (manager.segments seg).curBlk := by
  have free := filled.free
  have reached : roundUpDiv count blockPerSeg = count / blockPerSeg := by
    unfold roundUpDiv
    unfold blockPerSeg at boundary ⊢
    omega
  obtain ⟨left, length⟩ : ∃ left, segNr - count / blockPerSeg = left + 1 :=
    ⟨segNr - count / blockPerSeg - 1, by omega⟩
  rw [reached, length, List.range'_succ] at free
  have available : manager.free.pop ≠ none := by
    intro refused
    have short := free.pop_eq_none.mp refused
    rw [List.length_cons, List.length_range'] at short
    omega
  obtain ⟨⟨first, rest⟩, taken⟩ := Option.ne_none_iff_exists'.mp available
  obtain ⟨others, split, holds, capacity⟩ := free.pop taken
  obtain ⟨rfl, rfl⟩ := List.cons.inj split
  refine ⟨({ manager with free := rest }).updateSeg (count / blockPerSeg) fun info =>
    { info with segTemp := some .hotData }, ?_, ?_, ?_, fun seg => ?_⟩
  · unfold PerfSim.allocSegment
    rw [get_bind_apply, taken]
    rfl
  · have remaining : segNr - (count / blockPerSeg + 1) = left := by omega
    rw [remaining]
    exact holds
  · exact capacity.trans filled.size
  · by_cases here : seg = count / blockPerSeg
    · rw [here, updateSeg_self]
    · rw [updateSeg_of_ne here]

/-- The head of the log is the segment of the next block. -/
theorem FilledTo.headSegment (filled : FilledTo manager segNr count)
    (room : count / blockPerSeg + 1 < segNr) :
    ∃ manager', headSegment .hotData manager = .ok (count / blockPerSeg) manager' ∧
      manager'.curSegs .hotData = some (count / blockPerSeg) ∧
      manager'.free.Holds (List.range' (count / blockPerSeg + 1)
        (segNr - (count / blockPerSeg + 1))) ∧
      manager'.segNr = segNr ∧
      ∀ seg, (manager'.segments seg).curBlk = (manager.segments seg).curBlk := by
  have head := filled.head
  unfold PerfSim.headSegment
  rw [get_bind_apply]
  by_cases boundary : count % blockPerSeg = 0
  · obtain ⟨handed, allocated, free, size, sameBlk⟩ := filled.allocSegment room boundary
    rw [if_pos boundary] at head
    refine ⟨{ handed with
      curSegs := Function.update handed.curSegs .hotData (some (count / blockPerSeg)) }, ?_, ?_,
      free, size, sameBlk⟩
    · rw [head]
      dsimp only
      rw [bind_eq_ok]
      exact ⟨_, _, allocated, rfl⟩
    · simp only [Function.update_self]
  · have reached : roundUpDiv count blockPerSeg = count / blockPerSeg + 1 := by
      unfold roundUpDiv
      unfold blockPerSeg at boundary ⊢
      omega
    have free := filled.free
    rw [reached] at free
    rw [if_neg boundary] at head
    refine ⟨manager, ?_, head, free, filled.size, fun _ => rfl⟩
    rw [head]
    rfl

/-- Writing a block fills the log by one. -/
theorem FilledTo.writeBlockToSeg (filled : FilledTo manager segNr count)
    (room : count / blockPerSeg + 1 < segNr) (lblk : Nat) :
    ∃ manager', writeBlockToSeg lblk .hotData manager = .ok (dword count) manager' ∧
      FilledTo manager' segNr (count + 1) := by
  obtain ⟨middle, headed, head, free, size, sameBlk⟩ := filled.headSegment room
  let final := (middle.append (count / blockPerSeg) lblk).closeHead .hotData (count / blockPerSeg)
  have current : (middle.segments (count / blockPerSeg)).curBlk = count % blockPerSeg := by
    rw [sameBlk, filled.written _ le_rfl, Nat.mod_eq_sub, Nat.mul_comm]
  have finalBlk : ∀ seg, (final.segments seg).curBlk =
      (manager.segments seg).curBlk + if seg = count / blockPerSeg then 1 else 0 := by
    intro seg
    have closed : (final.segments seg).curBlk =
        ((middle.append (count / blockPerSeg) lblk).segments seg).curBlk := by
      unfold final closeHead
      split <;> rfl
    rw [closed, curBlk_append, sameBlk]
  have finalSize : final.segNr = segNr := (segNr_closeHead _ _ _).trans size
  refine ⟨final, ?_, finalSize, ?_, ?_, ?_⟩
  · unfold PerfSim.writeBlockToSeg
    rw [bind_eq_ok]
    refine ⟨_, _, headed, ?_⟩
    rw [get_bind_apply, modify_bind_apply, current]
    have number : phyBlock (count / blockPerSeg) (count % blockPerSeg) = dword count := by
      rw [phyBlock, Nat.div_add_mod']
    rw [number]
    rfl
  · have unchanged : final.free = middle.free := by
      unfold final closeHead
      split <;> rfl
    have reached : roundUpDiv (count + 1) blockPerSeg = count / blockPerSeg + 1 := by
      unfold roundUpDiv blockPerSeg
      omega
    rw [unchanged, reached]
    exact free
  · have appended : ((middle.append (count / blockPerSeg) lblk).segments
        (count / blockPerSeg)).curBlk = count % blockPerSeg + 1 := by
      rw [curBlk_append, current, if_pos rfl]
    unfold final closeHead
    rw [appended]
    by_cases ends : count % blockPerSeg + 1 ≥ blockPerSeg
    · rw [if_pos ends, if_pos (by unfold blockPerSeg at ends ⊢; omega)]
      simp only [Function.update_self]
    · have stays : (count + 1) / blockPerSeg = count / blockPerSeg := by
        unfold blockPerSeg at ends ⊢
        omega
      rw [if_neg ends, if_neg (by unfold blockPerSeg at ends ⊢; omega), stays]
      exact head
  · intro seg reached
    have before : count / blockPerSeg ≤ seg :=
      Nat.le_trans (Nat.div_le_div_right (Nat.le_succ count)) reached
    rw [finalBlk, filled.written seg before]
    unfold blockPerSeg at before reached ⊢
    split <;> omega

/-- Clearing a block of the segment of the next block does not free the segment. -/
theorem FilledTo.invalidBlock (filled : FilledTo manager segNr count)
    (room : count / blockPerSeg < segNr) {phyBlk : Nat} (valid : phyBlk ≠ invalidBlk)
    (here : phyBlk / blockPerSeg = count / blockPerSeg) :
    ∃ manager', invalidBlock phyBlk manager = .ok false manager' ∧
      FilledTo manager' segNr count := by
  have sameBlk : ∀ seg, ((manager.clear (count / blockPerSeg) (phyBlk % blockPerSeg)).segments
      seg).curBlk = (manager.segments seg).curBlk := by
    intro seg
    unfold clear
    by_cases same : seg = count / blockPerSeg
    · rw [same, updateSeg_self]
    · rw [updateSeg_of_ne same]
  refine ⟨manager.clear (count / blockPerSeg) (phyBlk % blockPerSeg), ?_, filled.size, filled.free,
    filled.head, fun seg reached => (sameBlk seg).trans (filled.written seg reached)⟩
  unfold PerfSim.invalidBlock invalidBlockAt blockToSeg
  rw [if_neg valid, here, get_bind_apply, filled.size, throwIf_bind_of_not (Nat.not_le.mpr room),
    modify_bind_apply, get_bind_apply, sameBlk, filled.written _ le_rfl]
  have behind : ¬count - count / blockPerSeg * blockPerSeg ≥ blockPerSeg := by
    unfold blockPerSeg
    omega
  rw [if_neg fun full => behind full.2]
  rfl

/-- The segment map holds a logical block at a physical block. -/
def Ssd.HoldsAt (ssd : Ssd) (phyBlk lblk : Nat) : Prop :=
  phyBlk ≠ invalidBlk ∧ phyBlk / blockPerSeg < ssd.segment.segNr ∧
    (ssd.segment.segments (phyBlk / blockPerSeg)).blkMap (phyBlk % blockPerSeg) = some lblk

/-- The two maps of a device are inverse to each other and the counters agree with them. -/
structure Bijective (ssd : Ssd) (written : Nat → Prop) : Prop where
  /-- The logical-to-physical map is the inverse of the segment map. -/
  inverse : ∀ lblk phyBlk, (ssd.l2pMap lblk).phyBlk = phyBlk ∧ phyBlk ≠ invalidBlk ↔
    ssd.HoldsAt phyBlk lblk
  /-- The counters of the segments. -/
  counted : ∀ seg, (ssd.segment.segments seg).validBlkNr = (ssd.segment.segments seg).mapped
  /-- Nothing is mapped at or behind `cur_blk`. -/
  beyond : ∀ seg blk, (ssd.segment.segments seg).curBlk ≤ blk →
    (ssd.segment.segments seg).blkMap blk = none
  /-- A segment in the free list holds nothing. -/
  free : ∀ seg ∈ ssd.segment.free.items, ∀ blk, (ssd.segment.segments seg).blkMap blk = none
  /-- What is mapped is what has been written. -/
  mapped : ∀ lblk, (ssd.l2pMap lblk).phyBlk ≠ invalidBlk ↔ written lblk

/-- A coherent device is bijective. -/
theorem Coherent.bijective (coherent : Coherent segNr ssd) :
    Bijective ssd ssd.Mapped where
  inverse lblk phyBlk := by
    obtain ⟨free, sound⟩ := coherent.sound
    unfold Ssd.HoldsAt
    constructor
    · rintro ⟨rfl, valid⟩
      have place : ssd.placeOf lblk = some (blockToSeg (ssd.l2pMap lblk).phyBlk) := by
        rw [Ssd.placeOf, if_neg valid]
      have held := (coherent.placed lblk _).mp place
      exact ⟨valid, (sound.mapped_place held).1, held⟩
    · rintro ⟨valid, existing, held⟩
      have place := (coherent.placed lblk (blockToSeg phyBlk)).mpr held
      unfold Ssd.placeOf at place
      split at place
      · cases place
      · have same := Option.some.inj place
        unfold blockToSeg at same
        obtain ⟨segs, blks⟩ := Prod.mk.inj same
        have whole := Nat.div_add_mod (ssd.l2pMap lblk).phyBlk blockPerSeg
        rw [segs, blks, Nat.div_add_mod] at whole
        exact ⟨whole.symm, valid⟩
  counted := by
    obtain ⟨free, sound⟩ := coherent.sound
    exact sound.counted
  beyond := by
    obtain ⟨free, sound⟩ := coherent.sound
    exact sound.beyond
  free := by
    obtain ⟨free, sound⟩ := coherent.sound
    rw [sound.queue.items_eq]
    exact fun seg member blk => sound.empty_of_free member blk
  mapped lblk := Iff.rfl

end FsChecking.PerfSim
