import FsChecking.F2fs.FileState
import FsChecking.Lib.Table
import Mathlib.Algebra.Order.BigOperators.Group.Finset

/-!
# What truncating a file changes

When the block map of a file shrinks, the blocks it loses become invalid in the SIT, and the index
nodes it loses leave the NAT and the inode. `Effect` says that nothing else changes there.
-/

namespace FsChecking.F2fs

open Lib

variable {fs fs' fs'' : Fs} {ipage slot entry blk : Nat} {map map' map'' : FileMap}
  {entries : Entries}

/-! ## Counting -/

/-- Removing a mapped entry counts one less. -/
theorem mappedCount_clear (inside : entry < indexSize) (mapped : entries entry = some blk) :
    mappedCount (Function.update entries entry none) + 1 = mappedCount entries := by
  have change := countP_range_update (fun address => Option.isSome address) entries inside none
  unfold mappedCount
  simpa [mapped] using change

/-- Changing one slot. -/
theorem mappedTotal_update (map : FileMap) (inside : slot < indexTableSize) (node : Option Entries) :
    mappedTotal (Function.update map slot node) + ((map slot).map mappedCount).getD 0 =
      mappedTotal map + (node.map mappedCount).getD 0 := by
  unfold mappedTotal
  have member : slot ∈ Finset.range indexTableSize := Finset.mem_range.mpr inside
  have after := Finset.add_sum_erase (Finset.range indexTableSize)
    (fun slot' => ((Function.update map slot node slot').map mappedCount).getD 0) member
  have before := Finset.add_sum_erase (Finset.range indexTableSize)
    (fun slot' => ((map slot').map mappedCount).getD 0) member
  have others : ∑ slot' ∈ (Finset.range indexTableSize).erase slot,
      ((Function.update map slot node slot').map mappedCount).getD 0 =
        ∑ slot' ∈ (Finset.range indexTableSize).erase slot, ((map slot').map mappedCount).getD 0 :=
    Finset.sum_congr rfl fun slot' other => by
      rw [Function.update_of_ne (Finset.ne_of_mem_erase other)]
  simp only [Function.update_self] at after
  omega

/-- A file maps at most all of its blocks. -/
theorem mappedTotal_le (map : FileMap) : mappedTotal map ≤ maxFileBlks := by
  have each : ∀ slot ∈ Finset.range indexTableSize,
      ((map slot).map mappedCount).getD 0 ≤ indexSize := by
    intro slot _
    cases map slot with
    | none => exact Nat.zero_le _
    | some entries =>
      have few := List.countP_le_length (p := fun entry => (entries entry).isSome)
        (l := List.range indexSize)
      rwa [List.length_range] at few
  have total := Finset.sum_le_card_nsmul _ _ _ each
  rw [Finset.card_range, smul_eq_mul] at total
  exact total

/-! ## Effects -/

/-- A block of the file, or of one of its index nodes. -/
def Owned (fs : Fs) (ipage : Nat) (map : FileMap) (blk : Nat) : Prop :=
  (∃ slot < indexTableSize, ∃ entries, map slot = some entries ∧
    ∃ entry < indexSize, entries entry = some blk) ∨
  ∃ slot < indexTableSize, map slot ≠ none ∧ fs.nat.nat (fs.slotNid ipage slot) = blk

/-- A slot whose index node is given up. -/
def Dropped (map map' : FileMap) (slot : Nat) : Prop := map slot ≠ none ∧ map' slot = none

instance (map map' : FileMap) (slot : Nat) : Decidable (Dropped map map' slot) :=
  decidable_of_iff ((map slot).isSome = true ∧ (map' slot).isNone = true) <| by
    unfold Dropped
    rw [Option.isSome_iff_ne_none, Option.isNone_iff_eq_none]

/-- The slots whose index nodes are given up. -/
def droppedSlots (map map' : FileMap) : Finset Nat :=
  (Finset.range indexTableSize).filter fun slot => Dropped map map' slot

/-- What changes in the SIT, the NAT and the inode when a block map shrinks. -/
structure Effect (fs fs' : Fs) (ipage : Nat) (map map' : FileMap) : Prop where
  /-- No index node is added. -/
  fewer : ∀ slot, map slot = none → map' slot = none
  /-- No block is added. -/
  owned : ∀ blk < mainBlkNr, Owned fs' ipage map' blk → Owned fs ipage map blk
  /-- Exactly the removed blocks become invalid. -/
  valid : ∀ blk < mainBlkNr, fs'.segments.isValid blk = true ↔
    fs.segments.isValid blk = true ∧ (Owned fs ipage map blk → Owned fs' ipage map' blk)
  /-- Exactly the removed index nodes are given back. -/
  nat : ∀ nid, (∃ slot < indexTableSize, Dropped map map' slot ∧ fs.slotNid ipage slot = nid) ∧
      fs'.nat.nat nid = invalidBlk ∨
    (∀ slot < indexTableSize, Dropped map map' slot → fs.slotNid ipage slot ≠ nid) ∧
      fs'.nat.nat nid = fs.nat.nat nid
  /-- They are counted once. -/
  freeNr : fs'.nat.freeNr = fs.nat.freeNr + (droppedSlots map map').card
  /-- Only the slots and the number of blocks change in the inode. -/
  inode : ∃ index blkNum, (fs'.pages.page ipage).data.node =
    { (fs.pages.page ipage).data.node with
      inode := { (fs.pages.page ipage).data.node.inode with index := index, blkNum := blkNum } }
  /-- Exactly the slots of the removed index nodes are cleared. -/
  slots : ∀ slot < indexTableSize, fs'.slotNid ipage slot =
    if Dropped map map' slot then invalidBlk else fs.slotNid ipage slot

/-- Nothing changes when the block map stays. -/
theorem Unmoved.effect (unmoved : Unmoved fs fs' ipage) : Effect fs fs' ipage map map := by
  have slots : ∀ slot, fs'.slotNid ipage slot = fs.slotNid ipage slot := fun slot =>
    congrArg (fun info : PageInfo => info.data.node.inode.index slot) unmoved.inode
  have owned : ∀ blk, Owned fs' ipage map blk ↔ Owned fs ipage map blk := by
    intro blk
    unfold Owned
    simp only [slots, unmoved.nat]
  have kept : ∀ slot, ¬ Dropped map map slot := fun slot both => both.1 both.2
  refine ⟨fun _ missing => missing, fun blk _ => (owned blk).mp, fun blk _ => ?_,
    fun nid => .inr ⟨?_, ?_⟩, ?_, ?_, fun slot _ => ?_⟩
  · rw [unmoved.segments, owned]
    exact ⟨fun valid => ⟨valid, id⟩, And.left⟩
  · exact fun slot _ both => absurd both (kept slot)
  · rw [unmoved.nat]
  · have none : droppedSlots map map = ∅ := Finset.filter_eq_empty_iff.mpr fun slot _ => kept slot
    rw [unmoved.freeNr, none, Finset.card_empty, Nat.add_zero]
  · exact ⟨(fs.pages.page ipage).data.node.inode.index, (fs.pages.page ipage).data.node.inode.blkNum,
      congrArg (fun info : PageInfo => info.data.node) unmoved.inode⟩
  · rw [if_neg (kept slot), slots]

/-- One change after another. -/
theorem Effect.trans (first : Effect fs fs' ipage map map')
    (second : Effect fs' fs'' ipage map' map'') : Effect fs fs'' ipage map map'' := by
  have parts : ∀ slot, Dropped map map'' slot ↔ Dropped map map' slot ∨ Dropped map' map'' slot := by
    intro slot
    unfold Dropped
    constructor
    · rintro ⟨some, none⟩
      by_cases middle : map' slot = Option.none
      · exact .inl ⟨some, middle⟩
      · exact .inr ⟨middle, none⟩
    · rintro (⟨some, none⟩ | ⟨some, none⟩)
      · exact ⟨some, second.fewer slot none⟩
      · exact ⟨fun missing => some (first.fewer slot missing), none⟩
  have slotKept : ∀ slot < indexTableSize, ¬ Dropped map map' slot →
      fs'.slotNid ipage slot = fs.slotNid ipage slot := fun slot inside still => by
    rw [first.slots slot inside, if_neg still]
  have disjoint : ∀ slot, Dropped map' map'' slot → ¬ Dropped map map' slot := fun slot later early =>
    later.1 early.2
  refine ⟨fun slot missing => second.fewer slot (first.fewer slot missing),
    fun blk below still => first.owned blk below (second.owned blk below still),
    fun blk below => ?_, fun nid => ?_, ?_, ?_, fun slot inside => ?_⟩
  · rw [second.valid blk below, first.valid blk below]
    constructor
    · rintro ⟨⟨valid, one⟩, two⟩
      exact ⟨valid, fun held => two (one held)⟩
    · rintro ⟨valid, both⟩
      exact ⟨⟨valid, fun held => second.owned blk below (both held)⟩,
        fun held => both (first.owned blk below held)⟩
  · rcases second.nat nid with ⟨⟨slot, inside, gone, here⟩, freed⟩ | ⟨others, same⟩
    · refine .inl ⟨⟨slot, inside, (parts slot).mpr (.inr gone), ?_⟩, freed⟩
      rw [← slotKept slot inside (disjoint slot gone)]
      exact here
    · rcases first.nat nid with ⟨⟨slot, inside, gone, here⟩, freed⟩ | ⟨before, same'⟩
      · exact .inl ⟨⟨slot, inside, (parts slot).mpr (.inl gone), here⟩, same.trans freed⟩
      · refine .inr ⟨fun slot inside gone => ?_, same.trans same'⟩
        rcases (parts slot).mp gone with early | later
        · exact before slot inside early
        · rw [← slotKept slot inside (disjoint slot later)]
          exact others slot inside later
  · have union : droppedSlots map map'' = droppedSlots map map' ∪ droppedSlots map' map'' := by
      unfold droppedSlots
      rw [← Finset.filter_or]
      exact Finset.filter_congr fun slot _ => parts slot
    have apart : Disjoint (droppedSlots map map') (droppedSlots map' map'') :=
      Finset.disjoint_filter.mpr fun slot _ early later => disjoint slot later early
    rw [second.freeNr, first.freeNr, union, Finset.card_union_of_disjoint apart, Nat.add_assoc]
  · obtain ⟨_, _, before⟩ := first.inode
    obtain ⟨index, blkNum, after⟩ := second.inode
    refine ⟨index, blkNum, ?_⟩
    rw [after, before]
  · rw [second.slots slot inside, first.slots slot inside]
    by_cases early : Dropped map map' slot
    · rw [if_pos early, if_pos ((parts slot).mpr (.inl early)), ite_self]
    · rw [if_neg early]
      have same : Dropped map map'' slot ↔ Dropped map' map'' slot := by
        rw [parts]
        exact or_iff_right early
      rw [if_congr same rfl rfl]

end FsChecking.F2fs
