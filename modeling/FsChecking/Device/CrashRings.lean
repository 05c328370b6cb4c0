import FsChecking.Device.CrashDisk
import FsChecking.Lib.Ring

/-!
# The rings of the crash disk

The entries of one block that have not been rolled back form a ring, in the order in which they have
been issued, and the mapping points to the last one. `cache_enque` and `cache_deque` append and
remove that entry.
-/

namespace FsChecking.Device.Crash

open Lib

/-! ## Fields of entries -/

section Fields

variable (entries : EntryRef → LbaEntry) (ref other : EntryRef)

/-- The successors of all entries. -/
def nexts : EntryRef → EntryRef := fun ref => (entries ref).next

/-- The predecessors of all entries. -/
def prevs : EntryRef → EntryRef := fun ref => (entries ref).prev

/-- `setNext` changes one successor. -/
@[simp] theorem nexts_setNext :
    nexts (setNext entries ref other) = Function.update (nexts entries) ref other := by
  funext node
  unfold nexts setNext
  by_cases here : node = ref
  · rw [here, Function.update_self, Function.update_self]
  · rw [Function.update_of_ne here, Function.update_of_ne here]

/-- `setPrev` changes no successor. -/
@[simp] theorem nexts_setPrev : nexts (setPrev entries ref other) = nexts entries := by
  funext node
  unfold nexts setPrev
  by_cases here : node = ref
  · rw [here, Function.update_self]
  · rw [Function.update_of_ne here]

/-- `setPrev` changes one predecessor. -/
@[simp] theorem prevs_setPrev :
    prevs (setPrev entries ref other) = Function.update (prevs entries) ref other := by
  funext node
  unfold prevs setPrev
  by_cases here : node = ref
  · rw [here, Function.update_self, Function.update_self]
  · rw [Function.update_of_ne here, Function.update_of_ne here]

/-- `setNext` changes no predecessor. -/
@[simp] theorem prevs_setNext : prevs (setNext entries ref other) = prevs entries := by
  funext node
  unfold prevs setNext
  by_cases here : node = ref
  · rw [here, Function.update_self]
  · rw [Function.update_of_ne here]

/-- Changing an offset changes no successor. -/
@[simp] theorem nexts_setOffset (offset : Option Nat) :
    nexts (setOffset entries ref offset) = nexts entries := by
  funext node
  unfold nexts setOffset
  by_cases here : node = ref
  · rw [here, Function.update_self]
  · rw [Function.update_of_ne here]

/-- Changing an offset changes no predecessor. -/
@[simp] theorem prevs_setOffset (offset : Option Nat) :
    prevs (setOffset entries ref offset) = prevs entries := by
  funext node
  unfold prevs setOffset
  by_cases here : node = ref
  · rw [here, Function.update_self]
  · rw [Function.update_of_ne here]

/-- `setNext` changes no offset. -/
@[simp] theorem offset_setNext (node : EntryRef) :
    (setNext entries ref other node).offset = (entries node).offset := by
  unfold setNext
  by_cases here : node = ref
  · rw [here, Function.update_self]
  · rw [Function.update_of_ne here]

/-- `setPrev` changes no offset. -/
@[simp] theorem offset_setPrev (node : EntryRef) :
    (setPrev entries ref other node).offset = (entries node).offset := by
  unfold setPrev
  by_cases here : node = ref
  · rw [here, Function.update_self]
  · rw [Function.update_of_ne here]

/-- The offset that has been changed. -/
@[simp] theorem offset_setOffset_self (offset : Option Nat) :
    (setOffset entries ref offset ref).offset = offset := by
  unfold setOffset
  rw [Function.update_self]

/-- The other offsets. -/
theorem offset_setOffset_of_ne {ref other : EntryRef} (apart : other ≠ ref)
    (offset : Option Nat) : (setOffset entries ref offset other).offset = (entries other).offset := by
  unfold setOffset
  rw [Function.update_of_ne apart]

end Fields

/-! ## Rings -/

/-- The versions of a block among some entries. -/
def versions (blkOf : EntryRef → Nat) (live : List EntryRef) (blk : Nat) : List EntryRef :=
  live.filter fun ref => blkOf ref = blk

/-- The mapping and the links describe some entries, in the order in which they have been issued. -/
structure Rings (blkOf : EntryRef → Nat) (disk : CrashDisk) (live : List EntryRef) : Prop where
  /-- The mapping points to the last version of a block. -/
  newest : ∀ blk, disk.lbaMapping blk = (versions blkOf live blk).getLast?
  /-- The versions of a block form a ring. -/
  rings : ∀ blk, versions blkOf live blk ≠ [] →
    Ring (nexts disk.entries) (prevs disk.entries) (versions blkOf live blk)

variable {blkOf : EntryRef → Nat} {disk next : CrashDisk} {live : List EntryRef}
  {ref : EntryRef} {blk : Nat}

/-- The versions of the block of a new entry. -/
theorem versions_append_self (same : blkOf ref = blk) :
    versions blkOf (live ++ [ref]) blk = versions blkOf live blk ++ [ref] := by
  unfold versions
  rw [List.filter_append]
  simp [same]

/-- The versions of another block. -/
theorem versions_append_other (apart : blkOf ref ≠ blk) :
    versions blkOf (live ++ [ref]) blk = versions blkOf live blk := by
  unfold versions
  rw [List.filter_append]
  simp [apart]

/-- The versions of a block are entries of the block. -/
theorem mem_versions : ref ∈ versions blkOf live blk ↔ ref ∈ live ∧ blkOf ref = blk := by
  unfold versions
  rw [List.mem_filter, decide_eq_true_iff]

namespace Rings

/-- The rings depend on the links of the entries. -/
theorem congr (rings : Rings blkOf disk live) (mapping : next.lbaMapping = disk.lbaMapping)
    (sameNext : nexts next.entries = nexts disk.entries)
    (samePrev : prevs next.entries = prevs disk.entries) : Rings blkOf next live := by
  refine ⟨fun blk => ?_, fun blk notEmpty => ?_⟩
  · rw [mapping]
    exact rings.newest blk
  · rw [sameNext, samePrev]
    exact rings.rings blk notEmpty

/-- The ring of another block, when links of entries of a block have been changed. -/
theorem other (rings : Rings blkOf disk live) {other : Nat} {next prev : EntryRef → EntryRef}
    (sameNext : ∀ node, blkOf node ≠ blk → next node = nexts disk.entries node)
    (samePrev : ∀ node, blkOf node ≠ blk → prev node = prevs disk.entries node)
    (apart : other ≠ blk) (notEmpty : versions blkOf live other ≠ []) :
    Ring next prev (versions blkOf live other) := by
  have foreign : ∀ node ∈ versions blkOf live other, blkOf node ≠ blk := fun node listed same =>
    apart ((mem_versions.mp listed).2.symm.trans same)
  exact (rings.rings other notEmpty).congr (fun node listed => sameNext node (foreign node listed))
    fun node listed => samePrev node (foreign node listed)

/-- The successor of the last version is a version of the same block. -/
theorem next_newest (rings : Rings blkOf disk live) {front : List EntryRef} {last : EntryRef}
    (split : versions blkOf live blk = front ++ [last]) :
    blkOf (nexts disk.entries last) = blk := by
  have notEmpty : versions blkOf live blk ≠ [] := by simp [split]
  have ring := rings.rings blk notEmpty
  have member : nexts disk.entries last ∈ versions blkOf live blk := by
    rw [split] at ring ⊢
    cases front with
    | nil =>
      rw [(Ring.singleton_iff.mp ring).1]
      exact List.mem_singleton_self _
    | cons first front =>
      rw [(Ring.next_last ring).1]
      exact List.mem_cons_self
  exact (mem_versions.mp member).2

/-- `cache_enque` appends an entry. -/
theorem cacheEnque (rings : Rings blkOf disk live) (nodup : live.Nodup) (fresh : ref ∉ live)
    (same : blkOf ref = blk) : Rings blkOf (disk.cacheEnque ref blk) (live ++ [ref]) := by
  refine ⟨fun other => ?_, fun other notEmpty => ?_⟩
  · unfold CrashDisk.cacheEnque
    dsimp only
    by_cases here : other = blk
    · rw [here, Function.update_self, versions_append_self same, List.getLast?_concat]
    · rw [Function.update_of_ne here, versions_append_other (fun equal => here (equal.symm.trans same))]
      exact rings.newest other
  · have freshVersion : ref ∉ versions blkOf live blk := fun listed =>
      fresh (mem_versions.mp listed).1
    rcases List.eq_nil_or_concat (versions blkOf live blk) with empty | ⟨front, last, split⟩
    · have unmapped : disk.lbaMapping blk = none := by rw [rings.newest blk, empty]; rfl
      have links : (disk.cacheEnque ref blk).entries =
          setPrev (setNext disk.entries ref ref) ref ref := by
        unfold CrashDisk.cacheEnque
        rw [unmapped]
      rw [links]
      simp only [nexts_setPrev, nexts_setNext, prevs_setPrev, prevs_setNext]
      by_cases here : other = blk
      · rw [here, versions_append_self same, empty]
        exact Ring.singleton_iff.mpr ⟨Function.update_self .., Function.update_self ..⟩
      · rw [versions_append_other (fun equal => here (equal.symm.trans same))] at notEmpty ⊢
        have foreign : ∀ node, blkOf node ≠ blk → node ≠ ref := by
          rintro node apart rfl
          exact apart same
        exact rings.other (fun node apart => Function.update_of_ne (foreign node apart) _ _)
          (fun node apart => Function.update_of_ne (foreign node apart) _ _) here notEmpty
    · rw [List.concat_eq_append] at split
      have mapped : disk.lbaMapping blk = some last := by
        rw [rings.newest blk, split, List.getLast?_concat]
      have links : (disk.cacheEnque ref blk).entries =
          setPrev (setNext (setNext (setPrev disk.entries ref last) ref
            (nexts disk.entries last)) last ref) (nexts disk.entries last) ref := by
        unfold CrashDisk.cacheEnque
        rw [mapped]
        rfl
      have lastBlk : blkOf last = blk :=
        (mem_versions.mp (split ▸ List.mem_append_right _ (List.mem_singleton_self _))).2
      have nextBlk := rings.next_newest split
      rw [links]
      simp only [nexts_setPrev, nexts_setNext, prevs_setPrev, prevs_setNext]
      by_cases here : other = blk
      · have ring := rings.rings blk (by simp [split])
        rw [split] at ring freshVersion
        rw [here, versions_append_self same, split, List.append_assoc]
        exact ring.insert (split ▸ nodup.filter _) freshVersion
      · rw [versions_append_other (fun equal => here (equal.symm.trans same))] at notEmpty ⊢
        have foreign : ∀ {node node' : EntryRef}, blkOf node ≠ blk → blkOf node' = blk →
            node ≠ node' := by
          rintro node _ apart equal rfl
          exact apart equal
        refine rings.other (fun node apart => ?_) (fun node apart => ?_) here notEmpty
        · rw [Function.update_of_ne (foreign apart lastBlk),
            Function.update_of_ne (foreign apart same)]
        · rw [Function.update_of_ne (foreign apart nextBlk),
            Function.update_of_ne (foreign apart same)]

/-- `cache_deque` removes the last entry. -/
theorem cacheDeque (rings : Rings blkOf disk (live ++ [ref])) (nodup : (live ++ [ref]).Nodup)
    (same : blkOf ref = blk) :
    ∃ next, disk.cacheDeque blk = some next ∧ Rings blkOf next live := by
  have split : versions blkOf (live ++ [ref]) blk = versions blkOf live blk ++ [ref] :=
    versions_append_self same
  have nodupHere : (versions blkOf live blk ++ [ref]).Nodup := split ▸ nodup.filter _
  have ring := rings.rings blk (by simp [split])
  rw [split] at ring
  have mapped : disk.lbaMapping blk = some ref := by
    rw [rings.newest blk, split, List.getLast?_concat]
  have others : ∀ other, other ≠ blk →
      versions blkOf (live ++ [ref]) other = versions blkOf live other := fun other apart =>
    versions_append_other fun equal => apart (equal.symm.trans same)
  have alone := ring.alone_iff nodupHere
  unfold CrashDisk.cacheDeque
  rw [mapped]
  dsimp only
  split
  · rename_i itself
    have empty := alone.mp itself
    refine ⟨_, rfl, fun other => ?_, fun other notEmpty => ?_⟩
    · dsimp only
      by_cases here : other = blk
      · rw [here, Function.update_self, empty]
        rfl
      · rw [Function.update_of_ne here, ← others other here]
        exact rings.newest other
    · have apart : other ≠ blk := by
        rintro rfl
        exact notEmpty empty
      rw [← others other apart] at notEmpty ⊢
      exact rings.rings other notEmpty
  · rename_i notItself
    rcases List.eq_nil_or_concat (versions blkOf live blk) with empty | ⟨front, before, versionsHere⟩
    · exact absurd (alone.mpr empty) notItself
    · rw [List.concat_eq_append] at versionsHere
      have whole : versions blkOf live blk ++ [ref] = front ++ [before, ref] := by
        rw [versionsHere, List.append_assoc]
        rfl
      rw [whole] at ring nodupHere
      have previous : (disk.entries ref).prev = before := ring.prev_last
      have beforeBlk : blkOf before = blk :=
        (mem_versions.mp (versionsHere ▸ List.mem_append_right _ (List.mem_singleton_self _))).2
      have nextBlk : blkOf (nexts disk.entries ref) = blk := rings.next_newest split
      refine ⟨_, rfl, fun other => ?_, fun other notEmpty => ?_⟩
      · dsimp only
        by_cases here : other = blk
        · rw [here, Function.update_self, versionsHere, List.getLast?_concat, previous]
        · rw [Function.update_of_ne here, ← others other here]
          exact rings.newest other
      · dsimp only
        rw [previous]
        simp only [nexts_setPrev, nexts_setNext, prevs_setPrev, prevs_setNext]
        by_cases here : other = blk
        · rw [here, versionsHere]
          exact ring.remove nodupHere
        · rw [← others other here] at notEmpty ⊢
          have foreign : ∀ {node node' : EntryRef}, blkOf node ≠ blk → blkOf node' = blk →
              node ≠ node' := by
            rintro node _ apart equal rfl
            exact apart equal
          exact rings.other (fun node apart => Function.update_of_ne (foreign apart beforeBlk) _ _)
            (fun node apart => Function.update_of_ne (foreign apart nextBlk) _ _) here notEmpty

end Rings

end FsChecking.Device.Crash
