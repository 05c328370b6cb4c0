import FsChecking.F2fs.FreeQueue
import FsChecking.F2fs.FsckSound

/-!
# Log head lookups

The four places that ask `m_cur_segs[seg.seg_temp]` whether a segment is the head of a log, and the
temperatures that they look up. A freed segment has the temperature `BT_TEMP_NR`, a segment of a
freshly formatted table all bits set; each place is shown to stay inside the table exactly when it
meets no such segment, and formatting is shown to leave the table in every run.
-/

namespace FsChecking.F2fs

open Lib

/-- The places that look a log head up. -/
inductive LookupSite where
  /-- `build_free_link`. -/
  | buildFreeLink
  /-- The victim scan of `GarbageCollection`. -/
  | garbageCollection
  /-- `InvalidBlock(seg_id, blk_id)`. -/
  | invalidBlock (seg blk : Nat)
  /-- `fsck_chk_metadata`. -/
  | fsckChkMetadata

namespace SegmentManager

/-- The table as `build_free_link` starts to link it. -/
def unlinked (manager : SegmentManager) : SegmentManager :=
  { manager with freeTail := invalidBlk, freeHead := invalidBlk, freeNr := 0, usedBlkNr := 0 }

/-- The table that `InitSegmentManager` gives to `build_free_link`. -/
def unformatted (manager : SegmentManager) : SegmentManager :=
  { manager with
    segments := fun _ => { SegmentInfo.ones with validBlkNr := 0, validBmp := 0 }
    dirtyMap := fun _ => BitVec.allOnes 32 }

/-- An empty segment that is not linked into the free queue. -/
def Reclaimable (manager : SegmentManager) (seg : Nat) : Prop :=
  (manager.segments seg).validBlkNr = 0 ∧ (manager.segments seg).freeNext = invalidBlk

/-- The segments up to this one that a scan frees have empty bitmaps. -/
def Freeable (manager : SegmentManager) (seg : Nat) : Prop :=
  ∀ other < seg, manager.Reclaimable other → (manager.segments other).validBmp = 0

/-- The last segment of the free queue has a successor, when there is one. -/
def HeadLinked (manager : SegmentManager) : Prop :=
  manager.freeHead ≠ invalidBlk → (manager.segments manager.freeHead).freeNext ≠ invalidBlk

end SegmentManager

/-- One round of the loop of `fsck_chk_metadata`. -/
def countSegment (count seg : Nat) : FsM Nat := do
  return if ← chkSegment seg then count + 1 else count

-- the loop of `fsck_chk_metadata` in rounds
example :
    fsckChkMetadata = (do
      let validSegNr ← (List.range mainSegNr).foldlM countSegment 0
      let freeNr := (← get).segments.freeNr
      throwIf (validSegNr + freeNr ≠ mainSegNr)
        (.fs .sitMismatch "segment number mismatch, total=%d, valid=%d, free=%d"
          [mainSegNr, validSegNr, freeNr])) := rfl

/-- A place, called on a file system, looks up the temperature of a segment. The left operand of the
condition around the lookup decides whether it is reached. -/
def LookupSite.Looks (fs : Fs) (seg temp : Nat) : LookupSite → Prop
  | buildFreeLink =>
    seg < mainSegNr ∧
      let manager := (List.range seg).foldl SegmentManager.linkSegment fs.segments.unlinked
      (manager.segments seg).validBlkNr = 0 ∧ temp = (manager.segments seg).segTemp
  | garbageCollection =>
    seg < mainSegNr ∧ ∃ pool manager,
      (List.range seg).foldlM scanSegment { heap := fun _ => 0, len := 0 } fs.segments =
        .ok pool manager ∧
      ¬ manager.Reclaimable seg ∧ temp = (manager.segments seg).segTemp
  | invalidBlock dropped blk =>
    seg = dropped ∧ seg < mainSegNr ∧ (fs.segments.segments seg).validBmp.getLsbD blk = true ∧
      let manager := fs.segments.dropBlock seg blk
      (manager.segments seg).validBlkNr = 0 ∧ temp = (manager.segments seg).segTemp
  | fsckChkMetadata =>
    seg < mainSegNr ∧ ∃ count fs',
      (List.range seg).foldlM countSegment 0 fs = .ok count fs' ∧
      countedBlocks (fs'.segments.segments seg) = (fs'.segments.segments seg).validBlkNr ∧
      temp = (fs'.segments.segments seg).segTemp

/-- Every temperature that the place looks up is one of a log head. -/
def LookupSite.Inside (site : LookupSite) (fs : Fs) : Prop :=
  ∀ seg temp, site.Looks fs seg temp → temp < btTempNr

/-- The segments that a place comes to have temperatures of log heads. -/
def LookupSite.Stays (fs : Fs) : LookupSite → Prop
  | buildFreeLink => ∀ seg < mainSegNr,
    (fs.segments.segments seg).validBlkNr = 0 → (fs.segments.segments seg).segTemp < btTempNr
  | garbageCollection => ∀ seg < mainSegNr, fs.segments.Freeable seg →
    ¬ fs.segments.Reclaimable seg → (fs.segments.segments seg).segTemp < btTempNr
  | invalidBlock seg blk => seg < mainSegNr →
    (fs.segments.segments seg).validBmp.getLsbD blk = true →
    dword ((fs.segments.segments seg).validBlkNr + (2 ^ 32 - 1)) = 0 →
    (fs.segments.segments seg).segTemp < btTempNr
  | fsckChkMetadata => ∀ seg < mainSegNr,
    (∀ other ≤ seg, countedBlocks (fs.segments.segments other) =
      (fs.segments.segments other).validBlkNr) → (fs.segments.segments seg).segTemp < btTempNr

/-! ## Linking -/

namespace SegmentManager

/-- Linking a segment leaves the temperatures of the others. -/
theorem segTemp_linkSegment {manager : SegmentManager} {seg other : Nat} (apart : other ≠ seg) :
    ((manager.linkSegment seg).segments other).segTemp = (manager.segments other).segTemp := by
  unfold linkSegment
  dsimp only
  split
  · rw [segTemp_freeEnQueue, updateSeg_of_ne apart]
  · rw [updateSeg_of_ne apart]

/-- The rounds of `build_free_link` have not touched the temperature and the counter of a segment
that is still to come. -/
theorem linked_ahead (manager : SegmentManager) {seg other : Nat} (ahead : seg ≤ other) :
    let linked := (List.range seg).foldl linkSegment manager
    (linked.segments other).segTemp = (manager.segments other).segTemp ∧
      (linked.segments other).validBlkNr = (manager.segments other).validBlkNr := by
  induction seg with
  | zero => exact ⟨rfl, rfl⟩
  | succ seg ih =>
    obtain ⟨temp, number⟩ := ih (by omega)
    simp only [List.range_succ, List.foldl_append, List.foldl_cons, List.foldl_nil]
    have apart : other ≠ seg := by omega
    refine ⟨(segTemp_linkSegment apart).trans temp, ?_⟩
    rw [sameContent_linkSegment _ seg other]
    exact number

end SegmentManager

/-- `build_free_link` stays inside exactly when every empty segment has the temperature of a log
head. -/
theorem inside_buildFreeLink_iff (fs : Fs) :
    LookupSite.buildFreeLink.Inside fs ↔ LookupSite.buildFreeLink.Stays fs := by
  have same := fun seg => SegmentManager.linked_ahead fs.segments.unlinked (le_refl seg)
  constructor
  · intro inside seg small empty
    obtain ⟨temp, number⟩ := same seg
    have looked := inside seg _ ⟨small, number.trans empty, rfl⟩
    rwa [temp] at looked
  · rintro heads seg _ ⟨small, empty, rfl⟩
    obtain ⟨temp, number⟩ := same seg
    rw [temp]
    exact heads seg small (number.symm.trans empty)

/-- `InvalidBlock` stays inside exactly when it does not empty a segment with a temperature of no log
head. -/
theorem inside_invalidBlock_iff (fs : Fs) (seg blk : Nat) :
    (LookupSite.invalidBlock seg blk).Inside fs ↔ (LookupSite.invalidBlock seg blk).Stays fs := by
  have dropped : (fs.segments.dropBlock seg blk).segments seg =
      { fs.segments.segments seg with
        validBlkNr := dword ((fs.segments.segments seg).validBlkNr + (2 ^ 32 - 1))
        validBmp := clearBit (fs.segments.segments seg).validBmp blk
        nids := Function.update (fs.segments.segments seg).nids blk invalidBlk
        offset := Function.update (fs.segments.segments seg).offset blk invalidBlk } := by
    unfold SegmentManager.dropBlock
    exact Function.update_self ..
  constructor
  · intro inside small valid emptied
    have looked := inside seg ((fs.segments.dropBlock seg blk).segments seg).segTemp
      ⟨rfl, small, valid, by rw [dropped]; exact emptied, rfl⟩
    rwa [dropped] at looked
  · rintro heads _ _ ⟨rfl, small, valid, emptied, rfl⟩
    rw [dropped] at emptied ⊢
    exact heads small valid emptied

/-! ## The check of the SIT -/

/-- A round of the check returns exactly when the counter of the segment is right. -/
theorem countSegment_iff {fs fs' : Fs} {count count' seg : Nat} :
    countSegment count seg fs = .ok count' fs' ↔
      countedBlocks (fs.segments.segments seg) = (fs.segments.segments seg).validBlkNr ∧
        fs' = fs ∧ count' = if fs.segments.curSegNo (fs.segments.segments seg).segTemp = seg ∨
          (fs.segments.segments seg).validBlkNr ≠ 0 then count + 1 else count := by
  rw [countSegment, bind_eq_ok]
  constructor
  · rintro ⟨used, _, one, done⟩
    obtain ⟨counted, rfl, rfl⟩ := chkSegment_ok one
    cases done
    exact ⟨counted, rfl, by simp only [decide_eq_true_eq]⟩
  · rintro ⟨counted, rfl, rfl⟩
    refine ⟨decide (fs'.segments.curSegNo (fs'.segments.segments seg).segTemp = seg ∨
      (fs'.segments.segments seg).validBlkNr ≠ 0), fs', ?_, ?_⟩
    · have passed : ¬ (List.range blockPerSeg).countP (fun blk =>
          (fs'.segments.segments seg).validBmp.getLsbD blk) ≠
            (fs'.segments.segments seg).validBlkNr := not_not.mpr counted
      rw [chkSegment, get_bind_apply, throwIf_bind_of_not passed]
      rfl
    · simp only [decide_eq_true_eq, pure_apply]

/-- The rounds of the check return exactly when the counters of the segments are right. -/
theorem countSegments_iff (fs : Fs) (seg : Nat) :
    (∃ count fs', (List.range seg).foldlM countSegment 0 fs = .ok count fs' ∧ fs' = fs) ↔
      ∀ other < seg, countedBlocks (fs.segments.segments other) =
        (fs.segments.segments other).validBlkNr := by
  induction seg with
  | zero => exact ⟨fun _ _ small => absurd small (Nat.not_lt_zero _), fun _ => ⟨0, fs, rfl, rfl⟩⟩
  | succ seg ih =>
    simp only [List.range_succ, List.foldlM_append, List.foldlM_cons, List.foldlM_nil, bind_pure,
      bind_eq_ok]
    constructor
    · rintro ⟨count, _, ⟨before, middle, loop, one⟩, rfl⟩ other small
      obtain ⟨counted, rfl, -⟩ := countSegment_iff.mp one
      rcases Nat.lt_succ_iff_lt_or_eq.mp small with earlier | rfl
      · exact ih.mp ⟨before, _, loop, rfl⟩ other earlier
      · exact counted
    · intro counted
      obtain ⟨before, _, loop, rfl⟩ := ih.mpr fun other small => counted other (by omega)
      exact ⟨_, _, ⟨before, _, loop, countSegment_iff.mpr ⟨counted seg (by omega), rfl, rfl⟩⟩, rfl⟩

/-- `fsck_chk_metadata` looks up the temperature of every segment up to the first one with a wrong
counter. -/
theorem looks_fsckChkMetadata {fs : Fs} {seg : Nat} (small : seg < mainSegNr)
    (counted : ∀ other ≤ seg, countedBlocks (fs.segments.segments other) =
      (fs.segments.segments other).validBlkNr) :
    LookupSite.fsckChkMetadata.Looks fs seg (fs.segments.segments seg).segTemp := by
  obtain ⟨count, _, loop, rfl⟩ :=
    (countSegments_iff fs seg).mpr fun other before => counted other (by omega)
  exact ⟨small, count, _, loop, counted seg le_rfl, rfl⟩

/-- `fsck_chk_metadata` stays inside exactly when the segments up to the first one with a wrong
counter have temperatures of log heads. -/
theorem inside_fsckChkMetadata_iff (fs : Fs) :
    LookupSite.fsckChkMetadata.Inside fs ↔ LookupSite.fsckChkMetadata.Stays fs := by
  constructor
  · exact fun inside seg small counted => inside seg _ (looks_fsckChkMetadata small counted)
  · rintro heads seg _ ⟨small, count, fs', loop, here, rfl⟩
    have same : fs' = fs := by
      refine foldlM_ok (fun _ _ state => state = fs) rfl ?_ loop
      rintro _ _ _ _ _ _ - rfl one
      exact (countSegment_iff.mp one).2.1
    subst same
    refine heads seg small fun other before => ?_
    rcases Nat.lt_or_eq_of_le before with earlier | rfl
    · exact (countSegments_iff fs' seg).mp ⟨count, fs', loop, rfl⟩ other earlier
    · exact here

/-! ## The victim scan -/

namespace SegmentManager

/-- Two tables agree on the segments that the scan has not come to yet. -/
structure SameAhead (seg : Nat) (manager scanned : SegmentManager) : Prop where
  /-- The queue is still linked. -/
  linked : scanned.HeadLinked
  /-- The temperatures. -/
  temp : ∀ other ≥ seg, (scanned.segments other).segTemp = (manager.segments other).segTemp
  /-- The bitmaps. -/
  bitmap : ∀ other ≥ seg, (scanned.segments other).validBmp = (manager.segments other).validBmp
  /-- The empty segments that are not in the queue. -/
  reclaimable : ∀ other ≥ seg, scanned.Reclaimable other ↔ manager.Reclaimable other

/-- The queue is linked after a segment has entered it, when it was before. -/
theorem HeadLinked.freeEnQueue {manager : SegmentManager} (linked : manager.HeadLinked) {seg : Nat}
    (valid : seg ≠ invalidBlk) : (manager.freeEnQueue seg).HeadLinked := by
  intro _
  rw [freeHead_freeEnQueue]
  by_cases some : manager.freeHead ≠ invalidBlk
  · rw [segments_freeEnQueue_of_some some]
    by_cases last : seg = manager.freeHead
    · rw [← last, updateSeg_self]
      exact valid
    · rw [updateSeg_of_ne last, updateSeg_self]
      exact linked some
  · rw [segments_freeEnQueue_of_none some, updateSeg_self]
    exact valid

/-- The queue is linked after `FreeSegment`, when it was before. -/
theorem HeadLinked.freeSegment {manager : SegmentManager} (linked : manager.HeadLinked) {seg : Nat}
    (valid : seg ≠ invalidBlk) : (manager.freeSegment seg).HeadLinked := by
  have before : (manager.updateSeg seg fun info =>
      { info with segTemp := btTempNr }).HeadLinked := by
    intro some
    show ((updateSeg manager seg _).segments manager.freeHead).freeNext ≠ invalidBlk
    by_cases here : manager.freeHead = seg
    · rw [← here, updateSeg_self]
      exact linked some
    · rw [updateSeg_of_ne here]
      exact linked some
  exact before.freeEnQueue valid

/-- Freeing the segment that the scan has come to leaves those ahead. -/
theorem SameAhead.freeSegment {seg : Nat} {manager scanned : SegmentManager}
    (ahead : SameAhead seg manager scanned) (small : seg < mainSegNr) :
    SameAhead (seg + 1) manager (scanned.freeSegment seg) := by
  have valid : seg ≠ invalidBlk := by
    have size : seg < 60 := small
    show seg ≠ 0xFFFF
    omega
  refine ⟨ahead.linked.freeSegment valid, fun other before => ?_, fun other before => ?_,
    fun other before => ?_⟩
  · rw [← ahead.temp other (by omega), freeSegment_of_ne (by omega)]
    split <;> rfl
  · rw [← ahead.bitmap other (by omega), freeSegment_of_ne (by omega)]
    split <;> rfl
  · rw [← ahead.reclaimable other (by omega), Reclaimable, Reclaimable,
      freeSegment_of_ne (by omega)]
    split
    · rename_i last
      obtain ⟨some, rfl⟩ := last
      exact ⟨fun both => absurd both.2 valid, fun both => absurd both.2 (ahead.linked some)⟩
    · exact Iff.rfl

/-- A round that leaves the table leaves what is ahead. -/
theorem SameAhead.next {seg : Nat} {manager scanned : SegmentManager}
    (ahead : SameAhead seg manager scanned) : SameAhead (seg + 1) manager scanned :=
  ⟨ahead.linked, fun other before => ahead.temp other (by omega),
    fun other before => ahead.bitmap other (by omega),
    fun other before => ahead.reclaimable other (by omega)⟩

/-- A round of the scan at an empty segment outside of the queue. -/
theorem scanSegment_of_reclaimable {manager : SegmentManager} {seg : Nat}
    (reclaimable : manager.Reclaimable seg) (pool : GcPool Nat) :
    ((manager.segments seg).validBmp = 0 →
        scanSegment pool seg manager = .ok pool (manager.freeSegment seg)) ∧
      ((manager.segments seg).validBmp ≠ 0 →
        ∃ fault, scanSegment pool seg manager = .error fault manager) := by
  have branch : (manager.segments seg).validBlkNr = 0 ∧
      (manager.segments seg).freeNext = invalidBlk := reclaimable
  rw [scanSegment, get_bind_apply, if_pos branch]
  refine ⟨fun empty => ?_, fun valid => ?_⟩
  · rw [throwIf_bind_of_not (not_not.mpr empty), set_bind_apply]
    rfl
  · rw [throwIf_bind_of valid]
    exact ⟨_, rfl⟩

/-- A round of the scan at any other segment. -/
theorem scanSegment_of_not_reclaimable {manager : SegmentManager} {seg : Nat}
    (kept : ¬ manager.Reclaimable seg) (pool : GcPool Nat) :
    ∃ pool', scanSegment pool seg manager = .ok pool' manager := by
  have branch : ¬ ((manager.segments seg).validBlkNr = 0 ∧
      (manager.segments seg).freeNext = invalidBlk) := kept
  rw [scanSegment, get_bind_apply, if_neg branch]
  split
  · exact ⟨_, rfl⟩
  · exact ⟨_, rfl⟩

/-- The rounds of the scan return exactly when the segments that they free have empty bitmaps, and
leave the segments ahead. -/
theorem scanned_ahead {manager : SegmentManager} (linked : manager.HeadLinked) {seg : Nat}
    (small : seg ≤ mainSegNr) :
    (manager.Freeable seg → ∃ pool scanned,
      (List.range seg).foldlM scanSegment { heap := fun _ => 0, len := 0 } manager =
        .ok pool scanned) ∧
    ∀ pool scanned,
      (List.range seg).foldlM scanSegment { heap := fun _ => 0, len := 0 } manager =
        .ok pool scanned → manager.Freeable seg ∧ SameAhead seg manager scanned := by
  induction seg with
  | zero =>
    refine ⟨fun _ => ⟨_, _, rfl⟩, ?_⟩
    rintro _ _ ⟨⟩
    exact ⟨fun _ before => absurd before (Nat.not_lt_zero _), linked, fun _ _ => rfl,
      fun _ _ => rfl, fun _ _ => Iff.rfl⟩
  | succ seg ih =>
    obtain ⟨returns, leaves⟩ := ih (by omega)
    simp only [List.range_succ, List.foldlM_append, List.foldlM_cons, List.foldlM_nil, bind_pure,
      bind_eq_ok]
    constructor
    · intro freeable
      obtain ⟨pool, scanned, loop⟩ := returns fun other before => freeable other (by omega)
      obtain ⟨-, ahead⟩ := leaves pool scanned loop
      by_cases reclaimable : scanned.Reclaimable seg
      · have empty : (scanned.segments seg).validBmp = 0 := by
          rw [ahead.bitmap seg le_rfl]
          exact freeable seg (by omega) ((ahead.reclaimable seg le_rfl).mp reclaimable)
        exact ⟨_, _, pool, scanned, loop, (scanSegment_of_reclaimable reclaimable pool).1 empty⟩
      · obtain ⟨pool', one⟩ := scanSegment_of_not_reclaimable reclaimable pool
        exact ⟨_, _, pool, scanned, loop, one⟩
    · rintro pool' scanned' ⟨pool, scanned, loop, one⟩
      obtain ⟨freeable, ahead⟩ := leaves pool scanned loop
      by_cases reclaimable : scanned.Reclaimable seg
      · by_cases empty : (scanned.segments seg).validBmp = 0
        · rw [(scanSegment_of_reclaimable reclaimable pool).1 empty] at one
          cases one
          refine ⟨fun other before reclaims => ?_, ahead.freeSegment (by omega)⟩
          rcases Nat.lt_succ_iff_lt_or_eq.mp before with earlier | rfl
          · exact freeable other earlier reclaims
          · rwa [← ahead.bitmap other le_rfl]
        · obtain ⟨fault, thrown⟩ := (scanSegment_of_reclaimable reclaimable pool).2 empty
          rw [thrown] at one
          cases one
      · obtain ⟨pool'', returned⟩ := scanSegment_of_not_reclaimable reclaimable pool
        rw [returned] at one
        cases one
        refine ⟨fun other before reclaims => ?_, ahead.next⟩
        rcases Nat.lt_succ_iff_lt_or_eq.mp before with earlier | rfl
        · exact freeable other earlier reclaims
        · exact absurd ((ahead.reclaimable other le_rfl).mpr reclaims) reclaimable

end SegmentManager

/-- The victim scan stays inside exactly when the segments that it does not free have temperatures of
log heads. -/
theorem inside_garbageCollection_iff {fs : Fs} (linked : fs.segments.HeadLinked) :
    LookupSite.garbageCollection.Inside fs ↔ LookupSite.garbageCollection.Stays fs := by
  constructor
  · intro inside seg small freeable kept
    obtain ⟨returns, leaves⟩ := SegmentManager.scanned_ahead linked (Nat.le_of_lt small)
    obtain ⟨pool, scanned, loop⟩ := returns freeable
    obtain ⟨-, ahead⟩ := leaves pool scanned loop
    have looked := inside seg _ ⟨small, pool, scanned, loop,
      fun reclaimable => kept ((ahead.reclaimable seg le_rfl).mp reclaimable), rfl⟩
    rwa [ahead.temp seg le_rfl] at looked
  · rintro heads seg _ ⟨small, pool, scanned, loop, kept, rfl⟩
    obtain ⟨freeable, ahead⟩ :=
      (SegmentManager.scanned_ahead linked (Nat.le_of_lt small)).2 pool scanned loop
    rw [ahead.temp seg le_rfl]
    exact heads seg small freeable fun reclaimable =>
      kept ((ahead.reclaimable seg le_rfl).mpr reclaimable)

/-- When a place stays inside the table of the log heads. -/
theorem LookupSite.inside_iff (site : LookupSite) {fs : Fs} (linked : fs.segments.HeadLinked) :
    site.Inside fs ↔ site.Stays fs := by
  cases site with
  | buildFreeLink => exact inside_buildFreeLink_iff fs
  | garbageCollection => exact inside_garbageCollection_iff linked
  | invalidBlock seg blk => exact inside_invalidBlock_iff fs seg blk
  | fsckChkMetadata => exact inside_fsckChkMetadata_iff fs

/-! ## Runs -/

-- `InitSegmentManager` links the table that it has prepared
example (manager : SegmentManager) :
    manager.initSegmentManager =
      { manager.unformatted.buildFreeLink with curSegs := fun _ => .ones, dataCache := .ones } :=
  rfl

/-- A run of the simulator as the calls of the four places, each with the file system that it is
called on. Formatting comes first, in any memory. -/
def FormattedRun (calls : List (LookupSite × Fs)) : Prop :=
  ∃ memory : Fs, calls.head? =
    some (.buildFreeLink, { memory with segments := memory.segments.unformatted })

/-- Formatting looks up a temperature of all bits set for every segment. -/
theorem looks_unformatted (memory : Fs) {seg : Nat} (small : seg < mainSegNr) :
    LookupSite.buildFreeLink.Looks
      { memory with segments := memory.segments.unformatted } seg invalidPage := by
  obtain ⟨temp, number⟩ :=
    SegmentManager.linked_ahead memory.segments.unformatted.unlinked (le_refl seg)
  exact ⟨small, number, temp.symm⟩

/-- No run keeps its lookups inside the table of the log heads, since formatting does not; a single
call does exactly when the segments that it comes to have temperatures of log heads. -/
theorem logHead_lookups_outside {calls : List (LookupSite × Fs)} (run : FormattedRun calls) :
    (¬ ∀ call ∈ calls, call.1.Inside call.2) ∧
      ∀ call ∈ calls, call.2.segments.HeadLinked → (call.1.Inside call.2 ↔ call.1.Stays call.2) := by
  refine ⟨fun inside => ?_, fun call _ linked => call.1.inside_iff linked⟩
  obtain ⟨memory, first⟩ := run
  have formatting := inside _ (List.mem_of_head? first)
  have stray := formatting 0 invalidPage (looks_unformatted memory (by decide))
  exact absurd stray (by decide)

/-- The run that only formats zeroed memory. -/
theorem logHead_lookups_outside_zeroed :
    ¬ LookupSite.buildFreeLink.Inside
      { Fs.zeroed with segments := Fs.zeroed.segments.unformatted } := by
  intro inside
  have run : FormattedRun [(.buildFreeLink,
      { Fs.zeroed with segments := Fs.zeroed.segments.unformatted })] := ⟨.zeroed, rfl⟩
  refine (logHead_lookups_outside run).1 fun call member => ?_
  obtain rfl := List.mem_singleton.mp member
  exact inside

/-- Formatting zeroed memory looks the first segment up behind the log heads, and so does the check
of the formatted file system for its last segment. -/
theorem formatted_looks_outside :
    LookupSite.buildFreeLink.Looks { Fs.zeroed with segments := Fs.zeroed.segments.unformatted } 0
        invalidPage ∧
      LookupSite.fsckChkMetadata.Looks Fs.formatted 59 btTempNr ∧
      ¬ invalidPage < btTempNr ∧ ¬ btTempNr < btTempNr := by
  have counted : ∀ other < 60, countedBlocks (Fs.formatted.segments.segments other) =
      (Fs.formatted.segments.segments other).validBlkNr := by decide +kernel
  have freed : (Fs.formatted.segments.segments 59).segTemp = btTempNr := by decide +kernel
  have looked := looks_fsckChkMetadata (by decide : 59 < mainSegNr)
    fun other small => counted other (by omega)
  rw [freed] at looked
  exact ⟨looks_unformatted .zeroed (by decide), looked, by decide, by decide⟩

end FsChecking.F2fs
