import FsChecking.F2fs.Allocation
import FsChecking.F2fs.Checkpoint

/-!
# Segment accounting over runs

Host writes with whatever collections they run, and invalidations, from a formatted table on. Every
program of the log keeps the tables accounted for, unless it stops in `InvalidBlock` at a block that
is not valid: then a full segment stays the current one of its log. That no append sets a bit that is
set is said of the runs themselves: the programs are written once more with a watch in front of every
append, and do the same whatever the watch would do when it sees a valid block.
-/

namespace FsChecking.F2fs

open Lib

/-! ## Programs that leave the segments -/

/-- The segment tables are the same. -/
def SameSegments (before after : Fs) : Prop := after.segments = before.segments

instance : IsPreorder Fs SameSegments where
  refl _ := rfl
  trans _ _ _ left right := right.trans left

/-- Changing a page leaves the segments. -/
theorem modifyPage_sameSegments (page : Nat) (change : PageInfo → PageInfo) :
    Moves SameSegments (modifyPage page change) := Moves.change fun _ => rfl

/-- Reading a page's data leaves the segments. -/
theorem getData_sameSegments (page : Nat) : Moves SameSegments (getData page) :=
  Moves.bind Moves.get fun _ => Moves.pure _

/-- Programs on the page pool leave the segments. -/
theorem pagesZoom_sameSegments {α : Type} (program : PageM α) :
    Moves SameSegments (pagesLens.zoom program) := Moves.zoom fun _ _ => rfl

/-- Programs on the node address table leave the segments. -/
theorem natZoom_sameSegments {α : Type} (program : NatM α) :
    Moves SameSegments (natLens.zoom program) := Moves.zoom fun _ _ => rfl

/-- Reading a block into a page leaves the segments. -/
theorem readInto_sameSegments (lba page : Nat) : Moves SameSegments (readInto lba page) := by
  refine Moves.bind ?_ fun _ => modifyPage_sameSegments _ _
  unfold blockRead
  split
  · refine Moves.bind Moves.get fun fs => ?_
    split
    · exact Moves.throw _
    · exact Moves.pure _
  · exact Moves.throw _

/-- Reading a node leaves the segments. -/
theorem readNode_sameSegments (nid : Nat) : Moves SameSegments (readNode nid) := by
  refine Moves.bind (Moves.throwIf _ _) fun _ => Moves.bind Moves.get fun fs => ?_
  dsimp only
  split
  · refine Moves.bind ?_ fun page => Moves.bind (modifyPage_sameSegments _ _) fun _ => Moves.pure _
    unfold pagePtr
    split
    · exact Moves.throw _
    · exact Moves.pure _
  · refine Moves.bind (natZoom_sameSegments _) fun blk => ?_
    refine Moves.bind (Moves.throwIf _ _) fun _ => ?_
    refine Moves.bind (pagesZoom_sameSegments _) fun page => ?_
    refine Moves.bind (readInto_sameSegments _ _) fun _ => ?_
    refine Moves.bind (modifyPage_sameSegments _ _) fun _ => ?_
    refine Moves.bind (Moves.change fun _ => rfl) fun _ => ?_
    refine Moves.bind (getData_sameSegments _) fun data => ?_
    refine Moves.bind (Moves.throwIf _ _) fun _ => ?_
    refine Moves.bind (Moves.doIf fun _ => modifyPage_sameSegments _ _) fun _ => ?_
    exact Moves.bind (modifyPage_sameSegments _ _) fun _ => Moves.pure _

/-- Redirecting an index entry leaves the segments. -/
theorem updateIndex_sameSegments (nid offset phyBlk : Nat) :
    Moves SameSegments (updateIndex nid offset phyBlk) := by
  refine Moves.bind (readNode_sameSegments nid) fun page => ?_
  refine Moves.bind (getData_sameSegments page) fun data => ?_
  refine Moves.bind (Moves.throwIf _ _) fun _ => ?_
  exact Moves.bind (modifyPage_sameSegments _ _) fun _ => modifyPage_sameSegments _ _

/-! ## Watched writes -/

/-- The append with a watch: when the bit that it is going to set is set, so that the block which it
is going to write is valid, an alarm goes off first. -/
def watchedAppend (alarm : Nat → FsM Unit) (page temp : Nat) (byGc : Bool) : FsM Nat := do
  let manager := (← get).segments
  let curseg := manager.curSegs temp
  doIf ((manager.segments curseg.segNo).validBmp.getLsbD curseg.blkOffset = true)
    (alarm (phyBlock curseg.segNo curseg.blkOffset))
  appendBlock page temp byGc

/-- `WriteBlockToSeg` with an append and a collector of choice. -/
def writeBlockBy (append : Nat → Nat → Bool → FsM Nat) (collector : FsM ErrorCode) (page : Nat)
    (force byGc : Bool) : FsM Nat := do
  let info ← getPage page
  let temp := getBlockTemp info.data
  modifyPage page fun info => { info with ttemp := temp }
  doIf (byGc = false) (setDataCache { nid := info.nid, offset := info.offset })
  if ← openLog collector temp byGc force then append page temp byGc
  else return invalidBlk

/-- `moveBlock` with a write of choice. -/
def moveBlockBy (write : Nat → FsM Nat) (seg blk : Nat) : FsM Bool := do
  let info := (← get).segments.segments seg
  let nid := info.nids blk
  let offset := info.offset blk
  let orgPhy := phyBlock seg blk
  let nodePage ← readNode nid
  if offset = invalidBlk then
    let l2p ← natLens.zoom (getPhyBlk nid)
    throwIf (l2p ≠ orgPhy)
      (.fs .phyAddrMismatch "phy_blk [%d] node=%d, L2P=%d mismatch" [orgPhy, nid, l2p])
    let phyBlk ← write nodePage
    setPageDirty nodePage false
    natLens.zoom (setPhyBlk nid phyBlk)
    return true
  else
    let cache := (← get).segments.dataCache
    if cache.nid = nid ∧ cache.offset = offset then return false
    let node ← getData nodePage
    throwIf (node.blockType ≠ .index)
      (.fs .wrongBlockType "node [%d] expected INDEX BLOCK, wrong type=%d"
        [nid, node.blockType.toNat])
    throwIf (offset > indexSize)
      (.fs .invalidIndex "data block [%d,%d], phy=%d, offset over range" [nid, offset, orgPhy])
    throwIf (offset = indexSize) .undefined
    let l2p := node.node.index.index offset
    throwIf (l2p ≠ orgPhy)
      (.fs .phyAddrMismatch "data block [%d, %d] phy=%d, L2P=%d mismatch"
        [nid, offset, orgPhy, l2p])
    readInto (phyblkToLba orgPhy) stackPage
    modifyPage stackPage fun page => { page with phyBlk := orgPhy, nid, offset }
    let phyBlk ← write stackPage
    updateIndex nid offset phyBlk
    return true

/-- `moveBlocks` with a write of choice. -/
def moveBlocksBy (write : Nat → FsM Nat) (seg : Nat) : List Nat → Nat → FsM Unit
  | [], _ => pure ()
  | blk :: rest, left => do
    if ((← get).segments.segments seg).validBmp.getLsbD blk = false then
      moveBlocksBy write seg rest left
    else if ← moveBlockBy write seg blk then
      let left := dword (left + (2 ^ 32 - 1))
      if left = 0 then pure () else moveBlocksBy write seg rest left
    else moveBlocksBy write seg rest left

/-- `collectFrom` with a write of choice. -/
def collectFromBy (write : Nat → FsM Nat) : List Nat → FsM Unit
  | [] => pure ()
  | seg :: rest => do
    doIf ((← get).segments.freeNr < gcHi) do
      modify fun fs => { fs with gcCount := dword (fs.gcCount + 1) }
      moveBlocksBy write seg (List.range blockPerSeg) ((← get).segments.segments seg).validBlkNr
      collectFromBy write rest

/-- `GarbageCollection` with a write of choice. -/
def garbageCollectionBy (write : Nat → FsM Nat) : FsM ErrorCode := do
  let victims ← segmentsLens.zoom scanVictims
  collectFromBy write victims
  return .ok

/-- `WriteBlockToSeg(page, true, true)` with an append of choice. -/
def gcWriteBy (append : Nat → Nat → Bool → FsM Nat) (page : Nat) : FsM Nat :=
  writeBlockBy append (pure .ok) page true true

/-- `WriteBlockToSeg(page, force)` with an append of choice, of the host and of the collections. -/
def writeBlockToSegBy (append : Nat → Nat → Bool → FsM Nat) (page : Nat) (force : Bool) :
    FsM Nat :=
  writeBlockBy append (garbageCollectionBy (gcWriteBy append)) page force false

/-- `InvalidBlock` stopped the program at a block that is not valid, or it left its arrays. -/
def Fault.StopsInvalid (fault : Fault) : Prop :=
  fault = .undefined ∨ fault.code? = some .doubledBlk

/-- The state in which an exception leaves a program: the segments are accounted for, unless
`InvalidBlock` met a block that is not valid. -/
def Left (fault : Fault) (fs : Fs) : Prop := ¬ fault.StopsInvalid → fs.segments.Managed

/-- The program keeps the segments accounted for, and does the same when it is watched. -/
structure Safe {α : Type} (program watched : FsM α) : Prop where
  /-- The segments stay accounted for. -/
  run : Triple (fun fs => fs.segments.Managed) program (fun _ fs => fs.segments.Managed) Left
  /-- No alarm goes off. -/
  same : ∀ fs : Fs, fs.segments.Managed → watched fs = program fs

namespace Safe

variable {α β : Type}

/-- Programs that leave the segments write nothing that could be watched. -/
theorem ofMoves {program : FsM α} (moves : Moves SameSegments program) : Safe program program := by
  refine ⟨fun fs managed => ?_, fun _ _ => rfl⟩
  have moved := moves fs
  cases run : program fs with
  | ok value fs' =>
    rw [run] at moved
    show fs'.segments.Managed
    rw [show fs'.segments = fs.segments from moved]
    exact managed
  | error fault fs' =>
    rw [run] at moved
    intro _
    rw [show fs'.segments = fs.segments from moved]
    exact managed

/-- Returning a value is safe. -/
theorem pure (value : α) : Safe (Pure.pure value) (Pure.pure value) := ofMoves (Moves.pure value)

/-- Reading the state is safe. -/
theorem get : Safe (MonadState.get : FsM Fs) MonadState.get := ofMoves Moves.get

/-- A check is safe. -/
theorem throwIf (wrong : Prop) [Decidable wrong] (fault : Fault) :
    Safe (Lib.throwIf wrong fault) (Lib.throwIf wrong fault) := ofMoves (Moves.throwIf wrong fault)

/-- A sequence of safe programs is safe: the second one starts where the first one returns. -/
theorem bind {first first' : FsM α} {next next' : α → FsM β} (left : Safe first first')
    (right : ∀ value, Safe (next value) (next' value)) :
    Safe (first >>= next) (first' >>= next') where
  run := Triple.bind left.run fun value => (right value).run
  same fs managed := bind_eq_of_outcome (left.same fs managed) (left.run fs managed)
    fun value fs' => (right value).same fs'

/-- A safe program that only runs under a condition is safe. -/
theorem doIf {cond : Prop} [Decidable cond] {program watched : FsM Unit}
    (safe : Safe program watched) : Safe (Lib.doIf cond program) (Lib.doIf cond watched) := by
  unfold Lib.doIf
  split
  · exact safe
  · exact pure PUnit.unit

end Safe

/-- Remembering the block that is being written is safe. -/
theorem setDataCache_safe (cache : DataPageCache) :
    Safe (setDataCache cache) (setDataCache cache) :=
  ⟨fun _ managed => managed.dataCache cache, fun _ _ => rfl⟩

/-! ## Log writes -/

/-- Making room with a safe collector is safe. -/
theorem reclaimSpace_safe {collector watched : FsM ErrorCode} (safe : Safe collector watched)
    (byGc force : Bool) :
    Safe (reclaimSpace collector byGc force) (reclaimSpace watched byGc force) := by
  unfold reclaimSpace
  refine Safe.bind Safe.get fun fs => Safe.bind (Safe.throwIf _ _) fun _ => ?_
  split
  · refine Safe.bind safe fun ir => Safe.bind Safe.get fun fs => ?_
    exact Safe.bind (Safe.throwIf _ _) fun _ => Safe.pure _
  · exact Safe.pure _

/-- The segment that was handed out, when there is one, may become the head of the log. -/
def HandedOut (temp seg : Nat) (fs : Fs) : Prop :=
  if seg = invalidBlk then fs.segments.Managed
  else (fs.segments.setCurseg temp { segNo := seg, blkOffset := 0 }).Managed

/-- The segment that `AllocSegment` hands out, when there is one, is ready to become the head of the
log. -/
theorem allocSegment_triple {collector watched : FsM ErrorCode} (safe : Safe collector watched)
    (temp : Nat) (byGc force : Bool) :
    Triple (fun fs => fs.segments.Managed) (allocSegment collector temp byGc force)
      (HandedOut temp) Left := by
  refine Triple.bind (reclaimSpace_safe safe byGc force).run fun enough => ?_
  cases enough with
  | false =>
    intro fs managed
    show HandedOut temp invalidBlk fs
    rw [HandedOut, if_pos rfl]
    exact managed
  | true =>
    intro fs managed
    by_cases none : fs.segments.freeHead = invalidBlk ∨ fs.segments.freeTail = invalidBlk
    · have thrown := segmentsLens.zoom_of_error
        (show freeDeQueue (segmentsLens.get fs) = .error _ _ from throwIf_bind_of none)
      rw [if_pos rfl, bind_apply, thrown]
      exact fun _ => managed
    · have taken : segmentsLens.zoom freeDeQueue fs =
          .ok fs.segments.freeTail { fs with segments := fs.segments.unlinkTail } :=
        segmentsLens.zoom_of_ok (throwIf_bind_of_not none)
      rw [if_pos rfl, bind_apply, taken]
      rw [not_or] at none
      obtain ⟨small, ready⟩ := managed.take none.1 temp
      show HandedOut temp fs.segments.freeTail _
      rw [HandedOut, if_neg none.2]
      exact ready

/-- A watched collector does not change what `AllocSegment` does. -/
theorem allocSegment_same {collector watched : FsM ErrorCode} (safe : Safe collector watched)
    (temp : Nat) (byGc force : Bool) {fs : Fs} (managed : fs.segments.Managed) :
    allocSegment watched temp byGc force fs = allocSegment collector temp byGc force fs := by
  have reclaimed := reclaimSpace_safe safe byGc force
  exact bind_eq_of_outcome (reclaimed.same fs managed) (reclaimed.run fs managed) fun _ _ _ => rfl

/-- A log that was made ready has a current segment. -/
theorem openLog_triple {collector watched : FsM ErrorCode} (safe : Safe collector watched)
    (temp : Nat) (byGc force : Bool) :
    Triple (fun fs => fs.segments.Managed) (openLog collector temp byGc force)
      (fun opened fs => fs.segments.Managed ∧
        (opened = true → (fs.segments.curSegs temp).segNo ≠ invalidBlk))
      Left := by
  unfold openLog
  intro fs managed
  rw [get_bind_apply]
  by_cases closed : (fs.segments.curSegs temp).segNo = invalidBlk
  · rw [if_pos closed]
    refine Triple.bind (allocSegment_triple safe temp byGc force) (fun seg => ?_) fs managed
    intro fs' ready
    by_cases none : seg = invalidBlk
    · rw [HandedOut, if_pos none] at ready
      rw [if_pos none]
      refine Triple.bind (setDataCache_safe .ones).run (fun _ => ?_) fs' ready
      exact Triple.pure fun _ managed => ⟨managed, fun opened => by cases opened⟩
    · rw [HandedOut, if_neg none] at ready
      rw [if_neg none]
      refine ⟨ready, fun _ => ?_⟩
      show ((fs'.segments.setCurseg temp _).curSegs temp).segNo ≠ invalidBlk
      rw [SegmentManager.curSegs_setCurseg_self]
      exact none
  · rw [if_neg closed]
    exact ⟨managed, fun _ => closed⟩

/-- A watched collector does not change how a log is made ready. -/
theorem openLog_same {collector watched : FsM ErrorCode} (safe : Safe collector watched)
    (temp : Nat) (byGc force : Bool) {fs : Fs} (managed : fs.segments.Managed) :
    openLog watched temp byGc force fs = openLog collector temp byGc force fs := by
  unfold openLog
  rw [get_bind_apply, get_bind_apply]
  by_cases closed : (fs.segments.curSegs temp).segNo = invalidBlk
  · rw [if_pos closed, if_pos closed]
    exact bind_eq_of_outcome (allocSegment_same safe temp byGc force managed)
      (allocSegment_triple safe temp byGc force fs managed) fun _ _ _ => rfl
  · rw [if_neg closed, if_neg closed]

/-- `InvalidBlock` drops a valid block, does nothing to an invalid address, or stops. -/
theorem invalidBlock_cases {manager : SegmentManager} (counted : manager.Counted) (blk : Nat) :
    (∃ freed, invalidBlock blk manager = .ok freed manager) ∨
      (blk < mainBlkNr ∧ manager.isValid blk = true ∧
        ∃ freed, invalidBlock blk manager = .ok freed (manager.invalidated blk)) ∨
      ∃ fault : Fault, fault.StopsInvalid ∧ invalidBlock blk manager = .error fault manager := by
  by_cases none : blk = invalidBlk
  · refine Or.inl ⟨false, ?_⟩
    unfold invalidBlock
    rw [if_pos none]
    rfl
  · by_cases inside : blk < mainBlkNr
    · by_cases valid : manager.isValid blk = true
      · exact Or.inr (Or.inl ⟨inside, valid, invalidBlock_of_valid counted inside valid⟩)
      · refine Or.inr (Or.inr ⟨.fs .doubledBlk "double invalid phy block, seg=%d, blk=%d,"
          [blk / blockPerSeg, blk % blockPerSeg], Or.inr rfl, ?_⟩)
        have seg : ¬ blk / blockPerSeg ≥ mainSegNr := by
          unfold mainBlkNr mainSegNr blockPerSeg at *
          omega
        unfold invalidBlock invalidBlockAt
        rw [if_neg none, throwIf_bind_of_not seg, get_bind_apply]
        exact throwIf_bind_of (Bool.eq_false_of_not_eq_true valid)
    · refine Or.inr (Or.inr ⟨.undefined, Or.inl rfl, ?_⟩)
      have seg : blk / blockPerSeg ≥ mainSegNr := by
        unfold mainBlkNr mainSegNr blockPerSeg at *
        omega
      unfold invalidBlock invalidBlockAt
      rw [if_neg none]
      exact throwIf_bind_of seg

/-- The end of an append: invalidate the block that was replaced, close the segment when it is
full. -/
theorem finishAppend_triple (page temp phyBlk : Nat) (replaced : Nat) (byGc : Bool) :
    Triple (fun fs => fs.segments.Appending temp)
      (do
        let _ ← segmentsLens.zoom (invalidBlock replaced)
        modifyPage page fun info => { info with phyBlk, dirty := info.dirty && byGc }
        segmentsLens.zoom (modify (·.closeFull temp))
        doIf (byGc = false) (setDataCache .ones)
        return phyBlk)
      (fun _ fs => fs.segments.Managed) Left := by
  have last : Triple (fun fs => fs.segments.Managed)
      (doIf (byGc = false) (setDataCache .ones) >>= fun _ => (return phyBlk : FsM Nat))
      (fun _ fs => fs.segments.Managed) Left :=
    (Safe.bind (Safe.doIf (setDataCache_safe .ones)) fun _ => Safe.pure _).run
  intro fs appending
  obtain ⟨queue, accounted⟩ := appending.accounted
  rw [bind_apply]
  rcases invalidBlock_cases accounted.counted replaced with
    ⟨freed, kept⟩ | ⟨inside, valid, freed, dropped⟩ | ⟨fault, stops, stopped⟩
  · rw [segmentsLens.zoom_of_ok kept]
    exact last _ appending.closeFull
  · rw [segmentsLens.zoom_of_ok dropped]
    exact last _ (appending.invalidated inside valid).closeFull
  · rw [segmentsLens.zoom_of_error stopped]
    exact fun fine => absurd stops fine

/-- In accounted segments the block at the head of a log is not valid. -/
theorem SegmentManager.Managed.headFree {manager : SegmentManager} (managed : manager.Managed)
    {temp : Nat} (inside : temp < btTempNr) (valid : (manager.curSegs temp).segNo ≠ invalidBlk) :
    (manager.segments (manager.curSegs temp).segNo).validBmp.getLsbD
      (manager.curSegs temp).blkOffset = false := by
  obtain ⟨queue, accounted⟩ := managed.accounted
  exact (accounted.heads temp inside valid).ahead _ le_rfl

/-- Appending a page to a log with a current segment keeps the segments accounted for. -/
theorem appendBlock_triple (page : Nat) {temp : Nat} (inside : temp < btTempNr) (byGc : Bool) :
    Triple (fun fs => fs.segments.Managed ∧ (fs.segments.curSegs temp).segNo ≠ invalidBlk)
      (appendBlock page temp byGc) (fun _ fs => fs.segments.Managed) Left := by
  rintro fs ⟨managed, valid⟩
  obtain ⟨queue, accounted⟩ := managed.accounted
  have room := managed.closed temp inside valid
  have small := (accounted.heads temp inside valid).small
  have fits : ¬ ((fs.segments.curSegs temp).segNo ≥ mainSegNr ∨
      (fs.segments.curSegs temp).blkOffset ≥ blockPerSeg) := by
    rw [not_or]
    exact ⟨Nat.not_le_of_lt small, Nat.not_le_of_lt room⟩
  have stored : segToLba (fs.segments.curSegs temp).segNo (fs.segments.curSegs temp).blkOffset <
      totalBlockNr := by
    generalize (fs.segments.curSegs temp).segNo = seg at small ⊢
    generalize (fs.segments.curSegs temp).blkOffset = offset at room ⊢
    have sixty : seg < 60 := small
    have sixteen : offset < 16 := room
    have bound : (mainSegOffset + seg) * 16 + offset < (mainSegOffset + 60) * 16 := by omega
    exact bound
  unfold appendBlock
  rw [get_bind_apply, throwIf_bind_of_not fits, getPage_bind_apply]
  unfold blockWrite
  rw [dif_pos stored, modify_bind_apply]
  exact finishAppend_triple page temp _ _ byGc _ (managed.recordWrite inside valid _ _)

/-- At the head of a log the watch sees a free block. -/
theorem watchedAppend_same (alarm : Nat → FsM Unit) (page : Nat) {temp : Nat}
    (inside : temp < btTempNr) (byGc : Bool) {fs : Fs} (managed : fs.segments.Managed)
    (valid : (fs.segments.curSegs temp).segNo ≠ invalidBlk) :
    watchedAppend alarm page temp byGc fs = appendBlock page temp byGc fs := by
  have quiet := Bool.not_eq_true _ ▸ managed.headFree inside valid
  unfold watchedAppend
  rw [get_bind_apply]
  exact doIf_bind_of_not quiet fs

/-- The temperature of a page is one of a log. -/
theorem getBlockTemp_lt (data : BlockData) : getBlockTemp data < btTempNr := by
  unfold getBlockTemp
  split
  · decide
  · decide

/-- `WriteBlockToSeg` with a safe collector is safe. -/
theorem writeBlockWith_safe (alarm : Nat → FsM Unit) {collector watched : FsM ErrorCode}
    (safe : Safe collector watched) (page : Nat) (force byGc : Bool) :
    Safe (writeBlockWith collector page force byGc)
      (writeBlockBy (watchedAppend alarm) watched page force byGc) := by
  unfold writeBlockWith writeBlockBy
  refine Safe.bind (Safe.ofMoves (Moves.bind Moves.get fun _ => Moves.pure _)) fun info => ?_
  refine Safe.bind (Safe.ofMoves (modifyPage_sameSegments page _)) fun _ => ?_
  refine Safe.bind (Safe.doIf (setDataCache_safe _)) fun _ => ⟨?_, fun fs managed => ?_⟩
  · refine Triple.bind (openLog_triple safe _ byGc force) fun opened => ?_
    cases opened with
    | true =>
      refine Triple.conseq (appendBlock_triple page (getBlockTemp_lt _) byGc) ?_
        (fun _ _ => id) (fun _ _ => id)
      exact fun _ both => ⟨both.1, both.2 rfl⟩
    | false => exact Triple.pure fun _ both => both.1
  · refine bind_eq_of_outcome (openLog_same safe _ byGc force managed)
      (openLog_triple safe _ byGc force fs managed) fun opened fs' both => ?_
    cases opened with
    | true => exact watchedAppend_same alarm page (getBlockTemp_lt _) byGc both.1 (both.2 rfl)
    | false => rfl

/-! ## Collections -/

/-- A round of the victim scan at a segment that has been queued leaves the tables. -/
theorem scanSegment_of_linked {manager : SegmentManager} {seg : Nat}
    (linked : (manager.segments seg).freeNext ≠ invalidBlk) (pool : GcPool Nat) :
    ∃ pool', scanSegment pool seg manager = .ok pool' manager := by
  have kept : ¬ ((manager.segments seg).validBlkNr = 0 ∧
      (manager.segments seg).freeNext = invalidBlk) := fun both => linked both.2
  rw [scanSegment, get_bind_apply, if_neg kept]
  split
  · exact ⟨_, rfl⟩
  · exact ⟨_, rfl⟩

/-- The victim scan leaves tables whose segments have all been queued. -/
theorem scanSegments_of_linked {manager : SegmentManager} (linked : manager.AlwaysLinked)
    {seg : Nat} (small : seg ≤ mainSegNr) : ∃ pool,
      (List.range seg).foldlM scanSegment { heap := fun _ => 0, len := 0 } manager =
        .ok pool manager := by
  induction seg with
  | zero => exact ⟨_, rfl⟩
  | succ seg ih =>
    obtain ⟨pool, scanned⟩ := ih (by omega)
    obtain ⟨pool', next⟩ := scanSegment_of_linked (linked seg (by omega)) pool
    refine ⟨pool', ?_⟩
    rw [List.range_succ, List.foldlM_append, bind_apply, scanned]
    show (scanSegment pool seg >>= fun pool => pure pool) manager = _
    rw [bind_apply, next]
    rfl

/-- The victim scan only reads. -/
theorem scanVictims_safe :
    Safe (segmentsLens.zoom scanVictims) (segmentsLens.zoom scanVictims) := by
  refine ⟨fun fs managed => ?_, fun _ _ => rfl⟩
  obtain ⟨pool, scanned⟩ := scanSegments_of_linked managed.linked le_rfl
  by_cases none : pool.len = 0
  · have stopped : scanVictims fs.segments = .error .undefined fs.segments := by
      unfold scanVictims
      rw [bind_apply, scanned]
      exact throwIf_bind_of none
    rw [segmentsLens.zoom_of_error stopped]
    exact fun _ => managed
  · have found : scanVictims fs.segments =
        .ok (pool.sort fun seg => (fs.segments.segments seg).validBlkNr) fs.segments := by
      unfold scanVictims
      rw [bind_apply, scanned]
      exact throwIf_bind_of_not none
    rw [segmentsLens.zoom_of_ok found]
    exact managed

/-- A write of the collector is safe. -/
theorem gcWrite_safe (alarm : Nat → FsM Unit) (page : Nat) :
    Safe (gcWrite page) (gcWriteBy (watchedAppend alarm) page) :=
  writeBlockWith_safe alarm (Safe.pure ErrorCode.ok) page true true

section

variable {write : Nat → FsM Nat} (writes : ∀ page, Safe (gcWrite page) (write page))

include writes

/-- Moving one block is safe. -/
theorem moveBlock_safe (seg blk : Nat) : Safe (moveBlock seg blk) (moveBlockBy write seg blk) := by
  unfold moveBlock moveBlockBy
  refine Safe.bind Safe.get fun fs => ?_
  refine Safe.bind (Safe.ofMoves (readNode_sameSegments _)) fun nodePage => ?_
  split
  · refine Safe.bind (Safe.ofMoves (natZoom_sameSegments _)) fun l2p => ?_
    refine Safe.bind (Safe.throwIf _ _) fun _ => Safe.bind (writes nodePage) fun phyBlk => ?_
    refine Safe.bind (Safe.ofMoves (modifyPage_sameSegments _ _)) fun _ => ?_
    exact Safe.bind (Safe.ofMoves (natZoom_sameSegments _)) fun _ => Safe.pure _
  · refine Safe.bind Safe.get fun fs => ?_
    dsimp only
    split
    · exact Safe.pure _
    · refine Safe.bind (Safe.ofMoves (getData_sameSegments _)) fun node => ?_
      refine Safe.bind (Safe.throwIf _ _) fun _ => ?_
      refine Safe.bind (Safe.throwIf _ _) fun _ => ?_
      refine Safe.bind (Safe.throwIf _ _) fun _ => ?_
      refine Safe.bind (Safe.throwIf _ _) fun _ => ?_
      refine Safe.bind (Safe.ofMoves (readInto_sameSegments _ _)) fun _ => ?_
      refine Safe.bind (Safe.ofMoves (modifyPage_sameSegments _ _)) fun _ => ?_
      refine Safe.bind (writes stackPage) fun phyBlk => ?_
      exact Safe.bind (Safe.ofMoves (updateIndex_sameSegments _ _ _)) fun _ => Safe.pure _

/-- Moving the blocks of a victim is safe. -/
theorem moveBlocks_safe (seg : Nat) (blks : List Nat) (left : Nat) :
    Safe (moveBlocks seg blks left) (moveBlocksBy write seg blks left) := by
  induction blks generalizing left with
  | nil => exact Safe.pure _
  | cons blk rest ih =>
    refine Safe.bind Safe.get fun fs => ?_
    split
    · exact ih left
    · refine Safe.bind (moveBlock_safe writes seg blk) fun moved => ?_
      split
      · dsimp only
        split
        · exact Safe.pure _
        · exact ih _
      · exact ih left

/-- Collecting the victims is safe. -/
theorem collectFrom_safe (victims : List Nat) :
    Safe (collectFrom victims) (collectFromBy write victims) := by
  induction victims with
  | nil => exact Safe.pure _
  | cons seg rest ih =>
    refine Safe.bind Safe.get fun fs => Safe.doIf ?_
    refine Safe.bind (Safe.ofMoves (Moves.change fun _ => rfl)) fun _ => ?_
    exact Safe.bind Safe.get fun fs => Safe.bind (moveBlocks_safe writes seg _ _) fun _ => ih

/-- A collection is safe. -/
theorem garbageCollection_safe : Safe garbageCollection (garbageCollectionBy write) :=
  Safe.bind scanVictims_safe fun victims => Safe.bind (collectFrom_safe writes victims) fun _ =>
    Safe.pure _

end

/-- A host write with the collections it runs is safe. -/
theorem writeBlockToSeg_safe (alarm : Nat → FsM Unit) (page : Nat) (force : Bool) :
    Safe (writeBlockToSeg page force) (writeBlockToSegBy (watchedAppend alarm) page force) :=
  writeBlockWith_safe alarm (garbageCollection_safe (gcWrite_safe alarm)) page force false

/-- A host write keeps the segments accounted for. -/
theorem writeBlockToSeg_triple (page : Nat) (force : Bool) :
    Triple (fun fs => fs.segments.Managed) (writeBlockToSeg page force)
      (fun _ fs => fs.segments.Managed) Left :=
  (writeBlockToSeg_safe (fun _ => pure ⟨⟩) page force).run

/-! ## Runs -/

/-- The segment tables as formatting, host writes and invalidations leave them. Between the calls
the rest of the file system may change in any way; a call may end with an exception that is
allowed. -/
inductive SegmentRun (allowed : Fault → Prop) : Fs → Prop
  /-- `InitSegmentManager`, in any memory. -/
  | start (memory : Fs) :
    SegmentRun allowed { memory with segments := memory.segments.initSegmentManager }
  /-- Anything else may happen to the pages, the node address table and the storage. -/
  | elsewhere {fs fs' : Fs} (run : SegmentRun allowed fs) (same : fs'.segments = fs.segments) :
    SegmentRun allowed fs'
  /-- A host write that returns. -/
  | write {fs fs' : Fs} {page blk : Nat} {force : Bool} (run : SegmentRun allowed fs)
    (returned : writeBlockToSeg page force fs = .ok blk fs') : SegmentRun allowed fs'
  /-- A host write that throws. -/
  | writeThrows {fs fs' : Fs} {page : Nat} {force : Bool} {fault : Fault}
    (run : SegmentRun allowed fs) (allow : allowed fault)
    (thrown : writeBlockToSeg page force fs = .error fault fs') : SegmentRun allowed fs'
  /-- `InvalidBlock` on a valid block. -/
  | invalidate {fs fs' : Fs} {blk : Nat} {freed : Bool} (run : SegmentRun allowed fs)
    (inside : blk < mainBlkNr) (valid : fs.segments.isValid blk = true)
    (returned : segmentsLens.zoom (invalidBlock blk) fs = .ok freed fs') : SegmentRun allowed fs'

/-- Every run in which no call stops in `InvalidBlock` manages the segments. -/
theorem SegmentRun.managed {fs : Fs} (run : SegmentRun (fun fault => ¬ fault.StopsInvalid) fs) :
    fs.segments.Managed := by
  induction run with
  | start memory => exact SegmentManager.managed_initSegmentManager memory.segments
  | elsewhere _ same ih =>
    rw [same]
    exact ih
  | @write fs fs' page blk force _ returned ih =>
    have written := writeBlockToSeg_triple page force fs ih
    rw [returned] at written
    exact written
  | @writeThrows fs fs' page force fault _ allow thrown ih =>
    have written := writeBlockToSeg_triple page force fs ih
    rw [thrown] at written
    exact written allow
  | @invalidate fs fs' blk freed _ inside valid returned ih =>
    obtain ⟨queue, accounted⟩ := ih.accounted
    obtain ⟨freed', dropped⟩ := invalidBlock_of_valid accounted.counted inside valid
    rw [segmentsLens.zoom_of_ok dropped] at returned
    cases returned
    exact ih.invalidated inside valid

/-- A file system whose pages are all new, but for the address that they name. -/
def Fs.withPages (fs : Fs) (phyBlk : Nat) : Fs :=
  { fs with pages := { fs.pages with page := fun _ => { PageInfo.initial with phyBlk } } }

/-- Runs whose calls may stop anywhere reach the state that a host write leaves. -/
theorem SegmentRun.finalState {fs : Fs} (run : SegmentRun (fun _ => True) fs) (page : Nat)
    (force : Bool) : SegmentRun (fun _ => True) (finalState (writeBlockToSeg page force fs)) := by
  cases result : writeBlockToSeg page force fs with
  | ok blk fs' => exact .write run result
  | error fault fs' => exact .writeThrows run trivial result

end FsChecking.F2fs
