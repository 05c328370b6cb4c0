import FsChecking.F2fs.Pool
import FsChecking.F2fs.Simulator

/-!
# The size limit of writes

`FileWrite` computes the end of a request modulo `2 ^ 32`, truncates its block number to 16 bits and
only then compares it with `MaxFileSize`. The requests that it handles as the limit asks are exactly
those inside the limit, those whose truncated end lies beyond it and those whose truncated range is
empty.
-/

namespace FsChecking.F2fs

open Lib

variable {fs fs' : Fs} {fid ipage offset len : Nat}

/-! ## Requests -/

/-- The largest position that `MaxFileSize` allows. -/
abbrev maxFileBytes : Nat := maxFileSize * blockSize

/-- `OffsetToIndex` for a write, which asserts that the block has a slot in the inode. -/
def checkedIndex (path : IndexPath) (blk : Nat) : FsM (Option IndexPath) := do
  throwIf (blk ≥ maxFileBlks) (.app "block %d is beyond the index table" [blk])
  offsetToIndex path blk true

/-- The loop of `FileWriteInternal` with the assertion. -/
def checkedBlocks (force : Bool) : List Nat → IndexPath → Nat → Nat → FsM Nat
  | [], _, _, written => pure written
  | dpage :: rest, path, blk, written => do
    let found ← if path.positioned then pure (some path) else checkedIndex path blk
    match found with
    | none => return written
    | some path =>
      match path.node with
      | none => throw .undefined
      | some diPage =>
        match ← writeDataPage path diPage dpage force with
        | none => return written
        | some () => checkedBlocks force rest (nextOffset path) (blk + 1) (written + 1)

/-- `FileWriteInternal` with the assertion. -/
def checkedWriteInternal (inode startBlk endBlk : Nat) (pages : List Nat) (force : Bool) :
    FsM Nat := do
  let dataBlkNr := endBlk - startBlk
  let nodeBlkNr := roundUpDiv dataBlkNr indexSize
  if dataBlkNr + nodeBlkNr > availableBlk (← get) force then return 0
  let written ← checkedBlocks force (pages.take dataBlkNr) (.start inode) startBlk 0
  modify fun fs => { fs with hostWrite := fs.hostWrite + written }
  return written

/-- The pages of `FileWrite` for a range of blocks. -/
def stampPages (fid startBlk endBlk : Nat) : FsM (List Nat) :=
  ((List.range (endBlk - startBlk)).map (startBlk + ·)).mapM (stampPage fid)

/-- `FileWrite` with assertions on its array of pages and on the blocks that it looks up. -/
def checkedFileWrite (fid offset len : Nat) : FsM Nat := do
  let ipage ← openPage fid
  let (startBlk, endBlk) := offsetToBlock offset len
  if endBlk > maxFileSize then return 0
  throwIf (endBlk - startBlk > maxFileBlks) (.app "%d pages" [endBlk - startBlk])
  let pages ← stampPages fid startBlk endBlk
  throwIf (endBlk < startBlk) .undefined
  let written ← checkedWriteInternal ipage startBlk endBlk pages false
  pages.forM fun page => pagesLens.zoom (free page)
  if written = 0 then return 0
  let endPos := if startBlk + written < endBlk then (startBlk + written) * blockSize
    else dword (offset + len)
  modifyInode ipage fun inode => { inode with fileSize := max inode.fileSize endPos }
  setPageDirty ipage true
  return dword (endPos + (2 ^ 32 - offset))

/-- How `FileWrite` should treat a request to an open file. -/
structure MeetsLimit (fs : Fs) (fid ipage offset len : Nat) : Prop where
  /-- An oversized request is refused and changes nothing. -/
  refuses : maxFileBytes < offset + len → fileWrite fid offset len fs = .ok 0 fs
  /-- Otherwise the assertions hold. -/
  bounded : offset + len ≤ maxFileBytes →
    checkedFileWrite fid offset len fs = fileWrite fid offset len fs
  /-- No more than the request is reported, and all of it when all blocks were written. -/
  reports : offset + len ≤ maxFileBytes → ∀ reported fs',
    fileWrite fid offset len fs = .ok reported fs' → reported ≤ len ∧
      ∀ startBlk endBlk pages fs₁ fs₂, offsetToBlock offset len = (startBlk, endBlk) →
        stampPages fid startBlk endBlk fs = .ok pages fs₁ →
        fileWriteInternal ipage startBlk endBlk pages false fs₁ = .ok (endBlk - startBlk) fs₂ →
        reported = len

/-- The requests that are not let through by a truncated number. -/
def LimitApplies (offset len : Nat) : Prop :=
  offset + len ≤ maxFileBytes ∨ maxFileSize < (offsetToBlock offset len).2 ∨
    (offsetToBlock offset len).1 = (offsetToBlock offset len).2

/-! ## The program -/

/-- `FileWrite` behind the look-up of the open file. -/
theorem fileWrite_of_open (opened : openPage fid fs = .ok ipage fs) {startBlk endBlk : Nat}
    (range : offsetToBlock offset len = (startBlk, endBlk)) :
    fileWrite fid offset len fs =
      (if endBlk > maxFileSize then pure 0
      else do
        let pages ← stampPages fid startBlk endBlk
        throwIf (endBlk < startBlk) .undefined
        let written ← fileWriteInternal ipage startBlk endBlk pages false
        pages.forM fun page => pagesLens.zoom (free page)
        if written = 0 then return 0
        let endPos := if startBlk + written < endBlk then (startBlk + written) * blockSize
          else dword (offset + len)
        modifyInode ipage fun inode => { inode with fileSize := max inode.fileSize endPos }
        setPageDirty ipage true
        return dword (endPos + (2 ^ 32 - offset)) : FsM Nat) fs := by
  unfold fileWrite
  rw [bind_apply, opened]
  dsimp only
  rw [range]
  rfl

/-- The assertion on the blocks of a loop that stays inside the inode holds. -/
theorem checkedBlocks_eq (force : Bool) {pages : List Nat} {blk : Nat}
    (inside : blk + pages.length ≤ maxFileBlks) (path : IndexPath) (written : Nat) :
    checkedBlocks force pages path blk written = writeBlocks force pages path blk written := by
  induction pages generalizing path blk written with
  | nil => rfl
  | cons dpage rest ih =>
    rw [List.length_cons] at inside
    have below : ¬ blk ≥ maxFileBlks := by omega
    have located : checkedIndex path blk = offsetToIndex path blk true := by
      funext fs
      exact throwIf_bind_of_not below
    have later : (fun path written => checkedBlocks force rest path (blk + 1) written) =
        fun path written => writeBlocks force rest path (blk + 1) written := by
      funext path written
      exact ih (by omega) path written
    rw [checkedBlocks, writeBlocks, located]
    exact congrArg (fun next : IndexPath → Nat → FsM Nat => (do
      let found ← if path.positioned then pure (some path) else offsetToIndex path blk true
      match found with
      | none => return written
      | some path =>
        match path.node with
        | none => throw .undefined
        | some diPage =>
          match ← writeDataPage path diPage dpage force with
          | none => return written
          | some () => next (nextOffset path) (written + 1) : FsM Nat)) later

/-- The assertions hold for a range inside the inode. -/
theorem checkedFileWrite_eq (inside : (offsetToBlock offset len).2 ≤ maxFileBlks) :
    checkedFileWrite fid offset len = fileWrite fid offset len := by
  obtain ⟨⟨startBlk, endBlk⟩, range⟩ : ∃ range, offsetToBlock offset len = range := ⟨_, rfl⟩
  rw [range] at inside
  have few : ¬ endBlk - startBlk > maxFileBlks := by omega
  have internal : ∀ ipage pages, checkedWriteInternal ipage startBlk endBlk pages false =
      fileWriteInternal ipage startBlk endBlk pages false := by
    intro ipage pages
    unfold checkedWriteInternal fileWriteInternal
    by_cases before : startBlk ≤ endBlk
    · have length := List.length_take_le (endBlk - startBlk) pages
      simp only [checkedBlocks_eq false
        (show startBlk + (pages.take (endBlk - startBlk)).length ≤ maxFileBlks by omega)
        (.start ipage) 0]
    · have none : endBlk - startBlk = 0 := by omega
      rw [none]
      rfl
  unfold checkedFileWrite fileWrite
  rw [range]
  funext fs
  have passes : (throwIf (endBlk - startBlk > maxFileBlks)
      (Fault.app "%d pages" [endBlk - startBlk]) : FsM PUnit) = pure ⟨⟩ := if_neg few
  simp only [internal, passes]
  rfl

/-! ## What is reported -/

/-- Find the index node of a block that is to be written. -/
def locate (path : IndexPath) (blk : Nat) : FsM (Option IndexPath) :=
  if path.positioned then pure (some path) else offsetToIndex path blk true

/-- One round of the loop. -/
theorem writeBlocks_cons (force : Bool) (dpage : Nat) (rest : List Nat) (path : IndexPath)
    (blk written : Nat) :
    writeBlocks force (dpage :: rest) path blk written = (do
      match ← locate path blk with
      | none => return written
      | some path =>
        match path.node with
        | none => throw .undefined
        | some diPage =>
          match ← writeDataPage path diPage dpage force with
          | none => return written
          | some () => writeBlocks force rest (nextOffset path) (blk + 1) (written + 1)) := by
  rw [writeBlocks]
  unfold locate
  split
  · rfl
  · rfl

/-- The loop counts at most one block for each page. -/
theorem writeBlocks_le {force : Bool} {pages : List Nat} {path : IndexPath}
    {blk written result : Nat} (run : writeBlocks force pages path blk written fs = .ok result fs') :
    written ≤ result ∧ result ≤ written + pages.length := by
  induction pages generalizing path blk written fs with
  | nil =>
    cases run
    exact ⟨le_refl _, le_refl _⟩
  | cons dpage rest ih =>
    rw [writeBlocks_cons, bind_eq_ok] at run
    obtain ⟨found, fs₁, -, run⟩ := run
    cases found with
    | none =>
      cases run
      exact ⟨le_refl _, Nat.le_add_right _ _⟩
    | some path =>
      dsimp only at run
      cases here : path.node with
      | none =>
        rw [here] at run
        cases run
      | some diPage =>
        rw [here, bind_eq_ok] at run
        obtain ⟨done, fs₂, -, run⟩ := run
        cases done with
        | none =>
          cases run
          exact ⟨le_refl _, Nat.le_add_right _ _⟩
        | some _ =>
          obtain ⟨more, few⟩ := ih run
          rw [List.length_cons]
          omega

/-- `FileWriteInternal` counts at most the blocks of its range. -/
theorem fileWriteInternal_le {startBlk endBlk written : Nat} {pages : List Nat} {force : Bool}
    (run : fileWriteInternal ipage startBlk endBlk pages force fs = .ok written fs') :
    written ≤ endBlk - startBlk := by
  unfold fileWriteInternal at run
  rw [get_bind_apply] at run
  split at run
  · cases run
    exact Nat.zero_le _
  · rw [bind_eq_ok] at run
    obtain ⟨count, fs₁, blocks, rest⟩ := run
    cases rest
    have few := (writeBlocks_le blocks).2
    have length := List.length_take_le (endBlk - startBlk) pages
    omega

/-- The blocks of a request inside the limit. -/
theorem offsetToBlock_inside (inside : offset + len ≤ maxFileBytes) :
    offsetToBlock offset len = (offset / blockSize, roundUpDiv (offset + len) blockSize) ∧
      offset / blockSize ≤ roundUpDiv (offset + len) blockSize ∧
      roundUpDiv (offset + len) blockSize ≤ maxFileSize := by
  unfold offsetToBlock
  rw [Prod.mk.injEq]
  unfold word dword roundUpDiv maxFileBytes maxFileSize maxFileBlks indexSize indexTableSize
    blockSize at *
  omega

/-- What a request inside the limit reports. -/
theorem reported_le (opened : openPage fid fs = .ok ipage fs)
    (inside : offset + len ≤ maxFileBytes) {reported : Nat}
    (run : fileWrite fid offset len fs = .ok reported fs') :
    reported ≤ len ∧ ∀ startBlk endBlk pages fs₁ fs₂,
      offsetToBlock offset len = (startBlk, endBlk) →
      stampPages fid startBlk endBlk fs = .ok pages fs₁ →
      fileWriteInternal ipage startBlk endBlk pages false fs₁ = .ok (endBlk - startBlk) fs₂ →
      reported = len := by
  obtain ⟨range, ordered, below⟩ := offsetToBlock_inside inside
  rw [fileWrite_of_open opened range, if_neg (Nat.not_lt.mpr below), bind_eq_ok] at run
  obtain ⟨pages, fs₁, stamps, run⟩ := run
  rw [throwIf_bind_of_not (Nat.not_lt.mpr ordered), bind_eq_ok] at run
  obtain ⟨written, fs₂, writes, run⟩ := run
  have few := fileWriteInternal_le writes
  rw [bind_eq_ok] at run
  obtain ⟨-, fs₃, -, run⟩ := run
  have numbers : reported ≤ len ∧
      (written = roundUpDiv (offset + len) blockSize - offset / blockSize → reported = len) := by
    by_cases nothing : written = 0
    · rw [if_pos nothing] at run
      cases run
      refine ⟨Nat.zero_le _, fun all => ?_⟩
      unfold roundUpDiv blockSize at *
      omega
    · rw [if_neg nothing] at run
      have value : reported = dword ((if offset / blockSize + written <
          roundUpDiv (offset + len) blockSize then (offset / blockSize + written) * blockSize
          else dword (offset + len)) + (2 ^ 32 - offset)) := by
        rw [bind_eq_ok] at run
        obtain ⟨-, fs₄, -, run⟩ := run
        rw [bind_eq_ok] at run
        obtain ⟨-, fs₅, -, run⟩ := run
        cases run
        rfl
      rw [value]
      unfold dword roundUpDiv maxFileBytes maxFileSize maxFileBlks indexSize indexTableSize
        blockSize at *
      split <;> omega
  refine ⟨numbers.1, fun startBlk endBlk pages' fs₁' fs₂' range' stamps' writes' => ?_⟩
  rw [range, Prod.mk.injEq] at range'
  obtain ⟨rfl, rfl⟩ := range'
  rw [stamps] at stamps'
  cases stamps'
  rw [writes] at writes'
  cases writes'
  exact numbers.2 rfl

/-- A request to which the limit applies is handled as it asks. -/
theorem LimitApplies.meets (applies : LimitApplies offset len)
    (opened : openPage fid fs = .ok ipage fs) : MeetsLimit fs fid ipage offset len where
  refuses oversized := by
    obtain ⟨⟨startBlk, endBlk⟩, range⟩ : ∃ range, offsetToBlock offset len = range := ⟨_, rfl⟩
    unfold LimitApplies at applies
    rw [range] at applies
    rw [fileWrite_of_open opened range]
    rcases applies with small | beyond | same
    · omega
    · rw [if_pos beyond]
      rfl
    · split
      · rfl
      · dsimp only at same
        have none : endBlk - startBlk = 0 := by omega
        have pages : stampPages fid startBlk endBlk = pure [] := by
          unfold stampPages
          rw [none]
          rfl
        have nothing : fileWriteInternal ipage startBlk endBlk [] false fs = .ok 0 fs := by
          unfold fileWriteInternal
          rw [none]
          rfl
        rw [pages, pure_bind, throwIf_bind_of_not (by omega), bind_apply, nothing]
        rfl
  bounded inside := by
    obtain ⟨range, -, below⟩ := offsetToBlock_inside inside
    rw [checkedFileWrite_eq]
    rw [range]
    exact below.trans (by decide)
  reports inside reported fs' run := reported_le opened inside run

/-! ## The pages of a request -/

/-- The pages that are taken: one for each block, and the first one is the first free page. -/
theorem stampPages_ok {blks pages : List Nat}
    (run : blks.mapM (stampPage fid) fs = .ok pages fs') :
    pages.length = blks.length ∧ ∀ page rest, pages = page :: rest → page = fs.pages.freePtr := by
  induction blks generalizing fs pages with
  | nil =>
    rw [List.mapM_nil] at run
    cases run
    exact ⟨rfl, fun page rest same => by cases same⟩
  | cons blk blks ih =>
    rw [List.mapM_cons, bind_eq_ok] at run
    obtain ⟨page, fs₁, stamp, run⟩ := run
    rw [bind_eq_ok] at run
    obtain ⟨others, fs₂, stamps, run⟩ := run
    cases run
    refine ⟨by rw [List.length_cons, List.length_cons, (ih stamps).1], fun first rest same => ?_⟩
    rw [List.cons.injEq] at same
    unfold stampPage at stamp
    rw [bind_eq_ok] at stamp
    obtain ⟨taken, fs₃, allocates, stamp⟩ := stamp
    cases stamp
    rw [← same.1]
    exact (zoom_allocate_eq_ok.mp allocates).2.2.1

/-- Pages that are given back in turn were in use and are different, and the last one becomes the
first free page. -/
theorem freePages_ok {pages : List Nat}
    (run : (pages.forM fun page => pagesLens.zoom (free page)) fs = .ok ⟨⟩ fs') :
    (∀ page ∈ pages, (fs.pages.page page).inUse = true) ∧ pages.Nodup ∧
      ∀ page ∈ pages.getLast?, fs'.pages.freePtr = page := by
  induction pages generalizing fs with
  | nil => exact ⟨by simp, List.nodup_nil, by simp⟩
  | cons page rest ih =>
    change (pagesLens.zoom (free page) >>= fun _ => rest.forM fun page =>
      pagesLens.zoom (free page)) fs = _ at run
    rw [bind_eq_ok] at run
    obtain ⟨_, fs₁, frees, run⟩ := run
    obtain ⟨used, -, rfl⟩ := zoom_free_eq_ok.mp frees
    obtain ⟨others, nodup, final⟩ := ih run
    have apart : page ∉ rest := by
      intro member
      have again := others page member
      change ((fs.pages.release page).page page).inUse = true at again
      rw [PageAllocator.release_page_self] at again
      cases again
    refine ⟨fun other member => ?_, List.nodup_cons.mpr ⟨apart, nodup⟩, fun last same => ?_⟩
    · rcases List.mem_cons.mp member with rfl | member
      · exact used
      · have different : other ≠ page := fun same => apart (same ▸ member)
        have later := others other member
        change ((fs.pages.release page).page other).inUse = true at later
        rwa [PageAllocator.release_page_of_ne different] at later
    · cases rest with
      | nil =>
        cases run
        rw [List.getLast?_singleton, Option.mem_some_iff] at same
        exact same
      | cons next rest =>
        rw [List.getLast?_cons_cons] at same
        exact final last same

/-- A request for several blocks that gets past the check moves the first free page. -/
theorem freePtr_of_written (opened : openPage fid fs = .ok ipage fs) {startBlk endBlk : Nat}
    (range : offsetToBlock offset len = (startBlk, endBlk)) (small : endBlk ≤ maxFileSize)
    (several : startBlk + 2 ≤ endBlk) {reported : Nat}
    (run : fileWrite fid offset len fs = .ok reported fs') :
    fs'.pages.freePtr ≠ fs.pages.freePtr := by
  rw [fileWrite_of_open opened range, if_neg (Nat.not_lt.mpr small), bind_eq_ok] at run
  obtain ⟨pages, fs₁, stamps, run⟩ := run
  rw [throwIf_bind_of_not (by omega), bind_eq_ok] at run
  obtain ⟨written, fs₂, -, run⟩ := run
  rw [bind_eq_ok] at run
  obtain ⟨_, fs₃, frees, run⟩ := run
  obtain ⟨length, first⟩ := stampPages_ok stamps
  rw [List.length_map, List.length_range] at length
  obtain ⟨-, nodup, final⟩ := freePages_ok frees
  have kept : fs'.pages.freePtr = fs₃.pages.freePtr := by
    by_cases nothing : written = 0
    · rw [if_pos nothing] at run
      cases run
      rfl
    · rw [if_neg nothing] at run
      cases run
      rfl
  rw [kept]
  cases pages with
  | nil =>
    rw [List.length_nil] at length
    omega
  | cons page rest =>
    cases rest with
    | nil =>
      rw [List.length_singleton] at length
      omega
    | cons next rest =>
      have last : (page :: next :: rest).getLast? = some ((next :: rest).getLast (by simp)) := by
        rw [List.getLast?_cons_cons, List.getLast?_eq_some_getLast (by simp)]
      rw [final _ last, ← first page _ rfl]
      intro same
      have member := List.getLast_mem (l := next :: rest) (by simp)
      rw [same] at member
      exact (List.nodup_cons.mp nodup).1 member

/-! ## One block -/

/-- A host write to an open log returns a block. -/
theorem writeBlockToSeg_ne_invalid {page result : Nat} {force : Bool}
    (room : (fs.segments.curSegs (getBlockTemp (fs.pages.page page).data)).segNo ≠ invalidBlk)
    (run : writeBlockToSeg page force fs = .ok result fs') : result ≠ invalidBlk := by
  unfold writeBlockToSeg writeBlockWith at run
  rw [getPage_bind_apply] at run
  unfold modifyPage setDataCache at run
  rw [modify_bind_apply, doIf_bind_of rfl] at run
  rw [bind_eq_ok] at run
  obtain ⟨_, fs₁, caches, run⟩ := run
  have same : fs₁.segments.curSegs = fs.segments.curSegs := by
    cases caches
    rfl
  have opens : openLog garbageCollection (getBlockTemp (fs.pages.page page).data) false force fs₁ =
      .ok true fs₁ := by
    unfold openLog
    rw [get_bind_apply, same, if_neg room]
    rfl
  rw [bind_apply, opens] at run
  dsimp only at run
  rw [if_pos rfl] at run
  unfold appendBlock at run
  rw [get_bind_apply, throwIf_bind_eq_ok, getPage_bind_apply] at run
  obtain ⟨inside, run⟩ := run
  simp only [bind_eq_ok] at run
  obtain ⟨_, _, _, _, _, _, _, _, _, _, _, _, _, _, _, _, _, _, done⟩ := run
  cases done
  unfold phyBlock
  unfold mainSegNr blockPerSeg at inside
  unfold blockPerSeg invalidBlk
  omega


/-- A mapped slot whose index node is in the cache is found without touching the segments. -/
theorem offsetToIndex_of_cached {blk nid : Nat} {found : Option IndexPath}
    (inside : blk < maxFileBlks)
    (mapped : (fs.pages.page ipage).data.node.inode.index (blk / indexSize) = nid)
    (isNode : nid < nodeNr) (cached : fs.nat.nodeCache nid ≠ invalidPage)
    (run : offsetToIndex (.start ipage) blk true fs = .ok found fs') :
    fs'.segments = fs.segments ∧ ∃ path page, found = some path ∧ path.node = some page := by
  have small : word blk = blk := by
    unfold word
    unfold maxFileBlks indexSize indexTableSize at inside
    omega
  unfold offsetToIndex at run
  dsimp only at run
  rw [small, throwIf_bind_eq_ok, getData_bind_apply] at run
  obtain ⟨-, run⟩ := run
  have present : nid ≠ invalidBlk := by
    unfold nodeNr at isNode
    unfold invalidBlk
    omega
  have slot : (fs.pages.page (IndexPath.start ipage).inode).data.node.inode.index
      (blk / indexSize) = nid := mapped
  rw [slot, if_neg present, bind_eq_ok] at run
  obtain ⟨page, fs₁, reads, run⟩ := run
  cases run
  refine ⟨?_, _, page, rfl, rfl⟩
  unfold readNode at reads
  rw [throwIf_bind_of_not (Nat.not_le.mpr isNode), get_bind_apply, if_pos cached] at reads
  unfold pagePtr at reads
  split at reads
  · cases reads
  · cases reads
    rfl

/-- A request for one block that gets past the check writes it, when there is space. -/
theorem writes_one {blk nid page written : Nat} (inside : blk < maxFileBlks)
    (mapped : (fs.pages.page ipage).data.node.inode.index (blk / indexSize) = nid)
    (isNode : nid < nodeNr) (cached : fs.nat.nodeCache nid ≠ invalidPage)
    (room : ∀ temp, temp = btHotNode ∨ temp = btHotData →
      (fs.segments.curSegs temp).segNo ≠ invalidBlk)
    (space : 2 ≤ availableBlk fs false)
    (run : fileWriteInternal ipage blk (blk + 1) [page] false fs = .ok written fs') :
    written = 1 := by
  have one : blk + 1 - blk = 1 := by omega
  unfold fileWriteInternal at run
  rw [one, get_bind_apply] at run
  have fits : ¬ 1 + roundUpDiv 1 indexSize > availableBlk fs false := Nat.not_lt.mpr space
  rw [if_neg fits, bind_eq_ok] at run
  obtain ⟨count, fs₁, writes, done⟩ := run
  cases done
  change writeBlocks false [page] (.start ipage) blk 0 fs = _ at writes
  rw [writeBlocks_cons, bind_eq_ok] at writes
  obtain ⟨found, fs₂, locates, writes⟩ := writes
  obtain ⟨segments, path, diPage, rfl, node⟩ :=
    offsetToIndex_of_cached inside mapped isNode cached locates
  dsimp only at writes
  rw [node, bind_eq_ok] at writes
  obtain ⟨done, fs₃, maps, writes⟩ := writes
  cases done with
  | some _ =>
    cases writes
    rfl
  | none =>
    exfalso
    unfold writeDataPage at maps
    rw [getData_bind_apply] at maps
    unfold modifyPage at maps
    rw [modify_bind_apply, bind_eq_ok] at maps
    obtain ⟨newPhyBlk, fs₄, appends, maps⟩ := maps
    have valid : newPhyBlk ≠ invalidBlk := by
      refine writeBlockToSeg_ne_invalid ?_ appends
      change (fs₂.segments.curSegs _).segNo ≠ invalidBlk
      rw [segments]
      refine room _ ?_
      unfold getBlockTemp
      split
      · exact .inl rfl
      · exact .inr rfl
    rw [if_neg valid] at maps
    simp only [bind_eq_ok] at maps
    obtain ⟨_, _, _, _, _, _, _, _, _, done⟩ := maps
    cases done

/-! ## The requests that slip through -/

/-- A file system with a file of one block at the start of a slot. -/
def fileWith (slot : Nat) : Fs :=
  finalState ((do
    match ← @fileCreate ⟨fun _ => 0⟩ ['\\', 'a'] with
    | .error _ => throw .undefined
    | .ok fid =>
      let _ ← fileWrite fid (slot * indexSize * blockSize) blockSize : FsM Unit) .formatted)

/-- The file is open, its index node is in the cache, and there is space in the logs. -/
theorem fileWith_facts : ∀ slot < indexTableSize,
    returned (openPage 1 (fileWith slot)) = true ∧
      ((fileWith slot).openFiles 0).ino = 1 ∧ ((fileWith slot).openFiles 0).ipage = 6 ∧
      ((fileWith slot).pages.page 6).data.node.inode.index slot = 3 ∧
      ((fileWith slot).pages.page 6).data.node.inode.fileSize ≤ maxFileBytes ∧
      (fileWith slot).nat.nodeCache 3 ≠ invalidPage ∧
      ((fileWith slot).segments.curSegs btHotNode).segNo ≠ invalidBlk ∧
      ((fileWith slot).segments.curSegs btHotData).segNo ≠ invalidBlk ∧
      2 ≤ availableBlk (fileWith slot) false ∧ (fileWith slot).pages.freePtr = 7 := by
  decide +kernel

/-- Looking up an open file changes nothing. -/
theorem openPage_eq_ok {page : Nat} (found : openPage fid fs = .ok page fs') :
    fs' = fs ∧ ∃ index, (List.range maxOpenFile).find? (fun index =>
      decide ((fs.openFiles index).ino = fid)) = some index ∧ page = (fs.openFiles index).ipage := by
  unfold openPage findOpenFile at found
  rw [bind_eq_ok] at found
  obtain ⟨place, fs₁, finds, found⟩ := found
  cases finds
  cases here : (List.range maxOpenFile).find? fun index =>
      decide ((fs.openFiles index).ino = fid) with
  | none =>
    rw [here] at found
    cases found
  | some index =>
    rw [here] at found
    dsimp only at found
    rw [get_bind_apply] at found
    unfold pagePtr at found
    split at found
    · cases found
    · cases found
      exact ⟨rfl, index, rfl, rfl⟩

/-- The file is open. -/
theorem fileWith_open {slot : Nat} (inside : slot < indexTableSize) :
    openPage 1 (fileWith slot) = .ok 6 (fileWith slot) := by
  obtain ⟨opened, ino, page, -⟩ := fileWith_facts slot inside
  generalize fileWith slot = fs at *
  obtain ⟨found, fs', run⟩ := eq_ok_of_returned opened
  obtain ⟨same, index, first, place⟩ := openPage_eq_ok run
  have zero : (List.range maxOpenFile).find? (fun index =>
      decide ((fs.openFiles index).ino = 1)) = some 0 := by
    have split : List.range maxOpenFile = 0 :: List.range' 1 7 := by decide
    rw [split, List.find?_cons_of_pos (by simp [ino])]
  rw [zero, Option.some.injEq] at first
  rw [run, same, place, ← first, page]

/-- The page of a request for one block. -/
theorem stampPages_one {blk : Nat} {pages : List Nat} (first : fs.pages.freePtr = 7)
    (run : stampPages fid blk (blk + 1) fs = .ok pages fs') :
    pages = [7] ∧ (∀ page, page ≠ 7 → fs'.pages.page page = fs.pages.page page) ∧
      fs'.segments = fs.segments ∧ fs'.nat = fs.nat ∧ fs'.opSegs = fs.opSegs := by
  have one : (List.range (blk + 1 - blk)).map (blk + ·) = [blk] := by
    rw [Nat.add_sub_cancel_left]
    rfl
  unfold stampPages at run
  rw [one, List.mapM_cons, bind_eq_ok] at run
  obtain ⟨page, fs₁, stamp, run⟩ := run
  cases run
  unfold stampPage at stamp
  rw [bind_eq_ok] at stamp
  obtain ⟨taken, fs₂, allocates, stamp⟩ := stamp
  obtain ⟨-, -, rfl, rfl⟩ := zoom_allocate_eq_ok.mp allocates
  cases stamp
  rw [first]
  refine ⟨rfl, fun page apart => ?_, rfl, rfl, rfl⟩
  refine (Function.update_of_ne apart _ _).trans ?_
  exact PageAllocator.take_page_of_ne (first ▸ apart)

/-- An oversized request for one block that gets past the check changes the file system. -/
theorem slips_through {blk : Nat} (range : offsetToBlock offset len = (blk, blk + 1))
    (small : blk + 1 ≤ maxFileSize) (oversized : maxFileBytes < offset + len)
    (offsetIn : offset < 2 ^ 32) (lenIn : len < 2 ^ 32) :
    fileWrite 1 offset len (fileWith (blk / indexSize)) ≠ .ok 0 (fileWith (blk / indexSize)) := by
  intro run
  have inside : blk < maxFileBlks := by
    unfold maxFileSize at small
    omega
  have slotIn : blk / indexSize < indexTableSize := by
    unfold maxFileBlks indexSize indexTableSize at *
    omega
  generalize same : fileWith (blk / indexSize) = fs at run
  have opened := same ▸ fileWith_open slotIn
  obtain ⟨-, -, -, mapped, size, cached, node, data, space, first⟩ :=
    same ▸ fileWith_facts _ slotIn
  rw [fileWrite_of_open opened range, if_neg (Nat.not_lt.mpr small), bind_eq_ok] at run
  obtain ⟨pages, fs₁, stamps, run⟩ := run
  obtain ⟨rfl, kept, segments, nat, reserve⟩ := stampPages_one first stamps
  rw [throwIf_bind_of_not (by omega), bind_eq_ok] at run
  obtain ⟨written, fs₂, writes, run⟩ := run
  have one : written = 1 := by
    refine writes_one inside ?_ (show 3 < nodeNr by decide) ?_ ?_ ?_ writes
    · rw [kept 6 (by decide)]
      exact mapped
    · rw [nat]
      exact cached
    · rw [segments]
      rintro temp (rfl | rfl)
      · exact node
      · exact data
    · unfold availableBlk
      rw [segments, reserve]
      exact space
  rw [bind_eq_ok] at run
  obtain ⟨_, fs₃, -, run⟩ := run
  have whole : ¬ blk + written < blk + 1 := by omega
  rw [if_neg (by omega), if_neg whole] at run
  rw [bind_eq_ok] at run
  obtain ⟨_, fs₄, sizes, run⟩ := run
  rw [bind_eq_ok] at run
  obtain ⟨_, fs₅, marks, run⟩ := run
  rw [pure_apply, EStateM.Result.ok.injEq] at run
  obtain ⟨reported, final⟩ := run
  -- nothing is reported only for an empty request, which then sets the size
  have empty : len = 0 := by
    unfold dword at reported
    omega
  have whole : dword (offset + len) = offset := by
    rw [empty, Nat.add_zero]
    exact Nat.mod_eq_of_lt offsetIn
  have grown : offset ≤ (fs.pages.page 6).data.node.inode.fileSize := by
    rw [← final]
    cases marks
    cases sizes
    rw [whole]
    dsimp only
    rw [PageAllocator.update_page_self, PageAllocator.update_page_self]
    exact Nat.le_max_right _ _
  unfold offsetToBlock at range
  rw [Prod.mk.injEq, whole] at range
  unfold word roundUpDiv maxFileBytes maxFileSize maxFileBlks indexSize indexTableSize
    blockSize at *
  omega

/-- `FileWrite` treats a request as the limit asks, for every open file, if and only if the request
is inside the limit, its truncated end lies beyond the limit or its truncated range is empty. -/
theorem fileWrite_meetsLimit_iff (offsetIn : offset < 2 ^ 32) (lenIn : len < 2 ^ 32) :
    (∀ fs fid ipage, openPage fid fs = .ok ipage fs → MeetsLimit fs fid ipage offset len) ↔
      LimitApplies offset len := by
  refine ⟨fun meets => ?_, fun applies _ _ _ opened => applies.meets opened⟩
  by_contra slips
  unfold LimitApplies at slips
  obtain ⟨⟨startBlk, endBlk⟩, range⟩ : ∃ range, offsetToBlock offset len = range := ⟨_, rfl⟩
  rw [range] at slips
  push Not at slips
  obtain ⟨oversized, small, nonempty⟩ := slips
  dsimp only at small nonempty
  rcases Nat.lt_trichotomy endBlk startBlk with wrapped | same | ordered
  · -- the number of pages wraps around
    have opened := fileWith_open (show 0 < indexTableSize by decide)
    have run := (meets _ _ _ opened).refuses oversized
    have none : endBlk - startBlk = 0 := by omega
    have pages : stampPages 1 startBlk endBlk = pure [] := by
      unfold stampPages
      rw [none]
      rfl
    rw [fileWrite_of_open opened range, if_neg (Nat.not_lt.mpr small), pages, pure_bind,
      throwIf_bind_of wrapped] at run
    cases run
  · exact nonempty same.symm
  · by_cases several : startBlk + 2 ≤ endBlk
    · have opened := fileWith_open (show 0 < indexTableSize by decide)
      have run := (meets _ _ _ opened).refuses oversized
      exact freePtr_of_written opened range small several run rfl
    · have one : endBlk = startBlk + 1 := by omega
      have slotIn : startBlk / indexSize < indexTableSize := by
        unfold maxFileSize maxFileBlks indexSize indexTableSize at *
        omega
      rw [one] at range small
      have run := (meets _ _ _ (fileWith_open slotIn)).refuses oversized
      exact slips_through range small oversized offsetIn lenIn run

/-- A request of one block is treated as the limit asks at any place in the file. -/
theorem fileWrite_meetsLimit_inside :
    (512 < 2 ^ 32 ∧ 512 < 2 ^ 32) ∧
      ∀ fs fid ipage, openPage fid fs = .ok ipage fs → MeetsLimit fs fid ipage 512 512 :=
  ⟨by decide, (fileWrite_meetsLimit_iff (by decide) (by decide)).mpr (.inl (by decide))⟩

/-- A request for one block at `2 ^ 25 + 512` is written to the second block of the file. -/
theorem fileWrite_wraps :
    ¬ ∀ fs fid ipage offset len, offset < 2 ^ 32 → len < 2 ^ 32 →
      openPage fid fs = .ok ipage fs → MeetsLimit fs fid ipage offset len := by
  intro meets
  have opened := fileWith_open (show 0 < indexTableSize by decide)
  have refused := (meets _ _ _ (2 ^ 25 + 512) 512 (by decide) (by decide) opened).refuses (by decide)
  have written : (match fileWrite 1 (2 ^ 25 + 512) 512 (fileWith 0) with
      | .ok reported _ => reported
      | .error _ _ => 0) = 512 := by decide +kernel
  rw [refused] at written
  cases written

end FsChecking.F2fs
