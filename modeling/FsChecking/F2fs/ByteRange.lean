import FsChecking.F2fs.Truncate
import FsChecking.F2fs.WriteLimit

/-!
# Byte ranges and the size of a file

`FileTruncate` and `FileRead` clip a range to the size of the file with an unsigned subtraction and
round it to 16-bit block numbers. Truncation rounds outwards, so it also removes the blocks that the
range covers only in part. The ranges on which both respect the size are characterised on the clipped
and rounded numbers and the block map.
-/

namespace FsChecking.F2fs

open Lib FileMap

variable {fs fs' : Fs} {fid ipage offset len blk : Nat} {map map' : FileMap}
  {owner : Nat → Nat × Option Nat} {free : List Nat}

/-! ## What a file holds -/

/-- The size of the file whose inode is in a page. -/
def Fs.fileSize (fs : Fs) (ipage : Nat) : Nat := (fs.pages.page ipage).data.node.inode.fileSize

/-- The address of a block of a file. -/
def Fs.fileBlock (fs : Fs) (ipage blk : Nat) : Option Nat :=
  let nid := fs.slotNid ipage (blk / indexSize)
  if nid = invalidBlk then none
  else ((fs.content nid).map fun node => node.index.index (blk % indexSize)).filter
    fun address => address ≠ invalidBlk

/-- What a block of a file reads as; `none` for a hole. -/
def Fs.stampAt (fs : Fs) (ipage blk : Nat) : Option (Option FileData) :=
  (fs.fileBlock ipage blk).map fun address =>
    (storedAt fs.storage (phyblkToLba address)).map BlockData.file

/-- The blocks that a range is clipped and rounded to. -/
def clippedRange (size offset len : Nat) : Nat × Nat :=
  offsetToBlock offset
    (if dword (offset + len) > size then dword (size + (2 ^ 32 - dword offset)) else len)

/-- `page_nr`, the number of entries that `FileRead` reports. -/
def pageNr (range : Nat × Nat) : Nat := dword (range.2 + (2 ^ 32 - range.1))

/-- `FileTruncate` and `FileRead` respect the size of an open file on a range. -/
structure RespectsSize (fs : Fs) (fid ipage offset len : Nat) : Prop where
  /-- Truncation does not enlarge the file, keeps all of it when the range is empty or starts behind
  the end, and otherwise keeps the blocks with a byte outside of the range. -/
  truncates : ∃ fs', fileTruncate fid offset len fs = .ok ⟨⟩ fs' ∧
    fs'.fileSize ipage ≤ fs.fileSize ipage ∧
    ((len = 0 ∨ fs.fileSize ipage ≤ offset) → fs'.fileSize ipage = fs.fileSize ipage ∧
      ∀ blk < maxFileBlks, fs'.stampAt ipage blk = fs.stampAt ipage blk) ∧
    ∀ blk < maxFileBlks, (∃ pos < fs.fileSize ipage, pos / blockSize = blk ∧
        ¬ (offset ≤ pos ∧ pos < offset + len)) →
      fs'.stampAt ipage blk = fs.stampAt ipage blk
  /-- Reading touches only blocks of the file. -/
  touches : ∀ blk, (clippedRange (fs.fileSize ipage) offset len).1 ≤ blk →
    blk < (clippedRange (fs.fileSize ipage) offset len).2 →
    blk < roundUpDiv (fs.fileSize ipage) blockSize
  /-- It reports at most one entry for each of them, and none for a range behind the end. -/
  entries : pageNr (clippedRange (fs.fileSize ipage) offset len) ≤
      roundUpDiv (fs.fileSize ipage) blockSize ∧
    (fs.fileSize ipage ≤ offset → pageNr (clippedRange (fs.fileSize ipage) offset len) = 0)
  /-- They fit into the array of pages. -/
  array : pageNr (clippedRange (fs.fileSize ipage) offset len) ≤ maxFileBlks
  /-- These are the entries that are returned. -/
  returns : ∀ stamps fs', fileRead fid offset len fs = .ok stamps fs' →
    stamps.length = pageNr (clippedRange (fs.fileSize ipage) offset len)

/-- The ranges on which the clipped and rounded numbers are what they stand for. -/
structure RangeFits (map : FileMap) (size offset len : Nat) : Prop where
  /-- The first block is not behind the last one. -/
  ordered : (clippedRange size offset len).1 ≤ (clippedRange size offset len).2
  /-- The range is not larger than a file. -/
  few : (clippedRange size offset len).2 ≤ (clippedRange size offset len).1 + maxFileBlks
  /-- A range that starts behind the end of the file has no block. -/
  past : size ≤ offset → (clippedRange size offset len).1 = (clippedRange size offset len).2
  /-- A range that starts behind the end of the file does not reach its end. -/
  shrinks : size < offset → dword (offset + len) < size
  /-- The loop of `FileTruncateInternal` finishes. -/
  finishes : map.Finishes (clippedRange size offset len).1 (clippedRange size offset len).2
  /-- Every mapped block that is reached lies in the range, as far as the file goes. -/
  whole : ∀ blk, (clippedRange size offset len).1 ≤ blk → blk < (clippedRange size offset len).2 →
    map.Reaches (clippedRange size offset len).1 blk → map.block blk ≠ none →
    len ≠ 0 ∧ ∀ pos < size, pos / blockSize = blk → offset ≤ pos ∧ pos < offset + len

/-! ## Numbers -/

/-- The blocks of a clipped range. -/
theorem clippedRange_eq {size : Nat} (offsetIn : offset < 2 ^ 32) (sizeIn : size < 2 ^ 32) :
    clippedRange size offset len = (word (offset / blockSize),
      word (roundUpDiv (min (dword (offset + len)) size) blockSize)) := by
  unfold clippedRange offsetToBlock
  have same : dword (offset + if dword (offset + len) > size then
      dword (size + (2 ^ 32 - dword offset)) else len) = min (dword (offset + len)) size := by
    unfold dword
    split <;> omega
  rw [same]

/-- The end of a clipped range is not behind the end of the file. -/
theorem clippedRange_le (len : Nat) {size : Nat} (offsetIn : offset < 2 ^ 32) (sizeIn : size < 2 ^ 32) :
    (clippedRange size offset len).1 < 2 ^ 16 ∧ (clippedRange size offset len).2 < 2 ^ 16 ∧
      (clippedRange size offset len).2 ≤ roundUpDiv size blockSize := by
  rw [clippedRange_eq offsetIn sizeIn]
  refine ⟨Nat.mod_lt _ (by decide), Nat.mod_lt _ (by decide), ?_⟩
  refine (Nat.mod_le _ _).trans ?_
  unfold roundUpDiv blockSize
  omega

/-- The number of entries of a range. -/
theorem pageNr_eq {range : Nat × Nat} (ordered : range.1 ≤ range.2) (small : range.2 < 2 ^ 16) :
    pageNr range = range.2 - range.1 := by
  unfold pageNr dword
  omega

/-- A range whose ends are in the wrong order has too many entries. -/
theorem ordered_of_pageNr {range : Nat × Nat} (small : range.1 < 2 ^ 16)
    (few : pageNr range ≤ maxFileBlks) : range.1 ≤ range.2 := by
  unfold pageNr dword at few
  unfold maxFileBlks indexSize indexTableSize at few
  omega

/-! ## Blocks -/

/-- The blocks depend only on the slots of the inode, the NAT, the cached index nodes and the
storage. -/
theorem fileBlock_congr (slots : ∀ slot, fs'.slotNid ipage slot = fs.slotNid ipage slot)
    (nat : fs'.nat = fs.nat) (storage : fs'.storage = fs.storage)
    (index : ∀ page, (fs'.pages.page page).data.node.index = (fs.pages.page page).data.node.index)
    (blk : Nat) : fs'.fileBlock ipage blk = fs.fileBlock ipage blk := by
  have entries : ∀ nid entry, ((fs'.content nid).map fun node => node.index.index entry) =
      (fs.content nid).map fun node => node.index.index entry := by
    intro nid entry
    unfold Fs.content
    rw [nat, storage]
    split
    · rfl
    · rw [Option.map_some, Option.map_some, index]
  unfold Fs.fileBlock
  rw [slots]
  simp only [entries]

/-- The blocks of a file are those of its map. -/
theorem FileAt.fileBlock_eq (file : FileAt fs ipage map owner free) (inside : blk < maxFileBlks) :
    fs.fileBlock ipage blk = map.block blk := by
  have slotIn : blk / indexSize < indexTableSize := by
    unfold maxFileBlks indexSize indexTableSize at *
    omega
  unfold Fs.fileBlock FileMap.block
  dsimp only
  cases here : map (blk / indexSize) with
  | none =>
    rw [if_pos (file.hole _ slotIn here)]
    rfl
  | some entries =>
    have holds := file.node _ slotIn entries here
    have entryIn : blk % indexSize < indexSize := Nat.mod_lt _ (by decide)
    obtain ⟨node, content, shows⟩ := holds.shows
    rw [if_neg holds.ne_invalidBlk, content, Option.map_some, shows.index _ entryIn]
    dsimp only [Option.bind_some]
    cases mapped : entries (blk % indexSize) with
    | none => rfl
    | some address =>
      have below := (file.blocks _ slotIn entries here _ entryIn address mapped).1
      have valid : address ≠ invalidBlk := by
        rintro rfl
        exact absurd below (by decide)
      rw [Option.getD_some, Option.filter_some, if_pos (decide_eq_true valid)]

/-! ## The storage -/

/-- A program leaves the storage as it is. -/
def SameStorage (before after : Fs) : Prop := after.storage = before.storage

instance : IsPreorder Fs SameStorage where
  refl _ := rfl
  trans _ _ _ left right := right.trans left

/-- Reading the data of a page. -/
theorem getData_sameStorage (page : Nat) : Moves SameStorage (getData page) :=
  Moves.bind Moves.get fun _ => Moves.pure _

/-- Following a page pointer. -/
theorem pagePtr_sameStorage (page : Nat) : Moves SameStorage (pagePtr page) := by
  unfold pagePtr
  split
  · exact Moves.throw _
  · exact Moves.pure _

/-- Changing a page. -/
theorem modifyPage_sameStorage (page : Nat) (change : PageInfo → PageInfo) :
    Moves SameStorage (modifyPage page change) := Moves.change fun _ => rfl

/-- Reading a block into a page. -/
theorem readInto_sameStorage (lba page : Nat) : Moves SameStorage (readInto lba page) := by
  refine Moves.bind ?_ fun _ => modifyPage_sameStorage _ _
  unfold blockRead
  split
  · refine Moves.bind Moves.get fun fs => ?_
    split
    · exact Moves.throw _
    · exact Moves.pure _
  · exact Moves.throw _

/-- `ReadNode` leaves the storage. -/
theorem readNode_sameStorage (nid : Nat) : Moves SameStorage (readNode nid) := by
  refine Moves.bind (Moves.throwIf _ _) fun _ => Moves.bind Moves.get fun fs => ?_
  dsimp only
  split
  · exact Moves.bind (pagePtr_sameStorage _) fun page =>
      Moves.bind (modifyPage_sameStorage _ _) fun _ => Moves.pure _
  · refine Moves.bind (Moves.zoom fun _ _ => rfl) fun blk => ?_
    refine Moves.bind (Moves.throwIf _ _) fun _ => ?_
    refine Moves.bind (Moves.zoom fun _ _ => rfl) fun page => ?_
    refine Moves.bind (readInto_sameStorage _ _) fun _ => ?_
    refine Moves.bind (modifyPage_sameStorage _ _) fun _ => ?_
    refine Moves.bind (Moves.change fun _ => rfl) fun _ => ?_
    refine Moves.bind (getData_sameStorage _) fun data => ?_
    refine Moves.bind (Moves.throwIf _ _) fun _ => ?_
    refine Moves.bind (Moves.doIf fun _ => modifyPage_sameStorage _ _) fun _ => ?_
    exact Moves.bind (modifyPage_sameStorage _ _) fun _ => Moves.pure _

/-- `put_node` leaves the storage. -/
theorem putNode_sameStorage (nid : Nat) : Moves SameStorage (putNode nid) := by
  refine Moves.bind (Moves.throwIf _ _) fun _ => Moves.bind Moves.get fun fs => ?_
  refine Moves.bind (Moves.doIf fun _ => ?_) fun _ => Moves.bind Moves.get fun fs => ?_
  · exact Moves.bind (Moves.zoom fun _ _ => rfl) fun _ => Moves.pure _
  · refine Moves.bind (Moves.doIf fun _ => ?_) fun _ => Moves.zoom fun _ _ => rfl
    refine Moves.bind (Moves.throwIf _ _) fun _ => ?_
    exact Moves.bind (Moves.zoom fun _ _ => rfl) fun _ => Moves.change fun _ => rfl

/-- Positioning a path leaves the storage. -/
theorem positionPath_sameStorage (path : IndexPath) (blk : Nat) :
    Moves SameStorage (positionPath path blk) := by
  unfold positionPath
  split
  · exact Moves.pure _
  · have indexes : Moves SameStorage (offsetToIndex path blk false) := by
      refine Moves.bind (Moves.throwIf _ _) fun _ => Moves.bind (getData_sameStorage _) fun data => ?_
      dsimp only
      split
      · have nothing : newIndexNode path.inode (word blk / indexSize) false = pure (some none) := by
          unfold newIndexNode
          exact if_pos rfl
        rw [nothing]
        exact Moves.bind (Moves.pure _) fun found => by cases found <;> exact Moves.pure _
      · refine Moves.bind (readNode_sameStorage _) fun page => ?_
        exact Moves.bind (Moves.pure _) fun found => by cases found <;> exact Moves.pure _
    refine Moves.bind indexes fun found => ?_
    cases found with
    | none => exact Moves.throw _
    | some path => exact Moves.pure _

/-- Unmapping an entry leaves the storage. -/
theorem truncateEntry_sameStorage (ipage diPage : Nat) (path : IndexPath) :
    Moves SameStorage (truncateEntry ipage diPage path) := by
  refine Moves.bind (getData_sameStorage _) fun data => ?_
  refine Moves.bind (Moves.doIf fun _ => ?_) fun _ => ?_
  · refine Moves.bind (Moves.zoom fun _ _ => rfl) fun _ => ?_
    refine Moves.bind (modifyPage_sameStorage _ _) fun _ => ?_
    refine Moves.bind (modifyPage_sameStorage _ _) fun _ => ?_
    exact Moves.bind (modifyPage_sameStorage _ _) fun _ => modifyPage_sameStorage _ _
  · refine Moves.bind (getData_sameStorage _) fun data => Moves.doIf fun _ => ?_
    refine Moves.bind (getData_sameStorage _) fun data => ?_
    refine Moves.bind (Moves.throwIf _ _) fun _ => ?_
    refine Moves.bind (Moves.change fun _ => rfl) fun _ => ?_
    refine Moves.bind (Moves.zoom fun _ _ => rfl) fun _ => ?_
    exact Moves.bind (putNode_sameStorage _) fun _ => modifyPage_sameStorage _ _

/-- `FileTruncateInternal` leaves the storage. -/
theorem fileTruncateInternal_sameStorage (first last : Nat) :
    Moves SameStorage (fileTruncateInternal ipage first last) := by
  unfold fileTruncateInternal
  generalize last - first = count
  generalize IndexPath.start ipage = path
  induction count generalizing path first with
  | zero => exact Moves.pure _
  | succ count ih =>
    unfold truncateBlocks
    refine Moves.bind (positionPath_sameStorage _ _) fun path => ?_
    split
    · exact ih _ _
    · exact Moves.bind (truncateEntry_sameStorage _ _ _) fun _ => ih _ _

/-! ## Truncation -/

/-- A file system with another size of a file. -/
def Fs.resized (fs : Fs) (ipage size : Nat) : Fs :=
  { fs with
    pages := (fs.pages.update ipage fun info =>
      { info with data := { info.data with node := { info.data.node with
        inode := { info.data.node.inode with fileSize := size } } } }).update ipage fun info =>
      { info with dirty := true } }

/-- Another size leaves every page but for the size in the inode. -/
theorem resized_page (fs : Fs) (ipage size page : Nat) :
    ((fs.resized ipage size).pages.page page).data.node.index = (fs.pages.page page).data.node.index ∧
      ((fs.resized ipage size).pages.page page).data.node.inode.index =
        (fs.pages.page page).data.node.inode.index := by
  unfold Fs.resized
  dsimp only
  by_cases same : page = ipage
  · rw [same, PageAllocator.update_page_self, PageAllocator.update_page_self]
    exact ⟨rfl, rfl⟩
  · rw [PageAllocator.update_page_of_ne same, PageAllocator.update_page_of_ne same]
    exact ⟨rfl, rfl⟩

/-- The new size. -/
theorem resized_fileSize (fs : Fs) (ipage size : Nat) : (fs.resized ipage size).fileSize ipage = size := by
  unfold Fs.resized Fs.fileSize
  dsimp only
  rw [PageAllocator.update_page_self, PageAllocator.update_page_self]

/-- The blocks stay. -/
theorem resized_stampAt (fs : Fs) (ipage size blk : Nat) :
    (fs.resized ipage size).stampAt ipage blk = fs.stampAt ipage blk := by
  have blocks : (fs.resized ipage size).fileBlock ipage blk = fs.fileBlock ipage blk :=
    fileBlock_congr (fun slot => congrFun (resized_page fs ipage size ipage).2 slot) rfl rfl
      (fun page => (resized_page fs ipage size page).1) blk
  unfold Fs.stampAt
  rw [blocks]
  rfl

/-- `FileTruncate` behind the look-up of the open file. -/
theorem fileTruncate_of_open (opened : openPage fid fs = .ok ipage fs) {startBlk endBlk : Nat}
    (range : clippedRange (fs.fileSize ipage) offset len = (startBlk, endBlk)) :
    fileTruncate fid offset len fs = (do
      fileTruncateInternal ipage startBlk endBlk
      doIf (min (dword (offset + len)) (fs.fileSize ipage) =
          (← getData ipage).node.inode.fileSize) do
        modifyInode ipage fun inode => { inode with fileSize := offset }
        setPageDirty ipage true : FsM Unit) fs := by
  unfold fileTruncate
  rw [bind_apply, opened]
  dsimp only
  rw [getData_bind_apply]
  have same : offsetToBlock offset (if dword (offset + len) >
      (fs.pages.page ipage).data.node.inode.fileSize then
        dword (min (dword (offset + len)) (fs.pages.page ipage).data.node.inode.fileSize +
          (2 ^ 32 - dword offset)) else len) = (startBlk, endBlk) := by
    rw [← range]
    unfold clippedRange Fs.fileSize
    split
    · rename_i beyond
      rw [min_eq_right (le_of_lt beyond)]
    · rfl
  rw [same]
  rfl

/-- What `FileTruncate` does to a file. -/
theorem FileAt.fileTruncate (file : FileAt fs ipage map owner free)
    (opened : openPage fid fs = .ok ipage fs) {first last : Nat}
    (range : clippedRange (fs.fileSize ipage) offset len = (first, last)) (small : last < 2 ^ 16) :
    (FileMap.tableWalk (last - first) .unset map first = none →
      ∀ fs', F2fs.fileTruncate fid offset len fs ≠ .ok ⟨⟩ fs') ∧
    ∀ map', FileMap.tableWalk (last - first) .unset map first = some map' →
      ∃ fs', F2fs.fileTruncate fid offset len fs = .ok ⟨⟩ fs' ∧
        fs'.fileSize ipage = (if fs.fileSize ipage ≤ dword (offset + len) then offset
          else fs.fileSize ipage) ∧
        ∀ blk < maxFileBlks, fs'.stampAt ipage blk = (map'.block blk).map fun address =>
          (storedAt fs.storage (phyblkToLba address)).map BlockData.file := by
  obtain ⟨fails, walks⟩ := file.fileTruncateTable first (le_of_lt small)
  rw [fileTruncate_of_open opened range]
  refine ⟨fun walked fs' done => ?_, fun map' walked => ?_⟩
  · obtain ⟨_, fs₁, truncates, -⟩ := bind_eq_ok.mp done
    exact fails walked fs₁ truncates
  · obtain ⟨fs₁, free', truncates, file', effect⟩ := walks map' walked
    have storage : fs₁.storage = fs.storage := by
      have same := @fileTruncateInternal_sameStorage ipage first last fs
      rwa [truncates] at same
    have stamps : ∀ blk < maxFileBlks, fs₁.stampAt ipage blk = (map'.block blk).map fun address =>
        (storedAt fs.storage (phyblkToLba address)).map BlockData.file := by
      intro blk inside
      unfold Fs.stampAt
      rw [file'.fileBlock_eq inside, storage]
    have size : fs₁.fileSize ipage = fs.fileSize ipage := by
      obtain ⟨_, _, node⟩ := effect.inode
      unfold Fs.fileSize
      rw [node]
    rw [bind_apply, truncates]
    dsimp only
    rw [getData_bind_apply]
    have whole : (fs₁.pages.page ipage).data.node.inode.fileSize = fs.fileSize ipage := size
    rw [whole, doIf]
    by_cases reaches : fs.fileSize ipage ≤ dword (offset + len)
    · rw [if_pos (min_eq_right reaches), if_pos reaches]
      refine ⟨fs₁.resized ipage offset, rfl, resized_fileSize fs₁ ipage offset, fun blk inside => ?_⟩
      rw [resized_stampAt, stamps blk inside]
    · have short : ¬ min (dword (offset + len)) (fs.fileSize ipage) = fs.fileSize ipage := by
        rw [min_eq_left (by omega)]
        omega
      rw [if_neg short, if_neg reaches]
      exact ⟨fs₁, rfl, size, stamps⟩

/-! ## Reading -/

/-- The loop of `FileReadInternal` has one entry for each block. -/
theorem readBlocks_length {count : Nat} {path : IndexPath} {pages : List (Option Nat)}
    (run : readBlocks count path blk fs = .ok pages fs') : pages.length = count := by
  induction count generalizing path blk fs pages with
  | zero =>
    cases run
    rfl
  | succ count ih =>
    unfold readBlocks at run
    obtain ⟨path', fs₁, -, run⟩ := bind_eq_ok.mp run
    have rest : ∀ {path : IndexPath} {page : Option Nat} {fs : Fs},
        (do return page :: (← readBlocks count path (blk + 1)) : FsM (List (Option Nat))) fs =
          .ok pages fs' → pages.length = count + 1 := by
      intro path page fs run
      obtain ⟨others, fs₂, reads, run⟩ := bind_eq_ok.mp run
      cases run
      rw [List.length_cons, ih reads]
    cases node : path'.node with
    | none =>
      rw [node] at run
      exact rest run
    | some diPage =>
      rw [node] at run
      dsimp only at run
      rw [getData_bind_apply] at run
      split at run
      · exact rest run
      · obtain ⟨page, fs₂, -, run⟩ := bind_eq_ok.mp run
        obtain ⟨_, fs₃, -, run⟩ := bind_eq_ok.mp run
        obtain ⟨_, fs₄, -, run⟩ := bind_eq_ok.mp run
        exact rest run

/-- A loop that collects values collects one for each item. -/
theorem mapM_length {α β : Type} {items : List α} {body : α → FsM β} {values : List β}
    (run : items.mapM body fs = .ok values fs') : values.length = items.length := by
  induction items generalizing fs values with
  | nil =>
    rw [List.mapM_nil] at run
    cases run
    rfl
  | cons item rest ih =>
    rw [List.mapM_cons] at run
    obtain ⟨value, fs₁, -, run⟩ := bind_eq_ok.mp run
    obtain ⟨others, fs₂, collects, run⟩ := bind_eq_ok.mp run
    cases run
    rw [List.length_cons, List.length_cons, ih collects]

/-- `FileRead` behind the look-up of the open file. -/
theorem fileRead_of_open (opened : openPage fid fs = .ok ipage fs) {startBlk endBlk : Nat}
    (range : clippedRange (fs.fileSize ipage) offset len = (startBlk, endBlk)) :
    fileRead fid offset len fs = (do
      throwIf (endBlk < startBlk ∨ endBlk - startBlk > maxFileBlks) .undefined
      let pages ← fileReadInternal ipage startBlk endBlk
      pages.mapM takeStamp : FsM (List FileData)) fs := by
  unfold fileRead
  rw [bind_apply, opened]
  dsimp only
  rw [getData_bind_apply]
  have same : offsetToBlock offset (if dword (offset + len) >
      (fs.pages.page ipage).data.node.inode.fileSize then
        dword ((fs.pages.page ipage).data.node.inode.fileSize + (2 ^ 32 - dword offset)) else len) =
      (startBlk, endBlk) := range
  rw [same]

/-- `FileRead` returns `page_nr` entries. -/
theorem fileRead_length (opened : openPage fid fs = .ok ipage fs) {stamps : List FileData}
    (offsetIn : offset < 2 ^ 32) (sizeIn : fs.fileSize ipage < 2 ^ 32)
    (run : fileRead fid offset len fs = .ok stamps fs') :
    stamps.length = pageNr (clippedRange (fs.fileSize ipage) offset len) := by
  obtain ⟨⟨first, last⟩, range⟩ : ∃ range,
    clippedRange (fs.fileSize ipage) offset len = range := ⟨_, rfl⟩
  obtain ⟨-, small, -⟩ : _ ∧ _ ∧ _ := clippedRange_le len offsetIn sizeIn
  rw [range] at small ⊢
  rw [fileRead_of_open opened range, throwIf_bind_eq_ok] at run
  obtain ⟨fine, run⟩ := run
  obtain ⟨pages, fs₁, reads, run⟩ := bind_eq_ok.mp run
  rw [mapM_length run, readBlocks_length reads, pageNr_eq (by dsimp only; omega) small]

/-! ## The ranges that fit -/

/-- A walk that finishes on a range reaches only blocks of the inode. -/
theorem FileMap.Finishes.below {first last : Nat} (finishes : map.Finishes first last)
    (above : first ≤ blk) (within : blk < last) (reached : map.Reaches first blk) :
    blk < maxFileBlks := by
  rcases finishes.inside with inside | empty | ⟨slot, slotIn, behind, gone⟩
  · omega
  · omega
  · by_contra beyond
    refine reached slot behind ?_ gone
    unfold maxFileBlks indexSize indexTableSize at *
    omega

/-- `FileTruncate` and `FileRead` respect the size of a file on a range that fits. -/
theorem FileAt.respectsSize (file : FileAt fs ipage map owner free)
    (opened : openPage fid fs = .ok ipage fs) (offsetIn : offset < 2 ^ 32)
    (sizeIn : fs.fileSize ipage < 2 ^ 32) (fits : RangeFits map (fs.fileSize ipage) offset len) :
    RespectsSize fs fid ipage offset len := by
  obtain ⟨-, small, rounded⟩ : _ ∧ _ ∧ _ :=
    clippedRange_le len offsetIn sizeIn
  have pages := pageNr_eq fits.ordered small
  refine
    { truncates := ?_
      touches := fun blk _ below => lt_of_lt_of_le below rounded
      entries := ⟨by omega, fun behind => ?_⟩
      array := ?_
      returns := fun stamps fs' => fileRead_length opened offsetIn sizeIn }
  · obtain ⟨map', walked⟩ : ∃ map', FileMap.tableWalk _ .unset map _ = some map' := by
      have finishes := fits.finishes
      rw [← Nat.add_sub_cancel' fits.ordered] at finishes
      exact Option.isSome_iff_exists.mp ((tableWalk_isSome_iff _ (.inl rfl)).mpr finishes)
    obtain ⟨fs', run, size, stamps⟩ := (file.fileTruncate opened rfl small).2 map' walked
    have kept : ∀ blk < maxFileBlks, map'.block blk = map.block blk →
        fs'.stampAt ipage blk = fs.stampAt ipage blk := by
      intro blk inside same
      rw [stamps blk inside, same, Fs.stampAt, file.fileBlock_eq inside]
    -- a block that is removed lies in the range
    have removed : ∀ blk, map'.block blk ≠ map.block blk → len ≠ 0 ∧ offset < fs.fileSize ipage ∧
        ∀ pos < fs.fileSize ipage, pos / blockSize = blk → offset ≤ pos ∧ pos < offset + len := by
      intro blk changed
      obtain ⟨gone, stays⟩ := tableWalk_removes walked blk
      have reached := not_imp_comm.mp stays changed
      have mapped : map.block blk ≠ none := by
        rw [gone reached.1 reached.2.1 reached.2.2] at changed
        exact changed.symm
      obtain ⟨some, whole⟩ := fits.whole blk reached.1 reached.2.1 reached.2.2 mapped
      refine ⟨some, Nat.lt_of_not_le fun behind => ?_, whole⟩
      have empty := fits.past behind
      omega
    refine ⟨fs', run, ?_, fun nothing => ⟨?_, fun blk inside => kept blk inside ?_⟩,
      fun blk inside outside => kept blk inside ?_⟩
    · rw [size]
      split
      · by_contra grows
        have short := fits.shrinks (by omega)
        omega
      · exact le_refl _
    · rw [size]
      split
      · rename_i reaches
        by_cases behind : fs.fileSize ipage < offset
        · have short := fits.shrinks behind
          omega
        · rcases nothing with rfl | start
          · rw [Nat.add_zero, dword, Nat.mod_eq_of_lt offsetIn] at reaches
            omega
          · omega
      · rfl
    · by_contra changed
      obtain ⟨some, inFile, -⟩ := removed blk changed
      omega
    · by_contra changed
      obtain ⟨pos, inFile, here, apart⟩ := outside
      exact apart ((removed blk changed).2.2 pos inFile here)
  · rw [pages, fits.past behind, Nat.sub_self]
  · have few := fits.few
    omega

/-- A range on which both respect the size of a file fits. -/
theorem FileAt.rangeFits (file : FileAt fs ipage map owner free)
    (opened : openPage fid fs = .ok ipage fs) (offsetIn : offset < 2 ^ 32)
    (sizeIn : fs.fileSize ipage < 2 ^ 32) (respects : RespectsSize fs fid ipage offset len) :
    RangeFits map (fs.fileSize ipage) offset len := by
  obtain ⟨smallFirst, small, -⟩ : _ ∧ _ ∧ _ :=
    clippedRange_le len offsetIn sizeIn
  have ordered := ordered_of_pageNr smallFirst respects.array
  have pages := pageNr_eq ordered small
  obtain ⟨fs', run, size, nothing, outside⟩ := respects.truncates
  obtain ⟨fails, walks⟩ := file.fileTruncate opened rfl small
  obtain ⟨map', walked⟩ : ∃ map', FileMap.tableWalk ((clippedRange (fs.fileSize ipage) offset len).2 -
      (clippedRange (fs.fileSize ipage) offset len).1) .unset map
      (clippedRange (fs.fileSize ipage) offset len).1 = some map' :=
    Option.ne_none_iff_exists'.mp fun none => fails none fs' run
  obtain ⟨fs'', run', size', stamps⟩ := walks map' walked
  rw [run] at run'
  cases run'
  have finishes : map.Finishes (clippedRange (fs.fileSize ipage) offset len).1
      (clippedRange (fs.fileSize ipage) offset len).2 := by
    have done := (tableWalk_isSome_iff _ (.inl rfl)).mp
      (Option.isSome_iff_exists.mpr ⟨map', walked⟩)
    rwa [Nat.add_sub_cancel' ordered] at done
  refine
    { ordered := ordered
      few := ?_
      past := fun behind => ?_
      shrinks := fun behind => ?_
      finishes := finishes
      whole := fun blk above below reached mapped => ?_ }
  · have array := respects.array
    omega
  · have none := respects.entries.2 behind
    omega
  · by_contra reaches
    rw [if_pos (Nat.le_of_not_lt reaches)] at size'
    omega
  · have inside := finishes.below above below reached
    have gone := (tableWalk_removes walked blk).1 above below reached
    have changed : fs'.stampAt ipage blk ≠ fs.stampAt ipage blk := by
      rw [stamps blk inside, gone, Fs.stampAt, file.fileBlock_eq inside]
      obtain ⟨address, there⟩ := Option.ne_none_iff_exists'.mp mapped
      rw [there]
      exact (Option.some_ne_none _).symm
    refine ⟨fun empty => changed ((nothing (.inl empty)).2 blk inside), fun pos inFile here => ?_⟩
    by_contra apart
    exact changed (outside blk inside ⟨pos, inFile, here, apart⟩)

/-- `FileTruncate` and `FileRead` respect the size of a file on a range if and only if the clipped
and rounded range fits. -/
theorem respectsSize_iff (file : FileAt fs ipage map owner free)
    (opened : openPage fid fs = .ok ipage fs) (sizeIn : fs.fileSize ipage < 2 ^ 32)
    (offsetIn : offset < 2 ^ 32) :
    RespectsSize fs fid ipage offset len ↔ RangeFits map (fs.fileSize ipage) offset len :=
  ⟨file.rangeFits opened offsetIn sizeIn, file.respectsSize opened offsetIn sizeIn⟩

/-- The only block of a file is truncated and read as it should. -/
theorem respectsSize_oneBlock : RespectsSize oneBlockFile 0 0 0 512 := by
  refine (respectsSize_iff fileAt_oneBlockFile rfl (by decide +kernel) (by decide)).mpr ?_
  have size : oneBlockFile.fileSize 0 = 512 := by decide +kernel
  have range : clippedRange 512 0 512 = (0, 1) := by decide
  rw [size]
  refine ⟨by rw [range]; decide, by rw [range]; decide, fun behind => by omega,
    fun behind => by omega, ?_, fun blk _ _ _ _ => ⟨by decide, fun pos inFile _ => by omega⟩⟩
  rw [range]
  refine ⟨fun blk entries above within => ?_, .inl (by decide)⟩
  dsimp only at above within
  omega

/-- Truncating a file of one block at position 1024 makes it longer. -/
theorem fileTruncate_enlarges :
    ¬ ∀ fs fid ipage offset len, offset < 2 ^ 32 → len < 2 ^ 32 →
      openPage fid fs = .ok ipage fs → RespectsSize fs fid ipage offset len := by
  intro respects
  have opened := fileWith_open (show 0 < indexTableSize by decide)
  obtain ⟨fs', run, size, -⟩ :=
    (respects _ _ _ 1024 0 (by decide) (by decide) opened).truncates
  have before : (fileWith 0).fileSize 6 = 512 := by decide +kernel
  have after : (finalState (fileTruncate 1 1024 0 (fileWith 0))).fileSize 6 = 1024 := by
    decide +kernel
  rw [run, finalState_ok] at after
  rw [before, after] at size
  omega

end FsChecking.F2fs
