import FsChecking.F2fs.Flush

/-!
# What a power loss leaves

The tables that loading takes from an image, and the writes that leave them as they are. A write is
silent for a checkpoint slot when it misses the blocks of the slot and the current copies of the NAT
and SIT blocks, and does not put a complete header into the other slot; all writes between two
checkpoints are silent for the newest one, and so are those of the next checkpoint but its last.
-/

namespace FsChecking.F2fs

open Lib

/-- The tables that a checkpoint makes durable. The summaries are not among them, since they are
written in place; neither is the temperature of a segment, which loading changes. -/
structure Tables where
  /-- The addresses of the nodes. -/
  nat : Nat → Nat
  /-- The valid blocks of the segments. -/
  validBmp : Nat → BitVec 32
  /-- The number of valid blocks of the segments. -/
  validBlkNr : Nat → Nat
  /-- The log heads. -/
  curSegs : Nat → CursegInfo

/-- The tables agree on every node and every segment. -/
structure Tables.Agree (tables tables' : Tables) : Prop where
  /-- The node addresses. -/
  nat : ∀ nid < nodeNr, tables.nat nid = tables'.nat nid
  /-- The valid blocks. -/
  validBmp : ∀ seg < mainSegNr, tables.validBmp seg = tables'.validBmp seg
  /-- Their numbers. -/
  validBlkNr : ∀ seg < mainSegNr, tables.validBlkNr seg = tables'.validBlkNr seg
  /-- The log heads. -/
  curSegs : tables.curSegs = tables'.curSegs

namespace Tables.Agree

variable {first second third : Tables}

/-- Tables agree with themselves. -/
theorem refl (tables : Tables) : tables.Agree tables :=
  ⟨fun _ _ => rfl, fun _ _ => rfl, fun _ _ => rfl, rfl⟩

/-- Agreement goes both ways. -/
theorem symm (agree : first.Agree second) : second.Agree first :=
  ⟨fun nid inside => (agree.nat nid inside).symm,
    fun seg inside => (agree.validBmp seg inside).symm,
    fun seg inside => (agree.validBlkNr seg inside).symm, agree.curSegs.symm⟩

/-- Agreement passes on. -/
theorem trans (left : first.Agree second) (right : second.Agree third) : first.Agree third :=
  ⟨fun nid inside => (left.nat nid inside).trans (right.nat nid inside),
    fun seg inside => (left.validBmp seg inside).trans (right.validBmp seg inside),
    fun seg inside => (left.validBlkNr seg inside).trans (right.validBlkNr seg inside),
    left.curSegs.trans right.curSegs⟩

end Tables.Agree

/-- The tables in memory. -/
def Fs.tables (fs : Fs) : Tables where
  nat := fs.nat.nat
  validBmp seg := (fs.segments.segments seg).validBmp
  validBlkNr seg := (fs.segments.segments seg).validBlkNr
  curSegs := fs.segments.curSegs

/-- The tables of an image under a checkpoint. -/
def storedTables (ckpt : CkptBlock) (storage : Storage.History BlockData) : Tables where
  nat := natArea.stored ckpt storage
  validBmp seg := (sitArea.stored ckpt storage seg).validBmp
  validBlkNr seg := (sitArea.stored ckpt storage seg).validBlkNr
  curSegs := ckpt.header.curSegs

/-- The part of `Mount` that loads the tables. -/
def loadTables : FsM Unit := do
  let _ ← loadCheckpoint
  loadSegments
  loadNat

/-- Linking the free segments leaves the log heads. -/
theorem SegmentManager.curSegs_buildFreeLink (manager : SegmentManager) :
    manager.buildFreeLink.curSegs = manager.curSegs := by
  have queue : ∀ (manager : SegmentManager) seg,
      (manager.freeEnQueue seg).curSegs = manager.curSegs := by
    intro manager seg
    unfold freeEnQueue
    split <;> rfl
  have link : ∀ (manager : SegmentManager) seg,
      (manager.linkSegment seg).curSegs = manager.curSegs := by
    intro manager seg
    unfold linkSegment
    dsimp only
    split
    · exact queue ..
    · rfl
  have loop : ∀ (segs : List Nat) (manager : SegmentManager),
      (segs.foldl linkSegment manager).curSegs = manager.curSegs := by
    intro segs
    induction segs with
    | nil => exact fun _ => rfl
    | cons seg rest ih => exact fun manager => (ih _).trans (link manager seg)
  exact loop _ _

/-- The tables of an image do not depend on the memory behind the SIT journal. -/
theorem storedTables_ckptOf {storage : Storage.History BlockData} {slot : Nat}
    (rest rest' : Nat → JournalEntry SegInfo)
    (fits : sitArea.journalLen.get (ckptOf storage slot rest) ≤ journalNr) :
    storedTables (ckptOf storage slot rest) storage =
      storedTables (ckptOf storage slot rest') storage := by
  unfold storedTables
  rw [sitStored_ckptOf rest rest' fits]
  rfl

/-- The segments that are loaded have the valid blocks of the SIT. -/
theorem loaded_content (manager : SegmentManager) (ckpt : CkptBlock)
    (storage : Storage.History BlockData) {seg : Nat} (inside : seg < mainSegNr) :
    ((manager.loaded ckpt storage).buildFreeLink.segments seg).validBmp =
        (sitArea.stored ckpt storage seg).validBmp ∧
      ((manager.loaded ckpt storage).buildFreeLink.segments seg).validBlkNr =
        (sitArea.stored ckpt storage seg).validBlkNr := by
  have linked : SegmentManager.SameContent _ _ :=
    SegmentManager.sameContent_buildFreeLink (manager.loaded ckpt storage) seg
  have loaded : (manager.loaded ckpt storage).segments seg =
      ((manager.segments seg).withSit (sitArea.stored ckpt storage seg)).withSsa
        (blockOf storage (ssaStartBlk + seg)).ssa := by
    unfold SegmentManager.loaded ssaOver sitOver
    dsimp only
    rw [if_pos inside, if_pos inside]
  exact ⟨(congrArg SegmentInfo.validBmp linked).trans (congrArg SegmentInfo.validBmp loaded),
    (congrArg SegmentInfo.validBlkNr linked).trans (congrArg SegmentInfo.validBlkNr loaded)⟩

/-- Loading an image that can be read brings its tables into memory. -/
theorem loadTables_spec {fs : Fs} {slot : Nat} (readable : Readable fs.storage slot)
    {pages rest : List Nat} (free : FreePages fs.pages (pages ++ rest))
    (enough : pages.length = natBlkNr) :
    ∃ m, loadTables fs = .ok ⟨⟩ m ∧
      m.tables.Agree (storedTables (imageCkpt fs.storage slot) fs.storage) := by
  let fs₁ : Fs := { fs with
    checkpoint := ckptOf fs.storage slot fs.checkpoint.sitJournals
    healthCkpt := healthOf fs.storage
    curCkpt := slot }
  have loaded : loadCheckpoint fs = .ok slot fs₁ :=
    loadCheckpoint_eq_ok.mpr ⟨readable.ckpt, rfl⟩
  have readable₁ : SegmentsReadable fs₁.checkpoint fs₁.storage :=
    segmentsReadable_ckptOf _ readable.segments
  obtain ⟨page, others, rfl⟩ : ∃ page others, pages = page :: others := by
    cases pages with
    | nil => cases enough
    | cons page others => exact ⟨page, others, rfl⟩
  have free₁ : FreePages fs₁.pages (page :: (others ++ rest)) := free
  obtain ⟨fs₂, segments, free₂, -⟩ := loadSegments_runs free₁ readable₁
  obtain ⟨-, frame₂, nat₂, segments₂⟩ := loadSegments_ok segments
  have readable₂ : NatReadable fs₂.checkpoint fs₂.storage := by
    rw [frame₂.checkpoint, frame₂.storage]
    exact ⟨readable.nat.nat, readable.nat.journal.length, readable.nat.journal.keys⟩
  have free₃ : FreePages fs₂.pages ((page :: others) ++ rest) := free₂
  obtain ⟨m, nat, -⟩ := loadNat_runs free₃ enough readable₂
  obtain ⟨-, -, segments₃, nat₃⟩ := loadNat_ok nat
  rw [frame₂.checkpoint, frame₂.storage] at nat₃
  refine ⟨m, bind_eq_ok.mpr ⟨_, _, loaded, bind_eq_ok.mpr ⟨_, _, segments, nat⟩⟩, ?_⟩
  have tables : storedTables fs₁.checkpoint fs.storage =
      storedTables (imageCkpt fs.storage slot) fs.storage :=
    storedTables_ckptOf _ _ readable₁.journal.length
  rw [← tables]
  have content : ∀ seg < mainSegNr, (m.segments.segments seg).validBmp =
      (sitArea.stored fs₁.checkpoint fs.storage seg).validBmp ∧
      (m.segments.segments seg).validBlkNr =
      (sitArea.stored fs₁.checkpoint fs.storage seg).validBlkNr := by
    intro seg inside
    rw [segments₃, segments₂]
    exact loaded_content fs₁.segments fs₁.checkpoint fs₁.storage inside
  refine ⟨fun nid inside => ?_, fun seg inside => (content seg inside).1,
    fun seg inside => (content seg inside).2, ?_⟩
  · show m.nat.nat nid = _
    rw [nat₃]
    show natOver _ _ nid = _
    rw [natOver, if_pos inside]
    rfl
  · show m.segments.curSegs = _
    rw [segments₃, segments₂, SegmentManager.curSegs_buildFreeLink]
    rfl

/-! ## The choice of a slot -/

/-- The version in a slot of an image, 0 when its header is not complete. -/
def slotVersion (storage : Storage.History BlockData) (slot : Nat) : Nat :=
  (ckptVersion (blockOf storage (slotBase slot))).getD 0

/-- The first slot is chosen when its version is greater. -/
theorem chooseCkpt_eq_zero {first second : Nat} :
    chooseCkpt first second = .ok 0 ↔ second < first := by
  unfold chooseCkpt
  split
  · split
    · simp
      omega
    · split
      · simp
        omega
      · simp
        omega
  · split
    · simp
      omega
    · split <;> simp <;> omega

/-- The second slot is chosen when its version is greater. -/
theorem chooseCkpt_eq_one {first second : Nat} :
    chooseCkpt first second = .ok 1 ↔ first < second := by
  unfold chooseCkpt
  split
  · split
    · simp
      omega
    · split
      · simp
        omega
      · simp
        omega
  · split
    · simp
      omega
    · split <;> simp <;> omega

/-- The slot with the greater version is chosen. -/
theorem chosenSlot_eq_ok {storage : Storage.History BlockData} {slot : Nat} :
    chosenSlot storage = .ok slot ↔
      (slot = 0 ∨ slot = 1) ∧ slotVersion storage (slot ^^^ 1) < slotVersion storage slot := by
  have choice : chosenSlot storage = chooseCkpt (slotVersion storage 0) (slotVersion storage 1) :=
    rfl
  rw [choice]
  constructor
  · intro chosen
    refine ⟨chooseCkpt_ok chosen, ?_⟩
    cases chooseCkpt_ok chosen with
    | inl zero =>
      subst zero
      exact chooseCkpt_eq_zero.mp chosen
    | inr one =>
      subst one
      exact chooseCkpt_eq_one.mp chosen
  · rintro ⟨rfl | rfl, greater⟩
    · exact chooseCkpt_eq_zero.mpr greater
    · exact chooseCkpt_eq_one.mpr greater

/-! ## Silent writes -/

/-- A write that changes nothing that is loaded from a slot. -/
structure Silent (ckpt : CkptBlock) (slot : Nat) (write : Storage.Lba × BlockData) : Prop where
  /-- It misses the slot. -/
  blocks : (write.1 : Nat) < slotBase slot ∨ slotBase slot + ckptBlkNr ≤ write.1
  /-- It puts no complete header into the other slot. -/
  header : (write.1 : Nat) = slotBase (slot ^^^ 1) → ckptVersion write.2 = none
  /-- It misses the current NAT blocks. -/
  nat : ∀ blk < natBlkNr, (write.1 : Nat) ≠ natArea.block ckpt blk
  /-- It misses the current SIT blocks. -/
  sit : ∀ blk < sitBlkNr, (write.1 : Nat) ≠ sitArea.block ckpt blk

/-- What is on a storage stays on it. -/
theorem storedAt_isSome_cons {storage : Storage.History BlockData} {address : Nat}
    (near : address < totalBlockNr) (present : (storedAt storage address).isSome)
    (write : Storage.Lba × BlockData) : (storedAt (write :: storage) address).isSome := by
  rw [storedAt_cons _ _ near]
  split
  · rfl
  · exact present

/-- A write leaves the other blocks. -/
theorem blockOf_cons_of_ne {storage : Storage.History BlockData} {address : Nat}
    {write : Storage.Lba × BlockData} (near : address < totalBlockNr)
    (apart : (write.1 : Nat) ≠ address) :
    blockOf (write :: storage) address = blockOf storage address := by
  rw [blockOf, storedAt_cons _ _ near, if_neg apart]
  rfl

/-- A table depends on its current blocks. -/
theorem Area.stored_congr {ι : Type} {area : Area ι} (sized : area.Sized) {ckpt : CkptBlock}
    {storage storage' : Storage.History BlockData}
    (same : ∀ blk < area.blkNr,
      blockOf storage' (area.block ckpt blk) = blockOf storage (area.block ckpt blk))
    {key : Nat} (inside : key < area.entryNr) :
    area.stored ckpt storage' key = area.stored ckpt storage key := by
  apply replay_congr
  unfold Area.base
  rw [same _ (sized.block inside)]

section Silent

variable {storage : Storage.History BlockData} {slot : Nat} {write : Storage.Lba × BlockData}

/-- A slot and its blocks are on the storage. -/
theorem slotBase_lt (chosen : slot = 0 ∨ slot = 1) {offset : Nat} (inside : offset < ckptBlkNr) :
    slotBase slot + offset < totalBlockNr := by
  have six : offset < 6 := inside
  show 0 + slot * 6 + offset < 1088
  omega

/-- The blocks of the slot after a silent write. -/
theorem Silent.blockOf_slot {ckpt : CkptBlock} (silent : Silent ckpt slot write)
    (chosen : slot = 0 ∨ slot = 1) (storage : Storage.History BlockData) {offset : Nat}
    (inside : offset < ckptBlkNr) :
    blockOf (write :: storage) (slotBase slot + offset) =
      blockOf storage (slotBase slot + offset) := by
  apply blockOf_cons_of_ne (slotBase_lt chosen inside)
  have missed := silent.blocks
  have six : ckptBlkNr = 6 := rfl
  omega

/-- The checkpoint of the slot after a silent write. -/
theorem Silent.ckptOf {ckpt : CkptBlock} (silent : Silent ckpt slot write)
    (chosen : slot = 0 ∨ slot = 1) (rest : Nat → JournalEntry SegInfo) :
    ckptOf (write :: storage) slot rest = ckptOf storage slot rest := by
  unfold F2fs.ckptOf
  have header := silent.blockOf_slot chosen storage (show 0 < ckptBlkNr by decide)
  have natJournal := silent.blockOf_slot chosen storage (show 1 < ckptBlkNr by decide)
  rw [Nat.add_zero] at header
  rw [header, natJournal]
  congr 1
  funext index
  split
  · rename_i part
    have four : index / sitJournalPerBlk < 4 := part
    rw [Nat.add_assoc, silent.blockOf_slot chosen storage (show 2 + index / sitJournalPerBlk < 6 by omega)]
  · rfl

/-- What is loaded from a slot stays readable after a silent write, and the tables stay. -/
theorem Readable.cons (readable : Readable storage slot)
    (silent : Silent (imageCkpt storage slot) slot write) :
    imageCkpt (write :: storage) slot = imageCkpt storage slot ∧
      Readable (write :: storage) slot ∧
      (storedTables (imageCkpt storage slot) (write :: storage)).Agree
        (storedTables (imageCkpt storage slot) storage) := by
  obtain ⟨chosen, greater⟩ := chosenSlot_eq_ok.mp readable.ckpt.chosen
  have ckpt : imageCkpt (write :: storage) slot = imageCkpt storage slot :=
    silent.ckptOf chosen _
  have natNear : ∀ blk < natBlkNr,
      natArea.block (imageCkpt storage slot) blk < totalBlockNr := fun blk inside =>
    natArea_sized.copy_lt _ inside
  have sitNear : ∀ blk < sitBlkNr,
      sitArea.block (imageCkpt storage slot) blk < totalBlockNr := fun blk inside =>
    sitArea_sized.copy_lt _ inside
  have natBlocks : ∀ blk < natBlkNr, blockOf (write :: storage)
      (natArea.block (imageCkpt storage slot) blk) =
      blockOf storage (natArea.block (imageCkpt storage slot) blk) := fun blk inside =>
    blockOf_cons_of_ne (natNear blk inside) (silent.nat blk inside)
  have sitBlocks : ∀ blk < sitBlkNr, blockOf (write :: storage)
      (sitArea.block (imageCkpt storage slot) blk) =
      blockOf storage (sitArea.block (imageCkpt storage slot) blk) := fun blk inside =>
    blockOf_cons_of_ne (sitNear blk inside) (silent.sit blk inside)
  refine ⟨ckpt, ⟨⟨?_, ?_, ?_, ?_, ?_⟩, ?_, ?_⟩, ?_⟩
  · exact storedAt_isSome_cons (by decide) readable.ckpt.first write
  · exact storedAt_isSome_cons (by decide) readable.ckpt.second write
  · refine chosenSlot_eq_ok.mpr ⟨chosen, ?_⟩
    have own : slotVersion (write :: storage) slot = slotVersion storage slot := by
      have header := silent.blockOf_slot chosen storage (show 0 < ckptBlkNr by decide)
      exact congrArg (fun data => (ckptVersion data).getD 0) header
    rw [own]
    have otherNear : slotBase (slot ^^^ 1) < totalBlockNr := by
      rcases chosen with rfl | rfl <;> decide
    by_cases there : (write.1 : Nat) = slotBase (slot ^^^ 1)
    · have version : slotVersion (write :: storage) (slot ^^^ 1) = 0 := by
        unfold slotVersion
        rw [blockOf, storedAt_cons _ _ otherNear, if_pos there, Option.getD_some,
          silent.header there]
        rfl
      omega
    · have version : slotVersion (write :: storage) (slot ^^^ 1) =
          slotVersion storage (slot ^^^ 1) := by
        unfold slotVersion
        rw [blockOf_cons_of_ne otherNear there]
      omega
  · exact storedAt_isSome_cons (slotBase_lt chosen (by decide)) readable.ckpt.natJournal write
  · intro part inside
    have four : part < 4 := inside
    refine storedAt_isSome_cons ?_ (readable.ckpt.sitJournal part inside) write
    rw [Nat.add_assoc]
    exact slotBase_lt chosen (show 2 + part < 6 by omega)
  · rw [ckpt]
    refine ⟨fun blk inside => ?_, readable.segments.journal, fun seg inside => ?_⟩
    · exact storedAt_isSome_cons (sitNear blk inside) (readable.segments.sit blk inside) write
    · refine storedAt_isSome_cons ?_ (readable.segments.ssa seg inside) write
      have sixty : seg < 60 := inside
      show 40 + seg < 1088
      omega
  · rw [ckpt]
    refine ⟨fun blk inside => ?_, readable.nat.journal⟩
    exact storedAt_isSome_cons (natNear blk inside) (readable.nat.nat blk inside) write
  · refine ⟨fun nid inside => ?_, fun seg inside => ?_, fun seg inside => ?_, rfl⟩
    · exact Area.stored_congr natArea_sized natBlocks inside
    · exact congrArg SegInfo.validBmp (Area.stored_congr sitArea_sized sitBlocks inside)
    · exact congrArg SegInfo.validBlkNr (Area.stored_congr sitArea_sized sitBlocks inside)

/-- The checkpoint of the slot after silent writes. -/
theorem ckptOf_append (chosen : slot = 0 ∨ slot = 1) {ckpt : CkptBlock}
    {rest : Nat → JournalEntry SegInfo} {writes : Storage.History BlockData}
    (silent : ∀ write ∈ writes, Silent ckpt slot write) :
    ckptOf (writes ++ storage) slot rest = ckptOf storage slot rest := by
  induction writes with
  | nil => rfl
  | cons write others ih =>
    rw [List.cons_append, (silent write List.mem_cons_self).ckptOf chosen]
    exact ih fun other member => silent other (List.mem_cons_of_mem _ member)

/-- Silent writes, one after another. -/
theorem Readable.append (readable : Readable storage slot)
    {writes : Storage.History BlockData}
    (silent : ∀ write ∈ writes, Silent (imageCkpt storage slot) slot write) :
    imageCkpt (writes ++ storage) slot = imageCkpt storage slot ∧
      Readable (writes ++ storage) slot ∧
      (storedTables (imageCkpt storage slot) (writes ++ storage)).Agree
        (storedTables (imageCkpt storage slot) storage) := by
  induction writes with
  | nil => exact ⟨rfl, readable, .refl _⟩
  | cons write rest ih =>
    obtain ⟨ckpt, readable', tables⟩ :=
      ih fun other member => silent other (List.mem_cons_of_mem _ member)
    have last : Silent (imageCkpt (rest ++ storage) slot) slot write :=
      ckpt.symm ▸ silent write List.mem_cons_self
    obtain ⟨ckpt', readable'', tables'⟩ := readable'.cons last
    rw [ckpt] at ckpt' tables'
    exact ⟨ckpt', readable'', tables'.trans tables⟩

end Silent


end FsChecking.F2fs
