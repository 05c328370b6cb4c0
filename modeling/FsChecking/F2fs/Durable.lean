import FsChecking.F2fs.Recovery

/-!
# Writing a checkpoint

A file system is synchronised with its storage when the checkpoint in memory is the one in the
current slot and every table entry that is not marked dirty is the one of that checkpoint. Writing
a checkpoint from such a state makes the tables in memory durable with its last write; until then
the storage still holds the tables of the checkpoint before.
-/

namespace FsChecking.F2fs

open Lib

/-- A file system whose tables in memory differ from its newest checkpoint only where they are
marked. -/
structure Synced (fs : Fs) : Prop where
  /-- The newest checkpoint can be loaded from the current slot. -/
  readable : Readable fs.storage fs.curCkpt
  /-- It is the checkpoint in memory. -/
  checkpoint : fs.checkpoint = ckptOf fs.storage fs.curCkpt fs.checkpoint.sitJournals
  /-- Nodes that are not marked. -/
  nat : ∀ nid < nodeNr, fs.nat.isDirty nid = false →
    fs.nat.nat nid = natArea.stored fs.checkpoint fs.storage nid
  /-- Segments that are not marked. -/
  sit : ∀ seg < mainSegNr, fs.segments.isDirty seg = false →
    (fs.segments.segments seg).validBmp =
        (sitArea.stored fs.checkpoint fs.storage seg).validBmp ∧
      (fs.segments.segments seg).validBlkNr =
        (sitArea.stored fs.checkpoint fs.storage seg).validBlkNr

/-- The tables that are durable: those of the newest checkpoint. -/
def Fs.durable (fs : Fs) : Tables := storedTables (imageCkpt fs.storage fs.curCkpt) fs.storage

/-- The blocks that `save_checkpoint` writes into a slot, newest first. -/
def slotWrites (ckpt : CkptBlock) (slot : Nat) (chosen : slot = 0 ∨ slot = 1) :
    Storage.History BlockData :=
  let place (offset : Nat) (inside : offset < ckptBlkNr) (data : BlockData) :
      Storage.Lba × BlockData := (⟨slotBase slot + offset, slotBase_lt chosen inside⟩, data)
  let opened : CkptHead := { ckpt.header with verOpen := dword (ckpt.header.verOpen + 1) }
  let part (index : Nat) : BlockData :=
    { BlockData.ones with
      blockType := .ckptSitJournal
      sitJournal := fun entry => ckpt.sitJournals (index * sitJournalPerBlk + entry) }
  [place 0 (by decide) { BlockData.ones with
      blockType := .ckptHeader
      ckptHeader := { opened with verClose := dword (ckpt.header.verClose + 1) } },
    place 5 (by decide) (part 3), place 4 (by decide) (part 2), place 3 (by decide) (part 1),
    place 2 (by decide) (part 0),
    place 1 (by decide) { BlockData.ones with
      blockType := .ckptNatJournal, natJournal := ckpt.natJournals },
    place 0 (by decide) { BlockData.ones with blockType := .ckptHeader, ckptHeader := opened }]

/-- The header of a checkpoint with the next version. -/
def CkptHead.next (header : CkptHead) : CkptHead :=
  { header with
    verOpen := dword (header.verOpen + 1), verClose := dword (header.verClose + 1) }

/-- A file system with one more block on its storage. -/
def Fs.stored (fs : Fs) (write : Storage.Lba × BlockData) : Fs :=
  { fs with storage := write :: fs.storage }

/-- Writing a checkpoint block, then going on. -/
theorem writeCkptBlock_bind_apply {α : Type} {lba place : Nat} (inside : place < totalBlockNr)
    (same : lba = place) (blockType : BlockType) (fill : CkptBlock → BlockData → BlockData)
    (next : Unit → FsM α) (fs : Fs) :
    (writeCkptBlock lba blockType fill >>= next) fs = next ⟨⟩ (fs.stored
      (⟨place, inside⟩, fill fs.checkpoint { BlockData.ones with blockType })) := by
  subst same
  unfold writeCkptBlock blockWrite
  rw [bind_assoc, get_bind_apply, dif_pos inside]
  rfl

/-- What `save_checkpoint` does. -/
theorem saveCheckpoint_apply (fs : Fs) {slot : Nat} (chosen : slot = 0 ∨ slot = 1) :
    saveCheckpoint slot fs = .ok ⟨⟩ { fs with
      checkpoint := { fs.checkpoint with header := fs.checkpoint.header.next }
      storage := slotWrites fs.checkpoint slot chosen ++ fs.storage } := by
  have near : ∀ offset, offset < ckptBlkNr → slotBase slot + offset < totalBlockNr :=
    fun _ inside => slotBase_lt chosen inside
  have parts : ∀ body : Nat → FsM Unit, (List.range sitJournalBlk).forM body =
      body 0 >>= fun _ => body 1 >>= fun _ => body 2 >>= fun _ => body 3 >>= fun _ => pure ⟨⟩ :=
    fun _ => rfl
  have head : ckptStartBlk + slot * ckptBlkNr = slotBase slot + 0 := rfl
  have nat : ckptStartBlk + slot * ckptBlkNr + 1 = slotBase slot + 1 := rfl
  have sit : ∀ part, ckptStartBlk + slot * ckptBlkNr + 2 + part = slotBase slot + (2 + part) :=
    fun part => Nat.add_assoc _ 2 part
  unfold saveCheckpoint modifyCkpt
  rw [modify_bind_apply, parts, writeCkptBlock_bind_apply (near 0 (by decide)) head,
    writeCkptBlock_bind_apply (near 1 (by decide)) nat]
  simp only [bind_assoc]
  rw [writeCkptBlock_bind_apply (near 2 (by decide)) (sit 0),
    writeCkptBlock_bind_apply (near 3 (by decide)) (sit 1),
    writeCkptBlock_bind_apply (near 4 (by decide)) (sit 2),
    writeCkptBlock_bind_apply (near 5 (by decide)) (sit 3), pure_bind, modify_bind_apply,
    ← bind_pure (writeCkptBlock _ _ _), writeCkptBlock_bind_apply (near 0 (by decide)) head]
  unfold slotWrites CkptHead.next Fs.stored
  rfl

/-! ## The state between checkpoints -/

namespace Synced

variable {fs : Fs}

/-- The node addresses can be read. -/
theorem natReadable (synced : Synced fs) : NatReadable fs.checkpoint fs.storage := by
  rw [synced.checkpoint]
  exact ⟨synced.readable.nat.nat, synced.readable.nat.journal.length,
    synced.readable.nat.journal.keys⟩

/-- The segments can be read. -/
theorem segmentsReadable (synced : Synced fs) : SegmentsReadable fs.checkpoint fs.storage := by
  rw [synced.checkpoint]
  exact segmentsReadable_ckptOf _ synced.readable.segments

/-- The durable tables are those of the checkpoint in memory. -/
theorem durable_eq (synced : Synced fs) : fs.durable = storedTables fs.checkpoint fs.storage := by
  rw [synced.checkpoint]
  exact storedTables_ckptOf _ _ synced.readable.segments.journal.length

/-- The current slot is one of the two. -/
theorem slot (synced : Synced fs) : fs.curCkpt = 0 ∨ fs.curCkpt = 1 :=
  (chosenSlot_eq_ok.mp synced.readable.ckpt.chosen).1

/-- The checkpoint in memory was completely written, and its version is that of the slot. -/
theorem version (synced : Synced fs) :
    fs.checkpoint.header.verOpen = fs.checkpoint.header.verClose ∧
      slotVersion fs.storage fs.curCkpt = fs.checkpoint.header.verClose := by
  obtain ⟨-, greater⟩ := chosenSlot_eq_ok.mp synced.readable.ckpt.chosen
  have header : fs.checkpoint.header =
      (blockOf fs.storage (slotBase fs.curCkpt)).ckptHeader := by
    rw [synced.checkpoint]
    rfl
  rw [header]
  unfold slotVersion at greater ⊢
  unfold ckptVersion at greater ⊢
  split
  · rename_i complete
    exact ⟨complete.2, rfl⟩
  · rename_i incomplete
    rw [if_neg incomplete] at greater
    exact absurd greater (Nat.not_lt_zero _)

end Synced

/-- A block that no write goes to. -/
theorem blockOf_append {writes storage : Storage.History BlockData} {address : Nat}
    (near : address < totalBlockNr) (apart : ∀ write ∈ writes, (write.1 : Nat) ≠ address) :
    blockOf (writes ++ storage) address = blockOf storage address := by
  induction writes with
  | nil => rfl
  | cons write rest ih =>
    rw [List.cons_append, blockOf_cons_of_ne near (apart write List.mem_cons_self)]
    exact ih fun other member => apart other (List.mem_cons_of_mem _ member)

/-- What is on a storage stays on it. -/
theorem storedAt_isSome_append {storage : Storage.History BlockData} {address : Nat}
    (near : address < totalBlockNr) (present : (storedAt storage address).isSome)
    (writes : Storage.History BlockData) : (storedAt (writes ++ storage) address).isSome := by
  induction writes with
  | nil => exact present
  | cons write rest ih => exact storedAt_isSome_cons near ih write

/-- The blocks of a table stay on the storage. -/
theorem Area.Mapped.append {ι : Type} {area : Area ι} (sized : area.Sized) {ckpt : CkptBlock}
    {storage : Storage.History BlockData} (mapped : area.Mapped ckpt storage)
    (writes : Storage.History BlockData) : area.Mapped ckpt (writes ++ storage) :=
  fun blk inside => storedAt_isSome_append (sized.copy_lt _ inside) (mapped blk inside) writes

/-! ## The blocks of a slot -/

section Slots

variable {ckpt : CkptBlock} {slot : Nat} (chosen : slot = 0 ∨ slot = 1)

/-- The writes go into the slot. -/
theorem slotWrites_inside {write : Storage.Lba × BlockData}
    (member : write ∈ slotWrites ckpt slot chosen) :
    slotBase slot ≤ write.1 ∧ (write.1 : Nat) < slotBase slot + ckptBlkNr := by
  have six : ckptBlkNr = 6 := rfl
  simp only [slotWrites, List.mem_cons, List.not_mem_nil, or_false] at member
  rcases member with rfl | rfl | rfl | rfl | rfl | rfl | rfl <;> dsimp only <;> omega

/-- A header whose versions differ is not complete. -/
theorem ckptVersion_of_ne {data : BlockData}
    (differ : data.ckptHeader.verOpen ≠ data.ckptHeader.verClose) : ckptVersion data = none :=
  if_neg fun complete => differ complete.2

/-- No header is complete before the last write. -/
theorem slotWrites_header {write : Storage.Lba × BlockData}
    (differ : dword (ckpt.header.verOpen + 1) ≠ ckpt.header.verClose)
    (member : write ∈ (slotWrites ckpt slot chosen).tail)
    (header : (write.1 : Nat) = slotBase slot) : ckptVersion write.2 = none := by
  simp only [slotWrites, List.tail_cons, List.mem_cons, List.not_mem_nil, or_false] at member
  rcases member with rfl | rfl | rfl | rfl | rfl | rfl
  case inr.inr.inr.inr.inr => exact ckptVersion_of_ne differ
  all_goals
    dsimp only at header
    omega

/-- The block at a place of a slot that was written. -/
theorem blockOf_slotWrites (ckpt : CkptBlock) (storage : Storage.History BlockData) {offset : Nat}
    (inside : offset < ckptBlkNr) :
    blockOf (slotWrites ckpt slot chosen ++ storage) (slotBase slot + offset) =
      if offset = 0 then { BlockData.ones with
        blockType := .ckptHeader, ckptHeader := ckpt.header.next }
      else if offset = 1 then { BlockData.ones with
        blockType := .ckptNatJournal, natJournal := ckpt.natJournals }
      else { BlockData.ones with
        blockType := .ckptSitJournal
        sitJournal := fun entry =>
          ckpt.sitJournals ((offset - 2) * sitJournalPerBlk + entry) } := by
  have near := slotBase_lt chosen inside
  have six : offset < 6 := inside
  have same : ∀ other, (slotBase slot + other = slotBase slot + offset) = (other = offset) :=
    fun other => propext Nat.add_left_cancel_iff
  unfold slotWrites blockOf
  simp only [List.cons_append, storedAt_cons _ _ near, same]
  obtain rfl | rfl | rfl | rfl | rfl | rfl : offset = 0 ∨ offset = 1 ∨ offset = 2 ∨ offset = 3 ∨
    offset = 4 ∨ offset = 5 := by omega
  all_goals rfl

/-- The checkpoint in a slot that was written. -/
theorem ckptOf_slotWrites (ckpt : CkptBlock) (storage : Storage.History BlockData) :
    ckptOf (slotWrites ckpt slot chosen ++ storage) slot ckpt.sitJournals =
      { ckpt with header := ckpt.header.next } := by
  have head := blockOf_slotWrites chosen ckpt storage (show 0 < ckptBlkNr by decide)
  have nat := blockOf_slotWrites chosen ckpt storage (show 1 < ckptBlkNr by decide)
  rw [Nat.add_zero] at head
  unfold ckptOf
  rw [head, nat]
  dsimp only
  congr 1
  funext index
  split
  · rename_i part
    have four : index / 4 < 4 := part
    have place := blockOf_slotWrites chosen ckpt storage
      (show 2 + index / sitJournalPerBlk < ckptBlkNr from by
        show 2 + index / 4 < 6
        omega)
    have later : 2 + index / sitJournalPerBlk ≠ 0 ∧ 2 + index / sitJournalPerBlk ≠ 1 := by
      show 2 + index / 4 ≠ 0 ∧ 2 + index / 4 ≠ 1
      omega
    rw [Nat.add_assoc, place, if_neg later.1, if_neg later.2]
    dsimp only
    congr 1
    show (2 + index / 4 - 2) * 4 + index % 4 = index
    omega
  · rfl

end Slots


/-! ## Writing a checkpoint -/

/-- The copies of the NAT blocks are between the SIT and the summaries. -/
theorem natArea_copy_bounds (verBitmap : BitVec 32) {blk : Nat} (inside : blk < natBlkNr) :
    32 ≤ natArea.copy verBitmap blk ∧ natArea.copy verBitmap blk < 40 := by
  have four : blk < 4 := inside
  show 32 ≤ blk + 32 + (if verBitmap.getLsbD blk = true then 4 else 0) ∧
    blk + 32 + (if verBitmap.getLsbD blk = true then 4 else 0) < 40
  split <;> omega

/-- The copies of the SIT blocks are between the checkpoints and the NAT. -/
theorem sitArea_copy_bounds (verBitmap : BitVec 32) {blk : Nat} (inside : blk < sitBlkNr) :
    12 ≤ sitArea.copy verBitmap blk ∧ sitArea.copy verBitmap blk < 32 := by
  have ten : blk < 10 := inside
  show 12 ≤ blk + 12 + (if verBitmap.getLsbD blk = true then 10 else 0) ∧
    blk + 12 + (if verBitmap.getLsbD blk = true then 10 else 0) < 32
  split <;> omega

/-- The two tables share no block. -/
theorem sitCopy_ne_natCopy (sitBitmap natBitmap : BitVec 32) {blk blk' : Nat}
    (inSit : blk < sitBlkNr) (inNat : blk' < natBlkNr) :
    sitArea.copy sitBitmap blk ≠ natArea.copy natBitmap blk' := by
  have sitBounds := sitArea_copy_bounds sitBitmap inSit
  have natBounds := natArea_copy_bounds natBitmap inNat
  omega

/-- The slots are in front of the SIT. -/
theorem slotBase_le {slot : Nat} (chosen : slot = 0 ∨ slot = 1) :
    slotBase slot + ckptBlkNr ≤ 12 := by
  rcases chosen with rfl | rfl <;> decide

/-- The spare copy of a block is not current. -/
theorem Area.spareCopy_ne {ι : Type} {area : Area ι} (sized : area.Sized) (verBitmap : BitVec 32)
    {blk blk' : Nat} (inside : blk < area.blkNr) (inside' : blk' < area.blkNr) :
    area.spareCopy verBitmap blk ≠ area.copy verBitmap blk' := by
  intro same
  obtain ⟨rfl, bits⟩ := area.copy_inj inside inside' same
  rw [getLsbD_flipBit _ (inside.trans_le sized.bitmap)] at bits
  simp at bits

/-- Writes to spare copies of NAT blocks are silent. -/
theorem silent_nat {ckpt : CkptBlock} {slot : Nat} (chosen : slot = 0 ∨ slot = 1)
    {write : Storage.Lba × BlockData} {blk : Nat} (inside : blk < natBlkNr)
    (target : (write.1 : Nat) = natArea.spareCopy ckpt.header.natVerBitmap blk) :
    Silent ckpt slot write := by
  have bounds : 32 ≤ (write.1 : Nat) ∧ (write.1 : Nat) < 40 :=
    target ▸ natArea_copy_bounds _ inside
  have own := slotBase_le chosen
  refine ⟨Or.inr (by omega), fun header => ?_, fun blk' inside' => ?_, fun blk' inside' => ?_⟩
  · rcases chosen with rfl | rfl
    · have six : slotBase (0 ^^^ 1) = 6 := rfl
      omega
    · have zero : slotBase (1 ^^^ 1) = 0 := rfl
      omega
  · rw [target]
    exact Area.spareCopy_ne natArea_sized _ inside inside'
  · rw [target]
    exact (sitCopy_ne_natCopy _ _ inside' inside).symm

/-- Writes to spare copies of SIT blocks are silent. -/
theorem silent_sit {ckpt : CkptBlock} {slot : Nat} (chosen : slot = 0 ∨ slot = 1)
    {write : Storage.Lba × BlockData} {blk : Nat} (inside : blk < sitBlkNr)
    (target : (write.1 : Nat) = sitArea.spareCopy ckpt.header.sitVerBitmap blk) :
    Silent ckpt slot write := by
  have bounds : 12 ≤ (write.1 : Nat) ∧ (write.1 : Nat) < 32 :=
    target ▸ sitArea_copy_bounds _ inside
  have own := slotBase_le chosen
  refine ⟨Or.inr (by omega), fun header => ?_, fun blk' inside' => ?_, fun blk' inside' => ?_⟩
  · rcases chosen with rfl | rfl
    · have six : slotBase (0 ^^^ 1) = 6 := rfl
      omega
    · have zero : slotBase (1 ^^^ 1) = 0 := rfl
      omega
  · rw [target]
    exact sitCopy_ne_natCopy _ _ inside inside'
  · rw [target]
    exact Area.spareCopy_ne sitArea_sized _ inside inside'

/-- The writes into a slot but the last are silent for the other slot. -/
theorem silent_slot {ckpt ckpt' : CkptBlock} {slot slot' : Nat} (chosen : slot = 0 ∨ slot = 1)
    (chosen' : slot' = 0 ∨ slot' = 1) (other : slot' = slot ^^^ 1)
    (differ : dword (ckpt'.header.verOpen + 1) ≠ ckpt'.header.verClose)
    {write : Storage.Lba × BlockData} (member : write ∈ (slotWrites ckpt' slot' chosen').tail) :
    Silent ckpt slot write := by
  have inside := slotWrites_inside chosen' (List.mem_of_mem_tail member)
  have own := slotBase_le chosen'
  refine ⟨?_, fun header => ?_, fun blk inside' => ?_, fun blk inside' => ?_⟩
  · have six : ckptBlkNr = 6 := rfl
    have zero : slotBase 0 = 0 := rfl
    have one : slotBase 1 = 6 := rfl
    rcases chosen with rfl | rfl
    · have there : slot' = 1 := other
      subst there
      omega
    · have there : slot' = 0 := other
      subst there
      omega
  · rw [← other] at header
    exact slotWrites_header chosen' differ member header
  · have bounds := natArea_copy_bounds ckpt.header.natVerBitmap inside'
    show (write.1 : Nat) ≠ natArea.copy ckpt.header.natVerBitmap blk
    omega
  · have bounds := sitArea_copy_bounds ckpt.header.sitVerBitmap inside'
    show (write.1 : Nat) ≠ sitArea.copy ckpt.header.sitVerBitmap blk
    omega

/-- What writing a checkpoint does. -/
structure Checkpointed (fs fs' : Fs) : Prop where
  /-- The file system is synchronised with the new checkpoint. -/
  synced : Synced fs'
  /-- The tables in memory stay. -/
  tables : fs'.tables = fs.tables
  /-- They are durable. -/
  durable : fs'.durable.Agree fs.tables
  /-- The version is the next one. -/
  version : fs'.checkpoint.header.verClose = fs.checkpoint.header.verClose + 1
  /-- The writes but the last are silent for the slot before. -/
  writes : ∃ last writes, fs'.storage = last :: (writes ++ fs.storage) ∧
    ∀ write ∈ writes, Silent fs.checkpoint fs.curCkpt write
  /-- The free pages stay linked. -/
  linked : ∃ free, LinkedPages fs'.pages free

/-- The state that both flushes leave. -/
structure BothFlushed (fs fs₂ : Fs) : Prop where
  /-- Nothing else changes. -/
  frame : ∃ nat sit, fs₂ = sitArea.put (natArea.put fs nat) sit
  /-- The node addresses can be read. -/
  nat : NatReadable fs₂.checkpoint fs₂.storage
  /-- The segments can be read. -/
  segments : SegmentsReadable fs₂.checkpoint fs₂.storage
  /-- The storage holds the node addresses in memory. -/
  natStored : ∀ nid < nodeNr, natArea.stored fs₂.checkpoint fs₂.storage nid = fs.nat.nat nid
  /-- The storage holds the segments in memory. -/
  sitStored : ∀ seg < mainSegNr,
    (sitArea.stored fs₂.checkpoint fs₂.storage seg).validBmp =
        (fs.segments.segments seg).validBmp ∧
      (sitArea.stored fs₂.checkpoint fs₂.storage seg).validBlkNr =
        (fs.segments.segments seg).validBlkNr
  /-- No entry is marked. -/
  clean : (∀ nid < nodeNr, fs₂.nat.isDirty nid = false) ∧
    ∀ seg < mainSegNr, fs₂.segments.isDirty seg = false
  /-- The writes are silent. -/
  writes : ∃ writes, fs₂.storage = writes ++ fs.storage ∧
    ∀ write ∈ writes, Silent fs.checkpoint fs.curCkpt write
  /-- The free pages stay linked. -/
  linked : ∃ free, LinkedPages fs₂.pages free

/-- Flushing both tables. -/
theorem flushBoth_spec {fs fs₁ fs₂ : Fs} (synced : Synced fs) {free : List Nat}
    (linked : LinkedPages fs.pages free) (run₁ : flushNatEntries fs = .ok ⟨⟩ fs₁)
    (run₂ : flushSitEntries fs₁ = .ok ⟨⟩ fs₂) : BothFlushed fs fs₂ := by
  have chosen := synced.slot
  have natReadable := synced.natReadable
  have readable := synced.segmentsReadable
  have flushed₁ := natArea.flushEntries_spec natArea_lawful natArea_sized linked
    natReadable.journal natReadable.nat run₁
  obtain ⟨free₁, linked₁⟩ := flushed₁.linked
  obtain ⟨stage₁, frame₁⟩ := flushed₁.frame
  obtain ⟨writes₁, storage₁, targets₁⟩ := flushed₁.writes
  -- the flush of the NAT leaves the SIT as it was
  have sitCkpt : sitArea.verBitmap.get fs₁.checkpoint = fs.checkpoint.header.sitVerBitmap := by
    rw [frame₁]
    rfl
  have sitJournal : sitArea.JournalSound fs₁.checkpoint := by
    rw [frame₁]
    exact ⟨readable.journal.length, readable.journal.keys⟩
  have sitMapped : sitArea.Mapped fs₁.checkpoint fs₁.storage := by
    have before : sitArea.Mapped fs₁.checkpoint fs.storage := by
      rw [frame₁]
      exact readable.sit
    rw [storage₁]
    exact before.append sitArea_sized writes₁
  have flushed₂ := sitArea.flushEntries_spec sitArea_lawful sitArea_sized linked₁ sitJournal
    sitMapped run₂
  obtain ⟨stage₂, frame₂⟩ := flushed₂.frame
  obtain ⟨writes₂, storage₂, targets₂⟩ := flushed₂.writes
  rw [sitCkpt] at targets₂
  refine ⟨⟨stage₁, stage₂, ?_⟩, ⟨?_, ?_⟩, ⟨flushed₂.mapped,
    flushed₂.journal, fun seg inside => ?_⟩, fun nid inside => ?_, fun seg inside => ?_,
    ⟨fun nid inside => ?_, fun seg inside => ?_⟩,
    ⟨writes₂ ++ writes₁, ?_, fun write member => ?_⟩, flushed₂.linked⟩
  · rw [frame₂, frame₁]
  · have before : natArea.Mapped fs₂.checkpoint fs₁.storage := by
      rw [frame₂]
      exact flushed₁.mapped
    rw [storage₂]
    exact before.append natArea_sized writes₂
  · rw [frame₂]
    exact ⟨flushed₁.journal.length, flushed₁.journal.keys⟩
  · have sixty : seg < 60 := inside
    have near : ssaStartBlk + seg < totalBlockNr := by
      show 40 + seg < 1088
      omega
    rw [storage₂, storage₁]
    exact storedAt_isSome_append near (storedAt_isSome_append near (readable.ssa seg inside) _) _
  · have later : natArea.stored fs₂.checkpoint fs₂.storage nid =
        natArea.stored fs₁.checkpoint fs₁.storage nid := by
      have ckpt : natArea.stored fs₂.checkpoint fs₁.storage nid =
          natArea.stored fs₁.checkpoint fs₁.storage nid := by
        rw [frame₂]
        rfl
      rw [← ckpt, storage₂]
      refine Area.stored_congr natArea_sized (fun blk inArea => ?_) inside
      refine blockOf_append (natArea_sized.copy_lt _ inArea) fun write member => ?_
      obtain ⟨blk', inSit, target⟩ := targets₂ write member
      rw [target]
      exact sitCopy_ne_natCopy _ _ inSit inArea
    rw [later, flushed₁.stored nid inside]
    split
    · rfl
    · rename_i unmarked
      exact (synced.nat nid inside (Bool.eq_false_iff.mpr unmarked)).symm
  · have before : sitArea.stored fs₁.checkpoint fs₁.storage seg =
        sitArea.stored fs.checkpoint fs.storage seg := by
      have ckpt : sitArea.stored fs₁.checkpoint fs.storage seg =
          sitArea.stored fs.checkpoint fs.storage seg := by
        rw [frame₁]
        rfl
      rw [← ckpt, storage₁]
      refine Area.stored_congr sitArea_sized (fun blk inArea => ?_) inside
      refine blockOf_append (sitArea_sized.copy_lt _ inArea) fun write member => ?_
      obtain ⟨blk', inNat, target⟩ := targets₁ write member
      rw [target]
      exact (sitCopy_ne_natCopy _ _ inArea inNat).symm
    have marked : testFlag sitArea.entryPerBlk (sitArea.dirty.get fs₁) seg =
        fs.segments.isDirty seg := by
      rw [frame₁]
      rfl
    rw [flushed₂.stored seg inside, before, marked]
    split
    · rw [frame₁]
      exact ⟨rfl, rfl⟩
    · rename_i unmarked
      obtain ⟨bits, number⟩ := synced.sit seg inside (Bool.eq_false_iff.mpr unmarked)
      exact ⟨bits.symm, number.symm⟩
  · have unmarked := flushed₁.clean nid inside
    rw [frame₂]
    exact unmarked
  · exact flushed₂.clean seg inside
  · rw [storage₂, storage₁, List.append_assoc]
  · cases List.mem_append.mp member with
    | inl sit =>
      obtain ⟨blk, inSit, target⟩ := targets₂ write sit
      exact silent_sit chosen inSit target
    | inr nat =>
      obtain ⟨blk, inNat, target⟩ := targets₁ write nat
      exact silent_nat chosen inNat target

/-- Writing a slot leaves the blocks behind the slots. -/
theorem blockOf_slotWrites_of_le {ckpt : CkptBlock} {slot : Nat} (chosen : slot = 0 ∨ slot = 1)
    (storage : Storage.History BlockData) {address : Nat} (near : address < totalBlockNr)
    (behind : 12 ≤ address) :
    blockOf (slotWrites ckpt slot chosen ++ storage) address = blockOf storage address := by
  refine blockOf_append near fun write member => ?_
  have inside := slotWrites_inside chosen member
  have front := slotBase_le chosen
  omega

/-- The slot that was written has the next version. -/
theorem slotVersion_slotWrites {ckpt : CkptBlock} {slot : Nat} (chosen : slot = 0 ∨ slot = 1)
    (storage : Storage.History BlockData) {version : Nat}
    (opened : ckpt.header.verOpen = version) (closed : ckpt.header.verClose = version)
    (small : version + 1 < 2 ^ 32) :
    slotVersion (slotWrites ckpt slot chosen ++ storage) slot = version + 1 := by
  have head := blockOf_slotWrites chosen ckpt storage (show 0 < ckptBlkNr by decide)
  rw [Nat.add_zero, if_pos rfl] at head
  have next : dword (version + 1) = version + 1 := Nat.mod_eq_of_lt small
  have complete : ckpt.header.next.verOpen = ckpt.header.next.verClose := by
    show dword (ckpt.header.verOpen + 1) = dword (ckpt.header.verClose + 1)
    rw [opened, closed]
  have readVersion : ckptVersion { BlockData.ones with
      blockType := .ckptHeader, ckptHeader := ckpt.header.next } =
      some ckpt.header.next.verClose := if_pos ⟨rfl, complete⟩
  unfold slotVersion
  rw [head, readVersion]
  show dword (ckpt.header.verClose + 1) = version + 1
  rw [closed]
  exact next

/-- A file system after `save_checkpoint`. -/
def Fs.saved (fs : Fs) (ckpt : CkptBlock) (slot : Nat) (chosen : slot = 0 ∨ slot = 1) : Fs :=
  { fs with
    checkpoint := { ckpt with header := ckpt.header.next }
    curCkpt := slot
    storage := slotWrites ckpt slot chosen ++ fs.storage }

/-- The checkpoint that is written to a slot: the one in memory with the log heads. -/
def Fs.ckptToSave (fs : Fs) : CkptBlock :=
  { fs.checkpoint with header := { fs.checkpoint.header with curSegs := fs.segments.curSegs } }

/-- The slot that is not current. -/
theorem otherSlot {slot : Nat} (chosen : slot = 0 ∨ slot = 1) :
    (slot ^^^ 1 = 0 ∨ slot ^^^ 1 = 1) ∧ slot ^^^ 1 ^^^ 1 = slot := by
  rcases chosen with rfl | rfl <;> decide

/-- `f2fs_write_checkpoint` after its flushes. -/
theorem writeCheckpoint_ok {fs fs' : Fs} (run : writeCheckpoint fs = .ok ⟨⟩ fs') :
    ∃ fs₁ fs₂, flushNatEntries fs = .ok ⟨⟩ fs₁ ∧ flushSitEntries fs₁ = .ok ⟨⟩ fs₂ ∧
      ∀ chosen : fs₂.curCkpt = 0 ∨ fs₂.curCkpt = 1,
        fs' = fs₂.saved fs₂.ckptToSave (fs₂.curCkpt ^^^ 1) (otherSlot chosen).1 := by
  unfold writeCheckpoint modifyCkpt at run
  obtain ⟨_, fs₁, nat, run⟩ := bind_eq_ok.mp run
  obtain ⟨_, fs₂, sit, run⟩ := bind_eq_ok.mp run
  refine ⟨fs₁, fs₂, nat, sit, fun chosen => ?_⟩
  rw [get_bind_apply, modify_bind_apply, modify_bind_apply, get_bind_apply] at run
  cases (saveCheckpoint_apply _ (otherSlot chosen).1).symm.trans run
  rfl

/-- A slot that was written after both flushes can be loaded. -/
theorem readable_saved {fs fs₂ : Fs} (synced : Synced fs) (flushed : BothFlushed fs fs₂)
    {slot : Nat} (chosen : slot = 0 ∨ slot = 1) (other : slot ^^^ 1 = fs.curCkpt)
    (small : fs.checkpoint.header.verClose + 1 < 2 ^ 32) :
    Readable (slotWrites fs₂.ckptToSave slot chosen ++ fs₂.storage) slot := by
  obtain ⟨versions, version⟩ := synced.version
  obtain ⟨stage₁, stage₂, frame⟩ := flushed.frame
  obtain ⟨writes, onStorage, silent⟩ := flushed.writes
  have loaded := ckptOf_slotWrites chosen fs₂.ckptToSave fs₂.storage
  have presentHere : ∀ offset, offset < ckptBlkNr →
      (storedAt (slotWrites fs₂.ckptToSave slot chosen ++ fs₂.storage)
        (slotBase slot + offset)).isSome := by
    intro offset inside
    have near := slotBase_lt chosen inside
    have six : offset < 6 := inside
    have same : ∀ other, (slotBase slot + other = slotBase slot + offset) = (other = offset) :=
      fun other => propext Nat.add_left_cancel_iff
    unfold slotWrites
    simp only [List.cons_append, storedAt_cons _ _ near, same]
    obtain rfl | rfl | rfl | rfl | rfl | rfl : offset = 0 ∨ offset = 1 ∨ offset = 2 ∨ offset = 3 ∨
      offset = 4 ∨ offset = 5 := by omega
    all_goals rfl
  refine ⟨⟨?_, ?_, ?_, presentHere 1 (by decide), fun part inside => ?_⟩, ?_, ?_⟩
  · rw [onStorage]
    exact storedAt_isSome_append (by decide)
      (storedAt_isSome_append (by decide) synced.readable.ckpt.first _) _
  · rw [onStorage]
    exact storedAt_isSome_append (by decide)
      (storedAt_isSome_append (by decide) synced.readable.ckpt.second _) _
  · refine chosenSlot_eq_ok.mpr ⟨chosen, ?_⟩
    have opened : fs₂.ckptToSave.header.verOpen = fs.checkpoint.header.verClose := by
      rw [frame]
      exact versions
    have closed : fs₂.ckptToSave.header.verClose = fs.checkpoint.header.verClose := by
      rw [frame]
      rfl
    rw [slotVersion_slotWrites chosen _ opened closed small, other, ← version]
    have before : slotVersion (slotWrites fs₂.ckptToSave slot chosen ++ fs₂.storage) fs.curCkpt =
        slotVersion fs.storage fs.curCkpt := by
      have near : slotBase fs.curCkpt < totalBlockNr :=
        slotBase_lt synced.slot (show 0 < ckptBlkNr by decide)
      unfold slotVersion
      rw [onStorage, blockOf_append near fun write member => ?_, blockOf_append near
        fun write member => ?_]
      · have missed := (silent write member).blocks
        have six : ckptBlkNr = 6 := rfl
        omega
      · have inside := slotWrites_inside chosen member
        have zero : slotBase 0 = 0 := rfl
        have one : slotBase 1 = 6 := rfl
        have six : ckptBlkNr = 6 := rfl
        rw [← other]
        rcases chosen with rfl | rfl
        · show (write.1 : Nat) ≠ slotBase 1
          omega
        · show (write.1 : Nat) ≠ slotBase 0
          omega
    rw [before]
    exact Nat.lt_succ_self _
  · have four : part < 4 := inside
    rw [Nat.add_assoc]
    exact presentHere (2 + part) (show 2 + part < 6 by omega)
  · have segments : SegmentsReadable
        (ckptOf (slotWrites fs₂.ckptToSave slot chosen ++ fs₂.storage) slot
          fs₂.ckptToSave.sitJournals)
        (slotWrites fs₂.ckptToSave slot chosen ++ fs₂.storage) := by
      rw [loaded]
      refine ⟨flushed.segments.sit.append sitArea_sized _,
        ⟨flushed.segments.journal.length, flushed.segments.journal.keys⟩, fun seg inside => storedAt_isSome_append ?_ (flushed.segments.ssa seg inside) _⟩
      have sixty : seg < 60 := inside
      show 40 + seg < 1088
      omega
    exact segmentsReadable_ckptOf _ segments
  · have nat : NatReadable
        (ckptOf (slotWrites fs₂.ckptToSave slot chosen ++ fs₂.storage) slot
          fs₂.ckptToSave.sitJournals)
        (slotWrites fs₂.ckptToSave slot chosen ++ fs₂.storage) := by
      rw [loaded]
      exact ⟨flushed.nat.nat.append natArea_sized _, flushed.nat.journal.length,
        flushed.nat.journal.keys⟩
    exact ⟨nat.nat, nat.journal.length, nat.journal.keys⟩

/-- `f2fs_write_checkpoint` makes the tables in memory durable with its last write. -/
theorem writeCheckpoint_spec {fs fs' : Fs} (synced : Synced fs) {free : List Nat}
    (linked : LinkedPages fs.pages free)
    (small : fs.checkpoint.header.verClose + 1 < 2 ^ 32)
    (run : writeCheckpoint fs = .ok ⟨⟩ fs') : Checkpointed fs fs' := by
  obtain ⟨fs₁, fs₂, nat, sit, final⟩ := writeCheckpoint_ok run
  have flushed := flushBoth_spec synced linked nat sit
  obtain ⟨stage₁, stage₂, frame⟩ := flushed.frame
  have current : fs₂.curCkpt = fs.curCkpt := by
    rw [frame]
    rfl
  have memory : fs₂.tables = fs.tables := by
    rw [frame]
    rfl
  have chosen : fs₂.curCkpt = 0 ∨ fs₂.curCkpt = 1 := current ▸ synced.slot
  obtain rfl := final chosen
  obtain ⟨chosen', back⟩ := otherSlot chosen
  have readable := readable_saved synced flushed chosen' (back.trans current) small
  have loaded := ckptOf_slotWrites chosen' fs₂.ckptToSave fs₂.storage
  have natStored : ∀ nid < nodeNr, natArea.stored
      { fs₂.ckptToSave with header := fs₂.ckptToSave.header.next }
      (slotWrites fs₂.ckptToSave (fs₂.curCkpt ^^^ 1) chosen' ++ fs₂.storage) nid =
      fs.nat.nat nid := by
    intro nid inside
    refine Eq.trans (Area.stored_congr natArea_sized (fun blk inArea => ?_) inside)
      (flushed.natStored nid inside)
    refine blockOf_slotWrites_of_le chosen' _ (natArea_sized.copy_lt _ inArea) ?_
    exact (show 12 ≤ 32 by decide).trans (natArea_copy_bounds _ inArea).1
  have sitStored : ∀ seg < mainSegNr, sitArea.stored
      { fs₂.ckptToSave with header := fs₂.ckptToSave.header.next }
      (slotWrites fs₂.ckptToSave (fs₂.curCkpt ^^^ 1) chosen' ++ fs₂.storage) seg =
      sitArea.stored fs₂.checkpoint fs₂.storage seg := by
    intro seg inside
    refine Area.stored_congr sitArea_sized (fun blk inArea => ?_) inside
    exact blockOf_slotWrites_of_le chosen' _ (sitArea_sized.copy_lt _ inArea)
      (sitArea_copy_bounds _ inArea).1
  have synced' : Synced (fs₂.saved fs₂.ckptToSave (fs₂.curCkpt ^^^ 1) chosen') := by
    refine ⟨readable, loaded.symm, fun nid inside _ => ?_, fun seg inside _ => ?_⟩
    · exact (congrFun (congrArg Tables.nat memory) nid).trans (natStored nid inside).symm
    · obtain ⟨bits, number⟩ := flushed.sitStored seg inside
      have stored := sitStored seg inside
      refine ⟨Eq.trans ?_ (congrArg SegInfo.validBmp stored).symm,
        Eq.trans ?_ (congrArg SegInfo.validBlkNr stored).symm⟩
      · exact (congrFun (congrArg Tables.validBmp memory) seg).trans bits.symm
      · exact (congrFun (congrArg Tables.validBlkNr memory) seg).trans number.symm
  refine ⟨synced', memory, ?_, ?_, ?_, flushed.linked⟩
  · rw [synced'.durable_eq]
    refine ⟨natStored, fun seg inside => ?_, fun seg inside => ?_, ?_⟩
    · exact (congrArg SegInfo.validBmp (sitStored seg inside)).trans
        (flushed.sitStored seg inside).1
    · exact (congrArg SegInfo.validBlkNr (sitStored seg inside)).trans
        (flushed.sitStored seg inside).2
    · show fs₂.segments.curSegs = fs.segments.curSegs
      exact congrArg Tables.curSegs memory
  · have closed : fs₂.checkpoint.header.verClose = fs.checkpoint.header.verClose := by
      rw [frame]
      rfl
    show dword (fs₂.checkpoint.header.verClose + 1) = _
    rw [closed]
    exact Nat.mod_eq_of_lt small
  · obtain ⟨writes, onStorage, silent⟩ := flushed.writes
    obtain ⟨last, rest, split⟩ : ∃ last rest,
        slotWrites fs₂.ckptToSave (fs₂.curCkpt ^^^ 1) chosen' = last :: rest := ⟨_, _, rfl⟩
    refine ⟨last, rest ++ writes, ?_, fun write member => ?_⟩
    · show slotWrites fs₂.ckptToSave (fs₂.curCkpt ^^^ 1) chosen' ++ fs₂.storage = _
      rw [split, onStorage, List.cons_append, List.append_assoc]
    · cases List.mem_append.mp member with
      | inl saved =>
        refine silent_slot synced.slot chosen' (by rw [current]) ?_
          (show write ∈ List.tail _ by rw [split]; exact saved)
        have versions := synced.version.1
        have opened : fs₂.ckptToSave.header.verOpen = fs.checkpoint.header.verClose := by
          rw [frame]
          exact versions
        have closed : fs₂.ckptToSave.header.verClose = fs.checkpoint.header.verClose := by
          rw [frame]
          rfl
        rw [opened, closed, show dword (fs.checkpoint.header.verClose + 1) =
          fs.checkpoint.header.verClose + 1 from Nat.mod_eq_of_lt small]
        exact Nat.succ_ne_self _
      | inr early => exact silent write early


end FsChecking.F2fs
