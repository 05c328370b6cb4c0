import FsChecking.F2fs.Directory
import Mathlib.Data.List.GetD

/-!
# Entries of dentry blocks

An entry of a dentry block takes as many slots in a row as its name needs. Over every run of
additions and removals the bitmap is the disjoint union of the slots of the entries, a name is found
exactly if it is linked, and there is room for a name exactly if enough slots in a row are free.
-/

namespace FsChecking.F2fs

open Lib

/-! ## Slots in a row -/

section Bits

variable {bitmap : BitVec 32} {place fuel slot slots room : Nat}

/-- The first free slot: the slots in front of it are used. -/
theorem firstFree_spec (bitmap : BitVec 32) (fuel slot : Nat) :
    slot ≤ firstFree bitmap fuel slot ∧
      (∀ place, slot ≤ place → place < firstFree bitmap fuel slot →
        bitmap.getLsbD place = true) ∧
      (firstFree bitmap fuel slot < slot + fuel →
        bitmap.getLsbD (firstFree bitmap fuel slot) = false) := by
  induction fuel generalizing slot with
  | zero =>
    rw [firstFree]
    exact ⟨Nat.le_refl _, fun place late early => by omega, fun beyond => by omega⟩
  | succ fuel ih =>
    rw [firstFree]
    by_cases used : bitmap.getLsbD slot = true
    · rw [if_pos used]
      obtain ⟨later, between, clear⟩ := ih (slot + 1)
      refine ⟨by omega, fun place late early => ?_, fun inside => clear (by omega)⟩
      rcases Nat.eq_or_lt_of_le late with rfl | after
      · exact used
      · exact between place after early
    · rw [if_neg used]
      exact ⟨Nat.le_refl _, fun place late early => by omega,
        fun _ => Bool.eq_false_iff.mpr used⟩

/-- The first used slot, or the end of the block: the slots in front of it are free. -/
theorem firstUsed_spec (bitmap : BitVec 32) (fuel slot : Nat) (inside : slot ≤ dentryPerBlock)
    (enough : dentryPerBlock ≤ slot + fuel) :
    slot ≤ firstUsed bitmap fuel slot ∧ firstUsed bitmap fuel slot ≤ dentryPerBlock ∧
      (∀ place, slot ≤ place → place < firstUsed bitmap fuel slot →
        bitmap.getLsbD place = false) ∧
      (firstUsed bitmap fuel slot < dentryPerBlock →
        bitmap.getLsbD (firstUsed bitmap fuel slot) = true) := by
  induction fuel generalizing slot with
  | zero =>
    rw [firstUsed]
    exact ⟨Nat.le_refl _, inside, fun place late early => by omega, fun early => by omega⟩
  | succ fuel ih =>
    rw [firstUsed]
    by_cases free : bitmap.getLsbD slot = false ∧ slot < dentryPerBlock
    · rw [if_pos free]
      obtain ⟨later, early, between, used⟩ := ih (slot + 1) free.2 (by omega)
      refine ⟨by omega, early, fun place late before => ?_, used⟩
      rcases Nat.eq_or_lt_of_le late with rfl | after
      · exact free.1
      · exact between place after before
    · rw [if_neg free]
      refine ⟨Nat.le_refl _, inside, fun place late early => by omega, fun early => ?_⟩
      rw [← Bool.not_eq_false]
      exact fun clear => free ⟨clear, early⟩

/-- The search for the first free slot does not pass a free slot. -/
theorem firstFree_le (late : slot ≤ place) (free : bitmap.getLsbD place = false) (fuel : Nat) :
    firstFree bitmap fuel slot ≤ place := by
  by_contra early
  have set := (firstFree_spec bitmap fuel slot).2.1 place late (Nat.lt_of_not_le early)
  rw [free] at set
  cases set

/-- Slots in a row that are in the block and free. -/
structure IsRoom (bitmap : BitVec 32) (slots room : Nat) : Prop where
  /-- In the block. -/
  inside : room + slots ≤ dentryPerBlock
  /-- Free. -/
  free : ∀ place, room ≤ place → place < room + slots → bitmap.getLsbD place = false

/-- Room that begins in front of the first used slot ends in front of it. -/
theorem IsRoom.le_firstUsed (isRoom : IsRoom bitmap slots room) (inside : slot ≤ dentryPerBlock)
    (enough : dentryPerBlock ≤ slot + fuel) (before : room < firstUsed bitmap fuel slot) :
    room + slots ≤ firstUsed bitmap fuel slot := by
  obtain ⟨-, -, -, used⟩ := firstUsed_spec bitmap fuel slot inside enough
  by_contra short
  have set := used (Nat.lt_of_lt_of_le (Nat.lt_of_not_le short) isRoom.inside)
  rw [isRoom.free _ (Nat.le_of_lt before) (Nat.lt_of_not_le short)] at set
  cases set

/-- Behind a free slot of the block the first used slot is later. -/
theorem lt_firstUsed (small : slot < dentryPerBlock) (free : bitmap.getLsbD slot = false)
    (enough : dentryPerBlock ≤ slot + fuel) : slot < firstUsed bitmap fuel slot := by
  obtain ⟨late, -, -, stops⟩ := firstUsed_spec bitmap fuel slot (Nat.le_of_lt small) enough
  rcases Nat.eq_or_lt_of_le late with same | after
  · have set := stops (same ▸ small)
    rw [← same, free] at set
    cases set
  · exact after

/-- The search for room, from a slot on: what it finds is room, and it finds room that is there. -/
theorem findRoom_spec (bitmap : BitVec 32) (present : 0 < slots) (fuel start : Nat)
    (enough : dentryPerBlock < start + fuel) :
    (findRoom bitmap slots fuel start < dentryPerBlock →
      IsRoom bitmap slots (findRoom bitmap slots fuel start)) ∧
    ((∃ room, start ≤ room ∧ IsRoom bitmap slots room) →
      findRoom bitmap slots fuel start < dentryPerBlock) := by
  induction fuel generalizing start with
  | zero =>
    rw [findRoom]
    refine ⟨fun inside => by omega, ?_⟩
    rintro ⟨room, late, isRoom⟩
    have inside := isRoom.inside
    omega
  | succ fuel ih =>
    obtain ⟨later, -, clear⟩ := firstFree_spec bitmap 32 start
    -- room begins behind the used slots
    have behind : ∀ room, start ≤ room → IsRoom bitmap slots room →
        firstFree bitmap 32 start ≤ room := fun room late isRoom =>
      firstFree_le late (isRoom.free room (Nat.le_refl _) (Nat.lt_add_of_pos_right present)) 32
    rw [findRoom]
    generalize firstFree bitmap 32 start = free at *
    dsimp only
    by_cases full : free ≥ dentryPerBlock
    · rw [if_pos full]
      refine ⟨fun inside => by omega, ?_⟩
      rintro ⟨room, late, isRoom⟩
      have least := behind room late isRoom
      have inside := isRoom.inside
      omega
    · have small : free < dentryPerBlock := Nat.lt_of_not_le full
      have word : dentryPerBlock ≤ start + 32 := Nat.le_trans (by decide) (Nat.le_add_left 32 _)
      have isFree : bitmap.getLsbD free = false := clear (Nat.lt_of_lt_of_le small word)
      have enough' : dentryPerBlock ≤ free + dentryPerBlock := Nat.le_add_left _ _
      have next := lt_firstUsed small isFree enough'
      obtain ⟨-, inside, between, -⟩ :=
        firstUsed_spec bitmap dentryPerBlock free (Nat.le_of_lt small) enough'
      rw [if_neg full]
      by_cases large : firstUsed bitmap dentryPerBlock free - free ≥ slots
      · rw [if_pos large]
        exact ⟨fun _ => ⟨by omega, fun place late early => between place late (by omega)⟩,
          fun _ => small⟩
      · rw [if_neg large]
        obtain ⟨sound, complete⟩ := ih (firstUsed bitmap dentryPerBlock free) (by omega)
        refine ⟨sound, ?_⟩
        rintro ⟨room, late, isRoom⟩
        refine complete ⟨room, ?_, isRoom⟩
        -- room in front of the used slot would have been large enough
        by_contra early
        have least := behind room late isRoom
        have ends := isRoom.le_firstUsed (Nat.le_of_lt small) enough' (Nat.lt_of_not_le early)
        omega

end Bits

/-- A search that accepts one place only finds that place. -/
theorem find?_range_eq_some_iff {accepts : Nat → Bool} {bound place : Nat} (below : place < bound)
    (only : ∀ other, accepts other = true → other = place) :
    (List.range bound).find? accepts = some place ↔ accepts place = true := by
  constructor
  · exact fun found => List.find?_some found
  · intro accepted
    cases search : (List.range bound).find? accepts with
    | none =>
      have refused := List.find?_eq_none.mp search place (List.mem_range.mpr below)
      exact absurd accepted refused
    | some other => rw [only other (List.find?_some search)]

/-! ## The entries of a block -/

/-- An entry that `add_link` made. -/
structure Link where
  /-- The first slot. -/
  slot : Nat
  /-- The name. -/
  name : List Char
  /-- The node id. -/
  fid : Nat

/-- The slots that an entry takes. -/
def Link.Covers (link : Link) (place : Nat) : Prop :=
  link.slot ≤ place ∧ place < link.slot + slotNum link.name

/-- The slot for a name in a block, as `add_link` looks for it. -/
def DentryBlock.roomFor (block : DentryBlock) (name : List Char) : Nat :=
  findRoom block.bitmap (slotNum name) (dentryPerBlock + 1) 0

/-- The names that the search tells apart: not empty, with a length that a `WORD` holds. -/
def Nameable (name : List Char) : Prop := 0 < name.length ∧ name.length < 2 ^ 16

/-- The length of a name is stored as it is. -/
theorem Nameable.nameLen_eq {name : List Char} (nameable : Nameable name) :
    nameLen name = name.length :=
  Nat.mod_eq_of_lt nameable.2

/-- A name takes at least one slot, and its letters fit into its slots. -/
theorem Nameable.slots {name : List Char} (nameable : Nameable name) :
    0 < slotNum name ∧ name.length ≤ slotNum name * fnSlotLen := by
  have present : 0 < name.length := nameable.1
  unfold slotNum roundUpDiv fnSlotLen
  rw [nameable.nameLen_eq]
  omega

section Blocks

variable [NameHash] {block : DentryBlock} {links : List Link} {name : List Char} {fid slot : Nat}

/-- A dentry block and its entries, from a new block by additions of new names and removals. -/
inductive BlockRun : DentryBlock → List Link → Prop
  | new : BlockRun { DentryBlock.ones with bitmap := 0 } []
  | link {block : DentryBlock} {links : List Link} {name : List Char} {fid : Nat}
      (run : BlockRun block links) (nameable : Nameable name) (isNode : fid ≠ invalidBlk)
      (isNew : ∀ link ∈ links, link.name ≠ name)
      (room : block.roomFor name < dentryPerBlock) :
      BlockRun (fillDentry block (block.roomFor name) name fid)
        ({ slot := block.roomFor name, name, fid } :: links)
  | unlink {block : DentryBlock} {links : List Link} {name : List Char} {fid index : Nat}
      (run : BlockRun block links) (nameable : Nameable name)
      (found : (List.range dentryPerBlock).find? (fun index =>
        nameMatches block index name ∧ (block.dentries index).ino = fid) = some index) :
      BlockRun (clearDentry block index) (links.filter fun link => link.name ≠ name)

/-- A block stores these entries and nothing else. -/
structure Stores (block : DentryBlock) (links : List Link) : Prop where
  /-- Names can be told apart. -/
  nameable : ∀ link ∈ links, Nameable link.name
  /-- Entries belong to nodes. -/
  isNode : ∀ link ∈ links, link.fid ≠ invalidBlk
  /-- Entries are inside the block. -/
  inside : ∀ link ∈ links, link.slot + slotNum link.name ≤ dentryPerBlock
  /-- A name has one entry. -/
  distinct : ∀ link ∈ links, ∀ other ∈ links, link.name = other.name → link = other
  /-- A slot belongs to one entry. -/
  apart : ∀ link ∈ links, ∀ other ∈ links, ∀ place,
    link.Covers place → other.Covers place → link = other
  /-- The slots in use are those of the entries. -/
  used : ∀ place, block.bitmap.getLsbD place = true ↔ ∃ link ∈ links, link.Covers place
  /-- The entry itself. -/
  entry : ∀ link ∈ links, block.dentries link.slot =
    { ino := link.fid, hash := fileNameHash link.name, nameLen := nameLen link.name }
  /-- The letters of the name. -/
  letters : ∀ link ∈ links, (List.range link.name.length).map
    (fun place => block.filenames (link.slot * fnSlotLen + place)) = link.name
  /-- Other slots have no node. -/
  noNode : ∀ slot, (∀ link ∈ links, link.slot ≠ slot) → (block.dentries slot).ino = invalidBlk

/-- An entry covers its first slot. -/
theorem Stores.covers_slot (stores : Stores block links) {link : Link} (mem : link ∈ links) :
    link.Covers link.slot :=
  ⟨Nat.le_refl _, Nat.lt_add_of_pos_right (stores.nameable link mem).slots.1⟩

/-- Every letter of an entry is in one of the slots that it covers. -/
theorem Stores.covers_letter (stores : Stores block links) {link : Link} (mem : link ∈ links)
    {place : Nat} (within : place < link.name.length) :
    link.Covers ((link.slot * fnSlotLen + place) / fnSlotLen) := by
  have fits := (stores.nameable link mem).slots.2
  unfold Link.Covers fnSlotLen at *
  omega

/-- The letters of an entry stay when only letters of slots that it does not cover change. -/
theorem Stores.letters_of_outside (stores : Stores block links) {link : Link} (mem : link ∈ links)
    {first count : Nat}
    (outside : ∀ place, first ≤ place → place < first + count → ¬ link.Covers place)
    (changed : Nat → Char) :
    (List.range link.name.length).map (fun place =>
      if first * fnSlotLen ≤ link.slot * fnSlotLen + place ∧
          link.slot * fnSlotLen + place < (first + count) * fnSlotLen then
        changed (link.slot * fnSlotLen + place)
      else block.filenames (link.slot * fnSlotLen + place)) = link.name := by
  refine Eq.trans (List.map_congr_left fun place within => ?_) (stores.letters link mem)
  refine if_neg fun inside => ?_
  refine outside _ ?_ ?_ (stores.covers_letter mem (List.mem_range.mp within))
  · exact (Nat.le_div_iff_mul_le (by decide)).mpr inside.1
  · exact (Nat.div_lt_iff_lt_mul (by decide)).mpr inside.2

/-- The first slot of an entry is not among slots that it does not cover. -/
theorem Stores.slot_ne (stores : Stores block links) {link : Link} (mem : link ∈ links)
    {first count : Nat} (present : 0 < count)
    (outside : ∀ place, first ≤ place → place < first + count → ¬ link.Covers place) :
    link.slot ≠ first := by
  rintro rfl
  exact outside link.slot (Nat.le_refl _) (Nat.lt_add_of_pos_right present)
    (stores.covers_slot mem)

/-- The search matches the entries and nothing else. -/
theorem Stores.nameMatches_iff (stores : Stores block links) (nameable : Nameable name)
    (slot : Nat) :
    nameMatches block slot name = true ↔ ∃ link ∈ links, link.slot = slot ∧ link.name = name := by
  unfold nameMatches
  rw [decide_eq_true_iff, nameable.nameLen_eq, List.take_length]
  constructor
  · rintro ⟨isNode, -, sameLen, sameLetters⟩
    have owned : ∃ link ∈ links, link.slot = slot := by
      by_contra unowned
      exact isNode (stores.noNode slot fun link mem here => unowned ⟨link, mem, here⟩)
    obtain ⟨link, mem, rfl⟩ := owned
    rw [stores.entry link mem] at sameLen
    have lengths : link.name.length = name.length :=
      (stores.nameable link mem).nameLen_eq.symm.trans sameLen
    rw [← lengths, stores.letters link mem] at sameLetters
    exact ⟨link, mem, rfl, sameLetters⟩
  · rintro ⟨link, mem, rfl, rfl⟩
    rw [stores.entry link mem]
    exact ⟨stores.isNode link mem, rfl, nameable.nameLen_eq, stores.letters link mem⟩

/-- `FindFile` finds the slot of a name exactly if the name is linked there. -/
theorem Stores.find?_iff (stores : Stores block links) (nameable : Nameable name) (slot : Nat) :
    (List.range dentryPerBlock).find? (fun index => nameMatches block index name) = some slot ↔
      ∃ link ∈ links, link.slot = slot ∧ link.name = name := by
  rw [← stores.nameMatches_iff nameable slot]
  constructor
  · exact fun found => List.find?_some (p := fun index => nameMatches block index name) found
  · intro matched
    obtain ⟨link, mem, rfl, rfl⟩ := (stores.nameMatches_iff nameable slot).mp matched
    have below : link.slot < dentryPerBlock := Nat.lt_of_lt_of_le
      (Nat.lt_add_of_pos_right nameable.slots.1) (stores.inside link mem)
    refine (find?_range_eq_some_iff below fun other matches' => ?_).mpr matched
    obtain ⟨found, foundMem, rfl, sameName⟩ := (stores.nameMatches_iff nameable other).mp matches'
    rw [stores.distinct found foundMem link mem sameName]

/-- The free slots are those that no entry covers. -/
theorem Stores.free_iff (stores : Stores block links) (place : Nat) :
    block.bitmap.getLsbD place = false ↔ ∀ link ∈ links, ¬ link.Covers place := by
  rw [← Bool.not_eq_true, stores.used place, not_exists]
  exact forall_congr' fun link => not_and

/-- The slots that `add_link` chooses are in the block and belong to no entry. -/
theorem Stores.roomFor_free (stores : Stores block links) (nameable : Nameable name)
    (room : block.roomFor name < dentryPerBlock) :
    block.roomFor name + slotNum name ≤ dentryPerBlock ∧
      ∀ place, block.roomFor name ≤ place → place < block.roomFor name + slotNum name →
        ∀ link ∈ links, ¬ link.Covers place := by
  have isRoom := (findRoom_spec block.bitmap nameable.slots.1 (dentryPerBlock + 1) 0
    (by omega)).1 room
  exact ⟨isRoom.inside,
    fun place late early => (stores.free_iff place).mp (isRoom.free place late early)⟩

/-- There is room for a name exactly if enough slots in a row belong to no entry. -/
theorem Stores.roomFor_lt_iff (stores : Stores block links) (nameable : Nameable name) :
    block.roomFor name < dentryPerBlock ↔ ∃ room, room + slotNum name ≤ dentryPerBlock ∧
      ∀ place, room ≤ place → place < room + slotNum name →
        ∀ link ∈ links, ¬ link.Covers place := by
  constructor
  · exact fun room => ⟨_, stores.roomFor_free nameable room⟩
  · rintro ⟨room, inside, free⟩
    refine (findRoom_spec block.bitmap nameable.slots.1 (dentryPerBlock + 1) 0 (by omega)).2 ?_
    exact ⟨room, Nat.zero_le _, inside,
      fun place late early => (stores.free_iff place).mpr (free place late early)⟩

/-- A new block has no entries. -/
theorem stores_new : Stores { DentryBlock.ones with bitmap := 0 } [] where
  nameable := fun _ mem => absurd mem List.not_mem_nil
  isNode := fun _ mem => absurd mem List.not_mem_nil
  inside := fun _ mem => absurd mem List.not_mem_nil
  distinct := fun _ mem => absurd mem List.not_mem_nil
  apart := fun _ mem => absurd mem List.not_mem_nil
  used := by
    intro place
    constructor
    · intro set
      rw [show (0 : BitVec 32).getLsbD place = false from BitVec.getLsbD_zero] at set
      cases set
    · rintro ⟨_, mem, -⟩
      cases mem
  entry := fun _ mem => absurd mem List.not_mem_nil
  letters := fun _ mem => absurd mem List.not_mem_nil
  noNode := fun _ _ => rfl

/-- The stored letters of a name, read back. -/
theorem letters_fillDentry (nameable : Nameable name) (slot : Nat) :
    (List.range name.length).map
      (fun place => (fillDentry block slot name fid).filenames (slot * fnSlotLen + place)) =
        name := by
  refine List.ext_getElem ?_ fun place within inName => ?_
  · rw [List.length_map, List.length_range]
  · have fits := nameable.slots.2
    have here : slot * fnSlotLen ≤ slot * fnSlotLen + place ∧
        slot * fnSlotLen + place < (slot + slotNum name) * fnSlotLen := by
      rw [Nat.add_mul]
      omega
    rw [List.getElem_map, List.getElem_range]
    unfold fillDentry
    dsimp only
    rw [if_pos here, Nat.add_sub_cancel_left, List.getD_eq_getElem _ _ inName]

/-- An addition at slots that belong to no entry. -/
theorem Stores.filled (stores : Stores block links) (nameable : Nameable name)
    (isNode : fid ≠ invalidBlk) (isNew : ∀ link ∈ links, link.name ≠ name)
    (inside : slot + slotNum name ≤ dentryPerBlock)
    (unowned : ∀ place, slot ≤ place → place < slot + slotNum name →
      ∀ link ∈ links, ¬ link.Covers place) :
    Stores (fillDentry block slot name fid) ({ slot, name, fid } :: links) where
  nameable := List.forall_mem_cons.mpr ⟨nameable, stores.nameable⟩
  isNode := List.forall_mem_cons.mpr ⟨isNode, stores.isNode⟩
  inside := List.forall_mem_cons.mpr ⟨inside, stores.inside⟩
  distinct := by
    intro link mem other otherMem same
    rcases List.mem_cons.mp mem with rfl | old <;> rcases List.mem_cons.mp otherMem with rfl | older
    · rfl
    · exact absurd same.symm (isNew other older)
    · exact absurd same (isNew link old)
    · exact stores.distinct link old other older same
  apart := by
    intro link mem other otherMem place covered also
    rcases List.mem_cons.mp mem with rfl | old <;> rcases List.mem_cons.mp otherMem with rfl | older
    · rfl
    · exact absurd also (unowned place covered.1 covered.2 other older)
    · exact absurd covered (unowned place also.1 also.2 link old)
    · exact stores.apart link old other older place covered also
  used := by
    intro place
    have capacity : slot + slotNum name ≤ 32 := Nat.le_trans inside (by decide)
    rw [show (fillDentry block slot name fid).bitmap.getLsbD place = _ from
      getLsbD_setBits block.bitmap capacity place, Bool.or_eq_true, decide_eq_true_iff,
      stores.used place, List.exists_mem_cons_iff]
    exact or_comm
  entry := by
    refine List.forall_mem_cons.mpr ⟨Function.update_self _ _ _, fun link mem => ?_⟩
    have elsewhere := stores.slot_ne mem nameable.slots.1
      fun place late early => unowned place late early link mem
    exact (Function.update_of_ne elsewhere _ _).trans (stores.entry link mem)
  letters := by
    refine List.forall_mem_cons.mpr ⟨letters_fillDentry nameable slot, fun link mem => ?_⟩
    exact stores.letters_of_outside mem (fun place late early => unowned place late early link mem)
      fun place => name.getD (place - slot * fnSlotLen) (Char.ofNat 0)
  noNode := by
    intro place other
    obtain ⟨notHere, notOld⟩ := List.forall_mem_cons.mp other
    exact (congrArg Dentry.ino (Function.update_of_ne (Ne.symm notHere) _ _)).trans
      (stores.noNode place notOld)

/-- The entries that a removal keeps. -/
theorem Stores.mem_filter_iff (stores : Stores block links) {gone link : Link}
    (goneMem : gone ∈ links) :
    (link ∈ links.filter fun link => link.name ≠ gone.name) ↔ link ∈ links ∧ link ≠ gone := by
  rw [List.mem_filter, decide_eq_true_iff]
  refine and_congr_right fun mem => not_congr ⟨fun same => ?_, fun same => congrArg _ same⟩
  exact stores.distinct link mem gone goneMem same

/-- The slots of a removed entry belong to no entry that is kept. -/
theorem Stores.unowned_of_gone (stores : Stores block links) {gone : Link} (goneMem : gone ∈ links)
    (place : Nat) (late : gone.slot ≤ place) (early : place < gone.slot + slotNum gone.name) :
    ∀ link ∈ links.filter fun link => link.name ≠ gone.name, ¬ link.Covers place := by
  intro link kept covered
  obtain ⟨mem, other⟩ := (stores.mem_filter_iff goneMem).mp kept
  exact other (stores.apart link mem gone goneMem place covered ⟨late, early⟩)

/-- `clearDentry` clears the slots of the entry. -/
theorem Stores.clearDentry_eq (stores : Stores block links) {gone : Link} (goneMem : gone ∈ links) :
    clearDentry block gone.slot =
      { bitmap := (List.range (slotNum gone.name)).foldl
          (fun bitmap place => clearBit bitmap (gone.slot + place)) block.bitmap
        filenames := fun place =>
          if gone.slot * fnSlotLen ≤ place ∧
              place < (gone.slot + slotNum gone.name) * fnSlotLen then Char.ofNat 0
          else block.filenames place
        dentries := Function.update block.dentries gone.slot .ones } := by
  have slots : roundUpDiv (block.dentries gone.slot).nameLen fnSlotLen = slotNum gone.name := by
    rw [stores.entry gone goneMem]
    rfl
  unfold clearDentry
  rw [slots]

/-- A removal of an entry. -/
theorem Stores.cleared (stores : Stores block links) {gone : Link} (goneMem : gone ∈ links) :
    Stores (clearDentry block gone.slot) (links.filter fun link => link.name ≠ gone.name) := by
  have kept {link : Link} : (link ∈ links.filter fun link => link.name ≠ gone.name) ↔
      link ∈ links ∧ link ≠ gone := stores.mem_filter_iff goneMem
  have unowned := stores.unowned_of_gone goneMem
  rw [stores.clearDentry_eq goneMem]
  exact {
    nameable := fun link mem => stores.nameable link (kept.mp mem).1
    isNode := fun link mem => stores.isNode link (kept.mp mem).1
    inside := fun link mem => stores.inside link (kept.mp mem).1
    distinct := fun link mem other otherMem =>
      stores.distinct link (kept.mp mem).1 other (kept.mp otherMem).1
    apart := fun link mem other otherMem =>
      stores.apart link (kept.mp mem).1 other (kept.mp otherMem).1
    used := by
      intro place
      have capacity : gone.slot + slotNum gone.name ≤ 32 :=
        Nat.le_trans (stores.inside gone goneMem) (by decide)
      rw [getLsbD_clearBits block.bitmap capacity place, Bool.and_eq_true, Bool.not_eq_true',
        decide_eq_false_iff_not, stores.used place]
      constructor
      · rintro ⟨⟨link, mem, covered⟩, outside⟩
        refine ⟨link, kept.mpr ⟨mem, ?_⟩, covered⟩
        rintro rfl
        exact outside covered
      · rintro ⟨link, mem, covered⟩
        exact ⟨⟨link, (kept.mp mem).1, covered⟩,
          fun within => unowned place within.1 within.2 link mem covered⟩
    entry := by
      intro link mem
      have elsewhere := stores.slot_ne (kept.mp mem).1 (stores.nameable gone goneMem).slots.1
        fun place late early => unowned place late early link mem
      exact (Function.update_of_ne elsewhere _ _).trans (stores.entry link (kept.mp mem).1)
    letters := fun link mem => stores.letters_of_outside (kept.mp mem).1
      (fun place late early => unowned place late early link mem) fun _ => Char.ofNat 0
    noNode := by
      intro place other
      dsimp only
      by_cases here : place = gone.slot
      · rw [here, Function.update_self]
        rfl
      · rw [Function.update_of_ne here]
        refine stores.noNode place fun link mem same => ?_
        refine other link (kept.mpr ⟨mem, ?_⟩) same
        rintro rfl
        exact here same.symm }

/-- Every run of additions and removals keeps the entries. -/
theorem BlockRun.stores (run : BlockRun block links) : Stores block links := by
  induction run with
  | new => exact stores_new
  | link _ nameable isNode isNew room stores =>
    obtain ⟨inside, unowned⟩ := stores.roomFor_free nameable room
    exact stores.filled nameable isNode isNew inside unowned
  | unlink _ nameable found stores =>
    have accepted := List.find?_some found
    rw [decide_eq_true_iff] at accepted
    obtain ⟨gone, mem, rfl, rfl⟩ := (stores.nameMatches_iff nameable _).mp accepted.1
    exact stores.cleared mem

/-- After any additions and removals a slot is in use exactly if an entry covers it, and then one
entry does; a name is found exactly at its entry, with its node; and there is room for a name
exactly if enough slots in a row belong to no entry. -/
theorem dentryBlock_finds (run : BlockRun block links) :
    (∀ place, block.bitmap.getLsbD place = true ↔ ∃ link ∈ links, link.Covers place) ∧
      (∀ link ∈ links, ∀ other ∈ links, ∀ place,
        link.Covers place → other.Covers place → link = other) ∧
      (∀ name, Nameable name → ∀ slot,
        (List.range dentryPerBlock).find? (fun index => nameMatches block index name) = some slot ↔
          ∃ link ∈ links, link.slot = slot ∧ link.name = name) ∧
      (∀ link ∈ links, (block.dentries link.slot).ino = link.fid) ∧
      (∀ name, Nameable name →
        (block.roomFor name < dentryPerBlock ↔ ∃ room, room + slotNum name ≤ dentryPerBlock ∧
          ∀ place, room ≤ place → place < room + slotNum name →
            ∀ link ∈ links, ¬ link.Covers place)) := by
  have stores := run.stores
  exact ⟨stores.used, stores.apart, fun _ nameable slot => stores.find?_iff nameable slot,
    fun link mem => congrArg Dentry.ino (stores.entry link mem),
    fun _ nameable => stores.roomFor_lt_iff nameable⟩

end Blocks

/-- A hash that is the same for all names. -/
@[reducible] def sameHash : NameHash := ⟨fun _ => 0⟩

/-- A block with the entry `ab`. -/
def oneLinked : DentryBlock :=
  @fillDentry sameHash { DentryBlock.ones with bitmap := 0 } 0 ['a', 'b'] 5

/-- A block with the entries `ab` and `cde`. -/
def twoLinked : DentryBlock := @fillDentry sameHash oneLinked 1 ['c', 'd', 'e'] 6

theorem dentryBlock_finds_sample :
    (List.range dentryPerBlock).find?
        (fun index => @nameMatches sameHash (clearDentry twoLinked 0) index ['c', 'd', 'e']) =
          some 1 ∧
      ((clearDentry twoLinked 0).dentries 1).ino = 6 ∧
      ¬ (clearDentry twoLinked 0).roomFor ['f', 'g', 'h'] < dentryPerBlock := by
  have one : @BlockRun sameHash oneLinked [{ slot := 0, name := ['a', 'b'], fid := 5 }] :=
    @BlockRun.link sameHash _ _ ['a', 'b'] 5 (@BlockRun.new sameHash) ⟨by decide, by decide⟩
      (by decide) (fun _ mem => absurd mem List.not_mem_nil) (by decide)
  have two : @BlockRun sameHash twoLinked
      [{ slot := 1, name := ['c', 'd', 'e'], fid := 6 },
        { slot := 0, name := ['a', 'b'], fid := 5 }] :=
    @BlockRun.link sameHash _ _ ['c', 'd', 'e'] 6 one ⟨by decide, by decide⟩ (by decide)
      (by decide) (by decide)
  have run : @BlockRun sameHash (clearDentry twoLinked 0)
      [{ slot := 1, name := ['c', 'd', 'e'], fid := 6 }] :=
    @BlockRun.unlink sameHash _ _ ['a', 'b'] 5 0 two ⟨by decide, by decide⟩ (by decide)
  obtain ⟨-, -, finds, owners, room⟩ := @dentryBlock_finds sameHash _ _ run
  refine ⟨(finds _ ⟨by decide, by decide⟩ 1).mpr ⟨_, List.mem_cons_self, rfl, rfl⟩,
    owners _ List.mem_cons_self, fun inside => ?_⟩
  obtain ⟨start, fits, free⟩ := (room _ ⟨by decide, by decide⟩).mp inside
  have two : slotNum ['f', 'g', 'h'] = 2 := by decide
  rw [two] at fits free
  change start + 2 ≤ 4 at fits
  have late : 1 ≤ max start 1 ∧ start ≤ max start 1 := ⟨Nat.le_max_right _ _, Nat.le_max_left _ _⟩
  have early : max start 1 < 3 := by omega
  exact free (max start 1) late.2 (by omega) _ List.mem_cons_self ⟨late.1, early⟩

end FsChecking.F2fs
