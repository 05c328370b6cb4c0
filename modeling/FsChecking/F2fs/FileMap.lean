import FsChecking.Config
import Mathlib.Logic.Function.Basic
import Mathlib.Order.MinMax

/-!
# Block maps of files

A file as the block map that its index nodes hold, and what truncating a range of blocks should do
to it. `walk` is the loop of the simulator on such a map. It gives up an index node as often as it
finds it without a mapped block, and stops looking for index nodes at the first hole.
-/

namespace FsChecking.F2fs

/-- The mapped blocks of an index node. -/
abbrev Entries : Type := Nat → Option Nat

/-- The number of mapped entries. -/
def mappedCount (entries : Entries) : Nat :=
  (List.range indexSize).countP fun entry => (entries entry).isSome

/-- The index nodes of a file by their slots. -/
abbrev FileMap : Type := Nat → Option Entries

namespace FileMap

variable {map map' : FileMap} {entries : Entries} {blk first last slot entry : Nat}

/-- The address of a block. -/
def block (map : FileMap) (blk : Nat) : Option Nat :=
  (map (blk / indexSize)).bind fun entries => entries (blk % indexSize)

/-- The entries without the blocks of a range. -/
def clearRange (first last slot : Nat) (entries : Entries) : Entries := fun entry =>
  if entry < indexSize ∧ first ≤ slot * indexSize + entry ∧ slot * indexSize + entry < last then
    none
  else entries entry

/-- The map without the blocks of a range, and without the index nodes that lose their last block. -/
def truncated (map : FileMap) (first last : Nat) : FileMap := fun slot =>
  match map slot with
  | none => none
  | some entries =>
    if 0 < mappedCount entries ∧ mappedCount (clearRange first last slot entries) = 0 then none
    else some (clearRange first last slot entries)

/-! ## The walk -/

/-- Where the path of a walk stands. -/
inductive Standing
  /-- It is not positioned. -/
  | unset
  /-- It is positioned on a slot without an index node. -/
  | hole
  /-- It is positioned on an index node. -/
  | node
  deriving DecidableEq

/-- Position a path. -/
def position (map : FileMap) (blk : Nat) : Standing → Standing
  | .unset => if (map (blk / indexSize)).isSome then .node else .hole
  | standing => standing

/-- Remove one block, and its index node when it is empty. -/
def clearBlock (map : FileMap) (blk : Nat) (entries : Entries) : FileMap :=
  let kept := Function.update entries (blk % indexSize) none
  Function.update map (blk / indexSize) (if mappedCount kept = 0 then none else some kept)

/-- The path behind a block of an index node. -/
def advance (blk : Nat) : Standing := if blk % indexSize + 1 ≥ indexSize then .unset else .node

/-- The loop over a number of blocks. It fails when it gives up an index node once more. -/
def walk : Nat → Standing → FileMap → Nat → Option FileMap
  | 0, _, map, _ => some map
  | count + 1, standing, map, blk =>
    match map.position blk standing with
    | .node =>
      match map (blk / indexSize) with
      | none => none
      | some entries => walk count (advance blk) (map.clearBlock blk entries) (blk + 1)
    | .unset | .hole => walk count .hole map (blk + 1)

/-- The walk from a block reaches the slot of another one. -/
def Reaches (map : FileMap) (first blk : Nat) : Prop :=
  ∀ slot, first / indexSize ≤ slot → slot < blk / indexSize → map slot ≠ none

/-- The maps and ranges that the walk truncates as it should. -/
structure Truncatable (map : FileMap) (first last : Nat) : Prop where
  /-- The last block of the range in each index node that is reached is mapped, or the index node
  maps a block outside of the range. -/
  kept : ∀ blk entries, first ≤ blk → blk < last → map.Reaches first blk →
    map (blk / indexSize) = some entries → (blk + 1 = last ∨ (blk + 1) % indexSize = 0) →
    entries (blk % indexSize) ≠ none ∨
      ∃ entry < indexSize, entries entry ≠ none ∧
        ¬ (first ≤ blk / indexSize * indexSize + entry ∧
          blk / indexSize * indexSize + entry < last)
  /-- No block of the range is mapped behind a missing index node. -/
  hole : ∀ blk, first ≤ blk → blk < last → map (blk / indexSize) = none →
    ∀ later, blk ≤ later → later < last → map.block later = none

/-! ## Counting -/

/-- No entry is mapped. -/
theorem mappedCount_eq_zero : mappedCount entries = 0 ↔ ∀ entry < indexSize, entries entry = none := by
  unfold mappedCount
  rw [List.countP_eq_zero]
  constructor
  · intro unmapped entry inside
    have absent := unmapped entry (List.mem_range.mpr inside)
    simpa using absent
  · intro unmapped entry member
    rw [unmapped entry (List.mem_range.mp member)]
    exact Bool.false_ne_true

/-- Some entry is mapped. -/
theorem mappedCount_pos : 0 < mappedCount entries ↔ ∃ entry < indexSize, entries entry ≠ none := by
  rw [Nat.pos_iff_ne_zero, Ne, mappedCount_eq_zero]
  simp only [not_forall, exists_prop, ne_eq]

/-! ## One block -/

/-- The entries after removing a block. -/
theorem clearBlock_self (map : FileMap) (blk : Nat) (entries : Entries) :
    map.clearBlock blk entries (blk / indexSize) =
      if mappedCount (Function.update entries (blk % indexSize) none) = 0 then none
      else some (Function.update entries (blk % indexSize) none) :=
  Function.update_self ..

/-- The other slots. -/
theorem clearBlock_of_ne (entries : Entries) (apart : slot ≠ blk / indexSize) :
    map.clearBlock blk entries slot = map slot :=
  Function.update_of_ne apart ..

/-- The place of a block in its file. -/
theorem place_eq (blk : Nat) : blk / indexSize * indexSize + blk % indexSize = blk :=
  Nat.div_add_mod' blk indexSize

/-- Truncating goes on behind the first block, unless its index node was empty. -/
theorem truncated_clearBlock (here : map (first / indexSize) = some entries)
    (mapped : 0 < mappedCount entries) (before : first < last) :
    (map.clearBlock first entries).truncated (first + 1) last = map.truncated first last := by
  have place := place_eq first
  funext slot
  unfold truncated
  by_cases same : slot = first / indexSize
  · subst same
    rw [clearBlock_self, here]
    have whole : clearRange (first + 1) last (first / indexSize)
        (Function.update entries (first % indexSize) none) =
          clearRange first last (first / indexSize) entries := by
      funext entry
      unfold clearRange
      by_cases this : entry = first % indexSize
      · subst this
        have inside : first % indexSize < indexSize := Nat.mod_lt _ (by decide)
        rw [Function.update_self, ite_self, if_pos ⟨inside, by omega, by omega⟩]
      · rw [Function.update_of_ne this]
        have apart : first / indexSize * indexSize + entry ≠ first := fun equal =>
          this (by omega)
        have condition : (entry < indexSize ∧ first + 1 ≤ first / indexSize * indexSize + entry ∧
            first / indexSize * indexSize + entry < last) ↔
            (entry < indexSize ∧ first ≤ first / indexSize * indexSize + entry ∧
              first / indexSize * indexSize + entry < last) := by omega
        rw [if_congr condition rfl rfl]
    split
    · rename_i empty none
      split at none
      · rename_i noneKept
        have nothing : mappedCount (clearRange first last (first / indexSize) entries) = 0 := by
          rw [← whole]
          refine mappedCount_eq_zero.mpr fun entry inside => ?_
          unfold clearRange
          rw [mappedCount_eq_zero.mp noneKept entry inside, ite_self]
        rw [if_pos ⟨mapped, nothing⟩]
      · cases none
    · rename_i kept some
      split at some
      · cases some
      · rename_i notEmpty
        rw [← Option.some.inj some, whole]
        have positive := Nat.pos_of_ne_zero notEmpty
        rw [if_congr (and_congr (iff_of_true positive mapped) Iff.rfl) rfl rfl]
  · rw [clearBlock_of_ne entries same]
    cases map slot with
    | none => rfl
    | some entries =>
      have outside : clearRange (first + 1) last slot entries = clearRange first last slot entries := by
        funext entry
        unfold clearRange
        have condition : (entry < indexSize ∧ first + 1 ≤ slot * indexSize + entry ∧
            slot * indexSize + entry < last) ↔
            (entry < indexSize ∧ first ≤ slot * indexSize + entry ∧
              slot * indexSize + entry < last) := by
          constructor
          · rintro ⟨inside, above, below⟩
            exact ⟨inside, by omega, below⟩
          · rintro ⟨inside, above, below⟩
            refine ⟨inside, ?_, below⟩
            have different : first ≠ slot * indexSize + entry := by
              rintro rfl
              unfold indexSize at same inside
              omega
            omega
        rw [if_congr condition rfl rfl]
      dsimp only
      rw [outside]

/-! ## What the walk does -/

/-- The walk cannot truncate when the last block of the range in the first index node is not mapped
and the index node maps no block outside of the range. -/
theorem not_truncatable (here : map (first / indexSize) = some entries) (before : first < last)
    (unmapped : ∀ entry < indexSize, first / indexSize * indexSize + entry < first ∨
      last ≤ first / indexSize * indexSize + entry ∨
      (first / indexSize * indexSize + entry + 1 = last ∨ entry + 1 = indexSize) →
        entries entry = none) : ¬ map.Truncatable first last := by
  intro truncatable
  have place := place_eq first
  have small : first % indexSize < indexSize := Nat.mod_lt _ (by decide)
  let end_ := min last (first / indexSize * indexSize + indexSize)
  have bounds : first < end_ ∧ end_ ≤ last ∧ end_ ≤ first / indexSize * indexSize + indexSize :=
    ⟨lt_min before (by omega), Nat.min_le_left _ _, Nat.min_le_right _ _⟩
  have attained : end_ = last ∨ end_ = first / indexSize * indexSize + indexSize := min_choice _ _
  obtain ⟨blk, last_⟩ : ∃ blk, end_ = blk + 1 := ⟨end_ - 1, by omega⟩
  rw [last_] at bounds attained
  have slot : blk / indexSize = first / indexSize := by
    unfold indexSize at *
    omega
  have remainder := place_eq blk
  rw [slot] at remainder
  have reaches : map.Reaches first blk := fun other above below => by
    rw [slot] at below
    exact absurd above (Nat.not_le.mpr below)
  have ends : blk + 1 = last ∨ (blk + 1) % indexSize = 0 := by
    rcases attained with whole | full
    · exact .inl whole
    · right
      rw [full, Nat.mul_comm, Nat.mul_add_mod_self_left, Nat.mod_self]
  rcases truncatable.kept blk entries (by omega) (by omega) reaches (slot ▸ here) ends with
    mapped | ⟨entry, inside, mapped, outside⟩
  · refine mapped (unmapped _ (Nat.mod_lt _ (by decide)) (.inr (.inr ?_)))
    rcases attained with whole | full
    · left
      omega
    · right
      omega
  · rw [slot] at outside
    refine mapped (unmapped entry inside ?_)
    omega

/-- Whether the rest of a range can be truncated does not depend on a first block that has been
truncated as it should. -/
theorem truncatable_clearBlock_iff (here : map (first / indexSize) = some entries)
    (before : first < last) (mapped : 0 < mappedCount entries)
    (fine : 0 < mappedCount (Function.update entries (first % indexSize) none) ∨
      first + 1 = last ∨ (first + 1) % indexSize = 0) :
    (map.clearBlock first entries).Truncatable (first + 1) last ↔ map.Truncatable first last := by
  have place := place_eq first
  have self := clearBlock_self map first entries
  have others : ∀ slot, slot ≠ first / indexSize → map.clearBlock first entries slot = map slot :=
    fun slot apart => clearBlock_of_ne entries apart
  -- behind the first index node nothing has changed
  have later : ∀ blk, first < blk → blk / indexSize ≠ first / indexSize →
      first / indexSize < blk / indexSize := fun blk after apart =>
    lt_of_le_of_ne (Nat.div_le_div_right (Nat.le_of_lt after)) (Ne.symm apart)
  constructor
  · intro rest
    refine ⟨fun blk entries' above below reaches found ends => ?_, fun blk above below missing => ?_⟩
    · by_cases slot : blk / indexSize = first / indexSize
      · rw [slot] at found ⊢
        rw [here] at found
        cases found
        by_cases first_ : blk = first
        · rw [first_] at ends ⊢
          by_cases kept : 0 < mappedCount (Function.update entries (first % indexSize) none)
          · obtain ⟨entry, inside, mapped⟩ := mappedCount_pos.mp kept
            have apart : entry ≠ first % indexSize := by
              rintro rfl
              rw [Function.update_self] at mapped
              exact mapped rfl
            rw [Function.update_of_ne apart] at mapped
            refine .inr ⟨entry, inside, mapped, ?_⟩
            unfold indexSize at *
            omega
          · left
            intro unmapped
            refine kept ?_
            have same : Function.update entries (first % indexSize) none = entries := by
              rw [← unmapped, Function.update_eq_self]
            rw [same]
            exact mapped
        · have kept : 0 < mappedCount (Function.update entries (first % indexSize) none) := by
            rcases fine with kept | whole | full
            · exact kept
            · omega
            · unfold indexSize at *
              omega
          rw [if_neg (Nat.ne_of_gt kept)] at self
          have remainder := place_eq blk
          rw [slot] at remainder
          have reached : (map.clearBlock first entries).Reaches (first + 1) blk := by
            intro other above below
            rw [slot] at below
            have same : first / indexSize ≤ (first + 1) / indexSize :=
              Nat.div_le_div_right (Nat.le_succ _)
            exact absurd above (Nat.not_le.mpr (Nat.lt_of_lt_of_le below same))
          have apart : blk % indexSize ≠ first % indexSize := fun equal => first_ (by omega)
          rcases rest.kept blk _ (by omega) below reached (slot ▸ self) ends with
            mapped | ⟨entry, inside, mapped, outside⟩
          · rw [Function.update_of_ne apart] at mapped
            exact .inl mapped
          · rw [slot] at outside
            have other : entry ≠ first % indexSize := by
              rintro rfl
              rw [Function.update_self] at mapped
              exact mapped rfl
            rw [Function.update_of_ne other] at mapped
            refine .inr ⟨entry, inside, mapped, ?_⟩
            omega
      · have after : first < blk := lt_of_le_of_ne above fun same => slot (by rw [same])
        have behind := later blk after slot
        have reached : (map.clearBlock first entries).Reaches (first + 1) blk := by
          intro other above below
          by_cases same : other = first / indexSize
          · rw [same, self]
            rcases fine with kept | whole | full
            · rw [if_neg (Nat.ne_of_gt kept)]
              exact Option.some_ne_none _
            · omega
            · exfalso
              unfold indexSize at *
              omega
          · rw [others other same]
            exact reaches other
              ((Nat.div_le_div_right (Nat.le_succ _)).trans above) below
        rcases rest.kept blk entries' after below reached ((others _ slot).trans found) ends with
          mapped | ⟨entry, inside, mapped, outside⟩
        · exact .inl mapped
        · refine .inr ⟨entry, inside, mapped, ?_⟩
          unfold indexSize at *
          omega
    · have slot : blk / indexSize ≠ first / indexSize := fun same => by
        rw [same, here] at missing
        cases missing
      have after : first < blk := lt_of_le_of_ne above fun same => slot (by rw [same])
      intro other above' below'
      have otherSlot : other / indexSize ≠ first / indexSize :=
        Nat.ne_of_gt (Nat.lt_of_lt_of_le (later blk after slot) (Nat.div_le_div_right above'))
      have unmapped := rest.hole blk after below ((others _ slot).trans missing) other above' below'
      unfold block at unmapped ⊢
      rw [others _ otherSlot] at unmapped
      exact unmapped
  · intro whole
    refine ⟨fun blk entries' above below reaches found ends => ?_, fun blk above below missing => ?_⟩
    · by_cases slot : blk / indexSize = first / indexSize
      · have reached : map.Reaches first blk := by
          intro other above below
          rw [slot] at below
          exact absurd above (Nat.not_le.mpr below)
        have remainder := place_eq blk
        rw [slot] at found remainder ⊢
        rw [self] at found
        split at found
        · cases found
        · rw [← Option.some.inj found]
          have apart : blk % indexSize ≠ first % indexSize := fun equal => by omega
          rcases whole.kept blk entries (by omega) below reached (slot ▸ here) ends with
            mapped | ⟨entry, inside, mapped, outside⟩
          · rw [Function.update_of_ne apart]
            exact .inl mapped
          · rw [slot] at outside
            have other : entry ≠ first % indexSize := by
              rintro rfl
              omega
            refine .inr ⟨entry, inside, ?_, ?_⟩
            · rw [Function.update_of_ne other]
              exact mapped
            · omega
      · have behind := later blk above slot
        have reached : map.Reaches first blk := by
          intro other from_ below
          by_cases same : other = first / indexSize
          · rw [same, here]
            exact Option.some_ne_none _
          · rw [← others other same]
            refine reaches other ?_ below
            unfold indexSize at *
            omega
        rcases whole.kept blk entries' (by omega) below reached ((others _ slot).symm.trans found)
          ends with mapped | ⟨entry, inside, mapped, outside⟩
        · exact .inl mapped
        · refine .inr ⟨entry, inside, mapped, ?_⟩
          omega
    · by_cases slot : blk / indexSize = first / indexSize
      · intro other above' below'
        rw [slot, self] at missing
        split at missing
        · rename_i gone
          rcases fine with kept | only | full
          · exact absurd gone (Nat.ne_of_gt kept)
          · omega
          · exfalso
            unfold indexSize at *
            omega
        · cases missing
      · intro other above' below'
        have otherSlot : other / indexSize ≠ first / indexSize :=
          Nat.ne_of_gt (Nat.lt_of_lt_of_le (later blk above slot) (Nat.div_le_div_right above'))
        have unmapped := whole.hole blk (by omega) below ((others _ slot).symm.trans missing) other
          above' below'
        unfold block at unmapped ⊢
        rw [others _ otherSlot]
        exact unmapped

/-- An empty range can be truncated. -/
theorem truncatable_of_le (empty : last ≤ first) : map.Truncatable first last where
  kept _ _ above below := absurd (Nat.lt_of_le_of_lt above below) (Nat.not_lt.mpr empty)
  hole _ above below := absurd (Nat.lt_of_le_of_lt above below) (Nat.not_lt.mpr empty)

/-- Truncating an empty range changes nothing. -/
theorem truncated_of_le (empty : last ≤ first) : map.truncated first last = map := by
  funext slot
  unfold truncated
  cases map slot with
  | none => rfl
  | some entries =>
    have same : clearRange first last slot entries = entries := by
      funext entry
      unfold clearRange
      rw [if_neg (by omega)]
    dsimp only
    rw [same, if_neg (by omega)]

/-- A walk that stands on a hole does nothing. -/
theorem walk_hole (count : Nat) (map : FileMap) (blk : Nat) : walk count .hole map blk = some map := by
  induction count generalizing blk with
  | zero => rfl
  | succ count ih => exact ih (blk + 1)

/-- A walk adds no index node. -/
theorem walk_none {count : Nat} {standing : Standing}
    (done : walk count standing map blk = some map') (missing : map slot = none) :
    map' slot = none := by
  induction count generalizing standing map blk with
  | zero =>
    cases done
    exact missing
  | succ count ih =>
    unfold walk at done
    split at done
    · split at done
      · cases done
      · rename_i entries here
        refine ih done ?_
        have apart : slot ≠ blk / indexSize := by
          rintro rfl
          rw [missing] at here
          cases here
        rw [clearBlock_of_ne entries apart]
        exact missing
    · exact ih done missing
    · exact ih done missing

/-- The walk over a range that begins at a missing index node. -/
theorem truncated_eq_self_iff (missing : map (first / indexSize) = none) (before : first < last) :
    map = map.truncated first last ↔ map.Truncatable first last := by
  constructor
  · intro same
    have unmapped : ∀ blk, first ≤ blk → blk < last → map.block blk = none := by
      intro blk above below
      rw [same]
      unfold block truncated
      cases map (blk / indexSize) with
      | none => rfl
      | some entries =>
        dsimp only
        split
        · rfl
        · change clearRange first last (blk / indexSize) entries (blk % indexSize) = none
          have inside : blk % indexSize < indexSize := Nat.mod_lt _ (by decide)
          unfold clearRange
          rw [place_eq, if_pos ⟨inside, above, below⟩]
    refine ⟨fun blk entries above below reaches found _ => ?_, fun blk above _ _ later after within =>
      unmapped later (by omega) within⟩
    have slot : blk / indexSize = first / indexSize := by
      by_contra apart
      have behind : first / indexSize < blk / indexSize :=
        lt_of_le_of_ne (Nat.div_le_div_right above) (Ne.symm apart)
      exact reaches _ (le_refl _) behind missing
    rw [slot, missing] at found
    cases found
  · intro truncatable
    have unmapped := truncatable.hole first (le_refl _) before missing
    funext slot
    unfold truncated
    cases here : map slot with
    | none => rfl
    | some entries =>
      have same : clearRange first last slot entries = entries := by
        funext entry
        unfold clearRange
        split
        · rename_i inside
          have place : (slot * indexSize + entry) / indexSize = slot ∧
              (slot * indexSize + entry) % indexSize = entry := by
            unfold indexSize at *
            omega
          have absent := unmapped _ inside.2.1 inside.2.2
          unfold block at absent
          rw [place.1, place.2, here] at absent
          exact absent.symm
        · rfl
      dsimp only
      rw [same, if_neg (by omega)]

/-- The walk over a range truncates it as it should exactly when that is possible. -/
theorem walk_eq_iff (count : Nat) {standing : Standing}
    (stands : standing = .unset ∨ standing = .node ∧ map (first / indexSize) ≠ none) :
    walk count standing map first = some (map.truncated first (first + count)) ↔
      map.Truncatable first (first + count) := by
  induction count generalizing standing map first with
  | zero =>
    rw [Nat.add_zero, truncated_of_le (Nat.le_refl _)]
    exact iff_of_true rfl (truncatable_of_le (Nat.le_refl _))
  | succ count ih =>
    have before : first < first + (count + 1) := by omega
    have shift : first + (count + 1) = first + 1 + count := by omega
    have place := place_eq first
    cases here : map (first / indexSize) with
    | none =>
      have unset : standing = .unset := stands.resolve_right fun both => both.2 here
      have holes : walk (count + 1) standing map first = some map := by
        unfold walk position
        rw [unset, here]
        exact walk_hole count map (first + 1)
      rw [holes, Option.some.injEq]
      exact truncated_eq_self_iff here before
    | some entries =>
      have positioned : map.position first standing = .node := by
        unfold position
        rcases stands with rfl | ⟨rfl, -⟩
        · rw [here]
          rfl
        · rfl
      have step : walk (count + 1) standing map first =
          walk count (advance first) (map.clearBlock first entries) (first + 1) := by
        rw [walk, positioned, here]
      rw [step]
      have slots : map.clearBlock first entries (first / indexSize) = _ :=
        clearBlock_self map first entries
      by_cases mapped : 0 < mappedCount entries
      · by_cases fine : 0 < mappedCount (Function.update entries (first % indexSize) none) ∨
            first + 1 = first + (count + 1) ∨ (first + 1) % indexSize = 0
        · rw [← truncatable_clearBlock_iff here before mapped fine,
            ← truncated_clearBlock here mapped before, shift]
          by_cases only : count = 0
          · subst only
            rw [Nat.add_zero, truncated_of_le (Nat.le_refl _)]
            exact iff_of_true rfl (truncatable_of_le (Nat.le_refl _))
          · refine ih ?_
            unfold advance
            split
            · exact .inl rfl
            · rename_i inside
              refine .inr ⟨rfl, ?_⟩
              have kept : 0 < mappedCount (Function.update entries (first % indexSize) none) := by
                rcases fine with kept | whole | full
                · exact kept
                · omega
                · exfalso
                  unfold indexSize at *
                  omega
              have slot : (first + 1) / indexSize = first / indexSize := by
                unfold indexSize at *
                omega
              rw [slot, slots, if_neg (Nat.ne_of_gt kept)]
              exact Option.some_ne_none _
        · rw [not_or, not_or] at fine
          have empty := mappedCount_eq_zero.mp (Nat.eq_zero_of_not_pos fine.1)
          refine iff_of_false ?_ (not_truncatable here before fun entry inside outside => ?_)
          · have inner : advance first = .node ∧ (first + 1) / indexSize = first / indexSize := by
              unfold advance
              have inside : ¬ first % indexSize + 1 ≥ indexSize := by
                unfold indexSize at *
                omega
              rw [if_neg inside]
              refine ⟨rfl, ?_⟩
              unfold indexSize at *
              omega
            obtain ⟨rounds, rfl⟩ : ∃ rounds, count = rounds + 1 := ⟨count - 1, by omega⟩
            have gone : map.clearBlock first entries (first / indexSize) = none := by
              rw [slots, if_pos (Nat.eq_zero_of_not_pos fine.1)]
            have fails : walk (rounds + 1) .node (map.clearBlock first entries) (first + 1) =
                none := by
              unfold walk position
              rw [inner.2, gone]
            rw [inner.1, fails]
            exact (Option.some_ne_none _).symm
          · have apart : entry ≠ first % indexSize := by
              rintro rfl
              unfold indexSize at *
              omega
            have absent := empty entry inside
            rwa [Function.update_of_ne apart] at absent
      · have empty := mappedCount_eq_zero.mp (Nat.eq_zero_of_not_pos mapped)
        refine iff_of_false (fun done => ?_) (not_truncatable here before fun entry inside _ =>
          empty entry inside)
        have gone : map.clearBlock first entries (first / indexSize) = none := by
          rw [slots, if_pos]
          refine mappedCount_eq_zero.mpr fun entry inside => ?_
          by_cases same : entry = first % indexSize
          · rw [same, Function.update_self]
          · rw [Function.update_of_ne same]
            exact empty entry inside
        have lost := walk_none done gone
        unfold truncated at lost
        rw [here] at lost
        dsimp only at lost
        rw [if_neg fun both => mapped both.1] at lost
        cases lost

/-! ## The part of a map inside the table -/

/-- A map that differs from another one only inside the table. -/
structure SameOutside (map map' : FileMap) : Prop where
  /-- Slots outside of the table. -/
  slots : ∀ slot, indexTableSize ≤ slot → map' slot = map slot
  /-- Entries outside of an index node. -/
  entries : ∀ slot entries', map' slot = some entries' → ∃ entries, map slot = some entries ∧
    ∀ entry, indexSize ≤ entry → entries' entry = entries entry

/-- Two maps are the same inside the table. -/
structure SameInside (map map' : FileMap) : Prop where
  /-- The same slots have an index node. -/
  slots : ∀ slot < indexTableSize, map slot = none ↔ map' slot = none
  /-- They map the same entries. -/
  entries : ∀ slot < indexTableSize, ∀ entries entries', map slot = some entries →
    map' slot = some entries' → ∀ entry < indexSize, entries entry = entries' entry

/-- Nothing differs. -/
theorem SameOutside.refl (map : FileMap) : map.SameOutside map :=
  ⟨fun _ _ => rfl, fun _ entries found => ⟨entries, found, fun _ _ => rfl⟩⟩

/-- One difference after another. -/
theorem SameOutside.trans {map'' : FileMap} (first : map.SameOutside map')
    (second : map'.SameOutside map'') : map.SameOutside map'' := by
  refine ⟨fun slot outside => (second.slots slot outside).trans (first.slots slot outside),
    fun slot entries'' found'' => ?_⟩
  obtain ⟨entries', found', same'⟩ := second.entries slot entries'' found''
  obtain ⟨entries, found, same⟩ := first.entries slot entries' found'
  exact ⟨entries, found, fun entry outside => (same' entry outside).trans (same entry outside)⟩

/-- Removing a block of the table. -/
theorem SameOutside.clearBlock (here : map (blk / indexSize) = some entries)
    (inside : blk < maxFileBlks) : map.SameOutside (map.clearBlock blk entries) := by
  refine ⟨fun slot outside => clearBlock_of_ne entries fun same => ?_, fun slot entries' found => ?_⟩
  · unfold maxFileBlks indexSize indexTableSize at *
    omega
  · by_cases same : slot = blk / indexSize
    · rw [same, clearBlock_self] at found
      split at found
      · cases found
      · rw [Option.some.injEq] at found
        refine ⟨entries, same ▸ here, fun entry outside => ?_⟩
        rw [← found, Function.update_of_ne]
        have entryIn : blk % indexSize < indexSize := Nat.mod_lt _ (by decide)
        omega
    · rw [clearBlock_of_ne entries same] at found
      exact ⟨entries', found, fun _ _ => rfl⟩

/-- A walk over blocks of the table. -/
theorem SameOutside.walk {count : Nat} {standing : Standing}
    (done : walk count standing map blk = some map') (inside : blk + count ≤ maxFileBlks) :
    map.SameOutside map' := by
  induction count generalizing standing map blk with
  | zero =>
    cases done
    exact .refl _
  | succ count ih =>
    unfold FileMap.walk at done
    split at done
    · split at done
      · cases done
      · rename_i entries here
        exact (clearBlock here (by omega)).trans (ih done (by omega))
    · exact ih done (by omega)
    · exact ih done (by omega)

/-- Truncating a range of the table. -/
theorem SameOutside.truncated (map : FileMap) (first : Nat) (inside : last ≤ maxFileBlks) :
    map.SameOutside (map.truncated first last) := by
  refine ⟨fun slot outside => ?_, fun slot entries' found => ?_⟩
  · unfold FileMap.truncated
    cases map slot with
    | none => rfl
    | some entries =>
      have same : clearRange first last slot entries = entries := by
        funext entry
        unfold clearRange
        rw [if_neg]
        unfold maxFileBlks indexSize indexTableSize at *
        omega
      dsimp only
      rw [same, if_neg]
      omega
  · unfold FileMap.truncated at found
    cases here : map slot with
    | none =>
      rw [here] at found
      cases found
    | some entries =>
      rw [here] at found
      dsimp only at found
      split at found
      · cases found
      · rw [Option.some.injEq] at found
        refine ⟨entries, rfl, fun entry outside => ?_⟩
        rw [← found]
        unfold clearRange
        rw [if_neg]
        omega

/-- Two maps that are the same inside of the table, and outside of it the same as a third one. -/
theorem eq_of_sameInside {origin : FileMap} (first : origin.SameOutside map)
    (second : origin.SameOutside map') (same : map.SameInside map') : map = map' := by
  funext slot
  by_cases inside : slot < indexTableSize
  · cases here : map slot with
    | none => exact ((same.slots slot inside).mp here).symm
    | some entries =>
      cases there : map' slot with
      | none =>
        have absent := (same.slots slot inside).mpr there
        rw [here] at absent
        cases absent
      | some entries' =>
        obtain ⟨old, found, outside⟩ := first.entries slot entries here
        obtain ⟨old', found', outside'⟩ := second.entries slot entries' there
        rw [found, Option.some.injEq] at found'
        subst found'
        congr 1
        funext entry
        by_cases entryIn : entry < indexSize
        · exact same.entries slot inside entries entries' here there entry entryIn
        · rw [outside entry (Nat.le_of_not_lt entryIn), outside' entry (Nat.le_of_not_lt entryIn)]
  · rw [first.slots slot (Nat.le_of_not_lt inside), second.slots slot (Nat.le_of_not_lt inside)]

end FileMap

end FsChecking.F2fs
