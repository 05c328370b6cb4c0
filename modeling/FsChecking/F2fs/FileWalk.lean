import FsChecking.F2fs.FileMap

/-!
# Which blocks a walk removes

A range may go on behind the blocks of an inode, where looking up an index node is out of bounds.
`tableWalk` is the loop of the simulator with that failure. Here it is said when it finishes, and
which blocks it has removed then.
-/

namespace FsChecking.F2fs

namespace FileMap

variable {map map' : FileMap} {entries : Entries} {first last : Nat} {standing : Standing}

/-- The loop over a number of blocks, which fails when it looks up an index node outside of the
table or gives up an index node once more. -/
def tableWalk : Nat → Standing → FileMap → Nat → Option FileMap
  | 0, _, map, _ => some map
  | count + 1, standing, map, blk =>
    if standing = .unset ∧ maxFileBlks ≤ blk then none
    else
      match map.position blk standing with
      | .node =>
        match map (blk / indexSize) with
        | none => none
        | some entries => tableWalk count (advance blk) (map.clearBlock blk entries) (blk + 1)
      | .unset | .hole => tableWalk count .hole map (blk + 1)

/-- Inside the table it is the walk. -/
theorem tableWalk_eq_walk {count : Nat} (inside : first + count ≤ maxFileBlks) :
    tableWalk count standing map first = walk count standing map first := by
  induction count generalizing standing map first with
  | zero => rfl
  | succ count ih =>
    have below : ¬ (standing = .unset ∧ maxFileBlks ≤ first) := by omega
    have later : ∀ standing map, tableWalk count standing map (first + 1) =
        walk count standing map (first + 1) := fun standing map => ih (by omega)
    rw [tableWalk, walk, if_neg below]
    cases map.position first standing with
    | node =>
      cases map (first / indexSize) with
      | none => rfl
      | some entries => exact later _ _
    | unset => exact later _ _
    | hole => exact later _ _

/-- A walk that stands on a hole does nothing. -/
theorem tableWalk_hole (count : Nat) (map : FileMap) (blk : Nat) :
    tableWalk count .hole map blk = some map := by
  induction count generalizing blk with
  | zero => rfl
  | succ count ih => exact ih (blk + 1)

/-- The walk from a slot without an index node. -/
theorem tableWalk_of_none {count : Nat} (inside : first < maxFileBlks)
    (missing : map (first / indexSize) = none) : tableWalk count .unset map first = some map := by
  cases count with
  | zero => rfl
  | succ count =>
    have position : map.position first .unset = .hole := by
      unfold FileMap.position
      rw [missing]
      rfl
    unfold tableWalk
    rw [if_neg (by omega), position]
    exact tableWalk_hole count map (first + 1)

/-- The path of a walk stands on the index node of a block, or is to be positioned on it. -/
def OnNode (blk : Nat) (standing : Standing) : Prop :=
  standing = .unset ∧ blk < maxFileBlks ∨ standing = .node

/-- The walk from a slot with an index node. -/
theorem tableWalk_of_some {count : Nat} (here : map (first / indexSize) = some entries)
    (stands : OnNode first standing) :
    tableWalk (count + 1) standing map first =
      tableWalk count (advance first) (map.clearBlock first entries) (first + 1) := by
  have position : map.position first standing = .node := by
    unfold FileMap.position
    rcases stands with ⟨rfl, -⟩ | rfl
    · rw [here]
      rfl
    · rfl
  have below : ¬ (standing = .unset ∧ maxFileBlks ≤ first) := by
    rintro ⟨rfl, beyond⟩
    rcases stands with ⟨-, inside⟩ | node
    · omega
    · cases node
  rw [tableWalk, if_neg below, position, here]

/-! ## One block -/

/-- The blocks of a map without one of them. -/
theorem block_clearBlock (here : map (first / indexSize) = some entries) (blk : Nat) :
    (map.clearBlock first entries).block blk = if blk = first then none else map.block blk := by
  have place := place_eq blk
  have place' := place_eq first
  unfold block
  by_cases slot : blk / indexSize = first / indexSize
  · rw [slot, clearBlock_self, here]
    have other : blk ≠ first → blk % indexSize ≠ first % indexSize := by
      intro apart same
      rw [slot, same] at place
      omega
    split
    · rename_i empty
      have unmapped := mappedCount_eq_zero.mp empty _ (Nat.mod_lt blk (by decide))
      split
      · rfl
      · rename_i apart
        rw [Function.update_of_ne (other apart)] at unmapped
        exact unmapped.symm
    · change Function.update entries _ none _ = _
      split
      · rename_i same
        rw [same, Function.update_self]
      · rename_i apart
        rw [Function.update_of_ne (other apart)]
        rfl
  · rw [clearBlock_of_ne entries slot, if_neg]
    rintro rfl
    exact slot rfl

/-- Which later blocks are reached does not depend on a first block that has been removed, when its
index node is still there or has no other block. -/
theorem reaches_clearBlock (here : map (first / indexSize) = some entries)
    (alive : map.clearBlock first entries (first / indexSize) ≠ none ∨ (first + 1) % indexSize = 0)
    (blk : Nat) : (map.clearBlock first entries).Reaches (first + 1) blk ↔ map.Reaches first blk := by
  have later : first / indexSize ≤ (first + 1) / indexSize := Nat.div_le_div_right (Nat.le_succ _)
  constructor
  · intro reaches slot above below
    by_cases same : slot = first / indexSize
    · rw [same, here]
      exact Option.some_ne_none _
    · rw [← @clearBlock_of_ne map _ _ entries same]
      refine reaches slot ?_ below
      unfold indexSize at *
      omega
  · intro reaches slot above below
    by_cases same : slot = first / indexSize
    · rw [same]
      refine alive.resolve_right fun full => ?_
      unfold indexSize at *
      omega
    · rw [clearBlock_of_ne entries same]
      exact reaches slot (later.trans above) below

/-- A walk that goes on behind a block finds its index node, or the next one inside the table. -/
theorem tableWalk_goes_on {count : Nat}
    (done : tableWalk (count + 1) (advance first) (map.clearBlock first entries) (first + 1) =
      some map') : OnNode (first + 1) (advance first) ∧
      (map.clearBlock first entries (first / indexSize) ≠ none ∨ (first + 1) % indexSize = 0) := by
  unfold tableWalk at done
  unfold OnNode
  unfold advance at done ⊢
  split
  · rename_i full
    rw [if_pos full] at done
    refine ⟨.inl ⟨rfl, ?_⟩, .inr ?_⟩
    · by_contra beyond
      rw [if_pos ⟨rfl, Nat.le_of_not_lt beyond⟩] at done
      cases done
    · unfold indexSize at *
      omega
  · rename_i inside
    rw [if_neg inside, if_neg (by simp)] at done
    refine ⟨.inr rfl, .inl fun gone => ?_⟩
    have slot : (first + 1) / indexSize = first / indexSize := by
      unfold indexSize at *
      omega
    unfold FileMap.position at done
    rw [slot, gone] at done
    cases done

/-- The index node that the path stands on behind a block. -/
theorem present_of_advance
    (alive : map.clearBlock first entries (first / indexSize) ≠ none ∨ (first + 1) % indexSize = 0)
    (node : advance first = .node) : map.clearBlock first entries ((first + 1) / indexSize) ≠ none := by
  unfold advance at node
  split at node
  · cases node
  · rename_i inside
    have slot : (first + 1) / indexSize = first / indexSize := by
      unfold indexSize at *
      omega
    rw [slot]
    refine alive.resolve_right fun full => inside ?_
    unfold indexSize at *
    omega

/-! ## What is removed -/

/-- A walk that finishes has removed the blocks of its range that it has reached. -/
theorem tableWalk_block {count : Nat} (stands : OnNode first standing)
    (here : standing = .node → map (first / indexSize) ≠ none)
    (done : tableWalk count standing map first = some map') (blk : Nat) :
    (first ≤ blk → blk < first + count → map.Reaches first blk → map'.block blk = none) ∧
      (¬ (first ≤ blk ∧ blk < first + count ∧ map.Reaches first blk) →
        map'.block blk = map.block blk) := by
  induction count generalizing standing map first with
  | zero =>
    cases done
    exact ⟨fun above below => absurd above (by omega), fun _ => rfl⟩
  | succ count ih =>
    cases found : map (first / indexSize) with
    | none =>
      have unset : standing = .unset ∧ first < maxFileBlks :=
        stands.resolve_right fun node => here node found
      rw [unset.1, tableWalk_of_none unset.2 found] at done
      cases done
      refine ⟨fun above _ reaches => ?_, fun _ => rfl⟩
      have slot : blk / indexSize = first / indexSize := by
        by_contra apart
        exact reaches _ (le_refl _)
          (lt_of_le_of_ne (Nat.div_le_div_right above) (Ne.symm apart)) found
      unfold block
      rw [slot, found]
      rfl
    | some entries =>
      rw [tableWalk_of_some found stands] at done
      have cleared := block_clearBlock found
      by_cases only : count = 0
      · subst only
        cases done
        refine ⟨fun above below _ => ?_, fun outside => ?_⟩
        · rw [cleared, if_pos (by omega)]
        · rw [cleared, if_neg]
          rintro rfl
          exact outside ⟨le_refl _, by omega, fun slot above below => by omega⟩
      · obtain ⟨more, rfl⟩ : ∃ more, count = more + 1 := ⟨count - 1, by omega⟩
        obtain ⟨stands', alive⟩ := tableWalk_goes_on done
        obtain ⟨removed, kept⟩ := ih stands' (present_of_advance alive) done
        rw [reaches_clearBlock found alive] at removed kept
        refine ⟨fun above below reaches => ?_, fun outside => ?_⟩
        · by_cases same : blk = first
          · rw [kept (by omega), cleared, if_pos same]
          · exact removed (by omega) (by omega) reaches
        · have apart : blk ≠ first := by
            rintro rfl
            exact outside ⟨le_refl _, by omega, fun slot above below => by omega⟩
          rw [kept fun inside => outside ⟨by omega, by omega, inside.2.2⟩, cleared, if_neg apart]

/-! ## When it finishes -/

/-- The maps and ranges that the walk finishes on. -/
structure Finishes (map : FileMap) (first last : Nat) : Prop where
  /-- No index node that is reached runs empty before the last block of the range in it. -/
  kept : ∀ blk entries, first ≤ blk → blk + 1 < last → (blk + 1) % indexSize ≠ 0 →
    map.Reaches first blk → map (blk / indexSize) = some entries →
    ∃ entry < indexSize, entries entry ≠ none ∧
      ¬ (first ≤ blk / indexSize * indexSize + entry ∧ blk / indexSize * indexSize + entry ≤ blk)
  /-- The range ends inside the inode, is empty, or meets a missing index node. -/
  inside : last ≤ maxFileBlks ∨ last ≤ first ∨
    ∃ slot < indexTableSize, first / indexSize ≤ slot ∧ map slot = none

/-- The mapped entries of an index node that is left. -/
theorem clearBlock_entries {slot : Nat} {kept : Entries}
    (here : map (first / indexSize) = some entries)
    (left : map.clearBlock first entries slot = some kept) : ∃ whole, map slot = some whole ∧
      ∀ entry < indexSize, kept entry ≠ none ↔
        whole entry ≠ none ∧ slot * indexSize + entry ≠ first := by
  have place := place_eq first
  by_cases same : slot = first / indexSize
  · rw [same, clearBlock_self] at left
    split at left
    · cases left
    · rw [Option.some.injEq] at left
      refine ⟨entries, same ▸ here, fun entry inside => ?_⟩
      rw [← left]
      by_cases removed : entry = first % indexSize
      · rw [removed, Function.update_self]
        exact iff_of_false (fun some => some rfl) fun both => both.2 (by rw [same, place])
      · rw [Function.update_of_ne removed]
        refine ⟨fun some => ⟨some, ?_⟩, And.left⟩
        rw [same]
        omega
  · rw [clearBlock_of_ne entries same] at left
    refine ⟨kept, left, fun entry inside => ⟨fun some => ⟨some, ?_⟩, And.left⟩⟩
    unfold indexSize at *
    omega

/-- An index node is left when it maps another block. -/
theorem clearBlock_ne_none_iff : map.clearBlock first entries (first / indexSize) ≠ none ↔
    ∃ entry < indexSize, entries entry ≠ none ∧ first / indexSize * indexSize + entry ≠ first := by
  have place := place_eq first
  rw [clearBlock_self]
  have counts : mappedCount (Function.update entries (first % indexSize) none) ≠ 0 ↔
      ∃ entry < indexSize, entries entry ≠ none ∧ entry ≠ first % indexSize := by
    rw [← Nat.pos_iff_ne_zero, mappedCount_pos]
    refine exists_congr fun entry => and_congr_right fun _ => ?_
    by_cases removed : entry = first % indexSize
    · rw [removed, Function.update_self]
      exact iff_of_false (fun some => some rfl) fun both => both.2 rfl
    · rw [Function.update_of_ne removed]
      exact (and_iff_left removed).symm
  have others : (∃ entry < indexSize, entries entry ≠ none ∧ entry ≠ first % indexSize) ↔
      ∃ entry < indexSize, entries entry ≠ none ∧
        first / indexSize * indexSize + entry ≠ first := by
    refine exists_congr fun entry => and_congr_right fun _ => and_congr_right fun _ => ?_
    omega
  rw [← others, ← counts]
  split
  · rename_i empty
    exact iff_of_false (fun some => some rfl) fun left => left empty
  · rename_i left
    exact iff_of_true (Option.some_ne_none _) left

/-- Whether the walk finishes on the rest of a range. -/
theorem finishes_clearBlock_iff (here : map (first / indexSize) = some entries)
    (more : first + 1 < last)
    (alive : map.clearBlock first entries (first / indexSize) ≠ none ∨ (first + 1) % indexSize = 0) :
    (map.clearBlock first entries).Finishes (first + 1) last ↔ map.Finishes first last := by
  have reaches := reaches_clearBlock here alive
  have holes : (∃ slot < indexTableSize, (first + 1) / indexSize ≤ slot ∧
      map.clearBlock first entries slot = none) ↔
      ∃ slot < indexTableSize, first / indexSize ≤ slot ∧ map slot = none := by
    constructor
    · rintro ⟨slot, inside, above, gone⟩
      have apart : slot ≠ first / indexSize := by
        rintro rfl
        refine alive.elim (fun left => left gone) fun full => ?_
        unfold indexSize at *
        omega
      rw [clearBlock_of_ne entries apart] at gone
      exact ⟨slot, inside, (Nat.div_le_div_right (Nat.le_succ _)).trans above, gone⟩
    · rintro ⟨slot, inside, above, gone⟩
      have apart : slot ≠ first / indexSize := by
        rintro rfl
        rw [here] at gone
        cases gone
      refine ⟨slot, inside, ?_, (clearBlock_of_ne entries apart).trans gone⟩
      unfold indexSize at *
      omega
  constructor
  · intro finishes
    refine ⟨fun blk whole above within partly reached found => ?_,
      finishes.inside.imp id (Or.imp (fun empty => by omega) holes.mp)⟩
    have left : map.clearBlock first entries (blk / indexSize) ≠ none := by
      by_cases same : blk / indexSize = first / indexSize
      · rw [same]
        refine alive.resolve_right fun full => ?_
        unfold indexSize at *
        omega
      · rw [clearBlock_of_ne entries same, found]
        exact Option.some_ne_none _
    obtain ⟨kept, there⟩ := Option.ne_none_iff_exists'.mp left
    obtain ⟨whole', found', same⟩ := clearBlock_entries here there
    rw [found, Option.some.injEq] at found'
    subst found'
    by_cases start : blk = first
    · subst start
      obtain ⟨entry, inside, mapped, apart⟩ :=
        clearBlock_ne_none_iff.mp (alive.resolve_right partly)
      rw [here, Option.some.injEq] at found
      subst found
      exact ⟨entry, inside, mapped, by omega⟩
    · obtain ⟨entry, inside, mapped, outside⟩ := finishes.kept blk kept (by omega) within partly
        ((reaches blk).mpr reached) there
      obtain ⟨mapped, apart⟩ := (same entry inside).mp mapped
      exact ⟨entry, inside, mapped, by omega⟩
  · intro finishes
    refine ⟨fun blk kept above within partly reached there => ?_,
      finishes.inside.imp id (Or.imp (fun empty => by omega) holes.mpr)⟩
    obtain ⟨whole, found, same⟩ := clearBlock_entries here there
    obtain ⟨entry, inside, mapped, outside⟩ := finishes.kept blk whole (by omega) within partly
      ((reaches blk).mp reached) found
    exact ⟨entry, inside, (same entry inside).mpr ⟨mapped, by omega⟩, by omega⟩

/-- The walk finishes exactly on these ranges. -/
theorem tableWalk_isSome_iff (count : Nat) {standing : Standing}
    (stands : standing = .unset ∨ standing = .node ∧ map (first / indexSize) ≠ none ∧
      first < maxFileBlks) :
    (tableWalk count standing map first).isSome ↔ map.Finishes first (first + count) := by
  induction count generalizing standing map first with
  | zero =>
    refine iff_of_true rfl ⟨fun blk _ above below => ?_, .inr (.inl (le_refl _))⟩
    omega
  | succ count ih =>
    by_cases below : first < maxFileBlks
    · cases found : map (first / indexSize) with
      | none =>
        have unset : standing = .unset := stands.resolve_right fun node => node.2.1 found
        rw [unset, tableWalk_of_none below found]
        refine iff_of_true rfl ⟨fun blk entries above _ _ reaches present => ?_, ?_⟩
        · have slot : blk / indexSize = first / indexSize := by
            by_contra apart
            exact reaches _ (le_refl _)
              (lt_of_le_of_ne (Nat.div_le_div_right above) (Ne.symm apart)) found
          rw [slot, found] at present
          cases present
        · refine .inr (.inr ⟨first / indexSize, ?_, le_refl _, found⟩)
          unfold maxFileBlks indexSize indexTableSize at *
          omega
      | some entries =>
        have onNode : OnNode first standing :=
          stands.imp (fun unset => ⟨unset, below⟩) (fun node => node.1)
        rw [tableWalk_of_some found onNode]
        by_cases only : count = 0
        · subst only
          refine iff_of_true rfl ⟨fun blk _ above within => ?_, .inl (by omega)⟩
          omega
        · obtain ⟨more, rfl⟩ : ∃ more, count = more + 1 := ⟨count - 1, by omega⟩
          have shift : first + (more + 1 + 1) = first + 1 + (more + 1) := by omega
          rw [shift]
          by_cases alive : map.clearBlock first entries (first / indexSize) ≠ none ∨
              (first + 1) % indexSize = 0
          · rw [← finishes_clearBlock_iff found (by omega) alive]
            refine ih ?_
            by_cases full : first % indexSize + 1 ≥ indexSize
            · left
              unfold advance
              rw [if_pos full]
            · right
              have node : advance first = .node := by
                unfold advance
                rw [if_neg full]
              refine ⟨node, present_of_advance alive node, ?_⟩
              unfold maxFileBlks indexSize indexTableSize at *
              omega
          · refine iff_of_false (fun some => ?_) fun finishes => alive (.inl ?_)
            · obtain ⟨map', done⟩ := Option.isSome_iff_exists.mp some
              exact alive (tableWalk_goes_on done).2
            · obtain ⟨entry, inside, mapped, apart⟩ := finishes.kept first entries (le_refl _)
                (by omega) (fun full => alive (.inr full)) (fun slot above below => by omega) found
              exact clearBlock_ne_none_iff.mpr ⟨entry, inside, mapped, by omega⟩
    · have unset : standing = .unset := stands.resolve_right fun node => below node.2.2
      have fails : tableWalk (count + 1) standing map first = none := by
        unfold tableWalk
        rw [if_pos ⟨unset, Nat.le_of_not_lt below⟩]
      rw [fails]
      refine iff_of_false (by simp) fun finishes => ?_
      rcases finishes.inside with inside | empty | ⟨slot, slotIn, above, -⟩
      · omega
      · omega
      · unfold maxFileBlks indexSize indexTableSize at *
        omega

/-- What a walk over a range has removed when it finishes. -/
theorem tableWalk_removes (done : tableWalk (last - first) .unset map first = some map')
    (blk : Nat) :
    (first ≤ blk → blk < last → map.Reaches first blk → map'.block blk = none) ∧
      (¬ (first ≤ blk ∧ blk < last ∧ map.Reaches first blk) → map'.block blk = map.block blk) := by
  by_cases before : first < last
  · have inside : first < maxFileBlks := by
      by_contra beyond
      obtain ⟨count, more⟩ : ∃ count, last - first = count + 1 := ⟨last - first - 1, by omega⟩
      rw [more, tableWalk, if_pos ⟨rfl, Nat.le_of_not_lt beyond⟩] at done
      cases done
    have removes := tableWalk_block (.inl ⟨rfl, inside⟩) (fun node => by cases node) done blk
    rwa [Nat.add_sub_cancel' (le_of_lt before)] at removes
  · have none : last - first = 0 := by omega
    rw [none] at done
    cases done
    exact ⟨fun above below => absurd above (by omega), fun _ => rfl⟩

end FileMap

end FsChecking.F2fs
