import FsChecking.F2fs.FileWalk
import FsChecking.F2fs.Unmap

/-!
# Truncating a file

The loop of `FileTruncateInternal` on a file system that holds a file does what the walk does on the
block map of the file, so it truncates a range exactly if and only if the walk can.
-/

namespace FsChecking.F2fs

open Lib FileMap

variable {fs fs' : Fs} {ipage page slot entry blk count first last : Nat} {map map' : FileMap}
  {entries : Entries} {owner owner' : Nat → Nat × Option Nat} {free free' : List Nat}
  {path : IndexPath} {standing : Standing}

/-! ## One step -/

/-- A free page that still shows an empty index node. -/
structure Stale (fs : Fs) (page : Nat) : Prop where
  /-- It is free. -/
  idle : (fs.pages.page page).inUse = false
  /-- It shows the id of the node. -/
  nid : (fs.pages.page page).data.node.nid < nodeNr
  /-- It counts no mapped entry. -/
  validData : (fs.pages.page page).data.node.index.validData = 0
  /-- It shows no mapped entry. -/
  index : ∀ entry < indexSize, (fs.pages.page page).data.node.index.index entry = invalidBlk

/-- Unmapping an entry of an index node. -/
theorem FileAt.unmap (file : FileAt fs ipage map owner free) (inside : slot < indexTableSize)
    (here : map slot = some entries) (cache : fs.nat.nodeCache (fs.slotNid ipage slot) = page)
    (cached : page ≠ invalidPage) (entryIn : entry < indexSize) :
    ∃ fs', doIf ((fs.pages.page page).data.node.index.index entry ≠ invalidBlk)
        (clearEntry ipage page entry ((fs.pages.page page).data.node.index.index entry)) fs =
          .ok ⟨⟩ fs' ∧
      FileAt fs' ipage (Function.update map slot (some (Function.update entries entry none))) owner
        free ∧
      Effect fs fs' ipage map
        (Function.update map slot (some (Function.update entries entry none))) ∧
      fs'.nat.nodeCache (fs'.slotNid ipage slot) = page := by
  have shows := file.shows inside here (cache ▸ cached)
  rw [cache] at shows
  have shown := shows.index entry entryIn
  unfold doIf
  cases mapped : entries entry with
  | none =>
    rw [mapped, Option.getD_none] at shown
    have same : Function.update map slot (some (Function.update entries entry none)) = map := by
      rw [← mapped, Function.update_eq_self, ← here, Function.update_eq_self]
    rw [if_neg (not_not.mpr shown), same]
    exact ⟨fs, rfl, file, Unmoved.effect ⟨rfl, rfl, rfl, rfl, rfl, rfl⟩, cache⟩
  | some blk =>
    rw [mapped, Option.getD_some] at shown
    obtain ⟨below, valid, -⟩ := file.blocks slot inside entries here entry entryIn blk mapped
    have isBlock : blk ≠ invalidBlk := by
      rintro rfl
      exact absurd below (by decide)
    have apart : page ≠ ipage :=
      cache ▸ ((file.node slot inside entries here).cached (cache ▸ cached)).2.1
    rw [shown, if_pos isBlock, clearEntry_eq file.counted below valid entry]
    refine ⟨_, rfl, file.withoutBlock inside here cache cached entryIn mapped,
      file.effect_withoutBlock inside here cache cached entryIn mapped, ?_⟩
    rw [slotNid_withoutBlock _ apart entry blk slot]
    exact cache

/-- The part of the loop for an index node. -/
theorem FileAt.truncateEntry (file : FileAt fs ipage map owner free)
    (inside : blk / indexSize < indexTableSize) (here : map (blk / indexSize) = some entries)
    (cache : fs.nat.nodeCache (fs.slotNid ipage (blk / indexSize)) = page)
    (cached : page ≠ invalidPage) (slot : path.slot = blk / indexSize)
    (entry : path.entry = blk % indexSize) :
    ∃ fs' free', truncateEntry ipage page path fs = .ok ⟨⟩ fs' ∧
      FileAt fs' ipage (map.clearBlock blk entries) owner free' ∧
      Effect fs fs' ipage map (map.clearBlock blk entries) ∧
      (map.clearBlock blk entries (blk / indexSize) = none → Stale fs' page) ∧
      (map.clearBlock blk entries (blk / indexSize) ≠ none →
        fs'.nat.nodeCache (fs'.slotNid ipage (blk / indexSize)) = page) := by
  have entryIn : blk % indexSize < indexSize := Nat.mod_lt _ (by decide)
  obtain ⟨fs₁, clears, file₁, effect₁, cache₁⟩ := file.unmap inside here cache cached entryIn
  let kept := Function.update entries (blk % indexSize) none
  have here₁ : Function.update map (blk / indexSize) (some kept) (blk / indexSize) = some kept :=
    Function.update_self ..
  have shows := file₁.shows inside here₁ (cache₁ ▸ cached)
  rw [cache₁] at shows
  have program : F2fs.truncateEntry ipage page path fs =
      doIf ((fs₁.pages.page page).data.node.index.validData = 0)
        (F2fs.dropIndexNode ipage page path.slot) fs₁ := by
    unfold F2fs.truncateEntry
    rw [getData_bind_apply, entry]
    refine (bind_apply ..).trans ?_
    have same := clears
    unfold clearEntry at same
    rw [same]
    rfl
  have cleared : map.clearBlock blk entries =
      Function.update map (blk / indexSize) (if mappedCount kept = 0 then none else some kept) := rfl
  rw [program, shows.validData, slot, clearBlock_self, cleared]
  unfold doIf
  by_cases empty : mappedCount kept = 0
  · have drops := file₁.dropIndexNode inside here₁ cache₁ cached
    have pageAfter := (file₁.withoutNode_page inside here₁ cache₁ cached).1
    have file₂ := file₁.withoutNode inside here₁ cache₁ cached empty
    have effect₂ := file₁.effect_withoutNode inside here₁ cache₁ cached empty
    rw [Function.update_idem] at file₂ effect₂
    rw [if_pos empty, if_pos empty, drops]
    refine ⟨_, _, rfl, file₂, effect₁.trans effect₂, fun _ => ?_, fun some => absurd rfl some⟩
    refine ⟨?_, ?_, ?_, fun other otherIn => ?_⟩
    · rw [pageAfter]
    · rw [pageAfter]
      refine Eq.trans_lt shows.nid (file₁.node _ inside kept here₁).inside
    · rw [pageAfter]
      exact shows.validData.trans empty
    · rw [pageAfter]
      refine (shows.index other otherIn).trans ?_
      rw [FileMap.mappedCount_eq_zero.mp empty other otherIn]
      rfl
  · rw [if_neg empty, if_neg empty]
    exact ⟨fs₁, free, rfl, file₁, effect₁, fun none => absurd none (Option.some_ne_none _),
      fun _ => cache₁⟩

/-- The part of the loop for an index node that has been given up throws. -/
theorem Stale.truncateEntry (stale : Stale fs page) (entryIn : path.entry < indexSize) :
    ∀ fs', truncateEntry ipage page path fs ≠ .ok ⟨⟩ fs' := by
  intro fs' done
  unfold F2fs.truncateEntry at done
  rw [getData_bind_apply, doIf_bind_of_not (not_not.mpr (stale.index _ entryIn)),
    getData_bind_apply, doIf_eq_ok] at done
  rcases done with ⟨-, drops⟩ | ⟨counted, -⟩
  · unfold dropIndexNode setNodeCache at drops
    rw [getData_bind_apply, throwIf_bind_of_not (Nat.not_le.mpr stale.nid), modify_bind_apply,
      bind_eq_ok] at drops
    obtain ⟨_, _, frees, -⟩ := drops
    have used := (zoom_free_eq_ok.mp frees).1
    exact absurd (used.symm.trans stale.idle) (by decide)
  · exact counted stale.validData

/-! ## The loop -/

/-- A path stands on a block of a file. -/
def Stands (fs : Fs) (ipage : Nat) (path : IndexPath) (map : FileMap) (blk : Nat) :
    Standing → Prop
  | .unset => path.positioned = false ∧ path.inode = ipage
  | .hole => path.positioned = true ∧ path.node = none
  | .node => path.positioned = true ∧ path.inode = ipage ∧ path.slot = blk / indexSize ∧
      path.entry = blk % indexSize ∧ ∃ page, path.node = some page ∧ page ≠ invalidPage ∧
        (map (blk / indexSize) = none → Stale fs page) ∧
        (map (blk / indexSize) ≠ none → fs.nat.nodeCache (fs.slotNid ipage (blk / indexSize)) = page)

/-- Positioning a path on a block of a file. -/
theorem FileAt.positionPath (file : FileAt fs ipage map owner free)
    (inside : standing = .unset → blk < maxFileBlks) (stands : Stands fs ipage path map blk standing) :
    ∃ path' fs' free', positionPath path blk fs = .ok path' fs' ∧
      FileAt fs' ipage map owner free' ∧ Effect fs fs' ipage map map ∧
      Stands fs' ipage path' map blk (map.position blk standing) := by
  have still : Effect fs fs ipage map map := Unmoved.effect ⟨rfl, rfl, rfl, rfl, rfl, rfl⟩
  unfold F2fs.positionPath
  cases standing with
  | hole =>
    rw [if_pos stands.1]
    exact ⟨path, fs, free, rfl, file, still, stands⟩
  | node =>
    rw [if_pos stands.1]
    exact ⟨path, fs, free, rfl, file, still, stands⟩
  | unset =>
    obtain ⟨unset, inode⟩ := stands
    have below := inside rfl
    have slotIn : blk / indexSize < indexTableSize := by
      unfold maxFileBlks indexSize indexTableSize at *
      omega
    have small : word blk = blk := by
      unfold word
      unfold maxFileBlks indexSize indexTableSize at below
      omega
    rw [if_neg (by rw [unset]; exact Bool.false_ne_true)]
    unfold offsetToIndex
    rw [small, bind_assoc]
    rw [throwIf_bind_of_not (Nat.not_le.mpr slotIn)]
    rw [bind_assoc, inode, getData_bind_apply]
    have nid : (fs.pages.page ipage).data.node.inode.index (blk / indexSize) =
        fs.slotNid ipage (blk / indexSize) := rfl
    rw [nid]
    cases found : map (blk / indexSize) with
    | none =>
      have missing := file.hole _ slotIn found
      have nothing : newIndexNode ipage (blk / indexSize) false fs = .ok (some none) fs := by
        unfold newIndexNode
        rw [if_pos rfl, pure_apply]
      refine ⟨{
        inode := ipage, positioned := true, slot := blk / indexSize, entry := blk % indexSize
        node := none }, fs, free, ?_, file, still, ?_⟩
      · rw [if_pos missing, bind_assoc, bind_apply, nothing]
        rfl
      · unfold position
        rw [found]
        exact ⟨rfl, rfl⟩
    | some entries =>
      have present := (file.node _ slotIn entries found).ne_invalidBlk
      obtain ⟨page, fs', free', reads, file', cache, cached, unmoved⟩ := file.readNode slotIn found
      refine ⟨{
        inode := ipage, positioned := true, slot := blk / indexSize, entry := blk % indexSize
        node := some page }, fs', free', ?_, file', unmoved.effect, ?_⟩
      · rw [if_neg present, bind_assoc, bind_apply, reads]
        rfl
      · unfold position
        rw [found]
        refine ⟨rfl, rfl, rfl, rfl, page, rfl, cached, fun none => ?_, fun _ => ?_⟩
        · rw [found] at none
          cases none
        · have slots : fs'.slotNid ipage (blk / indexSize) = fs.slotNid ipage (blk / indexSize) :=
            congrArg (fun info : PageInfo => info.data.node.inode.index (blk / indexSize))
              unmoved.inode
          rw [slots]
          exact cache

/-- Positioning a path behind the blocks of an inode is out of bounds. -/
theorem positionPath_beyond {path' : IndexPath} (unset : path.positioned = false)
    (beyond : maxFileBlks ≤ blk) (small : blk < 2 ^ 16) : positionPath path blk fs ≠ .ok path' fs' := by
  intro done
  have same : word blk = blk := Nat.mod_eq_of_lt small
  have outside : word blk / indexSize ≥ indexTableSize := by
    rw [same]
    unfold maxFileBlks indexSize indexTableSize at *
    omega
  unfold F2fs.positionPath offsetToIndex at done
  rw [if_neg (by rw [unset]; exact Bool.false_ne_true), bind_eq_ok] at done
  obtain ⟨found, fs₁, indexes, -⟩ := done
  rw [throwIf_bind_of outside] at indexes
  cases indexes

/-- The path behind a block of an index node. -/
theorem Stands.next {entries' : Entries} (stands : Stands fs ipage path map blk .node)
    (freed : map.clearBlock blk entries' (blk / indexSize) = none → path.node = some page →
      Stale fs' page)
    (stays : map.clearBlock blk entries' (blk / indexSize) ≠ none → path.node = some page →
      fs'.nat.nodeCache (fs'.slotNid ipage (blk / indexSize)) = page)
    (here : path.node = some page) :
    Stands fs' ipage (nextOffset path) (map.clearBlock blk entries') (blk + 1) (advance blk) := by
  obtain ⟨positioned, inode, slot, entry, page', node, cached, -⟩ := stands
  rw [here, Option.some.injEq] at node
  subst node
  unfold nextOffset advance
  rw [entry]
  split
  · exact ⟨rfl, inode⟩
  · rename_i inside
    have sameSlot : (blk + 1) / indexSize = blk / indexSize := by
      unfold indexSize at *
      omega
    have nextEntry : (blk + 1) % indexSize = blk % indexSize + 1 := by
      unfold indexSize at *
      omega
    refine ⟨positioned, inode, slot.trans sameSlot.symm, nextEntry.symm, page, here, cached, ?_, ?_⟩
    · rw [sameSlot]
      exact fun gone => freed gone here
    · rw [sameSlot]
      exact fun left => stays left here

/-- The loop does what the walk does. -/
theorem FileAt.truncateBlocks (file : FileAt fs ipage map owner free)
    (stands : Stands fs ipage path map blk standing)
    (inside : standing = .node → blk < maxFileBlks) (small : blk + count ≤ 2 ^ 16) :
    (FileMap.tableWalk count standing map blk = none →
      ∀ fs', truncateBlocks ipage count path blk fs ≠ .ok ⟨⟩ fs') ∧
    ∀ map', FileMap.tableWalk count standing map blk = some map' →
      ∃ fs' free', truncateBlocks ipage count path blk fs = .ok ⟨⟩ fs' ∧
        FileAt fs' ipage map' owner free' ∧ Effect fs fs' ipage map map' := by
  induction count generalizing fs path map blk standing free with
  | zero =>
    refine ⟨fun none => absurd none (Option.some_ne_none _), fun map' same => ?_⟩
    cases same
    exact ⟨fs, free, rfl, file, Unmoved.effect ⟨rfl, rfl, rfl, rfl, rfl, rfl⟩⟩
  | succ count ih =>
    by_cases beyond : standing = .unset ∧ maxFileBlks ≤ blk
    · -- the slot is outside of the table
      unfold FileMap.tableWalk F2fs.truncateBlocks
      rw [if_pos beyond]
      refine ⟨fun _ fs' done => ?_, fun map' same => by cases same⟩
      obtain ⟨path', fs₁, positions, -⟩ := bind_eq_ok.mp done
      have unset := beyond.1 ▸ stands
      exact positionPath_beyond unset.1 beyond.2 (by omega) positions
    obtain ⟨path', fs₁, free₁, positions, file₁, effect₁, stands₁⟩ :=
      file.positionPath (fun unset => by by_contra outside; exact beyond ⟨unset, by omega⟩) stands
    unfold FileMap.tableWalk F2fs.truncateBlocks
    rw [if_neg beyond, bind_apply, positions]
    cases stood : map.position blk standing with
    | unset =>
      unfold position at stood
      split at stood
      · split at stood
        · cases stood
        · cases stood
      · rename_i notUnset
        exact absurd stood notUnset
    | hole =>
      rw [stood] at stands₁
      have onward : Stands fs₁ ipage path' map (blk + 1) .hole := stands₁
      obtain ⟨fails, walks⟩ := ih file₁ onward (fun node => by cases node) (by omega)
      dsimp only
      rw [stands₁.2]
      refine ⟨fails, fun map' walked => ?_⟩
      obtain ⟨fs', free', run, file', effect'⟩ := walks map' walked
      exact ⟨fs', free', run, file', effect₁.trans effect'⟩
    | node =>
      rw [stood] at stands₁
      obtain ⟨_, _, slot, entry, page, node, cached, stale, cache⟩ := id stands₁
      have below : blk < maxFileBlks := by
        cases standing with
        | unset => exact Nat.lt_of_not_le fun outside => beyond ⟨rfl, outside⟩
        | hole => cases stood
        | node => exact inside rfl
      have slotIn : blk / indexSize < indexTableSize := by
        unfold maxFileBlks indexSize indexTableSize at *
        omega
      have entryIn : path'.entry < indexSize := entry ▸ Nat.mod_lt _ (by decide)
      dsimp only
      rw [node]
      cases found : map (blk / indexSize) with
      | none =>
        dsimp only
        refine ⟨fun _ fs' done => ?_, fun map' walked => absurd walked.symm (Option.some_ne_none _)⟩
        obtain ⟨_, fs₂, ends, -⟩ := bind_eq_ok.mp done
        exact (stale found).truncateEntry entryIn fs₂ ends
      | some entries =>
        have some : map (blk / indexSize) ≠ none := by
          rw [found]
          exact Option.some_ne_none _
        obtain ⟨fs₂, free₂, run₂, file₂, effect₂, gone, left⟩ :=
          file₁.truncateEntry slotIn found (cache some) cached slot entry
        have stands₂ : Stands fs₂ ipage (nextOffset path') _ (blk + 1) (advance blk) :=
          stands₁.next (fun none _ => gone none) (fun some _ => left some) node
        have inside₂ : advance blk = .node → blk + 1 < maxFileBlks := by
          unfold advance
          split
          · exact fun node => by cases node
          · intro _
            unfold maxFileBlks indexSize indexTableSize at *
            omega
        obtain ⟨fails, walks⟩ := ih file₂ stands₂ inside₂ (by omega)
        dsimp only
        rw [bind_apply, run₂]
        refine ⟨fails, fun map' walked => ?_⟩
        obtain ⟨fs', free', run, file', effect'⟩ := walks map' walked
        exact ⟨fs', free', run, file', (effect₁.trans effect₂).trans effect'⟩

/-! ## Exactness -/

/-- A file system holds a file with one block map. -/
theorem FileAt.sameInside (file : FileAt fs ipage map owner free)
    (file' : FileAt fs ipage map' owner' free') : map.SameInside map' := by
  have missing : ∀ {map owner free}, FileAt fs ipage map owner free → ∀ slot < indexTableSize,
      map slot = none ↔ fs.slotNid ipage slot = invalidBlk := by
    intro map owner free file slot inside
    refine ⟨file.hole slot inside, fun absent => ?_⟩
    cases found : map slot with
    | none => rfl
    | some entries => exact absurd absent (file.node slot inside entries found).ne_invalidBlk
  refine ⟨fun slot inside => (missing file slot inside).trans (missing file' slot inside).symm,
    fun slot inside entries entries' here there entry entryIn => ?_⟩
  obtain ⟨shown, content, shows⟩ := (file.node slot inside entries here).shows
  obtain ⟨shown', content', shows'⟩ := (file'.node slot inside entries' there).shows
  rw [content, Option.some.injEq] at content'
  subst content'
  have equal := (shows.index entry entryIn).symm.trans (shows'.index entry entryIn)
  -- a mapped block is not the null block
  have isBlock : ∀ {map owner free entries}, FileAt fs ipage map owner free →
      map slot = some entries → ∀ blk, entries entry = some blk → blk ≠ invalidBlk := by
    rintro map owner free entries file here blk mapped rfl
    exact absurd (file.blocks slot inside entries here entry entryIn _ mapped).1 (by decide)
  cases mapped : entries entry with
  | none =>
    cases mapped' : entries' entry with
    | none => rfl
    | some blk =>
      rw [mapped, mapped'] at equal
      exact absurd equal.symm (isBlock file' there blk mapped')
  | some blk =>
    cases mapped' : entries' entry with
    | none =>
      rw [mapped, mapped'] at equal
      exact absurd equal (isBlock file here blk mapped)
    | some blk' =>
      rw [mapped, mapped'] at equal
      exact congrArg some equal

/-- A range of a file has been truncated, and nothing else has changed. -/
structure TruncatedExactly (fs fs' : Fs) (ipage : Nat) (map : FileMap) (first last : Nat) : Prop where
  /-- The file system holds the truncated file. -/
  file : ∃ owner free, FileAt fs' ipage (map.truncated first last) owner free
  /-- The blocks and nodes of the range are given back. -/
  effect : Effect fs fs' ipage map (map.truncated first last)

/-- `FileTruncateInternal` does what the walk does, also when the range goes on behind the blocks of
an inode. -/
theorem FileAt.fileTruncateTable (file : FileAt fs ipage map owner free) (first : Nat)
    (small : last ≤ 2 ^ 16) :
    (FileMap.tableWalk (last - first) .unset map first = none →
      ∀ fs', F2fs.fileTruncateInternal ipage first last fs ≠ .ok ⟨⟩ fs') ∧
    ∀ map', FileMap.tableWalk (last - first) .unset map first = some map' →
      ∃ fs' free', F2fs.fileTruncateInternal ipage first last fs = .ok ⟨⟩ fs' ∧
        FileAt fs' ipage map' owner free' ∧ Effect fs fs' ipage map map' := by
  by_cases before : first ≤ last
  · have unset : Stands fs ipage (.start ipage) map first .unset := ⟨rfl, rfl⟩
    exact file.truncateBlocks unset (fun node => by cases node) (by omega)
  · have none : last - first = 0 := by omega
    unfold F2fs.fileTruncateInternal
    rw [none]
    refine ⟨fun fails => absurd fails (Option.some_ne_none _), fun map' same => ?_⟩
    cases same
    exact ⟨fs, free, rfl, file, Unmoved.effect ⟨rfl, rfl, rfl, rfl, rfl, rfl⟩⟩

/-- `FileTruncateInternal` does what the walk does. -/
theorem FileAt.fileTruncateInternal (file : FileAt fs ipage map owner free) (first : Nat)
    (inside : last ≤ maxFileBlks) :
    (FileMap.walk (last - first) .unset map first = none →
      ∀ fs', fileTruncateInternal ipage first last fs ≠ .ok ⟨⟩ fs') ∧
    ∀ map', FileMap.walk (last - first) .unset map first = some map' →
      ∃ fs' free', fileTruncateInternal ipage first last fs = .ok ⟨⟩ fs' ∧
        FileAt fs' ipage map' owner free' ∧ Effect fs fs' ipage map map' := by
  by_cases before : first ≤ last
  · have within : first + (last - first) ≤ maxFileBlks := by omega
    rw [← tableWalk_eq_walk within]
    exact file.fileTruncateTable first (inside.trans (by decide))
  · have none : last - first = 0 := by omega
    have nothing := file.fileTruncateTable first (show last ≤ 2 ^ 16 from inside.trans (by decide))
    rw [none] at nothing ⊢
    exact nothing

/-- When the walk truncates a range. -/
theorem walk_eq_truncated_iff (map : FileMap) (first last : Nat) :
    FileMap.walk (last - first) .unset map first = some (map.truncated first last) ↔
      map.Truncatable first last := by
  by_cases before : first ≤ last
  · have whole : FileMap.walk (last - first) .unset map first = _ ↔ _ :=
      walk_eq_iff (last - first) (.inl rfl)
    rwa [Nat.add_sub_cancel' before] at whole
  · have none : last - first = 0 := by omega
    have le : last ≤ first := by omega
    rw [none, truncated_of_le le]
    exact iff_of_true rfl (truncatable_of_le le)

/-- `FileTruncateInternal` truncates a range exactly if and only if the last block of the range in
each index node that it reaches is mapped or the index node maps a block outside of the range, and
nothing of the range is mapped behind a missing index node. -/
theorem fileTruncateInternal_exact_iff (file : FileAt fs ipage map owner free)
    (inside : last ≤ maxFileBlks) :
    (∃ fs', fileTruncateInternal ipage first last fs = .ok ⟨⟩ fs' ∧
      TruncatedExactly fs fs' ipage map first last) ↔ map.Truncatable first last := by
  obtain ⟨fails, walks⟩ := file.fileTruncateInternal first inside
  rw [← walk_eq_truncated_iff]
  constructor
  · rintro ⟨fs', run, exactly⟩
    cases walked : FileMap.walk (last - first) .unset map first with
    | none => exact absurd run (fails walked fs')
    | some map' =>
      obtain ⟨fs'', free', run', file', -⟩ := walks map' walked
      rw [run] at run'
      cases run'
      obtain ⟨owner', free'', file''⟩ := exactly.file
      have outside : map.SameOutside map' := by
        by_cases before : first ≤ last
        · exact .walk walked (by omega)
        · have none : last - first = 0 := by omega
          rw [none] at walked
          cases walked
          exact .refl _
      exact congrArg some
        (eq_of_sameInside outside (.truncated map first inside) (file'.sameInside file''))
  · intro walked
    obtain ⟨fs', free', run, file', effect⟩ := walks _ walked
    exact ⟨fs', run, ⟨owner, free', file'⟩, effect⟩

/-! ## Removing a file -/

/-- The inode of a file in its page. -/
structure InodeAt (fs : Fs) (ipage ino : Nat) (map : FileMap) : Prop where
  /-- It knows its id. -/
  nid : (fs.pages.page ipage).data.node.nid = ino
  /-- The id is inside the table. -/
  inside : ino < nodeNr
  /-- It is not an index node of the file. -/
  apart : ∀ slot < indexTableSize, map slot ≠ none → fs.slotNid ipage slot ≠ ino
  /-- It has not been written, or its block is valid and not a block of the file. -/
  address : fs.nat.nat ino = nidInUse ∨ fs.nat.nat ino < mainBlkNr ∧
    fs.segments.isValid (fs.nat.nat ino) = true ∧ ¬ Owned fs ipage map (fs.nat.nat ino)

/-- Every index node of a file maps a block, and every mapped block lies below an end. -/
def Covered (map : FileMap) (last : Nat) : Prop :=
  ∀ slot < indexTableSize, ∀ entries, map slot = some entries → 0 < mappedCount entries ∧
    ∀ entry < indexSize, entries entry ≠ none → slot * indexSize + entry < last

/-- The blocks and nodes of a file are given back, and no others. -/
structure Released (fs fs' : Fs) (ipage ino : Nat) (map : FileMap) : Prop where
  /-- The blocks of the file and of its nodes become invalid. -/
  valid : ∀ blk < mainBlkNr, fs'.segments.isValid blk = true ↔
    fs.segments.isValid blk = true ∧ ¬ Owned fs ipage map blk ∧ blk ≠ fs.nat.nat ino
  /-- The index nodes are given back. -/
  index : ∀ slot < indexTableSize, map slot ≠ none →
    fs'.nat.nat (fs.slotNid ipage slot) = invalidBlk
  /-- The inode is given back. -/
  inode : fs'.nat.nat ino = invalidBlk
  /-- The other nodes stay. -/
  others : ∀ nid, nid ≠ ino → (∀ slot < indexTableSize, map slot ≠ none →
    fs.slotNid ipage slot ≠ nid) → fs'.nat.nat nid = fs.nat.nat nid
  /-- The nodes are counted. -/
  freeNr : fs'.nat.freeNr = fs.nat.freeNr +
    ((Finset.range indexTableSize).filter fun slot => (map slot).isSome).card + 1

/-- The inode after its file has been truncated. -/
theorem InodeAt.effect {ino : Nat} (inode : InodeAt fs ipage ino map)
    (effect : Effect fs fs' ipage map map') : InodeAt fs' ipage ino map' := by
  have kept : fs'.nat.nat ino = fs.nat.nat ino := by
    rcases effect.nat ino with ⟨⟨slot, slotIn, dropped, here⟩, -⟩ | ⟨-, same⟩
    · exact absurd here (inode.apart slot slotIn dropped.1)
    · exact same
  refine ⟨?_, inode.inside, fun slot slotIn some => ?_, ?_⟩
  · obtain ⟨_, _, node⟩ := effect.inode
    rw [node]
    exact inode.nid
  · have before : map slot ≠ none := fun missing => some (effect.fewer slot missing)
    rw [effect.slots slot slotIn, if_neg fun dropped => some dropped.2]
    exact inode.apart slot slotIn before
  · rw [kept]
    rcases inode.address with unwritten | ⟨below, valid, foreign⟩
    · exact .inl unwritten
    · exact .inr ⟨below, (effect.valid _ below).mpr ⟨valid, fun owned => absurd owned foreign⟩,
        fun owned => foreign (effect.owned _ below owned)⟩

/-- The file system without an inode. -/
def Fs.withoutInode (fs : Fs) (ipage ino : Nat) : Fs :=
  let uncached := { fs.nat with nodeCache := Function.update fs.nat.nodeCache ino invalidPage }
  { fs with
    segments := fs.segments.withoutAddress (fs.nat.nat ino)
    nat := uncached.withoutNode ino
    pages := fs.pages.release ipage }

/-- `FileRemove` gives up the inode when the file has been truncated. -/
theorem FileAt.fileRemove {ino : Nat} (truncated : F2fs.fileTruncateInternal ipage 0
      (word (getFileBlks (fs.pages.page ipage).data.node.inode)) fs = .ok ⟨⟩ fs')
    (file : FileAt fs' ipage map' owner free) (inode : InodeAt fs' ipage ino map') :
    F2fs.fileRemove ipage fs = .ok ⟨⟩ (fs'.withoutInode ipage ino) := by
  let uncached : Fs :=
    { fs' with nat := { fs'.nat with nodeCache := Function.update fs'.nat.nodeCache ino invalidPage } }
  let released : Fs := { uncached with pages := fs'.pages.release ipage }
  have frees : pagesLens.zoom (F2fs.free ipage) uncached = .ok ⟨⟩ released :=
    zoom_free_eq_ok.mpr ⟨file.inode.2,
      file.pool.usedNr_ne_zero (file.pool.notMem file.inode.2) file.inode.1, rfl⟩
  have puts : putNode ino released = _ :=
    putNode_of_uncached inode.inside (Function.update_self ..)
    file.counted fun _ written => by
      rcases inode.address with unwritten | ⟨below, valid, -⟩
      · exact absurd unwritten written
      · exact ⟨below, valid⟩
  unfold F2fs.fileRemove setNodeCache
  rw [getData_bind_apply, bind_apply, truncated]
  dsimp only
  rw [getData_bind_apply, inode.nid, throwIf_bind_of_not (Nat.not_le.mpr inode.inside),
    modify_bind_apply, bind_apply, frees]
  dsimp only
  rw [puts]
  rfl

/-- Truncating a whole file leaves no index node. -/
theorem Covered.truncated (covered : Covered map last) (inside : slot < indexTableSize) :
    map.truncated 0 last slot = none := by
  unfold FileMap.truncated
  cases here : map slot with
  | none => rfl
  | some entries =>
    obtain ⟨mapped, below⟩ := covered slot inside entries here
    have nothing : mappedCount (clearRange 0 last slot entries) = 0 := by
      refine FileMap.mappedCount_eq_zero.mpr fun entry entryIn => ?_
      unfold clearRange
      split
      · rfl
      · rename_i outside
        by_contra some
        exact outside ⟨entryIn, Nat.zero_le _, below entry entryIn some⟩
    dsimp only
    rw [if_pos ⟨mapped, nothing⟩]

/-- What giving up an inode leaves, when its file has been truncated to nothing. -/
theorem InodeAt.released {ino : Nat} (inode : InodeAt fs ipage ino map)
    (effect : Effect fs fs' ipage map map') (empty : ∀ slot < indexTableSize, map' slot = none) :
    Released fs (fs'.withoutInode ipage ino) ipage ino map := by
  have address : fs'.nat.nat ino = fs.nat.nat ino := by
    rcases effect.nat ino with ⟨⟨slot, slotIn, dropped, here⟩, -⟩ | ⟨-, same⟩
    · exact absurd here (inode.apart slot slotIn dropped.1)
    · exact same
  have nothing : ∀ blk, ¬ Owned fs' ipage map' blk := by
    rintro blk (⟨slot, slotIn, entries, here, -⟩ | ⟨slot, slotIn, some, -⟩)
    · rw [empty slot slotIn] at here
      cases here
    · exact some (empty slot slotIn)
  have dropped : ∀ slot < indexTableSize, map slot ≠ none → Dropped map map' slot :=
    fun slot slotIn some => ⟨some, empty slot slotIn⟩
  have other : ∀ nid, nid ≠ ino → (fs'.withoutInode ipage ino).nat.nat nid = fs'.nat.nat nid :=
    fun nid apart => Function.update_of_ne apart ..
  refine ⟨fun blk below => ?_, fun slot slotIn some => ?_, Function.update_self ..,
    fun nid notInode notIndex => ?_, ?_⟩
  · change (fs'.segments.withoutAddress _).isValid blk = true ↔ _
    rw [isValid_withoutAddress _ _ below, address, Bool.and_eq_true, effect.valid blk below]
    simp only [nothing, Bool.not_eq_true', decide_eq_false_iff_not, ne_eq, and_assoc]
  · rw [other _ (inode.apart slot slotIn some)]
    rcases effect.nat (fs.slotNid ipage slot) with ⟨-, freed⟩ | ⟨notDropped, -⟩
    · exact freed
    · exact absurd rfl (notDropped slot slotIn (dropped slot slotIn some))
  · rw [other nid notInode]
    rcases effect.nat nid with ⟨⟨slot, slotIn, gone, here⟩, -⟩ | ⟨-, same⟩
    · exact absurd here (notIndex slot slotIn gone.1)
    · exact same
  · have all : droppedSlots map map' =
        (Finset.range indexTableSize).filter fun slot => (map slot).isSome := by
      refine Finset.filter_congr fun slot member => ?_
      rw [Option.isSome_iff_ne_none]
      exact ⟨And.left, dropped slot (Finset.mem_range.mp member)⟩
    change fs'.nat.freeNr + 1 = _
    rw [effect.freeNr, all]

/-- `FileRemove` releases every block and node of a file whose index nodes all map a block below the
end of the file, if and only if the file can be truncated from its first block on. -/
theorem fileRemove_releases_iff {ino : Nat} (file : FileAt fs ipage map owner free)
    (inode : InodeAt fs ipage ino map)
    (inside : word (getFileBlks (fs.pages.page ipage).data.node.inode) ≤ maxFileBlks)
    (covered : Covered map (word (getFileBlks (fs.pages.page ipage).data.node.inode))) :
    (∃ fs', fileRemove ipage fs = .ok ⟨⟩ fs' ∧ Released fs fs' ipage ino map) ↔
      map.Truncatable 0 (word (getFileBlks (fs.pages.page ipage).data.node.inode)) := by
  generalize whole : word (getFileBlks (fs.pages.page ipage).data.node.inode) = last
  rw [whole] at inside covered
  obtain ⟨fails, walks⟩ := file.fileTruncateInternal 0 inside
  rw [← walk_eq_truncated_iff]
  constructor
  · rintro ⟨fs', run, released⟩
    cases walked : FileMap.walk (last - 0) .unset map 0 with
    | none =>
      unfold fileRemove at run
      rw [getData_bind_apply, whole, bind_eq_ok] at run
      obtain ⟨_, fs₁, truncated, -⟩ := run
      exact absurd truncated (fails walked fs₁)
    | some map' =>
      obtain ⟨fs₁, free', truncated, file', effect⟩ := walks map' walked
      have same := FileAt.fileRemove (whole.symm ▸ truncated) file' (inode.effect effect)
      rw [run] at same
      cases same
      -- an index node that is left is not given back
      have empty : ∀ slot < indexTableSize, map' slot = none := by
        intro slot slotIn
        cases here : map slot with
        | none => exact effect.fewer slot here
        | some entries =>
          have some : map slot ≠ none := by
            rw [here]
            exact Option.some_ne_none _
          have freed := released.index slot slotIn some
          have stays : (fs₁.withoutInode ipage ino).nat.nat (fs.slotNid ipage slot) =
              fs₁.nat.nat (fs.slotNid ipage slot) :=
            Function.update_of_ne (inode.apart slot slotIn some) ..
          rw [stays] at freed
          by_contra left
          rcases effect.nat (fs.slotNid ipage slot) with ⟨⟨other, otherIn, gone, here'⟩, -⟩ | ⟨-, kept⟩
          · have different : other ≠ slot := by
              rintro rfl
              exact left gone.2
            exact (file.apart other otherIn slot slotIn different gone.1 some).1 here'
          · rw [kept] at freed
            exact (file.node slot slotIn entries here).allocated freed
      refine congrArg some (eq_of_sameInside (.walk walked (by omega)) (.truncated map 0 inside)
        ⟨fun slot slotIn => ?_, fun slot slotIn entries entries' here => ?_⟩)
      · exact iff_of_true (empty slot slotIn) (covered.truncated slotIn)
      · rw [empty slot slotIn] at here
        cases here
  · intro walked
    obtain ⟨fs₁, free', truncated, file', effect⟩ := walks _ walked
    exact ⟨_, FileAt.fileRemove (whole.symm ▸ truncated) file' (inode.effect effect),
      inode.released effect fun slot slotIn => covered.truncated slotIn⟩

/-- `FileTruncateInternal` truncates a range exactly, and `FileRemove` releases a file, if and only
if the range can be truncated. -/
theorem truncate_exact_iff (file : FileAt fs ipage map owner free) :
    (∀ first last, last ≤ maxFileBlks →
      ((∃ fs', fileTruncateInternal ipage first last fs = .ok ⟨⟩ fs' ∧
        TruncatedExactly fs fs' ipage map first last) ↔ map.Truncatable first last)) ∧
    ∀ ino last, InodeAt fs ipage ino map →
      word (getFileBlks (fs.pages.page ipage).data.node.inode) = last → last ≤ maxFileBlks →
      Covered map last →
      ((∃ fs', fileRemove ipage fs = .ok ⟨⟩ fs' ∧ Released fs fs' ipage ino map) ↔
        map.Truncatable 0 last) := by
  refine ⟨fun first last inside => fileTruncateInternal_exact_iff file inside, ?_⟩
  rintro ino _ inode rfl inside covered
  exact fileRemove_releases_iff file inode inside covered

/-- The block map of a file that maps only its first block. -/
def oneBlockMap : FileMap :=
  Function.update (fun _ => none) 0 (some (Function.update (fun _ => none) 0 (some 0)))

/-- A file system with a file of one block in block 0. The inode has id 0 and page 0, the index node
id 1 and page 1; neither has been written yet. -/
def oneBlockFile : Fs :=
  let pool := PageAllocator.take (PageAllocator.take Fs.zeroed.pages.initial)
  { Fs.zeroed with
    segments :=
      { Fs.zeroed.segments with
        segments := Function.update (fun _ => { SegmentInfo.ones with validBmp := 0, validBlkNr := 0 })
          0 { SegmentInfo.ones with validBmp := 1, validBlkNr := 1 } }
    nat :=
      { Fs.zeroed.nat with
        nat := fun nid => if nid < 2 then nidInUse else invalidBlk
        nodeCache := fun nid => if nid < 2 then nid else invalidPage }
    pages := (pool.update 0 fun info =>
      { info with data := { info.data with node := { info.data.node with
        nid := 0
        inode := { info.data.node.inode with
          blkNum := 1, fileSize := blockSize
          index := Function.update (fun _ => invalidBlk) 0 1 } } } }).update 1 fun info =>
      { info with data := { info.data with node := { info.data.node with
        nid := 1
        index := { info.data.node.index with
          validData := 1, index := Function.update (fun _ => invalidBlk) 0 0 } } } } }

/-- The only index node of the file of one block. -/
theorem oneBlockMap_eq_some (here : oneBlockMap slot = some entries) :
    slot = 0 ∧ entries = Function.update (fun _ => none) 0 (some 0) := by
  unfold oneBlockMap at here
  by_cases same : slot = 0
  · rw [same, Function.update_self, Option.some.injEq] at here
    exact ⟨same, here.symm⟩
  · rw [Function.update_of_ne same] at here
    cases here

/-- The file of one block. -/
theorem fileAt_oneBlockFile :
    FileAt oneBlockFile 0 oneBlockMap (fun _ => (0, some 0)) (List.range' 2 2046) := by
  have onlyFirst : ∀ slot, oneBlockMap slot ≠ none → slot = 0 := by
    intro slot some
    obtain ⟨entries, here⟩ := Option.ne_none_iff_exists'.mp some
    exact (oneBlockMap_eq_some here).1
  refine
    { pool := ?_
      room := ?_
      counted := ?_
      inode := ⟨by decide, by decide +kernel⟩
      blkNum := by decide +kernel
      hole := ?_
      node := ?_
      apart := ?_
      blocks := ?_
      address := ?_ }
  · have pages : List.range maxPageNum = 0 :: 1 :: List.range' 2 2046 := by
      have size : maxPageNum = 2046 + 1 + 1 := rfl
      rw [List.range_eq_range', size, List.range'_succ, List.range'_succ]
    have all := FreePages.initial Fs.zeroed.pages
    rw [pages] at all
    have notFirst : 0 ∉ List.range' 2 2046 := by simp
    have notSecond : 1 ∉ List.range' 2 2046 := by simp
    unfold oneBlockFile
    dsimp only
    exact (all.take.take.update notFirst _).update notSecond _
  · have none : uncachedSlots oneBlockFile 0 oneBlockMap = ∅ := by
      refine Finset.filter_eq_empty_iff.mpr fun slot _ both => ?_
      rw [onlyFirst slot (Option.isSome_iff_ne_none.mp both.1)] at both
      exact absurd both.2 (by decide +kernel)
    rw [none, Finset.card_empty]
    exact Nat.zero_le _
  · intro seg _
    unfold oneBlockFile
    dsimp only
    by_cases first : seg = 0
    · rw [first, Function.update_self]
      decide
    · rw [Function.update_of_ne first]
      decide
  · intro slot _ missing
    have other : slot ≠ 0 := by
      rintro rfl
      unfold oneBlockMap at missing
      rw [Function.update_self] at missing
      cases missing
    change Function.update (fun _ => invalidBlk) 0 1 slot = invalidBlk
    rw [Function.update_of_ne other]
  · intro slot _ entries here
    obtain ⟨rfl, rfl⟩ := oneBlockMap_eq_some here
    refine ⟨by decide +kernel, by decide +kernel, fun _ => by decide +kernel, fun missing => ?_,
      _, content_of_cached (by decide +kernel), by decide +kernel, by decide +kernel, ?_⟩
    · exact absurd missing (by decide +kernel)
    · decide +kernel
  · intro slot _ other _ different some some'
    rw [onlyFirst slot some, onlyFirst other some'] at different
    exact absurd rfl different
  · intro slot _ entries here entry _ blk mapped
    obtain ⟨rfl, rfl⟩ := oneBlockMap_eq_some here
    by_cases first : entry = 0
    · rw [first, Function.update_self, Option.some.injEq] at mapped
      rw [← mapped, first]
      exact ⟨by decide, by decide +kernel, rfl⟩
    · rw [Function.update_of_ne first] at mapped
      cases mapped
  · intro slot _ some
    rw [onlyFirst slot some]
    left
    decide +kernel

/-- The file of one block can be truncated. -/
theorem oneBlockMap_truncatable : oneBlockMap.Truncatable 0 1 := by
  refine ⟨fun blk entries _ below _ here _ => .inl ?_, fun blk _ below missing => ?_⟩
  · obtain rfl : blk = 0 := by omega
    rw [(oneBlockMap_eq_some here).2]
    exact Option.some_ne_none _
  · obtain rfl : blk = 0 := by omega
    exact absurd missing (Option.some_ne_none _)

/-- The file of one block is truncated and removed. -/
theorem truncate_exact_iff_oneBlock :
    (∃ fs', fileTruncateInternal 0 0 1 oneBlockFile = .ok ⟨⟩ fs' ∧
      TruncatedExactly oneBlockFile fs' 0 oneBlockMap 0 1) ∧
    ∃ fs', fileRemove 0 oneBlockFile = .ok ⟨⟩ fs' ∧ Released oneBlockFile fs' 0 0 oneBlockMap := by
  obtain ⟨truncates, removes⟩ := truncate_exact_iff fileAt_oneBlockFile
  have inode : InodeAt oneBlockFile 0 0 oneBlockMap := by
    refine ⟨by decide +kernel, by decide, fun slot _ some => ?_, .inl (by decide +kernel)⟩
    obtain ⟨entries, here⟩ := Option.ne_none_iff_exists'.mp some
    rw [(oneBlockMap_eq_some here).1]
    decide +kernel
  have covered : Covered oneBlockMap 1 := by
    intro slot _ entries here
    obtain ⟨rfl, rfl⟩ := oneBlockMap_eq_some here
    refine ⟨by decide, fun entry _ some => ?_⟩
    by_contra outside
    rw [Function.update_of_ne (by omega)] at some
    exact some rfl
  exact ⟨(truncates 0 1 (by decide)).mpr oneBlockMap_truncatable,
    (removes 0 1 inode (by decide +kernel) (by decide) covered).mpr oneBlockMap_truncatable⟩

/-- Truncating a range that goes on behind the last mapped block of an index node frees the page of
the index node twice. -/
theorem truncate_frees_twice :
    ¬ ∀ fs ipage map owner free first last, FileAt fs ipage map owner free → last ≤ maxFileBlks →
      ∃ fs', fileTruncateInternal ipage first last fs = .ok ⟨⟩ fs' ∧
        TruncatedExactly fs fs' ipage map first last := by
  intro exact
  obtain ⟨fs', run, -⟩ := exact oneBlockFile 0 oneBlockMap _ _ 0 2 fileAt_oneBlockFile (by decide)
  have fails : returned (fileTruncateInternal 0 0 2 oneBlockFile) = false := by decide +kernel
  rw [run] at fails
  cases fails

end FsChecking.F2fs
