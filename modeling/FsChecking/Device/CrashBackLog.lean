import FsChecking.Device.CrashHistory
import Mathlib.Data.List.TakeDrop

/-!
# Rolling back the crash disk

`BackLog` walks the entries before `m_cache_top` backwards, one step for each block, and takes every
entry that it meets out of its ring. As long as all of them are live, these are the live block writes
that have been issued last.
-/

namespace FsChecking.Device.Crash

open Lib

variable {cmds : List CmdEntry} {disk next : CrashDisk} {writes : List LiveWrite}
  {live refs : List EntryRef} {ref : EntryRef} {cmd base num : Nat}

/-- The block writes without the last ones. -/
def rollBack (writes : List LiveWrite) (num : Nat) : List LiveWrite :=
  writes.take (writes.length - num)

/-- Rolling back twice. -/
theorem rollBack_rollBack (writes : List LiveWrite) (first second : Nat) :
    rollBack (rollBack writes first) second = rollBack writes (first + second) := by
  unfold rollBack
  rw [List.take_take, List.length_take]
  congr 1
  omega

/-! ## The walk -/

/-- Roll back entries one after another. -/
def rollRefs (blkOf : EntryRef → Nat) : List EntryRef → CrashDisk → Option CrashDisk
  | [], disk => some disk
  | ref :: refs, disk => do
    let disk ← disk.cacheDeque (blkOf ref)
    rollRefs blkOf refs { disk with entries := setOffset disk.entries ref none }

/-- Roll back entries, and then others. -/
theorem rollRefs_append {blkOf : EntryRef → Nat} (first second : List EntryRef) :
    rollRefs blkOf (first ++ second) disk =
      (rollRefs blkOf first disk).bind (rollRefs blkOf second) := by
  induction first generalizing disk with
  | nil => rfl
  | cons ref first ih =>
    rw [List.cons_append, rollRefs, rollRefs, Option.bind_eq_bind, Option.bind_assoc]
    exact Option.bind_congr fun _ _ => ih

/-- `cache_deque` changes the mapping and links only. -/
theorem cacheDeque_kept {blk : Nat} (done : disk.cacheDeque blk = some next) :
    (∀ ref, (next.entries ref).offset = (disk.entries ref).offset) ∧
      { next with lbaMapping := disk.lbaMapping, entries := disk.entries } = disk := by
  unfold CrashDisk.cacheDeque at done
  cases mapped : disk.lbaMapping blk with
  | none =>
    rw [mapped] at done
    cases done
  | some cur =>
    rw [mapped] at done
    dsimp only at done
    split at done
    · rw [← Option.some.inj done]
      exact ⟨fun _ => rfl, rfl⟩
    · rw [← Option.some.inj done]
      exact ⟨fun ref => by simp only [offset_setPrev, offset_setNext], rfl⟩

/-- Rolling back invalidates the offsets of entries. -/
theorem rollRefs_offsets {blkOf : EntryRef → Nat} (done : rollRefs blkOf refs disk = some next) :
    (∀ ref ∈ refs, (next.entries ref).offset = none) ∧
      (∀ ref ∉ refs, (next.entries ref).offset = (disk.entries ref).offset) ∧
      { next with lbaMapping := disk.lbaMapping, entries := disk.entries } = disk := by
  induction refs generalizing disk with
  | nil =>
    rw [← Option.some.inj done]
    exact ⟨nofun, fun _ _ => rfl, rfl⟩
  | cons ref refs ih =>
    obtain ⟨dequed, first, rolled⟩ := Option.bind_eq_some_iff.mp done
    obtain ⟨kept, rest⟩ := cacheDeque_kept first
    obtain ⟨gone, others, same⟩ := ih rolled
    refine ⟨fun other listed => ?_, fun other absent => ?_, ?_⟩
    · by_cases later : other ∈ refs
      · exact gone other later
      · have here : other = ref := (List.mem_cons.mp listed).resolve_right later
        rw [others other later, here]
        exact offset_setOffset_self ..
    · rw [List.mem_cons, not_or] at absent
      rw [others other absent.2]
      exact (offset_setOffset_of_ne _ absent.1 _).trans (kept other)
    · have outer := congrArg (fun inner : CrashDisk =>
        { inner with lbaMapping := disk.lbaMapping, entries := disk.entries }) same
      exact outer.trans rest

/-- Rolling back leaves the commands alone. -/
theorem rollRefs_cmdCache {blkOf : EntryRef → Nat} (done : rollRefs blkOf refs disk = some next) :
    next.cmdCache = disk.cmdCache := by
  have same := congrArg CrashDisk.cmdCache (rollRefs_offsets done).2.2
  exact same

/-- The inner loop of `BackLog` rolls back entries of the command from its end. -/
theorem backBlocks_eq {blkOf : EntryRef → Nat} {start : Nat} (blkNr num : Nat)
    (blocks : ∀ index < blkNr, blkOf (cmd, index) = start + index) (disk : CrashDisk) :
    CrashDisk.backBlocks cmd start blkNr num disk =
      (rollRefs blkOf (((List.range blkNr).map fun index => (cmd, index)).reverse.take num)
        disk).map fun next => (num - blkNr, next) := by
  induction blkNr generalizing num disk with
  | zero =>
    rw [List.range_zero, List.map_nil, List.reverse_nil, List.take_nil]
    unfold CrashDisk.backBlocks
    rfl
  | succ blkNr ih =>
    rw [List.range_succ, List.map_append, List.reverse_append]
    cases num with
    | zero =>
      unfold CrashDisk.backBlocks
      rw [List.take_zero, Nat.zero_sub]
      rfl
    | succ num =>
      have inner := ih num fun index before => blocks index (Nat.lt_succ_of_lt before)
      unfold CrashDisk.backBlocks
      change _ = (rollRefs blkOf ((cmd, blkNr) ::
        (((List.range blkNr).map fun index => (cmd, index)).reverse.take num)) disk).map _
      rw [rollRefs, blocks blkNr (Nat.lt_succ_self _), Nat.succ_sub_succ]
      cases disk.cacheDeque (start + blkNr) with
      | none => rfl
      | some dequed => exact inner _

/-- Where `BackLog` stops. -/
def stop (cmds : List CmdEntry) : Nat → Nat → Nat
  | 0, _ => 0
  | cmd + 1, num =>
    match cmds[cmd]? with
    | some ⟨some lba, secs, _⟩ =>
      if num - blockCount lba secs = 0 then cmd + 1 else stop cmds cmd (num - blockCount lba secs)
    | _ => stop cmds cmd num

/-- `BackLog` stops at a command that it has reached. -/
theorem stop_le (cmds : List CmdEntry) (base num : Nat) : stop cmds base num ≤ base := by
  induction base generalizing num with
  | zero => exact le_refl _
  | succ cmd ih =>
    unfold stop
    split
    · split
      · exact le_refl _
      · exact Nat.le_succ_of_le (ih _)
    · exact Nat.le_succ_of_le (ih _)

/-- The entries that `BackLog` does not reach are before the command where it stops. -/
theorem before_stop (kept : ref ∈ (refsBelow cmds base).take ((refsBelow cmds base).length - num)) :
    ref.1 < stop cmds base num := by
  induction base generalizing num with
  | zero =>
    rw [refsBelow, List.take_nil] at kept
    cases kept
  | succ cmd ih =>
    have count : (cmdRefs cmds cmd).length = cmdBlocks cmds cmd := by
      unfold cmdRefs
      rw [List.length_map, List.length_range]
    have below : ref.1 < cmd + 1 := (mem_refsBelow.mp (List.mem_of_mem_take kept)).1
    rw [refsBelow, List.length_append, count] at kept
    have deeper : cmdBlocks cmds cmd ≤ num →
        ref.1 < stop cmds cmd (num - cmdBlocks cmds cmd) := by
      intro whole
      have same : (refsBelow cmds cmd).length + cmdBlocks cmds cmd - num =
          (refsBelow cmds cmd).length - (num - cmdBlocks cmds cmd) := by omega
      rw [same, List.take_append_of_le_length (Nat.sub_le _ _)] at kept
      exact ih kept
    unfold stop
    unfold cmdBlocks at deeper
    split
    · rename_i lba secs op entry
      rw [entry] at deeper
      split
      · exact below
      · exact deeper (by dsimp only; omega)
    · rename_i other
      split at deeper
      · rename_i lba secs op entry
        exact absurd entry (other lba secs op)
      · exact deeper (Nat.zero_le _)

/-- `BackLog` rolls back the last entries before `m_cache_top`. -/
theorem backLogFrom_eq (same : disk.cmdCache = cmds) (inside : base ≤ cmds.length) :
    CrashDisk.backLogFrom base num disk =
      (rollRefs (blkOf cmds) ((refsBelow cmds base).reverse.take num) disk).map fun next =>
        { next with cacheTop := stop cmds base num } := by
  induction base generalizing num disk with
  | zero =>
    unfold refsBelow
    rw [List.reverse_nil, List.take_nil]
    rfl
  | succ cmd ih =>
    obtain ⟨entry, found⟩ : ∃ entry, cmds[cmd]? = some entry :=
      ⟨cmds[cmd], List.getElem?_eq_getElem inside⟩
    have count : (cmdRefs cmds cmd).length = cmdBlocks cmds cmd := by
      unfold cmdRefs
      rw [List.length_map, List.length_range]
    unfold CrashDisk.backLogFrom stop
    rw [refsBelow, List.reverse_append, List.take_append, List.length_reverse, count, same, found]
    obtain ⟨lba, secs, op⟩ := entry
    cases lba with
    | none =>
      have noBlocks : cmdBlocks cmds cmd = 0 := by
        unfold cmdBlocks
        rw [found]
      have noRefs : cmdRefs cmds cmd = [] := List.length_eq_zero_iff.mp (count.trans noBlocks)
      rw [noRefs, noBlocks, List.reverse_nil, List.take_nil, List.nil_append]
      exact ih same (Nat.le_of_succ_le inside)
    | some lba =>
      have blocks : cmdBlocks cmds cmd = blockCount lba secs := by
        unfold cmdBlocks
        rw [found]
      have refs : cmdRefs cmds cmd =
          (List.range (blockCount lba secs)).map fun index => (cmd, index) := by
        unfold cmdRefs
        rw [blocks]
      rw [blocks, refs, rollRefs_append]
      dsimp only [Option.bind_eq_bind, Option.bind_some]
      rw [backBlocks_eq (blockCount lba secs) num
        (fun index _ => blkOf_of_write index found) disk]
      cases rolled : rollRefs (blkOf cmds)
          (((List.range (blockCount lba secs)).map fun index => (cmd, index)).reverse.take num)
          disk with
      | none => rfl
      | some next =>
        dsimp only [Option.map_some, Option.bind_some]
        split
        · rename_i enough
          rw [enough, List.take_zero]
          rfl
        · exact ih ((rollRefs_cmdCache rolled).trans same) (Nat.le_of_succ_le inside)

/-! ## Live entries -/

/-- Rolling back the last entries of the rings. -/
theorem Rings.rollRefs {blkOf : EntryRef → Nat} (refs : List EntryRef)
    (rings : Rings blkOf disk (live ++ refs.reverse)) (nodup : (live ++ refs.reverse).Nodup) :
    ∃ next, rollRefs blkOf refs disk = some next ∧ Rings blkOf next live := by
  induction refs generalizing disk with
  | nil =>
    rw [List.reverse_nil, List.append_nil] at rings
    exact ⟨disk, rfl, rings⟩
  | cons ref refs ih =>
    rw [List.reverse_cons, ← List.append_assoc] at rings nodup
    obtain ⟨dequed, done, dequedRings⟩ := rings.cacheDeque nodup rfl
    let marked : CrashDisk := { dequed with entries := setOffset dequed.entries ref none }
    have markedRings : Rings blkOf marked (live ++ refs.reverse) :=
      dequedRings.congr rfl (nexts_setOffset ..) (prevs_setOffset ..)
    obtain ⟨next, rolled, nextRings⟩ := ih markedRings (List.nodup_append.mp nodup).1
    refine ⟨next, ?_, nextRings⟩
    unfold Crash.rollRefs
    rw [done]
    exact rolled

/-- All entries behind `m_cache_top` have been rolled back. -/
theorem Holds.live_eq (holds : Holds disk writes) :
    disk.live = (refsBelow disk.cmdCache disk.cacheTop).filter fun ref => disk.IsLive ref := by
  have extend : ∀ more, (∀ ref ∈ (refsBelow disk.cmdCache (disk.cacheTop + more)).filter
        fun ref => disk.IsLive ref, ref.1 < disk.cacheTop) →
      ((refsBelow disk.cmdCache (disk.cacheTop + more)).filter fun ref => disk.IsLive ref) =
        (refsBelow disk.cmdCache disk.cacheTop).filter fun ref => disk.IsLive ref := by
    intro more bounded
    induction more with
    | zero => rfl
    | succ more ih =>
      rw [← Nat.add_assoc, refsBelow, List.filter_append] at bounded ⊢
      have gone : ((cmdRefs disk.cmdCache (disk.cacheTop + more)).filter
          fun ref => disk.IsLive ref) = [] := by
        refine List.eq_nil_iff_forall_not_mem.mpr fun ref member => ?_
        have before := bounded ref (List.mem_append_right _ member)
        have here := (mem_cmdRefs.mp (List.mem_filter.mp member).1).1
        omega
      rw [gone, List.append_nil]
      exact ih fun ref member => bounded ref (List.mem_append_left _ member)
  have whole : disk.cacheTop + (disk.cmdCache.length - disk.cacheTop) = disk.cmdCache.length :=
    Nat.add_sub_cancel' holds.topLe
  have same := extend (disk.cmdCache.length - disk.cacheTop)
  rw [whole] at same
  exact same holds.top

/-- None of the last blocks that have been issued before `m_cache_top` has been rolled back. -/
def Unrolled (disk : CrashDisk) (num : Nat) : Prop :=
  ∀ ref ∈ (refsBelow disk.cmdCache disk.cacheTop).reverse.take num, disk.IsLive ref

instance (disk : CrashDisk) (num : Nat) : Decidable (Unrolled disk num) :=
  inferInstanceAs (Decidable (∀ ref ∈ _, _))

/-- `BackLog` removes the live block writes that have been issued last. -/
theorem Holds.backLog (holds : Holds disk writes) (unrolled : Unrolled disk num) :
    ∃ next, disk.backLog num = some next ∧ Holds next (rollBack writes num) ∧
      next.cmdCache = disk.cmdCache ∧ next.diskSize = disk.diskSize := by
  let all := refsBelow disk.cmdCache disk.cacheTop
  let kept := all.take (all.length - num)
  let gone := all.drop (all.length - num)
  have parts : all = kept ++ gone := (List.take_append_drop _ _).symm
  have walked : all.reverse.take num = gone.reverse := List.take_reverse
  have goneLive : ∀ ref ∈ gone, disk.IsLive ref := fun ref member =>
    unrolled ref (by
      change ref ∈ all.reverse.take num
      rw [walked]
      exact List.mem_reverse.mpr member)
  have live : disk.live = (kept.filter fun ref => disk.IsLive ref) ++ gone := by
    rw [holds.live_eq]
    change all.filter _ = _
    rw [parts, List.filter_append]
    congr 1
    exact List.filter_eq_self.mpr fun ref member => decide_eq_true (goneLive ref member)
  have rings := holds.rings
  have nodup := live_nodup disk
  rw [live, ← List.reverse_reverse gone] at rings nodup
  obtain ⟨next, rolled, nextRings⟩ := rings.rollRefs gone.reverse nodup
  obtain ⟨offsets, others, rest⟩ := rollRefs_offsets rolled
  have sameCmds : next.cmdCache = disk.cmdCache := by
    have same := congrArg CrashDisk.cmdCache rest
    exact same
  have sameFile : next.dataFile = disk.dataFile := by
    have same := congrArg CrashDisk.dataFile rest
    exact same
  let stopped : CrashDisk := { next with cacheTop := stop disk.cmdCache disk.cacheTop num }
  have sorted : (kept ++ gone).Pairwise Earlier := parts ▸ refsBelow_sorted _ _
  have apart : ∀ ref ∈ kept, ref ∉ gone := by
    intro ref early late
    have distinct : (kept ++ gone).Nodup := parts ▸ refsBelow_nodup _ _
    exact (List.nodup_append.mp distinct).2.2 ref early ref late rfl
  have nextLive : stopped.live = kept.filter fun ref => disk.IsLive ref := by
    have same : stopped.live = disk.live.filter fun ref => ref ∉ gone := by
      unfold CrashDisk.live
      rw [List.filter_filter]
      change (refsBelow next.cmdCache next.cmdCache.length).filter _ = _
      rw [sameCmds]
      refine List.filter_congr fun ref _ => ?_
      rw [← Bool.decide_and]
      refine decide_eq_decide.mpr ?_
      change (next.entries ref).offset.isSome ↔ ref ∉ gone ∧ (disk.entries ref).offset.isSome
      by_cases here : ref ∈ gone
      · rw [offsets ref (List.mem_reverse.mpr here)]
        exact ⟨nofun, fun both => absurd here both.1⟩
      · rw [others ref fun listed => here (List.mem_reverse.mp listed)]
        exact ⟨fun valid => ⟨here, valid⟩, And.right⟩
    rw [same, live, List.filter_append]
    have none : (gone.filter fun ref => ref ∉ gone) = [] :=
      List.filter_eq_nil_iff.mpr fun ref member => by simpa using member
    rw [none, List.append_nil]
    exact List.filter_eq_self.mpr fun ref member =>
      decide_eq_true (apart ref (List.mem_filter.mp member).1)
  have nextData : ∀ ref ∈ kept, stopped.dataOf ref = disk.dataOf ref := by
    intro ref member
    unfold CrashDisk.dataOf
    change ((next.entries ref).offset.bind fun offset => next.dataFile[offset]?) = _
    rw [others ref fun listed => apart ref member (List.mem_reverse.mp listed), sameFile]
  have count : writes.length - num = (kept.filter fun ref => disk.IsLive ref).length := by
    have total := congrArg List.length holds.shows
    rw [List.length_map, List.length_map, live, List.length_append, List.length_drop] at total
    have few : (kept.filter fun ref => disk.IsLive ref).length ≤ all.length - num :=
      (List.length_filter_le _ _).trans (List.length_take_le _ _)
    omega
  refine ⟨stopped, ?_, ⟨?_, ?_, ?_, ?_, ?_, ?_, ?_⟩, sameCmds, ?_⟩
  · unfold CrashDisk.backLog
    rw [backLogFrom_eq rfl holds.topLe]
    change (Crash.rollRefs (blkOf disk.cmdCache) (all.reverse.take num) disk).map _ = _
    rw [walked, rolled]
    rfl
  · rw [nextLive]
    change Rings (blkOf next.cmdCache) stopped _
    rw [sameCmds]
    exact nextRings.congr rfl rfl rfl
  · have shows := congrArg (List.take (writes.length - num)) holds.shows
    rw [← List.map_take, ← List.map_take, live, count, List.take_left] at shows
    unfold rollBack
    rw [nextLive, count, ← shows]
    refine List.map_congr_left fun ref member => ?_
    change (stopped.dataOf ref).map (fun data =>
      (⟨ref.1, blkOf next.cmdCache ref, data⟩ : LiveWrite)) = _
    rw [nextData ref (List.mem_filter.mp member).1, sameCmds]
  · intro ref member index before
    rw [nextLive] at member ⊢
    have old : (ref.1, index) ∈ disk.live :=
      holds.front ref (live ▸ List.mem_append_left _ member) index before
    rw [live, List.mem_append] at old
    rcases old with stays | removed
    · exact stays
    · have order := (List.pairwise_append.mp sorted).2.2 ref (List.mem_filter.mp member).1 _ removed
      rcases order with less | ⟨-, less⟩
      · exact absurd less (Nat.lt_irrefl _)
      · exact absurd less (Nat.lt_asymm before)
  · intro ref member
    rw [nextLive] at member
    exact before_stop (List.mem_filter.mp member).1
  · change stop disk.cmdCache disk.cacheTop num ≤ next.cmdCache.length
    rw [sameCmds]
    exact (stop_le _ _ _).trans holds.topLe
  · have sameSize := congrArg CrashDisk.cacheSize rest
    change next.cacheSize = next.dataFile.length
    rw [sameFile]
    exact sameSize.trans holds.size
  · change ∀ entry ∈ next.cmdCache, _
    rw [sameCmds]
    exact holds.marked
  · have same := congrArg CrashDisk.diskSize rest
    exact same

end FsChecking.Device.Crash
