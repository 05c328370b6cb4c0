import FsChecking.F2fs.Checkpoint
import FsChecking.Lib.Table

/-!
# The node id allocator over whole runs

The counter `free_nr` against the table that it counts, over any order of the allocator's calls with
the rest of the simulator acting in between. One specification of each call comes first; the run
carries what they preserve. A mounted or freshly initialised table is counted exactly; the table that
`Reset` leaves is empty and hands out nothing.
-/

namespace FsChecking.F2fs

open Lib

namespace NodeAddressTable

/-- The number of entries that are `INVALID_BLK`. -/
def freeEntries (table : NodeAddressTable) : Nat :=
  (List.range nodeNr).countP fun nid => table.nat nid = invalidBlk

/-- `free_nr` is the number of free entries. -/
def Counted (table : NodeAddressTable) : Prop := table.freeNr = table.freeEntries

/-- The table after `get_node` has found a free entry. -/
def handOut (table : NodeAddressTable) (nid : Nat) : NodeAddressTable :=
  { table.setEntry nid nidInUse with freeNr := table.freeNr - 1, nextScan := nid + 1 }

/-- A nonempty count means a free entry. -/
theorem freeEntries_pos {table : NodeAddressTable} :
    0 < table.freeEntries ↔ ∃ nid < nodeNr, table.nat nid = invalidBlk := by
  simp [freeEntries, List.countP_pos_iff]

/-- How an update of one entry changes the number of free entries. -/
theorem freeEntries_update {table changed : NodeAddressTable} {nid : Nat} (inside : nid < nodeNr)
    {blk : Nat} (updated : changed.nat = Function.update table.nat nid blk) :
    changed.freeEntries + (decide (table.nat nid = invalidBlk)).toNat =
      table.freeEntries + (decide (blk = invalidBlk)).toNat := by
  have count := countP_range_update (fun entry => decide (entry = invalidBlk)) table.nat inside blk
  simpa only [freeEntries, updated] using count

/-- `build_free` counts. -/
theorem counted_buildFree (table : NodeAddressTable) : table.buildFree.Counted := by
  unfold Counted freeEntries buildFree
  rw [List.countP_eq_length_filter]

/-- Handing out a free entry keeps the count. -/
theorem Counted.handOut {table : NodeAddressTable} (counted : table.Counted) {nid : Nat}
    (inside : nid < nodeNr) (free : table.nat nid = invalidBlk) : (table.handOut nid).Counted := by
  have updated : (table.handOut nid).nat = Function.update table.nat nid nidInUse := rfl
  have change := freeEntries_update inside updated
  have different : nidInUse ≠ invalidBlk := by decide
  rw [decide_eq_true free, decide_eq_false different] at change
  have before : table.freeNr = table.freeEntries := counted
  show table.freeNr - 1 = (table.handOut nid).freeEntries
  simp only [Bool.toNat_true, Bool.toNat_false] at change
  omega

/-- A node that was handed out is marked as used, and dirty. -/
theorem isDirty_handOut (table : NodeAddressTable) (nid : Nat) :
    (table.handOut nid).isDirty nid = true := by
  show testFlag natEntryPerBlk (setFlag natEntryPerBlk table.dirty nid) nid = true
  rw [testFlag_setFlag (by decide) (by decide)]
  simp

end NodeAddressTable

/-! ## The calls one by one -/

/-- A scan that has `distance` used entries ahead of the first free one, and does not come to `cur`
on the way, hands that free entry out. -/
theorem scanNode_finds {cur distance : Nat} : ∀ {fuel : Nat} {table : NodeAddressTable},
    distance < fuel → table.nextScan < nodeNr →
    (∀ step < distance, table.nat ((table.nextScan + step) % nodeNr) ≠ invalidBlk) →
    table.nat ((table.nextScan + distance) % nodeNr) = invalidBlk →
    (∀ step, 0 < step → step ≤ distance → (table.nextScan + step) % nodeNr ≠ cur) →
    scanNode cur fuel table = .ok ((table.nextScan + distance) % nodeNr)
      (table.handOut ((table.nextScan + distance) % nodeNr)) := by
  induction distance with
  | zero =>
    intro fuel table enough inside used free clear
    obtain ⟨fuel, rfl⟩ := Nat.exists_eq_succ_of_ne_zero (Nat.ne_of_gt enough)
    rw [Nat.add_zero, Nat.mod_eq_of_lt inside] at free ⊢
    rw [scanNode, get_bind_apply, if_pos free]
    rfl
  | succ distance ih =>
    intro fuel table enough inside used free clear
    obtain ⟨fuel, rfl⟩ := Nat.exists_eq_succ_of_ne_zero (Nat.ne_of_gt (Nat.zero_lt_of_lt enough))
    have here : table.nat table.nextScan ≠ invalidBlk := by
      have first := used 0 (Nat.succ_pos distance)
      rwa [Nat.add_zero, Nat.mod_eq_of_lt inside] at first
    have next : (if table.nextScan + 1 ≥ nodeNr then 0 else table.nextScan + 1) =
        (table.nextScan + 1) % nodeNr := by
      split
      · rename_i last
        have same : table.nextScan + 1 = nodeNr := by omega
        rw [same, Nat.mod_self]
      · rename_i more
        rw [Nat.mod_eq_of_lt (by omega)]
    have onward : ∀ step, ((table.nextScan + 1) % nodeNr + step) % nodeNr =
        (table.nextScan + (step + 1)) % nodeNr := by
      intro step
      rw [Nat.mod_add_mod, Nat.add_assoc, Nat.add_comm 1 step]
    have moved : (table.nextScan + 1) % nodeNr ≠ cur := clear 1 Nat.one_pos (by omega)
    rw [scanNode, get_bind_apply, if_neg here, next, set_bind_apply, if_neg moved]
    have found := @ih fuel { table with nextScan := (table.nextScan + 1) % nodeNr } (by omega)
      (Nat.mod_lt _ (by decide))
      (fun step small => by simpa only [onward] using used (step + 1) (by omega))
      (by simpa only [onward] using free)
      (fun step positive small => by simpa only [onward] using clear (step + 1) (by omega) (by omega))
    rw [onward] at found
    exact found

/-- `get_node` on an empty counter returns `INVALID_BLK` and changes nothing. -/
theorem getNode_of_freeNr_eq_zero {table : NodeAddressTable} (zero : table.freeNr = 0) :
    getNode table = .ok invalidBlk table := by
  rw [getNode, get_bind_apply, if_pos zero]
  rfl

/-- `get_node` with a nonzero counter and a free entry hands a free entry out, wherever the cursor
stands. -/
theorem getNode_of_free {table : NodeAddressTable} (some : table.freeNr ≠ 0)
    (free : ∃ nid < nodeNr, table.nat nid = invalidBlk) :
    ∃ nid < nodeNr, table.nat nid = invalidBlk ∧ getNode table = .ok nid (table.handOut nid) := by
  -- the cursor is put back to the start of the table, but the scan still stops at its old value
  have scan : ∀ start < nodeNr, (start = table.nextScan ∨ nodeNr ≤ table.nextScan) →
      ∃ nid < nodeNr, table.nat nid = invalidBlk ∧
        scanNode table.nextScan (nodeNr + 1) { table with nextScan := start } =
          .ok nid (table.handOut nid) := by
    intro start inside origin
    have reached : ∃ step, step < nodeNr ∧ table.nat ((start + step) % nodeNr) = invalidBlk := by
      obtain ⟨nid, small, isFree⟩ := free
      refine ⟨(nid + (nodeNr - start)) % nodeNr, Nat.mod_lt _ (by decide), ?_⟩
      have round : (start + (nid + (nodeNr - start)) % nodeNr) % nodeNr = nid := by
        rw [Nat.add_mod_mod, show start + (nid + (nodeNr - start)) = nid + nodeNr by omega,
          Nat.add_mod_right, Nat.mod_eq_of_lt small]
      rw [round]
      exact isFree
    classical
    obtain ⟨near, isFree⟩ := Nat.find_spec reached
    have first : ∀ step < Nat.find reached, table.nat ((start + step) % nodeNr) ≠ invalidBlk :=
      fun step before isFree => Nat.find_min reached before ⟨by omega, isFree⟩
    have clear : ∀ step, 0 < step → step ≤ Nat.find reached →
        (start + step) % nodeNr ≠ table.nextScan := by
      intro step positive small same
      have within : step < 128 := lt_of_le_of_lt small near
      have residue : (start + step) % 128 = table.nextScan := same
      have below : start < 128 := inside
      rcases origin with here | beyond
      · omega
      · have outside : 128 ≤ table.nextScan := beyond
        omega
    exact ⟨_, Nat.mod_lt _ (by decide), isFree,
      @scanNode_finds _ _ _ { table with nextScan := start } (by omega) inside first isFree clear⟩
  rw [getNode, get_bind_apply, if_neg some]
  by_cases beyond : table.nextScan ≥ nodeNr
  · rw [doIf_bind_of beyond, set_bind_apply]
    exact scan 0 (by decide) (.inr beyond)
  · rw [doIf_bind_of_not beyond]
    exact scan table.nextScan (by omega) (.inl rfl)

/-- What the node table and the segments hold. -/
def Holds (segments : SegmentManager) (entries : Nat → Nat) (number : Nat) (fs : Fs) : Prop :=
  fs.segments = segments ∧ fs.nat.nat = entries ∧ fs.nat.freeNr = number

/-- Dropping a node from the cache leaves the entries, the counter and the segments. -/
theorem decache_spec (nid page : Nat) (segments : SegmentManager) (entries : Nat → Nat)
    (number : Nat) :
    Triple (Holds segments entries number)
      (doIf (page ≠ invalidPage) do
        throwIf (page ≥ maxPageNum) (.user "page %d has been released." [0])
        pagesLens.zoom (free page)
        setNodeCache nid invalidPage)
      (fun _ => Holds segments entries number) (fun _ => Holds segments entries number) := by
  unfold doIf
  split
  · refine Triple.bind (?_ : Triple _ _ (fun _ => Holds segments entries number) _) fun _ => ?_
    · unfold throwIf
      split
      · exact Triple.throw fun _ holds => holds
      · exact Triple.pure fun _ holds => holds
    refine Triple.bind (?_ : Triple _ _ (fun _ => Holds segments entries number) _) fun _ => ?_
    · intro fs holds
      show Outcome _ _ (pagesLens.zoom (free page) fs)
      unfold Lens.zoom
      cases free page (pagesLens.get fs) <;> exact holds
    · exact Triple.change fun _ holds => holds
  · exact Triple.pure fun _ holds => holds

/-- What `put_node` does to the entries, the counter and the segments, on return and on an
exception. -/
theorem putNode_spec {fs : Fs} {nid : Nat} (inside : nid < nodeNr)
    (allocated : fs.nat.nat nid ≠ invalidBlk) :
    (finalState (putNode nid fs)).segments =
        (if fs.nat.nat nid = nidInUse then fs.segments
          else finalState (invalidBlock (fs.nat.nat nid) fs.segments)) ∧
      Outcome
        (fun _ fs' => fs'.nat.nat = Function.update fs.nat.nat nid invalidBlk ∧
          fs'.nat.freeNr = fs.nat.freeNr + 1)
        (fun _ fs' => fs'.nat.nat = fs.nat.nat ∧ fs'.nat.freeNr = fs.nat.freeNr)
        (putNode nid fs) := by
  have cleared : ∀ segments entries number page, Triple (Holds segments entries number)
      (do
        doIf (page ≠ invalidPage) do
          throwIf (page ≥ maxPageNum) (.user "page %d has been released." [0])
          pagesLens.zoom (free page)
          setNodeCache nid invalidPage
        natLens.zoom (modify fun table =>
          { table.setEntry nid invalidBlk with freeNr := table.freeNr + 1 }))
      (fun _ => Holds segments (Function.update entries nid invalidBlk) (number + 1))
      (fun _ => Holds segments entries number) := by
    intro segments entries number page
    apply Triple.bind (decache_spec nid page segments entries number)
    rintro _ s ⟨rfl, rfl, rfl⟩
    exact ⟨rfl, rfl, rfl⟩
  have apart : ∀ {segments entries number} {result : EStateM.Result Fault Fs Unit},
      Outcome (fun _ => Holds segments (Function.update entries nid invalidBlk) (number + 1))
        (fun _ => Holds segments entries number) result →
      (finalState result).segments = segments ∧
        Outcome
          (fun _ fs' => fs'.nat.nat = Function.update entries nid invalidBlk ∧
            fs'.nat.freeNr = number + 1)
          (fun _ fs' => fs'.nat.nat = entries ∧ fs'.nat.freeNr = number) result := by
    intro segments entries number result holds
    cases result <;> exact ⟨holds.1, holds.2⟩
  rw [putNode, throwIf_bind_of_not (by omega), get_bind_apply]
  by_cases unwritten : fs.nat.nat nid = nidInUse
  · rw [if_pos unwritten, doIf_bind_of_not (fun written => written.2 unwritten), get_bind_apply]
    exact apart (cleared _ _ _ _ fs ⟨rfl, rfl, rfl⟩)
  · rw [if_neg unwritten, doIf_bind_of ⟨allocated, unwritten⟩, bind_apply, bind_apply]
    cases run : invalidBlock (fs.nat.nat nid) fs.segments with
    | ok count segments =>
      rw [segmentsLens.zoom_of_ok run]
      exact apart (cleared _ _ _ _ { fs with segments } ⟨rfl, rfl, rfl⟩)
    | error fault segments =>
      rw [segmentsLens.zoom_of_error run]
      exact ⟨rfl, rfl, rfl⟩

/-! ## Runs -/

/-- The rest of the simulator leaves the entries and their counter. -/
def SameEntries (fs fs' : Fs) : Prop :=
  fs'.nat.nat = fs.nat.nat ∧ fs'.nat.freeNr = fs.nat.freeNr

instance : IsPreorder Fs SameEntries where
  refl _ := ⟨rfl, rfl⟩
  trans _ _ _ left right := ⟨right.1.trans left.1, right.2.trans left.2⟩

/-- `Sync` leaves the entries and their counter, whether it returns or throws. -/
theorem syncNat_sameEntries : Moves SameEntries syncNat := by
  refine Moves.forM fun blk => Moves.bind Moves.get fun fs => Moves.doIf fun _ => ?_
  refine Moves.bind (Moves.zoom fun _ _ => ⟨rfl, rfl⟩) fun page => ?_
  refine Moves.bind (Moves.change fun _ => ⟨rfl, rfl⟩) fun _ => ?_
  refine Moves.bind (Moves.bind Moves.get fun _ => Moves.pure _) fun data => ?_
  refine Moves.bind ?_ fun _ => Moves.change fun _ => ⟨rfl, rfl⟩
  unfold blockWrite
  split
  · exact Moves.change fun _ => ⟨rfl, rfl⟩
  · exact Moves.throw _

/-- The calls of the allocator. -/
inductive AllocatorCall where
  /-- `Init`. -/
  | init
  /-- `Reset`. -/
  | reset
  /-- `Load`. -/
  | load
  /-- `get_node`. -/
  | getNode
  /-- `set_phy_blk`. -/
  | setPhyBlk (nid phyBlk : Nat)
  /-- `put_node`. -/
  | putNode (nid : Nat)

/-- What the table was last prepared by. -/
inductive AllocatorPhase where
  /-- Nothing, or a `Load` that threw. -/
  | unknown
  /-- `Reset`. -/
  | blank
  /-- `Init`, or a `Load` that returned. -/
  | ready
  deriving DecidableEq

namespace AllocatorCall

/-- The calls as programs; only `get_node` returns a value. -/
def run : AllocatorCall → FsM (Option Nat)
  | init => do
    modifyNat (·.initial)
    syncNat
    return none
  | reset => do
    modifyNat fun _ => .blank
    return none
  | load => do
    loadNat
    return none
  | getNode => do
    return some (← natLens.zoom F2fs.getNode)
  | setPhyBlk nid phyBlk => do
    natLens.zoom (F2fs.setPhyBlk nid phyBlk)
    return none
  | putNode nid => do
    F2fs.putNode nid
    return none

/-- When a call is made: the table is prepared, addresses are valid and nodes are allocated. -/
def Allowed (phase : AllocatorPhase) (fs : Fs) : AllocatorCall → Prop
  | init | reset | load => True
  | getNode => phase ≠ .unknown
  | setPhyBlk nid phyBlk =>
    phase ≠ .unknown ∧ nid < nodeNr ∧ fs.nat.nat nid ≠ invalidBlk ∧ phyBlk ≠ invalidBlk
  | putNode nid => phase ≠ .unknown ∧ nid < nodeNr ∧ fs.nat.nat nid ≠ invalidBlk

/-- The phase after a call. -/
def next (phase : AllocatorPhase) (returned : Bool) : AllocatorCall → AllocatorPhase
  | init => .ready
  | reset => .blank
  | load => if returned then .ready else .unknown
  | getNode | setPhyBlk _ _ | putNode _ => phase

end AllocatorCall

/-- A call that was made, with what it returned. -/
structure AllocatorEvent where
  /-- The call. -/
  call : AllocatorCall
  /-- The value, or nothing when the call threw. -/
  result : Option (Option Nat)

namespace AllocatorEvent

/-- The value of a program that returned. -/
def valueOf : EStateM.Result Fault Fs (Option Nat) → Option (Option Nat)
  | .ok value _ => some value
  | .error _ _ => none

/-- `get_node` returned this node. -/
def Hands (event : AllocatorEvent) (nid : Nat) : Prop :=
  event.call = .getNode ∧ event.result = some (some nid) ∧ nid ≠ invalidBlk

/-- The call gave a node back, or prepared the whole table anew. -/
def Releases (event : AllocatorEvent) (nid : Nat) : Prop :=
  (event.call = .putNode nid ∧ event.result ≠ none) ∨
    event.call = .init ∨ event.call = .reset ∨ event.call = .load

end AllocatorEvent

/-- The runs of the allocator from any memory, with their events, newest first. Between two calls the
rest of the simulator may change anything but the entries and their counter. -/
inductive AllocatorRun (start : Fs) : AllocatorPhase → Fs → List AllocatorEvent → Prop where
  /-- Nothing has been called. -/
  | start : AllocatorRun start .unknown start []
  /-- A call returns or throws. -/
  | call {phase : AllocatorPhase} {fs : Fs} {events : List AllocatorEvent} (before : AllocatorRun start phase fs events)
      (call : AllocatorCall) (allowed : call.Allowed phase fs) :
      AllocatorRun start (call.next phase (returned (call.run fs))) (finalState (call.run fs))
        (⟨call, AllocatorEvent.valueOf (call.run fs)⟩ :: events)
  /-- The rest of the simulator acts. -/
  | elsewhere {phase : AllocatorPhase} {fs fs' : Fs} {events : List AllocatorEvent} (before : AllocatorRun start phase fs events)
      (same : SameEntries fs fs') : AllocatorRun start phase fs' events

/-- What holds of the table in a phase. -/
def AllocatorPhase.Invariant (phase : AllocatorPhase) (table : NodeAddressTable) : Prop :=
  (phase = .ready → table.Counted) ∧
    (phase = .blank → table.freeNr = 0 ∧ ∀ nid < nodeNr, table.nat nid = invalidBlk)

/-! ## What each call preserves -/

/-- The count depends on the entries and the counter only. -/
theorem NodeAddressTable.Counted.congr {table table' : NodeAddressTable} (counted : table.Counted)
    (entries : table'.nat = table.nat) (number : table'.freeNr = table.freeNr) :
    table'.Counted := by
  have before : table.freeNr = table.freeEntries := counted
  unfold Counted
  rw [number, before, freeEntries, freeEntries, entries]

/-- Replacing one address by another keeps the count. -/
theorem NodeAddressTable.Counted.setEntry {table : NodeAddressTable} (counted : table.Counted)
    {nid phyBlk : Nat} (inside : nid < nodeNr) (used : table.nat nid ≠ invalidBlk)
    (valid : phyBlk ≠ invalidBlk) : (table.setEntry nid phyBlk).Counted := by
  have updated : (table.setEntry nid phyBlk).nat = Function.update table.nat nid phyBlk := rfl
  have change := freeEntries_update inside updated
  rw [decide_eq_false used, decide_eq_false valid] at change
  have before : table.freeNr = table.freeEntries := counted
  show table.freeNr = (table.setEntry nid phyBlk).freeEntries
  omega

/-- Freeing an entry and counting it keeps the count. -/
theorem NodeAddressTable.Counted.freed {table table' : NodeAddressTable} (counted : table.Counted)
    {nid : Nat} (inside : nid < nodeNr) (used : table.nat nid ≠ invalidBlk)
    (entries : table'.nat = Function.update table.nat nid invalidBlk)
    (number : table'.freeNr = table.freeNr + 1) : table'.Counted := by
  have change := freeEntries_update inside entries
  rw [decide_eq_false used, decide_eq_true rfl] at change
  have before : table.freeNr = table.freeEntries := counted
  unfold Counted
  simp only [Bool.toNat_true, Bool.toNat_false] at change
  omega

namespace AllocatorCall

variable {fs : Fs}

/-- `get_node` on a counted table. -/
theorem run_getNode (counted : fs.nat.Counted) :
    (fs.nat.freeEntries = 0 ∧ getNode.run fs = .ok (some invalidBlk) fs) ∨
      ∃ nid < nodeNr, fs.nat.nat nid = invalidBlk ∧
        getNode.run fs = .ok (some nid) { fs with nat := fs.nat.handOut nid } := by
  have before : fs.nat.freeNr = fs.nat.freeEntries := counted
  by_cases full : fs.nat.freeEntries = 0
  · refine .inl ⟨full, ?_⟩
    have program := getNode_of_freeNr_eq_zero (before.trans full)
    show (natLens.zoom F2fs.getNode >>= _) fs = _
    rw [bind_apply, natLens.zoom_of_ok program]
    rfl
  · have free := NodeAddressTable.freeEntries_pos.mp (Nat.pos_of_ne_zero full)
    obtain ⟨nid, inside, isFree, program⟩ := getNode_of_free (before ▸ full) free
    refine .inr ⟨nid, inside, isFree, ?_⟩
    show (natLens.zoom F2fs.getNode >>= _) fs = _
    rw [bind_apply, natLens.zoom_of_ok program]
    rfl

/-- `get_node` on an empty counter. -/
theorem run_getNode_of_zero (zero : fs.nat.freeNr = 0) :
    getNode.run fs = .ok (some invalidBlk) fs := by
  show (natLens.zoom F2fs.getNode >>= _) fs = _
  rw [bind_apply, natLens.zoom_of_ok (getNode_of_freeNr_eq_zero zero)]
  rfl

/-- `set_phy_blk` inside the table. -/
theorem run_setPhyBlk {nid phyBlk : Nat} (inside : nid < nodeNr) :
    (setPhyBlk nid phyBlk).run fs =
      .ok none { fs with nat := fs.nat.setEntry nid phyBlk } := by
  have program : F2fs.setPhyBlk nid phyBlk (natLens.get fs) =
      .ok () (fs.nat.setEntry nid phyBlk) := by
    rw [F2fs.setPhyBlk, throwIf_bind_of_not (by omega)]
    rfl
  show (natLens.zoom (F2fs.setPhyBlk nid phyBlk) >>= _) fs = _
  rw [bind_apply, natLens.zoom_of_ok program]
  rfl

/-- `put_node` on an allocated node. -/
theorem run_putNode {nid : Nat} (inside : nid < nodeNr)
    (allocated : fs.nat.nat nid ≠ invalidBlk) :
    Outcome
      (fun _ fs' => fs'.nat.nat = Function.update fs.nat.nat nid invalidBlk ∧
        fs'.nat.freeNr = fs.nat.freeNr + 1)
      (fun _ fs' => SameEntries fs fs')
      ((putNode nid).run fs) := by
  have spec := (putNode_spec inside allocated).2
  show Outcome _ _ ((F2fs.putNode nid >>= fun _ => pure none) fs)
  rw [bind_apply]
  cases run : F2fs.putNode nid fs with
  | ok value fs' =>
    rw [run] at spec
    exact spec
  | error fault fs' =>
    rw [run] at spec
    exact spec

/-- `Init` leaves a counted table, even when storing it throws. -/
theorem counted_run_init : (finalState (init.run fs)).nat.Counted := by
  let prepared := { fs with nat := fs.nat.initial }
  have counted : prepared.nat.Counted := NodeAddressTable.counted_buildFree _
  have same : SameEntries prepared (finalState (init.run fs)) := by
    have stored := syncNat_sameEntries prepared
    show SameEntries prepared (finalState ((syncNat >>= fun _ => pure none) prepared))
    rw [bind_apply]
    cases run : syncNat prepared with
    | ok value fs' =>
      rw [run] at stored
      exact stored
    | error fault fs' =>
      rw [run] at stored
      exact stored
  exact counted.congr same.1 same.2

/-- A `Load` that returns leaves a counted table, whatever it has read. -/
theorem counted_run_load {value : Option Nat} {fs' : Fs} (run : load.run fs = .ok value fs') :
    fs'.nat.Counted := by
  simp only [AllocatorCall.run, loadNat, bind_eq_ok, get_bind_apply] at run
  obtain ⟨_, loaded, ⟨_, _, -, _, _, -, _, replayed, -, _, built, counting, cleared⟩, ⟨⟩⟩ := run
  cases counting
  cases cleared
  exact NodeAddressTable.Counted.congr (NodeAddressTable.counted_buildFree replayed.nat) rfl rfl

/-- No node is allocated in a blank table. -/
theorem ready_of_allocated {phase : AllocatorPhase} (invariant : phase.Invariant fs.nat)
    (prepared : phase ≠ .unknown) {nid : Nat} (inside : nid < nodeNr)
    (allocated : fs.nat.nat nid ≠ invalidBlk) : phase = .ready := by
  cases phase with
  | unknown => exact absurd rfl prepared
  | blank => exact absurd ((invariant.2 rfl).2 nid inside) allocated
  | ready => rfl

/-- Every call keeps the invariant of the phases. -/
theorem invariant_run {phase : AllocatorPhase} (call : AllocatorCall)
    (invariant : phase.Invariant fs.nat) (allowed : call.Allowed phase fs) :
    (call.next phase (returned (call.run fs))).Invariant (finalState (call.run fs)).nat := by
  cases call with
  | init => exact ⟨fun _ => counted_run_init, nofun⟩
  | reset => exact ⟨nofun, fun _ => ⟨rfl, fun _ _ => rfl⟩⟩
  | load =>
    cases run : load.run fs with
    | ok value fs' => exact ⟨fun _ => counted_run_load run, nofun⟩
    | error fault fs' => exact ⟨nofun, nofun⟩
  | getNode =>
    cases phase with
    | unknown => exact absurd rfl allowed
    | blank =>
      rw [run_getNode_of_zero (invariant.2 rfl).1]
      exact invariant
    | ready =>
      rcases run_getNode (invariant.1 rfl) with ⟨_, run⟩ | ⟨nid, inside, free, run⟩
      · rw [run]
        exact invariant
      · rw [run]
        exact ⟨fun _ => (invariant.1 rfl).handOut inside free, nofun⟩
  | setPhyBlk nid phyBlk =>
    obtain ⟨prepared, inside, allocated, valid⟩ := allowed
    obtain rfl := ready_of_allocated invariant prepared inside allocated
    rw [run_setPhyBlk inside]
    exact ⟨fun _ => (invariant.1 rfl).setEntry inside allocated valid, nofun⟩
  | putNode nid =>
    obtain ⟨prepared, inside, allocated⟩ := allowed
    obtain rfl := ready_of_allocated invariant prepared inside allocated
    have spec := run_putNode inside allocated
    cases run : (putNode nid).run fs with
    | ok value fs' =>
      rw [run] at spec
      exact ⟨fun _ => (invariant.1 rfl).freed inside allocated spec.1 spec.2, nofun⟩
    | error fault fs' =>
      rw [run] at spec
      exact ⟨fun _ => (invariant.1 rfl).congr spec.1 spec.2, nofun⟩

/-- A call that does not release a node keeps it allocated. -/
theorem keeps_allocated {call : AllocatorCall} {nid : Nat} (counted : fs.nat.Counted)
    (allowed : call.Allowed .ready fs) (allocated : fs.nat.nat nid ≠ invalidBlk)
    (holds : ¬ AllocatorEvent.Releases ⟨call, AllocatorEvent.valueOf (call.run fs)⟩ nid) :
    call.next .ready (returned (call.run fs)) = .ready ∧
      (finalState (call.run fs)).nat.nat nid ≠ invalidBlk := by
  cases call with
  | init => exact absurd (.inr (.inl rfl)) holds
  | reset => exact absurd (.inr (.inr (.inl rfl))) holds
  | load => exact absurd (.inr (.inr (.inr rfl))) holds
  | getNode =>
    refine ⟨rfl, ?_⟩
    rcases run_getNode counted with ⟨_, run⟩ | ⟨found, inside, free, run⟩
    · rw [run]
      exact allocated
    · rw [run]
      have other : nid ≠ found := fun same => allocated (same ▸ free)
      show Function.update fs.nat.nat found nidInUse nid ≠ invalidBlk
      rwa [Function.update_of_ne other]
  | setPhyBlk changed phyBlk =>
    obtain ⟨_, inside, _, valid⟩ := allowed
    refine ⟨rfl, ?_⟩
    rw [run_setPhyBlk inside]
    show Function.update fs.nat.nat changed phyBlk nid ≠ invalidBlk
    by_cases here : nid = changed
    · rwa [here, Function.update_self]
    · rwa [Function.update_of_ne here]
  | putNode freed =>
    obtain ⟨_, inside, used⟩ := allowed
    refine ⟨rfl, ?_⟩
    have spec := run_putNode inside used
    cases run : (putNode freed).run fs with
    | ok value fs' =>
      rw [run] at spec holds
      have other : nid ≠ freed := by
        rintro rfl
        exact holds (.inl ⟨rfl, nofun⟩)
      show fs'.nat.nat nid ≠ invalidBlk
      rwa [spec.1, Function.update_of_ne other]
    | error fault fs' =>
      rw [run] at spec
      show fs'.nat.nat nid ≠ invalidBlk
      rwa [spec.1]

/-- The state in which `get_node` has handed a node out. -/
theorem of_hands {phase : AllocatorPhase} {call : AllocatorCall} {nid : Nat}
    (invariant : phase.Invariant fs.nat) (allowed : call.Allowed phase fs)
    (hands : AllocatorEvent.Hands ⟨call, AllocatorEvent.valueOf (call.run fs)⟩ nid) :
    phase = .ready ∧ fs.nat.nat nid = invalidBlk ∧
      call.next phase (returned (call.run fs)) = .ready ∧
      (finalState (call.run fs)).nat.nat nid ≠ invalidBlk := by
  obtain ⟨rfl, result, valid⟩ := hands
  cases phase with
  | unknown => exact absurd rfl allowed
  | blank =>
    rw [run_getNode_of_zero (invariant.2 rfl).1] at result
    cases result
    exact absurd rfl valid
  | ready =>
    rcases run_getNode (invariant.1 rfl) with ⟨_, run⟩ | ⟨found, inside, free, run⟩
    · rw [run] at result
      cases result
      exact absurd rfl valid
    · rw [run] at result
      cases result
      refine ⟨rfl, free, rfl, ?_⟩
      rw [run]
      show Function.update fs.nat.nat nid nidInUse nid ≠ invalidBlk
      rw [Function.update_self]
      decide

end AllocatorCall

/-! ## What every run preserves -/

namespace AllocatorRun

variable {start fs : Fs} {phase : AllocatorPhase} {events : List AllocatorEvent}

/-- The invariant of the phases holds in every state that is reached. -/
theorem invariant (run : AllocatorRun start phase fs events) : phase.Invariant fs.nat := by
  induction run with
  | start => exact ⟨nofun, nofun⟩
  | call before call allowed ih => exact call.invariant_run ih allowed
  | elsewhere before same ih =>
    refine ⟨fun ready => (ih.1 ready).congr same.1 same.2, fun blank => ?_⟩
    rw [same.1, same.2]
    exact ih.2 blank

/-- A node that was handed out stays allocated until it is released. -/
theorem held (run : AllocatorRun start phase fs events) {nid : Nat}
    {between older : List AllocatorEvent} {first : AllocatorEvent}
    (split : events = between ++ first :: older) (hands : first.Hands nid)
    (kept : ∀ event ∈ between, ¬ event.Releases nid) :
    phase = .ready ∧ fs.nat.nat nid ≠ invalidBlk := by
  induction run generalizing between with
  | start => cases between <;> cases split
  | call before call allowed ih =>
    cases between with
    | nil =>
      cases split
      exact (call.of_hands before.invariant allowed hands).2.2
    | cons last between =>
      obtain ⟨rfl, rest⟩ := List.cons.inj split
      obtain ⟨rfl, allocated⟩ := ih rest fun event member => kept event (.tail _ member)
      exact AllocatorCall.keeps_allocated (before.invariant.1 rfl) allowed allocated
        (kept _ (.head _))
  | elsewhere before same ih =>
    rw [same.1]
    exact ih split kept

/-- Between two times that a node is handed out it is released. -/
theorem released (run : AllocatorRun start phase fs events) {nid : Nat}
    {newer between older : List AllocatorEvent} {second first : AllocatorEvent}
    (split : events = newer ++ second :: (between ++ first :: older)) (again : second.Hands nid)
    (hands : first.Hands nid) : ∃ event ∈ between, event.Releases nid := by
  induction run generalizing newer with
  | start => cases newer <;> cases split
  | call before call allowed ih =>
    cases newer with
    | nil =>
      obtain ⟨rfl, rest⟩ := List.cons.inj split
      by_contra none
      have kept : ∀ event ∈ between, ¬ event.Releases nid :=
        fun event member releases => none ⟨event, member, releases⟩
      have free := (AllocatorCall.of_hands before.invariant allowed again).2.1
      exact (before.held rest hands kept).2 free
    | cons last newer => exact ih (List.cons.inj split).2
  | elsewhere before same ih => exact ih split

end AllocatorRun

/-- In every run of the allocator: a prepared table is counted by `free_nr`, and `get_node` returns
and hands out a free node when there is one; a table after `Reset` hands out nothing; a node is
handed out again only after it was released; `put_node` invalidates the block of a node exactly when
the node was written. -/
theorem nodeAllocator_sound {start fs : Fs} {phase : AllocatorPhase} {events : List AllocatorEvent}
    (run : AllocatorRun start phase fs events) :
    (phase = .ready →
        fs.nat.freeNr = fs.nat.freeEntries ∧
        (fs.nat.freeEntries = 0 ∧ natLens.zoom getNode fs = .ok invalidBlk fs ∨
          ∃ nid < nodeNr, fs.nat.nat nid = invalidBlk ∧
            ∃ fs', natLens.zoom getNode fs = .ok nid fs' ∧
              fs'.nat.nat = Function.update fs.nat.nat nid nidInUse ∧
              fs'.nat.isDirty nid = true)) ∧
      (phase = .blank →
        fs.nat.freeNr = 0 ∧ fs.nat.freeEntries = nodeNr ∧
          natLens.zoom getNode fs = .ok invalidBlk fs) ∧
      (∀ nid newer second between first older,
        events = newer ++ second :: (between ++ first :: older) → second.Hands nid →
          first.Hands nid → ∃ event ∈ between, event.Releases nid) ∧
      ∀ nid < nodeNr, phase ≠ .unknown → fs.nat.nat nid ≠ invalidBlk →
        (finalState (putNode nid fs)).segments =
          if fs.nat.nat nid = nidInUse then fs.segments
          else finalState (invalidBlock (fs.nat.nat nid) fs.segments) := by
  refine ⟨fun ready => ?_, fun blank => ?_, fun nid newer second between first older split again
    hands => run.released split again hands, fun nid inside _ allocated =>
    (putNode_spec inside allocated).1⟩
  · have counted := run.invariant.1 ready
    have number : fs.nat.freeNr = fs.nat.freeEntries := counted
    refine ⟨number, ?_⟩
    by_cases full : fs.nat.freeEntries = 0
    · exact .inl ⟨full, natLens.zoom_of_ok (getNode_of_freeNr_eq_zero (number.trans full))⟩
    · obtain ⟨nid, inside, free, program⟩ := getNode_of_free (number ▸ full)
        (NodeAddressTable.freeEntries_pos.mp (Nat.pos_of_ne_zero full))
      exact .inr ⟨nid, inside, free, _, natLens.zoom_of_ok program, rfl,
        NodeAddressTable.isDirty_handOut fs.nat nid⟩
  · obtain ⟨zero, invalid⟩ := run.invariant.2 blank
    refine ⟨zero, ?_, natLens.zoom_of_ok (getNode_of_freeNr_eq_zero zero)⟩
    have all : ∀ nid ∈ List.range nodeNr, decide (fs.nat.nat nid = invalidBlk) = true :=
      fun nid member => decide_eq_true (invalid nid (List.mem_range.mp member))
    exact (List.countP_eq_length.mpr all).trans List.length_range

/-- Zeroed memory with an initialised page pool. -/
def Fs.paged : Fs := { Fs.zeroed with pages := Fs.zeroed.pages.initial }

/-- A run that formats the table and hands out two nodes. -/
theorem nodeAllocator_sound_twoNodes :
    let formatted := finalState (AllocatorCall.init.run .paged)
    let one := finalState (AllocatorCall.getNode.run formatted)
    let two := finalState (AllocatorCall.getNode.run one)
    returned (AllocatorCall.init.run .paged) = true ∧ two.nat.freeNr = two.nat.freeEntries ∧
      two.nat.freeEntries = 126 := by
  refine ⟨by decide +kernel, ?_, by decide +kernel⟩
  have fresh : AllocatorRun .paged .unknown .paged [] := .start
  have run := (fresh.call .init trivial).call .getNode nofun
  exact ((nodeAllocator_sound (run.call .getNode nofun)).1 rfl).1

/-- After `Reset` every entry is free, while the counter is zero and `get_node` finds none. -/
theorem reset_not_counted :
    returned (AllocatorCall.init.run .paged) = true ∧
      ∃ events fs, AllocatorRun .paged .blank fs events ∧ fs.nat.freeNr = 0 ∧
        fs.nat.freeEntries = nodeNr ∧ returned (AllocatorCall.getNode.run fs) = true ∧
        AllocatorEvent.valueOf (AllocatorCall.getNode.run fs) = some (some invalidBlk) := by
  have fresh : AllocatorRun .paged .unknown .paged [] := .start
  have run := (fresh.call .init trivial).call .reset trivial
  exact ⟨by decide +kernel, _, _, run, rfl, by decide +kernel, by decide +kernel, by decide +kernel⟩

end FsChecking.F2fs
