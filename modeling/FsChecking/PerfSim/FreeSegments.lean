import FsChecking.PerfSim.SegmentManager

/-!
# Runs of the free segment queue

`AllocSegment` and `FreeSegment` of the two segment managers are the same calls of a circular queue
and differ only in what they do to the segment itself. Any sequence of calls, freeing only segments
that were allocated, is compared with a queue that never runs short while a segment is free.
-/

namespace FsChecking.PerfSim

open Lib

/-- `CF2fsSegmentManager`: the segment tables with the erase counters that survive `FreeSegment`. -/
structure F2fsSegmentManager (β : Type) extends SegmentManager β where
  /-- `erase_count` of each segment. -/
  eraseCount : Nat → Nat

namespace F2fsSegmentManager

variable {β : Type}

/-- `CF2fsSegmentManager::InitSegmentManager`. -/
def initSegmentManager (segmentNr : Nat) : F2fsSegmentManager β :=
  { SegmentManager.initSegmentManager segmentNr with eraseCount := fun _ => 0 }

/-- The tables with a segment handed out. -/
def handOut (manager : F2fsSegmentManager β) (free : CircularQueue Nat) (seg : Nat)
    (temp : BlkTemp) : F2fsSegmentManager β :=
  { toSegmentManager := { manager.toSegmentManager with free := free }.updateSeg seg fun info =>
      { info with segTemp := some temp }
    eraseCount := Function.update manager.eraseCount seg (dword (manager.eraseCount seg + 1)) }

/-- The tables with a segment taken back, which keeps its erase counter. -/
def takeBack (manager : F2fsSegmentManager β) (free : CircularQueue Nat) (seg : Nat) :
    F2fsSegmentManager β :=
  { manager with
    toSegmentManager := { manager.toSegmentManager with free := free }.updateSeg seg fun _ =>
      .blank }

/-- `CF2fsSegmentManager::AllocSegment`. -/
def allocSegment (temp : BlkTemp) : EStateM SimError (F2fsSegmentManager β) Nat := do
  match (← get).free.pop with
  | none => throw (.app "no enough free segment")
  | some (seg, free) =>
    modify fun manager => manager.handOut free seg temp
    return seg

/-- `CF2fsSegmentManager::FreeSegment`. -/
def freeSegment (seg : Nat) : EStateM SimError (F2fsSegmentManager β) Unit := do
  match (← get).free.push seg with
  | none =>
    modify fun manager =>
      { manager with free := { manager.free with tail := manager.free.next manager.free.tail } }
    throw (.app "free buffer full")
  | some free => modify fun manager => manager.takeBack free seg

end F2fsSegmentManager

/-- A segment manager as its free segment queue sees it. -/
structure QueueOwner (M : Type) where
  /-- The free segments. -/
  free : M → CircularQueue Nat
  /-- `InitSegmentManager`. -/
  init : Nat → M
  /-- `AllocSegment`. -/
  allocSegment : BlkTemp → EStateM SimError M Nat
  /-- `FreeSegment`. -/
  freeSegment : Nat → EStateM SimError M Unit
  /-- At first every segment is queued, in order. -/
  init_free : ∀ segmentNr, free (init segmentNr) =
    { capacity := segmentNr, slots := id, head := 0, tail := segmentNr - 1, count := segmentNr }
  /-- `AllocSegment` fails without a change when the queue gives nothing. -/
  allocSegment_none : ∀ temp manager, (free manager).pop = none →
    allocSegment temp manager = .error (.app "no enough free segment") manager
  /-- `AllocSegment` hands out what the queue gives. -/
  allocSegment_some : ∀ temp manager seg rest, (free manager).pop = some (seg, rest) →
    ∃ manager', allocSegment temp manager = .ok seg manager' ∧ free manager' = rest
  /-- `FreeSegment` queues the segment when the queue takes it. -/
  freeSegment_some : ∀ seg manager more, (free manager).push seg = some more →
    ∃ manager', freeSegment seg manager = .ok () manager' ∧ free manager' = more

/-- `CSegmentManagerBase`. -/
def segmentManagerBase (β : Type) : QueueOwner (SegmentManager β) where
  free := SegmentManager.free
  init := SegmentManager.initSegmentManager
  allocSegment := allocSegment
  freeSegment := freeSegment
  init_free _ := rfl
  allocSegment_none temp manager empty := by
    unfold PerfSim.allocSegment
    rw [get_bind_apply, empty]
    rfl
  allocSegment_some temp manager seg rest taken := by
    refine ⟨({ manager with free := rest }).updateSeg seg fun info =>
      { info with segTemp := some temp }, ?_, rfl⟩
    unfold PerfSim.allocSegment
    rw [get_bind_apply, taken]
    rfl
  freeSegment_some seg manager more added := by
    refine ⟨({ manager with free := more }).updateSeg seg fun _ => .blank, ?_, rfl⟩
    unfold PerfSim.freeSegment
    rw [get_bind_apply, added]
    rfl

/-- `CF2fsSegmentManager` of the performance simulator. -/
def f2fsSegmentManager (β : Type) : QueueOwner (F2fsSegmentManager β) where
  free manager := manager.free
  init := F2fsSegmentManager.initSegmentManager
  allocSegment := F2fsSegmentManager.allocSegment
  freeSegment := F2fsSegmentManager.freeSegment
  init_free _ := rfl
  allocSegment_none temp manager empty := by
    unfold F2fsSegmentManager.allocSegment
    rw [get_bind_apply, empty]
    rfl
  allocSegment_some temp manager seg rest taken := by
    refine ⟨manager.handOut rest seg temp, ?_, rfl⟩
    unfold F2fsSegmentManager.allocSegment
    rw [get_bind_apply, taken]
    rfl
  freeSegment_some seg manager more added := by
    refine ⟨manager.takeBack more seg, ?_, rfl⟩
    unfold F2fsSegmentManager.freeSegment
    rw [get_bind_apply, added]
    rfl

/-- A call of the free segment queue. -/
inductive QueueCall where
  /-- `AllocSegment(temp)`. -/
  | allocSegment (temp : BlkTemp)
  /-- `FreeSegment(seg_id)`. -/
  | freeSegment (seg : Nat)

namespace QueueOwner

variable {M : Type}

/-- The state behind a call, whether it returns or throws. -/
def after (owner : QueueOwner M) (manager : M) : QueueCall → M
  | .allocSegment temp => finalState (owner.allocSegment temp manager)
  | .freeSegment seg => finalState (owner.freeSegment seg manager)

/-- The segments handed out and not freed, behind a call. -/
def liveAfter (owner : QueueOwner M) (manager : M) (live : List Nat) : QueueCall → List Nat
  | .allocSegment temp =>
    match owner.allocSegment temp manager with
    | .ok seg _ => seg :: live
    | .error _ _ => live
  | .freeSegment seg => live.erase seg

/-- Only segments that are handed out are freed. -/
def FreesAllocated (owner : QueueOwner M) : M → List Nat → List QueueCall → Prop
  | _, _, [] => True
  | manager, live, call :: calls =>
    (∀ seg, call = .freeSegment seg → seg ∈ live) ∧
      owner.FreesAllocated (owner.after manager call) (owner.liveAfter manager live call) calls

/-- No segment is asked for while exactly one is free. -/
def NeverAsksForLast (owner : QueueOwner M) : M → List QueueCall → Prop
  | _, [] => True
  | manager, call :: calls =>
    (∀ temp, call = .allocSegment temp → (owner.free manager).count ≠ 1) ∧
      owner.NeverAsksForLast (owner.after manager call) calls

/-- The manager holds exactly the listed segments, first to last, and counts them. -/
def Queues (owner : QueueOwner M) (manager : M) (queued : List Nat) : Prop :=
  (owner.free manager).items = queued ∧ (owner.free manager).count = queued.length

/-- The calls do what a queue of segments does: the segment that was put in first comes out, unless
none is left, a segment that comes out is not in use, and a freed segment goes in last. -/
def Exact (owner : QueueOwner M) : M → List Nat → List Nat → List QueueCall → Prop
  | manager, queued, _, [] => owner.Queues manager queued
  | manager, [], live, .allocSegment temp :: calls =>
    owner.Queues manager [] ∧
      (∃ error manager', owner.allocSegment temp manager = .error error manager') ∧
      owner.Exact (owner.after manager (.allocSegment temp)) [] live calls
  | manager, seg :: queued, live, .allocSegment temp :: calls =>
    owner.Queues manager (seg :: queued) ∧ seg ∉ live ∧
      (∃ manager', owner.allocSegment temp manager = .ok seg manager') ∧
      owner.Exact (owner.after manager (.allocSegment temp)) queued (seg :: live) calls
  | manager, queued, live, .freeSegment seg :: calls =>
    owner.Queues manager queued ∧
      (∃ manager', owner.freeSegment seg manager = .ok () manager') ∧
      owner.Exact (owner.after manager (.freeSegment seg)) (queued ++ [seg]) (live.erase seg) calls

/-- What holds between the calls of a run: the queue and the segments in use share out the
segments. -/
structure Shared (owner : QueueOwner M) (manager : M) (queued live : List Nat) : Prop where
  /-- The queue. -/
  holds : (owner.free manager).Holds queued
  /-- Every segment is queued or in use, and only once. -/
  shares : (queued ++ live).Perm (List.range (owner.free manager).capacity)
  /-- A segment is in use only while another is queued. -/
  occupied : 0 < (owner.free manager).capacity → 0 < queued.length

variable {owner : QueueOwner M} {manager : M} {queued live : List Nat}

/-- A manager starts with every segment queued. -/
theorem shared_init (segmentNr : Nat) :
    owner.Shared (owner.init segmentNr) (List.range segmentNr) [] where
  holds := by
    rw [owner.init_free]
    exact CircularQueue.holds_range rfl rfl rfl fun _ _ => rfl
  shares := by
    rw [owner.init_free, List.append_nil]
  occupied := by
    rw [owner.init_free, List.length_range]
    exact id

/-- The list of the queued segments that the manager holds. -/
theorem Shared.queues (shared : owner.Shared manager queued live) :
    owner.Queues manager queued :=
  ⟨shared.holds.items_eq, shared.holds.count⟩

/-- The queued segments and those in use are distinct. -/
theorem Shared.nodup (shared : owner.Shared manager queued live) : (queued ++ live).Nodup :=
  shared.shares.nodup_iff.mpr List.nodup_range

/-- `AllocSegment` with two segments queued hands out the first. -/
theorem Shared.allocSegment_some {seg next : Nat} (temp : BlkTemp)
    (shared : owner.Shared manager (seg :: next :: queued) live) :
    ∃ manager', owner.allocSegment temp manager = .ok seg manager' ∧
      owner.Shared manager' (next :: queued) (seg :: live) := by
  have available : (owner.free manager).pop ≠ none := by
    intro refused
    have short := shared.holds.pop_eq_none.mp refused
    simp at short
  obtain ⟨⟨first, rest⟩, taken⟩ := Option.ne_none_iff_exists'.mp available
  obtain ⟨manager', handed, left⟩ := owner.allocSegment_some temp manager first rest taken
  obtain ⟨others, split, holds, same⟩ := shared.holds.pop taken
  obtain ⟨rfl, rfl⟩ := List.cons.inj split
  refine ⟨manager', handed, ?_⟩
  rw [← left] at holds same
  exact
    { holds := holds
      shares := by
        rw [same]
        exact List.perm_middle.trans shared.shares
      occupied := fun _ => Nat.succ_pos _ }

/-- `AllocSegment` with at most one segment queued throws. -/
theorem Shared.allocSegment_none (temp : BlkTemp) (shared : owner.Shared manager queued live)
    (short : queued.length ≤ 1) :
    owner.allocSegment temp manager = .error (.app "no enough free segment") manager :=
  owner.allocSegment_none temp manager (shared.holds.pop_eq_none.mpr short)

/-- `FreeSegment` of a segment in use queues it. -/
theorem Shared.freeSegment {seg : Nat} (shared : owner.Shared manager queued live)
    (used : seg ∈ live) :
    ∃ manager', owner.freeSegment seg manager = .ok () manager' ∧
      owner.Shared manager' (queued ++ [seg]) (live.erase seg) := by
  have total : queued.length + live.length = (owner.free manager).capacity := by
    rw [← List.length_append, shared.shares.length_eq, List.length_range]
  have inUse : 0 < live.length := List.length_pos_of_mem used
  have occupied := shared.occupied (by omega)
  have taken : (owner.free manager).push seg ≠ none :=
    shared.holds.push_ne_none occupied (by omega)
  obtain ⟨more, added⟩ := Option.ne_none_iff_exists'.mp taken
  obtain ⟨manager', freed, left⟩ := owner.freeSegment_some seg manager more added
  obtain ⟨holds, same⟩ := shared.holds.push added
  refine ⟨manager', freed, ?_⟩
  rw [← left] at holds same
  exact
    { holds := holds
      shares := by
        rw [same, List.append_assoc]
        exact ((List.perm_cons_erase used).symm.append_left queued).trans shared.shares
      occupied := fun _ => by simp }

/-- From any state of a run, the calls are exact unless the last free segment is asked for. -/
theorem Shared.exact_iff (calls : List QueueCall) (shared : owner.Shared manager queued live)
    (proper : owner.FreesAllocated manager live calls) :
    owner.Exact manager queued live calls ↔ owner.NeverAsksForLast manager calls := by
  induction calls generalizing manager queued live with
  | nil => exact iff_of_true (by simpa only [Exact] using shared.queues) trivial
  | cons call calls ih =>
    obtain ⟨allowed, properRest⟩ := proper
    cases call with
    | allocSegment temp =>
      match queued, shared with
      | [], shared =>
        have refused := shared.allocSegment_none temp (Nat.zero_le 1)
        have stays : owner.after manager (.allocSegment temp) = manager := by
          simp only [after, refused, finalState]
        have keeps : owner.liveAfter manager live (.allocSegment temp) = live := by
          simp only [liveAfter, refused]
        rw [stays, keeps] at properRest
        have none_left : (owner.free manager).count = 0 := shared.holds.count
        simp only [Exact, NeverAsksForLast, stays, ih shared properRest, none_left]
        exact ⟨fun exact => ⟨fun _ _ => Nat.zero_ne_one, exact.2.2⟩,
          fun never => ⟨shared.queues, ⟨_, _, refused⟩, never.2⟩⟩
      | [seg], shared =>
        have refused := shared.allocSegment_none temp (Nat.le_refl 1)
        have one_left : (owner.free manager).count = 1 := shared.holds.count
        refine iff_of_false ?_ fun never => never.1 temp rfl one_left
        intro exact
        simp only [Exact] at exact
        obtain ⟨-, -, ⟨manager', handed⟩, -⟩ := exact
        rw [refused] at handed
        cases handed
      | seg :: next :: queued, shared =>
        obtain ⟨manager', handed, shared'⟩ := shared.allocSegment_some temp
        have moves : owner.after manager (.allocSegment temp) = manager' := by
          simp only [after, handed, finalState]
        have adds : owner.liveAfter manager live (.allocSegment temp) = seg :: live := by
          simp only [liveAfter, handed]
        rw [moves, adds] at properRest
        have fresh : seg ∉ live := by
          have distinct := shared.nodup
          rw [List.cons_append, List.nodup_cons, List.mem_append] at distinct
          exact fun used => distinct.1 (.inr used)
        have many : (owner.free manager).count ≠ 1 := by
          rw [shared.holds.count]
          simp
        simp only [Exact, NeverAsksForLast, moves, ih shared' properRest]
        exact ⟨fun exact => ⟨fun _ _ => many, exact.2.2.2⟩,
          fun never => ⟨shared.queues, fresh, ⟨_, handed⟩, never.2⟩⟩
    | freeSegment seg =>
      obtain ⟨manager', freed, shared'⟩ := shared.freeSegment (allowed seg rfl)
      have moves : owner.after manager (.freeSegment seg) = manager' := by
        simp only [after, freed, finalState]
      have drops : owner.liveAfter manager live (.freeSegment seg) = live.erase seg := rfl
      rw [moves, drops] at properRest
      simp only [Exact, NeverAsksForLast, moves, ih shared' properRest]
      exact ⟨fun exact => ⟨fun _ asks => QueueCall.noConfusion asks, exact.2.2⟩,
        fun never => ⟨shared.queues, ⟨_, freed⟩, never.2⟩⟩

end QueueOwner

/-- From the start of either segment manager, any calls that free only allocated segments are those
of an exact queue if and only if `AllocSegment` is never called while one segment is free. -/
theorem freeQueue_exact_iff (β : Type) (segmentNr : Nat) (calls : List QueueCall) :
    ((segmentManagerBase β).FreesAllocated ((segmentManagerBase β).init segmentNr) [] calls →
      ((segmentManagerBase β).Exact ((segmentManagerBase β).init segmentNr)
          (List.range segmentNr) [] calls ↔
        (segmentManagerBase β).NeverAsksForLast ((segmentManagerBase β).init segmentNr) calls)) ∧
    ((f2fsSegmentManager β).FreesAllocated ((f2fsSegmentManager β).init segmentNr) [] calls →
      ((f2fsSegmentManager β).Exact ((f2fsSegmentManager β).init segmentNr)
          (List.range segmentNr) [] calls ↔
        (f2fsSegmentManager β).NeverAsksForLast ((f2fsSegmentManager β).init segmentNr) calls)) :=
  ⟨(QueueOwner.shared_init segmentNr).exact_iff calls,
    (QueueOwner.shared_init segmentNr).exact_iff calls⟩

/-- The last free segment is asked for: two segments are queued, and only one is handed out. -/
theorem freeQueue_keeps_last :
    ((segmentManagerBase Nat).FreesAllocated ((segmentManagerBase Nat).init 2) []
        [.allocSegment .coldData, .allocSegment .coldData] ∧
      ¬(segmentManagerBase Nat).Exact ((segmentManagerBase Nat).init 2) (List.range 2) []
        [.allocSegment .coldData, .allocSegment .coldData]) ∧
    ((f2fsSegmentManager Nat).FreesAllocated ((f2fsSegmentManager Nat).init 2) []
        [.allocSegment .coldData, .allocSegment .coldData] ∧
      ¬(f2fsSegmentManager Nat).Exact ((f2fsSegmentManager Nat).init 2) (List.range 2) []
        [.allocSegment .coldData, .allocSegment .coldData]) := by
  refine ⟨⟨⟨nofun, nofun, trivial⟩, ?_⟩, ⟨nofun, nofun, trivial⟩, ?_⟩
  · rintro ⟨-, -, -, -, -, ⟨manager', handed⟩, -⟩
    cases handed
  · rintro ⟨-, -, -, -, -, ⟨manager', handed⟩, -⟩
    cases handed

/-- Three segments, of which two are in use when one of them is freed and another is asked for. -/
theorem freeQueue_exact_iff_three :
    (segmentManagerBase Nat).Exact ((segmentManagerBase Nat).init 3) (List.range 3) []
        [.allocSegment .coldData, .allocSegment .hotNode, .freeSegment 0,
          .allocSegment .coldData] ∧
      (f2fsSegmentManager Nat).Exact ((f2fsSegmentManager Nat).init 3) (List.range 3) []
        [.allocSegment .coldData, .allocSegment .hotNode, .freeSegment 0,
          .allocSegment .coldData] := by
  constructor
  · apply ((freeQueue_exact_iff Nat 3 _).1 ?_).mpr
    · exact ⟨fun _ _ => by decide, fun _ _ => by decide, nofun, fun _ _ => by decide, trivial⟩
    · refine ⟨nofun, nofun, ?_, nofun, trivial⟩
      intro seg freed
      cases freed
      decide
  · apply ((freeQueue_exact_iff Nat 3 _).2 ?_).mpr
    · exact ⟨fun _ _ => by decide, fun _ _ => by decide, nofun, fun _ _ => by decide, trivial⟩
    · refine ⟨nofun, nofun, ?_, nofun, trivial⟩
      intro seg freed
      cases freed
      decide

end FsChecking.PerfSim
