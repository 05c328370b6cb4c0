import FsChecking.Tester.Explorer
import FsChecking.Tester.References

/-!
# Work items and the references of a tester

The holders of search states are the open list, `m_max_depth_state`, the local variables of the
coordinator and the work items on their way from `DoFsOperator_Queue` to the end of the round that
receives them. `Sound` collects what every step keeps: the counters agree with these holders, every
work item is in one place, and the state of a work item belongs to it alone.
-/

namespace FsChecking.Tester

open Lib

variable {σ ω ρ ε : Type}

namespace Phase

/-- The references in the local variables of the coordinator. -/
def locals : Phase ω → List Nat
  | .popped cur => [cur]
  | .recording cur => [cur]
  | .deciding cur => [cur]
  | .expanding cur => [cur]
  | .submitting cur _ _ => [cur]
  | .receiving cur _ _ _ => [cur]
  | .received cur _ _ _ _ => [cur]
  | .releasing cur _ _ _ _ => [cur]
  | .enumerating cur _ _ _ => [cur]
  | .operating cur _ _ _ newState => [cur, newState]
  | .expanded cur _ => [cur]
  | .putting state next => state.toList ++ next.locals
  | .loop => []
  | .finishRun => []
  | .finishTest => []
  | .finished => []

/-- The work item that has been received and whose two states have not been dealt with. -/
def item : Phase ω → Option Nat
  | .received _ _ _ _ slot => some slot
  | .putting _ next => next.item
  | _ => none

/-- The work item of which only the source state has not been dealt with. -/
def source : Phase ω → Option Nat
  | .releasing _ _ _ _ slot => some slot
  | .putting _ next => next.source
  | _ => none

/-- The number of completions that the coordinator is going to receive. -/
def left : Phase ω → Nat
  | .submitting _ _ contextId => contextId
  | .receiving _ left _ _ => left
  | .received _ left _ _ _ => left
  | .releasing _ left _ _ _ => left
  | .putting _ next => next.left
  | _ => 0

/-- The next slot, while operations are submitted. -/
def contextId : Phase ω → Option Nat
  | .submitting _ _ contextId => some contextId
  | .putting _ next => next.contextId
  | _ => none

/-- Whether `m_max_depth_state` is about to be set. -/
def records : Phase ω → Bool
  | .recording _ => true
  | .putting _ next => next.records
  | _ => false

/-- The number of states that stand in front of `insert` in the open list. -/
def inserted : Phase ω → Nat
  | .receiving _ _ _ inserted => inserted
  | .received _ _ _ inserted _ => inserted
  | .releasing _ _ _ inserted _ => inserted
  | .enumerating _ _ _ inserted => inserted
  | .operating _ _ _ inserted _ => inserted
  | .putting _ next => next.inserted
  | _ => 0

/-- Going from one phase to another leaves the work items where they are. -/
structure Keeps (before after : Phase ω) : Prop where
  /-- The same item has been received. -/
  item : after.item = before.item
  /-- The same source state is left. -/
  source : after.source = before.source
  /-- The same number of completions is left. -/
  left : after.left = before.left
  /-- The next slot is the same, unless nothing has been submitted. -/
  contextId : after.contextId = before.contextId ∨ before.left = 0

end Phase

/-- The work item in the hands of a worker that has not copied the source state. -/
def Worker.taken? : Worker → Option Nat
  | .took slot => some slot
  | _ => none

/-- The work item in the hands of a worker that has copied the source state. -/
def Worker.copied? : Worker → Option Nat
  | .duplicated slot => some slot
  | .ran slot => some slot
  | _ => none

namespace ExTester

/-- The work items in the hands of the workers, as far as they are counted. -/
def hands (config : Config σ ω ρ ε) (tester : ExTester σ ω ε) (slot? : Worker → Option Nat) :
    List Nat :=
  (List.range config.threadNum).filterMap fun worker => slot? (tester.workers worker)

/-- The work items that have been submitted and not been received. -/
def pending (config : Config σ ω ρ ε) (tester : ExTester σ ω ε) : List Nat :=
  tester.subQ ++ tester.hands config Worker.taken? ++
    (tester.hands config Worker.copied? ++ tester.cmpQ)

/-- The pending work items whose state is not a copy yet. -/
def uncopied (config : Config σ ω ρ ε) (tester : ExTester σ ω ε) : List Nat :=
  tester.subQ ++ tester.hands config Worker.taken?

/-- The work items that refer to their two states. -/
def workItems (config : Config σ ω ρ ε) (tester : ExTester σ ω ε) : List Nat :=
  tester.pending config ++ tester.phase.item.toList

/-- The references of the open list, of `m_max_depth_state` and of the coordinator. -/
def held (tester : ExTester σ ω ε) : List Nat :=
  tester.openList ++ tester.maxDepthState.toList ++ tester.phase.locals

/-- The references of the work items. -/
def carried (config : Config σ ω ρ ε) (tester : ExTester σ ω ε) : List Nat :=
  (tester.workItems config).map (fun slot => (tester.works slot).state) ++
    (tester.workItems config ++ tester.phase.source.toList).map
      fun slot => (tester.works slot).srcState

/-- The holders of the states: one entry for each reference. -/
def holders (config : Config σ ω ρ ε) (tester : ExTester σ ω ε) : List Nat :=
  tester.held ++ tester.carried config

/-- The local variables of the coordinator fit the members of the tester. -/
structure Fits (tester : ExTester σ ω ε) : Prop where
  /-- No `m_max_depth_state` is overwritten. -/
  records : tester.phase.records = true → tester.maxDepthState = none
  /-- The position of `insert` is in the open list. -/
  inserted : tester.phase.inserted ≤ tester.openList.length

/-- What every step of the tester keeps. -/
structure Sound (config : Config σ ω ρ ε) (tester : ExTester σ ω ε) : Prop where
  /-- The counters agree with the holders. -/
  accounted : Accounted tester.states (tester.holders config)
  /-- Every work item is in one place. -/
  distinct : (tester.workItems config ++ tester.phase.source.toList).Nodup
  /-- As many completions are pending as the coordinator waits for. -/
  outstanding : (tester.pending config).length = tester.phase.left
  /-- The next slot is behind the pending work items. -/
  below : ∀ contextId, tester.phase.contextId = some contextId →
    ∀ slot ∈ tester.pending config, slot < contextId
  /-- Nothing but its work item refers to the state of a work item. -/
  own : ∀ slot ∈ tester.workItems config,
    (tester.states.state (tester.works slot).state).ref = 1
  /-- The state of a work item has no parent before it is a copy. -/
  orphan : ∀ slot ∈ tester.uncopied config,
    (tester.states.state (tester.works slot).state).parent = none
  /-- The local variables of the coordinator are right. -/
  fits : tester.Fits

variable {config : Config σ ω ρ ε} {tester tester' : ExTester σ ω ε} {slot worker : Nat}

/-- Items that are not copied are pending. -/
theorem pending_of_uncopied (member : slot ∈ tester.uncopied config) :
    slot ∈ tester.pending config := List.mem_append_left _ member

/-- Pending work items are work items. -/
theorem workItem_of_pending (member : slot ∈ tester.pending config) :
    slot ∈ tester.workItems config := List.mem_append_left _ member

/-- How the hands change with one worker. -/
theorem hands_update (tester' : ExTester σ ω ε) (inside : worker < config.threadNum)
    (slot? : Worker → Option Nat) (value : Worker) (workers : tester'.workers = Function.update tester.workers worker value) :
    (tester'.hands config slot? ++ (slot? (tester.workers worker)).toList).Perm
      (tester.hands config slot? ++ (slot? value).toList) := by
  unfold hands
  rw [workers]
  exact filterMap_range_update slot? tester.workers inside value

namespace Sound

/-- The state of a work item is live. -/
theorem live_state (sound : Sound config tester) (member : slot ∈ tester.workItems config) :
    tester.states.Live (tester.works slot).state := by
  apply sound.accounted.live_of_mem
  apply List.mem_append_right
  apply List.mem_append_left
  exact List.mem_map.mpr ⟨slot, member, rfl⟩

/-- The source state of a work item is live. -/
theorem live_source (sound : Sound config tester) (member : slot ∈ tester.workItems config) :
    tester.states.Live (tester.works slot).srcState := by
  apply sound.accounted.live_of_mem
  apply List.mem_append_right
  apply List.mem_append_right
  exact List.mem_map.mpr ⟨slot, List.mem_append_left _ member, rfl⟩

/-- The state of a work item has one holder and no child. -/
theorem single (sound : Sound config tester) (member : slot ∈ tester.workItems config) :
    (tester.holders config).count (tester.works slot).state = 1 ∧
      tester.states.liveChildren (tester.works slot).state = 0 := by
  have exact_count := sound.accounted.ref_eq (sound.live_state member)
  rw [sound.own slot member] at exact_count
  have listed : (tester.works slot).state ∈ tester.holders config :=
    List.mem_append_right _ (List.mem_append_left _ (List.mem_map.mpr ⟨slot, member, rfl⟩))
  have positive := List.count_pos_iff.mpr listed
  omega

/-- The state of a work item is held neither by the coordinator nor as a source state. -/
theorem foreign (sound : Sound config tester) (member : slot ∈ tester.workItems config) :
    (tester.works slot).state ∉ tester.held ∧
      (tester.works slot).state ∉
        (tester.workItems config ++ tester.phase.source.toList).map
          fun slot => (tester.works slot).srcState := by
  have once := (sound.single member).1
  have listed := List.count_pos_iff.mpr
    (List.mem_map.mpr ⟨slot, member, rfl⟩ :
      (tester.works slot).state ∈ (tester.workItems config).map fun slot =>
        (tester.works slot).state)
  unfold holders carried at once
  rw [List.count_append, List.count_append] at once
  constructor
  · intro also
    have positive := List.count_pos_iff.mpr also
    omega
  · intro also
    have positive := List.count_pos_iff.mpr also
    omega

/-- Two work items have different states. -/
theorem state_ne (sound : Sound config tester) (member : slot ∈ tester.workItems config)
    {other : Nat} (also : other ∈ tester.workItems config) (apart : other ≠ slot) :
    (tester.works other).state ≠ (tester.works slot).state := by
  intro same
  have once := (sound.single member).1
  unfold holders carried at once
  rw [List.count_append, List.count_append] at once
  let stateOf := fun slot => (tester.works slot).state
  have twice : 2 ≤ ((tester.workItems config).map stateOf).count (stateOf slot) := by
    obtain ⟨first, second, split⟩ := List.append_of_mem member
    rw [split, List.map_append, List.map_cons, List.count_append, List.count_cons_self]
    have listed : other ∈ first ++ second := by
      rw [split, List.mem_append, List.mem_cons] at also
      rw [List.mem_append]
      rcases also with left | here | right
      · exact .inl left
      · exact absurd here apart
      · exact .inr right
    rcases List.mem_append.mp listed with left | right
    · have positive := List.count_pos_iff.mpr (List.mem_map.mpr ⟨other, left, same⟩ :
        stateOf slot ∈ first.map stateOf)
      omega
    · have positive := List.count_pos_iff.mpr (List.mem_map.mpr ⟨other, right, same⟩ :
        stateOf slot ∈ second.map stateOf)
      omega
  change 2 ≤ ((tester.workItems config).map fun slot => (tester.works slot).state).count
    (tester.works slot).state at twice
  omega

/-- Without completions to wait for there are no work items. -/
theorem idle (sound : Sound config tester) (left : tester.phase.left = 0)
    (item : tester.phase.item = none) : tester.workItems config = [] := by
  unfold workItems
  rw [item, List.append_eq_nil_iff]
  exact ⟨by rw [← List.length_eq_zero_iff, sound.outstanding, left], rfl⟩

/-- A step that leaves the work items where they are. -/
theorem coordinated (sound : Sound config tester) (works : tester'.works = tester.works)
    (workers : tester'.workers = tester.workers) (subQ : tester'.subQ = tester.subQ)
    (cmpQ : tester'.cmpQ = tester.cmpQ) (keeps : tester.phase.Keeps tester'.phase)
    (fits : tester'.Fits)
    (accounted : Accounted tester'.states (tester'.held ++ tester.carried config))
    (same : ∀ slot ∈ tester.workItems config,
      tester'.states.state (tester.works slot).state =
        tester.states.state (tester.works slot).state) : Sound config tester' := by
  have pending : tester'.pending config = tester.pending config := by
    unfold ExTester.pending hands
    rw [workers, subQ, cmpQ]
  have workItems : tester'.workItems config = tester.workItems config := by
    unfold ExTester.workItems
    rw [pending, keeps.item]
  have carried : tester'.carried config = tester.carried config := by
    unfold ExTester.carried
    rw [workItems, keeps.source, works]
  exact
    { accounted := by rwa [← carried] at accounted
      distinct := by
        rw [workItems, keeps.source]
        exact sound.distinct
      outstanding := by rw [pending, keeps.left, sound.outstanding]
      below := by
        rw [pending]
        rcases keeps.contextId with kept | none_left
        · rw [kept]
          exact sound.below
        · have empty : tester.pending config = [] := by
            rw [← List.length_eq_zero_iff, sound.outstanding, none_left]
          simp [empty]
      own := by
        rw [workItems, works]
        intro slot member
        rw [same slot member, sound.own slot member]
      orphan := by
        have uncopied : tester'.uncopied config = tester.uncopied config := by
          unfold ExTester.uncopied hands
          rw [workers, subQ]
        rw [uncopied, works]
        intro slot member
        rw [same slot (workItem_of_pending (pending_of_uncopied member)),
          sound.orphan slot member]
      fits := fits }

/-- A step that leaves the work items where they are, and the states as they are. -/
theorem moved (sound : Sound config tester) (works : tester'.works = tester.works)
    (workers : tester'.workers = tester.workers) (subQ : tester'.subQ = tester.subQ)
    (cmpQ : tester'.cmpQ = tester.cmpQ) (keeps : tester.phase.Keeps tester'.phase)
    (fits : tester'.Fits)
    (states : tester'.states = tester.states) (held : tester'.held.Perm tester.held) :
    Sound config tester' := by
  refine sound.coordinated works workers subQ cmpQ keeps fits ?_ fun slot _ => ?_
  · rw [states]
    exact sound.accounted.perm (held.append_right _)
  · rw [states]

/-- A step that passes work items on: they stay work items, and their states keep their counters. -/
theorem passed (sound : Sound config tester) (held : tester'.held.Perm tester.held)
    (workItems : (tester'.workItems config).Perm (tester.workItems config))
    (source : tester'.phase.source = tester.phase.source)
    (outstanding : (tester'.pending config).length = tester'.phase.left)
    (below : ∀ contextId, tester'.phase.contextId = some contextId →
      ∀ slot ∈ tester'.pending config, slot < contextId)
    (uncopied : ∀ slot ∈ tester'.uncopied config, slot ∈ tester.uncopied config)
    (fits : tester'.Fits)
    (state : ∀ slot, (tester'.works slot).state = (tester.works slot).state)
    (srcState : ∀ slot, (tester'.works slot).srcState = (tester.works slot).srcState)
    (accounted : Accounted tester'.states (tester.holders config))
    (own : ∀ slot ∈ tester.workItems config,
      (tester'.states.state (tester.works slot).state).ref = 1)
    (orphan : ∀ slot ∈ tester'.uncopied config,
      (tester'.states.state (tester.works slot).state).parent =
        (tester.states.state (tester.works slot).state).parent) : Sound config tester' := by
  have carried : (tester'.carried config).Perm (tester.carried config) := by
    unfold ExTester.carried
    rw [source, funext state, funext srcState]
    exact (workItems.map _).append ((workItems.append_right _).map _)
  exact
    { accounted := accounted.perm (held.append carried)
      distinct := by
        rw [source]
        exact (workItems.append_right _).nodup_iff.mpr sound.distinct
      outstanding := outstanding
      below := below
      own := by
        intro slot member
        rw [state]
        exact own slot (workItems.mem_iff.mp member)
      orphan := by
        intro slot member
        rw [state, orphan slot member]
        exact sound.orphan slot (uncopied slot member)
      fits := fits }

/-- A step of a worker. -/
theorem worked (sound : Sound config tester) (openList : tester'.openList = tester.openList)
    (maxDepthState : tester'.maxDepthState = tester.maxDepthState)
    (phase : tester'.phase = tester.phase)
    (pending : (tester'.pending config).Perm (tester.pending config))
    (uncopied : ∀ slot ∈ tester'.uncopied config, slot ∈ tester.uncopied config)
    (state : ∀ slot, (tester'.works slot).state = (tester.works slot).state)
    (srcState : ∀ slot, (tester'.works slot).srcState = (tester.works slot).srcState)
    (accounted : Accounted tester'.states (tester.holders config))
    (own : ∀ slot ∈ tester.workItems config,
      (tester'.states.state (tester.works slot).state).ref = 1)
    (orphan : ∀ slot ∈ tester'.uncopied config,
      (tester'.states.state (tester.works slot).state).parent =
        (tester.states.state (tester.works slot).state).parent) : Sound config tester' := by
  have held : tester'.held = tester.held := by
    unfold ExTester.held
    rw [openList, maxDepthState, phase]
  refine sound.passed (by rw [held]) ?_ (by rw [phase]) ?_ ?_ uncopied ⟨?_, ?_⟩ state srcState
    accounted own orphan
  · unfold ExTester.workItems
    rw [phase]
    exact pending.append_right _
  · rw [pending.length_eq, phase, sound.outstanding]
  · rw [phase]
    intro contextId here slot member
    exact sound.below contextId here slot (pending.mem_iff.mp member)
  · rw [phase, maxDepthState]
    exact sound.fits.records
  · rw [phase, openList]
    exact sound.fits.inserted

end Sound

end ExTester

end FsChecking.Tester
