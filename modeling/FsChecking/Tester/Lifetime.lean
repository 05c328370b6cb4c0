import FsChecking.Tester.Workers
import Mathlib.Logic.Relation

/-!
# Life time of search states and work items

The history of a run shows each slot of `m_works` as submitted, completed and received in turn, and
a slot is on its way exactly between its submission and its reception. With the accounts of `Sound`
this is the life time of work items and search states over every run of the tester.
-/

namespace FsChecking.Tester

variable {σ ω ρ ε : Type}

/-- The stages of a work item. -/
inductive Stage where
  /-- Pushed to `m_sub_q`. -/
  | submitted
  /-- Pushed to `m_cmp_q`. -/
  | completed
  /-- Taken from `m_cmp_q`. -/
  | received
  deriving DecidableEq

/-- The stage whose turn it is after a number of stages. -/
def Stage.turn (count : Nat) : Stage :=
  if count % 3 = 0 then .submitted else if count % 3 = 1 then .completed else .received

/-- The stage of a slot that an event is. -/
def Event.stage? (slot : Nat) : Event σ ω ρ → Option Stage
  | .submit other => if other = slot then some .submitted else none
  | .complete other => if other = slot then some .completed else none
  | .receive other => if other = slot then some .received else none
  | .get _ => none
  | .execute _ _ _ _ _ _ => none

/-- The stages of a slot in a history. -/
def stages (slot : Nat) (events : List (Event σ ω ρ)) : List Stage :=
  events.filterMap (Event.stage? slot)

/-- The stages come in turn: submitted, completed, received, submitted, and so on. -/
def InTurn (list : List Stage) : Prop := list = (List.range list.length).map Stage.turn

/-- The next stage in turn. -/
theorem InTurn.snoc {list : List Stage} (inTurn : InTurn list) :
    InTurn (list ++ [Stage.turn list.length]) := by
  unfold InTurn
  rw [List.length_append, List.length_singleton, List.range_succ, List.map_append, ← inTurn]
  rfl

/-- Whose turn it is depends on the rest modulo three. -/
theorem Stage.turn_mod (count : Nat) : Stage.turn (count % 3) = Stage.turn count := by
  unfold Stage.turn
  rw [Nat.mod_mod]

namespace ExTester

variable {config : Config σ ω ρ ε} {tester next : ExTester σ ω ε} {emitted : List (Event σ ω ρ)}

/-- The work items that have been submitted and not been completed. -/
def awaiting (config : Config σ ω ρ ε) (tester : ExTester σ ω ε) : List Nat :=
  tester.subQ ++ tester.hands config Worker.slot?

/-- How far a slot is on its way. -/
def progress (config : Config σ ω ρ ε) (tester : ExTester σ ω ε) (slot : Nat) : Nat :=
  if slot ∈ tester.awaiting config then 1 else if slot ∈ tester.cmpQ then 2 else 0

/-- A step moves a slot on by one stage, or leaves it. -/
def Advances (config : Config σ ω ρ ε) (tester next : ExTester σ ω ε)
    (emitted : List (Event σ ω ρ)) (slot : Nat) : Prop :=
  (stages slot emitted = [] ∧ next.progress config slot = tester.progress config slot) ∨
    (stages slot emitted = [Stage.turn (tester.progress config slot)] ∧
      next.progress config slot = (tester.progress config slot + 1) % 3)

/-- A step without stages that leaves the slots where they are. -/
theorem Advances.still {slot : Nat} (silent : stages slot emitted = [])
    (awaiting : slot ∈ next.awaiting config ↔ slot ∈ tester.awaiting config)
    (cmpQ : next.cmpQ = tester.cmpQ) : Advances config tester next emitted slot := by
  refine .inl ⟨silent, ?_⟩
  unfold progress
  rw [if_congr awaiting rfl rfl, cmpQ]

/-- Working on a work item in one's hands is no stage. -/
theorem Advances.kept {worker slot : Nat} {value : Worker} {states : StateManager σ ω}
    {works : Nat → WorkContext} (inside : worker < config.threadNum)
    (kept : value.slot? = (tester.workers worker).slot?) (silent : stages slot emitted = []) :
    Advances config tester
      { tester with
        workers := Function.update tester.workers worker value, states := states, works := works }
      emitted slot := by
  let next : ExTester σ ω ε :=
    { tester with
      workers := Function.update tester.workers worker value, states := states, works := works }
  change Advances config tester next emitted slot
  have moved := hands_update next inside Worker.slot? value rfl
  rw [kept, List.perm_append_right_iff] at moved
  refine .still silent ?_ rfl
  unfold awaiting
  rw [List.mem_append, List.mem_append, moved.mem_iff]

/-- The stages of every slot come in turn, as far as the slot is on its way. -/
def Scheduled (config : Config σ ω ρ ε) (events : List (Event σ ω ρ)) (tester : ExTester σ ω ε) :
    Prop :=
  ∀ slot, InTurn (stages slot events) ∧
    (stages slot events).length % 3 = tester.progress config slot

/-- Every step keeps the schedule. -/
theorem Scheduled.step {events : List (Event σ ω ρ)} (scheduled : Scheduled config events tester)
    (advances : ∀ slot, Advances config tester next emitted slot) :
    Scheduled config (events ++ emitted) next := by
  intro slot
  obtain ⟨inTurn, length⟩ := scheduled slot
  have split : stages slot (events ++ emitted) = stages slot events ++ stages slot emitted :=
    List.filterMap_append
  rw [split]
  rcases advances slot with ⟨silent, same⟩ | ⟨stage, moved⟩
  · rw [silent, List.append_nil, same]
    exact ⟨inTurn, length⟩
  · rw [stage, moved, ← length, Stage.turn_mod, List.length_append, List.length_singleton,
      Nat.mod_add_mod]
    exact ⟨inTurn.snoc, rfl⟩

/-- A state that `m_parent` leads to from another one. -/
def Reaches (manager : StateManager σ ω) : Nat → Nat → Prop :=
  Relation.ReflTransGen fun state parent => (manager.state state).parent = some parent

end ExTester

end FsChecking.Tester
