import FsChecking.Tester.Workers
import Mathlib.Data.List.Perm.Subperm

/-!
# Expanding one state

What the enumeration of the operations of one state has to do, whichever driver does it: a `Job` is
the list of operations with the file systems that they run on, and its outcomes are those of
`FsOperatorCore`. The closed table after a set of operations does not depend on their order, and the
states that must not change meanwhile do not.
-/

namespace FsChecking.Tester

open Lib

variable {σ ω ρ ε : Type}

/-- One execution of an operation: its position, the operation, the references to the state it runs
in, and the file systems of the state and of its ancestors. -/
abbrev Execution (σ ω : Type) : Type := Nat × Option ω × Nat × σ × List σ

/-- The execution that an event is. -/
def Event.execution? : Event σ ω ρ → Option (Execution σ ω)
  | .execute position op _ ref content ancestors => some (position, some op, ref, content, ancestors)
  | .get _ => none
  | .submit _ => none
  | .complete _ => none
  | .receive _ => none

/-- The executions in a history. -/
def executions (events : List (Event σ ω ρ)) : List (Execution σ ω) :=
  events.filterMap Event.execution?

/-- The random numbers of every execution are those of its position. -/
def Drawn (choice : Nat → ρ) (events : List (Event σ ω ρ)) : Prop :=
  ∀ position op random ref content ancestors,
    .execute position op random ref content ancestors ∈ events → random = choice position

/-- The enumeration of the operations of one state. -/
structure Job (σ ω ρ ε : Type) where
  /-- The operations. -/
  ops : List ω
  /-- The random numbers for each of them. -/
  choice : Nat → ρ
  /-- The file systems of the state. -/
  content : σ
  /-- The file systems of the state and of its ancestors. -/
  ancestors : List σ
  /-- The depth of the new states. -/
  depth : Nat
  /-- The closed table at the start. -/
  closed : ε → Option Nat

namespace Job

variable (config : Config σ ω ρ ε) (job : Job σ ω ρ ε)

/-- What `FsOperatorCore` makes of the operation at a position. -/
def outcome (position : Nat) : Option (σ × ω × CoreResult) :=
  job.ops[position]?.map
    (config.fsOperatorCore (job.choice position) job.ancestors job.content)

/-- The encoding that the operation at a position leads to, when it succeeds. -/
def okEncode (position : Nat) : Option ε :=
  match job.outcome config position with
  | some (content, _, .ok) => some (config.encode content)
  | _ => none

/-- The execution of the operation at a position, in a state of its own. -/
def execution (position : Nat) : Execution σ ω :=
  (position, job.ops[position]?, 1, job.content, job.ancestors)

/-- The encoding is closed at no greater depth when the enumeration starts. -/
def Known (encode : ε) : Prop := ∃ depth, job.closed encode = some depth ∧ depth ≤ job.depth

instance (encode : ε) : Decidable (job.Known encode) :=
  match same : job.closed encode with
  | none => .isFalse fun ⟨_, here, _⟩ => by simp [same] at here
  | some depth =>
    if below : depth ≤ job.depth then .isTrue ⟨depth, same, below⟩
    else .isFalse fun ⟨_, here, less⟩ => below (Option.some.inj (same.symm.trans here) ▸ less)

/-- The closed table after encodings have been inserted at the depth of the new states. -/
def closedWith [DecidableEq ε] (encodes : List ε) (encode : ε) : Option Nat :=
  if encode ∈ encodes ∧ ¬ job.Known encode then some job.depth else job.closed encode

variable {config job}

/-- The closed table depends only on which unknown encodings have been inserted. -/
theorem closedWith_congr [DecidableEq ε] {encodes encodes' : List ε}
    (same : ∀ encode, ¬ job.Known encode → (encode ∈ encodes ↔ encode ∈ encodes')) :
    job.closedWith encodes = job.closedWith encodes' := by
  funext encode
  unfold closedWith
  rw [if_congr (and_congr_left (same encode)) rfl rfl]

/-- Nothing has been inserted at the start. -/
theorem closedWith_nil [DecidableEq ε] : job.closedWith [] = job.closed := by
  funext encode
  exact if_neg fun both => List.not_mem_nil both.1

/-- `CheckAndInsert` finds what was closed or has been inserted, and inserts the encoding. -/
theorem checkAndInsert_closedWith [DecidableEq ε] (encodes : List ε) (encode : ε) :
    checkAndInsert (job.closedWith encodes) encode job.depth =
      (decide (job.Known encode ∨ encode ∈ encodes), job.closedWith (encode :: encodes)) := by
  have others : ∀ other, other ≠ encode →
      job.closedWith (encode :: encodes) other = job.closedWith encodes other := by
    intro other apart
    have member : other ∈ encode :: encodes ↔ other ∈ encodes :=
      List.mem_cons.trans (or_iff_right apart)
    unfold closedWith
    rw [if_congr (and_congr_left fun _ => member) rfl rfl]
  by_cases known : job.Known encode
  · obtain ⟨depth, here, below⟩ := id known
    have entry : job.closedWith encodes encode = some depth := by
      unfold closedWith
      rw [if_neg fun both => both.2 known, here]
    have unchanged : job.closedWith (encode :: encodes) = job.closedWith encodes := by
      funext other
      by_cases same : other = encode
      · subst same
        unfold closedWith
        rw [if_neg fun both => both.2 known, if_neg fun both => both.2 known]
      · exact others other same
    unfold checkAndInsert
    rw [entry, unchanged]
    simp [below, known]
  · have inserted : job.closedWith (encode :: encodes) encode = some job.depth :=
      if_pos ⟨List.mem_cons_self, known⟩
    have updated : Function.update (job.closedWith encodes) encode (some job.depth) =
        job.closedWith (encode :: encodes) := by
      funext other
      by_cases same : other = encode
      · rw [same, Function.update_self, inserted]
      · rw [Function.update_of_ne same, others other same]
    by_cases member : encode ∈ encodes
    · have entry : job.closedWith encodes encode = some job.depth := if_pos ⟨member, known⟩
      have unchanged : job.closedWith (encode :: encodes) = job.closedWith encodes := by
        rw [← updated, ← entry, Function.update_eq_self]
      unfold checkAndInsert
      rw [entry, unchanged]
      simp [member]
    · have entry : job.closedWith encodes encode = job.closed encode :=
        if_neg fun both => member both.1
      unfold checkAndInsert
      rw [entry, updated]
      cases here : job.closed encode with
      | none => simp [known, member]
      | some depth =>
        have above : ¬ depth ≤ job.depth := fun below => known ⟨depth, here, below⟩
        simp [above, known, member]

end Job

/-! ## Data that stay -/

/-- The data of an object, without its counter. -/
structure SameData (before after : FsState σ ω) : Prop where
  /-- The file systems. -/
  content : after.content = before.content
  /-- The operation. -/
  op : after.op = before.op
  /-- The parent. -/
  parent : after.parent = before.parent
  /-- The depth. -/
  depth : after.depth = before.depth

namespace SameData

/-- Nothing has changed. -/
theorem refl (state : FsState σ ω) : SameData state state := ⟨rfl, rfl, rfl, rfl⟩

/-- The same object. -/
theorem of_eq {before after : FsState σ ω} (same : after = before) : SameData before after :=
  same ▸ refl after

/-- One change after another. -/
theorem trans {first second third : FsState σ ω} (left : SameData first second)
    (right : SameData second third) : SameData first third :=
  ⟨right.content.trans left.content, right.op.trans left.op, right.parent.trans left.parent,
    right.depth.trans left.depth⟩

end SameData

namespace StateManager

variable {manager : StateManager σ ω} {address : Nat}

/-- Taking a reference changes no data. -/
theorem addRef_data (manager : StateManager σ ω) (address other : Nat) :
    SameData (manager.state other) ((manager.addRef address).state other) := by
  unfold addRef
  by_cases here : other = address
  · rw [here, setState_self]
    exact ⟨rfl, rfl, rfl, rfl⟩
  · rw [setState_of_ne here]
    exact .refl _

/-- Copying into a state changes no data of the others. -/
theorem duplicateFrom_data {srcState other : Nat} (apart : other ≠ address) :
    SameData (manager.state other) ((manager.duplicateFrom address srcState).state other) := by
  unfold duplicateFrom
  have after := addRef_data (manager.setState address
    { manager.state address with
      content := (manager.state srcState).content
      depth := (manager.state srcState).depth + 1
      parent := some srcState }) srcState other
  rwa [setState_of_ne apart] at after

/-- The data of a copy. -/
theorem duplicateFrom_self {srcState : Nat} (apart : address ≠ srcState) :
    (manager.duplicateFrom address srcState).state address =
      { manager.state address with
        content := (manager.state srcState).content
        depth := (manager.state srcState).depth + 1
        parent := some srcState } := by
  unfold duplicateFrom
  rw [addRef_of_ne apart, setState_self]

/-- One round of `put` changes no data, except of a state whose last reference is given back. -/
theorem putRound_data {other : Nat} (kept : other = address → 1 < (manager.state address).ref) :
    SameData (manager.state other) ((manager.putRound address).2.state other) := by
  by_cases here : other = address
  · subst here
    have more := kept rfl
    unfold putRound
    dsimp only
    have counter : decrement (manager.state other).ref ≠ 0 := by
      unfold decrement
      split <;> omega
    rw [if_pos counter, setState_self]
    exact ⟨rfl, rfl, rfl, rfl⟩
  · rw [putRound_of_ne here]
    exact .refl _

/-- The lineage of a chain that fits into the heap. -/
theorem lineage_eq {pointer : Option Nat} {path : List Nat}
    (chain : Chain (fun address => (manager.state address).parent) pointer path)
    (fits : path.length ≤ manager.allocated) :
    manager.lineage pointer = path.map fun address => (manager.state address).content := by
  unfold lineage
  rw [chain.walk_eq fits]

end StateManager

/-! ## The path to the root -/

/-- A live state has a finite path of live ancestors, in the order of falling depth. -/
theorem Accounted.exists_path {manager : StateManager σ ω} {references : List Nat}
    (accounted : Accounted manager references) {address : Nat} (alive : manager.Live address) :
    ∃ path, Chain (fun other => (manager.state other).parent) (some address) path ∧ path.Nodup ∧
      ∀ node ∈ path, manager.Live node ∧
        (manager.state node).depth ≤ (manager.state address).depth := by
  induction level : (manager.state address).depth using Nat.strong_induction_on
    generalizing address with
  | _ depth ih =>
    cases link : (manager.state address).parent with
    | none =>
      refine ⟨[address], ⟨rfl, link⟩, List.nodup_singleton _, fun node member => ?_⟩
      obtain rfl := List.mem_singleton.mp member
      exact ⟨alive, Nat.le_of_eq level⟩
    | some parent =>
      have deeper := accounted.deeper address parent alive link
      obtain ⟨rest, chain, nodup, lower⟩ :=
        ih _ (by omega) (accounted.live_parent alive link) rfl
      rw [← link] at chain
      refine ⟨address :: rest, ⟨rfl, chain⟩,
        List.nodup_cons.mpr ⟨fun member => ?_, nodup⟩, fun node member => ?_⟩
      · have below := (lower address member).2
        omega
      · rcases List.mem_cons.mp member with rfl | later
        · exact ⟨alive, Nat.le_of_eq level⟩
        · obtain ⟨isLive, below⟩ := lower node later
          exact ⟨isLive, by omega⟩

/-- A path without repetitions fits into the heap. -/
theorem length_le_of_live {manager : StateManager σ ω} {path : List Nat} (nodup : path.Nodup)
    (lives : ∀ node ∈ path, manager.Live node) : path.length ≤ manager.allocated := by
  have inside : path ⊆ List.range manager.allocated := fun node member =>
    List.mem_range.mpr (lives node member).1
  have fits := (List.subperm_of_subset nodup inside).length_le
  rwa [List.length_range] at fits

/-- The state that is expanded. -/
def Phase.current : Phase ω → Option Nat
  | .expanding cur => some cur
  | .submitting cur _ _ => some cur
  | .receiving cur _ _ _ => some cur
  | .received cur _ _ _ _ => some cur
  | .releasing cur _ _ _ _ => some cur
  | .enumerating cur _ _ _ => some cur
  | .operating cur _ _ _ _ => some cur
  | .expanded cur _ => some cur
  | .putting _ next => next.current
  | _ => none

/-- The state that is expanded is a local variable, next to the pointer of `put`. -/
theorem Phase.mem_locals_of_current {phase : Phase ω} {cur : Nat}
    (current : phase.current = some cur) : cur ∈ phase.locals := by
  induction phase with
  | putting state next ih => exact List.mem_append_right _ (ih current)
  | _ => simp_all [Phase.current, locals]

namespace ExTester

variable {config : Config σ ω ρ ε} {tester : ExTester σ ω ε} {cur node : Nat}

/-- A state whose data must stay while another one is expanded: it is on the open list, it is the
state that is expanded, or a live state is its child. -/
def Protected (tester : ExTester σ ω ε) (node : Nat) : Prop :=
  node ∈ tester.openList ∨ tester.phase.current = some node ∨
    0 < tester.states.liveChildren node

/-- Protected states are live. -/
theorem Sound.live_of_protected (sound : Sound config tester) (safe : tester.Protected node) :
    tester.states.Live node := by
  rcases safe with listed | current | child
  · apply sound.accounted.live_of_mem
    unfold holders held
    simp [listed]
  · apply sound.accounted.live_of_mem
    unfold holders held
    simp [Phase.mem_locals_of_current current]
  · by_contra dead
    have none := sound.accounted.counted.childless node dead
    unfold StateManager.liveChildren at child
    omega

/-- The state of a work item is not protected. -/
theorem Sound.not_protected (sound : Sound config tester) {slot : Nat}
    (member : slot ∈ tester.workItems config) : ¬ tester.Protected (tester.works slot).state := by
  have foreign := (sound.foreign member).1
  unfold held at foreign
  rintro (listed | current | child)
  · exact foreign (by simp [listed])
  · exact foreign (by simp [Phase.mem_locals_of_current current])
  · have single := (sound.single member).2
    omega

/-- `put` does not give back the last reference to a protected state. -/
theorem Sound.put_protected (sound : Sound config tester) {next : Phase ω}
    (phase : tester.phase = .putting (some node) next) (safe : tester.Protected node) :
    1 < (tester.states.state node).ref := by
  have alive := sound.live_of_protected safe
  have exact_count := sound.accounted.ref_eq alive
  have count : (tester.holders config).count node =
      tester.openList.count node + tester.maxDepthState.toList.count node + 1 +
        next.locals.count node + (tester.carried config).count node := by
    simp only [holders, held, phase, Phase.locals, List.count_append, List.count_cons,
      List.count_nil, Option.toList_some, beq_self_eq_true, if_true]
    omega
  rcases safe with listed | current | child
  · have positive := List.count_pos_iff.mpr listed
    omega
  · rw [phase] at current
    change next.current = some node at current
    have positive := List.count_pos_iff.mpr (Phase.mem_locals_of_current current)
    omega
  · omega

/-- The ancestors of a protected state are protected. -/
theorem Sound.path_protected (sound : Sound config tester) {path : List Nat}
    (chain : Chain (fun other => (tester.states.state other).parent) (some cur) path)
    (safe : tester.Protected cur) : ∀ node ∈ path, tester.Protected node := by
  induction path generalizing cur with
  | nil => exact nofun
  | cons head rest ih =>
    obtain ⟨start, tail⟩ := chain
    obtain rfl := Option.some.inj start
    change Chain _ (tester.states.state cur).parent rest at tail
    intro node member
    rcases List.mem_cons.mp member with rfl | later
    · exact safe
    · cases link : (tester.states.state cur).parent with
      | none =>
        rw [link] at tail
        rw [tail.of_none] at later
        cases later
      | some parent =>
        rw [link] at tail
        have alive := sound.live_of_protected safe
        exact ih tail (.inr (.inr (sound.accounted.liveChildren_pos alive link))) node later

end ExTester

end FsChecking.Tester
