import FsChecking.Tester.Lifetime
import FsChecking.Tester.Threads

/-!
# The two drivers of the enumeration

`EnumerateOpV2` and `EnumerateOp_Thread_V2` on the same state. The threaded driver executes every
operation in any interleaving with its workers; the single-threaded one ends at the first operation
that it takes for an error. The drivers agree exactly when no operation but the last one throws an
exception and no operation without effect leads to a new encoding.
-/

namespace FsChecking.Tester

open Lib

variable {σ ω ρ ε : Type}

/-- The operations of a state have been enumerated. -/
def Phase.enumerated : Phase ω → Bool
  | .expanded _ _ => true
  | _ => false

deriving instance DecidableEq for Phase

/-- The configuration with a number of threads. -/
def Config.withThreads (config : Config σ ω ρ ε) (threadNum : Nat) : Config σ ω ρ ε :=
  { config with threadNum := threadNum }

namespace Job

/-- The encodings that the successful operations before a position lead to. -/
def encodes (config : Config σ ω ρ ε) (job : Job σ ω ρ ε) (position : Nat) : List ε :=
  (List.range position).filterMap (job.okEncode config)

/-- The encodings up to the next position. -/
theorem encodes_succ (config : Config σ ω ρ ε) (job : Job σ ω ρ ε) (position : Nat) :
    job.encodes config (position + 1) =
      job.encodes config position ++ (job.okEncode config position).toList := by
  unfold encodes
  rw [List.range_succ, List.filterMap_append]
  congr 1

/-- The single-threaded driver goes on after the operation at a position: the operation succeeds, or
it has no effect and its encoding is found in the closed table. -/
def Passes (config : Config σ ω ρ ε) (job : Job σ ω ρ ε) (position : Nat) : Prop :=
  match job.outcome config position with
  | some (_, _, .thrown _) => False
  | some (content, _, .noOperation) =>
    job.Known (config.encode content) ∨ config.encode content ∈ job.encodes config position
  | _ => True

variable {config : Config σ ω ρ ε} {job : Job σ ω ρ ε} {position : Nat} {content : σ} {op : ω}

/-- The encodings before a position. -/
theorem mem_encodes {encode : ε} : encode ∈ job.encodes config position ↔
    ∃ before < position, job.okEncode config before = some encode := by
  unfold encodes
  simp only [List.mem_filterMap, List.mem_range]

/-- An operation without effect that the single-threaded driver passes. -/
theorem Passes.known (passes : job.Passes config position)
    (outcome : job.outcome config position = some (content, op, .noOperation)) :
    job.Known (config.encode content) ∨
      ∃ before < position, job.okEncode config before = some (config.encode content) := by
  unfold Passes at passes
  rw [outcome] at passes
  exact passes.imp_right mem_encodes.mp

end Job

namespace ExTester

/-- The steps of a run until the operations of a state have been enumerated. -/
inductive Expansion [DecidableEq ε] (config : Config σ ω ρ ε) :
    ExTester σ ω ε → List (Event σ ω ρ) → ExTester σ ω ε → Prop where
  /-- No step. -/
  | nil (tester : ExTester σ ω ε) : Expansion config tester [] tester
  /-- One more step. -/
  | step {first last next : ExTester σ ω ε} {events emitted : List (Event σ ω ρ)} (action : Action ρ)
      (before : Expansion config first events last) (busy : last.phase.enumerated = false)
      (does : last.step config action = some (next, emitted)) :
      Expansion config first (events ++ emitted) next

/-- Execute a list of actions of an enumeration, after a history. -/
def expandAll [DecidableEq ε] (config : Config σ ω ρ ε) :
    List (Action ρ) → ExTester σ ω ε × List (Event σ ω ρ) → Step σ ω ρ ε
  | [], reached => some reached
  | action :: actions, (tester, events) =>
    if tester.phase.enumerated then none
    else
      match tester.step config action with
      | none => none
      | some (next, emitted) => expandAll config actions (next, events ++ emitted)

/-- Executing a list of actions prolongs an enumeration. -/
theorem Expansion.expandAll [DecidableEq ε] {config : Config σ ω ρ ε} {actions : List (Action ρ)}
    {first tester last : ExTester σ ω ε} {events all : List (Event σ ω ρ)}
    (before : Expansion config first events tester)
    (does : ExTester.expandAll config actions (tester, events) = some (last, all)) :
    Expansion config first all last := by
  induction actions generalizing tester events with
  | nil =>
    obtain ⟨rfl, rfl⟩ := Prod.mk.inj (Option.some.inj does)
    exact before
  | cons action actions ih =>
    unfold ExTester.expandAll at does
    split at does
    · cases does
    · rename_i busy
      split at does
      · cases does
      · rename_i next emitted taken
        exact ih (before.step action (Bool.not_eq_true _ ▸ busy) taken) does

/-- The job of expanding a state, with the random numbers for each operation. -/
def jobOf (config : Config σ ω ρ ε) (tester : ExTester σ ω ε) (cur : Nat) (choice : Nat → ρ) :
    Job σ ω ρ ε where
  ops := config.generateOps (tester.states.state cur).content (tester.states.state cur).op
  choice := choice
  content := (tester.states.state cur).content
  ancestors := tester.states.lineage (some cur)
  depth := (tester.states.state cur).depth + 1
  closed := tester.closed

variable {config : Config σ ω ρ ε} {job : Job σ ω ρ ε} {cur : Nat} {choice : Nat → ρ}
  {first tester next : ExTester σ ω ε} {path handled : List Nat}
  {events emitted : List (Event σ ω ρ)}

/-- The job of expanding a held state is described by the tester. -/
theorem Sound.describes (sound : Sound config tester) (choice : Nat → ρ)
    (current : tester.phase.current = some cur) :
    ∃ path, Describes (jobOf config tester cur choice) tester cur path := by
  have alive := sound.live_of_protected (.inr (.inl current))
  obtain ⟨path, chain, nodup, lives⟩ := sound.accounted.exists_path alive
  exact ⟨path, chain, length_le_of_live nodup fun node member => (lives node member).1, rfl, rfl,
    rfl⟩

/-- The random numbers of a part of a history. -/
theorem Drawn.of_append {before after : List (Event σ ω ρ)} (drawn : Drawn choice (before ++ after)) :
    Drawn choice before ∧ Drawn choice after :=
  ⟨fun _ _ _ _ _ _ member => drawn _ _ _ _ _ _ (List.mem_append_left _ member),
    fun _ _ _ _ _ _ member => drawn _ _ _ _ _ _ (List.mem_append_right _ member)⟩

/-- A state that is a copy of the state that is expanded, with the operation at an index. -/
structure Drafted (job : Job σ ω ρ ε) (cur index newState : Nat) (tester : ExTester σ ω ε) :
    Prop where
  /-- The operation. -/
  op : job.ops[index]? = some (tester.states.state newState).op
  /-- The file systems. -/
  content : (tester.states.state newState).content = job.content
  /-- The depth. -/
  depth : (tester.states.state newState).depth = job.depth
  /-- The parent. -/
  parent : (tester.states.state newState).parent = some cur
  /-- Nothing else refers to it. -/
  ref : (tester.states.state newState).ref = 1

/-- The execution of the operation at an index. -/
theorem Drafted.execution {index newState : Nat} (drafted : Drafted job cur index newState tester)
    (lineage : tester.states.lineage (some cur) = job.ancestors) (random : ρ) :
    executions [executed tester.states index random newState] = [job.execution index] := by
  have record : Event.execution? (executed tester.states index random newState) =
      some (job.execution index) := by
    change some (index, some (tester.states.state newState).op,
      (tester.states.state newState).ref, (tester.states.state newState).content,
      tester.states.lineage (tester.states.state newState).parent) = _
    rw [← drafted.op, drafted.ref, drafted.content, drafted.parent, lineage]
    rfl
  unfold executions
  rw [List.filterMap_cons, record]
  rfl

/-- What executing the operation at an index leaves. -/
structure Drafted.Executes (config : Config σ ω ρ ε) (job : Job σ ω ρ ε) (index newState : Nat)
    (before states : StateManager σ ω) (encode : ε) (result : CoreResult) : Prop where
  /-- The outcome. -/
  outcome : ∃ content op, job.outcome config index = some (content, op, result) ∧
    config.encode content = encode
  /-- The encoding of the state. -/
  encode : config.encode (states.state newState).content = encode
  /-- The depth of the state. -/
  depth : (states.state newState).depth = job.depth
  /-- The other states are untouched. -/
  others : ∀ node, node ≠ newState → states.state node = before.state node
  /-- No object is constructed. -/
  allocated : states.allocated = before.allocated

/-- Executing the operation at an index. -/
theorem Drafted.executes {index newState : Nat} {random : ρ} (config : Config σ ω ρ ε)
    (drafted : Drafted job cur index newState tester)
    (lineage : tester.states.lineage (some cur) = job.ancestors)
    (choice : random = job.choice index) :
    ∃ states encode result, execute config tester.states random newState = (states, result) ∧
      Drafted.Executes config job index newState tester.states states encode result := by
  have outcome : job.outcome config index = some (config.fsOperatorCore random
      (tester.states.lineage (tester.states.state newState).parent)
      (tester.states.state newState).content (tester.states.state newState).op) := by
    unfold Job.outcome
    rw [drafted.op, drafted.content, drafted.parent, lineage, choice]
    rfl
  refine ⟨_, _, _, rfl, ⟨_, _, outcome, rfl⟩, ?_, ?_, ?_, rfl⟩
  · rw [StateManager.setState_self]
  · rw [StateManager.setState_self]
    exact drafted.depth
  · exact fun node apart => StateManager.setState_of_ne apart _

/-- The state that `DoFsOperator` works on is not protected. -/
theorem Sound.drafted_not_protected {rest : List ω} {index inserted newState : Nat}
    (sound : Sound config tester)
    (phase : tester.phase = .operating cur rest index inserted newState)
    (single : (tester.states.state newState).ref = 1) : ¬ tester.Protected newState := by
  have held : newState ∈ tester.holders config := by
    simp [holders, held, phase, Phase.locals]
  have exact_count := sound.accounted.ref_eq (sound.accounted.live_of_mem held)
  rw [single] at exact_count
  simp only [holders, ExTester.held, phase, Phase.locals, List.count_append, List.count_cons,
    List.count_nil, beq_self_eq_true, if_true] at exact_count
  rintro (listed | current | child)
  · have positive := List.count_pos_iff.mpr listed
    omega
  · rw [phase] at current
    obtain rfl := Option.some.inj current
    simp only [beq_self_eq_true, if_true] at exact_count
    omega
  · omega

/-- One round of `put` leaves the data of the protected states. -/
theorem Sound.kept_by_put {address : Nat} {after : Phase ω} (sound : Sound config tester)
    (phase : tester.phase = .putting (some address) after) (node : Nat)
    (safe : tester.Protected node) :
    SameData (tester.states.state node) ((tester.states.putRound address).2.state node) :=
  StateManager.putRound_data fun same => by
    subst same
    exact sound.put_protected phase safe

/-- No work item is pending before an enumeration. -/
theorem Sound.nothing_pending (sound : Sound config tester) (phase : tester.phase = .expanding cur) :
    tester.pending config = [] := by
  rw [← List.length_eq_zero_iff, sound.outstanding, phase]
  rfl

/-- The workers are idle before an enumeration. -/
theorem Sound.idle_worker (sound : Sound config tester) (phase : tester.phase = .expanding cur)
    {worker : Nat} (inside : worker < config.threadNum) : tester.workers worker = .idle := by
  have nothing := sound.nothing_pending phase
  have absent : ∀ slot, slot ∉ tester.pending config := by
    rw [nothing]
    exact fun slot => List.not_mem_nil
  cases here : tester.workers worker with
  | idle => rfl
  | took slot =>
    exact absurd (pending_of_uncopied (uncopied_of_took inside here)) (absent slot)
  | duplicated slot =>
    exact absurd (pending_of_copied inside (by rw [here]; rfl)) (absent slot)
  | ran slot =>
    exact absurd (pending_of_copied inside (by rw [here]; rfl)) (absent slot)

variable [DecidableEq ε]

/-- The steps of an expansion are steps of a run. -/
theorem Expansion.sound (sound : Sound config first)
    (expansion : Expansion config first events tester) : Sound config tester := by
  induction expansion with
  | nil => exact sound
  | step action _ _ does ih => exact step_sound ih does

/-! ## The threaded driver -/

/-- All operations have been executed and their encodings inserted. -/
structure Explored (config : Config σ ω ρ ε) (job : Job σ ω ρ ε) (first : ExTester σ ω ε)
    (events : List (Event σ ω ρ)) (tester : ExTester σ ω ε) : Prop where
  /-- The executions. -/
  executed : (executions events).Perm ((List.range job.ops.length).map job.execution)
  /-- The closed table and the open list. -/
  tables : ∃ inserted, Tables config job first.openList
    ((List.range job.ops.length).filterMap (job.okEncode config)) inserted tester

/-- The tables depend on the set of unknown encodings only. -/
theorem Tables.of_same {openList : List Nat} {encodes encodes' : List ε} {inserted : Nat}
    (tables : Tables config job openList encodes inserted tester)
    (same : ∀ encode, ¬ job.Known encode → (encode ∈ encodes ↔ encode ∈ encodes')) :
    Tables config job openList encodes' inserted tester := by
  obtain ⟨added, split, length, encoded⟩ := tables.added
  refine ⟨tables.closed.trans (Job.closedWith_congr same), added, split, length, fun encode => ?_⟩
  rw [encoded encode]
  exact and_congr_left (same encode)

/-- When the coordinator waits for nothing, everything has been explored. -/
theorem Threads.explored {failed : Bool} {inserted : Nat}
    (threads : Threads config job first cur path handled events tester)
    (sound : Sound config tester) (phase : tester.phase = .receiving cur 0 failed inserted) :
    Explored config job first (events ++ []) { tester with phase := .expanded cur failed } := by
  have empty : tester.pending config = [] := by
    rw [← List.length_eq_zero_iff, sound.outstanding, phase]
    rfl
  have noItems : tester.workItems config = [] := by
    unfold workItems
    rw [empty, phase]
    rfl
  have noneDone : tester.doneSlots config = [] :=
    List.eq_nil_iff_forall_not_mem.mpr fun slot member => by
      have isItem := workItem_of_done member
      rw [noItems] at isItem
      cases isItem
  have slots := threads.slots
  rw [noItems, List.append_nil, phase] at slots
  have executed := threads.executed
  rw [noneDone, List.append_nil] at executed
  refine ⟨?_, tester.phase.inserted, ?_⟩
  · rw [List.append_nil]
    exact executed.trans (slots.map _)
  · have kept : Tables config job first.openList (handled.filterMap (job.okEncode config))
        tester.phase.inserted { tester with phase := .expanded cur failed } :=
      threads.tables.congr rfl rfl fun _ _ => .refl _
    exact kept.of_same fun encode _ => (slots.filterMap _).mem_iff

/-- A step of the coordinator in the threaded enumeration. -/
theorem Threads.coordinate {stop : Bool} {picks : List Nat} {random : ρ}
    (threads : Threads config job first cur path handled events tester)
    (sound : Sound config tester) (describes : Describes job first cur path)
    (does : tester.coordinate config stop picks random = some (next, emitted)) :
    (∃ handled, Threads config job first cur path handled (events ++ emitted) next) ∨
      next.phase.enumerated = true ∧ Explored config job first (events ++ emitted) next := by
  have shape := threads.phase
  cases phase : tester.phase with
  | submitting at' rest contextId =>
    rw [phase] at shape
    obtain rfl := shape.1
    cases rest with
    | nil =>
      simp only [ExTester.coordinate, phase] at does
      obtain ⟨rfl, rfl⟩ := Prod.mk.inj (Option.some.inj does)
      exact .inl ⟨_, threads.submitted sound describes.chain phase⟩
    | cons op rest =>
      simp only [ExTester.coordinate, phase] at does
      split at does
      · exact .inl ⟨_, threads.submit sound describes.chain phase does⟩
      · cases does
  | receiving at' left failed inserted =>
    rw [phase] at shape
    obtain rfl := shape
    cases left with
    | zero =>
      simp only [ExTester.coordinate, phase] at does
      obtain ⟨rfl, rfl⟩ := Prod.mk.inj (Option.some.inj does)
      exact .inr ⟨rfl, threads.explored sound phase⟩
    | succ left =>
      simp only [ExTester.coordinate, phase] at does
      split at does
      · cases does
      · rename_i slot rest queue
        obtain ⟨rfl, rfl⟩ := Prod.mk.inj (Option.some.inj does)
        exact .inl ⟨_, threads.receive sound describes.chain phase queue⟩
  | received at' left failed inserted slot =>
    rw [phase] at shape
    obtain rfl := shape
    simp only [ExTester.coordinate, phase] at does
    obtain ⟨rfl, rfl⟩ := Prod.mk.inj (Option.some.inj does)
    exact .inl ⟨_, threads.handle phase⟩
  | releasing at' left failed inserted slot =>
    rw [phase] at shape
    obtain rfl := shape
    simp only [ExTester.coordinate, phase] at does
    obtain ⟨rfl, rfl⟩ := Prod.mk.inj (Option.some.inj does)
    exact .inl ⟨_, threads.release sound describes.chain phase⟩
  | putting pointer after =>
    cases pointer with
    | none =>
      simp only [ExTester.coordinate, phase] at does
      obtain ⟨rfl, rfl⟩ := Prod.mk.inj (Option.some.inj does)
      exact .inl ⟨_, threads.putDone sound describes.chain phase⟩
    | some address =>
      simp only [ExTester.coordinate, phase] at does
      obtain ⟨rfl, rfl⟩ := Prod.mk.inj (Option.some.inj does)
      exact .inl ⟨_, threads.putRound sound describes.chain phase⟩
  | _ =>
    rw [phase] at shape
    cases shape

/-- A step of the threaded enumeration. -/
theorem Threads.step {action : Action ρ}
    (threads : Threads config job first cur path handled events tester)
    (sound : Sound config tester) (describes : Describes job first cur path)
    (does : tester.step config action = some (next, emitted)) (drawn : Drawn job.choice emitted) :
    (∃ handled, Threads config job first cur path handled (events ++ emitted) next) ∨
      next.phase.enumerated = true ∧ Explored config job first (events ++ emitted) next := by
  cases action with
  | coordinate stop picks random => exact threads.coordinate sound describes does
  | take worker =>
    simp only [ExTester.step] at does
    split at does
    · rename_i started
      exact .inl ⟨_, threads.take sound describes.chain started.2 does⟩
    · cases does
  | duplicate worker =>
    simp only [ExTester.step] at does
    split at does
    · rename_i started
      exact .inl ⟨_, threads.duplicate sound describes started.2 does⟩
    · cases does
  | run worker random =>
    simp only [ExTester.step] at does
    split at does
    · rename_i started
      exact .inl ⟨_, threads.run sound describes started.2 does drawn⟩
    · cases does
  | complete worker =>
    simp only [ExTester.step] at does
    split at does
    · rename_i started
      exact .inl ⟨_, threads.complete sound describes.chain started.2 does⟩
    · cases does

/-! ## The single-threaded driver -/

/-- What the single-threaded driver has done before the operation at an index. -/
structure Serial (config : Config σ ω ρ ε) (job : Job σ ω ρ ε) (first : ExTester σ ω ε)
    (path : List Nat) (index : Nat) (events : List (Event σ ω ρ)) (tester : ExTester σ ω ε) :
    Prop where
  /-- The ancestors are what they were. -/
  rooted : Rooted first.states path tester
  /-- The executions, in order. -/
  executed : executions events = (List.range index).map job.execution
  /-- The closed table and the open list. -/
  tables : Tables config job first.openList (job.encodes config index) tester.phase.inserted tester
  /-- The driver has passed the operations before. -/
  passed : ∀ position < index, job.Passes config position
  /-- The index is in the list, or at its end. -/
  bound : index ≤ job.ops.length

/-- What the single-threaded driver has done when it ends at the operation at an index. -/
structure Aborted (config : Config σ ω ρ ε) (job : Job σ ω ρ ε) (first : ExTester σ ω ε)
    (index : Nat) (events : List (Event σ ω ρ)) (tester : ExTester σ ω ε) : Prop where
  /-- The executions, in order. -/
  executed : executions events = (List.range (index + 1)).map job.execution
  /-- The index is in the list. -/
  inside : index < job.ops.length
  /-- The driver has passed the operations before. -/
  passed : ∀ position < index, job.Passes config position
  /-- The operation throws, or it has no effect and its encoding has been inserted. -/
  ended :
    (∃ content op fault inserted, job.outcome config index = some (content, op, .thrown fault) ∧
      Tables config job first.openList (job.encodes config index) inserted tester) ∨
    ∃ content op, job.outcome config index = some (content, op, .noOperation) ∧
      ¬ (job.Known (config.encode content) ∨ config.encode content ∈ job.encodes config index) ∧
      tester.closed = job.closedWith (config.encode content :: job.encodes config index)

/-- What the single-threaded driver keeps. -/
inductive Alone (config : Config σ ω ρ ε) (job : Job σ ω ρ ε) (first : ExTester σ ω ε) (cur : Nat)
    (path : List Nat) (events : List (Event σ ω ρ)) (tester : ExTester σ ω ε) : Prop where
  /-- It is between two operations. -/
  | between (index inserted : Nat)
      (phase : tester.phase = .enumerating cur (job.ops.drop index) index inserted)
      (serial : Serial config job first path index events tester)
  /-- It has duplicated the state. -/
  | operating (index inserted newState : Nat)
      (phase : tester.phase = .operating cur (job.ops.drop (index + 1)) index inserted newState)
      (serial : Serial config job first path index events tester)
      (drafted : Drafted job cur index newState tester)
  /-- It gives back the new state and goes on. -/
  | returning (index inserted : Nat) {pointer : Option Nat}
      (phase : tester.phase = .putting pointer
        (.enumerating cur (job.ops.drop index) index inserted))
      (serial : Serial config job first path index events tester)
  /-- It gives back the new state and ends. -/
  | aborting (index : Nat) {pointer : Option Nat}
      (phase : tester.phase = .putting pointer (.expanded cur true))
      (aborted : Aborted config job first index events tester)

/-- The state that the single-threaded driver expands. -/
theorem Alone.current (alone : Alone config job first cur path events tester) :
    tester.phase.current = some cur := by
  cases alone with
  | between _ _ phase => rw [phase]; rfl
  | operating _ _ _ phase => rw [phase]; rfl
  | returning _ _ phase => rw [phase]; rfl
  | aborting _ phase => rw [phase]; rfl

/-- A step that leaves the tables and the protected states. -/
theorem Serial.congr {index : Nat} (serial : Serial config job first path index events tester)
    (sound : Sound config tester)
    (chain : Chain (fun node => (first.states.state node).parent) (some cur) path)
    (current : tester.phase.current = some cur)
    (inserted : next.phase.inserted = tester.phase.inserted) (silent : executions emitted = [])
    (openList : next.openList = tester.openList) (closed : next.closed = tester.closed)
    (grown : tester.states.allocated ≤ next.states.allocated)
    (kept : ∀ node, tester.Protected node →
      SameData (tester.states.state node) (next.states.state node)) :
    Serial config job first path index (events ++ emitted) next := by
  have chain' : Chain (fun node => (tester.states.state node).parent) (some cur) path :=
    chain.congr fun node member => (serial.rooted.same node member).parent
  have safe := sound.path_protected chain' (.inr (.inl current))
  exact
    { rooted :=
        ⟨fun node member => (serial.rooted.same node member).trans (kept node (safe node member)),
          Nat.le_trans serial.rooted.grown grown⟩
      executed := by
        have split : executions (events ++ emitted) = executions events ++ executions emitted :=
          List.filterMap_append
        rw [split, silent, List.append_nil, serial.executed]
      tables := by
        rw [inserted]
        exact serial.tables.congr closed openList fun state member => kept state (.inl member)
      passed := serial.passed
      bound := serial.bound }

/-- The first part of `DoFsOperator`. -/
theorem Serial.duplicate {index inserted : Nat} {op : ω} {rest : List ω}
    (serial : Serial config job first path index events tester) (sound : Sound config tester)
    (describes : Describes job first cur path) (ops : job.ops.drop index = op :: rest)
    (phase : tester.phase = .enumerating cur (op :: rest) index inserted)
    (does : tester.duplicateCurrent cur op rest index inserted = some (next, emitted)) :
    Alone config job first cur path (events ++ emitted) next := by
  have position : job.ops[index]? = some op := by
    rw [← List.head?_drop, ops]
    rfl
  have following : rest = job.ops.drop (index + 1) := by
    rw [← List.tail_drop, ops]
    rfl
  have current : tester.phase.current = some cur := by
    rw [phase]
    rfl
  have curLive := sound.live_of_protected (.inr (.inl current))
  unfold duplicateCurrent at does
  split at does
  · cases does
  rename_i state states obtained
  obtain ⟨rfl, rfl⟩ := Prod.mk.inj (Option.some.inj does)
  obtain ⟨handsOut, -⟩ := sound.accounted.get obtained
  have apart : state ≠ cur := fun same => handsOut.dead (same ▸ curLive)
  let next : ExTester σ ω ε :=
    { tester with
      states := setOp (states.duplicateFrom state cur) state op
      phase := .operating cur rest index inserted state }
  have own : next.states.state state =
      { states.state state with
        content := (tester.states.state cur).content
        depth := (tester.states.state cur).depth + 1
        parent := some cur
        op := op } := by
    have copy : (states.duplicateFrom state cur).state state = _ :=
      StateManager.duplicateFrom_self apart
    have curSame := handsOut.others cur (Ne.symm apart)
    change (setOp (states.duplicateFrom state cur) state op).state state = _
    unfold setOp
    rw [StateManager.setState_self, copy, curSame]
  have kept : ∀ node, tester.Protected node →
      SameData (tester.states.state node) (next.states.state node) := by
    intro node safe
    have other : node ≠ state := fun same => handsOut.dead (same ▸ sound.live_of_protected safe)
    have copied : SameData (states.state node) ((states.duplicateFrom state cur).state node) :=
      StateManager.duplicateFrom_data other
    have unset : next.states.state node = (states.duplicateFrom state cur).state node :=
      StateManager.setState_of_ne other _
    rw [unset, ← handsOut.others node other]
    exact copied
  have curSame := (serial.rooted.same cur describes.cur_mem)
  refine .operating index inserted state ?_ ?_ ?_
  · exact congrArg (Phase.operating cur · index inserted state) following
  · change Serial config job first path index _ next
    refine serial.congr sound describes.chain current ?_ rfl rfl rfl handsOut.more kept
    rw [phase]
    rfl
  · exact
      { op := by
          change job.ops[index]? = some (next.states.state state).op
          rw [own, position]
        content := by
          change (next.states.state state).content = _
          rw [own, describes.content]
          exact curSame.content
        depth := by
          change (next.states.state state).depth = _
          rw [own, describes.depth]
          exact congrArg (· + 1) curSame.depth
        parent := by
          change (next.states.state state).parent = _
          rw [own]
        ref := by
          change (next.states.state state).ref = _
          rw [own]
          exact handsOut.single }

/-- The rest of `DoFsOperator`. -/
theorem Serial.operate {index inserted newState : Nat} {random : ρ}
    (serial : Serial config job first path index events tester) (sound : Sound config tester)
    (describes : Describes job first cur path)
    (phase : tester.phase = .operating cur (job.ops.drop (index + 1)) index inserted newState)
    (drafted : Drafted job cur index newState tester)
    (does : tester.doFsOperator config random cur (job.ops.drop (index + 1)) index inserted newState =
      some (next, emitted))
    (drawn : Drawn job.choice emitted) :
    Alone config job first cur path (events ++ emitted) next := by
  have lineage : tester.states.lineage (some cur) = job.ancestors := by
    rw [serial.rooted.lineage describes.chain describes.fits, describes.ancestors]
  have inside : index < job.ops.length := (List.getElem?_eq_some_iff.mp drafted.op).1
  have current : tester.phase.current = some cur := by
    rw [phase]
    rfl
  have chain : Chain (fun node => (tester.states.state node).parent) (some cur) path :=
    describes.chain.congr fun node member => (serial.rooted.same node member).parent
  have safe := sound.path_protected chain (.inr (.inl current))
  have emits : emitted = [ExTester.executed tester.states index random newState] := by
    unfold doFsOperator at does
    dsimp only at does
    repeat' split at does
    all_goals exact (Prod.mk.inj (Option.some.inj does)).2.symm
  have choice : random = job.choice index := by
    rw [emits] at drawn
    exact drawn _ _ _ _ _ _ (List.mem_singleton_self _)
  obtain ⟨states, encode, result, executes, left⟩ := drafted.executes config lineage choice
  have executed : executions (events ++ emitted) = (List.range (index + 1)).map job.execution := by
    have split : executions (events ++ emitted) = executions events ++ executions emitted :=
      List.filterMap_append
    rw [split, serial.executed, emits, drafted.execution lineage, List.range_succ, List.map_append]
    rfl
  have kept : ∀ node, tester.Protected node →
      SameData (tester.states.state node) (states.state node) := by
    intro node isSafe
    refine .of_eq (left.others node ?_)
    rintro rfl
    exact sound.drafted_not_protected phase drafted.ref isSafe
  have rooted : Rooted first.states path { tester with states := states } :=
    ⟨fun node member => (serial.rooted.same node member).trans (kept node (safe node member)),
      left.allocated ▸ serial.rooted.grown⟩
  have keptOpen : ∀ state ∈ tester.openList,
      SameData (tester.states.state state) (states.state state) :=
    fun state member => kept state (.inl member)
  have tables := serial.tables
  rw [phase] at tables
  have inserts := job.checkAndInsert_closedWith (job.encodes config index) encode
  rw [← tables.closed] at inserts
  unfold doFsOperator at does
  rw [executes] at does
  dsimp only at does
  rw [left.encode, left.depth, inserts] at does
  obtain ⟨content, op, outcome, rfl⟩ := left.outcome
  have passed : job.Passes config index → ∀ position < index + 1, job.Passes config position := by
    intro here position below
    rcases Nat.lt_succ_iff_lt_or_eq.mp below with before | rfl
    · exact serial.passed position before
    · exact here
  cases result with
  | thrown fault =>
    obtain ⟨rfl, -⟩ := Prod.mk.inj (Option.some.inj does)
    refine .aborting index rfl ⟨executed, inside, serial.passed, .inl ?_⟩
    exact ⟨content, op, fault, inserted, outcome, tables.congr rfl rfl keptOpen⟩
  | ok =>
    have passes : job.Passes config index := by
      unfold Job.Passes
      rw [outcome]
      trivial
    have found : job.okEncode config index = some (config.encode content) := by
      unfold Job.okEncode
      rw [outcome]
    have grown : ∀ encode, encode ∈ config.encode content :: job.encodes config index ↔
        encode ∈ job.encodes config (index + 1) := by
      intro encode
      rw [Job.encodes_succ, found, List.mem_cons, List.mem_append, Option.toList_some,
        List.mem_singleton]
      exact or_comm
    dsimp only at does
    split at does
    · rename_i exist
      obtain ⟨rfl, -⟩ := Prod.mk.inj (Option.some.inj does)
      refine .returning (index + 1) inserted rfl ?_
      exact
        { rooted := ⟨rooted.same, rooted.grown⟩
          executed := executed
          tables := by
            refine Tables.of_same ?_ fun encode _ => grown encode
            exact tables.found (of_decide_eq_true exist) rfl rfl keptOpen
          passed := passed passes
          bound := inside }
    · rename_i fresh
      obtain ⟨rfl, -⟩ := Prod.mk.inj (Option.some.inj does)
      refine .between (index + 1) (inserted + 1) rfl ?_
      exact
        { rooted := ⟨rooted.same, rooted.grown⟩
          executed := executed
          tables := by
            refine Tables.of_same ?_ fun encode _ => grown encode
            exact tables.insert (fun exist => fresh (decide_eq_true exist)) rfl rfl left.encode
              keptOpen
          passed := passed passes
          bound := inside }
  | noOperation =>
    have noEncode : job.okEncode config index = none := by
      unfold Job.okEncode
      rw [outcome]
    dsimp only at does
    split at does
    · rename_i exist
      have exist := of_decide_eq_true exist
      have passes : job.Passes config index := by
        unfold Job.Passes
        rw [outcome]
        exact exist
      have same : ∀ encode, ¬ job.Known encode →
          (encode ∈ config.encode content :: job.encodes config index ↔
            encode ∈ job.encodes config (index + 1)) := by
        intro encode unknown
        rw [Job.encodes_succ, noEncode, Option.toList_none, List.append_nil, List.mem_cons]
        refine or_iff_right_of_imp ?_
        rintro rfl
        exact exist.resolve_left unknown
      obtain ⟨rfl, -⟩ := Prod.mk.inj (Option.some.inj does)
      refine .returning (index + 1) inserted rfl ?_
      exact
        { rooted := ⟨rooted.same, rooted.grown⟩
          executed := executed
          tables := by
            refine Tables.of_same ?_ same
            exact tables.found exist rfl rfl keptOpen
          passed := passed passes
          bound := inside }
    · rename_i fresh
      obtain ⟨rfl, -⟩ := Prod.mk.inj (Option.some.inj does)
      refine .aborting index rfl ⟨executed, inside, serial.passed, .inr ?_⟩
      exact ⟨content, op, outcome, fun exist => fresh (decide_eq_true exist), rfl⟩

/-- A step that leaves the tables. -/
theorem Aborted.congr {index : Nat} (aborted : Aborted config job first index events tester)
    (silent : executions emitted = []) (openList : next.openList = tester.openList)
    (closed : next.closed = tester.closed)
    (kept : ∀ state ∈ tester.openList,
      SameData (tester.states.state state) (next.states.state state)) :
    Aborted config job first index (events ++ emitted) next := by
  refine ⟨?_, aborted.inside, aborted.passed, ?_⟩
  · have split : executions (events ++ emitted) = executions events ++ executions emitted :=
      List.filterMap_append
    rw [split, silent, List.append_nil, aborted.executed]
  · rcases aborted.ended with ⟨content, op, fault, inserted, outcome, tables⟩ | ⟨content, op, ended⟩
    · exact .inl ⟨content, op, fault, inserted, outcome, tables.congr closed openList kept⟩
    · exact .inr ⟨content, op, closed ▸ ended⟩

/-- How the single-threaded driver ends. -/
inductive Ended (config : Config σ ω ρ ε) (job : Job σ ω ρ ε) (first : ExTester σ ω ε)
    (events : List (Event σ ω ρ)) (tester : ExTester σ ω ε) : Prop where
  /-- After all operations. -/
  | complete (explored : Explored config job first events tester)
      (passed : ∀ position < job.ops.length, job.Passes config position)
  /-- At the operation at an index. -/
  | aborted {index : Nat} (aborted : Aborted config job first index events tester)

/-- A step of the single-threaded driver. -/
theorem Alone.step {action : Action ρ} (single : config.threadNum ≤ 1)
    (alone : Alone config job first cur path events tester) (sound : Sound config tester)
    (describes : Describes job first cur path)
    (does : tester.step config action = some (next, emitted)) (drawn : Drawn job.choice emitted) :
    Alone config job first cur path (events ++ emitted) next ∨
      next.phase.enumerated = true ∧ Ended config job first (events ++ emitted) next := by
  have noWorkers : ∀ worker, ¬ Started config worker := fun worker started =>
    absurd started.1 (Nat.not_lt.mpr single)
  have current := alone.current
  cases action with
  | coordinate stop picks random =>
    simp only [ExTester.step] at does
    cases alone with
    | between index inserted phase serial =>
      cases ops : job.ops.drop index with
      | nil =>
        rw [ops] at phase
        simp only [ExTester.coordinate, phase] at does
        obtain ⟨rfl, rfl⟩ := Prod.mk.inj (Option.some.inj does)
        have all : index = job.ops.length :=
          Nat.le_antisymm serial.bound (List.drop_eq_nil_iff.mp ops)
        subst all
        refine .inr ⟨rfl, .complete ⟨?_, inserted, ?_⟩ serial.passed⟩
        · rw [List.append_nil, serial.executed]
        · have tables := serial.tables
          rw [phase] at tables
          exact tables.congr rfl rfl fun _ _ => .refl _
      | cons op rest =>
        rw [ops] at phase
        simp only [ExTester.coordinate, phase] at does
        exact .inl (serial.duplicate sound describes ops phase does)
    | operating index inserted newState phase serial drafted =>
      simp only [ExTester.coordinate, phase] at does
      exact .inl (serial.operate sound describes phase drafted does drawn)
    | @returning index inserted pointer phase serial =>
      cases pointer with
      | none =>
        simp only [ExTester.coordinate, phase] at does
        obtain ⟨rfl, rfl⟩ := Prod.mk.inj (Option.some.inj does)
        refine .inl (.between index inserted rfl (serial.congr sound describes.chain current ?_ rfl rfl rfl
          (Nat.le_refl _) fun node _ => .refl _))
        rw [phase]
        rfl
      | some address =>
        simp only [ExTester.coordinate, phase] at does
        obtain ⟨rfl, rfl⟩ := Prod.mk.inj (Option.some.inj does)
        refine .inl (.returning index inserted rfl (serial.congr sound describes.chain current ?_ rfl rfl rfl
          ?_ (sound.kept_by_put phase)))
        · rw [phase]
          rfl
        · exact Nat.le_of_eq (StateManager.putRound_allocated tester.states address).symm
    | @aborting index pointer phase aborted =>
      cases pointer with
      | none =>
        simp only [ExTester.coordinate, phase] at does
        obtain ⟨rfl, rfl⟩ := Prod.mk.inj (Option.some.inj does)
        exact .inr ⟨rfl, .aborted (aborted.congr rfl rfl rfl fun _ _ => .refl _)⟩
      | some address =>
        simp only [ExTester.coordinate, phase] at does
        obtain ⟨rfl, rfl⟩ := Prod.mk.inj (Option.some.inj does)
        exact .inl (.aborting index rfl (aborted.congr rfl rfl rfl fun state member =>
          sound.kept_by_put phase state (.inl member)))
  | take worker => simp [ExTester.step, noWorkers] at does
  | duplicate worker => simp [ExTester.step, noWorkers] at does
  | run worker random => simp [ExTester.step, noWorkers] at does
  | complete worker => simp [ExTester.step, noWorkers] at does
/-! ## Whole enumerations -/

/-- Only the coordinator can take the first step of an enumeration. -/
theorem Sound.first_step {action : Action ρ} (sound : Sound config tester)
    (phase : tester.phase = .expanding cur)
    (does : tester.step config action = some (next, emitted)) :
    ∃ stop picks random, tester.coordinate config stop picks random = some (next, emitted) := by
  have noItems : tester.subQ = [] := by
    have nothing := sound.nothing_pending phase
    unfold pending at nothing
    exact (List.append_eq_nil_iff.mp (List.append_eq_nil_iff.mp nothing).1).1
  cases action with
  | coordinate stop picks random => exact ⟨stop, picks, random, does⟩
  | take worker =>
    simp only [ExTester.step, ExTester.take, noItems] at does
    split at does
    · split at does
      · contradiction
      · cases does
    · cases does
  | duplicate worker =>
    simp only [ExTester.step, ExTester.duplicate] at does
    split at does
    · rename_i started
      rw [sound.idle_worker phase started.2] at does
      cases does
    · cases does
  | run worker random =>
    simp only [ExTester.step, ExTester.run] at does
    split at does
    · rename_i started
      rw [sound.idle_worker phase started.2] at does
      cases does
    · cases does
  | complete worker =>
    simp only [ExTester.step, ExTester.complete] at does
    split at does
    · rename_i started
      rw [sound.idle_worker phase started.2] at does
      cases does
    · cases does

/-- The tables at the start. -/
theorem tables_start (openList : List Nat) (same : tester.openList = openList)
    (closed : tester.closed = job.closed) : Tables config job openList [] 0 tester := by
  refine ⟨closed.trans Job.closedWith_nil.symm, [], same, rfl, fun encode => ?_⟩
  simp

/-- The threaded driver at its start. -/
theorem Sound.threads (sound : Sound config tester) (phase : tester.phase = .expanding cur) :
    Threads config (jobOf config tester cur choice) tester cur path [] []
      { tester with phase := .submitting cur (jobOf config tester cur choice).ops 0 } := by
  have nothing := sound.nothing_pending phase
  let next : ExTester σ ω ε :=
    { tester with phase := .submitting cur (jobOf config tester cur choice).ops 0 }
  have noItems : next.workItems config = [] := by
    change tester.pending config ++ [] = []
    rw [nothing]
    rfl
  have absent : ∀ slot, slot ∉ next.workItems config := by
    rw [noItems]
    exact fun slot => List.not_mem_nil
  have noneDone : next.doneSlots config = [] :=
    List.eq_nil_iff_forall_not_mem.mpr fun slot member => absent slot (workItem_of_done member)
  exact
    { phase := ⟨rfl, rfl, Nat.zero_le _⟩
      rooted := ⟨fun _ _ => .refl _, Nat.le_refl _⟩
      slots := by
        change ([] ++ next.workItems config).Perm []
        rw [noItems]
        rfl
      waiting := fun slot member =>
        absurd (workItem_of_pending (pending_of_uncopied member)) (absent slot)
      copied := fun slot member => absurd (workItem_of_copying member) (absent slot)
      done := fun slot member => absurd (workItem_of_done member) (absent slot)
      executed := by
        change [].Perm (([] ++ next.doneSlots config).map _)
        rw [noneDone]
        exact .refl _
      tables := tables_start _ rfl rfl }

/-- The first step of the threaded driver. -/
theorem Sound.first_threaded {action : Action ρ} (sound : Sound config tester)
    (phase : tester.phase = .expanding cur) (several : 1 < config.threadNum)
    (all : config.branch ≤ 0) (does : tester.step config action = some (next, emitted)) :
    Threads config (jobOf config tester cur choice) tester cur path [] ([] ++ emitted) next := by
  obtain ⟨stop, picks, random, does⟩ := sound.first_step phase does
  have every : chosenOps config (jobOf config tester cur choice).ops picks =
      some (jobOf config tester cur choice).ops := by
    unfold chosenOps
    rw [if_neg (Int.not_lt.mpr all)]
    exact congrArg some (List.take_of_length_le (config.few _ _))
  simp only [ExTester.coordinate, phase, if_pos several] at does
  obtain ⟨chosen, chosenAll, same⟩ := Option.map_eq_some_iff.mp does
  obtain rfl := Option.some.inj (every.symm.trans chosenAll)
  obtain ⟨rfl, rfl⟩ := Prod.mk.inj same
  exact sound.threads phase

/-- The first step of the single-threaded driver. -/
theorem Sound.first_alone {action : Action ρ} (sound : Sound config tester)
    (phase : tester.phase = .expanding cur) (single : config.threadNum ≤ 1)
    (does : tester.step config action = some (next, emitted)) :
    Alone config (jobOf config tester cur choice) tester cur path ([] ++ emitted) next := by
  obtain ⟨stop, picks, random, does⟩ := sound.first_step phase does
  simp only [ExTester.coordinate, phase, if_neg (Nat.not_lt.mpr single)] at does
  obtain ⟨rfl, rfl⟩ := Prod.mk.inj (Option.some.inj does)
  refine .between 0 0 rfl ?_
  exact
    { rooted := ⟨fun _ _ => .refl _, Nat.le_refl _⟩
      executed := rfl
      tables := tables_start _ rfl rfl
      passed := fun _ below => absurd below (Nat.not_lt_zero _)
      bound := Nat.zero_le _ }

/-- What every step of the threaded driver leaves. -/
theorem Expansion.threads (sound : Sound config first) (phase : first.phase = .expanding cur)
    (several : 1 < config.threadNum) (all : config.branch ≤ 0)
    (describes : Describes (jobOf config first cur choice) first cur path)
    (expansion : Expansion config first events tester) (drawn : Drawn choice events) :
    (tester = first ∧ events = []) ∨
      (∃ handled, Threads config (jobOf config first cur choice) first cur path handled events
        tester) ∨
      (tester.phase.enumerated = true ∧
        Explored config (jobOf config first cur choice) first events tester) := by
  induction expansion with
  | nil => exact .inl ⟨rfl, rfl⟩
  | step action before busy does ih =>
    obtain ⟨drawnBefore, drawnNow⟩ := Drawn.of_append drawn
    rcases ih drawnBefore with ⟨rfl, rfl⟩ | ⟨handled, threads⟩ | ⟨ended, -⟩
    · exact .inr (.inl ⟨[], sound.first_threaded phase several all does⟩)
    · have soundNow := before.sound sound
      exact .inr (threads.step soundNow describes does drawnNow)
    · rw [busy] at ended
      cases ended

/-- The threaded driver explores everything. -/
theorem Expansion.explored (sound : Sound config first) (phase : first.phase = .expanding cur)
    (several : 1 < config.threadNum) (all : config.branch ≤ 0)
    (expansion : Expansion config first events tester) (drawn : Drawn choice events)
    (ended : tester.phase.enumerated = true) :
    Explored config (jobOf config first cur choice) first events tester := by
  obtain ⟨path, describes⟩ := sound.describes choice (by rw [phase]; rfl)
  rcases expansion.threads sound phase several all describes drawn with
    ⟨rfl, rfl⟩ | ⟨handled, threads⟩ | ⟨-, explored⟩
  · rw [phase] at ended
    cases ended
  · have shape := threads.phase
    cases here : tester.phase with
    | expanded =>
      rw [here] at shape
      cases shape
    | _ =>
      rw [here] at ended
      cases ended
  · exact explored

/-- What every step of the single-threaded driver leaves. -/
theorem Expansion.alone (sound : Sound config first) (phase : first.phase = .expanding cur)
    (single : config.threadNum ≤ 1)
    (describes : Describes (jobOf config first cur choice) first cur path)
    (expansion : Expansion config first events tester) (drawn : Drawn choice events) :
    (tester = first ∧ events = []) ∨
      Alone config (jobOf config first cur choice) first cur path events tester ∨
      (tester.phase.enumerated = true ∧
        Ended config (jobOf config first cur choice) first events tester) := by
  induction expansion with
  | nil => exact .inl ⟨rfl, rfl⟩
  | step action before busy does ih =>
    obtain ⟨drawnBefore, drawnNow⟩ := Drawn.of_append drawn
    rcases ih drawnBefore with ⟨rfl, rfl⟩ | alone | ⟨ended, -⟩
    · exact .inr (.inl (sound.first_alone phase single does))
    · have soundNow := before.sound sound
      exact .inr (alone.step single soundNow describes does drawnNow)
    · rw [busy] at ended
      cases ended

/-- The single-threaded driver ends after all operations, or at one of them. -/
theorem Expansion.ended (sound : Sound config first) (phase : first.phase = .expanding cur)
    (single : config.threadNum ≤ 1)
    (expansion : Expansion config first events tester) (drawn : Drawn choice events)
    (ended : tester.phase.enumerated = true) :
    Ended config (jobOf config first cur choice) first events tester := by
  obtain ⟨path, describes⟩ := sound.describes choice (by rw [phase]; rfl)
  rcases expansion.alone sound phase single describes drawn with
    ⟨rfl, rfl⟩ | alone | ⟨-, finished⟩
  · rw [phase] at ended
    cases ended
  · cases alone with
    | between _ _ here =>
      rw [here] at ended
      cases ended
    | operating _ _ _ here =>
      rw [here] at ended
      cases ended
    | returning _ _ here =>
      rw [here] at ended
      cases ended
    | aborting _ here =>
      rw [here] at ended
      cases ended
  · exact finished

/-! ## Agreement -/

/-- The encodings of the states that have been put in front of an open list. -/
def openedEncodes (config : Config σ ω ρ ε) (first last : ExTester σ ω ε) : List ε :=
  (last.openList.take (last.openList.length - first.openList.length)).map fun state =>
    config.encode (last.states.state state).content

/-- What two enumerations of the operations of one state have in common. -/
structure Agree (job : Job σ ω ρ ε) (config : Config σ ω ρ ε) (first : ExTester σ ω ε)
    (events : List (Event σ ω ρ)) (last : ExTester σ ω ε) (events' : List (Event σ ω ρ))
    (last' : ExTester σ ω ε) : Prop where
  /-- The first one executes every operation once, on a copy of its own. -/
  once : (executions events).Perm ((List.range job.ops.length).map job.execution)
  /-- The second one executes every operation once, on a copy of its own. -/
  once' : (executions events').Perm ((List.range job.ops.length).map job.execution)
  /-- They have inserted the same encodings with the same depths. -/
  closed : last.closed = last'.closed
  /-- They have put states with the same encodings on the open list. -/
  opened : ∀ encode, encode ∈ openedEncodes config first last ↔
    encode ∈ openedEncodes config first last'

/-- The encodings on the open list. -/
theorem Tables.openedEncodes {encodes : List ε} {inserted : Nat}
    (tables : Tables config job first.openList encodes inserted tester) (encode : ε) :
    encode ∈ openedEncodes config first tester ↔ encode ∈ encodes ∧ ¬ job.Known encode := by
  obtain ⟨added, split, -, encoded⟩ := tables.added
  have front : tester.openList.take (tester.openList.length - first.openList.length) = added := by
    rw [split, List.length_append, Nat.add_sub_cancel, List.take_left]
  unfold ExTester.openedEncodes
  rw [front, List.mem_map, encoded]

/-- Two explorations of everything agree. -/
theorem Explored.agree {events' : List (Event σ ω ρ)} {tester' : ExTester σ ω ε}
    (explored : Explored config job first events tester)
    (explored' : Explored config job first events' tester') :
    Agree job config first events tester events' tester' := by
  obtain ⟨inserted, tables⟩ := explored.tables
  obtain ⟨inserted', tables'⟩ := explored'.tables
  exact
    { once := explored.executed
      once' := explored'.executed
      closed := tables.closed.trans tables'.closed.symm
      opened := fun encode =>
        (tables.openedEncodes encode).trans (tables'.openedEncodes encode).symm }

/-- The coordinator does not touch the workers. -/
theorem coordinate_workers {stop : Bool} {picks : List Nat} {random : ρ}
    (does : tester.coordinate config stop picks random = some (next, emitted)) :
    next.workers = tester.workers := by
  cases phase : tester.phase with
  | submitting cur rest contextId =>
    cases rest with
    | nil =>
      simp only [coordinate, phase] at does
      obtain ⟨rfl, rfl⟩ := Prod.mk.inj (Option.some.inj does)
      rfl
    | cons op rest =>
      simp only [coordinate, phase, doFsOperatorQueue] at does
      split at does
      · split at does
        · cases does
        · obtain ⟨rfl, rfl⟩ := Prod.mk.inj (Option.some.inj does)
          rfl
      · cases does
  | receiving cur left failed inserted =>
    cases left with
    | zero =>
      simp only [coordinate, phase] at does
      obtain ⟨rfl, rfl⟩ := Prod.mk.inj (Option.some.inj does)
      rfl
    | succ left =>
      simp only [coordinate, phase] at does
      split at does
      · cases does
      · obtain ⟨rfl, rfl⟩ := Prod.mk.inj (Option.some.inj does)
        rfl
  | received cur left failed inserted received =>
    simp only [coordinate, phase] at does
    obtain ⟨rfl, rfl⟩ := Prod.mk.inj (Option.some.inj does)
    unfold handleResult
    dsimp only
    split
    · split <;> rfl
    all_goals rfl
  | operating cur rest index inserted newState =>
    simp only [coordinate, phase, doFsOperator] at does
    repeat' split at does
    all_goals
      obtain ⟨rfl, rfl⟩ := Prod.mk.inj (Option.some.inj does)
      rfl
  | enumerating cur rest index inserted =>
    cases rest with
    | nil =>
      simp only [coordinate, phase] at does
      obtain ⟨rfl, rfl⟩ := Prod.mk.inj (Option.some.inj does)
      rfl
    | cons op rest =>
      simp only [coordinate, phase, duplicateCurrent] at does
      split at does
      · cases does
      · obtain ⟨rfl, rfl⟩ := Prod.mk.inj (Option.some.inj does)
        rfl
  | expanding cur =>
    simp only [coordinate, phase] at does
    split at does
    · obtain ⟨chosen, -, same⟩ := Option.map_eq_some_iff.mp does
      obtain ⟨rfl, rfl⟩ := Prod.mk.inj same
      rfl
    · obtain ⟨rfl, rfl⟩ := Prod.mk.inj (Option.some.inj does)
      rfl
  | putting pointer after =>
    cases pointer <;>
    · simp only [coordinate, phase] at does
      obtain ⟨rfl, rfl⟩ := Prod.mk.inj (Option.some.inj does)
      rfl
  | finished =>
    simp only [coordinate, phase] at does
    cases does
  | _ =>
    simp only [coordinate, phase] at does
    repeat' split at does
    all_goals
      obtain ⟨rfl, rfl⟩ := Prod.mk.inj (Option.some.inj does)
      rfl

/-- A worker that steps has been started; the others stay where they are. -/
theorem step_workers {action : Action ρ} {worker : Nat}
    (does : tester.step config action = some (next, emitted))
    (notStarted : ¬ Started config worker) : next.workers worker = tester.workers worker := by
  have apart : ∀ other, Started config other → worker ≠ other := by
    rintro other started rfl
    exact notStarted started
  cases action with
  | coordinate stop picks random => rw [coordinate_workers does]
  | take other =>
    simp only [step, take] at does
    split at does
    · rename_i started
      split at does
      · obtain ⟨rfl, rfl⟩ := Prod.mk.inj (Option.some.inj does)
        exact Function.update_of_ne (apart other started) ..
      · cases does
    · cases does
  | duplicate other =>
    simp only [step, duplicate] at does
    split at does
    · rename_i started
      split at does
      · obtain ⟨rfl, rfl⟩ := Prod.mk.inj (Option.some.inj does)
        exact Function.update_of_ne (apart other started) ..
      · cases does
    · cases does
  | run other random =>
    simp only [step, run] at does
    split at does
    · rename_i started
      split at does
      · obtain ⟨rfl, rfl⟩ := Prod.mk.inj (Option.some.inj does)
        exact Function.update_of_ne (apart other started) ..
      · cases does
    · cases does
  | complete other =>
    simp only [step, complete] at does
    split at does
    · rename_i started
      split at does
      · obtain ⟨rfl, rfl⟩ := Prod.mk.inj (Option.some.inj does)
        exact Function.update_of_ne (apart other started) ..
      · cases does
    · cases does

/-- Workers that have not been started stay where they are. -/
theorem Run.workers (run : Run config first events tester) {worker : Nat}
    (notStarted : ¬ Started config worker) : tester.workers worker = first.workers worker := by
  induction run with
  | nil => rfl
  | step action _ does ih => exact (step_workers does notStarted).trans ih

omit [DecidableEq ε] in
/-- Idle workers have nothing in their hands. -/
theorem hands_idle (idle : ∀ worker, tester.workers worker = .idle) (config : Config σ ω ρ ε)
    (slot? : Worker → Option Nat) (nothing : slot? .idle = none) :
    tester.hands config slot? = [] := by
  unfold hands
  refine List.filterMap_eq_nil_iff.mpr fun worker _ => ?_
  rw [idle worker, nothing]

omit [DecidableEq ε] in
/-- A sound tester whose workers are idle is sound with any number of threads. -/
theorem Sound.withThreads (sound : Sound config tester)
    (idle : ∀ worker, tester.workers worker = .idle) (threadNum : Nat) :
    Sound (config.withThreads threadNum) tester := by
  have uncopied : tester.uncopied (config.withThreads threadNum) = tester.uncopied config := by
    unfold uncopied
    rw [hands_idle idle _ _ rfl, hands_idle idle _ _ rfl]
  have pending : tester.pending (config.withThreads threadNum) = tester.pending config := by
    unfold pending
    rw [hands_idle idle _ _ rfl, hands_idle idle _ _ rfl, hands_idle idle _ _ rfl,
      hands_idle idle _ _ rfl]
  have items : tester.workItems (config.withThreads threadNum) = tester.workItems config := by
    unfold workItems
    rw [pending]
  have holders : tester.holders (config.withThreads threadNum) = tester.holders config := by
    unfold holders carried
    rw [items]
  exact
    { accounted := holders ▸ sound.accounted
      distinct := items ▸ sound.distinct
      outstanding := pending ▸ sound.outstanding
      below := pending ▸ sound.below
      own := items ▸ sound.own
      orphan := uncopied ▸ sound.orphan
      fits := sound.fits }

/-- The tables do not depend on the number of threads. -/
theorem Tables.anyThreads {openList : List Nat} {encodes : List ε} {inserted threadNum : Nat}
    (tables : Tables (config.withThreads threadNum) job openList encodes inserted tester) :
    Tables config job openList encodes inserted tester := ⟨tables.closed, tables.added⟩

/-- What has been explored does not depend on the number of threads. -/
theorem Explored.anyThreads {threadNum : Nat}
    (explored : Explored (config.withThreads threadNum) job first events tester) :
    Explored config job first events tester :=
  ⟨explored.executed, explored.tables.imp fun _ tables => tables.anyThreads⟩

/-- Where the single-threaded driver ends does not depend on the number of threads. -/
theorem Ended.anyThreads {threadNum : Nat}
    (ended : Ended (config.withThreads threadNum) job first events tester) :
    Ended config job first events tester := by
  cases ended with
  | complete explored passed => exact .complete explored.anyThreads passed
  | aborted aborted =>
    refine .aborted ⟨aborted.executed, aborted.inside, aborted.passed, ?_⟩
    refine aborted.ended.imp_left ?_
    rintro ⟨content, op, fault, inserted, outcome, tables⟩
    exact ⟨content, op, fault, inserted, outcome, tables.anyThreads⟩

/-- Steps of the coordinator. -/
def steps (number : Nat) : List (Action Unit) :=
  List.replicate number (.coordinate false [] ())

/-- The initial file systems, and memory that has not been used. -/
def fresh (content : σ) (op : ω) : ExTester σ ω ε :=
  start content (fun _ => ⟨content, op, none, 0, 0⟩) fun _ => ⟨0, 0, .unknown⟩

end ExTester

end FsChecking.Tester
