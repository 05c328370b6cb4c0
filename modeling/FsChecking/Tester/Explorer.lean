import FsChecking.Tester.StateManager

/-!
# The exhaustive tester

`CExTester` with one coordinator (`RunTest`) and a number of workers (`FsOperator_Queue`) that share
two queues of work items. Every action is one atomic step of the coordinator or of a worker; what an
action emits is the history of the run. With one thread the coordinator executes the operations
itself (`EnumerateOpV2`).
-/

namespace FsChecking.Tester

open Lib

/-- `MAX_WORK_NR`. -/
abbrev maxWorkNr : Nat := 512

/-- The error codes that an operation can fail with. -/
inductive Fault where
  /-- `ERR_NO_SPACE`. -/
  | noSpace
  /-- `ERR_MAX_OPEN_FILE`. -/
  | maxOpenFile
  /-- Every other code, for which the exploration reports an error. -/
  | other (code : Nat)
  deriving DecidableEq

/-- How `FsOperatorCore` ends. -/
inductive CoreResult where
  /-- It returns `ERR_OK`. -/
  | ok
  /-- It returns `ERR_NO_OPERATION`. -/
  | noOperation
  /-- It throws an exception with an error code. -/
  | thrown (fault : Fault)
  deriving DecidableEq

/-- `WORK_CONTEXT::result`. -/
inductive WorkResult where
  /-- `ERR_UNKNOWN`. -/
  | unknown
  /-- `ERR_PENDING`. -/
  | pending
  /-- The result of the operation. -/
  | done (result : CoreResult)
  deriving DecidableEq

/-- `WORK_CONTEXT`. -/
structure WorkContext where
  /-- `state`. -/
  state : Nat
  /-- `src_state`. -/
  srcState : Nat
  /-- `result`. -/
  result : WorkResult

/-- The program under test and the parameters of the exploration. -/
structure Config (σ ω ρ ε : Type) where
  /-- `FsOperatorCore`, from random numbers, the file systems of the ancestors, the file systems
  and the operation; it completes the operation with the names and lengths that it has drawn. -/
  fsOperatorCore : ρ → List σ → σ → ω → σ × ω × CoreResult
  /-- `GenerateOps`, from the file systems and the last operation. -/
  generateOps : σ → ω → List ω
  /-- `GenerateOps` fills an array of `MAX_WORK_NR` entries. -/
  few : ∀ content op, (generateOps content op).length ≤ maxWorkNr
  /-- `CReferenceFs::Encode`, as stored in an `ENCODE`. -/
  encode : σ → ε
  /-- What `Verify` leaves of the file systems. -/
  verify : σ → σ
  /-- `m_thread_num`. -/
  threadNum : Nat
  /-- `m_branch`. -/
  branch : Int
  /-- `m_test_depth`. -/
  testDepth : Int
  /-- `m_stop_on_error`. -/
  stopOnError : Bool

/-- Where the coordinator is, with its local variables. -/
inductive Phase (ω : Type) where
  /-- At the head of the loop of `RunTest`. -/
  | loop
  /-- `cur_state` has been taken from the open list. -/
  | popped (cur : Nat)
  /-- The old `m_max_depth_state` has been given back. -/
  | recording (cur : Nat)
  /-- Before the checks for a stop and for the depth. -/
  | deciding (cur : Nat)
  /-- Before the operations of `cur_state` are enumerated. -/
  | expanding (cur : Nat)
  /-- Submitting the remaining operations, with `context_id`. -/
  | submitting (cur : Nat) (rest : List ω) (contextId : Nat)
  /-- Waiting for completions: how many are left, whether an error has been seen, and how many
  states stand in front of `insert`. -/
  | receiving (cur left : Nat) (failed : Bool) (inserted : Nat)
  /-- A completion has been taken from `m_cmp_q`. -/
  | received (cur left : Nat) (failed : Bool) (inserted slot : Nat)
  /-- The new state of the completion has been dealt with, its source state not yet. -/
  | releasing (cur left : Nat) (failed : Bool) (inserted slot : Nat)
  /-- `EnumerateOpV2` before its next operation, with its index. -/
  | enumerating (cur : Nat) (rest : List ω) (index inserted : Nat)
  /-- `DoFsOperator` with the duplicated state. -/
  | operating (cur : Nat) (rest : List ω) (index inserted newState : Nat)
  /-- The operations have been enumerated; whether with an error. -/
  | expanded (cur : Nat) (failed : Bool)
  /-- Inside `put`, with its pointer and where it returns to. -/
  | putting (state : Option Nat) (next : Phase ω)
  /-- After the loop of `RunTest`. -/
  | finishRun
  /-- `FinishTest` at the next entry of the open list. -/
  | finishTest
  /-- The test is over. -/
  | finished

/-- Where a worker is, with the work item in its hands. -/
inductive Worker where
  /-- Waiting for the submit doorbell. -/
  | idle
  /-- It has taken an item from `m_sub_q`. -/
  | took (slot : Nat)
  /-- It has copied the source state. -/
  | duplicated (slot : Nat)
  /-- It has executed the operation. -/
  | ran (slot : Nat)
  deriving DecidableEq

/-- The work item in the hands of a worker. -/
def Worker.slot? : Worker → Option Nat
  | .idle => none
  | .took slot => some slot
  | .duplicated slot => some slot
  | .ran slot => some slot

/-- `CExTester`. -/
structure ExTester (σ ω ε : Type) where
  /-- `m_states`. -/
  states : StateManager σ ω
  /-- `m_works`. -/
  works : Nat → WorkContext
  /-- The workers. -/
  workers : Nat → Worker
  /-- `m_sub_q`. -/
  subQ : List Nat
  /-- `m_cmp_q`. -/
  cmpQ : List Nat
  /-- `m_open_list`. -/
  openList : List Nat
  /-- `m_closed`: the depth that is stored for an encoding. -/
  closed : ε → Option Nat
  /-- `m_max_depth`. -/
  maxDepth : Nat
  /-- `m_max_depth_state`. -/
  maxDepthState : Option Nat
  /-- Where the coordinator is. -/
  phase : Phase ω

/-- What happens in a step, as far as the history of a run records it. -/
inductive Event (σ ω ρ : Type) where
  /-- `get` hands out a state. -/
  | get (state : Nat)
  /-- A work item is pushed to `m_sub_q`. -/
  | submit (slot : Nat)
  /-- A work item is pushed to `m_cmp_q`. -/
  | complete (slot : Nat)
  /-- A work item is taken from `m_cmp_q`. -/
  | receive (slot : Nat)
  /-- `FsOperatorCore` runs the operation at a position of the list in a state with a number of
  references, on the file systems of the state and of its ancestors. -/
  | execute (position : Nat) (op : ω) (random : ρ) (ref : Nat) (content : σ) (ancestors : List σ)

/-- An atomic step of the coordinator or of a worker, with what the environment contributes. -/
inductive Action (ρ : Type) where
  /-- The coordinator goes on; it may see a stop request, the indices that it draws and the random
  numbers of an operation. -/
  | coordinate (stop : Bool) (picks : List Nat) (random : ρ)
  /-- A worker takes an item from `m_sub_q`. -/
  | take (worker : Nat)
  /-- A worker copies the source state. -/
  | duplicate (worker : Nat)
  /-- A worker executes the operation. -/
  | run (worker : Nat) (random : ρ)
  /-- A worker pushes its item to `m_cmp_q`. -/
  | complete (worker : Nat)

variable {σ ω ρ ε : Type}

/-- `CStateHeap::CheckAndInsert`: whether the encoding is closed at no greater depth, and the table
afterwards. -/
def checkAndInsert [DecidableEq ε] (closed : ε → Option Nat) (encode : ε) (depth : Nat) :
    Bool × (ε → Option Nat) :=
  match closed encode with
  | some known =>
    if known ≤ depth then (true, closed) else (false, Function.update closed encode (some depth))
  | none => (false, Function.update closed encode (some depth))

/-- Whether `EnumerateOp_Thread_V2` reports an error code. -/
def Fault.reported : Fault → Bool
  | .noSpace => false
  | .maxOpenFile => false
  | .other _ => true

namespace ExTester

/-- A step of the coordinator or of a worker: the state after it, and what it emits. -/
abbrev Step (σ ω ρ ε : Type) : Type := Option (ExTester σ ω ε × List (Event σ ω ρ))

/-- Overwrite `m_op` of a state. -/
def setOp (states : StateManager σ ω) (address : Nat) (op : ω) : StateManager σ ω :=
  states.setState address { states.state address with op := op }

/-- `DoFsOperator_Queue`. -/
def doFsOperatorQueue (tester : ExTester σ ω ε) (cur : Nat) (op : ω) (rest : List ω)
    (contextId : Nat) : Step σ ω ρ ε :=
  match (tester.states.addRef cur).get with
  | none => none
  | some (state, states) =>
    some
      ({ tester with
          states := setOp states state op
          works := Function.update tester.works contextId
            { state := state, srcState := cur, result := .pending }
          subQ := tester.subQ ++ [contextId]
          phase := .submitting cur rest (contextId + 1) },
        [.get state, .submit contextId])

/-- The first part of `DoFsOperator`: a copy of the current state with the operation. -/
def duplicateCurrent (tester : ExTester σ ω ε) (cur : Nat) (op : ω) (rest : List ω)
    (index inserted : Nat) : Step σ ω ρ ε :=
  match tester.states.get with
  | none => none
  | some (state, states) =>
    some
      ({ tester with
          states := setOp (states.duplicateFrom state cur) state op
          phase := .operating cur rest index inserted state },
        [.get state])

/-- `FsOperatorCore` on a state, with its result. -/
def execute (config : Config σ ω ρ ε) (states : StateManager σ ω) (random : ρ) (address : Nat) :
    StateManager σ ω × CoreResult :=
  let state := states.state address
  let (content, op, result) :=
    config.fsOperatorCore random (states.lineage state.parent) state.content state.op
  (states.setState address { state with content := content, op := op }, result)

/-- What the history records about an execution. -/
def executed (states : StateManager σ ω) (position : Nat) (random : ρ) (address : Nat) :
    Event σ ω ρ :=
  let state := states.state address
  .execute position state.op random state.ref state.content (states.lineage state.parent)

/-- The rest of `DoFsOperator`. -/
def doFsOperator [DecidableEq ε] (config : Config σ ω ρ ε) (tester : ExTester σ ω ε) (random : ρ)
    (cur : Nat) (rest : List ω) (index inserted newState : Nat) : Step σ ω ρ ε :=
  let (states, result) := execute config tester.states random newState
  let event := executed tester.states index random newState
  let state := states.state newState
  let (exist, closed) := checkAndInsert tester.closed (config.encode state.content) state.depth
  match result with
  | .thrown _ =>
    some ({ tester with
      states := states, phase := .putting (some newState) (.expanded cur true) }, [event])
  | .ok =>
    if exist then
      some ({ tester with
        states := states, closed := closed
        phase := .putting (some newState) (.enumerating cur rest (index + 1) inserted) }, [event])
    else
      some ({ tester with
        states := states, closed := closed
        openList := tester.openList.insertIdx inserted newState
        phase := .enumerating cur rest (index + 1) (inserted + 1) }, [event])
  | .noOperation =>
    if exist then
      some ({ tester with
        states := states, closed := closed
        phase := .putting (some newState) (.enumerating cur rest (index + 1) inserted) }, [event])
    else
      -- The encoding stays in the closed table, and the enumeration ends.
      some ({ tester with
        states := states, closed := closed
        phase := .putting (some newState) (.expanded cur true) }, [event])

/-- What `EnumerateOp_Thread_V2` does with the new state of a completion. -/
def handleResult [DecidableEq ε] (config : Config σ ω ρ ε) (tester : ExTester σ ω ε)
    (cur left : Nat) (failed : Bool) (inserted slot : Nat) : ExTester σ ω ε :=
  let work := tester.works slot
  let state := tester.states.state work.state
  match work.result with
  | .done .ok =>
    let (exist, closed) := checkAndInsert tester.closed (config.encode state.content) state.depth
    if exist then
      { tester with
        closed := closed
        phase := .putting (some work.state) (.releasing cur left failed inserted slot) }
    else
      { tester with
        closed := closed
        openList := tester.openList.insertIdx inserted work.state
        phase := .releasing cur left failed (inserted + 1) slot }
  | .done .noOperation =>
    { tester with phase := .putting (some work.state) (.releasing cur left failed inserted slot) }
  | .done (.thrown fault) =>
    { tester with
      phase :=
        .putting (some work.state) (.releasing cur left (failed || fault.reported) inserted slot) }
  | _ =>
    { tester with phase := .putting (some work.state) (.releasing cur left true inserted slot) }

/-- The operations that are submitted: those at the drawn indices, or all of them. -/
def chosenOps (config : Config σ ω ρ ε) (ops : List ω) (picks : List Nat) : Option (List ω) :=
  if 0 < config.branch then
    if picks.length = config.branch.toNat then picks.mapM fun index => ops[index]? else none
  else some (ops.take maxWorkNr)

/-- A step of the coordinator. -/
def coordinate [DecidableEq ε] (config : Config σ ω ρ ε) (stop : Bool) (picks : List Nat)
    (random : ρ) (tester : ExTester σ ω ε) : Step σ ω ρ ε :=
  match tester.phase with
  | .loop =>
    match tester.openList with
    | [] => some ({ tester with phase := .finishRun }, [])
    | cur :: rest => some ({ tester with openList := rest, phase := .popped cur }, [])
  | .popped cur =>
    let depth := (tester.states.state cur).depth
    if tester.maxDepth < depth then
      some ({ tester with
        maxDepth := depth
        maxDepthState := none
        phase := .putting tester.maxDepthState (.recording cur) }, [])
    else some ({ tester with phase := .deciding cur }, [])
  | .recording cur =>
    some ({ tester with
      states := tester.states.addRef cur
      maxDepthState := some cur
      phase := .deciding cur }, [])
  | .deciding cur =>
    let state := tester.states.state cur
    if stop then some ({ tester with phase := .putting (some cur) .finishRun }, [])
    else if config.testDepth ≤ state.depth then
      some ({ tester with
        states := tester.states.setState cur { state with content := config.verify state.content }
        phase := .putting (some cur) .loop }, [])
    else some ({ tester with phase := .expanding cur }, [])
  | .expanding cur =>
    let state := tester.states.state cur
    let ops := config.generateOps state.content state.op
    if 1 < config.threadNum then
      (chosenOps config ops picks).map fun chosen =>
        ({ tester with phase := .submitting cur chosen 0 }, [])
    else some ({ tester with phase := .enumerating cur ops 0 0 }, [])
  | .submitting cur (op :: rest) contextId =>
    -- Beyond the end of `m_works` the behaviour is undefined.
    if contextId < maxWorkNr then tester.doFsOperatorQueue cur op rest contextId else none
  | .submitting cur [] contextId =>
    some ({ tester with phase := .receiving cur contextId false 0 }, [])
  | .receiving cur 0 failed _ => some ({ tester with phase := .expanded cur failed }, [])
  | .receiving cur (left + 1) failed inserted =>
    match tester.cmpQ with
    | [] => none
    | slot :: rest =>
      some ({ tester with
        cmpQ := rest, phase := .received cur left failed inserted slot }, [.receive slot])
  | .received cur left failed inserted slot =>
    some (tester.handleResult config cur left failed inserted slot, [])
  | .releasing cur left failed inserted slot =>
    let work := tester.works slot
    some ({ tester with
      works := Function.update tester.works slot { work with result := .unknown }
      phase := .putting (some work.srcState) (.receiving cur left failed inserted) }, [])
  | .enumerating cur (op :: rest) index inserted =>
    tester.duplicateCurrent cur op rest index inserted
  | .enumerating cur [] _ _ => some ({ tester with phase := .expanded cur false }, [])
  | .operating cur rest index inserted newState =>
    tester.doFsOperator config random cur rest index inserted newState
  | .expanded cur failed =>
    if config.stopOnError && failed then
      some ({ tester with phase := .putting (some cur) .finishRun }, [])
    else some ({ tester with phase := .putting (some cur) .loop }, [])
  | .putting none next => some ({ tester with phase := next }, [])
  | .putting (some address) next =>
    let (pointer, states) := tester.states.putRound address
    some ({ tester with states := states, phase := .putting pointer next }, [])
  | .finishRun =>
    some ({ tester with
      maxDepthState := none, phase := .putting tester.maxDepthState .finishTest }, [])
  | .finishTest =>
    match tester.openList with
    | [] => some ({ tester with phase := .finished }, [])
    | state :: rest =>
      some ({ tester with openList := rest, phase := .putting (some state) .finishTest }, [])
  | .finished => none

/-- The workers that have been started. -/
def Started (config : Config σ ω ρ ε) (worker : Nat) : Prop :=
  1 < config.threadNum ∧ worker < config.threadNum

instance (config : Config σ ω ρ ε) (worker : Nat) : Decidable (Started config worker) :=
  inferInstanceAs (Decidable (_ ∧ _))

/-- A step of `FsOperator_Queue`: taking an item. -/
def take (tester : ExTester σ ω ε) (worker : Nat) : Step σ ω ρ ε :=
  match tester.workers worker, tester.subQ with
  | .idle, slot :: rest =>
    some ({ tester with
      workers := Function.update tester.workers worker (.took slot), subQ := rest }, [])
  | _, _ => none

/-- A step of `FsOperator_Callback`: `DuplicateFrom`. -/
def duplicate (tester : ExTester σ ω ε) (worker : Nat) : Step σ ω ρ ε :=
  match tester.workers worker with
  | .took slot =>
    let work := tester.works slot
    some ({ tester with
      workers := Function.update tester.workers worker (.duplicated slot)
      states := tester.states.duplicateFrom work.state work.srcState }, [])
  | _ => none

/-- A step of `FsOperator_Callback`: `FsOperatorCore`, with the result in the work item. -/
def run (config : Config σ ω ρ ε) (tester : ExTester σ ω ε) (worker : Nat) (random : ρ) :
    Step σ ω ρ ε :=
  match tester.workers worker with
  | .duplicated slot =>
    let work := tester.works slot
    let (states, result) := execute config tester.states random work.state
    some ({ tester with
      workers := Function.update tester.workers worker (.ran slot)
      states := states
      works := Function.update tester.works slot { work with result := .done result } },
      [executed tester.states slot random work.state])
  | _ => none

/-- A step of `FsOperator_Queue`: pushing the completion. -/
def complete (tester : ExTester σ ω ε) (worker : Nat) : Step σ ω ρ ε :=
  match tester.workers worker with
  | .ran slot =>
    some ({ tester with
      workers := Function.update tester.workers worker .idle
      cmpQ := tester.cmpQ ++ [slot] }, [.complete slot])
  | _ => none

/-- An atomic step. -/
def step [DecidableEq ε] (config : Config σ ω ρ ε) (tester : ExTester σ ω ε) :
    Action ρ → Step σ ω ρ ε
  | .coordinate stop picks random => tester.coordinate config stop picks random
  | .take worker => if Started config worker then tester.take worker else none
  | .duplicate worker => if Started config worker then tester.duplicate worker else none
  | .run worker random => if Started config worker then tester.run config worker random else none
  | .complete worker => if Started config worker then tester.complete worker else none

/-- The tester after `PreTest`: the initial file systems in one state. Its operation and its depth,
the other objects and the work items hold what the memory holds. -/
def start (content : σ) (memory : Nat → FsState σ ω) (works : Nat → WorkContext) :
    ExTester σ ω ε where
  states :=
    { state := Function.update memory 0
        { memory 0 with content := content, parent := none, ref := 1 }
      allocated := 1
      freeList := none
      freeNr := 0 }
  works := works
  workers := fun _ => .idle
  subQ := []
  cmpQ := []
  openList := [0]
  closed := fun _ => none
  maxDepth := 0
  maxDepthState := none
  phase := .loop

/-- The steps of a run, with its history. -/
inductive Run [DecidableEq ε] (config : Config σ ω ρ ε) :
    ExTester σ ω ε → List (Event σ ω ρ) → ExTester σ ω ε → Prop where
  /-- No step. -/
  | nil (tester : ExTester σ ω ε) : Run config tester [] tester
  /-- One more step. -/
  | step {first last next : ExTester σ ω ε} {events emitted : List (Event σ ω ρ)} (action : Action ρ)
      (before : Run config first events last)
      (does : last.step config action = some (next, emitted)) :
      Run config first (events ++ emitted) next

/-- Execute a list of actions, after a history. -/
def runAll [DecidableEq ε] (config : Config σ ω ρ ε) :
    List (Action ρ) → ExTester σ ω ε × List (Event σ ω ρ) → Step σ ω ρ ε
  | [], reached => some reached
  | action :: actions, (tester, events) =>
    match tester.step config action with
    | none => none
    | some (next, emitted) => runAll config actions (next, events ++ emitted)

/-- Executing a list of actions prolongs a run. -/
theorem Run.runAll [DecidableEq ε] {config : Config σ ω ρ ε} {actions : List (Action ρ)}
    {first tester last : ExTester σ ω ε} {events all : List (Event σ ω ρ)}
    (before : Run config first events tester)
    (does : ExTester.runAll config actions (tester, events) = some (last, all)) :
    Run config first all last := by
  induction actions generalizing tester events with
  | nil =>
    obtain ⟨rfl, rfl⟩ := Prod.mk.inj (Option.some.inj does)
    exact before
  | cons action actions ih =>
    unfold ExTester.runAll at does
    split at does
    · cases does
    · rename_i next emitted taken
      exact ih (before.step action taken) does

end ExTester

end FsChecking.Tester
