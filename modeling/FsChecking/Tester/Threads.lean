import FsChecking.Tester.Expansion

/-!
# The threaded enumeration

`EnumerateOp_Thread_V2` in any interleaving with the workers. Every slot below the number of
submitted operations is handled, or it is a work item whose state holds what its stage says; the
closed table and the open list are determined by the set of handled slots, and the executions by the
slots behind `FsOperatorCore`.
-/

namespace FsChecking.Tester

open Lib

variable {σ ω ρ ε : Type}

/-- The work item of a worker that has only copied the source state. -/
def Worker.copying? : Worker → Option Nat
  | .duplicated slot => some slot
  | _ => none

/-- The work item of a worker that has executed the operation. -/
def Worker.ran? : Worker → Option Nat
  | .ran slot => some slot
  | _ => none

/-- The number of operations that have been submitted, of a list of some length. -/
def Phase.submitted (length : Nat) : Phase ω → Nat
  | .submitting _ _ contextId => contextId
  | _ => length

/-- A phase of the threaded enumeration for a state and its operations. -/
def Phase.Threaded (cur : Nat) (ops : List ω) : Phase ω → Prop
  | .submitting at' rest contextId =>
    at' = cur ∧ rest = ops.drop contextId ∧ contextId ≤ ops.length
  | .receiving at' _ _ _ => at' = cur
  | .received at' _ _ _ _ => at' = cur
  | .releasing at' _ _ _ _ => at' = cur
  | .putting _ (.receiving at' _ _ _) => at' = cur
  | .putting _ (.releasing at' _ _ _ _) => at' = cur
  | _ => False

/-- The threaded enumeration expands its state. -/
theorem Phase.Threaded.current {cur : Nat} {ops : List ω} {phase : Phase ω}
    (threaded : phase.Threaded cur ops) : phase.current = some cur := by
  cases phase with
  | submitting => exact congrArg some threaded.1
  | receiving => exact congrArg some threaded
  | received => exact congrArg some threaded
  | releasing => exact congrArg some threaded
  | putting _ next =>
    cases next with
    | receiving => exact congrArg some threaded
    | releasing => exact congrArg some threaded
    | _ => cases threaded
  | _ => cases threaded

namespace ExTester

/-- The work items whose operation has been executed. -/
def doneSlots (config : Config σ ω ρ ε) (tester : ExTester σ ω ε) : List Nat :=
  tester.hands config Worker.ran? ++ (tester.cmpQ ++ tester.phase.item.toList)

/-- The state of a work item. -/
def stateOf (tester : ExTester σ ω ε) (slot : Nat) : FsState σ ω :=
  tester.states.state (tester.works slot).state

/-- A work item with its operation. -/
structure Waiting (job : Job σ ω ρ ε) (cur : Nat) (tester : ExTester σ ω ε) (slot : Nat) :
    Prop where
  /-- The source state. -/
  srcState : (tester.works slot).srcState = cur
  /-- The operation. -/
  op : job.ops[slot]? = some (tester.stateOf slot).op

/-- A work item whose state is a copy. -/
structure Copied (job : Job σ ω ρ ε) (cur : Nat) (tester : ExTester σ ω ε) (slot : Nat) : Prop
    extends Waiting job cur tester slot where
  /-- The file systems are those of the source state. -/
  content : (tester.stateOf slot).content = job.content
  /-- The depth. -/
  depth : (tester.stateOf slot).depth = job.depth
  /-- The parent. -/
  parent : (tester.stateOf slot).parent = some cur

/-- A work item whose operation has been executed. -/
structure Done (config : Config σ ω ρ ε) (job : Job σ ω ρ ε) (cur : Nat) (tester : ExTester σ ω ε)
    (slot : Nat) : Prop where
  /-- The source state. -/
  srcState : (tester.works slot).srcState = cur
  /-- The state and the result are those of the operation. -/
  outcome : ∃ op result,
    job.outcome config slot = some ((tester.stateOf slot).content, op, result) ∧
      (tester.works slot).result = .done result
  /-- The depth. -/
  depth : (tester.stateOf slot).depth = job.depth

/-- The closed table and the open list after encodings have been inserted. -/
structure Tables [DecidableEq ε] (config : Config σ ω ρ ε) (job : Job σ ω ρ ε) (openList : List Nat)
    (encodes : List ε) (inserted : Nat) (tester : ExTester σ ω ε) : Prop where
  /-- The closed table. -/
  closed : tester.closed = job.closedWith encodes
  /-- The new states stand in front of the old ones, one for each new encoding at least. -/
  added : ∃ added, tester.openList = added ++ openList ∧ added.length = inserted ∧
    ∀ encode, (∃ state ∈ added, config.encode (tester.states.state state).content = encode) ↔
      encode ∈ encodes ∧ ¬ job.Known encode

/-- The ancestors of the state that is expanded are what they were. -/
structure Rooted (states : StateManager σ ω) (path : List Nat) (tester : ExTester σ ω ε) :
    Prop where
  /-- The data of the path. -/
  same : ∀ node ∈ path, SameData (states.state node) (tester.states.state node)
  /-- The heap has not shrunk. -/
  grown : states.allocated ≤ tester.states.allocated

variable {config : Config σ ω ρ ε} {job : Job σ ω ρ ε} {cur : Nat} {tester next : ExTester σ ω ε}

/-- A work item that nobody touches keeps its operation. -/
theorem Waiting.congr {slot : Nat} (waiting : Waiting job cur tester slot)
    (work : next.works slot = tester.works slot)
    (data : SameData (tester.stateOf slot) (next.stateOf slot)) : Waiting job cur next slot :=
  ⟨by rw [work, waiting.srcState], by rw [data.op, waiting.op]⟩

/-- A work item that nobody touches keeps its copy. -/
theorem Copied.congr {slot : Nat} (copied : Copied job cur tester slot)
    (work : next.works slot = tester.works slot)
    (data : SameData (tester.stateOf slot) (next.stateOf slot)) : Copied job cur next slot :=
  { copied.toWaiting.congr work data with
    content := by rw [data.content, copied.content]
    depth := by rw [data.depth, copied.depth]
    parent := by rw [data.parent, copied.parent] }

/-- A work item that nobody touches keeps its outcome. -/
theorem Done.congr {slot : Nat} (done : Done config job cur tester slot)
    (work : next.works slot = tester.works slot)
    (data : SameData (tester.stateOf slot) (next.stateOf slot)) :
    Done config job cur next slot :=
  ⟨by rw [work, done.srcState], by rw [data.content, work]; exact done.outcome,
    by rw [data.depth, done.depth]⟩

/-- The tables depend on the data of the open states. -/
theorem Tables.congr [DecidableEq ε] {openList : List Nat} {encodes : List ε} {inserted : Nat}
    (tables : Tables config job openList encodes inserted tester)
    (closed : next.closed = tester.closed) (sameList : next.openList = tester.openList)
    (data : ∀ state ∈ tester.openList,
      SameData (tester.states.state state) (next.states.state state)) :
    Tables config job openList encodes inserted next := by
  obtain ⟨added, split, length, encoded⟩ := tables.added
  refine ⟨by rw [closed, tables.closed], added, by rw [sameList, split], length,
    fun encode => ?_⟩
  rw [← encoded encode]
  refine exists_congr fun state => and_congr_right fun member => ?_
  rw [(data state (by rw [split]; exact List.mem_append_left _ member)).content]

/-- An encoding that is found by `CheckAndInsert` changes nothing. -/
theorem Tables.found [DecidableEq ε] {openList : List Nat} {encodes : List ε} {inserted : Nat}
    {encode : ε} (tables : Tables config job openList encodes inserted tester)
    (exist : job.Known encode ∨ encode ∈ encodes)
    (closed : next.closed = job.closedWith (encode :: encodes))
    (sameList : next.openList = tester.openList)
    (data : ∀ state ∈ tester.openList,
      SameData (tester.states.state state) (next.states.state state)) :
    Tables config job openList (encode :: encodes) inserted next := by
  obtain ⟨added, split, length, encoded⟩ := tables.added
  refine ⟨closed, added, by rw [sameList, split], length, fun other => ?_⟩
  have before := encoded other
  have same : (∃ state ∈ added, config.encode (next.states.state state).content = other) ↔
      ∃ state ∈ added, config.encode (tester.states.state state).content = other := by
    refine exists_congr fun state => and_congr_right fun member => ?_
    rw [(data state (by rw [split]; exact List.mem_append_left _ member)).content]
  rw [same, before, List.mem_cons]
  constructor
  · rintro ⟨member, unknown⟩
    exact ⟨.inr member, unknown⟩
  · rintro ⟨rfl | member, unknown⟩
    · exact ⟨exist.resolve_left unknown, unknown⟩
    · exact ⟨member, unknown⟩

/-- Inserting behind the first part of a list. -/
theorem insertIdx_append (front back : List Nat) (item : Nat) :
    (front ++ back).insertIdx front.length item = (front ++ [item]) ++ back := by
  induction front with
  | nil => rfl
  | cons head front ih =>
    change head :: (front ++ back).insertIdx front.length item = _
    rw [ih]
    rfl

/-- An encoding that is inserted puts its state on the open list. -/
theorem Tables.insert [DecidableEq ε] {openList : List Nat} {encodes : List ε} {inserted : Nat}
    {state : Nat} {encode : ε} (tables : Tables config job openList encodes inserted tester)
    (fresh : ¬ (job.Known encode ∨ encode ∈ encodes))
    (closed : next.closed = job.closedWith (encode :: encodes))
    (inserts : next.openList = tester.openList.insertIdx inserted state)
    (encoded : config.encode (next.states.state state).content = encode)
    (data : ∀ state ∈ tester.openList,
      SameData (tester.states.state state) (next.states.state state)) :
    Tables config job openList (encode :: encodes) (inserted + 1) next := by
  obtain ⟨added, split, length, before⟩ := tables.added
  refine ⟨closed, added ++ [state], ?_, ?_, fun other => ?_⟩
  · rw [inserts, split, ← length, insertIdx_append]
  · rw [List.length_append, length]
    rfl
  · have same : (∃ state ∈ added, config.encode (next.states.state state).content = other) ↔
        ∃ state ∈ added, config.encode (tester.states.state state).content = other := by
      refine exists_congr fun state => and_congr_right fun member => ?_
      rw [(data state (by rw [split]; exact List.mem_append_left _ member)).content]
    have both : (∃ entry ∈ added ++ [state],
          config.encode (next.states.state entry).content = other) ↔
        (∃ entry ∈ added, config.encode (next.states.state entry).content = other) ∨
          encode = other := by
      simp only [List.mem_append, List.mem_singleton]
      constructor
      · rintro ⟨entry, listed | rfl, here⟩
        · exact .inl ⟨entry, listed, here⟩
        · exact .inr (encoded.symm.trans here)
      · rintro (⟨entry, listed, here⟩ | here)
        · exact ⟨entry, .inl listed, here⟩
        · exact ⟨state, .inr rfl, encoded.trans here⟩
    rw [both, same, before, List.mem_cons]
    constructor
    · rintro (⟨member, unknown⟩ | rfl)
      · exact ⟨.inr member, unknown⟩
      · exact ⟨.inl rfl, fun known => fresh (.inl known)⟩
    · rintro ⟨rfl | member, unknown⟩
      · exact .inr rfl
      · exact .inl ⟨member, unknown⟩

/-- The lineage of the state that is expanded. -/
theorem Rooted.lineage {states : StateManager σ ω} {path : List Nat}
    (rooted : Rooted states path tester)
    (chain : Chain (fun node => (states.state node).parent) (some cur) path)
    (fits : path.length ≤ states.allocated) :
    tester.states.lineage (some cur) = states.lineage (some cur) := by
  have chain' : Chain (fun node => (tester.states.state node).parent) (some cur) path :=
    chain.congr fun node member => (rooted.same node member).parent
  rw [StateManager.lineage_eq chain fits,
    StateManager.lineage_eq chain' (Nat.le_trans fits rooted.grown)]
  exact List.map_congr_left fun node member => (rooted.same node member).content

/-- What the threaded enumeration keeps. -/
structure Threads [DecidableEq ε] (config : Config σ ω ρ ε) (job : Job σ ω ρ ε)
    (first : ExTester σ ω ε) (cur : Nat) (path handled : List Nat)
    (events : List (Event σ ω ρ)) (tester : ExTester σ ω ε) : Prop where
  /-- The coordinator is in the enumeration. -/
  phase : tester.phase.Threaded cur job.ops
  /-- The ancestors are what they were. -/
  rooted : Rooted first.states path tester
  /-- The submitted slots are handled or work items. -/
  slots : (handled ++ tester.workItems config).Perm
    (List.range (tester.phase.submitted job.ops.length))
  /-- Work items before the copy. -/
  waiting : ∀ slot ∈ tester.uncopied config, Waiting job cur tester slot
  /-- Work items before the execution. -/
  copied : ∀ slot ∈ tester.hands config Worker.copying?, Copied job cur tester slot
  /-- Work items after the execution. -/
  done : ∀ slot ∈ tester.doneSlots config, Done config job cur tester slot
  /-- The executions. -/
  executed : (executions events).Perm ((handled ++ tester.doneSlots config).map job.execution)
  /-- The closed table and the open list. -/
  tables : Tables config job first.openList (handled.filterMap (job.okEncode config))
    tester.phase.inserted tester

/-- What workers have in their hands, sorted by two kinds of places. -/
theorem hands_perm {whole left right : Worker → Option Nat}
    (sorts : ∀ worker, (whole worker).toList = (left worker).toList ++ (right worker).toList) :
    (tester.hands config whole).Perm (tester.hands config left ++ tester.hands config right) := by
  unfold hands
  induction List.range config.threadNum with
  | nil => exact .refl _
  | cons worker rest ih =>
    have split : ∀ slot? : Worker → Option Nat,
        (worker :: rest).filterMap (fun worker => slot? (tester.workers worker)) =
          (slot? (tester.workers worker)).toList ++
            rest.filterMap fun worker => slot? (tester.workers worker) := by
      intro slot?
      rw [List.filterMap_cons]
      cases slot? (tester.workers worker) <;> rfl
    rw [split, split, split, sorts]
    refine List.perm_iff_count.mpr fun other => ?_
    have same := ih.count_eq other
    simp only [List.count_append] at same ⊢
    omega

/-- The copied items are copying or have run. -/
theorem hands_copied_perm : (tester.hands config Worker.copied?).Perm
    (tester.hands config Worker.copying? ++ tester.hands config Worker.ran?) :=
  hands_perm fun worker => by cases worker <;> rfl

/-- The copied items are copying or have run. -/
theorem mem_hands_copied {slot : Nat} :
    slot ∈ tester.hands config Worker.copied? ↔
      slot ∈ tester.hands config Worker.copying? ∨ slot ∈ tester.hands config Worker.ran? :=
  hands_copied_perm.mem_iff.trans List.mem_append

/-- Items that have only been copied are work items. -/
theorem workItem_of_copying {slot : Nat} (member : slot ∈ tester.hands config Worker.copying?) :
    slot ∈ tester.workItems config := by
  refine workItem_of_pending ?_
  unfold pending
  simp [mem_hands_copied, member]

/-- Items that have been executed are work items. -/
theorem workItem_of_done {slot : Nat} (member : slot ∈ tester.doneSlots config) :
    slot ∈ tester.workItems config := by
  unfold doneSlots at member
  unfold workItems pending
  simp only [List.mem_append, mem_hands_copied] at member ⊢
  tauto

namespace Threads

variable [DecidableEq ε] {first : ExTester σ ω ε} {path handled : List Nat}
  {events emitted : List (Event σ ω ρ)}

/-- The state that is expanded is protected. -/
theorem protected_cur (threads : Threads config job first cur path handled events tester) :
    tester.Protected cur := .inr (.inl threads.phase.current)

/-- The path is protected. -/
theorem protected_path (threads : Threads config job first cur path handled events tester)
    (sound : Sound config tester)
    (chain : Chain (fun node => (first.states.state node).parent) (some cur) path) :
    ∀ node ∈ path, tester.Protected node := by
  have chain' : Chain (fun node => (tester.states.state node).parent) (some cur) path :=
    chain.congr fun node member => (threads.rooted.same node member).parent
  exact sound.path_protected chain' threads.protected_cur

/-- A step that leaves the stages of all work items, the tables and the protected states. -/
theorem transfer (threads : Threads config job first cur path handled events tester)
    (sound : Sound config tester)
    (chain : Chain (fun node => (first.states.state node).parent) (some cur) path)
    (phase : next.phase.Threaded cur job.ops)
    (submitted : next.phase.submitted job.ops.length =
      tester.phase.submitted job.ops.length)
    (inserted : next.phase.inserted = tester.phase.inserted)
    (items : (next.workItems config).Perm (tester.workItems config))
    (uncopied : ∀ slot ∈ next.uncopied config, slot ∈ tester.uncopied config)
    (copying : ∀ slot ∈ next.hands config Worker.copying?,
      slot ∈ tester.hands config Worker.copying?)
    (done : (next.doneSlots config).Perm (tester.doneSlots config))
    (silent : executions emitted = [])
    (openList : next.openList = tester.openList) (closed : next.closed = tester.closed)
    (grown : tester.states.allocated ≤ next.states.allocated)
    (works : ∀ slot ∈ tester.workItems config, next.works slot = tester.works slot)
    (kept : ∀ node, tester.Protected node →
      SameData (tester.states.state node) (next.states.state node))
    (own : ∀ slot ∈ tester.workItems config,
      SameData (tester.stateOf slot) (next.states.state (tester.works slot).state)) :
    Threads config job first cur path handled (events ++ emitted) next := by
  have data : ∀ slot ∈ tester.workItems config,
      SameData (tester.stateOf slot) (next.stateOf slot) := by
    intro slot member
    unfold stateOf
    rw [works slot member]
    exact own slot member
  exact
    { phase := phase
      rooted :=
        ⟨fun node member => (threads.rooted.same node member).trans
            (kept node (threads.protected_path sound chain node member)),
          Nat.le_trans threads.rooted.grown grown⟩
      slots := by
        rw [submitted]
        exact (items.append_left _).trans threads.slots
      waiting := fun slot member =>
        have isItem := workItem_of_pending (pending_of_uncopied (uncopied slot member))
        (threads.waiting slot (uncopied slot member)).congr (works slot isItem) (data slot isItem)
      copied := fun slot member =>
        have isItem := workItem_of_copying (copying slot member)
        (threads.copied slot (copying slot member)).congr (works slot isItem) (data slot isItem)
      done := fun slot member =>
        have before := done.mem_iff.mp member
        have isItem := workItem_of_done before
        (threads.done slot before).congr (works slot isItem) (data slot isItem)
      executed := by
        have split : executions (events ++ emitted) = executions events ++ executions emitted :=
          List.filterMap_append
        rw [split, silent, List.append_nil]
        exact threads.executed.trans ((done.symm.append_left _).map _)
      tables := by
        rw [inserted]
        exact threads.tables.congr closed openList fun state member => kept state (.inl member) }

/-! ## Steps of the coordinator -/

/-- Submitting an operation. -/
theorem submit {op : ω} {rest : List ω} {contextId : Nat}
    (threads : Threads config job first cur path handled events tester)
    (sound : Sound config tester)
    (chain : Chain (fun node => (first.states.state node).parent) (some cur) path)
    (phase : tester.phase = .submitting cur (op :: rest) contextId)
    (does : tester.doFsOperatorQueue cur op rest contextId = some (next, emitted)) :
    Threads config job first cur path handled (events ++ emitted) next := by
  have shape := threads.phase
  rw [phase] at shape
  obtain ⟨-, ops, bound⟩ := shape
  have position : job.ops[contextId]? = some op := by
    rw [← List.head?_drop, ← ops]
    rfl
  have inside : contextId < job.ops.length := by
    by_contra outside
    rw [List.drop_eq_nil_of_le (by omega)] at ops
    cases ops
  have following : rest = job.ops.drop (contextId + 1) := by
    rw [← List.tail_drop, ← ops]
    rfl
  have fresh : contextId ∉ tester.pending config := fun member =>
    absurd (sound.below contextId (by rw [phase]; rfl) contextId member) (Nat.lt_irrefl _)
  have curHeld : cur ∈ tester.held := by
    simp [held, phase, Phase.locals]
  have curLive := sound.accounted.live_of_mem (List.mem_append_left _ curHeld)
  obtain ⟨referred, refLives⟩ := sound.accounted.addRef curLive
  unfold doFsOperatorQueue at does
  split at does
  · cases does
  rename_i state states obtained
  obtain ⟨rfl, rfl⟩ := Prod.mk.inj (Option.some.inj does)
  obtain ⟨handsOut, -⟩ := referred.get obtained
  let next : ExTester σ ω ε :=
    { tester with
      states := setOp states state op
      works := Function.update tester.works contextId
        { state := state, srcState := cur, result := .pending }
      subQ := tester.subQ ++ [contextId]
      phase := .submitting cur rest (contextId + 1) }
  change Threads config job first cur path handled _ next
  have kept : ∀ node, tester.states.Live node →
      SameData (tester.states.state node) (next.states.state node) := by
    intro node alive
    have notNew : node ≠ state := fun same => handsOut.dead ((refLives state).mpr (same ▸ alive))
    refine (StateManager.addRef_data tester.states cur node).trans (.of_eq ?_)
    change (setOp states state op).state node = _
    unfold setOp
    rw [StateManager.setState_of_ne notNew, handsOut.others node notNew]
  have workItems : tester.workItems config = tester.pending config := by
    simp [ExTester.workItems, phase, Phase.item]
  have work : ∀ slot ∈ tester.pending config, next.works slot = tester.works slot := by
    intro slot member
    have apart : slot ≠ contextId := fun same => fresh (same ▸ member)
    exact Function.update_of_ne apart ..
  have newWork : next.works contextId = { state := state, srcState := cur, result := .pending } :=
    Function.update_self ..
  have data : ∀ slot ∈ tester.pending config,
      SameData (tester.stateOf slot) (next.stateOf slot) := by
    intro slot member
    unfold stateOf
    rw [work slot member]
    exact kept _ (sound.live_state (workItems ▸ member))
  have doneSlots : next.doneSlots config = tester.doneSlots config := by
    unfold ExTester.doneSlots
    rw [phase]
    rfl
  exact
    { phase := ⟨rfl, following, inside⟩
      rooted :=
        ⟨fun node member => (threads.rooted.same node member).trans (kept node
            (sound.live_of_protected (threads.protected_path sound chain node member))),
          Nat.le_trans threads.rooted.grown handsOut.more⟩
      slots := by
        have slots := threads.slots
        rw [phase, workItems] at slots
        have items : (next.workItems config).Perm (contextId :: tester.pending config) := by
          refine List.perm_iff_count.mpr fun slot => ?_
          change ((tester.subQ ++ [contextId] ++ tester.hands config _) ++
            (tester.hands config _ ++ tester.cmpQ) ++ []).count slot = _
          unfold ExTester.pending
          simp only [List.count_append, List.count_cons, List.count_nil]
          omega
        change (handled ++ next.workItems config).Perm (List.range (contextId + 1))
        rw [List.range_succ]
        change (handled ++ tester.pending config).Perm (List.range contextId) at slots
        refine List.perm_iff_count.mpr fun slot => ?_
        have left := slots.count_eq slot
        have right := items.count_eq slot
        simp only [List.count_append, List.count_cons, List.count_nil] at left right ⊢
        omega
      waiting := by
        intro slot member
        have listed : slot ∈ tester.uncopied config ∨ slot = contextId := by
          have listed : slot ∈ tester.subQ ++ [contextId] ++ tester.hands config Worker.taken? :=
            member
          unfold uncopied
          simp only [List.mem_append, List.mem_singleton] at listed ⊢
          tauto
        rcases listed with before | rfl
        · exact (threads.waiting slot before).congr (work slot (pending_of_uncopied before))
            (data slot (pending_of_uncopied before))
        · refine ⟨by rw [newWork], ?_⟩
          unfold stateOf
          rw [newWork, position]
          change some op = some ((setOp states state op).state state).op
          unfold setOp
          rw [StateManager.setState_self]
      copied := by
        intro slot member
        change slot ∈ tester.hands config Worker.copying? at member
        have isItem := workItems ▸ workItem_of_copying member
        exact (threads.copied slot member).congr (work slot isItem) (data slot isItem)
      done := by
        rw [doneSlots]
        intro slot member
        have isItem := workItems ▸ workItem_of_done member
        exact (threads.done slot member).congr (work slot isItem) (data slot isItem)
      executed := by
        rw [doneSlots]
        have silent : executions (events ++ [.get state, .submit contextId]) =
            executions events := by
          simp [executions, Event.execution?, List.filterMap_cons]
        rw [silent]
        exact threads.executed
      tables := by
        have tables := threads.tables
        rw [phase] at tables
        exact tables.congr rfl rfl fun state member =>
          kept state (sound.live_of_protected (.inl member)) }

/-- All operations have been submitted. -/
theorem submitted {contextId : Nat}
    (threads : Threads config job first cur path handled events tester)
    (sound : Sound config tester)
    (chain : Chain (fun node => (first.states.state node).parent) (some cur) path)
    (phase : tester.phase = .submitting cur [] contextId) :
    Threads config job first cur path handled (events ++ [])
      { tester with phase := .receiving cur contextId false 0 } := by
  have shape := threads.phase
  rw [phase] at shape
  obtain ⟨-, ops, bound⟩ := shape
  have all : contextId = job.ops.length := by
    have none_left := List.drop_eq_nil_iff.mp ops.symm
    omega
  refine threads.transfer sound chain rfl ?_ ?_ ?_ (fun _ member => member)
    (fun _ member => member) ?_ rfl rfl rfl (Nat.le_refl _) (fun _ _ => rfl)
    (fun node _ => .refl _) fun slot _ => .refl _
  · rw [phase]
    exact all.symm
  · rw [phase]
    rfl
  · unfold workItems
    rw [phase]
    exact .refl _
  · unfold doneSlots
    rw [phase]
    exact .refl _

/-- Taking a completion from `m_cmp_q`. -/
theorem receive {left inserted slot : Nat} {failed : Bool} {rest : List Nat}
    (threads : Threads config job first cur path handled events tester)
    (sound : Sound config tester)
    (chain : Chain (fun node => (first.states.state node).parent) (some cur) path)
    (phase : tester.phase = .receiving cur (left + 1) failed inserted)
    (queue : tester.cmpQ = slot :: rest) :
    Threads config job first cur path handled (events ++ [.receive slot])
      { tester with cmpQ := rest, phase := .received cur left failed inserted slot } := by
  refine threads.transfer sound chain rfl ?_ ?_ ?_ (fun _ member => member)
    (fun _ member => member) ?_ rfl rfl rfl (Nat.le_refl _) (fun _ _ => rfl)
    (fun node _ => .refl _) fun slot _ => .refl _
  · rw [phase]
    rfl
  · rw [phase]
    rfl
  · refine List.perm_iff_count.mpr fun other => ?_
    simp only [workItems, pending, phase, queue, Phase.item, hands, List.count_append,
      Option.toList_some, Option.toList_none, List.count_cons, List.count_nil]
    omega
  · refine List.perm_iff_count.mpr fun other => ?_
    simp only [doneSlots, phase, queue, Phase.item, hands, List.count_append,
      Option.toList_some, Option.toList_none, List.count_cons, List.count_nil]
    omega

/-- Giving back the source state of a completion. -/
theorem release {left inserted slot : Nat} {failed : Bool}
    (threads : Threads config job first cur path handled events tester)
    (sound : Sound config tester)
    (chain : Chain (fun node => (first.states.state node).parent) (some cur) path)
    (phase : tester.phase = .releasing cur left failed inserted slot) :
    Threads config job first cur path handled (events ++ [])
      { tester with
        works := Function.update tester.works slot
          { tester.works slot with result := .unknown }
        phase := .putting (some (tester.works slot).srcState)
          (.receiving cur left failed inserted) } := by
  have outside : slot ∉ tester.workItems config := by
    have distinct := sound.distinct
    rw [phase] at distinct
    intro member
    exact (List.nodup_append.mp distinct).2.2 slot member slot (List.mem_singleton_self slot) rfl
  refine threads.transfer sound chain rfl ?_ ?_ ?_ (fun _ member => member)
    (fun _ member => member) ?_ rfl rfl rfl (Nat.le_refl _) (fun other member => ?_)
    (fun node _ => .refl _) fun slot _ => .refl _
  · rw [phase]
    rfl
  · rw [phase]
    rfl
  · unfold workItems
    rw [phase]
    exact .refl _
  · unfold doneSlots
    rw [phase]
    exact .refl _
  · have apart : other ≠ slot := fun same => outside (same ▸ member)
    exact Function.update_of_ne apart ..

/-- Leaving `put`. -/
theorem putDone {after : Phase ω}
    (threads : Threads config job first cur path handled events tester)
    (sound : Sound config tester)
    (chain : Chain (fun node => (first.states.state node).parent) (some cur) path)
    (phase : tester.phase = .putting none after) :
    Threads config job first cur path handled (events ++ []) { tester with phase := after } := by
  have shape := threads.phase
  rw [phase] at shape
  have inner : after.Threaded cur job.ops ∧
      after.submitted job.ops.length = job.ops.length := by
    cases after with
    | receiving => exact ⟨shape, rfl⟩
    | releasing => exact ⟨shape, rfl⟩
    | _ => cases shape
  refine threads.transfer sound chain inner.1 ?_ ?_ ?_ (fun _ member => member)
    (fun _ member => member) ?_ rfl rfl rfl (Nat.le_refl _) (fun _ _ => rfl)
    (fun node _ => .refl _) fun slot _ => .refl _
  · rw [phase]
    exact inner.2
  · rw [phase]
    rfl
  · unfold workItems
    rw [phase]
    exact .refl _
  · unfold doneSlots
    rw [phase]
    exact .refl _

/-- One round of `put`. -/
theorem putRound {address : Nat} {after : Phase ω}
    (threads : Threads config job first cur path handled events tester)
    (sound : Sound config tester)
    (chain : Chain (fun node => (first.states.state node).parent) (some cur) path)
    (phase : tester.phase = .putting (some address) after) :
    Threads config job first cur path handled (events ++ [])
      { tester with
        states := (tester.states.putRound address).2
        phase := .putting (tester.states.putRound address).1 after } := by
  have shape := threads.phase
  rw [phase] at shape
  have pointer : Phase.Threaded cur job.ops
      (.putting (tester.states.putRound address).1 after) := by
    cases after with
    | receiving => exact shape
    | releasing => exact shape
    | _ => cases shape
  refine threads.transfer sound chain pointer ?_ ?_ ?_ (fun _ member => member)
    (fun _ member => member) ?_ rfl rfl rfl ?_ (fun _ _ => rfl) (fun node safe => ?_)
    fun slot member => ?_
  · rw [phase]
    rfl
  · rw [phase]
    rfl
  · unfold workItems
    rw [phase]
    exact .refl _
  · unfold doneSlots
    rw [phase]
    exact .refl _
  · exact Nat.le_of_eq (StateManager.putRound_allocated tester.states address).symm
  · refine StateManager.putRound_data fun here => ?_
    subst here
    exact sound.put_protected phase safe
  · have foreign : (tester.works slot).state ≠ address := by
      intro same
      refine (sound.foreign member).1 ?_
      rw [same]
      simp [held, phase, Phase.locals]
    exact .of_eq (StateManager.putRound_of_ne foreign)

/-- The slots after the completion of a slot has been dealt with. -/
theorem handled_slots {left inserted slot : Nat} {failed : Bool} {found : Option ε}
    (threads : Threads config job first cur path handled events tester)
    (phase : tester.phase = .received cur left failed inserted slot)
    (shape : next.phase.Threaded cur job.ops) (item : next.phase.item = none)
    (all : next.phase.submitted job.ops.length = job.ops.length)
    (states : next.states = tester.states) (works : next.works = tester.works)
    (workers : next.workers = tester.workers) (subQ : next.subQ = tester.subQ)
    (cmpQ : next.cmpQ = tester.cmpQ) (encode : job.okEncode config slot = found)
    (tables : Tables config job first.openList
      (found.toList ++ handled.filterMap (job.okEncode config)) next.phase.inserted next) :
    Threads config job first cur path (slot :: handled) (events ++ []) next := by
  have hands : ∀ slot? : Worker → Option Nat,
      next.hands config slot? = tester.hands config slot? := by
    intro slot?
    unfold ExTester.hands
    rw [workers]
  have stateOf : ∀ other, next.stateOf other = tester.stateOf other := by
    intro other
    unfold ExTester.stateOf
    rw [states, works]
  have uncopied : next.uncopied config = tester.uncopied config := by
    unfold ExTester.uncopied
    rw [subQ, hands]
  have before : tester.workItems config = tester.pending config ++ [slot] := by
    unfold workItems
    rw [phase]
    rfl
  have after : next.workItems config = tester.pending config := by
    unfold workItems pending
    rw [item, subQ, hands, hands, cmpQ]
    exact List.append_nil _
  have doneBefore : tester.doneSlots config =
      tester.hands config Worker.ran? ++ (tester.cmpQ ++ [slot]) := by
    unfold doneSlots
    rw [phase]
    rfl
  have doneAfter : next.doneSlots config = tester.hands config Worker.ran? ++ tester.cmpQ := by
    unfold doneSlots
    rw [item, hands, cmpQ]
    exact congrArg _ (List.append_nil _)
  exact
    { phase := shape
      rooted := by
        refine ⟨?_, ?_⟩ <;> rw [states]
        · exact threads.rooted.same
        · exact threads.rooted.grown
      slots := by
        have slots := threads.slots
        rw [phase, before] at slots
        rw [all, after]
        refine List.Perm.trans (List.perm_iff_count.mpr fun other => ?_) slots
        simp only [List.count_append, List.cons_append, List.count_cons, List.count_nil]
        omega
      waiting := by
        rw [uncopied]
        exact fun other member => (threads.waiting other member).congr (by rw [works])
          (.of_eq (stateOf other))
      copied := by
        rw [hands]
        exact fun other member => (threads.copied other member).congr (by rw [works])
          (.of_eq (stateOf other))
      done := by
        rw [doneAfter]
        intro other member
        have listed : other ∈ tester.doneSlots config := by
          rw [doneBefore]
          simp only [List.mem_append] at member ⊢
          tauto
        exact (threads.done other listed).congr (by rw [works]) (.of_eq (stateOf other))
      executed := by
        have executed := threads.executed
        rw [doneBefore] at executed
        rw [List.append_nil, doneAfter]
        refine executed.trans (List.Perm.map _ (List.perm_iff_count.mpr fun other => ?_))
        simp only [List.count_append, List.cons_append, List.count_cons, List.count_nil]
        omega
      tables := by
        have same : (slot :: handled).filterMap (job.okEncode config) =
            found.toList ++ handled.filterMap (job.okEncode config) := by
          rw [List.filterMap_cons, encode]
          cases found <;> rfl
        rw [same]
        exact tables }

/-- Dealing with the new state of a completion. -/
theorem handle {left inserted slot : Nat} {failed : Bool}
    (threads : Threads config job first cur path handled events tester)
    (phase : tester.phase = .received cur left failed inserted slot) :
    Threads config job first cur path (slot :: handled) (events ++ [])
      (tester.handleResult config cur left failed inserted slot) := by
  have listed : slot ∈ tester.doneSlots config := by
    unfold doneSlots
    rw [phase]
    simp [Phase.item]
  obtain ⟨-, ⟨op, result, outcome, stored⟩, depth⟩ := threads.done slot listed
  have tables := threads.tables
  rw [phase] at tables
  change Tables config job first.openList _ inserted tester at tables
  have checked := job.checkAndInsert_closedWith
    (handled.filterMap (job.okEncode config)) (config.encode (tester.stateOf slot).content)
  rw [← tables.closed, ← depth] at checked
  unfold handleResult
  dsimp only
  rw [stored]
  cases result with
  | ok =>
    have encode : job.okEncode config slot =
        some (config.encode (tester.stateOf slot).content) := by
      unfold Job.okEncode
      rw [outcome]
    dsimp only
    unfold stateOf at checked
    rw [checked]
    dsimp only
    split
    · rename_i exist
      refine threads.handled_slots phase rfl rfl rfl rfl rfl rfl rfl rfl encode ?_
      exact tables.found (of_decide_eq_true exist) rfl rfl fun state _ => .refl _
    · rename_i exist
      refine threads.handled_slots phase rfl rfl rfl rfl rfl rfl rfl rfl encode ?_
      exact tables.insert (of_decide_eq_false (Bool.eq_false_iff.mpr exist)) rfl rfl rfl
        fun state _ => .refl _
  | noOperation =>
    have encode : job.okEncode config slot = none := by
      unfold Job.okEncode
      rw [outcome]
    refine threads.handled_slots phase rfl rfl rfl rfl rfl rfl rfl rfl encode ?_
    exact tables.congr rfl rfl fun state _ => .refl _
  | thrown fault =>
    have encode : job.okEncode config slot = none := by
      unfold Job.okEncode
      rw [outcome]
    refine threads.handled_slots phase rfl rfl rfl rfl rfl rfl rfl rfl encode ?_
    exact tables.congr rfl rfl fun state _ => .refl _

/-! ## Steps of the workers -/

/-- Taking a work item. -/
theorem take {worker : Nat} (threads : Threads config job first cur path handled events tester)
    (sound : Sound config tester)
    (chain : Chain (fun node => (first.states.state node).parent) (some cur) path)
    (inside : worker < config.threadNum) (does : tester.take worker = some (next, emitted)) :
    Threads config job first cur path handled (events ++ emitted) next := by
  unfold ExTester.take at does
  split at does
  · rename_i slot rest idle queue
    obtain ⟨rfl, rfl⟩ := Prod.mk.inj (Option.some.inj does)
    let next : ExTester σ ω ε :=
      { tester with
        workers := Function.update tester.workers worker (.took slot), subQ := rest }
    change Threads config job first cur path handled _ next
    have taken := hands_update next inside Worker.taken? (.took slot) rfl
    have copied := hands_update next inside Worker.copied? (.took slot) rfl
    have copying := hands_update next inside Worker.copying? (.took slot) rfl
    have ran := hands_update next inside Worker.ran? (.took slot) rfl
    simp only [idle, Worker.taken?, Worker.copied?, Worker.copying?, Worker.ran?,
      Option.toList_none, Option.toList_some, List.append_nil] at taken copied copying ran
    have uncopied : (next.uncopied config).Perm (tester.uncopied config) := by
      refine List.perm_iff_count.mpr fun other => ?_
      change (rest ++ next.hands config _).count other = _
      unfold ExTester.uncopied
      rw [List.count_append, taken.count_eq, queue]
      simp only [List.count_append, List.count_cons, List.count_nil]
      omega
    exact threads.transfer sound chain threads.phase rfl rfl
      ((uncopied.append (copied.append_right _)).append_right _)
      (fun _ member => uncopied.mem_iff.mp member) (fun _ member => copying.mem_iff.mp member)
      (ran.append_right _) rfl rfl rfl (Nat.le_refl _) (fun _ _ => rfl) (fun node _ => .refl _)
      fun slot _ => .refl _
  · cases does

/-- Completing a work item. -/
theorem complete {worker : Nat}
    (threads : Threads config job first cur path handled events tester)
    (sound : Sound config tester)
    (chain : Chain (fun node => (first.states.state node).parent) (some cur) path)
    (inside : worker < config.threadNum) (does : tester.complete worker = some (next, emitted)) :
    Threads config job first cur path handled (events ++ emitted) next := by
  unfold ExTester.complete at does
  split at does
  · rename_i slot here
    obtain ⟨rfl, rfl⟩ := Prod.mk.inj (Option.some.inj does)
    let next : ExTester σ ω ε :=
      { tester with
        workers := Function.update tester.workers worker .idle
        cmpQ := tester.cmpQ ++ [slot] }
    change Threads config job first cur path handled _ next
    have taken := hands_update next inside Worker.taken? .idle rfl
    have copied := hands_update next inside Worker.copied? .idle rfl
    have copying := hands_update next inside Worker.copying? .idle rfl
    have ran := hands_update next inside Worker.ran? .idle rfl
    simp only [here, Worker.taken?, Worker.copied?, Worker.copying?, Worker.ran?,
      Option.toList_none, Option.toList_some, List.append_nil] at taken copied copying ran
    have uncopied : (next.uncopied config).Perm (tester.uncopied config) := taken.append_left _
    refine threads.transfer sound chain threads.phase rfl rfl ?_
      (fun _ member => uncopied.mem_iff.mp member) (fun _ member => copying.mem_iff.mp member)
      ?_ rfl rfl rfl (Nat.le_refl _) (fun _ _ => rfl) (fun node _ => .refl _) fun slot _ => .refl _
    · refine List.perm_iff_count.mpr fun other => ?_
      have first := uncopied.count_eq other
      have second := copied.count_eq other
      change (next.uncopied config ++ (next.hands config _ ++ (tester.cmpQ ++ [slot])) ++
        tester.phase.item.toList).count other = (tester.uncopied config ++
          (tester.hands config _ ++ tester.cmpQ) ++ tester.phase.item.toList).count other
      simp only [List.count_append] at first second ⊢
      omega
    · refine List.perm_iff_count.mpr fun other => ?_
      have same := ran.count_eq other
      change (next.hands config _ ++ (tester.cmpQ ++ [slot] ++
        tester.phase.item.toList)).count other = (tester.hands config _ ++ (tester.cmpQ ++
          tester.phase.item.toList)).count other
      simp only [List.count_append] at same ⊢
      omega
  · cases does

end Threads

/-- The job of expanding a state: what its drivers read. -/
structure Describes (job : Job σ ω ρ ε) (first : ExTester σ ω ε) (cur : Nat) (path : List Nat) :
    Prop where
  /-- The ancestors. -/
  chain : Chain (fun node => (first.states.state node).parent) (some cur) path
  /-- There are not more than objects. -/
  fits : path.length ≤ first.states.allocated
  /-- The file systems. -/
  content : job.content = (first.states.state cur).content
  /-- The file systems of the ancestors. -/
  ancestors : job.ancestors = first.states.lineage (some cur)
  /-- The depth of the new states. -/
  depth : job.depth = (first.states.state cur).depth + 1

/-- The state that is expanded is the first on the path. -/
theorem Describes.cur_mem {first : ExTester σ ω ε} {path : List Nat}
    (describes : Describes job first cur path) : cur ∈ path := by
  obtain ⟨rest, rfl, -⟩ := describes.chain.of_some
  exact List.mem_cons_self

namespace Threads

variable [DecidableEq ε] {first : ExTester σ ω ε} {path handled : List Nat}
  {events emitted : List (Event σ ω ρ)}

/-- Copying the source state of a work item. -/
theorem duplicate {worker : Nat}
    (threads : Threads config job first cur path handled events tester)
    (sound : Sound config tester) (describes : Describes job first cur path)
    (inside : worker < config.threadNum) (does : tester.duplicate worker = some (next, emitted)) :
    Threads config job first cur path handled (events ++ emitted) next := by
  unfold ExTester.duplicate at does
  split at does
  · rename_i slot here
    obtain ⟨rfl, rfl⟩ := Prod.mk.inj (Option.some.inj does)
    have isUncopied : slot ∈ tester.uncopied config := uncopied_of_took inside here
    have isItem := workItem_of_pending (pending_of_uncopied isUncopied)
    have waiting := threads.waiting slot isUncopied
    have notCur : (tester.works slot).state ≠ cur := by
      intro same
      exact sound.not_protected isItem (same ▸ threads.protected_cur)
    let next : ExTester σ ω ε :=
      { tester with
        workers := Function.update tester.workers worker (.duplicated slot)
        states := tester.states.duplicateFrom (tester.works slot).state
          (tester.works slot).srcState }
    change Threads config job first cur path handled _ next
    have taken := hands_update next inside Worker.taken? (.duplicated slot) rfl
    have copied := hands_update next inside Worker.copied? (.duplicated slot) rfl
    have copying := hands_update next inside Worker.copying? (.duplicated slot) rfl
    have ran := hands_update next inside Worker.ran? (.duplicated slot) rfl
    simp only [here, Worker.taken?, Worker.copied?, Worker.copying?, Worker.ran?,
      Option.toList_none, Option.toList_some, List.append_nil] at taken copied copying ran
    have split : (slot :: next.uncopied config).Perm (tester.uncopied config) := by
      refine List.perm_iff_count.mpr fun other => ?_
      have same := taken.count_eq other
      change (slot :: (tester.subQ ++ next.hands config _)).count other =
        (tester.subQ ++ tester.hands config _).count other
      simp only [List.count_append, List.count_cons, List.count_nil] at same ⊢
      omega
    have items : (next.workItems config).Perm (tester.workItems config) := by
      refine List.perm_iff_count.mpr fun other => ?_
      have first := split.count_eq other
      have second := copied.count_eq other
      change (next.uncopied config ++ (next.hands config _ ++ tester.cmpQ) ++
        tester.phase.item.toList).count other = (tester.uncopied config ++
          (tester.hands config _ ++ tester.cmpQ) ++ tester.phase.item.toList).count other
      simp only [List.count_append, List.count_cons, List.count_nil] at first second ⊢
      omega
    have done : (next.doneSlots config).Perm (tester.doneSlots config) := ran.append_right _
    have kept : ∀ node, node ≠ (tester.works slot).state →
        SameData (tester.states.state node) (next.states.state node) :=
      fun node apart => StateManager.duplicateFrom_data apart
    have keptProtected : ∀ node, tester.Protected node →
        SameData (tester.states.state node) (next.states.state node) :=
      fun node safe => kept node fun same => sound.not_protected isItem (same ▸ safe)
    have keptOther : ∀ other ∈ tester.workItems config, other ≠ slot →
        SameData (tester.stateOf other) (next.stateOf other) :=
      fun other member apart => kept _ (sound.state_ne isItem member apart)
    have distinct := (List.nodup_append.mp sound.distinct).1
    have distinct := (List.nodup_append.mp distinct).1
    have self : next.stateOf slot =
        { tester.stateOf slot with
          content := (tester.states.state cur).content
          depth := (tester.states.state cur).depth + 1
          parent := some cur } := by
      have apart : (tester.works slot).state ≠ (tester.works slot).srcState := by
        rw [waiting.srcState]
        exact notCur
      have copy : (tester.states.duplicateFrom _ _).state _ = _ :=
        StateManager.duplicateFrom_self apart
      rw [waiting.srcState] at copy
      change (tester.states.duplicateFrom _ (tester.works slot).srcState).state _ = _
      rw [waiting.srcState]
      exact copy
    have curSame := threads.rooted.same cur describes.cur_mem
    exact
      { phase := threads.phase
        rooted :=
          ⟨fun node member => (threads.rooted.same node member).trans
              (keptProtected node (threads.protected_path sound describes.chain node member)),
            threads.rooted.grown⟩
        slots := (items.append_left _).trans threads.slots
        waiting := by
          intro other member
          have before := split.mem_iff.mp (List.mem_cons_of_mem _ member)
          have apart : other ≠ slot := by
            rintro rfl
            have nodup := split.nodup_iff.mpr (List.nodup_append.mp distinct).1
            exact (List.nodup_cons.mp nodup).1 member
          exact (threads.waiting other before).congr rfl
            (keptOther other (workItem_of_pending (pending_of_uncopied before)) apart)
        copied := by
          intro other member
          rcases List.mem_append.mp (copying.mem_iff.mp member) with before | new
          · have apart : other ≠ slot := by
              rintro rfl
              have listed : other ∈ tester.hands config Worker.copied? ++ tester.cmpQ :=
                List.mem_append_left _ (mem_hands_copied.mpr (.inl before))
              exact (List.nodup_append.mp distinct).2.2 other isUncopied other listed rfl
            exact (threads.copied other before).congr rfl
              (keptOther other (workItem_of_copying before) apart)
          · obtain rfl := List.mem_singleton.mp new
            exact
              { srcState := waiting.srcState
                op := by rw [self]; exact waiting.op
                content := by rw [self, describes.content]; exact curSame.content
                depth := by
                  rw [self, describes.depth]
                  exact congrArg (· + 1) curSame.depth
                parent := by rw [self] }
        done := by
          intro other member
          have before := done.mem_iff.mp member
          have apart : other ≠ slot := by
            rintro rfl
            have items := sound.distinct
            have listed : other ∈ (tester.hands config Worker.copied? ++ tester.cmpQ) ++
                tester.phase.item.toList := by
              unfold doneSlots at before
              simp only [List.mem_append, mem_hands_copied] at before ⊢
              tauto
            have nodup := (List.nodup_append.mp items).1
            unfold workItems pending at nodup
            rw [List.append_assoc] at nodup
            exact (List.nodup_append.mp nodup).2.2 other isUncopied other listed rfl
          exact (threads.done other before).congr rfl
            (keptOther other (workItem_of_done before) apart)
        executed := by
          rw [List.append_nil]
          exact threads.executed.trans ((done.symm.append_left _).map _)
        tables := threads.tables.congr rfl rfl fun state member =>
          keptProtected state (.inl member) }
  · cases does

/-- Executing the operation of a work item. -/
theorem run {worker : Nat} {random : ρ}
    (threads : Threads config job first cur path handled events tester)
    (sound : Sound config tester) (describes : Describes job first cur path)
    (inside : worker < config.threadNum)
    (does : tester.run config worker random = some (next, emitted))
    (drawn : Drawn job.choice emitted) :
    Threads config job first cur path handled (events ++ emitted) next := by
  unfold ExTester.run at does
  split at does
  · rename_i slot here
    obtain ⟨rfl, rfl⟩ := Prod.mk.inj (Option.some.inj does)
    have isCopying : slot ∈ tester.hands config Worker.copying? := by
      refine List.mem_filterMap.mpr ⟨worker, List.mem_range.mpr inside, ?_⟩
      rw [here]
      rfl
    have isItem := workItem_of_copying isCopying
    have copy := threads.copied slot isCopying
    have choice : random = job.choice slot := drawn _ _ _ _ _ _ (List.mem_singleton_self _)
    have lineage : tester.states.lineage (tester.stateOf slot).parent = job.ancestors := by
      rw [copy.parent, threads.rooted.lineage describes.chain describes.fits,
        describes.ancestors]
    have outcome : job.outcome config slot = some (config.fsOperatorCore random
        (tester.states.lineage (tester.stateOf slot).parent) (tester.stateOf slot).content
        (tester.stateOf slot).op) := by
      unfold Job.outcome
      rw [copy.op, lineage, copy.content, choice]
      rfl
    let next : ExTester σ ω ε :=
      { tester with
        workers := Function.update tester.workers worker (.ran slot)
        states := (execute config tester.states random (tester.works slot).state).1
        works := Function.update tester.works slot
          { tester.works slot with
            result :=
              .done (execute config tester.states random (tester.works slot).state).2 } }
    change Threads config job first cur path handled _ next
    have taken := hands_update next inside Worker.taken? (.ran slot) rfl
    have copied := hands_update next inside Worker.copied? (.ran slot) rfl
    have copying := hands_update next inside Worker.copying? (.ran slot) rfl
    have ran := hands_update next inside Worker.ran? (.ran slot) rfl
    simp only [here, Worker.taken?, Worker.copied?, Worker.copying?, Worker.ran?,
      Option.toList_none, Option.toList_some, List.append_nil] at taken copied copying ran
    have uncopied : (next.uncopied config).Perm (tester.uncopied config) := taken.append_left _
    have copied := (List.perm_append_right_iff _).mp copied
    have items : (next.workItems config).Perm (tester.workItems config) :=
      (uncopied.append (copied.append_right _)).append_right _
    have done : (next.doneSlots config).Perm (slot :: tester.doneSlots config) := by
      refine List.perm_iff_count.mpr fun other => ?_
      have same := ran.count_eq other
      change (next.hands config _ ++ (tester.cmpQ ++ tester.phase.item.toList)).count other =
        (slot :: (tester.hands config _ ++ (tester.cmpQ ++
          tester.phase.item.toList))).count other
      simp only [List.count_append, List.count_cons, List.count_nil] at same ⊢
      omega
    have kept : ∀ node, node ≠ (tester.works slot).state →
        SameData (tester.states.state node) (next.states.state node) :=
      fun node apart => .of_eq (StateManager.setState_of_ne apart _)
    have keptProtected : ∀ node, tester.Protected node →
        SameData (tester.states.state node) (next.states.state node) :=
      fun node safe => kept node fun same => sound.not_protected isItem (same ▸ safe)
    have work : ∀ other, other ≠ slot → next.works other = tester.works other :=
      fun other apart => Function.update_of_ne apart ..
    have keptOther : ∀ other ∈ tester.workItems config, other ≠ slot →
        SameData (tester.stateOf other) (next.stateOf other) := by
      intro other member apart
      unfold stateOf
      rw [work other apart]
      exact kept _ (sound.state_ne isItem member apart)
    have newWork : next.works slot =
        { tester.works slot with
          result := .done (execute config tester.states random (tester.works slot).state).2 } :=
      Function.update_self ..
    have distinct := (List.nodup_append.mp (List.nodup_append.mp sound.distinct).1).1
    have notUncopied : slot ∉ tester.uncopied config := by
      intro also
      have listed : slot ∈ tester.hands config Worker.copied? ++ tester.cmpQ :=
        List.mem_append_left _ (mem_hands_copied.mpr (.inl isCopying))
      exact (List.nodup_append.mp distinct).2.2 slot also slot listed rfl
    have nodupCopying : (slot :: next.hands config Worker.copying?).Nodup := by
      have copied := (List.nodup_append.mp (List.nodup_append.mp distinct).2.1).1
      have both := (List.nodup_append.mp (hands_copied_perm.nodup_iff.mp copied)).1
      exact (List.perm_append_singleton slot _).symm.nodup_iff.mpr (copying.nodup_iff.mpr both)
    have notDone : slot ∉ tester.doneSlots config := by
      intro also
      have items := (List.nodup_append.mp sound.distinct).1
      unfold workItems pending at items
      unfold doneSlots at also
      have perm : (tester.uncopied config ++ (tester.hands config Worker.copied? ++
            tester.cmpQ) ++ tester.phase.item.toList).Perm
          (tester.uncopied config ++ tester.hands config Worker.copying? ++
            (tester.hands config Worker.ran? ++ (tester.cmpQ ++
              tester.phase.item.toList))) := by
        refine List.perm_iff_count.mpr fun other => ?_
        have hands : (tester.hands config Worker.copied?).Perm
            (tester.hands config Worker.copying? ++ tester.hands config Worker.ran?) :=
          hands_copied_perm
        have same := hands.count_eq other
        simp only [List.count_append] at same ⊢
        omega
      exact (List.nodup_append.mp (perm.nodup_iff.mp items)).2.2 slot
        (List.mem_append_right _ isCopying) slot also rfl
    have self : next.stateOf slot =
        { tester.stateOf slot with
          content := (config.fsOperatorCore random
            (tester.states.lineage (tester.stateOf slot).parent) (tester.stateOf slot).content
            (tester.stateOf slot).op).1
          op := (config.fsOperatorCore random
            (tester.states.lineage (tester.stateOf slot).parent) (tester.stateOf slot).content
            (tester.stateOf slot).op).2.1 } := by
      unfold stateOf
      rw [newWork]
      exact StateManager.setState_self _
    exact
      { phase := threads.phase
        rooted :=
          ⟨fun node member => (threads.rooted.same node member).trans
              (keptProtected node (threads.protected_path sound describes.chain node member)),
            threads.rooted.grown⟩
        slots := (items.append_left _).trans threads.slots
        waiting := by
          intro other member
          have before := uncopied.mem_iff.mp member
          have apart : other ≠ slot := fun same => notUncopied (same ▸ before)
          exact (threads.waiting other before).congr (work other apart)
            (keptOther other (workItem_of_pending (pending_of_uncopied before)) apart)
        copied := by
          intro other member
          have before := copying.mem_iff.mp (List.mem_append_left _ member)
          have apart : other ≠ slot := by
            rintro rfl
            exact (List.nodup_cons.mp nodupCopying).1 member
          exact (threads.copied other before).congr (work other apart)
            (keptOther other (workItem_of_copying before) apart)
        done := by
          intro other member
          rcases List.mem_cons.mp (done.mem_iff.mp member) with rfl | before
          · refine ⟨by rw [newWork]; exact copy.srcState, ?_, by rw [self]; exact copy.depth⟩
            rw [self, newWork, outcome]
            exact ⟨_, _, rfl, rfl⟩
          · have apart : other ≠ slot := fun same => notDone (same ▸ before)
            exact (threads.done other before).congr (work other apart)
              (keptOther other (workItem_of_done before) apart)
        executed := by
          have execution : executions
              (events ++ [ExTester.executed tester.states slot random (tester.works slot).state]) =
              executions events ++ [job.execution slot] := by
            have own := sound.own slot isItem
            have record : Event.execution?
                (ExTester.executed tester.states slot random (tester.works slot).state) =
                some (job.execution slot) := by
              change some (slot, some (tester.stateOf slot).op,
                (tester.states.state (tester.works slot).state).ref, (tester.stateOf slot).content,
                tester.states.lineage (tester.stateOf slot).parent) = _
              rw [← copy.op, own, copy.content, lineage]
              rfl
            unfold executions
            rw [List.filterMap_append, List.filterMap_cons, record]
            rfl
          rw [execution]
          have listed : (handled ++ doneSlots config tester ++ [slot]).map job.execution =
              (handled ++ doneSlots config tester).map job.execution ++ [job.execution slot] :=
            List.map_append
          have grown := (threads.executed.append_right [job.execution slot]).trans
            (.of_eq listed.symm)
          refine grown.trans (List.Perm.map _ (List.perm_iff_count.mpr fun other => ?_))
          have same := done.count_eq other
          simp only [List.count_append, List.count_cons, List.count_nil] at same ⊢
          omega
        tables := threads.tables.congr rfl rfl fun state member =>
          keptProtected state (.inl member) }
  · cases does

end Threads

end ExTester

end FsChecking.Tester
