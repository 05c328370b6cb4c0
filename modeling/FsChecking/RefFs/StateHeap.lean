import Mathlib.Data.List.Induction
import FsChecking.RefFs.OpHistory

/-!
# The states that have been seen

`CStateHeap` keeps one depth for every code that has been checked. Its key is the whole buffer that
`Encode` has written a string into, with the bytes that happen to stand behind the string.
-/

namespace FsChecking.RefFs

open Lib

/-- `CStateHeap`: the hash map of the buffers, which compares them over their whole length. -/
structure StateHeap where
  /-- `m_opcode_len`. -/
  opcodeLen : Int32
  /-- `m_fs_state`. -/
  fsState : Text → Option Nat

/-- A call of `CheckAndInsert`, with the memory that its local buffer happens to lie in. -/
structure HeapCall where
  /-- `m_ref_fs` of the state. -/
  coded : CodedFs
  /-- `m_depth` of the state. -/
  depth : Nat
  /-- The contents of the buffer before the call. -/
  leftover : Text

/-- `CheckAndInsert`. -/
def checkAndInsert (call : HeapCall) : EStateM Fault StateHeap Bool := do
  let heap ← get
  match encode call.coded maxEncodeSize heap.opcodeLen call.leftover with
  | .error fault _ => throw fault
  | .ok _ code =>
    match heap.fsState code with
    | some found =>
      if found ≤ call.depth then return true
      set { heap with fsState := Function.update heap.fsState code (some call.depth) }
      return false
    | none =>
      set { heap with fsState := Function.update heap.fsState code (some call.depth) }
      return false

namespace HeapCall

/-- The string that `Encode` writes. -/
def string (opLen : Int32) (call : HeapCall) : Text :=
  match encode call.coded maxEncodeSize opLen call.leftover with
  | .ok length code => code.take length
  | .error _ _ => []

/-- The bytes behind the string and its terminator. -/
def rest (opLen : Int32) (call : HeapCall) : Text :=
  call.leftover.drop ((call.string opLen).length + 1)

/-- The key of the call. -/
def key (opLen : Int32) (call : HeapCall) : Text :=
  call.string opLen ++ '\x00' :: call.rest opLen

end HeapCall

/-- Calls for states of runs of the tester, each with its answer, and the heap behind them. -/
inductive HeapRun (opLen : Int32) : List (HeapCall × Bool) → StateHeap → Prop where
  /-- An empty heap. -/
  | start : HeapRun opLen [] { opcodeLen := opLen, fsState := fun _ => none }
  /-- One more call that returns. -/
  | call {answered : List (HeapCall × Bool)} {heap heap' : StateHeap} {call : HeapCall}
    {answer : Bool} {kept executed : Text} {chain : List (CodedFs × Text)}
    (before : HeapRun opLen answered heap)
    (reached : ChainRun ((call.coded, kept) :: chain) executed)
    (size : call.leftover.length = maxEncodeSize)
    (answers : checkAndInsert call heap = .ok answer heap') :
    HeapRun opLen (answered ++ [(call, answer)]) heap'

/-- An earlier call with the same string was at most as deep. -/
def SeenBefore (opLen : Int32) (earlier : List (HeapCall × Bool)) (call : HeapCall) : Prop :=
  ∃ previous ∈ earlier, previous.1.string opLen = call.string opLen ∧
    previous.1.depth ≤ call.depth

/-- An earlier call with the same string and the same bytes behind it was at most as deep. -/
def SeenInSameMemory (opLen : Int32) (earlier : List (HeapCall × Bool)) (call : HeapCall) : Prop :=
  ∃ previous ∈ earlier, previous.1.string opLen = call.string opLen ∧
    previous.1.rest opLen = call.rest opLen ∧ previous.1.depth ≤ call.depth

/-- Every call returns true if and only if its string has been seen. -/
def DependsOnCode (opLen : Int32) (answered : List (HeapCall × Bool)) : Prop :=
  ∀ earlier call answer later, answered = earlier ++ (call, answer) :: later →
    (answer = true ↔ SeenBefore opLen earlier call)

/-- Every string that has been seen has been seen in the same memory. -/
def RepeatsMemory (opLen : Int32) (answered : List (HeapCall × Bool)) : Prop :=
  ∀ earlier call answer later, answered = earlier ++ (call, answer) :: later →
    SeenBefore opLen earlier call → SeenInSameMemory opLen earlier call

/-- What `Encode` of a state of a run leaves in the buffer. -/
theorem Chained.encode_key {kept : Text} {call : HeapCall} (chained : Chained call.coded kept)
    (size : call.leftover.length = maxEncodeSize) {opLen : Int32} {length : Nat} {code : Text}
    (run : encode call.coded maxEncodeSize opLen call.leftover = .ok length code) :
    code = call.key opLen ∧ '\x00' ∉ call.string opLen ∧
      call.string opLen = historyString call.coded kept opLen := by
  have sized := (chained.legible.files 0).1
  have fits := chained.stores.fits_of_encode size run
  have leaves := chained.stores.encode_of_fits sized fits size
  rw [overwrite_zero, List.append_assoc] at leaves
  have string : call.string opLen = historyString call.coded kept opLen := by
    rw [HeapCall.string, leaves]
    exact List.take_left
  refine ⟨?_, ?_, string⟩
  · rw [leaves] at run
    rw [← (EStateM.Result.ok.inj run).2, HeapCall.key, HeapCall.rest, string, List.length_append]
    rfl
  · rw [string]
    exact chained.plain_historyString chained.plain opLen

/-- Two keys are equal when the strings and the bytes behind them are. -/
theorem HeapCall.key_inj {opLen : Int32} {call other : HeapCall}
    (plain : '\x00' ∉ call.string opLen) (plain' : '\x00' ∉ other.string opLen) :
    call.key opLen = other.key opLen ↔
      call.string opLen = other.string opLen ∧ call.rest opLen = other.rest opLen := by
  constructor
  · exact eq_of_terminated plain plain'
  · rintro ⟨strings, rests⟩
    rw [key, key, strings, rests]

/-- What a heap knows: the depths below which a key has been seen. -/
def Knows (opLen : Int32) (answered : List (HeapCall × Bool)) (heap : StateHeap) : Prop :=
  heap.opcodeLen = opLen ∧ (∀ call ∈ answered, '\x00' ∉ call.1.string opLen) ∧
    ∀ code depth, (∃ found, heap.fsState code = some found ∧ found ≤ depth) ↔
      ∃ call ∈ answered, call.1.key opLen = code ∧ call.1.depth ≤ depth

/-- How `CheckAndInsert` answers when the buffer of the call has been written. -/
theorem checkAndInsert_eq_ok {call : HeapCall} {heap heap' : StateHeap} {answer : Bool}
    (run : checkAndInsert call heap = .ok answer heap') :
    ∃ length code, encode call.coded maxEncodeSize heap.opcodeLen call.leftover = .ok length code ∧
      (answer = true ↔ ∃ found, heap.fsState code = some found ∧ found ≤ call.depth) ∧
      heap' = if answer then heap else
        { heap with fsState := Function.update heap.fsState code (some call.depth) } := by
  unfold checkAndInsert at run
  rw [get_bind_apply] at run
  cases encoded : encode call.coded maxEncodeSize heap.opcodeLen call.leftover with
  | error fault code =>
    rw [encoded] at run
    cases run
  | ok length code =>
    rw [encoded] at run
    refine ⟨length, code, rfl, ?_⟩
    dsimp only at run
    cases entry : heap.fsState code with
    | none =>
      rw [entry] at run
      cases run
      simp
    | some found =>
      rw [entry] at run
      dsimp only at run
      split at run
      · rename_i shallow
        cases run
        simp [shallow]
      · rename_i deep
        cases run
        simp [deep]

/-- One more call: its answer, and what the heap knows behind it. -/
theorem Knows.step {opLen : Int32} {answered : List (HeapCall × Bool)} {heap heap' : StateHeap}
    {call : HeapCall} {answer : Bool} {kept : Text} (knows : Knows opLen answered heap)
    (chained : Chained call.coded kept) (size : call.leftover.length = maxEncodeSize)
    (run : checkAndInsert call heap = .ok answer heap') :
    (answer = true ↔ SeenInSameMemory opLen answered call) ∧
      Knows opLen (answered ++ [(call, answer)]) heap' := by
  obtain ⟨sameLength, plain, depths⟩ := knows
  obtain ⟨length, code, encoded, answers, left⟩ := checkAndInsert_eq_ok run
  rw [sameLength] at encoded
  obtain ⟨rfl, plainCall, -⟩ := chained.encode_key size encoded
  have seen : (∃ previous ∈ answered, previous.1.key opLen = call.key opLen ∧
      previous.1.depth ≤ call.depth) ↔ SeenInSameMemory opLen answered call := by
    constructor
    · rintro ⟨previous, member, keys, shallow⟩
      obtain ⟨strings, rests⟩ := (HeapCall.key_inj (plain previous member) plainCall).mp keys
      exact ⟨previous, member, strings, rests, shallow⟩
    · rintro ⟨previous, member, strings, rests, shallow⟩
      exact ⟨previous, member,
        (HeapCall.key_inj (plain previous member) plainCall).mpr ⟨strings, rests⟩, shallow⟩
  have known := answers.trans (depths (call.key opLen) call.depth)
  refine ⟨known.trans seen, ?_, ?_, ?_⟩
  · rw [left]
    split <;> exact sameLength
  · intro other member
    rw [List.mem_append, List.mem_singleton] at member
    cases member with
    | inl earlier => exact plain other earlier
    | inr last =>
      rw [last]
      exact plainCall
  · intro code depth
    have more : (∃ other ∈ answered ++ [(call, answer)], other.1.key opLen = code ∧
        other.1.depth ≤ depth) ↔ (∃ other ∈ answered, other.1.key opLen = code ∧
          other.1.depth ≤ depth) ∨ call.key opLen = code ∧ call.depth ≤ depth := by
      simp only [List.mem_append, List.mem_singleton, or_and_right, exists_or, exists_eq_left]
    rw [more, ← depths code depth, left]
    cases answer with
    | true =>
      -- the depth that is kept is at most that of the call
      rw [if_pos rfl]
      refine ⟨.inl, ?_⟩
      rintro (stays | ⟨rfl, shallow⟩)
      · exact stays
      · obtain ⟨found, entry, lower⟩ := answers.mp rfl
        exact ⟨found, entry, lower.trans shallow⟩
    | false =>
      rw [if_neg Bool.false_ne_true]
      dsimp only
      by_cases here : code = call.key opLen
      · subst here
        rw [Function.update_self]
        have deeper : ∀ found, heap.fsState (call.key opLen) = some found → call.depth ≤ found := by
          intro found entry
          by_contra shallow
          exact Bool.false_ne_true (answers.mpr ⟨found, entry, by omega⟩)
        constructor
        · rintro ⟨found, ⟨⟩, shallow⟩
          exact .inr ⟨rfl, shallow⟩
        · rintro (⟨found, entry, shallow⟩ | ⟨-, shallow⟩)
          · exact ⟨_, rfl, (deeper found entry).trans shallow⟩
          · exact ⟨_, rfl, shallow⟩
      · rw [Function.update_of_ne here]
        have other : ¬(call.key opLen = code ∧ call.depth ≤ depth) := fun same => here same.1.symm
        rw [or_iff_left other]

/-- In every run the heap knows the calls that have been answered. -/
theorem HeapRun.knows {opLen : Int32} {answered : List (HeapCall × Bool)} {heap : StateHeap}
    (run : HeapRun opLen answered heap) : Knows opLen answered heap := by
  induction run with
  | start => exact ⟨rfl, nofun, fun code depth => by simp⟩
  | call before reached size answers ih =>
    exact (ih.step (reached.chained.1 _ List.mem_cons_self) size answers).2

/-- In every run a call returns true exactly when its string has been seen in the same memory. -/
theorem HeapRun.answers {opLen : Int32} {answered : List (HeapCall × Bool)} {heap : StateHeap}
    (run : HeapRun opLen answered heap) {earlier later : List (HeapCall × Bool)} {call : HeapCall}
    {answer : Bool} (split : answered = earlier ++ (call, answer) :: later) :
    answer = true ↔ SeenInSameMemory opLen earlier call := by
  induction run generalizing later with
  | start => simp at split
  | @call answered _ _ last lastAnswer _ _ _ before reached size answers ih =>
    cases later using List.reverseRecOn with
    | nil =>
      obtain ⟨rfl, same⟩ := List.append_inj' split rfl
      obtain ⟨rfl, rfl⟩ := Prod.mk.inj (List.cons.inj same).1
      exact (before.knows.step (reached.chained.1 _ List.mem_cons_self) size answers).1
    | append_singleton later end' =>
      rw [← List.cons_append, ← List.append_assoc] at split
      exact ih (List.append_inj' split rfl).1

/-- In every run the answers depend on the codes and depths alone if and only if every string that
is found again is found in a buffer with the same bytes behind it. -/
theorem checkAndInsert_dependsOnCode_iff {opLen : Int32} {answered : List (HeapCall × Bool)}
    {heap : StateHeap} (run : HeapRun opLen answered heap) :
    DependsOnCode opLen answered ↔ RepeatsMemory opLen answered := by
  constructor
  · intro depends earlier call answer later split seen
    exact (run.answers split).mp ((depends earlier call answer later split).mpr seen)
  · intro repeats earlier call answer later split
    rw [run.answers split]
    refine ⟨?_, repeats earlier call answer later split⟩
    rintro ⟨previous, member, strings, -, shallow⟩
    exact ⟨previous, member, strings, shallow⟩

/-- A new reference. -/
def freshReference : CodedFs where
  fs := ReferenceFs.zero.initialized
  opCode := List.replicate opCodeSize 'x'
  opCodeLen := 0

/-- A call for a new reference, over a buffer filled with some character. -/
def freshCall (filler : Char) : HeapCall where
  coded := freshReference
  depth := 0
  leftover := List.replicate maxEncodeSize filler

/-- The chain of a new reference. -/
theorem chainRun_freshReference : ChainRun [(freshReference, [])] [] :=
  .start ReferenceFs.zero (List.replicate opCodeSize 'x') List.length_replicate

/-- The string of a new reference and the bytes behind it. -/
theorem string_freshCall (filler : Char) :
    (freshCall filler).string 3 = historyString freshReference [] 3 ∧
      (freshCall filler).rest 3 = List.replicate 508 filler := by
  have chained : Chained (freshCall filler).coded [] :=
    chainRun_freshReference.chained.1 _ List.mem_cons_self
  have size : (freshCall filler).leftover.length = maxEncodeSize := List.length_replicate
  have encoded := chained.stores.encode_of_fits (chained.legible.files 0).1
    (show Fits freshReference [] 3 from ⟨by decide, by decide⟩) size
  have string := (chained.encode_key size encoded).2.2
  refine ⟨string, ?_⟩
  rw [HeapCall.rest, string]
  exact List.drop_replicate

/-- Calls for new references over any buffers return. -/
theorem heapRun_freshCalls (fillers : List Char) :
    ∃ answered heap, HeapRun 3 answered heap ∧ answered.map Prod.fst = fillers.map freshCall := by
  induction fillers using List.reverseRecOn with
  | nil => exact ⟨[], _, .start, rfl⟩
  | append_singleton fillers filler ih =>
    obtain ⟨answered, heap, run, calls⟩ := ih
    have chained : Chained freshReference [] :=
      chainRun_freshReference.chained.1 _ List.mem_cons_self
    have size : (freshCall filler).leftover.length = maxEncodeSize := List.length_replicate
    have encoded := chained.stores.encode_of_fits (chained.legible.files 0).1
      (show Fits freshReference [] heap.opcodeLen by
        rw [run.knows.1]
        exact ⟨by decide, by decide⟩) size
    obtain ⟨answer, heap', answers⟩ :
        ∃ answer heap', checkAndInsert (freshCall filler) heap = .ok answer heap' := by
      unfold checkAndInsert
      rw [get_bind_apply, show (freshCall filler).coded = freshReference from rfl, encoded]
      dsimp only
      cases heap.fsState (overwrite (freshCall filler).leftover 0
        (historyString freshReference [] heap.opcodeLen ++ ['\x00'])) with
      | none => exact ⟨_, _, rfl⟩
      | some found =>
        dsimp only
        split
        · exact ⟨_, _, rfl⟩
        · exact ⟨_, _, rfl⟩
    refine ⟨_, _, .call run chainRun_freshReference List.length_replicate answers, ?_⟩
    rw [List.map_append, List.map_append, calls]
    rfl

/-- The same state twice, over different memory: the second call does not find the first. -/
theorem checkAndInsert_forgets :
    ∃ answered heap, HeapRun 3 answered heap ∧ ¬DependsOnCode 3 answered := by
  obtain ⟨answered, heap, run, calls⟩ := heapRun_freshCalls ['x', 'y']
  refine ⟨answered, heap, run, fun depends => ?_⟩
  obtain ⟨first, tail, rfl, firstCall, calls⟩ := List.map_eq_cons_iff.mp calls
  obtain ⟨second, tail, rfl, secondCall, calls⟩ := List.map_eq_cons_iff.mp calls
  obtain rfl := List.map_eq_nil_iff.mp calls
  have seen : SeenBefore 3 [first] second.1 := by
    refine ⟨first, List.mem_singleton_self _, ?_, ?_⟩
    · rw [firstCall, secondCall, (string_freshCall 'x').1, (string_freshCall 'y').1]
    · rw [firstCall, secondCall]
      exact Nat.le_refl 0
  have answer := (depends [first] second.1 second.2 [] rfl).mpr seen
  obtain ⟨previous, member, -, rests, -⟩ := (run.answers
    (show [first, second] = [first] ++ (second.1, second.2) :: [] from rfl)).mp answer
  obtain rfl := List.mem_singleton.mp member
  rw [firstCall, secondCall, (string_freshCall 'x').2, (string_freshCall 'y').2] at rests
  exact absurd rests (by decide)

/-- The same state twice, over the same memory. -/
theorem checkAndInsert_dependsOnCode_iff_twice :
    ∃ answered heap, HeapRun 3 answered heap ∧
      answered.map Prod.fst = [freshCall 'x', freshCall 'x'] ∧ DependsOnCode 3 answered := by
  obtain ⟨answered, heap, run, calls⟩ := heapRun_freshCalls ['x', 'x']
  refine ⟨answered, heap, run, calls, ?_⟩
  apply (checkAndInsert_dependsOnCode_iff run).mpr
  have same : ∀ entry ∈ answered, entry.1 = freshCall 'x' := by
    intro entry member
    have listed := List.mem_map_of_mem (f := Prod.fst) member
    rw [calls] at listed
    simpa using listed
  rintro earlier call answer later rfl ⟨previous, member, strings, shallow⟩
  refine ⟨previous, member, strings, ?_, shallow⟩
  have this := same (call, answer) (List.mem_append_right _ List.mem_cons_self)
  have that := same previous (List.mem_append_left _ member)
  rw [that]
  exact congrArg (HeapCall.rest 3) this.symm

end FsChecking.RefFs
