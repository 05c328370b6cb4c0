import Mathlib.Data.List.Nodup

/-!
# Pointer chains

A singly linked list in a memory is a pointer and a successor function. `Chain` names the list of
nodes that the pointer leads through, up to the null pointer; it is the abstraction of every free
list and history list of the development.
-/

namespace FsChecking.Lib

variable {ν : Type}

/-- Following `next` from a pointer visits exactly the listed nodes and ends at null. -/
def Chain (next : ν → Option ν) : Option ν → List ν → Prop
  | pointer, [] => pointer = none
  | pointer, node :: rest => pointer = some node ∧ Chain next (next node) rest

/-- The nodes that a pointer leads through within a number of steps. -/
def walk (next : ν → Option ν) : Nat → Option ν → List ν
  | 0, _ => []
  | _ + 1, none => []
  | steps + 1, some node => node :: walk next steps (next node)

namespace Chain

variable {next next' : ν → Option ν} {pointer : Option ν} {nodes : List ν} {node : ν}

/-- The null pointer leads through no node. -/
@[simp] theorem nil_iff : Chain next pointer [] ↔ pointer = none := Iff.rfl

/-- A chain depends only on the successors of its own nodes. -/
theorem congr (same : ∀ node ∈ nodes, next' node = next node) (chain : Chain next pointer nodes) :
    Chain next' pointer nodes := by
  induction nodes generalizing pointer with
  | nil => exact chain
  | cons head rest ih =>
    obtain ⟨start, tail⟩ := chain
    refine ⟨start, ?_⟩
    rw [same head List.mem_cons_self]
    exact ih (fun node member => same node (List.mem_cons_of_mem _ member)) tail

/-- The null pointer has only the empty chain. -/
theorem of_none (chain : Chain next none nodes) : nodes = [] := by
  cases nodes with
  | nil => rfl
  | cons head rest => exact absurd chain.1 (by simp)

/-- A chain from a node lists that node first. -/
theorem of_some (chain : Chain next (some node) nodes) :
    ∃ rest, nodes = node :: rest ∧ Chain next (next node) rest := by
  cases nodes with
  | nil => exact absurd chain (by simp)
  | cons head rest =>
    obtain ⟨start, tail⟩ := chain
    obtain rfl := Option.some.inj start
    exact ⟨rest, rfl, tail⟩

/-- The successor of a node of a chain is in the chain. -/
theorem next_mem {following : ν} (chain : Chain next pointer nodes) (member : node ∈ nodes)
    (link : next node = some following) : following ∈ nodes := by
  induction nodes generalizing pointer with
  | nil => cases member
  | cons head rest ih =>
    obtain ⟨_, tail⟩ := chain
    rcases List.mem_cons.mp member with rfl | later
    · rw [link] at tail
      obtain ⟨others, rfl, _⟩ := of_some tail
      exact List.mem_cons_of_mem _ List.mem_cons_self
    · exact List.mem_cons_of_mem _ (ih tail later)

/-- Walking far enough visits the whole chain. -/
theorem walk_eq (chain : Chain next pointer nodes) {steps : Nat} (enough : nodes.length ≤ steps) :
    walk next steps pointer = nodes := by
  induction nodes generalizing pointer steps with
  | nil =>
    obtain rfl := nil_iff.mp chain
    cases steps with
    | zero => rfl
    | succ steps => rfl
  | cons head rest ih =>
    obtain ⟨rfl, tail⟩ := chain
    cases steps with
    | zero => simp at enough
    | succ steps =>
      have shorter : rest.length ≤ steps := by simpa using enough
      rw [walk, ih tail shorter]

end Chain

end FsChecking.Lib
