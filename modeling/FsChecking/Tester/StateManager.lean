import FsChecking.Lib.Chain
import FsChecking.Lib.RefCount

/-!
# Search states and their manager

`CFsState` and `CStateManager` of the exhaustive tester. A state is an object on the heap, named by
its address; it holds a copy of the two file systems and the operation that led to it, and points to
the state it was copied from. The manager counts the references to each state and keeps the states
that nothing refers to in a list that runs through their parent pointers.
-/

namespace FsChecking.Tester

open Lib

/-- `CFsState`. -/
structure FsState (σ ω : Type) where
  /-- `m_ref_fs` and `m_real_fs`. -/
  content : σ
  /-- `m_op`. -/
  op : ω
  /-- `m_parent`. -/
  parent : Option Nat
  /-- `m_depth`. -/
  depth : Nat
  /-- `m_ref`. -/
  ref : Nat

/-- `CStateManager`, with the heap that it allocates from. -/
structure StateManager (σ ω : Type) where
  /-- The objects. -/
  state : Nat → FsState σ ω
  /-- `m_allocated`; the objects below it have been constructed. -/
  allocated : Nat
  /-- `m_free_list`. -/
  freeList : Option Nat
  /-- `m_free_nr`. -/
  freeNr : Nat

variable {σ ω : Type}

/-- `InterlockedDecrement` on a `UINT`. -/
def decrement (ref : Nat) : Nat := if ref = 0 then 0xFFFFFFFF else ref - 1

namespace StateManager

/-- Replace one object. -/
def setState (manager : StateManager σ ω) (address : Nat) (value : FsState σ ω) :
    StateManager σ ω :=
  { manager with state := Function.update manager.state address value }

/-- `CFsState::add_ref`. -/
def addRef (manager : StateManager σ ω) (address : Nat) : StateManager σ ω :=
  manager.setState address
    { manager.state address with ref := (manager.state address).ref + 1 }

/-- The part of `get` that takes the first state off the free list. -/
def reuse (manager : StateManager σ ω) (address : Nat) : StateManager σ ω :=
  { manager with
    state := Function.update manager.state address
      { manager.state address with parent := none, ref := 1 }
    freeList := (manager.state address).parent
    freeNr := manager.freeNr - 1 }

/-- The part of `get` that constructs a new state. -/
def construct (manager : StateManager σ ω) : StateManager σ ω :=
  { manager with
    state := Function.update manager.state manager.allocated
      { manager.state manager.allocated with parent := none, ref := 1 }
    allocated := manager.allocated + 1 }

/-- `get`: the first free state, or a new one; none when the free list is null though the counter
says otherwise. -/
def get (manager : StateManager σ ω) : Option (Nat × StateManager σ ω) :=
  if 0 < manager.freeNr then
    manager.freeList.map fun address => (address, manager.reuse address)
  else
    some (manager.allocated, manager.construct)

/-- `DuplicateFrom`. -/
def duplicateFrom (manager : StateManager σ ω) (address srcState : Nat) : StateManager σ ω :=
  (manager.setState address
    { manager.state address with
      content := (manager.state srcState).content
      depth := (manager.state srcState).depth + 1
      parent := some srcState }).addRef srcState

/-- The part of `put` that puts a state on the free list. -/
def recycle (manager : StateManager σ ω) (address : Nat) : StateManager σ ω :=
  { manager with
    state := Function.update manager.state address
      { manager.state address with ref := 0, parent := manager.freeList }
    freeList := some address
    freeNr := manager.freeNr + 1 }

/-- One round of the loop of `put`, with the pointer that the loop goes on with. -/
def putRound (manager : StateManager σ ω) (address : Nat) : Option Nat × StateManager σ ω :=
  let ref := decrement (manager.state address).ref
  if ref ≠ 0 then
    (none, manager.setState address { manager.state address with ref := ref })
  else
    ((manager.state address).parent, manager.recycle address)

/-- The states on the free list. -/
def freeStates (manager : StateManager σ ω) : List Nat :=
  walk (fun address => (manager.state address).parent) manager.freeNr manager.freeList

/-- A state that has been constructed and is not on the free list. -/
def Live (manager : StateManager σ ω) (address : Nat) : Prop :=
  address < manager.allocated ∧ address ∉ manager.freeStates

instance (manager : StateManager σ ω) (address : Nat) : Decidable (manager.Live address) :=
  inferInstanceAs (Decidable (_ ∧ _))

/-- The parent of a live state. -/
def parentOf (manager : StateManager σ ω) (address : Nat) : Option Nat :=
  if manager.Live address then (manager.state address).parent else none

/-- The number of live states whose `m_parent` is a state. -/
def liveChildren (manager : StateManager σ ω) (address : Nat) : Nat :=
  children manager.allocated manager.parentOf address

/-- The file systems of a state and of the states that `m_parent` leads to, nearest first. -/
def lineage (manager : StateManager σ ω) (pointer : Option Nat) : List σ :=
  (walk (fun address => (manager.state address).parent) manager.allocated pointer).map
    fun address => (manager.state address).content

end StateManager

end FsChecking.Tester
