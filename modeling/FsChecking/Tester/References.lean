import FsChecking.Tester.StateManager

/-!
# References to search states

`Accounted` relates a manager to the list of all references that are held to its states: the free
list is a well-formed chain, and every counter is the number of references plus the number of live
children. Each operation of the manager has one rule that says how it moves references.
-/

namespace FsChecking.Tester

open Lib

variable {σ ω : Type} {manager : StateManager σ ω} {references : List Nat} {address : Nat}

/-- The free list is what its counter says. -/
structure WellFormed (manager : StateManager σ ω) : Prop where
  /-- The free list ends after `m_free_nr` states. -/
  chain : Chain (fun address => (manager.state address).parent) manager.freeList manager.freeStates
  /-- `m_free_nr` counts the free list. -/
  length : manager.freeStates.length = manager.freeNr
  /-- No state is twice on the free list. -/
  nodup : manager.freeStates.Nodup
  /-- Free states have been constructed. -/
  constructed : ∀ address ∈ manager.freeStates, address < manager.allocated

/-- The manager agrees with the references that are held to its states. -/
structure Accounted (manager : StateManager σ ω) (references : List Nat) : Prop
    extends WellFormed manager where
  /-- The counters are exact. -/
  counted : Counted manager.allocated manager.Live manager.parentOf
    (fun address => (manager.state address).ref) (references.count ·)
  /-- Every live state is one level deeper than its parent. -/
  deeper : ∀ address parent, manager.Live address →
    (manager.state address).parent = some parent →
    (manager.state address).depth = (manager.state parent).depth + 1

namespace StateManager

/-- A chain of the right length is the free list. -/
theorem freeStates_eq {free : List Nat}
    (chain : Chain (fun address => (manager.state address).parent) manager.freeList free)
    (length : free.length = manager.freeNr) : manager.freeStates = free :=
  chain.walk_eq (Nat.le_of_eq length)

/-- The parent of a live state is its `m_parent`. -/
theorem parentOf_of_live (alive : manager.Live address) :
    manager.parentOf address = (manager.state address).parent := if_pos alive

/-- The object that has been replaced. -/
@[simp] theorem setState_self (value : FsState σ ω) :
    (manager.setState address value).state address = value := Function.update_self ..

/-- Replacing one object leaves the others alone. -/
@[simp] theorem setState_of_ne {other : Nat} (apart : other ≠ address) (value : FsState σ ω) :
    (manager.setState address value).state other = manager.state other :=
  Function.update_of_ne apart ..

/-- The object that is taken off the free list. -/
@[simp] theorem reuse_self (manager : StateManager σ ω) (address : Nat) :
    (manager.reuse address).state address =
      { manager.state address with parent := none, ref := 1 } := Function.update_self ..

/-- Taking a state off the free list leaves the other objects alone. -/
@[simp] theorem reuse_of_ne {other : Nat} (apart : other ≠ address) :
    (manager.reuse address).state other = manager.state other := Function.update_of_ne apart ..

/-- The object that is constructed. -/
@[simp] theorem construct_self (manager : StateManager σ ω) :
    manager.construct.state manager.allocated =
      { manager.state manager.allocated with parent := none, ref := 1 } := Function.update_self ..

/-- Constructing a state leaves the other objects alone. -/
@[simp] theorem construct_of_ne {other : Nat} (apart : other ≠ manager.allocated) :
    manager.construct.state other = manager.state other := Function.update_of_ne apart ..

/-- The object that is put on the free list. -/
@[simp] theorem recycle_self (manager : StateManager σ ω) (address : Nat) :
    (manager.recycle address).state address =
      { manager.state address with ref := 0, parent := manager.freeList } :=
  Function.update_self ..

/-- Putting a state on the free list leaves the other objects alone. -/
@[simp] theorem recycle_of_ne {other : Nat} (apart : other ≠ address) :
    (manager.recycle address).state other = manager.state other := Function.update_of_ne apart ..

/-- Taking a reference leaves the other objects alone. -/
theorem addRef_of_ne {other : Nat} (apart : other ≠ address) :
    (manager.addRef address).state other = manager.state other := setState_of_ne apart _

/-- Copying into a state touches the state, and the counter of its source. -/
theorem duplicateFrom_of_ne {srcState other : Nat} (apart : other ≠ address)
    (foreign : other ≠ srcState) :
    (manager.duplicateFrom address srcState).state other = manager.state other := by
  unfold duplicateFrom
  rw [addRef_of_ne foreign, setState_of_ne apart]

end StateManager

/-- Replacing an object keeps the free list when the parents of the free states stay. -/
theorem WellFormed.setState (formed : WellFormed manager) (address : Nat) (value : FsState σ ω)
    (same : address ∈ manager.freeStates → value.parent = (manager.state address).parent) :
    WellFormed (manager.setState address value) ∧
      ∀ other, (manager.setState address value).Live other ↔ manager.Live other := by
  have chain : Chain (fun other => ((manager.setState address value).state other).parent)
      manager.freeList manager.freeStates := by
    refine formed.chain.congr fun other member => ?_
    by_cases here : other = address
    · subst here
      rw [StateManager.setState_self, same member]
    · rw [StateManager.setState_of_ne here]
  have free : (manager.setState address value).freeStates = manager.freeStates :=
    StateManager.freeStates_eq chain formed.length
  refine ⟨⟨by rw [free]; exact chain, by rw [free]; exact formed.length,
    by rw [free]; exact formed.nodup, by rw [free]; exact formed.constructed⟩, fun other => ?_⟩
  unfold StateManager.Live
  rw [free]
  rfl

namespace Accounted

/-- The order of the references does not matter. -/
theorem perm (accounted : Accounted manager references) {references' : List Nat}
    (same : references'.Perm references) : Accounted manager references' :=
  { accounted with
    counted := accounted.counted.congr (fun _ => Iff.rfl) (fun _ => rfl) (fun _ _ => rfl)
      fun address => same.count_eq address }

/-- What is referred to is live. -/
theorem live_of_mem (accounted : Accounted manager references) (member : address ∈ references) :
    manager.Live address :=
  accounted.counted.live_of_held (List.count_pos_iff.mpr member)

/-- The parent of a live state is live. -/
theorem live_parent (accounted : Accounted manager references) (alive : manager.Live address)
    {parent : Nat} (link : (manager.state address).parent = some parent) : manager.Live parent :=
  accounted.counted.live_of_link (by rw [StateManager.parentOf_of_live alive, link])

/-- The counter of a live state. -/
theorem ref_eq (accounted : Accounted manager references) (alive : manager.Live address) :
    (manager.state address).ref = references.count address + manager.liveChildren address :=
  accounted.counted.exact_count address alive

/-- A live state is a child of its parent. -/
theorem liveChildren_pos (accounted : Accounted manager references)
    (alive : manager.Live address) {parent : Nat}
    (link : (manager.state address).parent = some parent) : 0 < manager.liveChildren parent := by
  unfold StateManager.liveChildren children
  rw [List.countP_pos_iff]
  refine ⟨address, List.mem_range.mpr (accounted.counted.bounded address alive), ?_⟩
  rw [StateManager.parentOf_of_live alive, link]
  exact decide_eq_true rfl

/-- The levels depend only on the live states, their parents and their depths. -/
theorem deeper_congr (accounted : Accounted manager references) {manager' : StateManager σ ω}
    (lives : ∀ other, manager'.Live other ↔ manager.Live other)
    (parents : ∀ other, (manager'.state other).parent = (manager.state other).parent)
    (depths : ∀ other, (manager'.state other).depth = (manager.state other).depth)
    (other parent : Nat) (alive : manager'.Live other)
    (link : (manager'.state other).parent = some parent) :
    (manager'.state other).depth = (manager'.state parent).depth + 1 := by
  rw [depths, depths]
  exact accounted.deeper other parent ((lives other).mp alive) (by rw [← parents, link])

/-- Replacing the data of a state that the accounts do not depend on. -/
theorem setState (accounted : Accounted manager references) (address : Nat)
    (value : FsState σ ω) (sameParent : value.parent = (manager.state address).parent)
    (sameRef : value.ref = (manager.state address).ref)
    (sameDepth : value.depth = (manager.state address).depth) :
    Accounted (manager.setState address value) references ∧
      ∀ other, (manager.setState address value).Live other ↔ manager.Live other := by
  obtain ⟨formed, lives⟩ := accounted.toWellFormed.setState address value fun _ => sameParent
  refine ⟨⟨formed, ?_, ?_⟩, lives⟩
  case refine_2 =>
    refine accounted.deeper_congr lives (fun other => ?_) fun other => ?_
    · by_cases here : other = address
      · rw [here, StateManager.setState_self, sameParent]
      · rw [StateManager.setState_of_ne here]
    · by_cases here : other = address
      · rw [here, StateManager.setState_self, sameDepth]
      · rw [StateManager.setState_of_ne here]
  refine accounted.counted.congr lives (fun other => ?_) (fun other _ => ?_) fun _ => rfl
  · unfold StateManager.parentOf
    rw [if_congr (lives other) rfl rfl]
    by_cases here : other = address
    · rw [here, StateManager.setState_self, sameParent]
    · rw [StateManager.setState_of_ne here]
  · by_cases here : other = address
    · rw [here, StateManager.setState_self, sameRef]
    · rw [StateManager.setState_of_ne here]

/-- Taking a reference to a live state. -/
theorem addRef (accounted : Accounted manager references) (alive : manager.Live address) :
    Accounted (manager.addRef address) (address :: references) ∧
      ∀ other, (manager.addRef address).Live other ↔ manager.Live other := by
  obtain ⟨formed, lives⟩ : WellFormed (manager.addRef address) ∧
      ∀ other, (manager.addRef address).Live other ↔ manager.Live other :=
    accounted.toWellFormed.setState address _ fun _ => rfl
  refine ⟨⟨formed, ?_, ?_⟩, lives⟩
  case refine_2 =>
    refine accounted.deeper_congr lives (fun other => ?_) fun other => ?_ <;>
    · by_cases here : other = address
      · rw [here, StateManager.addRef, StateManager.setState_self]
      · rw [StateManager.addRef_of_ne here]
  refine (accounted.counted.takeRef alive).congr lives (fun other => ?_) (fun other _ => ?_)
    fun other => ?_
  · unfold StateManager.parentOf
    rw [if_congr (lives other) rfl rfl]
    by_cases here : other = address
    · rw [here, StateManager.addRef, StateManager.setState_self]
    · rw [StateManager.addRef_of_ne here]
  · by_cases here : other = address
    · rw [here, StateManager.addRef, StateManager.setState_self, Function.update_self]
    · rw [StateManager.addRef_of_ne here, Function.update_of_ne here]
  · rw [hold_apply, List.count_cons]
    by_cases here : other = address
    · simp [here]
    · simp [here, Ne.symm here]

/-- Copying from a live state into a live state without a parent. -/
theorem duplicateFrom (accounted : Accounted manager references) {srcState : Nat}
    (alive : manager.Live address) (free : (manager.state address).parent = none)
    (childless : manager.liveChildren address = 0) (source : manager.Live srcState)
    (apart : address ≠ srcState) :
    Accounted (manager.duplicateFrom address srcState) references ∧
      ∀ other, (manager.duplicateFrom address srcState).Live other ↔ manager.Live other := by
  obtain ⟨formed, lives⟩ := accounted.toWellFormed.setState address
    { manager.state address with
      content := (manager.state srcState).content
      depth := (manager.state srcState).depth + 1
      parent := some srcState } fun member => absurd member alive.2
  obtain ⟨formed', lives'⟩ : WellFormed (manager.duplicateFrom address srcState) ∧ _ :=
    formed.setState srcState _ fun _ => rfl
  have lives : ∀ other, (manager.duplicateFrom address srcState).Live other ↔
      manager.Live other := fun other => (lives' other).trans (lives other)
  refine ⟨⟨formed', ?_, ?_⟩, lives⟩
  case refine_2 =>
    have depths : ∀ other, other ≠ address →
        ((manager.duplicateFrom address srcState).state other).depth =
            (manager.state other).depth ∧
          ((manager.duplicateFrom address srcState).state other).parent =
            (manager.state other).parent := by
      intro other here
      unfold StateManager.duplicateFrom StateManager.addRef
      by_cases origin : other = srcState
      · rw [origin, StateManager.setState_self, StateManager.setState_of_ne (Ne.symm apart)]
        exact ⟨rfl, rfl⟩
      · rw [StateManager.setState_of_ne origin, StateManager.setState_of_ne here]
        exact ⟨rfl, rfl⟩
    intro other parent isLive link
    have before := (lives other).mp isLive
    by_cases here : other = address
    · subst here
      have self : (manager.duplicateFrom other srcState).state other =
          { manager.state other with
            content := (manager.state srcState).content
            depth := (manager.state srcState).depth + 1
            parent := some srcState } := by
        unfold StateManager.duplicateFrom
        rw [StateManager.addRef_of_ne apart, StateManager.setState_self]
      rw [self] at link ⊢
      obtain rfl := Option.some.inj link
      rw [(depths srcState (Ne.symm apart)).1]
    · rw [(depths other here).2] at link
      have notParent : parent ≠ address := by
        rintro rfl
        have positive := accounted.liveChildren_pos before link
        omega
      rw [(depths other here).1, (depths parent notParent).1]
      exact accounted.deeper other parent before link
  have unlinked : manager.parentOf address = none := by
    rw [StateManager.parentOf_of_live alive, free]
  refine (accounted.counted.linkTo alive unlinked source).congr lives (fun other => ?_)
    (fun other _ => ?_) fun _ => rfl
  · unfold StateManager.parentOf
    rw [if_congr (lives other) rfl rfl]
    unfold StateManager.duplicateFrom StateManager.addRef
    by_cases target : other = address
    · subst target
      rw [StateManager.setState_of_ne apart, StateManager.setState_self, Function.update_self,
        if_pos alive]
    · rw [Function.update_of_ne target]
      by_cases origin : other = srcState
      · rw [origin, StateManager.setState_self, StateManager.setState_of_ne (Ne.symm apart)]
      · rw [StateManager.setState_of_ne origin, StateManager.setState_of_ne target]
  · unfold StateManager.duplicateFrom StateManager.addRef
    by_cases origin : other = srcState
    · rw [origin, StateManager.setState_self, Function.update_self,
        StateManager.setState_of_ne (Ne.symm apart)]
    · rw [StateManager.setState_of_ne origin, Function.update_of_ne origin]
      by_cases target : other = address
      · rw [target, StateManager.setState_self]
      · rw [StateManager.setState_of_ne target]

end Accounted

/-! ## Handing out and taking back -/

/-- What `get` hands out: a state that was dead, now live with one reference and no parent. -/
structure HandsOut (manager : StateManager σ ω) (address : Nat) (manager' : StateManager σ ω) :
    Prop where
  /-- The state was not live. -/
  dead : ¬ manager.Live address
  /-- It has no parent. -/
  orphan : (manager'.state address).parent = none
  /-- It has one reference. -/
  single : (manager'.state address).ref = 1
  /-- The other objects are untouched. -/
  others : ∀ other, other ≠ address → manager'.state other = manager.state other
  /-- It is live now. -/
  lives : ∀ other, manager'.Live other ↔ manager.Live other ∨ other = address
  /-- Objects are not destroyed. -/
  more : manager.allocated ≤ manager'.allocated

/-- What `get` hands out is accounted for. -/
theorem HandsOut.accounted {manager' : StateManager σ ω} (hands : HandsOut manager address manager')
    (before : Accounted manager references) (formed : WellFormed manager') :
    Accounted manager' (address :: references) := by
  refine ⟨formed, ?_, ?_⟩
  case refine_2 =>
    intro other parent isLive link
    have here : other ≠ address := by
      rintro rfl
      rw [hands.orphan] at link
      cases link
    have isLive := ((hands.lives other).mp isLive).resolve_right here
    rw [hands.others other here] at link ⊢
    have notParent : parent ≠ address := by
      rintro rfl
      exact hands.dead (before.live_parent isLive link)
    rw [hands.others parent notParent]
    exact before.deeper other parent isLive link
  have inside : address < manager'.allocated := ((hands.lives address).mpr (.inr rfl)).1
  refine (before.counted.wake hands.dead hands.more inside hands.lives).congr (fun _ => Iff.rfl)
    (fun other => ?_) (fun other _ => ?_) fun other => ?_
  · unfold StateManager.parentOf
    rw [if_congr (hands.lives other) rfl rfl]
    by_cases here : other = address
    · subst here
      rw [if_pos (.inr rfl), if_neg hands.dead, hands.orphan]
    · rw [if_congr (or_iff_left here) rfl rfl, hands.others other here]
  · by_cases here : other = address
    · rw [here, hands.single, Function.update_self]
    · rw [Function.update_of_ne here, hands.others other here]
  · rw [hold_apply, List.count_cons]
    by_cases here : other = address
    · simp [here]
    · simp [here, Ne.symm here]

/-- Handing out the first free state. -/
theorem Accounted.reuse (accounted : Accounted manager references)
    (first : manager.freeList = some address) :
    HandsOut manager address (manager.reuse address) ∧
      Accounted (manager.reuse address) (address :: references) := by
  have chain := accounted.chain
  rw [first] at chain
  obtain ⟨rest, free, tail⟩ := chain.of_some
  have nodup := accounted.nodup
  have length := accounted.length
  have constructed := accounted.constructed
  rw [free] at nodup length constructed
  obtain ⟨absent, nodup⟩ := List.nodup_cons.mp nodup
  have chain' : Chain (fun other => ((manager.reuse address).state other).parent)
      (manager.reuse address).freeList rest := by
    refine tail.congr fun other member => ?_
    have apart : other ≠ address := fun same => absent (same ▸ member)
    rw [StateManager.reuse_of_ne apart]
  have rest_length : rest.length = (manager.reuse address).freeNr := by
    change rest.length = manager.freeNr - 1
    rw [← length, List.length_cons, Nat.add_sub_cancel]
  have freeStates := StateManager.freeStates_eq chain' rest_length
  have hands : HandsOut manager address (manager.reuse address) :=
    { dead := fun alive => alive.2 (by rw [free]; exact List.mem_cons_self)
      orphan := by rw [StateManager.reuse_self]
      single := by rw [StateManager.reuse_self]
      others := fun other apart => StateManager.reuse_of_ne apart
      lives := by
        intro other
        unfold StateManager.Live
        rw [freeStates, free, List.mem_cons, not_or]
        constructor
        · rintro ⟨inside, unlisted⟩
          by_cases here : other = address
          · exact .inr here
          · exact .inl ⟨inside, here, unlisted⟩
        · rintro (⟨inside, -, unlisted⟩ | rfl)
          · exact ⟨inside, unlisted⟩
          · exact ⟨constructed other List.mem_cons_self, absent⟩
      more := Nat.le_refl _ }
  refine ⟨hands, hands.accounted accounted ⟨?_, ?_, ?_, ?_⟩⟩ <;> rw [freeStates]
  · exact chain'
  · exact rest_length
  · exact nodup
  · exact fun other member => constructed other (List.mem_cons_of_mem _ member)

/-- Handing out a new state. -/
theorem Accounted.construct (accounted : Accounted manager references)
    (none_free : manager.freeNr = 0) :
    HandsOut manager manager.allocated manager.construct ∧
      Accounted manager.construct (manager.allocated :: references) := by
  have empty : manager.freeStates = [] := by
    rw [← List.length_eq_zero_iff, accounted.length, none_free]
  have chain : Chain (fun other => (manager.construct.state other).parent)
      manager.construct.freeList [] := by
    have before := accounted.chain
    rw [empty] at before
    exact before
  have freeStates := StateManager.freeStates_eq chain none_free.symm
  have hands : HandsOut manager manager.allocated manager.construct :=
    { dead := fun alive => absurd alive.1 (Nat.lt_irrefl _)
      orphan := by rw [StateManager.construct_self]
      single := by rw [StateManager.construct_self]
      others := fun other apart => StateManager.construct_of_ne apart
      lives := by
        intro other
        unfold StateManager.Live
        rw [freeStates, empty]
        change other < manager.allocated + 1 ∧ _ ↔ _
        simp only [List.not_mem_nil, not_false_eq_true, and_true]
        omega
      more := Nat.le_succ _ }
  refine ⟨hands, hands.accounted accounted ⟨?_, ?_, ?_, ?_⟩⟩ <;> rw [freeStates]
  · exact chain
  · exact none_free.symm
  · exact List.nodup_nil
  · simp

/-- Handing out a state. -/
theorem Accounted.get (accounted : Accounted manager references) {manager' : StateManager σ ω}
    (obtained : manager.get = some (address, manager')) :
    HandsOut manager address manager' ∧ Accounted manager' (address :: references) := by
  unfold StateManager.get at obtained
  split at obtained
  · obtain ⟨first, list, same⟩ := Option.map_eq_some_iff.mp obtained
    obtain ⟨rfl, rfl⟩ := Prod.mk.inj same
    exact accounted.reuse list
  · obtain ⟨rfl, rfl⟩ := Prod.mk.inj (Option.some.inj obtained)
    exact accounted.construct (by omega)

/-- One round of `put` leaves the other objects alone. -/
theorem StateManager.putRound_of_ne {other : Nat} (apart : other ≠ address) :
    (manager.putRound address).2.state other = manager.state other := by
  unfold StateManager.putRound
  dsimp only
  split
  · exact StateManager.setState_of_ne apart _
  · exact StateManager.recycle_of_ne apart

/-- One round of `put` neither constructs nor destroys objects. -/
theorem StateManager.putRound_allocated (manager : StateManager σ ω) (address : Nat) :
    (manager.putRound address).2.allocated = manager.allocated := by
  unfold StateManager.putRound
  dsimp only
  split <;> rfl

/-- The references that are left when one is taken back. -/
theorem drop_count (references : List Nat) (address other : Nat) :
    drop ((address :: references).count ·) address other = references.count other := by
  rw [drop_apply, List.count_cons]
  by_cases here : other = address
  · simp [here]
  · simp [here, Ne.symm here]

/-- Taking back a reference that is not the last one. -/
theorem Accounted.release (accounted : Accounted manager (address :: references))
    (more : (manager.state address).ref - 1 ≠ 0) :
    let value := { manager.state address with ref := (manager.state address).ref - 1 }
    Accounted (manager.setState address value) references ∧
      ∀ other, (manager.setState address value).Live other ↔ manager.Live other := by
  intro value
  have held : 0 < (address :: references).count address := by simp
  obtain ⟨formed, lives⟩ := accounted.toWellFormed.setState address value fun _ => rfl
  refine ⟨⟨formed, ?_, ?_⟩, lives⟩
  case refine_2 =>
    refine accounted.deeper_congr lives (fun other => ?_) fun other => ?_ <;>
    · by_cases here : other = address
      · rw [here, StateManager.setState_self]
      · rw [StateManager.setState_of_ne here]
  refine (accounted.counted.dropRef held more).congr lives (fun other => ?_) (fun other _ => ?_)
    fun other => (drop_count references address other).symm
  · unfold StateManager.parentOf
    rw [if_congr (lives other) rfl rfl]
    by_cases here : other = address
    · rw [here, StateManager.setState_self]
    · rw [StateManager.setState_of_ne here]
  · by_cases here : other = address
    · rw [here, StateManager.setState_self, Function.update_self]
    · rw [StateManager.setState_of_ne here, Function.update_of_ne here]

/-- Taking back the last reference: the state goes to the free list, and its reference to its parent
is left. -/
theorem Accounted.recycle (accounted : Accounted manager (address :: references))
    (last : (manager.state address).ref - 1 = 0) :
    Accounted (manager.recycle address) ((manager.state address).parent.toList ++ references) ∧
      ∀ other, (manager.recycle address).Live other ↔ manager.Live other ∧ other ≠ address := by
  have alive : manager.Live address := accounted.live_of_mem List.mem_cons_self
  have held : 0 < (address :: references).count address := by simp
  have chain : Chain (fun other => ((manager.recycle address).state other).parent)
      (manager.recycle address).freeList (address :: manager.freeStates) := by
    refine ⟨rfl, ?_⟩
    change Chain _ ((manager.recycle address).state address).parent _
    rw [StateManager.recycle_self]
    refine accounted.chain.congr fun other member => ?_
    have apart : other ≠ address := fun same => alive.2 (same ▸ member)
    rw [StateManager.recycle_of_ne apart]
  have length : (address :: manager.freeStates).length = (manager.recycle address).freeNr := by
    rw [List.length_cons, accounted.length]
    rfl
  have free := StateManager.freeStates_eq chain length
  have lives : ∀ other, (manager.recycle address).Live other ↔
      manager.Live other ∧ other ≠ address := by
    intro other
    unfold StateManager.Live
    rw [free, List.mem_cons, not_or, @and_comm (¬ other = address), and_assoc]
    rfl
  refine ⟨⟨⟨by rw [free]; exact chain, by rw [free]; exact length,
    by rw [free]; exact List.nodup_cons.mpr ⟨alive.2, accounted.nodup⟩, ?_⟩, ?_, ?_⟩, lives⟩
  case refine_3 =>
    intro other parent isLive link
    obtain ⟨before, here⟩ := (lives other).mp isLive
    rw [StateManager.recycle_of_ne here] at link ⊢
    have notParent : parent ≠ address := by
      rintro rfl
      have positive := accounted.liveChildren_pos before link
      have exact_count := accounted.ref_eq alive
      omega
    rw [StateManager.recycle_of_ne notParent]
    exact accounted.deeper other parent before link
  · rw [free]
    intro other member
    rcases List.mem_cons.mp member with rfl | later
    · exact alive.1
    · exact accounted.constructed other later
  · refine (accounted.counted.dropLast held last lives).congr (fun _ => Iff.rfl)
      (fun other => ?_) (fun other isLive => ?_) fun other => ?_
    · unfold StateManager.parentOf
      rw [if_congr (lives other) rfl rfl]
      by_cases here : other = address
      · rw [here, Function.update_self, if_neg (fun both => both.2 rfl)]
      · rw [Function.update_of_ne here, if_congr (and_iff_left here) rfl rfl,
          StateManager.recycle_of_ne here]
    · have here := ((lives other).mp isLive).2
      rw [StateManager.recycle_of_ne here, Function.update_of_ne here]
    · rw [holdOption_apply, drop_count, StateManager.parentOf_of_live alive, List.count_append,
        Nat.add_comm]
      cases (manager.state address).parent with
      | none => simp
      | some parent => simp [List.count_singleton, beq_iff_eq]

/-- One round of `put`: the state either stays live, or goes to the free list and the loop goes on
with the reference to its parent. -/
theorem Accounted.putRound (accounted : Accounted manager (address :: references)) :
    Accounted (manager.putRound address).2 ((manager.putRound address).1.toList ++ references) ∧
      ∀ other, (manager.putRound address).2.Live other ↔
        manager.Live other ∧ (other = address → (manager.state address).ref ≠ 1) := by
  have alive : manager.Live address := accounted.live_of_mem List.mem_cons_self
  have counter : (manager.state address).ref ≠ 0 := by
    have positive := accounted.counted.positive address alive
    have exact_count := accounted.counted.exact_count address alive
    omega
  have decremented : decrement (manager.state address).ref = (manager.state address).ref - 1 :=
    if_neg counter
  unfold StateManager.putRound
  dsimp only
  rw [decremented]
  split
  · rename_i more
    obtain ⟨after, lives⟩ := accounted.release more
    refine ⟨after, fun other => (lives other).trans (and_iff_left fun _ => ?_).symm⟩
    omega
  · rename_i last
    rw [not_not] at last
    obtain ⟨after, lives⟩ := accounted.recycle last
    have single : (manager.state address).ref = 1 := by omega
    refine ⟨after, fun other => (lives other).trans ?_⟩
    rw [single]
    simp

end FsChecking.Tester
