import Mathlib.Data.Nat.ModEq
import Mathlib.Logic.Function.Basic

/-!
# Circular queues

A queue in an array of fixed capacity, with the index of the first item, the index of the last item
and the number of items. An item is taken only when another one stays behind, since equal ends are
read as an exhausted queue, and the slot behind the last item is refused when it is the first one.
-/

namespace FsChecking.Lib

variable {ι : Type}

/-- A circular queue of the given capacity. -/
structure CircularQueue (ι : Type) where
  /-- The number of slots. -/
  capacity : Nat
  /-- The slots. -/
  slots : Nat → ι
  /-- The index of the first item. -/
  head : Nat
  /-- The index of the last item. -/
  tail : Nat
  /-- The number of items. -/
  count : Nat

namespace CircularQueue

/-- The slot behind an index. -/
def next (queue : CircularQueue ι) (index : Nat) : Nat :=
  if index + 1 ≥ queue.capacity then 0 else index + 1

/-- Take the first item. -/
def pop (queue : CircularQueue ι) : Option (ι × CircularQueue ι) :=
  if queue.head = queue.tail ∨ queue.count = 0 then none
  else some (queue.slots queue.head,
    { queue with head := queue.next queue.head, count := queue.count - 1 })

/-- Append an item. -/
def push (queue : CircularQueue ι) (item : ι) : Option (CircularQueue ι) :=
  if queue.next queue.tail = queue.head then none
  else some
    { queue with
      tail := queue.next queue.tail
      slots := Function.update queue.slots (queue.next queue.tail) item
      count := queue.count + 1 }

/-- The items of a queue. -/
def items (queue : CircularQueue ι) : List ι :=
  (List.range queue.count).map fun index => queue.slots ((queue.head + index) % queue.capacity)

/-- The queue holds exactly the listed items, first to last. -/
structure Holds (queue : CircularQueue ι) (items : List ι) : Prop where
  /-- The first index is a slot, if there are any. -/
  head_lt : 0 < queue.capacity → queue.head < queue.capacity
  /-- The last index is a slot, if there are any. -/
  tail_lt : 0 < queue.capacity → queue.tail < queue.capacity
  /-- The queue fits. -/
  fits : items.length ≤ queue.capacity
  /-- The counter. -/
  count : queue.count = items.length
  /-- The last item is one less than the length behind the first. -/
  ends : queue.next queue.tail = (queue.head + items.length) % queue.capacity
  /-- The items. -/
  items : ∀ index (inside : index < items.length),
    queue.slots ((queue.head + index) % queue.capacity) = items.get ⟨index, inside⟩

variable {queue queue' : CircularQueue ι} {items : List ι} {item : ι}

/-- The slot behind a slot is one further, around the end. -/
theorem next_eq_mod {index : Nat} (inside : index < queue.capacity) :
    queue.next index = (index + 1) % queue.capacity := by
  unfold next
  split
  · have last : index + 1 = queue.capacity := by omega
    rw [last, Nat.mod_self]
  · exact (Nat.mod_eq_of_lt (by omega)).symm

/-- The slot behind a slot is a slot. -/
theorem next_lt {index : Nat} (inside : index < queue.capacity) :
    queue.next index < queue.capacity := by
  unfold next
  split <;> omega

/-- Where the slots a given distance behind the first item coincide. -/
theorem behind_inj {left right : Nat}
    (same : (queue.head + left) % queue.capacity = (queue.head + right) % queue.capacity)
    (leftInside : left < queue.capacity) (rightInside : right < queue.capacity) : left = right := by
  have distances := Nat.ModEq.add_left_cancel' queue.head
    (show queue.head + left ≡ queue.head + right [MOD queue.capacity] from same)
  rwa [Nat.ModEq, Nat.mod_eq_of_lt leftInside, Nat.mod_eq_of_lt rightInside] at distances

/-- Taking an item takes the first one. -/
theorem Holds.pop (holds : queue.Holds items) (taken : queue.pop = some (item, queue')) :
    ∃ rest, items = item :: rest ∧ queue'.Holds rest ∧ queue'.capacity = queue.capacity := by
  unfold CircularQueue.pop at taken
  split at taken
  · cases taken
  rename_i open_ends
  obtain ⟨rfl, rfl⟩ := Prod.mk.inj (Option.some.inj taken)
  cases items with
  | nil => exact absurd (Or.inr holds.count) open_ends
  | cons first rest =>
    have fits : rest.length + 1 ≤ queue.capacity := holds.fits
    have head_lt := holds.head_lt (by omega)
    have start := holds.items 0 (by simp)
    rw [Nat.add_zero, Nat.mod_eq_of_lt head_lt] at start
    refine ⟨rest, by rw [start]; rfl, ?_, rfl⟩
    have moved : ∀ offset, (queue.next queue.head + offset) % queue.capacity =
        (queue.head + (offset + 1)) % queue.capacity := by
      intro offset
      rw [next_eq_mod head_lt, Nat.mod_add_mod]
      congr 1
      omega
    exact
      { head_lt := fun _ => next_lt head_lt
        tail_lt := holds.tail_lt
        fits := by
          show rest.length ≤ queue.capacity
          omega
        count := by
          show queue.count - 1 = rest.length
          rw [holds.count, List.length_cons, Nat.add_sub_cancel]
        ends := by
          show queue.next queue.tail = (queue.next queue.head + rest.length) % queue.capacity
          rw [moved, holds.ends, List.length_cons]
        items := by
          intro index inside
          show queue.slots ((queue.next queue.head + index) % queue.capacity) = _
          rw [moved]
          exact holds.items (index + 1) (Nat.succ_lt_succ inside) }

/-- Appending an item appends it at the end. -/
theorem Holds.push (holds : queue.Holds items) (added : queue.push item = some queue') :
    queue'.Holds (items ++ [item]) ∧ queue'.capacity = queue.capacity := by
  unfold CircularQueue.push at added
  split at added
  · cases added
  rename_i space
  obtain rfl := Option.some.inj added
  have room : items.length < queue.capacity := by
    refine Nat.lt_of_le_of_ne holds.fits ?_
    intro full
    apply space
    rw [holds.ends, full, Nat.add_mod_right]
    cases Nat.eq_zero_or_pos queue.capacity with
    | inl none => rw [none, Nat.mod_zero]
    | inr some => exact Nat.mod_eq_of_lt (holds.head_lt some)
  have tail_lt := holds.tail_lt (by omega)
  refine ⟨?_, rfl⟩
  exact
    { head_lt := holds.head_lt
      tail_lt := fun _ => next_lt tail_lt
      fits := by
        show (items ++ [item]).length ≤ queue.capacity
        rw [List.length_append]
        exact room
      count := by
        show queue.count + 1 = (items ++ [item]).length
        rw [holds.count, List.length_append]
        rfl
      ends := by
        show queue.next (queue.next queue.tail) =
          (queue.head + (items ++ [item]).length) % queue.capacity
        rw [next_eq_mod (next_lt tail_lt), holds.ends, Nat.mod_add_mod, List.length_append]
        rfl
      items := by
        intro index inside
        show Function.update queue.slots (queue.next queue.tail) item
          ((queue.head + index) % queue.capacity) = _
        rw [List.length_append, List.length_singleton] at inside
        by_cases last : index = items.length
        · subst last
          rw [← holds.ends, Function.update_self]
          simp
        · have before : index < items.length := by omega
          have apart : (queue.head + index) % queue.capacity ≠ queue.next queue.tail := by
            rw [holds.ends]
            intro same
            exact last (behind_inj same (by omega) room)
          rw [Function.update_of_ne apart, holds.items index before]
          simp [List.getElem_append_left before] }

/-- A queue gives an item exactly when it holds at least two. -/
theorem Holds.pop_eq_none (holds : queue.Holds items) :
    queue.pop = none ↔ items.length ≤ 1 := by
  have exhausted : queue.pop = none ↔ queue.head = queue.tail ∨ queue.count = 0 := by
    unfold CircularQueue.pop
    split <;> simp_all
  have fits := holds.fits
  rw [exhausted, holds.count]
  cases Nat.eq_zero_or_pos queue.capacity with
  | inl empty => omega
  | inr positive =>
    have head_lt := holds.head_lt positive
    have tail_lt := holds.tail_lt positive
    have ends := holds.ends
    rw [next_eq_mod tail_lt] at ends
    constructor
    · intro closed
      cases closed with
      | inr empty => omega
      | inl met =>
        rw [← met] at ends
        by_contra longer
        -- the slot behind the first item is the first item's own only in a full circle
        by_cases full : items.length = queue.capacity
        · rw [full, Nat.add_mod_right, ← Nat.add_zero queue.head, Nat.add_assoc] at ends
          have := behind_inj ends (by omega) (by omega)
          omega
        · have := behind_inj ends (by omega) (by omega)
          omega
    · intro short
      by_cases empty : items.length = 0
      · exact .inr empty
      · have single : items.length = 1 := by omega
        rw [single, Nat.add_comm queue.tail, Nat.add_comm queue.head] at ends
        have distances := Nat.ModEq.add_left_cancel' 1
          (show 1 + queue.tail ≡ 1 + queue.head [MOD queue.capacity] from ends)
        rw [Nat.ModEq, Nat.mod_eq_of_lt tail_lt, Nat.mod_eq_of_lt head_lt] at distances
        exact .inl distances.symm

/-- A queue with an item and a slot to spare takes another item. -/
theorem Holds.push_ne_none (holds : queue.Holds items) (occupied : 0 < items.length)
    (room : items.length < queue.capacity) : queue.push item ≠ none := by
  unfold CircularQueue.push
  split
  · rename_i met
    rw [holds.ends] at met
    have head_lt := holds.head_lt (by omega)
    have ends : (queue.head + items.length) % queue.capacity =
        (queue.head + 0) % queue.capacity := by
      rw [met, Nat.add_zero, Nat.mod_eq_of_lt head_lt]
    have distances := behind_inj ends room (by omega)
    omega
  · exact Option.some_ne_none _

/-- The items that a queue holds. -/
theorem Holds.items_eq (holds : queue.Holds items) : queue.items = items := by
  unfold CircularQueue.items
  apply List.ext_getElem
  · rw [List.length_map, List.length_range, holds.count]
  · intro index left right
    rw [List.getElem_map, List.getElem_range]
    exact holds.items index right

/-- A queue that is full from the first slot on. -/
theorem holds_range {queue : CircularQueue Nat} (head : queue.head = 0)
    (tail : queue.tail = queue.capacity - 1) (count : queue.count = queue.capacity)
    (slots : ∀ index < queue.capacity, queue.slots index = index) :
    queue.Holds (List.range queue.capacity) where
  head_lt positive := by rw [head]; exact positive
  tail_lt positive := by omega
  fits := (List.length_range (n := queue.capacity)).le
  count := by rw [List.length_range, count]
  ends := by
    unfold next
    rw [if_pos (by omega), head, List.length_range, Nat.zero_add, Nat.mod_self]
  items index inside := by
    rw [List.length_range] at inside
    rw [head, Nat.zero_add, Nat.mod_eq_of_lt inside, slots index inside]
    simp

end CircularQueue

end FsChecking.Lib
