import Mathlib.Data.List.Range
import Mathlib.Logic.Function.Basic

/-!
# Stacks of spare objects

A pool of objects of which the unused ones are kept in the upper part of an array. An object is
taken from the index that separates the parts and given back below it, so the objects in use and
the stored ones always make up the pool.
-/

namespace FsChecking.Lib

variable {ι : Type}

/-- A stack of the unused objects of a pool. -/
structure FreeStack (ι : Type) where
  /-- The array; the unused objects are those from `head` on. -/
  slots : Nat → ι
  /-- The number of objects in use. -/
  head : Nat

namespace FreeStack

/-- Take an object. -/
def take (stack : FreeStack ι) : ι × FreeStack ι :=
  (stack.slots stack.head, { stack with head := stack.head + 1 })

/-- Give an object back. -/
def give (stack : FreeStack ι) (item : ι) : FreeStack ι :=
  { slots := Function.update stack.slots (stack.head - 1) item, head := stack.head - 1 }

/-- The unused objects of a pool of the given size. -/
def unused (stack : FreeStack ι) (size : Nat) : List ι :=
  (List.range' stack.head (size - stack.head)).map stack.slots

/-- The objects of the pool are those in use and those on the stack. -/
structure Holds (stack : FreeStack ι) (pool used : List ι) : Prop where
  /-- The parts. -/
  shares : (used ++ stack.unused pool.length).Perm pool
  /-- The separating index. -/
  head : stack.head = used.length

variable {stack : FreeStack ι} {pool used used' : List ι} {item : ι}

/-- The order of the objects in use does not matter. -/
theorem Holds.perm (holds : stack.Holds pool used) (same : used.Perm used') :
    stack.Holds pool used' where
  shares := (same.symm.append_right _).trans holds.shares
  head := holds.head.trans same.length_eq

/-- A stack that stores the whole pool in order. -/
theorem holds_nil (pool : List ι) (slots : Nat → ι)
    (stored : (List.range pool.length).map slots = pool) :
    (FreeStack.mk slots 0).Holds pool [] where
  shares := by
    rw [List.nil_append, unused, Nat.sub_zero, ← List.range_eq_range', stored]
  head := rfl

/-- Taking from a stack that is not exhausted puts one more object to use. -/
theorem Holds.take (holds : stack.Holds pool used) (available : used.length < pool.length) :
    stack.take.2.Holds pool (stack.take.1 :: used) where
  shares := by
    have split : pool.length - stack.head = (pool.length - (stack.head + 1)) + 1 := by
      rw [holds.head]
      omega
    have shares := holds.shares
    rw [unused, split, List.range'_succ, List.map_cons] at shares
    exact List.perm_middle.symm.trans shares
  head := by
    show stack.head + 1 = used.length + 1
    rw [holds.head]

/-- An object that is taken was not in use. -/
theorem Holds.take_notMem (holds : stack.Holds pool used) (distinct : pool.Nodup)
    (available : used.length < pool.length) : stack.take.1 ∉ used := by
  have nodup := (holds.take available).shares.nodup_iff.mpr distinct
  rw [List.cons_append, List.nodup_cons, List.mem_append] at nodup
  exact fun taken => nodup.1 (.inl taken)

/-- Giving back an object that is in use. -/
theorem Holds.give (holds : stack.Holds pool (item :: used)) :
    (stack.give item).Holds pool used where
  shares := by
    have head : stack.head = used.length + 1 := holds.head
    have total : (item :: used).length ≤ pool.length := by
      rw [← holds.shares.length_eq, List.length_append]
      exact Nat.le_add_right _ _
    rw [List.length_cons] at total
    have split : pool.length - (stack.head - 1) = (pool.length - stack.head) + 1 := by omega
    have step : stack.head - 1 + 1 = stack.head := by omega
    have kept : (List.range' stack.head (pool.length - stack.head)).map
        (Function.update stack.slots (stack.head - 1) item) = stack.unused pool.length := by
      apply List.map_congr_left
      intro index inside
      have above := (List.mem_range'_1.mp inside).1
      exact Function.update_of_ne (by omega) _ _
    have stored : (stack.give item).unused pool.length = item :: stack.unused pool.length := by
      show (List.range' (stack.head - 1) (pool.length - (stack.head - 1))).map
        (Function.update stack.slots (stack.head - 1) item) = _
      rw [split, List.range'_succ, List.map_cons, Function.update_self, step, kept]
    rw [stored]
    exact List.perm_middle.trans holds.shares
  head := by
    show stack.head - 1 = used.length
    rw [holds.head, List.length_cons, Nat.add_sub_cancel]

end FreeStack

end FsChecking.Lib
