import Mathlib.Data.List.Basic
import Mathlib.Logic.Function.Basic

/-!
# Visited marks

A traversal keeps a map of marks and marks every key that it visits. `Marked` says that the marks
have grown by exactly a list of keys, none of which was marked before and none of which was visited
twice.
-/

namespace FsChecking.Lib

variable {κ : Type}

/-- The marks grow by exactly the listed keys, each of which is new and listed once. -/
structure Marked (before after : κ → Bool) (keys : List κ) : Prop where
  /-- What is marked afterwards. -/
  marks : ∀ key, after key = true ↔ before key = true ∨ key ∈ keys
  /-- The keys were not marked before. -/
  fresh : ∀ key ∈ keys, before key = false
  /-- No key is visited twice. -/
  nodup : keys.Nodup

namespace Marked

variable {before middle after : κ → Bool} {first second : List κ}

/-- Nothing is visited. -/
theorem refl (before : κ → Bool) : Marked before before [] where
  marks key := by simp
  fresh key member := by simp at member
  nodup := List.nodup_nil

/-- One key is visited. -/
theorem single [DecidableEq κ] {key : κ} (fresh : before key = false) :
    Marked before (Function.update before key true) [key] where
  marks other := by
    rw [List.mem_singleton]
    by_cases same : other = key
    · subst same
      simp
    · simp [same]
  fresh other member := by
    rw [List.mem_singleton] at member
    rw [member, fresh]
  nodup := by simp

/-- A key that is marked afterwards was marked before or visited. -/
theorem of_mem (marked : Marked before after first) {key : κ} (member : key ∈ first) :
    after key = true := (marked.marks key).mpr (Or.inr member)

/-- One traversal after another. -/
theorem append (left : Marked before middle first) (right : Marked middle after second) :
    Marked before after (first ++ second) where
  marks key := by rw [right.marks, left.marks, List.mem_append, or_assoc]
  fresh key member := by
    rw [List.mem_append] at member
    cases member with
    | inl here => exact left.fresh key here
    | inr here =>
      cases was : before key with
      | false => rfl
      | true =>
        have still := (left.marks key).mpr (Or.inl was)
        rw [right.fresh key here] at still
        cases still
  nodup := by
    rw [List.nodup_append]
    refine ⟨left.nodup, right.nodup, ?_⟩
    intro key visited other again same
    subst same
    have marked := left.of_mem visited
    rw [right.fresh key again] at marked
    cases marked

end Marked

end FsChecking.Lib
