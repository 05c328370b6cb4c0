import Mathlib.Data.List.Nodup
import Mathlib.Data.List.Range
import Mathlib.Logic.Function.Basic

/-!
# Tables

A table is a function of its index. Lemmas about loops that change entries of a table one by one,
and about replaying a journal of entries over a table.
-/

namespace FsChecking.Lib

variable {κ ι : Type} [DecidableEq κ]

/-- A loop that changes every listed entry once. -/
theorem foldl_update {keys : List κ} (nodup : keys.Nodup) (change : κ → ι → ι) (table : κ → ι) :
    keys.foldl (fun table key => Function.update table key (change key (table key))) table =
      fun key => if key ∈ keys then change key (table key) else table key := by
  induction keys generalizing table with
  | nil => simp
  | cons head rest ih =>
    obtain ⟨fresh, nodup⟩ := List.nodup_cons.mp nodup
    rw [List.foldl_cons, ih nodup]
    funext key
    by_cases here : key = head
    · subst here
      simp [fresh]
    · simp [here]

/-- Store the entries of a journal, oldest first. -/
def replay (journal : List (κ × ι)) (table : κ → ι) : κ → ι :=
  journal.foldl (fun table entry => Function.update table entry.1 entry.2) table

/-- Replaying one more entry. -/
theorem replay_append_singleton (journal : List (κ × ι)) (entry : κ × ι) (table : κ → ι) :
    replay (journal ++ [entry]) table =
      Function.update (replay journal table) entry.1 entry.2 := by
  rw [replay, List.foldl_append]
  rfl

/-- Replaying depends on the table only at the key. -/
theorem replay_congr {table table' : κ → ι} {key : κ} (same : table key = table' key)
    (journal : List (κ × ι)) : replay journal table key = replay journal table' key := by
  induction journal generalizing table table' with
  | nil => exact same
  | cons entry rest ih =>
    apply ih
    show Function.update table entry.1 entry.2 key = Function.update table' entry.1 entry.2 key
    by_cases here : key = entry.1
    · rw [here, Function.update_self, Function.update_self]
    · rw [Function.update_of_ne here, Function.update_of_ne here, same]

/-- How changing one entry changes the number of entries with a property. -/
theorem countP_range_update (satisfied : ι → Bool) (table : Nat → ι) {index size : Nat}
    (inside : index < size) (value : ι) :
    (List.range size).countP (fun key => satisfied (Function.update table index value key)) +
        (satisfied (table index)).toNat =
      (List.range size).countP (fun key => satisfied (table key)) + (satisfied value).toNat := by
  have untouched : ∀ bound, bound ≤ index →
      (List.range bound).countP (fun key => satisfied (Function.update table index value key)) =
        (List.range bound).countP (fun key => satisfied (table key)) := by
    intro bound below
    apply List.countP_congr
    intro key member
    have other : key ≠ index := by
      have := List.mem_range.mp member
      omega
    rw [Function.update_of_ne other]
  induction size with
  | zero => omega
  | succ size ih =>
    simp only [List.range_succ, List.countP_append, List.countP_singleton]
    by_cases last : index = size
    · subst last
      rw [untouched index le_rfl, Function.update_self]
      cases satisfied (table index) <;> cases satisfied value <;> simp
    · have before := ih (by omega)
      rw [Function.update_of_ne (fun same => last same.symm)]
      omega

/-- How changing one entry changes the values that are collected from a table. -/
theorem filterMap_range_update {α : Type} [DecidableEq α] (collect : ι → Option α)
    (table : Nat → ι) {index size : Nat} (inside : index < size) (value : ι) :
    ((List.range size).filterMap (fun key => collect (Function.update table index value key)) ++
        (collect (table index)).toList).Perm
      ((List.range size).filterMap (fun key => collect (table key)) ++
        (collect value).toList) := by
  have single : ∀ (found : Option α) (item : α),
      found.toList.count item = (found == some item).toNat := by
    intro found item
    cases found with
    | none => rfl
    | some other =>
      by_cases same : other = item
      · simp [same]
      · simp [same, beq_eq_false_iff_ne.mpr same]
  refine List.perm_iff_count.mpr fun item => ?_
  have change := countP_range_update (fun entry => collect entry == some item) table inside value
  rw [List.count_append, List.count_append, List.count_filterMap, List.count_filterMap, single,
    single]
  exact change

end FsChecking.Lib
