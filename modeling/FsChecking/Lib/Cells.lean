import Mathlib.Data.List.Perm.Basic
import Mathlib.Logic.Function.Basic

/-!
# Cells of a memory

The first places of a memory, exchanges of two places, and what a number of exchanges between two
bounds can do.
-/

namespace FsChecking.Lib

variable {κ : Type}

/-! ## Cells -/

/-- The elements in the first places of a memory. -/
def cells (heap : Nat → κ) (len : Nat) : List κ := (List.range len).map heap

/-- One more place. -/
theorem cells_succ (heap : Nat → κ) (len : Nat) :
    cells heap (len + 1) = cells heap len ++ [heap len] := by
  rw [cells, cells, List.range_succ, List.map_append, List.map_singleton]

/-- The number of elements. -/
@[simp] theorem length_cells (heap : Nat → κ) (len : Nat) : (cells heap len).length = len := by
  rw [cells, List.length_map, List.length_range]

/-- The elements are in their places. -/
theorem mem_cells {heap : Nat → κ} {len : Nat} {element : κ} :
    element ∈ cells heap len ↔ ∃ place < len, heap place = element := by
  simp [cells]

/-- The element at a place. -/
theorem getElem?_cells (heap : Nat → κ) {len place : Nat} (inside : place < len) :
    (cells heap len)[place]? = some (heap place) := by
  rw [cells, List.getElem?_map, List.getElem?_range inside]
  rfl

/-- A prefix and what follows it. -/
theorem cells_add (heap : Nat → κ) (len more : Nat) :
    cells heap (len + more) = cells heap len ++ cells (fun place => heap (len + place)) more := by
  rw [cells, cells, cells, List.range_add, List.map_append, List.map_map]
  rfl

/-- Only the first places matter. -/
theorem cells_congr {heap heap' : Nat → κ} {len : Nat}
    (same : ∀ place < len, heap place = heap' place) : cells heap len = cells heap' len := by
  apply List.map_congr_left
  exact fun place member => same place (List.mem_range.mp member)

/-- What is stored behind the prefix is not in it. -/
theorem cells_update_of_le {heap : Nat → κ} {len place : Nat} (behind : len ≤ place) (element : κ) :
    cells (Function.update heap place element) len = cells heap len := by
  apply cells_congr
  intro other inside
  exact Function.update_of_ne (Nat.ne_of_lt (Nat.lt_of_lt_of_le inside behind)) ..

/-- Exchange two places. -/
def exchange (heap : Nat → κ) (first second : Nat) : Nat → κ :=
  Function.update (Function.update heap first (heap second)) second (heap first)

/-- The second place gets the first element. -/
@[simp] theorem exchange_second (heap : Nat → κ) (first second : Nat) :
    exchange heap first second second = heap first := Function.update_self ..

/-- The first place gets the second element. -/
@[simp] theorem exchange_first (heap : Nat → κ) (first second : Nat) :
    exchange heap first second first = heap second := by
  unfold exchange
  by_cases same : first = second
  · rw [same, Function.update_self]
  · rw [Function.update_of_ne same, Function.update_self]

/-- The other places keep their elements. -/
theorem exchange_of_ne {heap : Nat → κ} {first second place : Nat} (notFirst : place ≠ first)
    (notSecond : place ≠ second) : exchange heap first second place = heap place := by
  unfold exchange
  rw [Function.update_of_ne notSecond, Function.update_of_ne notFirst]

/-- An exchange is symmetric. -/
theorem exchange_comm (heap : Nat → κ) (first second : Nat) :
    exchange heap first second = exchange heap second first := by
  by_cases same : first = second
  · rw [same]
  · exact Function.update_comm same ..

/-- Moving an element into a hole and the hole to where it was. -/
theorem exchange_update {heap : Nat → κ} {hole other : Nat} (apart : other ≠ hole) (element : κ) :
    exchange (Function.update heap hole element) hole other =
      Function.update (Function.update heap hole (heap other)) other element := by
  unfold exchange
  rw [Function.update_self, Function.update_of_ne apart, Function.update_idem]

/-- Replacing an element in a prefix. -/
theorem cells_update_perm (heap : Nat → κ) {len place : Nat} (inside : place < len) (element : κ) :
    (heap place :: cells (Function.update heap place element) len).Perm
      (element :: cells heap len) := by
  induction len with
  | zero => exact absurd inside (Nat.not_lt_zero place)
  | succ len ih =>
    rw [cells_succ, cells_succ]
    by_cases last : place = len
    · subst last
      rw [cells_update_of_le (Nat.le_refl place), Function.update_self]
      have left := List.perm_append_singleton element (cells heap place)
      have right := List.perm_append_singleton (heap place) (cells heap place)
      exact (left.cons (heap place)).trans ((List.Perm.swap ..).trans (right.symm.cons element))
    · have earlier : place < len := Nat.lt_of_le_of_ne (Nat.le_of_lt_succ inside) last
      rw [Function.update_of_ne (Ne.symm last)]
      exact (ih earlier).append_right [heap len]

/-- An exchange inside a prefix permutes it. -/
theorem cells_exchange_perm {heap : Nat → κ} {len first second : Nat} (left : first < len)
    (right : second < len) : (cells (exchange heap first second) len).Perm (cells heap len) := by
  have one := cells_update_perm heap left (heap second)
  have two := cells_update_perm (Function.update heap first (heap second)) right (heap first)
  have here : Function.update heap first (heap second) second = heap second := by
    by_cases same : second = first
    · rw [same, Function.update_self]
    · rw [Function.update_of_ne same]
  rw [here] at two
  exact (two.trans one).cons_inv

/-! ## Rearranging -/

/-- A memory with places between two bounds exchanged, any number of times. -/
inductive Rearranged (left right : Nat) (buf : Nat → κ) : (Nat → κ) → Prop
  /-- Nothing is exchanged. -/
  | refl : Rearranged left right buf buf
  /-- Two more places are exchanged. -/
  | exchange {buf' : Nat → κ} {first second : Nat} (before : Rearranged left right buf buf')
      (inside : left ≤ first ∧ first ≤ right) (inside' : left ≤ second ∧ second ≤ right) :
      Rearranged left right buf (exchange buf' first second)

namespace Rearranged

variable {left right : Nat} {buf buf' buf'' : Nat → κ}

/-- One rearrangement after another. -/
theorem trans (before : Rearranged left right buf buf') (after : Rearranged left right buf' buf'') :
    Rearranged left right buf buf'' := by
  induction after with
  | refl => exact before
  | exchange _ inside inside' ih => exact ih.exchange inside inside'

/-- Wider bounds. -/
theorem widen {left' right' : Nat} (rearranged : Rearranged left right buf buf') (low : left' ≤ left)
    (high : right ≤ right') : Rearranged left' right' buf buf' := by
  induction rearranged with
  | refl => exact .refl
  | exchange _ inside inside' ih =>
    exact ih.exchange ⟨Nat.le_trans low inside.1, Nat.le_trans inside.2 high⟩
      ⟨Nat.le_trans low inside'.1, Nat.le_trans inside'.2 high⟩

/-- Places outside of the bounds keep their elements. -/
theorem outside (rearranged : Rearranged left right buf buf') {place : Nat}
    (apart : place < left ∨ right < place) : buf' place = buf place := by
  induction rearranged with
  | refl => rfl
  | exchange _ inside inside' ih =>
    rw [exchange_of_ne (by omega) (by omega), ih]

/-- What holds of all elements between the bounds still does. -/
theorem all (rearranged : Rearranged left right buf buf') (holds : κ → Prop)
    (before : ∀ place, left ≤ place → place ≤ right → holds (buf place)) :
    ∀ place, left ≤ place → place ≤ right → holds (buf' place) := by
  induction rearranged with
  | refl => exact before
  | @exchange _ first second _ inside inside' ih =>
    intro place low high
    by_cases same : place = first
    · rw [same, exchange_first]
      exact ih second inside'.1 inside'.2
    · by_cases same' : place = second
      · rw [same', exchange_second]
        exact ih first inside.1 inside.2
      · rw [exchange_of_ne same same']
        exact ih place low high

/-- The elements are the same. -/
theorem perm (rearranged : Rearranged left right buf buf') {len : Nat} (below : right < len) :
    (cells buf' len).Perm (cells buf len) := by
  induction rearranged with
  | refl => exact List.Perm.refl _
  | exchange _ inside inside' ih =>
    exact (cells_exchange_perm (Nat.lt_of_le_of_lt inside.2 below)
      (Nat.lt_of_le_of_lt inside'.2 below)).trans ih

end Rearranged

/-- Optional places that hold the elements of a list. -/
theorem cells_eq_map_some {heap : Nat → Option κ} {elements : List κ}
    (same : ∀ place < elements.length, heap place = elements[place]?) :
    cells heap elements.length = elements.map some := by
  apply List.ext_getElem?
  intro place
  by_cases inside : place < elements.length
  · rw [getElem?_cells heap inside, List.getElem?_map, same place inside,
      List.getElem?_eq_getElem inside]
    rfl
  · have outside := Nat.le_of_not_lt inside
    rw [List.getElem?_eq_none, List.getElem?_eq_none]
    · rwa [List.length_map]
    · rwa [length_cells]

/-- A list of optional elements that are those of another list. -/
theorem map_some_of_perm {stored : List (Option κ)} {elements : List κ}
    (perm : stored.Perm (elements.map some)) :
    ∃ segs : List κ, stored = segs.map some ∧ segs.Perm elements := by
  have all : ∀ entry ∈ stored, entry.isSome := by
    intro entry member
    obtain ⟨element, _, rfl⟩ := List.mem_map.mp (perm.mem_iff.mp member)
    rfl
  refine ⟨stored.filterMap id, ?_, ?_⟩
  · clear perm
    induction stored with
    | nil => rfl
    | cons entry stored ih =>
      obtain ⟨element, rfl⟩ := Option.isSome_iff_exists.mp (all entry List.mem_cons_self)
      exact congrArg (some element :: ·) (ih fun entry member => all entry (List.mem_cons_of_mem _ member))
  · have same := perm.filterMap id
    rwa [List.filterMap_map, Function.id_comp, List.filterMap_some] at same

end FsChecking.Lib
