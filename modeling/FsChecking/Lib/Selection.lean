import FsChecking.Lib.Heap
import Mathlib.Data.List.Perm.Lattice

/-!
# Selecting the elements with the least keys

A bounded heap with the largest key at its root keeps the elements with the least keys that were
pushed into it. Taking the root out of a heap again and again yields its elements in order.
-/

namespace FsChecking.Lib

variable {κ : Type}

/-- What a bounded container holds after elements were pushed: as many as fit, and none that was
left out has a smaller key than one of them. -/
structure Keeps (key : κ → Nat) (pushed : List κ) (limit : Nat) (kept : List κ) : Prop where
  /-- The others were left out, and have keys that are not smaller. -/
  split : ∃ left, (kept ++ left).Perm pushed ∧
    ∀ element ∈ kept, ∀ other ∈ left, key element ≤ key other
  /-- All are kept, or as many as fit. -/
  length : kept.length = min pushed.length limit

/-- The elements a container keeps, in the order of their keys. -/
structure Selects (key : κ → Nat) (pushed : List κ) (limit : Nat) (victims : List κ) : Prop
    extends Keeps key pushed limit victims where
  /-- The keys do not decrease. -/
  sorted : victims.Pairwise fun first second => key first ≤ key second

/-- An element with a larger key is higher. -/
abbrev Larger (key : κ → Nat) (first second : κ) : Prop := key second < key first

/-- An element with a smaller key is higher. -/
abbrev Smaller (key : κ → Nat) (first second : κ) : Prop := key first < key second

/-- Larger keys rank. -/
theorem larger_ranking (key : κ → Nat) : Ranking (Larger key) := by
  constructor
  · exact fun first second higher => Nat.not_lt_of_gt higher
  · intro low middle high first second
    exact Nat.not_lt_of_le (Nat.le_trans (Nat.le_of_not_lt first) (Nat.le_of_not_lt second))

/-- Smaller keys rank. -/
theorem smaller_ranking (key : κ → Nat) : Ranking (Smaller key) := by
  constructor
  · exact fun first second higher => Nat.not_lt_of_gt higher
  · intro low middle high first second
    exact Nat.not_lt_of_le (Nat.le_trans (Nat.le_of_not_lt second) (Nat.le_of_not_lt first))

section Keeps

variable {key : κ → Nat} {pushed kept : List κ} {limit : Nat} {element : κ}

/-- Nothing was pushed. -/
theorem Keeps.nil (key : κ → Nat) (limit : Nat) : Keeps key [] limit [] :=
  ⟨⟨[], List.Perm.refl _, fun _ member => absurd member List.not_mem_nil⟩, (Nat.zero_min limit).symm⟩

/-- The order of what is kept does not matter. -/
theorem Keeps.perm {kept' : List κ} (keeps : Keeps key pushed limit kept)
    (same : kept'.Perm kept) : Keeps key pushed limit kept' := by
  obtain ⟨left, perm, least⟩ := keeps.split
  refine ⟨⟨left, (same.append_right left).trans perm, ?_⟩, same.length_eq.trans keeps.length⟩
  exact fun element member => least element (same.mem_iff.mp member)

/-- There is room for another element. -/
theorem Keeps.add (keeps : Keeps key pushed limit kept) (room : kept.length < limit) :
    Keeps key (pushed ++ [element]) limit (element :: kept) := by
  obtain ⟨left, perm, least⟩ := keeps.split
  have total := perm.length_eq
  rw [List.length_append] at total
  have count := keeps.length
  obtain rfl : left = [] := List.eq_nil_of_length_eq_zero (by omega)
  refine ⟨⟨[], ?_, fun _ _ _ member => absurd member List.not_mem_nil⟩, ?_⟩
  · rw [List.append_nil] at perm ⊢
    exact (perm.cons element).trans (List.perm_append_singleton element pushed).symm
  · rw [List.length_append, List.length_cons, List.length_singleton]
    omega

/-- An element that is not smaller than any that is kept is left out. -/
theorem Keeps.skip (keeps : Keeps key pushed limit kept) (full : kept.length = limit)
    (large : ∀ other ∈ kept, key other ≤ key element) :
    Keeps key (pushed ++ [element]) limit kept := by
  obtain ⟨left, perm, least⟩ := keeps.split
  refine ⟨⟨left ++ [element], ?_, ?_⟩, ?_⟩
  · rw [← List.append_assoc]
    exact perm.append_right [element]
  · intro other member out outside
    obtain outside | last := List.mem_append.mp outside
    · exact least other member out outside
    · rw [List.mem_singleton.mp last]
      exact large other member
  · rw [List.length_append, List.length_singleton]
    have count := keeps.length
    omega

/-- An element that is smaller than the largest one takes its place. -/
theorem Keeps.replace {largest : κ} {rest : List κ} (keeps : Keeps key pushed limit kept)
    (full : kept.length = limit) (same : kept.Perm (largest :: rest))
    (large : ∀ other ∈ kept, key other ≤ key largest) (small : key element < key largest) :
    Keeps key (pushed ++ [element]) limit (element :: rest) := by
  obtain ⟨left, perm, least⟩ := (keeps.perm same.symm).split
  have member : ∀ other ∈ rest, other ∈ kept :=
    fun other inside => same.mem_iff.mpr (List.mem_cons_of_mem largest inside)
  refine ⟨⟨largest :: left, ?_, ?_⟩, ?_⟩
  · have moved : (rest ++ largest :: left).Perm pushed := List.perm_middle.trans perm
    exact (moved.cons element).trans (List.perm_append_singleton element pushed).symm
  · intro other inside out outside
    have below : key other ≤ key largest := by
      obtain rfl | inside := List.mem_cons.mp inside
      · exact Nat.le_of_lt small
      · exact large other (member other inside)
    obtain rfl | outside := List.mem_cons.mp outside
    · exact below
    · exact Nat.le_trans below (least largest List.mem_cons_self out outside)
  · have count := keeps.length
    have length := same.length_eq
    rw [List.length_cons] at length
    rw [List.length_append, List.length_cons, List.length_singleton]
    omega

end Keeps

/-! ## A bounded heap -/

/-- A heap with the largest key at its root, which holds the elements with the least keys. -/
structure LargeTop (key : κ → Nat) (pushed : List κ) (limit : Nat) (heap : Nat → κ) (len : Nat) :
    Prop where
  /-- No key exceeds that of the parent. -/
  isHeap : IsHeap (Above (Larger key)) heap len
  /-- The elements are those with the least keys. -/
  keeps : Keeps key pushed limit (cells heap len)

namespace LargeTop

variable {key : κ → Nat} {pushed : List κ} {limit len : Nat} {heap heap' : Nat → κ} {element : κ}

/-- An empty heap. -/
theorem empty (key : κ → Nat) (limit : Nat) (heap : Nat → κ) : LargeTop key [] limit heap 0 :=
  ⟨fun _ _ inside => absurd inside (Nat.not_lt_zero _), Keeps.nil key limit⟩

/-- A heap without room. -/
theorem noRoom (key : κ → Nat) (pushed : List κ) (heap : Nat → κ) :
    LargeTop key pushed 0 heap 0 := by
  refine ⟨fun _ _ inside => absurd inside (Nat.not_lt_zero _), ⟨pushed, List.Perm.refl _, ?_⟩, ?_⟩
  · exact fun _ member => absurd member List.not_mem_nil
  · exact (Nat.min_zero pushed.length).symm

/-- The root has the largest key. -/
theorem largest (top : LargeTop key pushed limit heap len) :
    ∀ other ∈ cells heap len, key other ≤ key (heap 0) := by
  intro other member
  obtain ⟨place, inside, rfl⟩ := mem_cells.mp member
  have order := larger_ranking key
  exact Nat.le_of_not_lt (top.isHeap.root order.refl order.above_trans inside)

/-- The number of elements. -/
theorem len_eq (top : LargeTop key pushed limit heap len) : len = min pushed.length limit := by
  rw [← top.keeps.length, length_cells]

/-- While there is room, an element is added. -/
theorem add (top : LargeTop key pushed limit heap len) (room : len < limit)
    (sifted : Sifted (Larger key) (Function.update heap len element) heap' (len + 1)) :
    LargeTop key (pushed ++ [element]) limit heap' (len + 1) := by
  refine ⟨sifted.isHeap, (top.keeps.add ?_).perm (sifted.perm.trans ?_)⟩
  · rwa [length_cells]
  · rw [cells_succ, cells_update_of_le (Nat.le_refl len), Function.update_self]
    exact List.perm_append_singleton element (cells heap len)

/-- When there is no room, an element with a key that is not smaller than the largest is skipped. -/
theorem skip (top : LargeTop key pushed limit heap len) (full : len = limit)
    (large : ¬ key element < key (heap 0)) :
    LargeTop key (pushed ++ [element]) limit heap len := by
  refine ⟨top.isHeap, top.keeps.skip ?_ ?_⟩
  · rwa [length_cells]
  · exact fun other member => Nat.le_trans (top.largest other member) (Nat.le_of_not_lt large)

/-- When there is no room, an element with a smaller key replaces the root. -/
theorem replace (top : LargeTop key pushed limit heap len) (full : len = limit) (positive : 0 < len)
    (small : key element < key (heap 0))
    (sifted : Sifted (Larger key) (Function.update heap 0 element) heap' len) :
    LargeTop key (pushed ++ [element]) limit heap' len := by
  obtain ⟨rest, split⟩ : ∃ rest, (cells heap len).Perm (heap 0 :: rest) := by
    have member : heap 0 ∈ cells heap len := mem_cells.mpr ⟨0, positive, rfl⟩
    obtain ⟨before, after, same⟩ := List.append_of_mem member
    exact ⟨before ++ after, same ▸ List.perm_middle⟩
  refine ⟨sifted.isHeap, (top.keeps.replace ?_ split top.largest small).perm ?_⟩
  · rwa [length_cells]
  · have replaced := cells_update_perm heap positive element
    have swapped := replaced.trans ((split.cons element).trans (List.Perm.swap ..))
    exact sifted.perm.trans swapped.cons_inv

end LargeTop

/-! ## Taking the root out -/

/-- The root of a heap, and what is left when the last element is brought down from its place. -/
theorem Sifted.takeRoot {higher : κ → κ → Prop} {heap heap' : Nat → κ} {len : Nat}
    (sifted : Sifted higher (Function.update heap 0 (heap len)) heap' len) (positive : 0 < len) :
    (heap 0 :: cells heap' len).Perm (cells heap (len + 1)) := by
  rw [cells_succ]
  have replaced := cells_update_perm heap positive (heap len)
  exact ((sifted.perm.cons (heap 0)).trans replaced).trans
    (List.perm_append_singleton (heap len) (cells heap len)).symm

/-! ## Taking the first elements -/

/-- The first elements of a list that is in order as far as they are taken, when no element has been
left out or none was needed. -/
theorem Selects.take {key : κ → Nat} {pushed segs rest : List κ} {limit : Nat}
    (perm : (segs ++ rest).Perm pushed)
    (sorted : ∀ (first second : Nat) (inside : second < segs.length) (before : first < second),
      first < limit → key segs[first] ≤ key segs[second])
    (apart : ∀ element ∈ segs, ∀ other ∈ rest, key element ≤ key other)
    (enough : rest = [] ∨ limit ≤ segs.length) : Selects key pushed limit (segs.take limit) := by
  refine ⟨⟨⟨segs.drop limit ++ rest, ?_, ?_⟩, ?_⟩, ?_⟩
  · rw [← List.append_assoc, List.take_append_drop]
    exact perm
  · intro element member other outside
    obtain outside | outside := List.mem_append.mp outside
    · obtain ⟨first, inside, rfl⟩ := List.getElem_of_mem member
      obtain ⟨second, inside', rfl⟩ := List.getElem_of_mem outside
      rw [List.length_take] at inside
      rw [List.length_drop] at inside'
      rw [List.getElem_take, List.getElem_drop]
      exact sorted first (limit + second) (by omega) (by omega) (by omega)
    · exact apart element (List.mem_of_mem_take member) other outside
  · have total := perm.length_eq
    rw [List.length_append] at total
    rw [List.length_take]
    obtain rfl | long := enough
    · rw [List.length_nil] at total
      omega
    · omega
  · rw [List.pairwise_iff_getElem]
    intro first second inside inside' before
    rw [List.length_take] at inside inside'
    rw [List.getElem_take, List.getElem_take]
    exact sorted first second (by omega) before (by omega)

end FsChecking.Lib
