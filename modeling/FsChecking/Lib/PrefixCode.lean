import Mathlib.Data.List.Lex
import Mathlib.Order.Lattice

/-!
# Words that are not prefixes of one another

A sequence of words can be read back from its concatenation when comparable words, of which one is
a prefix of the other, are equal. Such words are also ordered as their extensions are, so that they
may be sorted together with anything that stands behind them.
-/

namespace FsChecking.Lib

variable {α : Type}

/-- One of two words is a prefix of the other. -/
def Comparable (first second : List α) : Prop := first <+: second ∨ second <+: first

/-- Two words in front of the same text are comparable. -/
theorem Comparable.of_append {first second rest rest' : List α}
    (same : first ++ rest = second ++ rest') : Comparable first second :=
  List.prefix_or_prefix_of_prefix (List.prefix_append first rest)
    (same ▸ List.prefix_append second rest')

/-- Words that are followed by a symbol with which none of them begins are read back. -/
theorem flatten_inj {stop : α} {left right : List (List α)} {rest rest' : List α}
    (apart : ∀ first ∈ left, ∀ second ∈ right, Comparable first second → first = second)
    (leftStarts : ∀ word ∈ left, ∃ start tail, word = start :: tail ∧ start ≠ stop)
    (rightStarts : ∀ word ∈ right, ∃ start tail, word = start :: tail ∧ start ≠ stop)
    (same : left.flatten ++ stop :: rest = right.flatten ++ stop :: rest') :
    left = right ∧ rest = rest' := by
  induction left generalizing right with
  | nil =>
    cases right with
    | nil => exact ⟨rfl, (List.cons.inj same).2⟩
    | cons second right =>
      obtain ⟨start, tail, rfl, other⟩ := rightStarts second List.mem_cons_self
      exact absurd (List.cons.inj same).1.symm other
  | cons first left ih =>
    cases right with
    | nil =>
      obtain ⟨start, tail, rfl, other⟩ := leftStarts first List.mem_cons_self
      exact absurd (List.cons.inj same).1 other
    | cons second right =>
      rw [List.flatten_cons, List.flatten_cons, List.append_assoc, List.append_assoc] at same
      have equal := apart first List.mem_cons_self second List.mem_cons_self
        (Comparable.of_append same)
      subst equal
      obtain ⟨others, rests⟩ := ih
        (fun word listed word' listed' => apart word (List.mem_cons_of_mem _ listed) word'
          (List.mem_cons_of_mem _ listed'))
        (fun word listed => leftStarts word (List.mem_cons_of_mem _ listed))
        (fun word listed => rightStarts word (List.mem_cons_of_mem _ listed))
        (List.append_cancel_left same)
      exact ⟨congrArg _ others, rests⟩

variable [LinearOrder α]

/-- Words that are not comparable are ordered as their extensions are. -/
theorem append_lt_append_iff {first second : List α} (apart : ¬ Comparable first second)
    (rest rest' : List α) : first ++ rest < second ++ rest' ↔ first < second := by
  induction first generalizing second with
  | nil => exact absurd (.inl List.nil_prefix) apart
  | cons start tail ih =>
    cases second with
    | nil => exact absurd (.inr List.nil_prefix) apart
    | cons start' tail' =>
      rw [List.cons_append, List.cons_append, List.cons_lt_cons_iff, List.cons_lt_cons_iff]
      refine or_congr_right (and_congr_right fun equal => ih fun comparable => apart ?_)
      subst equal
      exact comparable.imp (fun shorter => (List.cons_prefix_cons).mpr ⟨rfl, shorter⟩)
        fun shorter => (List.cons_prefix_cons).mpr ⟨rfl, shorter⟩

/-- The order of extensions of words that are equal when they are comparable. -/
theorem le_of_append_le {first second rest rest' : List α}
    (apart : Comparable first second → first = second)
    (ordered : first ++ rest ≤ second ++ rest') : first ≤ second := by
  by_cases equal : first = second
  · exact le_of_eq equal
  · have incomparable : ¬ Comparable second first := fun comparable =>
      equal (apart comparable.symm)
    rw [← not_lt] at ordered ⊢
    rwa [append_lt_append_iff incomparable] at ordered

end FsChecking.Lib
