import Mathlib.Logic.Function.Basic

/-!
# Placements

Items lie at places, and two tables say where: one gives the place of an item, the other the item
that a place holds. `Placed` says that the tables are inverse to each other; moving an item to a
vacant place and removing an item keep them so.
-/

namespace FsChecking.Lib

variable {κ π : Type} [DecidableEq κ] [DecidableEq π]

/-- An item is at a place exactly when the place holds the item. -/
def Placed (place : κ → Option π) (held : π → Option κ) : Prop :=
  ∀ item spot, place item = some spot ↔ held spot = some item

/-- The places after one of them has been given up. -/
def vacate (held : π → Option κ) : Option π → π → Option κ
  | none => held
  | some spot => Function.update held spot none

namespace Placed

variable {place : κ → Option π} {held : π → Option κ} {item : κ} {spot : π}

/-- Moving an item to a vacant place: the new place is written before the old one is given up. -/
theorem move (placed : Placed place held) (vacant : held spot = none) :
    Placed (Function.update place item (some spot))
      (vacate (Function.update held spot (some item)) (place item)) := by
  have elsewhere : place item ≠ some spot := fun here => by
    rw [(placed item spot).mp here] at vacant
    cases vacant
  have given : ∀ target, vacate (Function.update held spot (some item)) (place item) target =
      if target = spot then some item else if place item = some target then none
        else held target := by
    intro target
    cases old : place item with
    | none =>
      show Function.update held spot (some item) target = _
      by_cases here : target = spot
      · rw [here, Function.update_self, if_pos rfl]
      · rw [Function.update_of_ne here, if_neg here, if_neg (by simp)]
    | some before =>
      show Function.update (Function.update held spot (some item)) before none target = _
      have apart : before ≠ spot := fun same => elsewhere (by rw [old, same])
      by_cases here : target = spot
      · rw [here, Function.update_of_ne apart.symm, Function.update_self, if_pos rfl]
      · rw [if_neg here]
        by_cases there : target = before
        · rw [there, Function.update_self, if_pos rfl]
        · rw [Function.update_of_ne there, Function.update_of_ne here, if_neg]
          exact fun same => there (Option.some.inj same).symm
  intro other target
  rw [given]
  by_cases self : other = item
  · subst self
    rw [Function.update_self]
    by_cases here : target = spot
    · rw [here, if_pos rfl]
      exact ⟨fun _ => rfl, fun _ => rfl⟩
    · rw [if_neg here]
      constructor
      · exact fun same => absurd (Option.some.inj same).symm here
      · intro holds
        split at holds
        · cases holds
        · rename_i apart
          exact absurd ((placed other target).mpr holds) apart
  · rw [Function.update_of_ne self, placed other target]
    by_cases here : target = spot
    · rw [here, if_pos rfl, vacant]
      constructor
      · exact fun none => by cases none
      · exact fun same => absurd (Option.some.inj same).symm self
    · rw [if_neg here]
      split
      · rename_i old
        rw [(placed item target).mp old]
        constructor
        · exact fun same => absurd (Option.some.inj same).symm self
        · exact fun none => by cases none
      · exact Iff.rfl

end Placed

end FsChecking.Lib
