import FsChecking.Lib.Table
import Mathlib.Order.Basic

/-!
# Counted references

Nodes carry a counter of the references to them. A reference is held from outside, or it is the link
of a live node to its parent. `Counted` says that the counters are exact and that a node is live
exactly while something refers to it; the rules are those of taking a reference, dropping one,
waking a dead node up and linking a node to its parent.
-/

namespace FsChecking.Lib

/-- The number of live nodes that are linked to a node. -/
def children (limit : Nat) (link : Nat → Option Nat) (node : Nat) : Nat :=
  (List.range limit).countP fun child => decide (link child = some node)

/-- The counters are exact, and the live nodes are the nodes that something refers to. -/
structure Counted (limit : Nat) (live : Nat → Prop) (link : Nat → Option Nat) (ref held : Nat → Nat) :
    Prop where
  /-- Live nodes exist. -/
  bounded : ∀ node, live node → node < limit
  /-- The counter of a live node. -/
  exact_count : ∀ node, live node → ref node = held node + children limit link node
  /-- Something refers to a live node. -/
  positive : ∀ node, live node → 0 < held node + children limit link node
  /-- Nothing refers to a dead node. -/
  unheld : ∀ node, ¬ live node → held node = 0
  /-- No live node is linked to a dead node. -/
  childless : ∀ node, ¬ live node → children limit link node = 0
  /-- A dead node is not linked. -/
  unlinked : ∀ node, ¬ live node → link node = none

/-- One more reference to a node. -/
def hold (held : Nat → Nat) (node : Nat) : Nat → Nat := Function.update held node (held node + 1)

/-- One reference to a node less. -/
def drop (held : Nat → Nat) (node : Nat) : Nat → Nat := Function.update held node (held node - 1)

/-- One more reference to a node, if there is one. -/
def holdOption (held : Nat → Nat) : Option Nat → Nat → Nat
  | none => held
  | some node => hold held node

variable {limit node parent : Nat} {live : Nat → Prop} {link : Nat → Option Nat}
  {ref held : Nat → Nat}

/-- The references after one more. -/
theorem hold_apply (held : Nat → Nat) (node other : Nat) :
    hold held node other = held other + if other = node then 1 else 0 := by
  unfold hold
  by_cases here : other = node
  · rw [here, Function.update_self, if_pos rfl]
  · rw [Function.update_of_ne here, if_neg here, Nat.add_zero]

/-- The references after one less. -/
theorem drop_apply (held : Nat → Nat) (node other : Nat) :
    drop held node other = held other - if other = node then 1 else 0 := by
  unfold drop
  by_cases here : other = node
  · rw [here, Function.update_self, if_pos rfl]
  · rw [Function.update_of_ne here, if_neg here, Nat.sub_zero]

/-- The references after one more to an optional node. -/
theorem holdOption_apply (held : Nat → Nat) (target : Option Nat) (other : Nat) :
    holdOption held target other = held other + if target = some other then 1 else 0 := by
  cases target with
  | none =>
    rw [if_neg (by simp)]
    rfl
  | some node =>
    rw [holdOption, hold_apply]
    by_cases here : other = node
    · simp [here]
    · rw [if_neg here, if_neg fun same => here (Option.some.inj same).symm]

/-- The children after the link of a node without one has been set. -/
theorem children_link (parent : Nat) (inside : node < limit) (free : link node = none) (other : Nat) :
    children limit (Function.update link node (some parent)) other =
      children limit link other + if other = parent then 1 else 0 := by
  have change := countP_range_update (fun target => decide (target = some other)) link inside
    (some parent)
  rw [free] at change
  unfold children
  by_cases here : other = parent
  · subst here
    simpa using change
  · rw [if_neg here]
    have apart : parent ≠ other := fun same => here same.symm
    simpa [apart] using change

/-- The children after a link has been removed. -/
theorem children_unlink (link : Nat → Option Nat) (inside : node < limit) (other : Nat) :
    children limit (Function.update link node none) other +
        (if link node = some other then 1 else 0) = children limit link other := by
  have change := countP_range_update (fun target => decide (target = some other)) link inside none
  unfold children
  by_cases here : link node = some other
  · rw [if_pos here]
    simpa [here] using change
  · rw [if_neg here]
    simpa [here] using change

/-- Nodes without a link are nobody's children. -/
theorem children_extend {limit' : Nat} (more : limit ≤ limit')
    (unlinked : ∀ node, limit ≤ node → link node = none) (other : Nat) :
    children limit' link other = children limit link other := by
  obtain ⟨extra, rfl⟩ := Nat.exists_eq_add_of_le more
  unfold children
  rw [List.range_add, List.countP_append, List.countP_map, Nat.add_eq_left, List.countP_eq_zero]
  intro child _
  simp [unlinked (limit + child) (Nat.le_add_right limit child)]

namespace Counted

/-- What is referred to is live. -/
theorem live_of_held (counted : Counted limit live link ref held) (some_ref : 0 < held node) :
    live node := by
  by_contra dead
  have none := counted.unheld node dead
  omega

/-- The parent of a live node is live. -/
theorem live_of_link (counted : Counted limit live link ref held) (linked : link node = some parent) :
    live parent := by
  by_contra dead
  have liveNode : live node := by
    by_contra deadNode
    rw [counted.unlinked node deadNode] at linked
    cases linked
  have none := counted.childless parent dead
  unfold children at none
  rw [List.countP_eq_zero] at none
  have isChild := none node (List.mem_range.mpr (counted.bounded node liveNode))
  simp [linked] at isChild

/-- Taking a reference to a live node. -/
theorem takeRef (counted : Counted limit live link ref held) (alive : live node) :
    Counted limit live link (Function.update ref node (ref node + 1)) (hold held node) where
  bounded := counted.bounded
  exact_count other isLive := by
    rw [hold_apply]
    have before := counted.exact_count other isLive
    by_cases here : other = node
    · subst here
      rw [Function.update_self, if_pos rfl]
      omega
    · rw [Function.update_of_ne here, if_neg here]
      omega
  positive other isLive := by
    rw [hold_apply]
    have before := counted.positive other isLive
    omega
  unheld other dead := by
    have apart : other ≠ node := fun same => dead (same ▸ alive)
    rw [hold_apply, if_neg apart, counted.unheld other dead]
  childless := counted.childless
  unlinked := counted.unlinked

/-- Waking a dead node up, with one reference to it. -/
theorem wake (counted : Counted limit live link ref held) (dead : ¬ live node) {limit' : Nat}
    (more : limit ≤ limit') (inside : node < limit') {live' : Nat → Prop}
    (lives : ∀ other, live' other ↔ live other ∨ other = node) :
    Counted limit' live' link (Function.update ref node 1) (hold held node) := by
  have unlinked : ∀ other, limit ≤ other → link other = none := fun other outside =>
    counted.unlinked other fun isLive => absurd (counted.bounded other isLive) (by omega)
  have same := children_extend more unlinked
  have idle := counted.unheld node dead
  have alone := counted.childless node dead
  exact
    { bounded := by
        intro other isLive
        rcases (lives other).mp isLive with before | rfl
        · exact Nat.lt_of_lt_of_le (counted.bounded other before) more
        · exact inside
      exact_count := by
        intro other isLive
        rw [same, hold_apply]
        by_cases here : other = node
        · subst here
          rw [Function.update_self, if_pos rfl]
          omega
        · rw [Function.update_of_ne here, if_neg here]
          exact counted.exact_count other (((lives other).mp isLive).resolve_right here)
      positive := by
        intro other isLive
        rw [same, hold_apply]
        by_cases here : other = node
        · rw [if_pos here]
          omega
        · have before := counted.positive other (((lives other).mp isLive).resolve_right here)
          omega
      unheld := by
        intro other isDead
        rw [lives, not_or] at isDead
        rw [hold_apply, if_neg isDead.2, counted.unheld other isDead.1]
      childless := by
        intro other isDead
        rw [lives, not_or] at isDead
        rw [same, counted.childless other isDead.1]
      unlinked := by
        intro other isDead
        rw [lives, not_or] at isDead
        exact counted.unlinked other isDead.1 }

/-- Linking a live node without a parent to a live node. -/
theorem linkTo (counted : Counted limit live link ref held) (alive : live node)
    (free : link node = none) (target : live parent) :
    Counted limit live (Function.update link node (some parent))
      (Function.update ref parent (ref parent + 1)) held := by
  have inside := counted.bounded node alive
  have sets := fun other => children_link parent inside free other
  exact
    { bounded := counted.bounded
      exact_count := by
        intro other isLive
        rw [sets]
        have before := counted.exact_count other isLive
        by_cases here : other = parent
        · subst here
          rw [Function.update_self, if_pos rfl]
          omega
        · rw [Function.update_of_ne here, if_neg here]
          omega
      positive := by
        intro other isLive
        rw [sets]
        have before := counted.positive other isLive
        omega
      unheld := counted.unheld
      childless := by
        intro other dead
        have apart : other ≠ parent := fun same => dead (same ▸ target)
        rw [sets, if_neg apart, counted.childless other dead]
      unlinked := by
        intro other dead
        have apart : other ≠ node := fun same => dead (same ▸ alive)
        rw [Function.update_of_ne apart, counted.unlinked other dead] }

/-- Dropping a reference that is not the last one. -/
theorem dropRef (counted : Counted limit live link ref held) (some_ref : 0 < held node)
    (more : ref node - 1 ≠ 0) :
    Counted limit live link (Function.update ref node (ref node - 1)) (drop held node) := by
  have alive := counted.live_of_held some_ref
  have exact_here := counted.exact_count node alive
  exact
    { bounded := counted.bounded
      exact_count := by
        intro other isLive
        rw [drop_apply]
        have before := counted.exact_count other isLive
        by_cases here : other = node
        · subst here
          rw [Function.update_self, if_pos rfl]
          omega
        · rw [Function.update_of_ne here, if_neg here]
          omega
      positive := by
        intro other isLive
        rw [drop_apply]
        by_cases here : other = node
        · subst here
          rw [if_pos rfl]
          omega
        · have before := counted.positive other isLive
          rw [if_neg here]
          omega
      unheld := by
        intro other dead
        rw [drop_apply, counted.unheld other dead, Nat.zero_sub]
      childless := counted.childless
      unlinked := counted.unlinked }

/-- Dropping the last reference: the node dies and its link becomes a reference that is held. -/
theorem dropLast (counted : Counted limit live link ref held) (some_ref : 0 < held node)
    (last : ref node - 1 = 0) {live' : Nat → Prop}
    (lives : ∀ other, live' other ↔ live other ∧ other ≠ node) :
    Counted limit live' (Function.update link node none)
      (Function.update ref node (ref node - 1)) (holdOption (drop held node) (link node)) := by
  have alive := counted.live_of_held some_ref
  have exact_here := counted.exact_count node alive
  have inside := counted.bounded node alive
  have sets := fun other => children_unlink link inside other
  have linked : ∀ other, link node = some other → live other := fun other =>
    counted.live_of_link
  have single : held node = 1 := by omega
  have alone : children limit link node = 0 := by omega
  have foreign : link node ≠ some node := by
    intro self
    have change := sets node
    rw [if_pos self, alone] at change
    omega
  exact
    { bounded := fun other isLive => counted.bounded other ((lives other).mp isLive).1
      exact_count := by
        intro other isLive
        obtain ⟨before, apart⟩ := (lives other).mp isLive
        have change := sets other
        rw [holdOption_apply, drop_apply, if_neg apart, Function.update_of_ne apart,
          counted.exact_count other before]
        omega
      positive := by
        intro other isLive
        obtain ⟨before, apart⟩ := (lives other).mp isLive
        have change := sets other
        have some_before := counted.positive other before
        rw [holdOption_apply, drop_apply, if_neg apart]
        omega
      unheld := by
        intro other dead
        rw [lives, not_and, not_not] at dead
        rw [holdOption_apply, drop_apply]
        by_cases here : other = node
        · rw [here, if_pos rfl, if_neg foreign, single]
        · have wasDead : ¬ live other := fun isLive => here (dead isLive)
          rw [if_neg here, if_neg fun target => wasDead (linked other target),
            counted.unheld other wasDead]
      childless := by
        intro other dead
        rw [lives, not_and, not_not] at dead
        have change := sets other
        by_cases here : other = node
        · rw [here] at change ⊢
          omega
        · have none := counted.childless other fun isLive => here (dead isLive)
          omega
      unlinked := by
        intro other dead
        rw [lives, not_and, not_not] at dead
        by_cases here : other = node
        · rw [here, Function.update_self]
        · rw [Function.update_of_ne here]
          exact counted.unlinked other fun isLive => here (dead isLive) }

/-- The accounts depend on the links, on the counters of the live nodes and on the number of
references held. -/
theorem congr (counted : Counted limit live link ref held) {live' : Nat → Prop}
    {link' : Nat → Option Nat} {ref' held' : Nat → Nat} (lives : ∀ node, live' node ↔ live node)
    (links : ∀ node, link' node = link node) (refs : ∀ node, live node → ref' node = ref node)
    (holds : ∀ node, held' node = held node) : Counted limit live' link' ref' held' := by
  obtain rfl : link' = link := funext links
  obtain rfl : held' = held := funext holds
  obtain rfl : live' = live := funext fun node => propext (lives node)
  exact
    { bounded := counted.bounded
      exact_count := fun node isLive => by rw [refs node isLive, counted.exact_count node isLive]
      positive := counted.positive
      unheld := counted.unheld
      childless := counted.childless
      unlinked := counted.unlinked }

end Counted

end FsChecking.Lib
