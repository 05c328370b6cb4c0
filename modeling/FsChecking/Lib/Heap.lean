import FsChecking.Lib.Cells

/-!
# Binary heaps in arrays

A heap is a prefix of a memory, the children of a place being at twice the place and one or two
more. `above` is a total order in which elements may stand above each other, so that one development
serves large-top and small-top heaps. A sift exchanges an element with its parent or with a child;
an algorithm that moves a hole instead computes the same.
-/

namespace FsChecking.Lib

variable {κ : Type}

/-! ## The heap order -/

/-- The parent of a place. -/
abbrev parentOf (place : Nat) : Nat := (place - 1) / 2

/-- Every element stands below its parent. -/
def IsHeap (above : κ → κ → Prop) (heap : Nat → κ) (len : Nat) : Prop :=
  ∀ place, 0 < place → place < len → above (heap (parentOf place)) (heap place)

/-- A heap but for one element, which may have to go up. -/
structure SiftsUp (above : κ → κ → Prop) (heap : Nat → κ) (len hole : Nat) : Prop where
  /-- The other elements stand below their parents. -/
  others : ∀ place, 0 < place → place < len → place ≠ hole →
    above (heap (parentOf place)) (heap place)
  /-- The children of the element stand below its parent. -/
  grand : 0 < hole → ∀ child, 0 < child → child < len → parentOf child = hole →
    above (heap (parentOf hole)) (heap child)

/-- A heap but for one element, which may have to go down. -/
structure SiftsDown (above : κ → κ → Prop) (heap : Nat → κ) (len hole : Nat) : Prop where
  /-- The elements that are no children of it stand below their parents. -/
  others : ∀ place, 0 < place → place < len → parentOf place ≠ hole →
    above (heap (parentOf place)) (heap place)
  /-- The children of the element stand below its parent. -/
  grand : 0 < hole → ∀ child, 0 < child → child < len → parentOf child = hole →
    above (heap (parentOf hole)) (heap child)

section Order

variable {above : κ → κ → Prop} {heap : Nat → κ} {len hole : Nat}

/-- The order depends on the prefix. -/
theorem IsHeap.congr {heap' : Nat → κ} (isHeap : IsHeap above heap len)
    (same : ∀ place < len, heap place = heap' place) : IsHeap above heap' len := by
  intro place positive inside
  have up : parentOf place < len := by
    show (place - 1) / 2 < len
    omega
  rw [← same place inside, ← same _ up]
  exact isHeap place positive inside

/-- A shorter heap. -/
theorem IsHeap.shorter (isHeap : IsHeap above heap (len + 1)) : IsHeap above heap len :=
  fun place positive inside => isHeap place positive (Nat.lt_succ_of_lt inside)

/-- The root stands above all elements. -/
theorem IsHeap.root (refl : ∀ element, above element element)
    (trans : ∀ high middle low, above high middle → above middle low → above high low)
    (isHeap : IsHeap above heap len) {place : Nat} (inside : place < len) :
    above (heap 0) (heap place) := by
  induction place using Nat.strongRecOn with
  | ind place ih =>
    by_cases root : place = 0
    · rw [root]
      exact refl _
    · have up : parentOf place < place := by
        show (place - 1) / 2 < place
        omega
      exact trans _ _ _ (ih _ up (Nat.lt_trans up inside))
        (isHeap place (Nat.pos_of_ne_zero root) inside)

/-- A new last element may have to go up. -/
theorem IsHeap.siftsUp (isHeap : IsHeap above heap len) : SiftsUp above heap (len + 1) len := by
  constructor
  · intro place positive inside notLast
    exact isHeap place positive (Nat.lt_of_le_of_ne (Nat.le_of_lt_succ inside) notLast)
  · intro _ child _ inside same
    change (child - 1) / 2 = len at same
    omega

/-- A new root may have to go down. -/
theorem IsHeap.siftsDown (isHeap : IsHeap above heap len) (element : κ) :
    SiftsDown above (Function.update heap 0 element) len 0 := by
  constructor
  · intro place positive inside below
    rw [Function.update_of_ne below, Function.update_of_ne (Nat.ne_of_gt positive)]
    exact isHeap place positive inside
  · intro positive
    exact absurd positive (Nat.lt_irrefl 0)

/-- An element at the root, or below its parent, is in place. -/
theorem SiftsUp.done (sifts : SiftsUp above heap len hole)
    (fits : 0 < hole → above (heap (parentOf hole)) (heap hole)) : IsHeap above heap len := by
  intro place positive inside
  by_cases here : place = hole
  · rw [here] at positive ⊢
    exact fits positive
  · exact sifts.others place positive inside here

/-- An element that stands above its parent is exchanged with it. -/
theorem SiftsUp.step
    (trans : ∀ high middle low, above high middle → above middle low → above high low)
    (sifts : SiftsUp above heap len hole) (positive : 0 < hole) (inside : hole < len)
    (higher : above (heap hole) (heap (parentOf hole))) :
    SiftsUp above (exchange heap hole (parentOf hole)) len (parentOf hole) := by
  have up : parentOf hole < hole := by
    show (hole - 1) / 2 < hole
    omega
  constructor
  · intro place positive' inside' notHere
    by_cases here : place = hole
    · rw [here, exchange_second, exchange_first]
      exact higher
    · rw [exchange_of_ne here notHere]
      by_cases child : parentOf place = hole
      · rw [child, exchange_first]
        exact sifts.grand positive place positive' inside' child
      · by_cases sibling : parentOf place = parentOf hole
        · rw [sibling, exchange_second]
          have below := sifts.others place positive' inside' here
          rw [sibling] at below
          exact trans _ _ _ higher below
        · rw [exchange_of_ne child sibling]
          exact sifts.others place positive' inside' here
  · intro positiveUp child positive' inside' isChild
    have upper : parentOf (parentOf hole) < parentOf hole := by
      show ((hole - 1) / 2 - 1) / 2 < (hole - 1) / 2
      have positiveUp : 0 < (hole - 1) / 2 := positiveUp
      omega
    have notHole : parentOf (parentOf hole) ≠ hole := Nat.ne_of_lt (Nat.lt_trans upper up)
    have grand := sifts.others (parentOf hole) positiveUp (Nat.lt_trans up inside) (Nat.ne_of_lt up)
    rw [exchange_of_ne notHole (Nat.ne_of_lt upper)]
    by_cases here : child = hole
    · rw [here, exchange_first]
      exact grand
    · have notUp : child ≠ parentOf hole := by
        intro same
        rw [same] at isChild
        exact absurd isChild (Nat.ne_of_lt upper)
      rw [exchange_of_ne here notUp]
      have below := sifts.others child positive' inside' here
      rw [isChild] at below
      exact trans _ _ _ grand below

/-- An element above its children is in place. -/
theorem SiftsDown.done (sifts : SiftsDown above heap len hole)
    (fits : ∀ child, 0 < child → child < len → parentOf child = hole →
      above (heap hole) (heap child)) : IsHeap above heap len := by
  intro place positive inside
  by_cases child : parentOf place = hole
  · rw [child]
    exact fits place positive inside child
  · exact sifts.others place positive inside child

/-- An element is exchanged with the child that stands above it and above the other child. -/
theorem SiftsDown.step (sifts : SiftsDown above heap len hole) {child : Nat} (positive : 0 < child)
    (inside : child < len) (isChild : parentOf child = hole)
    (higher : above (heap child) (heap hole))
    (highest : ∀ other, 0 < other → other < len → parentOf other = hole →
      above (heap child) (heap other)) :
    SiftsDown above (exchange heap child hole) len child := by
  have down : hole < child := by
    change (child - 1) / 2 = hole at isChild
    omega
  constructor
  · intro place positive' inside' notBelow
    by_cases below : parentOf place = hole
    · rw [below, exchange_second]
      by_cases here : place = child
      · rw [here, exchange_first]
        exact higher
      · have notHole : place ≠ hole := by
          intro same
          change (place - 1) / 2 = hole at below
          omega
        rw [exchange_of_ne here notHole]
        exact highest place positive' inside' below
    · rw [exchange_of_ne notBelow below]
      by_cases here : place = hole
      · rw [here, exchange_second]
        rw [here] at positive'
        exact sifts.grand positive' child positive inside isChild
      · have notChild : place ≠ child := by
          intro same
          exact below (same ▸ isChild)
        rw [exchange_of_ne notChild here]
        exact sifts.others place positive' inside' below
  · intro _ other positive' inside' isOther
    have lower : child < other := by
      change (other - 1) / 2 = child at isOther
      omega
    rw [isChild, exchange_second, exchange_of_ne (Nat.ne_of_gt lower)
      (Nat.ne_of_gt (Nat.lt_trans down lower))]
    have notHole : parentOf other ≠ hole := by
      rw [isOther]
      exact Nat.ne_of_gt down
    have below := sifts.others other positive' inside' notHole
    rwa [isOther] at below

end Order

/-! ## Sifting -/

/-- Bring an element up, for a number of rounds: exchange it with its parent while it is higher. -/
def bubbleUp (higher : κ → κ → Prop) [DecidableRel higher] : Nat → Nat → (Nat → κ) → Nat → κ
  | 0, _, heap => heap
  | rounds + 1, place, heap =>
    if place = 0 then heap
    else if higher (heap place) (heap (parentOf place)) then
      bubbleUp higher rounds (parentOf place) (exchange heap place (parentOf place))
    else heap

/-- The highest of an element and its children; an earlier one among equals. -/
def highestOf (higher : κ → κ → Prop) [DecidableRel higher] (heap : Nat → κ) (len place : Nat) :
    Nat :=
  let left := place * 2 + 1
  let right := left + 1
  let highest := if left < len ∧ higher (heap left) (heap place) then left else place
  if right < len ∧ higher (heap right) (heap highest) then right else highest

/-- Bring an element down, for a number of rounds: exchange it with its highest child while that is
higher. -/
def bubbleDown (higher : κ → κ → Prop) [DecidableRel higher] (len : Nat) :
    Nat → Nat → (Nat → κ) → Nat → κ
  | 0, _, heap => heap
  | rounds + 1, place, heap =>
    let highest := highestOf higher heap len place
    if highest = place then heap
    else bubbleDown higher len rounds highest (exchange heap highest place)

/-- What makes elements rank: an element is not higher than one that is higher than it, and not
being higher is transitive. -/
structure Ranking (higher : κ → κ → Prop) : Prop where
  /-- No two elements are higher than each other. -/
  asymm : ∀ first second, higher first second → ¬ higher second first
  /-- Not being higher is transitive. -/
  trans : ∀ low middle high, ¬ higher low middle → ¬ higher middle high → ¬ higher low high

/-- The elements that may stand above each other. -/
abbrev Above (higher : κ → κ → Prop) (high low : κ) : Prop := ¬ higher low high

/-- A heap in which no element is higher than its parent: after a sift it has the same elements, and
what is behind it is as before. -/
structure Sifted (higher : κ → κ → Prop) (heap heap' : Nat → κ) (len : Nat) : Prop where
  /-- It is a heap. -/
  isHeap : IsHeap (Above higher) heap' len
  /-- The elements are the same. -/
  perm : (cells heap' len).Perm (cells heap len)
  /-- What is behind it is as before. -/
  behind : ∀ place, len ≤ place → heap' place = heap place

section Sifting

variable {higher : κ → κ → Prop} {heap : Nat → κ} {len place rounds : Nat}

/-- No element is higher than itself. -/
theorem Ranking.refl (order : Ranking higher) (element : κ) : Above higher element element :=
  fun above => order.asymm element element above above

/-- Standing above is transitive. -/
theorem Ranking.above_trans (order : Ranking higher) (high middle low : κ)
    (first : Above higher high middle) (second : Above higher middle low) : Above higher high low :=
  order.trans low middle high second first

/-- A sift that begins with an exchange. -/
theorem Sifted.exchange {heap' : Nat → κ} {first second : Nat} (left : first < len)
    (right : second < len) (sifted : Sifted higher (exchange heap first second) heap' len) :
    Sifted higher heap heap' len := by
  refine ⟨sifted.isHeap, sifted.perm.trans (cells_exchange_perm left right), ?_⟩
  intro place behind
  rw [sifted.behind place behind]
  exact exchange_of_ne (Nat.ne_of_gt (Nat.lt_of_lt_of_le left behind))
    (Nat.ne_of_gt (Nat.lt_of_lt_of_le right behind))

/-- Nothing has to be exchanged. -/
theorem Sifted.here (isHeap : IsHeap (Above higher) heap len) : Sifted higher heap heap len :=
  ⟨isHeap, List.Perm.refl _, fun _ _ => rfl⟩

variable [DecidableRel higher]

/-- Bringing an element up makes a heap. -/
theorem bubbleUp_sifted (order : Ranking higher)
    (sifts : SiftsUp (Above higher) heap len place) (inside : place < len) (enough : place ≤ rounds) :
    Sifted higher heap (bubbleUp higher rounds place heap) len := by
  induction rounds generalizing place heap with
  | zero =>
    obtain rfl := Nat.le_zero.mp enough
    exact .here (sifts.done fun positive => absurd positive (Nat.lt_irrefl 0))
  | succ rounds ih =>
    unfold bubbleUp
    by_cases root : place = 0
    · rw [if_pos root]
      exact .here (sifts.done fun positive => absurd root (Nat.ne_of_gt positive))
    · rw [if_neg root]
      have positive := Nat.pos_of_ne_zero root
      have up : parentOf place < place := by
        show (place - 1) / 2 < place
        omega
      by_cases exceeds : higher (heap place) (heap (parentOf place))
      · rw [if_pos exceeds]
        have next := sifts.step order.above_trans positive inside (order.asymm _ _ exceeds)
        have upper := Nat.lt_trans up inside
        exact (ih next upper (by omega)).exchange inside upper
      · rw [if_neg exceeds]
        exact .here (sifts.done fun _ => exceeds)

/-- The highest of an element and its children is not exceeded by any of them; if it is a child, it
is higher than the element. -/
theorem highestOf_spec (order : Ranking higher) (heap : Nat → κ) (len place : Nat) :
    (highestOf higher heap len place ≠ place → 0 < highestOf higher heap len place ∧
      highestOf higher heap len place < len ∧ parentOf (highestOf higher heap len place) = place ∧
      higher (heap (highestOf higher heap len place)) (heap place)) ∧
    ∀ child, 0 < child → child < len → parentOf child = place →
      Above higher (heap (highestOf higher heap len place)) (heap child) := by
  have children : ∀ child, 0 < child → parentOf child = place →
      child = place * 2 + 1 ∨ child = place * 2 + 1 + 1 := by
    intro child positive same
    change (child - 1) / 2 = place at same
    omega
  have leftChild : parentOf (place * 2 + 1) = place := by
    show (place * 2 + 1 - 1) / 2 = place
    omega
  have rightChild : parentOf (place * 2 + 1 + 1) = place := by
    show (place * 2 + 1 + 1 - 1) / 2 = place
    omega
  unfold highestOf
  dsimp only
  by_cases left : place * 2 + 1 < len ∧ higher (heap (place * 2 + 1)) (heap place)
  · rw [if_pos left]
    by_cases right : place * 2 + 1 + 1 < len ∧ higher (heap (place * 2 + 1 + 1)) (heap (place * 2 + 1))
    · rw [if_pos right]
      have exceeds : higher (heap (place * 2 + 1 + 1)) (heap place) := by
        apply Decidable.not_not.mp
        exact fun fails => order.trans _ _ _ (order.asymm _ _ right.2) fails left.2
      refine ⟨fun _ => ⟨Nat.succ_pos _, right.1, rightChild, exceeds⟩, fun child positive _ same => ?_⟩
      obtain rfl | rfl := children child positive same
      · exact order.asymm _ _ right.2
      · exact order.refl _
    · rw [if_neg right]
      refine ⟨fun _ => ⟨Nat.succ_pos _, left.1, leftChild, left.2⟩, fun child positive inside same => ?_⟩
      obtain rfl | rfl := children child positive same
      · exact order.refl _
      · exact fun exceeds => right ⟨inside, exceeds⟩
  · rw [if_neg left]
    by_cases right : place * 2 + 1 + 1 < len ∧ higher (heap (place * 2 + 1 + 1)) (heap place)
    · rw [if_pos right]
      refine ⟨fun _ => ⟨Nat.succ_pos _, right.1, rightChild, right.2⟩, fun child positive inside same => ?_⟩
      obtain rfl | rfl := children child positive same
      · have low : Above higher (heap place) (heap (place * 2 + 1)) :=
          fun exceeds => left ⟨inside, exceeds⟩
        exact order.above_trans _ _ _ (order.asymm _ _ right.2) low
      · exact order.refl _
    · rw [if_neg right]
      refine ⟨fun other => absurd rfl other, fun child positive inside same => ?_⟩
      obtain rfl | rfl := children child positive same
      · exact fun exceeds => left ⟨inside, exceeds⟩
      · exact fun exceeds => right ⟨inside, exceeds⟩

/-- Bringing an element down makes a heap. -/
theorem bubbleDown_sifted (order : Ranking higher)
    (sifts : SiftsDown (Above higher) heap len place) (inside : place < len)
    (enough : len ≤ place + rounds) :
    Sifted higher heap (bubbleDown higher len rounds place heap) len := by
  induction rounds generalizing place heap with
  | zero => exact absurd enough (Nat.not_le_of_lt inside)
  | succ rounds ih =>
    obtain ⟨child, highest⟩ := highestOf_spec order heap len place
    unfold bubbleDown
    dsimp only
    by_cases stays : highestOf higher heap len place = place
    · rw [if_pos stays]
      rw [stays] at highest
      exact .here (sifts.done highest)
    · rw [if_neg stays]
      obtain ⟨positive, below, isChild, exceeds⟩ := child stays
      have next := sifts.step positive below isChild (order.asymm _ _ exceeds) highest
      have deeper : place < highestOf higher heap len place := by
        change (highestOf higher heap len place - 1) / 2 = place at isChild
        omega
      exact (ih next below (by omega)).exchange below inside

/-- Adding a last element and bringing it up. -/
theorem IsHeap.pushed (order : Ranking higher) (isHeap : IsHeap (Above higher) heap len)
    (element : κ) :
    Sifted higher (Function.update heap len element)
      (bubbleUp higher len len (Function.update heap len element)) (len + 1) := by
  refine bubbleUp_sifted order (IsHeap.siftsUp ?_) (Nat.lt_succ_self len) (Nat.le_refl len)
  apply isHeap.congr
  intro place inside
  exact (Function.update_of_ne (Nat.ne_of_lt inside) ..).symm

/-- Replacing the root and bringing the new one down. -/
theorem IsHeap.replaced (order : Ranking higher) (isHeap : IsHeap (Above higher) heap len)
    (positive : 0 < len) (element : κ) :
    Sifted higher (Function.update heap 0 element)
      (bubbleDown higher len len 0 (Function.update heap 0 element)) len :=
  bubbleDown_sifted order (isHeap.siftsDown element) positive (Nat.le_add_left len 0)

end Sifting

end FsChecking.Lib
