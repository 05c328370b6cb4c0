import Mathlib.Data.Finset.Card
import Mathlib.Data.Finset.Range
import Mathlib.Data.Fintype.Basic
import Mathlib.Logic.Function.Basic

/-!
# Bitmaps in 32-bit words

Single bits of a word, the number of set bits below a bound, and flags packed `per` to a word into
an array of words.
-/

namespace FsChecking.Lib

/-- `word | (1 << bit)`. -/
def setBit (word : BitVec 32) (bit : Nat) : BitVec 32 := word ||| 1#32 <<< bit

/-- `word & ~(1 << bit)`. -/
def clearBit (word : BitVec 32) (bit : Nat) : BitVec 32 := word &&& ~~~(1#32 <<< bit)

/-- `word ^ (1 << bit)`. -/
def flipBit (word : BitVec 32) (bit : Nat) : BitVec 32 := word ^^^ 1#32 <<< bit

/-- The mask of one bit. -/
theorem getLsbD_mask {bit : Nat} (small : bit < 32) (other : Nat) :
    (1#32 <<< bit).getLsbD other = decide (other = bit) := by
  rw [← BitVec.twoPow_eq, BitVec.getLsbD_twoPow]
  by_cases same : other = bit
  · simp [same, small]
  · simp [same, Ne.symm same]

/-- The bits after setting one. -/
theorem getLsbD_setBit {bit : Nat} (word : BitVec 32) (small : bit < 32) (other : Nat) :
    (setBit word bit).getLsbD other = (word.getLsbD other || decide (other = bit)) := by
  rw [setBit, BitVec.getLsbD_or, getLsbD_mask small]

/-- The bits after clearing one. -/
theorem getLsbD_clearBit {bit : Nat} (word : BitVec 32) (small : bit < 32) (other : Nat) :
    (clearBit word bit).getLsbD other = (word.getLsbD other && !decide (other = bit)) := by
  rw [clearBit, BitVec.getLsbD_and, BitVec.getLsbD_not, getLsbD_mask small]
  by_cases inside : other < 32
  · simp [inside]
  · simp [inside, BitVec.getLsbD_of_ge word other (Nat.le_of_not_lt inside)]

/-- The bits after flipping one. -/
theorem getLsbD_flipBit {bit : Nat} (word : BitVec 32) (small : bit < 32) (other : Nat) :
    (flipBit word bit).getLsbD other = (word.getLsbD other ^^ decide (other = bit)) := by
  rw [flipBit, BitVec.getLsbD_xor, getLsbD_mask small]

/-- Bits that are set one after another. -/
theorem getLsbD_setBits {first count : Nat} (word : BitVec 32) (inside : first + count ≤ 32)
    (place : Nat) :
    ((List.range count).foldl (fun word place => setBit word (first + place))
      word).getLsbD place =
        (word.getLsbD place || decide (first ≤ place ∧ place < first + count)) := by
  induction count with
  | zero =>
    have outside : ¬ (first ≤ place ∧ place < first + 0) := by omega
    rw [List.range_zero, List.foldl_nil, decide_eq_false outside, Bool.or_false]
  | succ count ih =>
    rw [List.range_succ, List.foldl_append, List.foldl_cons, List.foldl_nil,
      getLsbD_setBit _ (by omega), ih (by omega), Bool.or_assoc]
    congr 1
    rw [← Bool.decide_or]
    apply decide_eq_decide.mpr
    omega

/-- Bits that are cleared one after another. -/
theorem getLsbD_clearBits {first count : Nat} (word : BitVec 32) (inside : first + count ≤ 32)
    (place : Nat) :
    ((List.range count).foldl (fun word place => clearBit word (first + place))
      word).getLsbD place =
        (word.getLsbD place && !decide (first ≤ place ∧ place < first + count)) := by
  induction count with
  | zero =>
    have outside : ¬ (first ≤ place ∧ place < first + 0) := by omega
    rw [List.range_zero, List.foldl_nil, decide_eq_false outside, Bool.not_false, Bool.and_true]
  | succ count ih =>
    rw [List.range_succ, List.foldl_append, List.foldl_cons, List.foldl_nil,
      getLsbD_clearBit _ (by omega), ih (by omega), Bool.and_assoc]
    congr 1
    rw [← Bool.not_or, ← Bool.decide_or]
    apply congrArg
    apply decide_eq_decide.mpr
    omega

/-- The set bits below a bound. -/
def bitsBelow (word : BitVec 32) (bound : Nat) : Finset Nat :=
  (Finset.range bound).filter fun bit => word.getLsbD bit

/-- The number of set bits below a bound. -/
def popCount (word : BitVec 32) (bound : Nat) : Nat := (bitsBelow word bound).card

/-- Membership among the set bits. -/
@[simp] theorem mem_bitsBelow {word : BitVec 32} {bound bit : Nat} :
    bit ∈ bitsBelow word bound ↔ bit < bound ∧ word.getLsbD bit = true := by
  simp [bitsBelow]

/-- There are at most as many set bits as positions. -/
theorem popCount_le (word : BitVec 32) (bound : Nat) : popCount word bound ≤ bound := by
  simpa [popCount, bitsBelow] using Finset.card_filter_le (Finset.range bound)
    (fun bit => word.getLsbD bit = true)

/-- Setting a clear bit counts one more. -/
theorem popCount_setBit {word : BitVec 32} {bound bit : Nat} (small : bound ≤ 32)
    (inside : bit < bound) (clear : word.getLsbD bit = false) :
    popCount (setBit word bit) bound = popCount word bound + 1 := by
  have more : bitsBelow (setBit word bit) bound = insert bit (bitsBelow word bound) := by
    ext other
    simp only [mem_bitsBelow, Finset.mem_insert, getLsbD_setBit word (by omega : bit < 32),
      Bool.or_eq_true, decide_eq_true_eq]
    constructor
    · rintro ⟨below, set | same⟩
      · exact Or.inr ⟨below, set⟩
      · exact Or.inl same
    · rintro (same | ⟨below, set⟩)
      · exact ⟨same ▸ inside, Or.inr same⟩
      · exact ⟨below, Or.inl set⟩
  rw [popCount, more, Finset.card_insert_of_notMem (by simp [clear]), popCount]

/-- Clearing a set bit counts one less. -/
theorem popCount_clearBit {word : BitVec 32} {bound bit : Nat} (small : bound ≤ 32)
    (inside : bit < bound) (set : word.getLsbD bit = true) :
    popCount (clearBit word bit) bound + 1 = popCount word bound := by
  have fewer : bitsBelow (clearBit word bit) bound = (bitsBelow word bound).erase bit := by
    ext other
    simp only [mem_bitsBelow, Finset.mem_erase, getLsbD_clearBit word (by omega : bit < 32),
      Bool.and_eq_true, Bool.not_eq_true', decide_eq_false_iff_not]
    tauto
  rw [popCount, fewer, Finset.card_erase_add_one (by simp [inside, set]), popCount]

/-- No bit below the bound is set exactly when they count zero. -/
theorem popCount_eq_zero {word : BitVec 32} {bound : Nat} :
    popCount word bound = 0 ↔ ∀ bit < bound, word.getLsbD bit = false := by
  rw [popCount, Finset.card_eq_zero, Finset.eq_empty_iff_forall_notMem]
  simp

/-- Counting the set bits in a loop. -/
theorem countP_range_getLsbD (word : BitVec 32) (bound : Nat) :
    (List.range bound).countP (fun bit => word.getLsbD bit) = popCount word bound := by
  induction bound with
  | zero => rfl
  | succ bound ih =>
    rw [List.range_succ, List.countP_append, ih, List.countP_singleton, popCount, popCount,
      bitsBelow, bitsBelow, Finset.range_add_one, Finset.filter_insert]
    split
    · rw [Finset.card_insert_of_notMem (by simp)]
    · rfl

/-- Clear bits do not count. -/
theorem popCount_eq_of_clear {word : BitVec 32} {small large : Nat} (le : small ≤ large)
    (clear : ∀ bit, small ≤ bit → word.getLsbD bit = false) :
    popCount word large = popCount word small := by
  rw [popCount, popCount]
  congr 1
  ext bit
  rw [mem_bitsBelow, mem_bitsBelow]
  constructor
  · rintro ⟨-, set⟩
    refine ⟨Nat.lt_of_not_le fun high => ?_, set⟩
    rw [clear bit high] at set
    cases set
  · rintro ⟨below, set⟩
    exact ⟨below.trans_le le, set⟩

/-! ## Flags packed into words -/

/-- A flag of an array of words that holds `per` flags a word. -/
def testFlag (per : Nat) (words : Nat → BitVec 32) (flag : Nat) : Bool :=
  (words (flag / per)).getLsbD (flag % per)

/-- Set a flag. -/
def setFlag (per : Nat) (words : Nat → BitVec 32) (flag : Nat) : Nat → BitVec 32 :=
  Function.update words (flag / per) (setBit (words (flag / per)) (flag % per))

/-- Clear a flag. -/
def clearFlag (per : Nat) (words : Nat → BitVec 32) (flag : Nat) : Nat → BitVec 32 :=
  Function.update words (flag / per) (clearBit (words (flag / per)) (flag % per))

/-- Inside a word a flag is given by its place. -/
theorem flag_eq_iff {per flag other : Nat} (word : other / per = flag / per) :
    other = flag ↔ other % per = flag % per := by
  constructor
  · rintro rfl
    rfl
  · intro remainder
    rw [← Nat.div_add_mod other per, word, remainder, Nat.div_add_mod]

/-- The flags after setting one. -/
theorem testFlag_setFlag {per : Nat} (positive : 0 < per) (small : per ≤ 32)
    (words : Nat → BitVec 32) (flag other : Nat) :
    testFlag per (setFlag per words flag) other =
      (testFlag per words other || decide (other = flag)) := by
  have place : flag % per < 32 := (Nat.mod_lt flag positive).trans_le small
  rw [testFlag, setFlag, testFlag]
  by_cases word : other / per = flag / per
  · rw [word, Function.update_self, getLsbD_setBit _ place]
    simp only [flag_eq_iff word]
  · have apart : other ≠ flag := fun same => word (by rw [same])
    rw [Function.update_of_ne word]
    simp [apart]

/-- The flags after clearing one. -/
theorem testFlag_clearFlag {per : Nat} (positive : 0 < per) (small : per ≤ 32)
    (words : Nat → BitVec 32) (flag other : Nat) :
    testFlag per (clearFlag per words flag) other =
      (testFlag per words other && !decide (other = flag)) := by
  have place : flag % per < 32 := (Nat.mod_lt flag positive).trans_le small
  rw [testFlag, clearFlag, testFlag]
  by_cases word : other / per = flag / per
  · rw [word, Function.update_self, getLsbD_clearBit _ place]
    simp only [flag_eq_iff word]
  · have apart : other ≠ flag := fun same => word (by rw [same])
    rw [Function.update_of_ne word]
    simp [apart]

end FsChecking.Lib
