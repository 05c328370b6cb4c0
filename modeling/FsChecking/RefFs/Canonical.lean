import FsChecking.Lib.PrefixCode
import FsChecking.RefFs.Runs

/-!
# The code of a tree

The codes of files and directories are words of which none is a prefix of another one. A directory
lists the codes of its children in order, although it sorts them by buffers in which more may stand
behind the codes. The code of the root therefore determines the tree up to the names and the order
of the children, and is determined by it.
-/

namespace FsChecking.RefFs

open Lib

/-- The code of a file with a version. -/
def leafCode (version : Nat) (isOpen : Bool) : Text :=
  '(' :: Nat.toDigits 10 version ++ if isOpen then ['#', ')'] else [')']

/-- The label of a file is its code. -/
theorem RefFile.label_eq (file : RefFile) : file.label = leafCode file.version file.isOpen := by
  unfold RefFile.label leafCode
  cases file.isOpen <;> rfl

/-- The codes of trees. -/
inductive IsCode : Text → Prop where
  /-- A file. -/
  | leaf (version : Nat) (isOpen : Bool) : IsCode (leafCode version isOpen)
  /-- A directory. -/
  | node (codes : List Text) (all : ∀ code ∈ codes, IsCode code) :
    IsCode ('[' :: codes.flatten ++ [']'])

/-- What stands between the brackets of a file. -/
theorem leafCode_split (version : Nat) (isOpen : Bool) :
    ∃ inner, leafCode version isOpen = '(' :: inner ++ [')'] ∧ ')' ∉ inner ∧ '\x00' ∉ inner ∧
      inner = Nat.toDigits 10 version ++ if isOpen then ['#'] else [] := by
  have digit : ∀ char ∈ Nat.toDigits 10 version, char.isDigit = true := fun char member =>
    Nat.isDigit_of_mem_toDigits (by decide) (by decide) member
  have plain : ∀ char : Char, char.isDigit = false → char ≠ '#' →
      char ∉ Nat.toDigits 10 version ++ if isOpen then ['#'] else [] := by
    intro char notDigit notHash member
    rcases List.mem_append.mp member with inDigits | inFlag
    · rw [digit char inDigits] at notDigit
      cases notDigit
    · cases isOpen
      · cases inFlag
      · exact notHash (List.mem_singleton.mp inFlag)
  refine ⟨Nat.toDigits 10 version ++ if isOpen then ['#'] else [], ?_, plain ')' rfl (by decide),
    plain '\x00' rfl (by decide), rfl⟩
  unfold leafCode
  cases isOpen <;> simp

/-- The code of a file says its version and whether it is open. -/
theorem leafCode_inj {version version' : Nat} {isOpen isOpen' : Bool}
    (same : leafCode version isOpen = leafCode version' isOpen') :
    version = version' ∧ isOpen = isOpen' := by
  have noHash : ∀ number, '#' ∉ Nat.toDigits 10 number := by
    intro number member
    have digit : ('#').isDigit = true := Nat.isDigit_of_mem_toDigits (by decide) (by decide) member
    cases digit
  have digits : ∀ {flag flag' : Bool}, flag = flag' →
      leafCode version flag = leafCode version' flag' → version = version' := by
    rintro flag _ rfl equal
    have inner := List.append_cancel_right (List.cons.inj equal).2
    rw [← Nat.ofDigitChars_ten_toDigits (n := version), inner, Nat.ofDigitChars_ten_toDigits]
  have flags : isOpen = isOpen' := by
    have hash : '#' ∈ leafCode version isOpen ↔ '#' ∈ leafCode version' isOpen' := by rw [same]
    cases isOpen <;> cases isOpen' <;> simp [leafCode, noHash] at hash ⊢
  exact ⟨digits flags same, flags⟩

namespace IsCode

/-- The first character of a code. -/
theorem starts {code : Text} (isCode : IsCode code) :
    ∃ start tail, code = start :: tail ∧ start ≠ ']' := by
  cases isCode with
  | leaf version isOpen => exact ⟨'(', _, rfl, by decide⟩
  | node codes all => exact ⟨'[', _, rfl, by decide⟩

/-- Codes contain no terminator. -/
theorem plain {code : Text} (isCode : IsCode code) : '\x00' ∉ code := by
  induction isCode with
  | leaf version isOpen =>
    obtain ⟨inner, split, -, noNull, -⟩ := leafCode_split version isOpen
    rw [split]
    simp [noNull]
  | node codes all ih =>
    simp only [List.cons_append, List.mem_cons, List.mem_append, List.mem_flatten,
      List.not_mem_nil, or_false, not_or, not_exists, not_and]
    exact ⟨by decide, ih, by decide⟩

/-- A code is not a proper prefix of another one. -/
theorem eq_of_prefix {first second : Text} (isFirst : IsCode first) (isSecond : IsCode second)
    (shorter : first <+: second) : first = second := by
  induction size : first.length using Nat.strong_induction_on generalizing first second with
  | _ length ih =>
    obtain ⟨rest, whole⟩ := shorter
    cases isFirst with
    | leaf version isOpen =>
      obtain ⟨inner, split, plain, -⟩ := leafCode_split version isOpen
      cases isSecond with
      | leaf version' isOpen' =>
        obtain ⟨inner', split', plain', -⟩ := leafCode_split version' isOpen'
        rw [split, split'] at whole ⊢
        have inners : inner ++ ')' :: rest = inner' ++ ')' :: [] := by simpa using whole
        rw [((List.append_cons_inj_of_notMem plain' List.not_mem_nil).mp inners.symm).1]
      | node codes all =>
        rw [split] at whole
        cases (List.cons.inj whole).1
    | node codes all =>
      cases isSecond with
      | leaf version isOpen =>
        obtain ⟨inner, split, -⟩ := leafCode_split version isOpen
        rw [split] at whole
        cases (List.cons.inj whole).1
      | node codes' all' =>
        have inners : codes.flatten ++ ']' :: rest = codes'.flatten ++ ']' :: [] := by
          simpa using whole
        have inside : ∀ code ∈ codes, code.length < length := by
          intro code member
          have sub := (List.sublist_flatten_of_mem member).length_le
          rw [← size]
          simp only [List.length_append, List.length_cons]
          omega
        have apart : ∀ code ∈ codes, ∀ code' ∈ codes', Comparable code code' → code = code' := by
          intro code member code' member' comparable
          rcases comparable with shorter | longer
          · exact ih code.length (inside code member) (all code member) (all' code' member')
              shorter rfl
          · have bound := Nat.lt_of_le_of_lt longer.length_le (inside code member)
            exact (ih code'.length bound (all' code' member') (all code member) longer rfl).symm
        rw [(flatten_inj apart (fun code member => (all code member).starts)
          (fun code member => (all' code member).starts) inners).1]

/-- Comparable codes are equal. -/
theorem eq_of_comparable {first second : Text} (isFirst : IsCode first) (isSecond : IsCode second)
    (comparable : Comparable first second) : first = second :=
  comparable.elim (isFirst.eq_of_prefix isSecond) fun longer =>
    (isSecond.eq_of_prefix isFirst longer).symm

/-- The code of a directory says the codes of its children. -/
theorem node_inj {codes codes' : List Text} (all : ∀ code ∈ codes, IsCode code)
    (all' : ∀ code ∈ codes', IsCode code)
    (same : '[' :: codes.flatten ++ [']'] = '[' :: codes'.flatten ++ [']']) : codes = codes' := by
  refine (flatten_inj (fun code member code' member' comparable =>
    (all code member).eq_of_comparable (all' code' member') comparable)
    (fun code member => (all code member).starts) (fun code member => (all' code member).starts)
    (List.cons.inj same).2).1

end IsCode

end FsChecking.RefFs
