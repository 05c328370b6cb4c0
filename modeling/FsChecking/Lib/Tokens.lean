import Mathlib.Data.List.Basic

/-!
# Tokens

The tokens of a text are its longest runs of letters without a separator, each with the place where
it begins. A text that is put together from words with separators between or behind them has these
words as its tokens; what follows a separator does not change the tokens before it. A text that has
a separator is split at its last one.
-/

namespace FsChecking.Lib

variable {α : Type}

/-! ## Runs between separators -/

section Tokens

variable {separates : α → Bool} {token word text : List α} {words : List (List α)} {separator : α}
  {place : Nat}

/-- The tokens of a text, behind the letters of a token that has begun at a place. -/
def tokensFrom (separates : α → Bool) : List α → Nat → List α → List (Nat × List α)
  | token, place, [] => if token.isEmpty then [] else [(place, token)]
  | token, place, letter :: rest =>
    if separates letter then
      if token.isEmpty then tokensFrom separates [] (place + 1) rest
      else (place, token) :: tokensFrom separates [] (place + token.length + 1) rest
    else tokensFrom separates (token ++ [letter]) place rest

/-- The tokens of a text, with their places. -/
def placedTokens (separates : α → Bool) (text : List α) : List (Nat × List α) :=
  tokensFrom separates [] 0 text

/-- The tokens of a text. -/
def tokens (separates : α → Bool) (text : List α) : List (List α) :=
  (placedTokens separates text).map Prod.snd

/-- A word: it has letters, none of which is a separator. -/
structure IsWord (separates : α → Bool) (word : List α) : Prop where
  /-- It has letters. -/
  notEmpty : word ≠ []
  /-- None of them separates. -/
  plain : ∀ letter ∈ word, separates letter = false

/-- Letters that do not separate belong to the token that has begun. -/
theorem tokensFrom_append (plain : ∀ letter ∈ word, separates letter = false)
    (token : List α) (place : Nat) (rest : List α) :
    tokensFrom separates token place (word ++ rest) =
      tokensFrom separates (token ++ word) place rest := by
  induction word generalizing token with
  | nil => rw [List.nil_append, List.append_nil]
  | cons letter word ih =>
    have here : ¬ separates letter = true := by
      rw [plain letter List.mem_cons_self]
      decide
    rw [List.cons_append, tokensFrom, if_neg here,
      ih (fun other member => plain other (List.mem_cons_of_mem _ member)), List.append_assoc]
    rfl

/-- Behind a separator the tokens are found as at the beginning of a text. -/
theorem tokensFrom_split (ends : separates separator = true) (rest : List α) :
    tokensFrom separates token place (text ++ separator :: rest) =
      tokensFrom separates token place (text ++ [separator]) ++
        tokensFrom separates [] (place + token.length + text.length + 1) rest := by
  induction text generalizing token place with
  | nil =>
    rw [List.nil_append, List.nil_append, tokensFrom, tokensFrom, if_pos ends, if_pos ends]
    by_cases empty : token.isEmpty = true
    · have none : token = [] := List.isEmpty_iff.mp empty
      rw [if_pos empty, if_pos empty, none]
      rfl
    · rw [if_neg empty, if_neg empty]
      rfl
  | cons letter text ih =>
    rw [List.cons_append, List.cons_append, tokensFrom, tokensFrom, List.length_cons]
    by_cases here : separates letter = true
    · rw [if_pos here, if_pos here, ih, ih]
      by_cases empty : token.isEmpty = true
      · have none : token = [] := List.isEmpty_iff.mp empty
        have same : place + 1 + ([] : List α).length + text.length + 1 =
            place + token.length + (text.length + 1) + 1 := by
          rw [none, List.length_nil]
          omega
        rw [if_pos empty, if_pos empty, same]
      · have same : place + token.length + 1 + ([] : List α).length + text.length + 1 =
            place + token.length + (text.length + 1) + 1 := by
          rw [List.length_nil]
          omega
        rw [if_neg empty, if_neg empty, same, List.cons_append]
    · have same : place + (token ++ [letter]).length + text.length + 1 =
          place + token.length + (text.length + 1) + 1 := by
        rw [List.length_append, List.length_singleton]
        omega
      rw [if_neg here, if_neg here, ih, same]

/-- Tokens begin inside the text. -/
theorem tokensFrom_inside {found : Nat × List α}
    (member : found ∈ tokensFrom separates token place text) :
    place ≤ found.1 ∧ found.1 < place + token.length + text.length := by
  induction text generalizing token place with
  | nil =>
    rw [tokensFrom] at member
    by_cases empty : token.isEmpty = true
    · rw [if_pos empty] at member
      cases member
    · rw [if_neg empty, List.mem_singleton] at member
      have letters : token.length ≠ 0 := fun none => empty (List.isEmpty_iff.mpr
        (List.length_eq_zero_iff.mp none))
      rw [member]
      exact ⟨Nat.le_refl _, by dsimp only; omega⟩
  | cons letter text ih =>
    rw [tokensFrom] at member
    rw [List.length_cons]
    by_cases here : separates letter = true
    · rw [if_pos here] at member
      by_cases empty : token.isEmpty = true
      · rw [if_pos empty] at member
        have inside := ih member
        rw [List.length_nil] at inside
        omega
      · rw [if_neg empty, List.mem_cons] at member
        have letters : token.length ≠ 0 := fun none => empty (List.isEmpty_iff.mpr
          (List.length_eq_zero_iff.mp none))
        rcases member with same | later
        · rw [same]
          exact ⟨Nat.le_refl _, by dsimp only; omega⟩
        · have inside := ih later
          rw [List.length_nil] at inside
          omega
    · rw [if_neg here] at member
      have inside := ih member
      rw [List.length_append, List.length_singleton] at inside
      omega

/-- A token that has letters is not empty. -/
theorem IsWord.isEmpty (isWord : IsWord separates word) : ¬ word.isEmpty = true := by
  intro empty
  exact isWord.notEmpty (List.isEmpty_iff.mp empty)

/-- A word in front of a separator is the first token. -/
theorem tokensFrom_word (isWord : IsWord separates word) (ends : separates separator = true)
    (place : Nat) (rest : List α) :
    tokensFrom separates [] place (word ++ separator :: rest) =
      (place, word) :: tokensFrom separates [] (place + word.length + 1) rest := by
  rw [tokensFrom_append isWord.plain, List.nil_append, tokensFrom, if_pos ends,
    if_neg isWord.isEmpty]

/-- A word alone is the only token. -/
theorem tokensFrom_last (isWord : IsWord separates word) (place : Nat) :
    tokensFrom separates [] place word = [(place, word)] := by
  have whole := tokensFrom_append isWord.plain [] place []
  rw [List.append_nil, List.nil_append] at whole
  rw [whole, tokensFrom, if_neg isWord.isEmpty]

/-- Words with a separator behind each one. -/
theorem tokensFrom_flatMap (areWords : ∀ word ∈ words, IsWord separates word)
    (ends : separates separator = true) (place : Nat) :
    (tokensFrom separates [] place (words.flatMap fun word => word ++ [separator])).map Prod.snd =
      words := by
  induction words generalizing place with
  | nil => rfl
  | cons word words ih =>
    have first := tokensFrom_word (areWords word List.mem_cons_self) ends place
      (words.flatMap fun word => word ++ [separator])
    rw [List.flatMap_cons, List.append_assoc, List.singleton_append, first, List.map_cons,
      ih fun other member => areWords other (List.mem_cons_of_mem _ member)]

/-- Words with a separator between them. -/
def joined (separator : α) : List (List α) → List α
  | [] => []
  | [word] => word
  | word :: next :: words => word ++ separator :: joined separator (next :: words)

/-- The words of a text that is joined from them. -/
theorem tokens_joined (areWords : ∀ word ∈ words, IsWord separates word)
    (ends : separates separator = true) : tokens separates (joined separator words) = words := by
  unfold tokens placedTokens
  generalize 0 = place
  induction words generalizing place with
  | nil => rfl
  | cons word words ih =>
    have isWord := areWords word List.mem_cons_self
    cases words with
    | nil => rw [joined, tokensFrom_last isWord, List.map_singleton]
    | cons next words =>
      rw [joined, tokensFrom_word isWord ends, List.map_cons,
        ih fun other member => areWords other (List.mem_cons_of_mem _ member)]

/-- The letters of a joined text. -/
theorem mem_joined {letter : α} (member : letter ∈ joined separator words) :
    letter = separator ∨ ∃ word ∈ words, letter ∈ word := by
  induction words with
  | nil => cases member
  | cons word words ih =>
    cases words with
    | nil => exact .inr ⟨word, List.mem_cons_self, member⟩
    | cons next words =>
      rw [joined, List.mem_append, List.mem_cons] at member
      rcases member with inWord | same | later
      · exact .inr ⟨word, List.mem_cons_self, inWord⟩
      · exact .inl same
      · rcases ih later with same | ⟨other, chosen, inOther⟩
        · exact .inl same
        · exact .inr ⟨other, List.mem_cons_of_mem _ chosen, inOther⟩

end Tokens

/-! ## The last separator -/

section LastIndex

variable [DecidableEq α] {separator : α} {text front last : List α}

/-- The place of the last separator. -/
def lastIndexOf (separator : α) : List α → Option Nat
  | [] => none
  | letter :: rest =>
    match lastIndexOf separator rest with
    | some place => some (place + 1)
    | none => if letter = separator then some 0 else none

/-- A text without the separator has no last one. -/
theorem lastIndexOf_eq_none : lastIndexOf separator text = none ↔ separator ∉ text := by
  induction text with
  | nil => exact iff_of_true rfl List.not_mem_nil
  | cons letter rest ih =>
    rw [lastIndexOf, List.mem_cons, not_or, ← ih]
    cases lastIndexOf separator rest with
    | some place => simp
    | none =>
      by_cases same : letter = separator
      · simp [same]
      · simp [same, Ne.symm same]

/-- The last separator of a text that is split there. -/
theorem lastIndexOf_append (plain : separator ∉ last) :
    lastIndexOf separator (front ++ separator :: last) = some front.length := by
  induction front with
  | nil =>
    rw [List.nil_append, lastIndexOf, lastIndexOf_eq_none.mpr plain]
    exact if_pos rfl
  | cons letter front ih => rw [List.cons_append, lastIndexOf, ih, List.length_cons]

/-- A text with a separator is split at the last one. -/
theorem exists_of_lastIndexOf {place : Nat} (found : lastIndexOf separator text = some place) :
    ∃ last, text = text.take place ++ separator :: last ∧ separator ∉ last ∧
      (text.take place).length = place := by
  induction text generalizing place with
  | nil => cases found
  | cons letter rest ih =>
    rw [lastIndexOf] at found
    cases later : lastIndexOf separator rest with
    | some place' =>
      rw [later] at found
      obtain ⟨last, split, plain, length⟩ := ih later
      obtain rfl := Option.some.inj found
      refine ⟨last, ?_, plain, ?_⟩
      · rw [List.take_succ_cons, List.cons_append, ← split]
      · rw [List.take_succ_cons, List.length_cons, length]
    | none =>
      rw [later] at found
      by_cases same : letter = separator
      · obtain rfl := Option.some.inj ((if_pos same).symm.trans found)
        exact ⟨rest, by rw [same]; rfl, lastIndexOf_eq_none.mp later, rfl⟩
      · cases (if_neg same).symm.trans found

omit [DecidableEq α] in
/-- What ends with a separator and begins a text ends in front of its last part. -/
theorem prefix_split_iff {part : List α} (plain : separator ∉ last) :
    part ++ [separator] <+: front ++ separator :: last ↔
      part = front ∨ part ++ [separator] <+: front := by
  constructor
  · rintro ⟨rest, whole⟩
    rw [List.append_assoc, List.singleton_append] at whole
    rcases List.append_eq_append_iff.mp whole with ⟨middle, split, tail⟩ | ⟨middle, split, tail⟩
    · cases middle with
      | nil =>
        rw [List.append_nil] at split
        exact .inl split.symm
      | cons letter middle =>
        obtain ⟨same, -⟩ := List.cons.inj tail
        rw [split, ← same]
        exact .inr ⟨middle, by rw [List.append_assoc]; rfl⟩
    · cases middle with
      | nil =>
        rw [List.append_nil] at split
        exact .inl split
      | cons letter middle =>
        obtain ⟨-, tail⟩ := List.cons.inj tail
        refine absurd ?_ plain
        rw [tail]
        exact List.mem_append_right _ List.mem_cons_self
  · rintro (rfl | before)
    · exact ⟨last, by rw [List.append_assoc]; rfl⟩
    · exact before.trans (List.prefix_append _ _)

end LastIndex

end FsChecking.Lib
