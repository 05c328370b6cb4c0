import Mathlib.Data.List.Chain
import Mathlib.Data.List.Nodup
import Mathlib.Logic.Function.Basic

/-!
# Circular doubly linked lists

A ring of nodes, each of which knows the next and the previous one. The ring is entered at its last
node, where nodes are inserted and removed.
-/

namespace FsChecking.Lib

variable {ν : Type}

/-- The second node follows the first one. -/
def Linked (next prev : ν → ν) (first second : ν) : Prop :=
  next first = second ∧ prev second = first

/-- Following the links from the first node visits the listed nodes and returns to it. -/
def Ring (next prev : ν → ν) : List ν → Prop
  | [] => False
  | first :: rest => (first :: rest ++ [first]).IsChain (Linked next prev)

/-- Neighbours in a list without repetitions: the first one is not the last node of the list, and
the second one is not its first node. -/
theorem isChain_imp_of_nodup {R S : ν → ν → Prop} {nodes : List ν} (nodup : nodes.Nodup)
    (step : ∀ first ∈ nodes, ∀ second ∈ nodes, some first ≠ nodes.getLast? →
      some second ≠ nodes.head? → R first second → S first second)
    (chain : nodes.IsChain R) : nodes.IsChain S := by
  rw [List.isChain_iff_forall_rel_of_append_cons_cons] at chain ⊢
  intro first second front back split
  subst split
  refine step first (by simp) second (by simp) ?_ ?_ (chain rfl)
  · intro last
    have listed : first ∈ second :: back := by
      have ends : (front ++ first :: second :: back).getLast? = (second :: back).getLast? := by
        rw [List.getLast?_append_of_ne_nil _ (List.cons_ne_nil _ _), List.getLast?_cons_cons]
      rw [ends] at last
      exact List.mem_of_getLast? last.symm
    exact (List.nodup_cons.mp (List.nodup_append.mp nodup).2.1).1 listed
  · intro start
    cases front with
    | nil =>
      obtain rfl := Option.some.inj start
      exact (List.nodup_cons.mp nodup).1 List.mem_cons_self
    | cons node front =>
      obtain rfl := Option.some.inj start
      exact (List.nodup_cons.mp nodup).1 (by simp)

namespace Ring

variable {next prev next' prev' : ν → ν} {front nodes : List ν} {first last new : ν}

/-- A ring depends on the links of its nodes. -/
theorem congr (ring : Ring next prev nodes) (sameNext : ∀ node ∈ nodes, next' node = next node)
    (samePrev : ∀ node ∈ nodes, prev' node = prev node) : Ring next' prev' nodes := by
  cases nodes with
  | nil => exact ring
  | cons first rest =>
    refine List.IsChain.imp_of_mem_imp (fun node node' listed listed' linked => ?_) ring
    have inside : ∀ node ∈ first :: rest ++ [first], node ∈ first :: rest := by
      intro node listed
      rcases List.mem_append.mp listed with inside | last
      · exact inside
      · rw [List.mem_singleton.mp last]
        exact List.mem_cons_self
    exact ⟨(sameNext node (inside node listed)).trans linked.1,
      (samePrev node' (inside node' listed')).trans linked.2⟩

/-- A ring of one node. -/
theorem singleton_iff : Ring next prev [last] ↔ next last = last ∧ prev last = last := by
  change [last, last].IsChain _ ↔ _
  rw [List.isChain_pair]
  rfl

/-- The last node leads back to the first one. -/
theorem next_last (ring : Ring next prev (first :: front ++ [last])) :
    next last = first ∧ prev first = last := by
  change (first :: (front ++ [last]) ++ [first]).IsChain _ at ring
  have split : first :: (front ++ [last]) ++ [first] = (first :: front) ++ last :: [first] := by
    simp
  rw [split, List.isChain_split, List.isChain_pair] at ring
  exact ring.2

/-- A new node is inserted behind the last one. -/
theorem insert [DecidableEq ν] (ring : Ring next prev (front ++ [last]))
    (nodup : (front ++ [last]).Nodup) (fresh : new ∉ front ++ [last]) :
    Ring (Function.update (Function.update next new (next last)) last new)
      (Function.update (Function.update prev new last) (next last) new)
      (front ++ [last, new]) := by
  have apart : last ≠ new := fun same => fresh (same ▸ by simp)
  cases front with
  | nil =>
    obtain ⟨itself, -⟩ := singleton_iff.mp ring
    rw [itself]
    change [last, new, last].IsChain _
    rw [List.isChain_cons_cons, List.isChain_pair]
    refine ⟨⟨Function.update_self .., ?_⟩, ⟨?_, Function.update_self ..⟩⟩
    · rw [Function.update_of_ne apart.symm, Function.update_self]
    · rw [Function.update_of_ne apart.symm, Function.update_self]
  | cons first front =>
    obtain ⟨back, -⟩ := next_last ring
    have firstApart : first ≠ new := fun same => fresh (same ▸ by simp)
    have firstLast : first ≠ last := fun same =>
      (List.nodup_cons.mp nodup).1 (same ▸ List.mem_append_right _ (List.mem_singleton_self _))
    rw [back]
    have split : first :: (front ++ [last, new]) ++ [first] =
        (first :: front) ++ last :: [new, first] := by simp
    change (first :: (front ++ [last, new]) ++ [first]).IsChain _
    rw [split, List.isChain_split, List.isChain_cons_cons, List.isChain_pair]
    refine ⟨?_, ⟨Function.update_self .., ?_⟩, ⟨?_, Function.update_self ..⟩⟩
    · have inner : (first :: front ++ [last]).IsChain (Linked next prev) := by
        change (first :: (front ++ [last]) ++ [first]).IsChain _ at ring
        exact ring.left_of_append
      refine isChain_imp_of_nodup nodup (fun node listed node' listed' notLast notFirst linked => ?_)
        inner
      have nodeLast : node ≠ last := by
        rintro rfl
        exact notLast (by rw [List.getLast?_append_of_ne_nil _ (List.cons_ne_nil _ _)]; rfl)
      have nodeFirst : node' ≠ first := by
        rintro rfl
        exact notFirst rfl
      have nodeNew : node ≠ new := fun same => fresh (same ▸ listed)
      have nodeNew' : node' ≠ new := fun same => fresh (same ▸ listed')
      refine ⟨?_, ?_⟩
      · rw [Function.update_of_ne nodeLast, Function.update_of_ne nodeNew]
        exact linked.1
      · rw [Function.update_of_ne nodeFirst, Function.update_of_ne nodeNew']
        exact linked.2
    · rw [Function.update_of_ne firstApart.symm, Function.update_self]
    · rw [Function.update_of_ne apart.symm, Function.update_self]

/-- The last node is alone exactly when it follows itself. -/
theorem alone_iff (ring : Ring next prev (front ++ [last])) (nodup : (front ++ [last]).Nodup) :
    next last = last ∧ prev last = last ↔ front = [] := by
  cases front with
  | nil => exact iff_of_true (singleton_iff.mp ring) rfl
  | cons first front =>
    obtain ⟨back, -⟩ := next_last ring
    refine iff_of_false (fun alone => ?_) (List.cons_ne_nil _ _)
    rw [back] at alone
    exact (List.nodup_cons.mp nodup).1 (alone.1 ▸ List.mem_append_right _
      (List.mem_singleton_self _))

/-- The node in front of the last one. -/
theorem prev_last {before : ν} (ring : Ring next prev (front ++ [before, last])) :
    prev last = before := by
  cases front with
  | nil =>
    change [before, last, before].IsChain _ at ring
    rw [List.isChain_cons_cons] at ring
    exact ring.1.2
  | cons first front =>
    change (first :: (front ++ [before, last]) ++ [first]).IsChain _ at ring
    have split : first :: (front ++ [before, last]) ++ [first] =
        (first :: front) ++ before :: [last, first] := by simp
    rw [split, List.isChain_split, List.isChain_cons_cons] at ring
    exact ring.2.1.2

/-- The last node is taken out. -/
theorem remove [DecidableEq ν] {before : ν} (ring : Ring next prev (front ++ [before, last]))
    (nodup : (front ++ [before, last]).Nodup) :
    Ring (Function.update next before (next last)) (Function.update prev (next last) before)
      (front ++ [before]) := by
  have beforeLast : before ≠ last := by
    intro same
    have tail := (List.nodup_append.mp nodup).2.1
    exact (List.nodup_cons.mp tail).1 (same ▸ List.mem_singleton_self _)
  cases front with
  | nil =>
    change [before, last, before].IsChain _ at ring
    rw [List.isChain_cons_cons, List.isChain_pair] at ring
    rw [ring.2.1]
    exact singleton_iff.mpr ⟨Function.update_self .., Function.update_self ..⟩
  | cons first front =>
    have whole : first :: front ++ [before, last] = first :: (front ++ [before]) ++ [last] := by
      simp
    rw [whole] at ring nodup
    obtain ⟨back, -⟩ := next_last ring
    rw [back]
    change (first :: (front ++ [before] ++ [last]) ++ [first]).IsChain _ at ring
    have split : first :: (front ++ [before]) ++ [first] =
        (first :: front) ++ before :: [first] := by simp
    change (first :: (front ++ [before]) ++ [first]).IsChain _
    rw [split, List.isChain_split, List.isChain_pair]
    refine ⟨?_, Function.update_self .., Function.update_self ..⟩
    have inner : (first :: front ++ [before]).IsChain (Linked next prev) := by
      have longer : first :: (front ++ [before] ++ [last]) ++ [first] =
          (first :: front ++ [before]) ++ [last, first] := by simp
      rw [longer] at ring
      exact ring.left_of_append
    have shorter : (first :: front ++ [before]).Nodup := (List.nodup_append.mp nodup).1
    refine isChain_imp_of_nodup shorter (fun node listed node' listed' notLast notFirst linked => ?_)
      inner
    have nodeLast : node ≠ before := by
      rintro rfl
      exact notLast (by rw [List.getLast?_append_of_ne_nil _ (List.cons_ne_nil _ _)]; rfl)
    have nodeFirst : node' ≠ first := by
      rintro rfl
      exact notFirst rfl
    refine ⟨?_, ?_⟩
    · rw [Function.update_of_ne nodeLast]
      exact linked.1
    · rw [Function.update_of_ne nodeFirst]
      exact linked.2

end Ring

end FsChecking.Lib
