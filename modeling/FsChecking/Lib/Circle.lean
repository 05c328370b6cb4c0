import FsChecking.Lib.Ring

/-!
# Circular singly linked queues

A queue of nodes whose last node leads back to the first one. Nodes enter behind the last node and
leave in front, and only the successor of the last node has to be redirected.
-/

namespace FsChecking.Lib

variable {ν : Type}

/-- Following `next` from the first node visits the listed nodes and returns to it. -/
def Circle (next : ν → ν) : List ν → Prop
  | [] => False
  | first :: rest => (first :: rest ++ [first]).IsChain fun node following => next node = following

namespace Circle

variable {next next' : ν → ν} {front middle nodes : List ν} {first last new : ν}

/-- A circle depends on the successors of its own nodes. -/
theorem congr (circle : Circle next nodes) (same : ∀ node ∈ nodes, next' node = next node) :
    Circle next' nodes := by
  cases nodes with
  | nil => exact circle
  | cons first rest =>
    refine List.IsChain.imp_of_mem_imp (fun node node' listed _ linked => ?_) circle
    have inside : node ∈ first :: rest := by
      rcases List.mem_append.mp listed with inside | last
      · exact inside
      · rw [List.mem_singleton.mp last]
        exact List.mem_cons_self
    exact (same node inside).trans linked

/-- A circle of one node. -/
theorem singleton_iff : Circle next [last] ↔ next last = last := by
  change [last, last].IsChain _ ↔ _
  rw [List.isChain_pair]

/-- The last node leads back to the first one. -/
theorem next_last (circle : Circle next (first :: front ++ [last])) : next last = first := by
  change (first :: (front ++ [last]) ++ [first]).IsChain _ at circle
  have split : first :: (front ++ [last]) ++ [first] = (first :: front) ++ last :: [first] := by
    simp
  rw [split, List.isChain_split, List.isChain_pair] at circle
  exact circle.2

/-- The successor of a node of a circle is in the circle. -/
theorem next_mem (circle : Circle next nodes) {node : ν} (member : node ∈ nodes) :
    next node ∈ nodes := by
  cases nodes with
  | nil => cases member
  | cons first rest =>
    obtain ⟨before, after, split⟩ := List.append_of_mem member
    change (first :: rest ++ [first]).IsChain _ at circle
    have wrapped : ∀ other, other ∈ first :: rest ++ [first] → other ∈ first :: rest := by
      intro other listed
      rcases List.mem_append.mp listed with inside | back
      · exact inside
      · rw [List.mem_singleton.mp back]
        exact List.mem_cons_self
    cases after with
    | nil =>
      rw [split, List.append_assoc, List.cons_append, List.nil_append, List.isChain_split,
        List.isChain_pair] at circle
      rw [circle.2]
      exact List.mem_cons_self
    | cons following after =>
      rw [split, List.append_assoc, List.cons_append, List.isChain_split, List.cons_append,
        List.isChain_cons_cons] at circle
      rw [circle.2.1, split]
      simp

/-- A node enters behind the last one. -/
theorem enqueue [DecidableEq ν] (circle : Circle next (front ++ [last]))
    (nodup : (front ++ [last]).Nodup) (fresh : new ∉ front ++ [last]) :
    Circle (Function.update (Function.update next new (next last)) last new)
      (front ++ [last, new]) := by
  have apart : last ≠ new := fun same => fresh (same ▸ by simp)
  cases front with
  | nil =>
    have itself := singleton_iff.mp circle
    rw [itself]
    change [last, new, last].IsChain _
    rw [List.isChain_cons_cons, List.isChain_pair]
    refine ⟨Function.update_self .., ?_⟩
    rw [Function.update_of_ne apart.symm, Function.update_self]
  | cons first front =>
    have back := next_last circle
    rw [back]
    have split : first :: (front ++ [last, new]) ++ [first] =
        (first :: front) ++ last :: [new, first] := by simp
    change (first :: (front ++ [last, new]) ++ [first]).IsChain _
    rw [split, List.isChain_split, List.isChain_cons_cons, List.isChain_pair]
    refine ⟨?_, Function.update_self .., ?_⟩
    · have inner : (first :: front ++ [last]).IsChain fun node following => next node = following := by
        change (first :: (front ++ [last]) ++ [first]).IsChain _ at circle
        exact circle.left_of_append
      refine isChain_imp_of_nodup nodup (fun node listed node' _ notLast _ linked => ?_) inner
      have nodeLast : node ≠ last := by
        rintro rfl
        exact notLast (by rw [List.getLast?_append_of_ne_nil _ (List.cons_ne_nil _ _)]; rfl)
      have nodeNew : node ≠ new := fun same => fresh (same ▸ listed)
      rw [Function.update_of_ne nodeLast, Function.update_of_ne nodeNew]
      exact linked
    · rw [Function.update_of_ne apart.symm, Function.update_self]

/-- The first node leaves. -/
theorem dequeue [DecidableEq ν] (circle : Circle next (first :: (middle ++ [last])))
    (nodup : (first :: (middle ++ [last])).Nodup) :
    Circle (Function.update next last (next first)) (middle ++ [last]) := by
  change (first :: (middle ++ [last]) ++ [first]).IsChain _ at circle
  cases middle with
  | nil =>
    have follows : next first = last := by
      change [first, last, first].IsChain _ at circle
      rw [List.isChain_cons_cons] at circle
      exact circle.1
    rw [follows]
    exact singleton_iff.mpr (Function.update_self ..)
  | cons second middle =>
    have shape : first :: (second :: middle ++ [last]) ++ [first] =
        first :: second :: (middle ++ [last] ++ [first]) := by simp
    rw [shape, List.isChain_cons_cons] at circle
    obtain ⟨follows, tail⟩ := circle
    rw [follows]
    have split : second :: (middle ++ [last]) ++ [second] =
        (second :: middle) ++ last :: [second] := by simp
    change (second :: (middle ++ [last]) ++ [second]).IsChain _
    rw [split, List.isChain_split, List.isChain_pair]
    refine ⟨?_, Function.update_self ..⟩
    have inner : (second :: middle ++ [last]).IsChain fun node following => next node = following := by
      have longer : second :: (middle ++ [last] ++ [first]) =
          (second :: middle ++ [last]) ++ [first] := by simp
      rw [longer] at tail
      exact tail.left_of_append
    refine isChain_imp_of_nodup (List.nodup_cons.mp nodup).2
      (fun node _ node' _ notLast _ linked => ?_) inner
    have nodeLast : node ≠ last := by
      rintro rfl
      exact notLast (by rw [List.getLast?_append_of_ne_nil _ (List.cons_ne_nil _ _)]; rfl)
    rw [Function.update_of_ne nodeLast]
    exact linked

/-- The first node leads to the second one. -/
theorem next_first {second : ν} {rest : List ν} (circle : Circle next (first :: second :: rest)) :
    next first = second := by
  change (first :: second :: (rest ++ [first])).IsChain _ at circle
  rw [List.isChain_cons_cons] at circle
  exact circle.1

end Circle

end FsChecking.Lib
