import FsChecking.RefFs.Slots
import Mathlib.Data.List.TakeWhile

/-!
# The directory tree

The used files form a tree: every file but the root is listed once by the directory that its path
names. What a change of a file, an addition, a removal and a move within a directory do to the
tree is said here, apart from the lists and the codes.
-/

namespace FsChecking.RefFs

open Lib

/-! ## Paths -/

/-- The parent of a path that is split at its last separator. -/
theorem parentPath_split {front name : Text} (plain : '\\' ∉ name) :
    parentPath (front ++ '\\' :: name) = some (if front = [] then ['\\'] else front) := by
  have drops : (front ++ '\\' :: name).reverse.dropWhile (· ≠ '\\') = '\\' :: front.reverse := by
    have reversed : (front ++ '\\' :: name).reverse = name.reverse ++ '\\' :: front.reverse := by
      simp
    rw [reversed, List.dropWhile_append_of_pos]
    · simp
    · intro letter member
      rw [List.mem_reverse] at member
      refine decide_eq_true ?_
      rintro rfl
      exact plain member
  unfold parentPath
  rw [drops]
  dsimp only
  by_cases empty : front = []
  · simp [empty]
  · simp [empty]

/-- A path with a separator can be split at its last one. -/
theorem exists_split {path : Text} (separated : '\\' ∈ path) :
    ∃ front name, '\\' ∉ name ∧ path = front ++ '\\' :: name := by
  induction path with
  | nil => cases separated
  | cons letter rest ih =>
    by_cases later : '\\' ∈ rest
    · obtain ⟨front, name, plain, rfl⟩ := ih later
      exact ⟨letter :: front, name, plain, rfl⟩
    · have here := (List.mem_cons.mp separated).resolve_right later
      exact ⟨[], rest, later, by rw [← here]; rfl⟩

/-- A path without a separator has no parent. -/
theorem parentPath_eq_none {path : Text} (plain : '\\' ∉ path) : parentPath path = none := by
  unfold parentPath
  have drops : path.reverse.dropWhile (· ≠ '\\') = [] := by
    rw [List.dropWhile_eq_nil_iff]
    intro letter member
    rw [List.mem_reverse] at member
    refine decide_eq_true ?_
    rintro rfl
    exact plain member
  rw [drops]

/-- How a path is split by its parent. -/
theorem of_parentPath {path parent : Text} (leads : parentPath path = some parent) :
    ∃ front name, '\\' ∉ name ∧ path = front ++ '\\' :: name ∧
      parent = if front = [] then ['\\'] else front := by
  by_cases separated : '\\' ∈ path
  · obtain ⟨front, name, plain, rfl⟩ := exists_split separated
    rw [parentPath_split plain] at leads
    exact ⟨front, name, plain, rfl, (Option.some.inj leads).symm⟩
  · rw [parentPath_eq_none separated] at leads
    cases leads

/-- A path is below itself. -/
theorem below_self (path : Text) : Below path path := by
  refine ⟨List.prefix_refl _, .inl ?_⟩
  simp

/-- The paths below another one, and that path. -/
theorem below_iff {src path : Text} :
    Below src path ↔ path = src ∨ ∃ rest, path = src ++ '\\' :: rest := by
  unfold Below
  constructor
  · rintro ⟨⟨rest, rfl⟩, ends⟩
    rw [List.drop_left] at ends
    rcases ends with none | some
    · rw [List.head?_eq_none_iff] at none
      exact .inl (by rw [none, List.append_nil])
    · obtain ⟨tail, rfl⟩ := List.head?_eq_some_iff.mp some
      exact .inr ⟨tail, rfl⟩
  · rintro (rfl | ⟨rest, rfl⟩)
    · exact below_self path
    · refine ⟨List.prefix_append .., .inr ?_⟩
      rw [List.drop_left]
      rfl

/-- What a path below another one becomes. -/
theorem moved_append {src dst rest : Text} (below : Below src (src ++ rest)) :
    moved src dst (src ++ rest) = dst ++ rest := by
  unfold moved
  rw [if_pos below, List.drop_left]

/-- The path itself becomes the destination. -/
theorem moved_self (src dst : Text) : moved src dst src = dst := by
  have moves := @moved_append src dst [] (by rw [List.append_nil]; exact below_self src)
  rwa [List.append_nil, List.append_nil] at moves

/-- The other paths stay. -/
theorem moved_of_not {src dst path : Text} (apart : ¬ Below src path) :
    moved src dst path = path := if_neg apart

/-- The parent of a path strictly below a path that is not empty. -/
theorem parentPath_below {top rest parent : Text} (notEmpty : top ≠ [])
    (leads : parentPath (top ++ '\\' :: rest) = some parent) :
    ∃ front, parent = top ++ front ∧ (front = [] ∨ front.head? = some '\\') ∧
      front.length ≤ rest.length ∧
      ∀ other, other ≠ [] → parentPath (other ++ '\\' :: rest) = some (other ++ front) := by
  obtain ⟨front, name, plain, split⟩ :=
    @exists_split ('\\' :: rest) List.mem_cons_self
  have parents : ∀ other : Text, other ≠ [] →
      parentPath (other ++ '\\' :: rest) = some (other ++ front) := by
    intro other full
    rw [split, ← List.append_assoc, parentPath_split plain, if_neg (by simp [full])]
  refine ⟨front, ?_, ?_, ?_, parents⟩
  · rw [parents top notEmpty] at leads
    exact (Option.some.inj leads).symm
  · cases front with
    | nil => exact .inl rfl
    | cons letter front =>
      rw [List.cons_append] at split
      obtain ⟨rfl, -⟩ := List.cons.inj split
      exact .inr rfl
  · have length := congrArg List.length split
    simp only [List.length_cons, List.length_append] at length
    omega

/-! ## Trees -/

/-- A file has its place below its parent. -/
structure Placed (fs : ReferenceFs) (used : List Nat) (child : Nat) : Prop where
  /-- The parent is used. -/
  used : (fs.files child).parent ∈ used
  /-- It is a directory. -/
  isDir : (fs.files (fs.files child).parent).isDir = true
  /-- Its path is that of the file without the last component. -/
  path : parentPath (fs.files child).fn = some (fs.files (fs.files child).parent).fn
  /-- It lists the file. -/
  listed : child ∈ (fs.files (fs.files child).parent).kids
  /-- The file is one level deeper. -/
  depth : (fs.files child).depth = (fs.files (fs.files child).parent).depth + 1

/-- The used files are a tree. -/
structure Tree (fs : ReferenceFs) (used : List Nat) : Prop where
  /-- The root is used. -/
  root : 0 ∈ used
  /-- The root is a directory. -/
  rootDir : (fs.files 0).isDir = true
  /-- The path of the root. -/
  rootPath : (fs.files 0).fn = ['\\']
  /-- The root has no parent. -/
  rootParent : (fs.files 0).parent = invalidIndex
  /-- The files are in the array. -/
  bounded : ∀ index ∈ used, index < maxFileNum
  /-- No two files have the same path. -/
  distinct : ∀ first ∈ used, ∀ second ∈ used,
    (fs.files first).fn = (fs.files second).fn → first = second
  /-- Every other file has its place. -/
  placed : ∀ child ∈ used, child ≠ 0 → Placed fs used child
  /-- The array of children. -/
  array : ∀ index ∈ used, (fs.files index).children.length = maxChildNum
  /-- The number of children. -/
  size : ∀ dir ∈ used, (fs.files dir).isDir = true → (fs.files dir).size ≤ maxChildNum
  /-- A directory lists no child twice. -/
  nodup : ∀ dir ∈ used, (fs.files dir).isDir = true → (fs.files dir).kids.Nodup
  /-- A directory lists used files that have it as their parent. -/
  kids : ∀ dir ∈ used, (fs.files dir).isDir = true → ∀ child ∈ (fs.files dir).kids,
    child ∈ used ∧ child ≠ 0 ∧ (fs.files child).parent = dir

namespace Tree

variable {fs fs' : ReferenceFs} {used : List Nat} {index child dir : Nat}

/-- The tree depends on the places of the used files. -/
theorem congr (tree : Tree fs used)
    (same : ∀ index ∈ used, SamePlace (fs.files index) (fs'.files index)) : Tree fs' used where
  root := tree.root
  rootDir := (same 0 tree.root).isDir.trans tree.rootDir
  rootPath := (same 0 tree.root).fn.trans tree.rootPath
  rootParent := (same 0 tree.root).parent.trans tree.rootParent
  bounded := tree.bounded
  distinct := by
    intro first firstUsed second secondUsed equal
    rw [(same first firstUsed).fn, (same second secondUsed).fn] at equal
    exact tree.distinct first firstUsed second secondUsed equal
  placed := by
    intro child member notRoot
    have placed := tree.placed child member notRoot
    have parent := same _ placed.used
    have here := same child member
    refine ⟨?_, ?_, ?_, ?_, ?_⟩
    · rw [here.parent]
      exact placed.used
    · rw [here.parent, parent.isDir]
      exact placed.isDir
    · rw [here.fn, here.parent, parent.fn]
      exact placed.path
    · rw [here.parent]
      exact (parent.kids placed.isDir).mem_iff.mpr placed.listed
    · rw [here.depth, here.parent, parent.depth]
      exact placed.depth
  array := fun index member => (same index member).children.trans (tree.array index member)
  size := by
    intro dir member isDir
    rw [(same dir member).isDir] at isDir
    rw [(same dir member).size isDir]
    exact tree.size dir member isDir
  nodup := by
    intro dir member isDir
    rw [(same dir member).isDir] at isDir
    exact ((same dir member).kids isDir).nodup_iff.mpr (tree.nodup dir member isDir)
  kids := by
    intro dir member isDir child listed
    rw [(same dir member).isDir] at isDir
    obtain ⟨childUsed, notRoot, parent⟩ :=
      tree.kids dir member isDir child (((same dir member).kids isDir).mem_iff.mp listed)
    exact ⟨childUsed, notRoot, (same child childUsed).parent.trans parent⟩

/-- The root has no link. -/
theorem parentLink_root (tree : Tree fs used) : fs.parentLink 0 = none := by
  unfold ReferenceFs.parentLink
  rw [tree.rootParent]
  rfl

/-- The link of another file. -/
theorem parentLink_eq (tree : Tree fs used) (member : child ∈ used) (notRoot : child ≠ 0) :
    fs.parentLink child = some (fs.files child).parent := by
  have inside := tree.bounded _ (tree.placed child member notRoot).used
  unfold ReferenceFs.parentLink
  rw [if_neg (by omega)]

/-- What a link of a used file says. -/
theorem of_parentLink (tree : Tree fs used) (member : child ∈ used)
    (link : fs.parentLink child = some dir) : child ≠ 0 ∧ (fs.files child).parent = dir := by
  have notRoot : child ≠ 0 := by
    rintro rfl
    rw [tree.parentLink_root] at link
    cases link
  exact ⟨notRoot, Option.some.inj ((tree.parentLink_eq member notRoot).symm.trans link)⟩

/-- The shape that the codes need. -/
theorem shape (tree : Tree fs used) (sized : ∀ index ∈ used, (fs.files index).Sized) :
    Shape fs used where
  inside := fun dir member isDir => by
    rw [tree.array dir member]
    exact tree.size dir member isDir
  nodup := tree.nodup
  kids := by
    intro dir member isDir child listed
    obtain ⟨childUsed, notRoot, parent⟩ := tree.kids dir member isDir child listed
    exact ⟨childUsed, by rw [tree.parentLink_eq childUsed notRoot, parent]⟩
  listed := by
    intro child member dir link
    obtain ⟨notRoot, rfl⟩ := tree.of_parentLink member link
    have placed := tree.placed child member notRoot
    exact ⟨placed.used, placed.isDir, placed.listed⟩
  sized := sized

/-- The way from a used file to the root. -/
theorem exists_path (tree : Tree fs used) (member : index ∈ used) :
    ∃ rest, Chain fs.parentLink (some index) (index :: rest) ∧ (index :: rest).Nodup ∧
      (∀ node ∈ index :: rest, node ∈ used) ∧
      ∀ node ∈ rest, (fs.files node).depth < (fs.files index).depth := by
  induction level : (fs.files index).depth using Nat.strong_induction_on generalizing index with
  | _ depth ih =>
    by_cases isRoot : index = 0
    · subst isRoot
      refine ⟨[], ⟨rfl, tree.parentLink_root⟩, List.nodup_singleton _, ?_, nofun⟩
      intro node onPath
      rw [List.mem_singleton.mp onPath]
      exact member
    · have placed := tree.placed index member isRoot
      have deeper := placed.depth
      obtain ⟨rest, chain, nodup, inside, lower⟩ := ih _ (by omega) placed.used rfl
      have below : ∀ node ∈ (fs.files index).parent :: rest,
          (fs.files node).depth < (fs.files index).depth := by
        intro node onPath
        rcases List.mem_cons.mp onPath with rfl | higher
        · omega
        · have less := lower node higher
          omega
      refine ⟨(fs.files index).parent :: rest, ⟨rfl, ?_⟩, ?_, ?_, fun node onPath =>
        level ▸ below node onPath⟩
      · rw [tree.parentLink_eq member isRoot]
        exact chain
      · refine List.nodup_cons.mpr ⟨fun onPath => ?_, nodup⟩
        exact absurd (below index onPath) (Nat.lt_irrefl _)
      · intro node onPath
        rcases List.mem_cons.mp onPath with rfl | higher
        · exact member
        · exact inside node higher

/-- A path to a used file finds it. -/
theorem find_eq (tree : Tree fs used) (member : index ∈ used) :
    used.find? (fun other => (fs.files other).fn = (fs.files index).fn) = some index := by
  have found : (used.find? fun other => (fs.files other).fn = (fs.files index).fn).isSome :=
    List.find?_isSome.mpr ⟨index, member, decide_eq_true rfl⟩
  obtain ⟨other, finds⟩ := Option.isSome_iff_exists.mp found
  have equal : (fs.files other).fn = (fs.files index).fn := by simpa using List.find?_some finds
  rw [finds, tree.distinct other (List.mem_of_find?_eq_some finds) index member equal]

/-- A path above the path of a used file belongs to a used file. -/
theorem ancestor_used (tree : Tree fs used) {top rest : Text} (notEmpty : top ≠ [])
    (member : index ∈ used) (path : (fs.files index).fn = top ++ '\\' :: rest) :
    ∃ other ∈ used, (fs.files other).fn = top := by
  induction level : rest.length using Nat.strong_induction_on generalizing index rest with
  | _ length ih =>
    have notRoot : index ≠ 0 := by
      rintro rfl
      rw [tree.rootPath] at path
      have lengths := congrArg List.length path
      have full := List.length_pos_iff.mpr notEmpty
      simp only [List.length_cons, List.length_nil, List.length_append] at lengths
      omega
    have placed := tree.placed index member notRoot
    have parentOf := placed.path
    rw [path] at parentOf
    obtain ⟨front, leads, ends, shorter, -⟩ := parentPath_below notEmpty parentOf
    rcases ends with rfl | begins
    · exact ⟨_, placed.used, by rw [leads, List.append_nil]⟩
    · obtain ⟨tail, rfl⟩ := List.head?_eq_some_iff.mp begins
      refine ih tail.length ?_ placed.used leads rfl
      rw [← level]
      simp only [List.length_cons] at shorter
      omega

/-- Paths of used files do not lie below a path that is not used. -/
theorem not_below (tree : Tree fs used) {top : Text} (notEmpty : top ≠ [])
    (unused : ∀ index ∈ used, (fs.files index).fn ≠ top) (member : index ∈ used) :
    ¬ Below top (fs.files index).fn := by
  intro below
  rcases below_iff.mp below with same | ⟨rest, path⟩
  · exact unused index member same
  · obtain ⟨other, otherUsed, same⟩ := tree.ancestor_used notEmpty member path
    exact unused other otherUsed same

/-- A path with a parent is not empty. -/
theorem notEmpty_of_parent {path parent : Text} (leads : parentPath path = some parent) :
    path ≠ [] := by
  rintro rfl
  cases leads

/-- What a move does to a path and to the path of its parent. -/
theorem parentPath_moved {src dst path parent : Text} (srcFull : src ≠ []) (notRoot : src ≠ ['\\'])
    (leads : parentPath path = some parent) (sameDir : parentPath dst = parentPath src)
    (dstFull : dst ≠ []) :
    parentPath (moved src dst path) = some (moved src dst parent) := by
  by_cases below : Below src path
  · rcases below_iff.mp below with rfl | ⟨rest, rfl⟩
    · -- The parent of the source is shorter than the source.
      have above : ¬ Below path parent := by
        intro itself
        obtain ⟨front, name, -, split, shape⟩ := of_parentPath leads
        have longer : path.length ≤ parent.length := itself.1.length_le
        have lengths := congrArg List.length split
        simp only [List.length_append, List.length_cons] at lengths
        split at shape
        · rename_i empty
          subst empty shape
          have single : name = [] := by
            rw [← List.length_eq_zero_iff]
            simp only [List.length_cons, List.length_nil] at longer lengths
            omega
          exact notRoot (by rw [split, single]; rfl)
        · subst shape
          omega
      rw [moved_self, moved_of_not above, sameDir, leads]
    · obtain ⟨front, rfl, ends, -, parents⟩ := parentPath_below srcFull leads
      have belowParent : Below src (src ++ front) := by
        rcases ends with rfl | begins
        · rw [List.append_nil]
          exact below_self src
        · obtain ⟨tail, rfl⟩ := List.head?_eq_some_iff.mp begins
          exact below_iff.mpr (.inr ⟨tail, rfl⟩)
      rw [moved_append below, moved_append belowParent, parents dst dstFull]
  · have above : ¬ Below src parent := by
      intro itself
      obtain ⟨front, name, -, split, shape⟩ := of_parentPath leads
      split at shape
      · subst shape
        rcases below_iff.mp itself with same | ⟨rest, same⟩
        · exact notRoot same.symm
        · have lengths := congrArg List.length same
          have full := List.length_pos_iff.mpr srcFull
          simp only [List.length_append, List.length_cons, List.length_nil] at lengths
          omega
      · subst shape
        refine below (below_iff.mpr (.inr ?_))
        rcases below_iff.mp itself with rfl | ⟨rest, rfl⟩
        · exact ⟨name, split⟩
        · exact ⟨rest ++ '\\' :: name, by rw [split]; simp⟩
    rw [moved_of_not below, moved_of_not above, leads]

/-- Moving within a directory to a path that is not used keeps the tree. -/
theorem move (tree : Tree fs used) {src dst : Text} (srcFull : src ≠ []) (notRoot : src ≠ ['\\'])
    (dstFull : dst ≠ []) (sameDir : parentPath dst = parentPath src)
    (free : ∀ index ∈ used, (fs.files index).fn ≠ dst)
    (files : ∀ index ∈ used,
      fs'.files index = { fs.files index with fn := moved src dst (fs.files index).fn }) :
    Tree fs' used := by
  have rootStays : moved src dst ['\\'] = ['\\'] := by
    refine moved_of_not fun below => ?_
    rcases below_iff.mp below with same | ⟨rest, same⟩
    · exact notRoot same.symm
    · have lengths := congrArg List.length same
      have full := List.length_pos_iff.mpr srcFull
      simp only [List.length_append, List.length_cons, List.length_nil] at lengths
      omega
  have clash : ∀ first ∈ used, ∀ second ∈ used, Below src (fs.files first).fn →
      ¬ Below src (fs.files second).fn →
      moved src dst (fs.files first).fn ≠ moved src dst (fs.files second).fn := by
    intro first firstUsed second secondUsed below apart equal
    rw [moved_of_not apart] at equal
    refine tree.not_below dstFull free secondUsed ?_
    rw [← equal]
    rcases below_iff.mp below with same | ⟨rest, path⟩
    · rw [same, moved_self]
      exact below_self dst
    · rw [path] at below ⊢
      rw [moved_append below]
      exact below_iff.mpr (.inr ⟨rest, rfl⟩)
  refine ⟨tree.root, ?_, ?_, ?_, tree.bounded, ?_, ?_, ?_, ?_, ?_, ?_⟩
  · rw [files 0 tree.root]
    exact tree.rootDir
  · rw [files 0 tree.root, tree.rootPath]
    exact rootStays
  · rw [files 0 tree.root]
    exact tree.rootParent
  · intro first firstUsed second secondUsed equal
    rw [files first firstUsed, files second secondUsed] at equal
    change moved src dst (fs.files first).fn = moved src dst (fs.files second).fn at equal
    refine tree.distinct first firstUsed second secondUsed ?_
    by_cases left : Below src (fs.files first).fn
    · by_cases right : Below src (fs.files second).fn
      · obtain ⟨⟨restLeft, pathLeft⟩, -⟩ := id left
        obtain ⟨⟨restRight, pathRight⟩, -⟩ := id right
        rw [← pathLeft] at left equal ⊢
        rw [← pathRight] at right equal ⊢
        rw [moved_append left, moved_append right] at equal
        rw [List.append_cancel_left equal]
      · exact absurd equal (clash first firstUsed second secondUsed left right)
    · by_cases right : Below src (fs.files second).fn
      · exact absurd equal.symm (clash second secondUsed first firstUsed right left)
      · rwa [moved_of_not left, moved_of_not right] at equal
  · intro child member other
    have placed := tree.placed child member other
    refine ⟨?_, ?_, ?_, ?_, ?_⟩
    · rw [files child member]
      exact placed.used
    · rw [files child member]
      change (fs'.files (fs.files child).parent).isDir = true
      rw [files _ placed.used]
      exact placed.isDir
    · rw [files child member]
      change parentPath (moved src dst (fs.files child).fn) =
        some (fs'.files (fs.files child).parent).fn
      rw [files _ placed.used]
      exact parentPath_moved srcFull notRoot placed.path sameDir dstFull
    · rw [files child member]
      change child ∈ (fs'.files (fs.files child).parent).kids
      rw [files _ placed.used]
      exact placed.listed
    · rw [files child member]
      change (fs.files child).depth = (fs'.files (fs.files child).parent).depth + 1
      rw [files _ placed.used]
      exact placed.depth
  · intro index member
    rw [files index member]
    exact tree.array index member
  · intro dir member isDir
    rw [files dir member] at isDir ⊢
    exact tree.size dir member isDir
  · intro dir member isDir
    rw [files dir member] at isDir ⊢
    exact tree.nodup dir member isDir
  · intro dir member isDir child listed
    rw [files dir member] at isDir listed
    obtain ⟨childUsed, other, parent⟩ := tree.kids dir member isDir child listed
    refine ⟨childUsed, other, ?_⟩
    rw [files child childUsed]
    exact parent

/-- The children after one has been appended. -/
theorem kids_append {file : RefFile} (room : file.size < file.children.length) (child : Nat) :
    ({ file with children := file.children.set file.size child, size := file.size + 1 } :
      RefFile).kids = file.kids ++ [child] := by
  change (file.children.set file.size child).take (file.size + 1) = file.children.take file.size ++ _
  rw [List.take_add_one, List.getElem?_set_self room, List.take_set_of_le (Nat.le_refl _)]
  rfl

/-- Adding a file to a directory. -/
theorem add (tree : Tree fs used) {path : Text} {parent fid : Nat} {isDir : Bool} {blank : RefFile}
    (fresh : index ∉ used) (inside : index < maxFileNum) (parentUsed : parent ∈ used)
    (parentDir : (fs.files parent).isDir = true) (room : (fs.files parent).size < maxChildNum)
    (unused : ∀ other ∈ used, (fs.files other).fn ≠ path)
    (leads : parentPath path = some (fs.files parent).fn)
    (self : fs'.files index = initFile blank parent (fs.files parent).depth path isDir fid)
    (grown : fs'.files parent =
      { fs.files parent with
        children := (fs.files parent).children.set (fs.files parent).size index
        size := (fs.files parent).size + 1 })
    (others : ∀ other ∈ used, other ≠ parent → fs'.files other = fs.files other) :
    Tree fs' (index :: used) := by
  have notRoot : index ≠ 0 := by
    rintro rfl
    exact fresh tree.root
  have kidsParent : (fs'.files parent).kids = (fs.files parent).kids ++ [index] := by
    rw [grown]
    exact kids_append (by rw [tree.array parent parentUsed]; exact room) index
  have noKids : (fs'.files index).kids = [] := by
    rw [self]
    exact List.take_zero
  -- The files that were used keep everything but the children of the parent.
  have same : ∀ other ∈ used, (fs'.files other).fn = (fs.files other).fn ∧
      (fs'.files other).parent = (fs.files other).parent ∧
      (fs'.files other).depth = (fs.files other).depth ∧
      (fs'.files other).isDir = (fs.files other).isDir ∧
      (fs'.files other).children.length = (fs.files other).children.length := by
    intro other member
    by_cases here : other = parent
    · rw [here, grown]
      exact ⟨rfl, rfl, rfl, rfl, List.length_set⟩
    · rw [others other member here]
      exact ⟨rfl, rfl, rfl, rfl, rfl⟩
  have kidsOf : ∀ other ∈ used, ∀ child, child ∈ (fs'.files other).kids ↔
      child ∈ (fs.files other).kids ∨ (other = parent ∧ child = index) := by
    intro other member child
    by_cases here : other = parent
    · rw [here, kidsParent, List.mem_append, List.mem_singleton]
      simp
    · rw [others other member here]
      simp [here]
  refine ⟨List.mem_cons_of_mem _ tree.root, ?_, ?_, ?_, ?_, ?_, ?_, ?_, ?_, ?_, ?_⟩
  · exact (same 0 tree.root).2.2.2.1.trans tree.rootDir
  · exact (same 0 tree.root).1.trans tree.rootPath
  · exact (same 0 tree.root).2.1.trans tree.rootParent
  · intro other member
    rcases List.mem_cons.mp member with rfl | before
    · exact inside
    · exact tree.bounded other before
  · intro first firstUsed second secondUsed equal
    have newPath : (fs'.files index).fn = path := by rw [self]; rfl
    rcases List.mem_cons.mp firstUsed with rfl | firstBefore <;>
      rcases List.mem_cons.mp secondUsed with rfl | secondBefore
    · rfl
    · rw [newPath, (same second secondBefore).1] at equal
      exact absurd equal.symm (unused second secondBefore)
    · rw [newPath, (same first firstBefore).1] at equal
      exact absurd equal (unused first firstBefore)
    · rw [(same first firstBefore).1, (same second secondBefore).1] at equal
      exact tree.distinct first firstBefore second secondBefore equal
  · intro child member other
    rcases List.mem_cons.mp member with rfl | before
    · have parentOf : (fs'.files child).parent = parent := by rw [self]; rfl
      have keeps := same parent parentUsed
      refine ⟨?_, ?_, ?_, ?_, ?_⟩ <;> rw [parentOf]
      · exact List.mem_cons_of_mem _ parentUsed
      · exact keeps.2.2.2.1.trans parentDir
      · rw [keeps.1, self]
        exact leads
      · exact (kidsOf parent parentUsed child).mpr (.inr ⟨rfl, rfl⟩)
      · rw [keeps.2.2.1, self]
        rfl
    · have placed := tree.placed child before other
      have keeps := same _ placed.used
      have here := same child before
      refine ⟨?_, ?_, ?_, ?_, ?_⟩ <;> rw [here.2.1]
      · exact List.mem_cons_of_mem _ placed.used
      · exact keeps.2.2.2.1.trans placed.isDir
      · rw [here.1, keeps.1]
        exact placed.path
      · exact (kidsOf _ placed.used child).mpr (.inl placed.listed)
      · rw [here.2.2.1, keeps.2.2.1]
        exact placed.depth
  · intro other member
    rcases List.mem_cons.mp member with rfl | before
    · rw [self]
      exact List.length_replicate
    · exact (same other before).2.2.2.2.trans (tree.array other before)
  · intro dir member isDir
    rcases List.mem_cons.mp member with rfl | before
    · rw [self]
      exact Nat.zero_le _
    · by_cases here : dir = parent
      · rw [here, grown]
        exact room
      · rw [others dir before here] at isDir ⊢
        exact tree.size dir before isDir
  · intro dir member isDir
    rcases List.mem_cons.mp member with rfl | before
    · rw [noKids]
      exact List.nodup_nil
    · by_cases here : dir = parent
      · rw [here, kidsParent]
        refine List.nodup_append.mpr ⟨tree.nodup parent parentUsed parentDir,
          List.nodup_singleton _, ?_⟩
        rintro child listed other isNew rfl
        rw [List.mem_singleton.mp isNew] at listed
        exact fresh (tree.kids parent parentUsed parentDir index listed).1
      · rw [others dir before here] at isDir ⊢
        exact tree.nodup dir before isDir
  · intro dir member isDir child listed
    rcases List.mem_cons.mp member with rfl | before
    · rw [noKids] at listed
      cases listed
    · rcases (kidsOf dir before child).mp listed with old | ⟨rfl, rfl⟩
      · rw [(same dir before).2.2.2.1] at isDir
        obtain ⟨childUsed, other, parentOf⟩ := tree.kids dir before isDir child old
        exact ⟨List.mem_cons_of_mem _ childUsed, other,
          (same child childUsed).2.1.trans parentOf⟩
      · exact ⟨List.mem_cons_self, notRoot, by rw [self]; rfl⟩

/-- Moving the last entry of a list over another one removes that one. -/
theorem erase_perm {front back : List Nat} {item last : Nat}
    (ends : (item :: back).getLast? = some last) (nodup : (front ++ item :: back).Nodup) :
    (((front ++ item :: back).set front.length last).take (front.length + back.length)).Perm
      ((front ++ item :: back).erase item) := by
  have absent : item ∉ front := fun member =>
    (List.nodup_append.mp nodup).2.2 item member item List.mem_cons_self rfl
  have sets : (front ++ item :: back).set front.length last = front ++ last :: back := by
    rw [List.set_append_right _ _ (Nat.le_refl _), Nat.sub_self, List.set_cons_zero]
  have takes : (front ++ last :: back).take (front.length + back.length) =
      front ++ (last :: back).take back.length := by
    rw [List.take_append, Nat.add_sub_cancel_left, List.take_of_length_le (Nat.le_add_right _ _)]
  rw [sets, takes, List.erase_append_right _ absent, List.erase_cons_head]
  refine List.Perm.append_left front ?_
  rcases List.eq_nil_or_concat back with rfl | ⟨init, final, rfl⟩
  · exact .refl _
  · rw [List.concat_eq_append] at ends ⊢
    have isLast : final = last := by
      rw [← List.cons_append, List.getLast?_concat] at ends
      exact Option.some.inj ends
    subst isLast
    rw [List.length_append, List.length_singleton, List.take_succ_cons, List.take_left]
    exact (List.perm_append_singleton final init).symm

/-- The children after `RemoveChild`. -/
theorem kids_remove {file : RefFile} {child position : Nat}
    (inside : file.size ≤ file.children.length) (nodup : file.kids.Nodup)
    (found : file.kids.findIdx? (· = child) = some position) :
    ({ file with
        size := file.size - 1
        children := (file.children.set position
          (file.children.getD (file.size - 1) 0)).set (file.size - 1) 0 } :
      RefFile).kids.Perm (file.kids.erase child) := by
  have length : file.kids.length = file.size := List.length_take_of_le inside
  obtain ⟨here, value, -⟩ := List.findIdx?_eq_some_iff_getElem.mp found
  have value : file.kids[position] = child := of_decide_eq_true value
  have split : file.kids = file.kids.take position ++ child :: file.kids.drop (position + 1) := by
    rw [← value, List.getElem_cons_drop, List.take_append_drop]
  have front : (file.kids.take position).length = position :=
    List.length_take_of_le (Nat.le_of_lt here)
  have back : (file.kids.drop (position + 1)).length = file.size - 1 - position := by
    rw [List.length_drop, length]
    omega
  have ends : (child :: file.kids.drop (position + 1)).getLast? =
      some (file.children.getD (file.size - 1) 0) := by
    have whole : (child :: file.kids.drop (position + 1)).getLast? = file.kids.getLast? := by
      conv_rhs => rw [split]
      rw [List.getLast?_append_of_ne_nil _ (List.cons_ne_nil _ _)]
    have entry : file.size - 1 < file.children.length := by omega
    rw [whole, List.getLast?_eq_getElem?, length,
      List.getD_eq_getElem?_getD, List.getElem?_eq_getElem entry, Option.getD_some]
    unfold RefFile.kids
    rw [List.getElem?_take_of_lt (by omega), List.getElem?_eq_getElem entry]
  have moves := @erase_perm (file.kids.take position) (file.kids.drop (position + 1)) child _ ends
    (split ▸ nodup)
  rw [← split, front, back] at moves
  have total : position + (file.size - 1 - position) = file.size - 1 := by omega
  rw [total] at moves
  refine List.Perm.trans (.of_eq ?_) moves
  change ((file.children.set position _).set (file.size - 1) 0).take (file.size - 1) = _
  rw [List.take_set_of_le (Nat.le_refl _)]
  unfold RefFile.kids
  rw [← List.take_set, List.take_take, Nat.min_eq_left (Nat.sub_le _ _)]

/-- A directory after `RemoveChild` has taken out the entry at a position. -/
def withoutChild (file : RefFile) (position : Nat) : RefFile :=
  { file with
    size := file.size - 1
    children := (file.children.set position
      (file.children.getD (file.size - 1) 0)).set (file.size - 1) 0 }

/-- Removing a file without children from its directory. -/
theorem remove (tree : Tree fs used) (nodupUsed : used.Nodup) (member : index ∈ used)
    (notRoot : index ≠ 0)
    (leaf : (fs.files index).isDir = true → (fs.files index).kids = []) {position : Nat}
    (found : (fs.files (fs.files index).parent).kids.findIdx? (· = index) = some position) :
    Tree (fs.setFile (fs.files index).parent
      (withoutChild (fs.files (fs.files index).parent) position)) (used.erase index) := by
  let parent := (fs.files index).parent
  let fs' := fs.setFile parent (withoutChild (fs.files parent) position)
  change Tree fs' _
  have placed := tree.placed index member notRoot
  have insideParent : (fs.files parent).size ≤ (fs.files parent).children.length := by
    rw [tree.array parent placed.used]
    exact tree.size parent placed.used placed.isDir
  have nodupParent := tree.nodup parent placed.used placed.isDir
  have kidsParent : (fs'.files parent).kids.Perm ((fs.files parent).kids.erase index) := by
    change ((fs.setFile parent _).files parent).kids.Perm _
    rw [ReferenceFs.setFile_self]
    exact kids_remove insideParent nodupParent found
  have still : ∀ other, other ∈ used.erase index → other ∈ used ∧ other ≠ index :=
    fun other listed => ((nodupUsed.mem_erase_iff).mp listed).symm
  have stays : ∀ other, other ∈ used → other ≠ index → other ∈ used.erase index :=
    fun other listed apart => (nodupUsed.mem_erase_iff).mpr ⟨apart, listed⟩
  have others : ∀ other, other ≠ parent → fs'.files other = fs.files other :=
    fun other apart => ReferenceFs.setFile_of_ne apart _
  have same : ∀ other, (fs'.files other).fn = (fs.files other).fn ∧
      (fs'.files other).parent = (fs.files other).parent ∧
      (fs'.files other).depth = (fs.files other).depth ∧
      (fs'.files other).isDir = (fs.files other).isDir ∧
      (fs'.files other).children.length = (fs.files other).children.length := by
    intro other
    by_cases here : other = parent
    · have self : fs'.files parent = withoutChild (fs.files parent) position :=
        ReferenceFs.setFile_self ..
      rw [here, self]
      refine ⟨rfl, rfl, rfl, rfl, ?_⟩
      simp [withoutChild]
    · rw [others other here]
      exact ⟨rfl, rfl, rfl, rfl, rfl⟩
  have kidsOf : ∀ other ∈ used, (fs.files other).isDir = true → ∀ child,
      child ∈ (fs'.files other).kids ↔ child ∈ (fs.files other).kids ∧ child ≠ index := by
    intro other listed isDir child
    by_cases here : other = parent
    · rw [here, kidsParent.mem_iff, nodupParent.mem_erase_iff]
      exact and_comm
    · rw [others other here]
      refine ⟨fun kid => ⟨kid, ?_⟩, And.left⟩
      rintro rfl
      exact here (tree.kids other listed isDir child kid).2.2.symm
  -- No remaining file lies in the one that is removed.
  have notParent : ∀ child ∈ used, child ≠ 0 → (fs.files child).parent ≠ index := by
    intro child listed other itself
    have lies := tree.placed child listed other
    have isDir := lies.isDir
    have kid := lies.listed
    rw [itself] at isDir kid
    rw [leaf isDir] at kid
    cases kid
  refine ⟨stays 0 tree.root (Ne.symm notRoot), ?_, ?_, ?_, ?_, ?_, ?_, ?_, ?_, ?_, ?_⟩
  · exact (same 0).2.2.2.1.trans tree.rootDir
  · exact (same 0).1.trans tree.rootPath
  · exact (same 0).2.1.trans tree.rootParent
  · exact fun other listed => tree.bounded other (still other listed).1
  · intro first firstUsed second secondUsed equal
    rw [(same first).1, (same second).1] at equal
    exact tree.distinct first (still first firstUsed).1 second (still second secondUsed).1 equal
  · intro child listed other
    obtain ⟨childUsed, apart⟩ := still child listed
    have lies := tree.placed child childUsed other
    refine ⟨?_, ?_, ?_, ?_, ?_⟩ <;> rw [(same child).2.1]
    · exact stays _ lies.used (notParent child childUsed other)
    · exact (same _).2.2.2.1.trans lies.isDir
    · rw [(same child).1, (same _).1]
      exact lies.path
    · exact (kidsOf _ lies.used lies.isDir child).mpr ⟨lies.listed, apart⟩
    · rw [(same child).2.2.1, (same _).2.2.1]
      exact lies.depth
  · exact fun other listed =>
      (same other).2.2.2.2.trans (tree.array other (still other listed).1)
  · intro dir listed isDir
    rw [(same dir).2.2.2.1] at isDir
    have bound := tree.size dir (still dir listed).1 isDir
    by_cases here : dir = parent
    · have self : fs'.files parent = withoutChild (fs.files parent) position :=
        ReferenceFs.setFile_self ..
      rw [here] at bound ⊢
      rw [self]
      exact Nat.le_trans (Nat.sub_le _ _) bound
    · rw [others dir here]
      exact bound
  · intro dir listed isDir
    rw [(same dir).2.2.2.1] at isDir
    by_cases here : dir = parent
    · rw [here]
      exact kidsParent.nodup_iff.mpr (nodupParent.erase index)
    · rw [others dir here]
      exact tree.nodup dir (still dir listed).1 isDir
  · intro dir listed isDir child kid
    rw [(same dir).2.2.2.1] at isDir
    obtain ⟨old, apart⟩ := (kidsOf dir (still dir listed).1 isDir child).mp kid
    obtain ⟨childUsed, other, parentOf⟩ := tree.kids dir (still dir listed).1 isDir child old
    exact ⟨stays child childUsed apart, other, (same child).2.1.trans parentOf⟩

end Tree

end FsChecking.RefFs
