import FsChecking.RefFs.Canonical
import Mathlib.Data.Set.Function

/-!
# Equal codes and isomorphic trees

Two states whose codes are up to date have equal codes at their roots exactly when their trees are
isomorphic. From equal codes, the files at equal positions are matched from the roots downwards;
from an isomorphism, the codes are compared from the files upwards.
-/

namespace FsChecking.RefFs

open Lib

variable {fs fs' : ReferenceFs} {used free used' free' : List Nat} {index index' : Nat}

/-- The code of a directory that agrees with its children. -/
theorem Kept.code_dir (kept : Kept True fs used free) (member : index ∈ used)
    (isDir : (fs.files index).isDir = true) :
    (fs.files index).kids.Pairwise fs.Before ∧ (fs.files index).code =
      '[' :: ((fs.files index).kids.map fun child => (fs.files child).code).flatten ++ [']'] := by
  have refreshed := kept.coded.dirs index member isDir
  unfold ReferenceFs.Refreshed at refreshed
  rwa [if_pos isDir] at refreshed

/-- The code of a file. -/
theorem Kept.code_file (kept : Kept True fs used free) (member : index ∈ used)
    (isFile : (fs.files index).isDir = false) :
    (fs.files index).code = leafCode (fs.files index).version (fs.files index).isOpen := by
  rw [kept.coded.labelled index member isFile (.inl trivial), RefFile.label_eq]

/-- The children of a directory are its files. -/
theorem Tree.mem_kids (tree : Tree fs used) (member : index ∈ used)
    (isDir : (fs.files index).isDir = true) {child : Nat} :
    child ∈ (fs.files index).kids ↔ child ∈ used ∧ child ≠ 0 ∧ (fs.files child).parent = index := by
  refine ⟨tree.kids index member isDir child, ?_⟩
  rintro ⟨childUsed, notRoot, rfl⟩
  exact (tree.placed child childUsed notRoot).listed

/-- The code of a child is shorter than that of its directory. -/
theorem Kept.code_lt (kept : Kept True fs used free) (member : index ∈ used)
    (isDir : (fs.files index).isDir = true) {child : Nat}
    (listed : child ∈ (fs.files index).kids) :
    (fs.files child).code.length < (fs.files index).code.length := by
  have inside := (List.sublist_flatten_of_mem
    (List.mem_map_of_mem (f := fun child => (fs.files child).code) listed)).length_le
  rw [(kept.code_dir member isDir).2]
  simp only [List.length_append, List.length_cons]
  omega

/-- The codes of used files are codes of trees. -/
theorem Kept.isCode (kept : Kept True fs used free) (member : index ∈ used) :
    IsCode (fs.files index).code := by
  induction size : (fs.files index).code.length using Nat.strong_induction_on
    generalizing index with
  | _ length ih =>
    cases kind : (fs.files index).isDir with
    | false =>
      rw [kept.code_file member kind]
      exact .leaf _ _
    | true =>
      rw [(kept.code_dir member kind).2]
      refine .node _ fun code listed => ?_
      obtain ⟨child, kid, rfl⟩ := List.mem_map.mp listed
      have shorter := kept.code_lt member kind kid
      exact ih _ (size ▸ shorter) (kept.tree.kids index member kind child kid).1 rfl

/-- The text that children are sorted by begins with their code. -/
theorem Kept.sortKey_eq (kept : Kept True fs used free) (member : index ∈ used) :
    ∃ rest, (fs.files index).sortKey = (fs.files index).code ++ rest := by
  have plain := (kept.isCode member).plain
  have split : (fs.files index).encode = (fs.files index).code ++
      (fs.files index).encode.drop (fs.files index).encodeSize :=
    (List.take_append_drop _ _).symm
  unfold RefFile.sortKey
  rw [split, List.takeWhile_append_of_pos]
  · exact ⟨_, rfl⟩
  · intro char listed
    refine decide_eq_true ?_
    rintro rfl
    exact plain listed

/-- The codes of the children of a directory are sorted. -/
theorem Kept.codes_sorted (kept : Kept True fs used free) (member : index ∈ used)
    (isDir : (fs.files index).isDir = true) :
    ((fs.files index).kids.map fun child => (fs.files child).code).Pairwise (· ≤ ·) := by
  rw [List.pairwise_map]
  refine (kept.code_dir member isDir).1.imp_of_mem fun {first second} listed listed' before => ?_
  have firstUsed := (kept.tree.kids index member isDir first listed).1
  have secondUsed := (kept.tree.kids index member isDir second listed').1
  obtain ⟨rest, key⟩ := kept.sortKey_eq firstUsed
  obtain ⟨rest', key'⟩ := kept.sortKey_eq secondUsed
  unfold ReferenceFs.Before at before
  rw [key, key'] at before
  exact le_of_append_le
    (fun comparable => (kept.isCode firstUsed).eq_of_comparable (kept.isCode secondUsed) comparable)
    before

/-- What equal codes say. -/
theorem code_eq_cases (kept : Kept True fs used free) (kept' : Kept True fs' used' free')
    (member : index ∈ used) (member' : index' ∈ used')
    (same : (fs.files index).code = (fs'.files index').code) :
    ((fs'.files index').isDir = (fs.files index).isDir) ∧
      ((fs.files index).isDir = false → (fs'.files index').version = (fs.files index).version ∧
        (fs'.files index').isOpen = (fs.files index).isOpen) ∧
      ((fs.files index).isDir = true →
        ((fs.files index).kids.map fun child => (fs.files child).code) =
          (fs'.files index').kids.map fun child => (fs'.files child).code) := by
  cases kind : (fs.files index).isDir with
  | false =>
    rw [kept.code_file member kind] at same
    cases kind' : (fs'.files index').isDir with
    | false =>
      rw [kept'.code_file member' kind'] at same
      obtain ⟨versions, flags⟩ := leafCode_inj same
      exact ⟨rfl, fun _ => ⟨versions.symm, flags.symm⟩, nofun⟩
    | true =>
      rw [(kept'.code_dir member' kind').2] at same
      cases (List.cons.inj same).1
  | true =>
    rw [(kept.code_dir member kind).2] at same
    cases kind' : (fs'.files index').isDir with
    | false =>
      rw [kept'.code_file member' kind'] at same
      cases (List.cons.inj same).1
    | true =>
      rw [(kept'.code_dir member' kind').2] at same
      have codes : ∀ code ∈ (fs.files index).kids.map fun child => (fs.files child).code,
          IsCode code := by
        intro code listed
        obtain ⟨child, kid, rfl⟩ := List.mem_map.mp listed
        exact kept.isCode (kept.tree.kids index member kind child kid).1
      have codes' : ∀ code ∈ (fs'.files index').kids.map fun child => (fs'.files child).code,
          IsCode code := by
        intro code listed
        obtain ⟨child, kid, rfl⟩ := List.mem_map.mp listed
        exact kept'.isCode (kept'.tree.kids index' member' kind' child kid).1
      exact ⟨rfl, nofun, fun _ => IsCode.node_inj codes codes' same⟩

/-! ## Isomorphisms -/

/-- A map of the files of one state to those of another one that preserves the tree and the labels
of the files. -/
structure Isomorphism (fs fs' : ReferenceFs) (map : Nat → Nat) : Prop where
  /-- It is a bijection of the used files. -/
  bijective : Set.BijOn map {index | index ∈ fs.usedFiles} {index | index ∈ fs'.usedFiles}
  /-- It preserves the root. -/
  root : map 0 = 0
  /-- It preserves the parents. -/
  parent : ∀ child ∈ fs.usedFiles, child ≠ 0 →
    (fs'.files (map child)).parent = map (fs.files child).parent
  /-- It preserves the kinds. -/
  isDir : ∀ index ∈ fs.usedFiles, (fs'.files (map index)).isDir = (fs.files index).isDir
  /-- It preserves the number of blocks, in units of `SCALE`. -/
  version : ∀ index ∈ fs.usedFiles, (fs.files index).isDir = false →
    (fs'.files (map index)).version = (fs.files index).version
  /-- It preserves which files are open. -/
  isOpen : ∀ index ∈ fs.usedFiles, (fs.files index).isDir = false →
    (fs'.files (map index)).isOpen = (fs.files index).isOpen

/-- An isomorphism maps the children of a directory to the children of its image. -/
theorem Isomorphism.kids {map : Nat → Nat} (iso : Isomorphism fs fs' map)
    (kept : Kept True fs used free) (kept' : Kept True fs' used' free') (member : index ∈ used)
    (isDir : (fs.files index).isDir = true) :
    (fs'.files (map index)).kids.Perm ((fs.files index).kids.map map) := by
  obtain ⟨⟨maps, injective, surjective⟩, root, parent, kinds, -⟩ := iso
  rw [kept.slots.usedFiles_eq] at maps injective surjective parent kinds
  rw [kept'.slots.usedFiles_eq] at maps surjective
  have image : map index ∈ used' := maps member
  have isDir' : (fs'.files (map index)).isDir = true := (kinds index member).trans isDir
  have nodup : ((fs.files index).kids.map map).Nodup :=
    List.Nodup.map_on (fun first listed second listed' => injective
      (kept.tree.kids index member isDir first listed).1
      (kept.tree.kids index member isDir second listed').1)
      (kept.tree.nodup index member isDir)
  rw [List.perm_ext_iff_of_nodup (kept'.tree.nodup _ image isDir') nodup]
  intro child'
  rw [kept'.tree.mem_kids image isDir', List.mem_map]
  constructor
  · rintro ⟨childUsed, notRoot, above⟩
    obtain ⟨child, listed, rfl⟩ := surjective childUsed
    have other : child ≠ 0 := by
      rintro rfl
      exact notRoot root
    have placed := kept.tree.placed child listed other
    rw [parent child listed other] at above
    exact ⟨child, (kept.tree.mem_kids member isDir).mpr
      ⟨listed, other, injective placed.used member above⟩, rfl⟩
  · rintro ⟨child, kid, rfl⟩
    obtain ⟨listed, other, above⟩ := (kept.tree.mem_kids member isDir).mp kid
    refine ⟨maps listed, fun isRoot => other ?_, by rw [parent child listed other, above]⟩
    exact injective listed kept.tree.root (isRoot.trans root.symm)

/-- Isomorphic files have equal codes. -/
theorem Isomorphism.code_eq {map : Nat → Nat} (iso : Isomorphism fs fs' map)
    (kept : Kept True fs used free) (kept' : Kept True fs' used' free') (member : index ∈ used) :
    (fs'.files (map index)).code = (fs.files index).code := by
  induction size : (fs.files index).code.length using Nat.strong_induction_on
    generalizing index with
  | _ length ih =>
    have listed : index ∈ fs.usedFiles := by rwa [kept.slots.usedFiles_eq]
    have image : map index ∈ used' := by
      have inside := iso.bijective.mapsTo listed
      rwa [kept'.slots.usedFiles_eq] at inside
    have kinds := iso.isDir index listed
    cases kind : (fs.files index).isDir with
    | false =>
      rw [kept.code_file member kind, kept'.code_file image (kinds.trans kind),
        iso.version index listed kind, iso.isOpen index listed kind]
    | true =>
      have isDir' := kinds.trans kind
      have codes : ((fs'.files (map index)).kids.map fun child => (fs'.files child).code).Perm
          ((fs.files index).kids.map fun child => (fs.files child).code) := by
        refine ((iso.kids kept kept' member kind).map _).trans (.of_eq ?_)
        rw [List.map_map]
        refine List.map_congr_left fun child kid => ?_
        have shorter := kept.code_lt member kind kid
        exact ih _ (size ▸ shorter) (kept.tree.kids index member kind child kid).1 rfl
      have sorted := codes.eq_of_pairwise (fun _ _ _ _ below above => le_antisymm below above)
        (kept'.codes_sorted image isDir') (kept.codes_sorted member kind)
      rw [(kept.code_dir member kind).2, (kept'.code_dir image isDir').2, sorted]

/-! ## Files at equal positions -/

/-- Two files have the same position in their trees. -/
inductive Matched (fs fs' : ReferenceFs) : Nat → Nat → Prop where
  /-- The roots. -/
  | root : Matched fs fs' 0 0
  /-- Children of files with the same position. -/
  | child {dir dir' position child child' : Nat} (above : Matched fs fs' dir dir')
      (isDir : (fs.files dir).isDir = true) (isDir' : (fs'.files dir').isDir = true)
      (entry : (fs.files dir).kids[position]? = some child)
      (entry' : (fs'.files dir').kids[position]? = some child') : Matched fs fs' child child'

namespace Matched

/-- Positions may be compared from either side. -/
theorem symm (found : Matched fs fs' index index') : Matched fs' fs index' index := by
  induction found with
  | root => exact .root
  | child _ isDir isDir' entry entry' ih => exact .child ih isDir' isDir entry' entry

/-- Files with the same position have equal codes when the roots have. -/
theorem facts (kept : Kept True fs used free) (kept' : Kept True fs' used' free')
    (roots : (fs.files 0).code = (fs'.files 0).code) (found : Matched fs fs' index index') :
    index ∈ used ∧ index' ∈ used' ∧ (fs.files index).code = (fs'.files index').code := by
  induction found with
  | root => exact ⟨kept.tree.root, kept'.tree.root, roots⟩
  | @child dir dir' position child child' above isDir isDir' entry entry' ih =>
    obtain ⟨member, member', same⟩ := ih
    have codes := (code_eq_cases kept kept' member member' same).2.2 isDir
    have here := congrArg (fun codes => codes[position]?) codes
    simp only [List.getElem?_map, entry, entry', Option.map_some, Option.some.injEq] at here
    exact ⟨(kept.tree.kids dir member isDir child (List.mem_of_getElem? entry)).1,
      (kept'.tree.kids dir' member' isDir' child' (List.mem_of_getElem? entry')).1, here⟩

/-- Every used file has a counterpart. -/
theorem exists_of_used (kept : Kept True fs used free) (kept' : Kept True fs' used' free')
    (roots : (fs.files 0).code = (fs'.files 0).code) (member : index ∈ used) :
    ∃ index', Matched fs fs' index index' := by
  induction level : (fs.files index).depth using Nat.strong_induction_on generalizing index with
  | _ depth ih =>
    by_cases isRoot : index = 0
    · rw [isRoot]
      exact ⟨0, .root⟩
    · have placed := kept.tree.placed index member isRoot
      have higher := placed.depth
      obtain ⟨dir', above⟩ := ih _ (by omega) placed.used rfl
      obtain ⟨-, dirUsed', same⟩ := above.facts kept kept' roots
      obtain ⟨kinds, -, codes⟩ := code_eq_cases kept kept' placed.used dirUsed' same
      have lengths := congrArg List.length (codes placed.isDir)
      rw [List.length_map, List.length_map] at lengths
      obtain ⟨position, inside, entry⟩ := List.getElem_of_mem placed.listed
      exact ⟨_, .child above placed.isDir (kinds.trans placed.isDir)
        (List.getElem?_eq_some_iff.mpr ⟨inside, entry⟩)
        (List.getElem?_eq_getElem (lengths ▸ inside))⟩

/-- A file has one counterpart. -/
theorem unique (kept : Kept True fs used free) (kept' : Kept True fs' used' free')
    (roots : (fs.files 0).code = (fs'.files 0).code) {other' : Nat}
    (found : Matched fs fs' index index') (found' : Matched fs fs' index other') :
    index' = other' := by
  have notRoot : ∀ {dir dir' position : Nat}, Matched fs fs' dir dir' →
      (fs.files dir).isDir = true → (fs.files dir).kids[position]? ≠ some 0 := by
    intro dir dir' position above isDir entry
    exact (kept.tree.kids dir (above.facts kept kept' roots).1 isDir 0
      (List.mem_of_getElem? entry)).2.1 rfl
  induction found generalizing other' with
  | root =>
    cases found' with
    | root => rfl
    | child above isDir _ entry _ => exact absurd entry (notRoot above isDir)
  | @child dir dir' position child child' above isDir isDir' entry entry' ih =>
    cases found' with
    | root => exact absurd entry (notRoot above isDir)
    | @child second second' position' _ _ above₂ isDir₂ isDir₂' entry₂ entry₂' =>
      have dirUsed := (above.facts kept kept' roots).1
      have secondUsed := (above₂.facts kept kept' roots).1
      have parent := (kept.tree.kids dir dirUsed isDir child (List.mem_of_getElem? entry)).2.2
      have parent₂ :=
        (kept.tree.kids second secondUsed isDir₂ child (List.mem_of_getElem? entry₂)).2.2
      obtain rfl := parent.symm.trans parent₂
      obtain rfl := ih above₂
      have inside := (List.getElem?_eq_some_iff.mp entry).1
      have positions : position = position' :=
        (List.getElem?_inj inside (kept.tree.nodup dir dirUsed isDir)).mp (entry.trans entry₂.symm)
      subst positions
      exact Option.some.inj (entry'.symm.trans entry₂')

end Matched

/-- Equal codes at the roots give an isomorphism. -/
theorem exists_isomorphism (kept : Kept True fs used free) (kept' : Kept True fs' used' free')
    (roots : (fs.files 0).code = (fs'.files 0).code) : ∃ map, Isomorphism fs fs' map := by
  classical
  let map : Nat → Nat := fun index =>
    if found : ∃ index', Matched fs fs' index index' then found.choose else 0
  have matched : ∀ index ∈ used, Matched fs fs' index (map index) := by
    intro index member
    have found := Matched.exists_of_used kept kept' roots member
    have value : map index = found.choose := dif_pos found
    rw [value]
    exact found.choose_spec
  have only : ∀ {index index'}, Matched fs fs' index index' → map index = index' :=
    fun {index index'} found => Matched.unique kept kept' roots
      (matched index (found.facts kept kept' roots).1) found
  have facts : ∀ index ∈ used, _ := fun index member =>
    (matched index member).facts kept kept' roots
  have labels : ∀ index ∈ used, _ := fun index member =>
    code_eq_cases kept kept' member (facts index member).2.1 (facts index member).2.2
  refine ⟨map, ⟨?_, ?_, ?_⟩, only .root, ?_, ?_, ?_, ?_⟩
  all_goals rw [kept.slots.usedFiles_eq]
  · rw [kept'.slots.usedFiles_eq]
    exact fun index member => (facts index member).2.1
  · intro first firstUsed second secondUsed same
    have back := (matched first firstUsed).symm
    rw [same] at back
    exact Matched.unique kept' kept roots.symm back (matched second secondUsed).symm
  · rw [kept'.slots.usedFiles_eq]
    intro index' member'
    obtain ⟨index, found⟩ := Matched.exists_of_used kept' kept roots.symm member'
    exact ⟨index, (found.facts kept' kept roots.symm).2.1, only found.symm⟩
  · intro child member notRoot
    have found := matched child member
    generalize map child = child' at found
    cases found with
    | root => exact absurd rfl notRoot
    | @child dir dir' position _ _ above isDir isDir' entry entry' =>
      obtain ⟨dirUsed, dirUsed', -⟩ := above.facts kept kept' roots
      rw [(kept.tree.kids dir dirUsed isDir child (List.mem_of_getElem? entry)).2.2,
        (kept'.tree.kids dir' dirUsed' isDir' child' (List.mem_of_getElem? entry')).2.2,
        only above]
  · exact fun index member => (labels index member).1
  · exact fun index member isFile => ((labels index member).2.1 isFile).1
  · exact fun index member isFile => ((labels index member).2.1 isFile).2

/-! ## Runs -/

/-- The calls after which all codes are up to date: `Demount` refreshes none, so that no file may be
open then. -/
def Recodes (fs : ReferenceFs) : Call → Prop
  | .removeFile _ => True
  | .demount => ∀ index ∈ fs.usedFiles, (fs.files index).isOpen = false
  | call => Regular fs call

instance (fs : ReferenceFs) : (call : Call) → Decidable (Recodes fs call)
  | .removeFile _ => inferInstanceAs (Decidable True)
  | .demount => inferInstanceAs (Decidable (∀ index ∈ fs.usedFiles, (fs.files index).isOpen = false))
  | .addPath path isDir fid => inferInstanceAs (Decidable (Regular fs (.addPath path isDir fid)))
  | .moveFile src dst => inferInstanceAs (Decidable (Regular fs (.moveFile src dst)))
  | .updatePath path len => inferInstanceAs (Decidable (Regular fs (.updatePath path len)))
  | .updateFile index len => inferInstanceAs (Decidable (Regular fs (.updateFile index len)))
  | .openFile index => inferInstanceAs (Decidable (Regular fs (.openFile index)))
  | .closeFile index => inferInstanceAs (Decidable (Regular fs (.closeFile index)))

/-- These calls keep the codes of all files. -/
theorem Recodes.allowed {call : Call} (recodes : Recodes fs call) : Allowed True fs call := by
  cases call with
  | removeFile path => exact fun never => absurd trivial never
  | demount => exact ⟨fun never => absurd trivial never, fun _ => recodes⟩
  | addPath => exact recodes
  | moveFile => exact recodes
  | updatePath => exact recodes
  | updateFile => exact recodes
  | openFile => exact recodes
  | closeFile => exact recodes

/-- In runs whose calls keep the codes up to date, two states have equal root codes exactly when
their trees are isomorphic. -/
theorem root_codes_eq_iff_isomorphic {earlier earlier' : ReferenceFs}
    (run : Run (fun fs call => Proper fs call ∧ Recodes fs call) earlier.initialized fs)
    (run' : Run (fun fs call => Proper fs call ∧ Recodes fs call) earlier'.initialized fs') :
    (fs.files 0).code = (fs'.files 0).code ↔ ∃ map, Isomorphism fs fs' map := by
  have start : ∀ earlier : ReferenceFs,
      Kept True earlier.initialized [0] (List.range' 1 (maxFileNum - 1)) := fun _ =>
    initialized_kept (fun never => absurd trivial never) fun never => absurd trivial never
  obtain ⟨used, free, kept⟩ := Run.kept (start earlier)
    (fun _ _ passes => ⟨passes.1, passes.2.allowed⟩) run
  obtain ⟨used', free', kept'⟩ := Run.kept (start earlier')
    (fun _ _ passes => ⟨passes.1, passes.2.allowed⟩) run'
  refine ⟨exists_isomorphism kept kept', ?_⟩
  rintro ⟨map, iso⟩
  have codes := iso.code_eq kept kept' kept.tree.root
  rw [iso.root] at codes
  exact codes.symm

/-- Two runs that build one tree in different orders. -/
theorem root_codes_eq_iff_isomorphic_orders :
    ∃ fs fs', follow (fun fs call => Proper fs call ∧ Recodes fs call)
        [.addPath "\\a".toList false 1, .addPath "\\d".toList true 2, .openFile 1]
        ReferenceFs.zero.initialized = some fs ∧
      follow (fun fs call => Proper fs call ∧ Recodes fs call)
        [.addPath "\\x".toList true 1, .demount, .addPath "\\y".toList false 2, .openFile 2]
        ReferenceFs.zero.initialized = some fs' ∧
      ∃ map, Isomorphism fs fs' map := by
  let first := follow (fun fs call => Proper fs call ∧ Recodes fs call)
    [.addPath "\\a".toList false 1, .addPath "\\d".toList true 2, .openFile 1]
    ReferenceFs.zero.initialized
  let second := follow (fun fs call => Proper fs call ∧ Recodes fs call)
    [.addPath "\\x".toList true 1, .demount, .addPath "\\y".toList false 2, .openFile 2]
    ReferenceFs.zero.initialized
  have codes : first.isSome = true ∧ second.isSome = true ∧
      first.map (fun fs => (fs.files 0).code) = second.map fun fs => (fs.files 0).code := by
    decide +kernel
  obtain ⟨done, done', same⟩ := codes
  obtain ⟨fs, last⟩ := Option.isSome_iff_exists.mp done
  obtain ⟨fs', last'⟩ := Option.isSome_iff_exists.mp done'
  rw [last, last'] at same
  exact ⟨fs, fs', last, last', (root_codes_eq_iff_isomorphic (Run.follow .start last)
    (Run.follow .start last')).mp (Option.some.inj same)⟩

/-- A file that `Demount` has closed keeps the code of an open file. -/
theorem root_codes_of_demounted :
    ¬ ∀ earlier earlier' fs fs' : ReferenceFs,
      Run (fun fs call => Proper fs call ∧ Regular fs call) earlier.initialized fs →
      Run (fun fs call => Proper fs call ∧ Regular fs call) earlier'.initialized fs' →
      ((fs.files 0).code = (fs'.files 0).code ↔ ∃ map, Isomorphism fs fs' map) := by
  intro promised
  let first := follow (fun fs call => Proper fs call ∧ Regular fs call)
    [.addPath "\\a".toList false 1, .openFile 1, .demount] ReferenceFs.zero.initialized
  let second := follow (fun fs call => Proper fs call ∧ Regular fs call)
    [.addPath "\\a".toList false 1, .openFile 1] ReferenceFs.zero.initialized
  have codes : first.isSome = true ∧ second.isSome = true ∧
      first.map (fun fs => (fs.files 0).code) = second.map fun fs => (fs.files 0).code := by
    decide +kernel
  have closed : ∀ fs ∈ first, 1 ∈ fs.usedFiles ∧ (fs.files 1).isDir = false ∧
      (fs.files 1).isOpen = false := by
    decide +kernel
  have opened : ∀ fs ∈ second, ∀ index ∈ fs.usedFiles, (fs.files index).isDir = false →
      (fs.files index).isOpen = true := by
    decide +kernel
  obtain ⟨done, done', same⟩ := codes
  obtain ⟨fs, last⟩ := Option.isSome_iff_exists.mp done
  obtain ⟨fs', last'⟩ := Option.isSome_iff_exists.mp done'
  rw [last, last'] at same
  obtain ⟨map, iso⟩ := (promised _ _ fs fs' (Run.follow .start last)
    (Run.follow .start last')).mp (Option.some.inj same)
  obtain ⟨listed, isFile, isClosed⟩ := closed fs last
  have isOpen := opened fs' last' (map 1) (iso.bijective.mapsTo listed)
    ((iso.isDir 1 listed).trans isFile)
  rw [iso.isOpen 1 listed isFile, isClosed] at isOpen
  cases isOpen

end FsChecking.RefFs
