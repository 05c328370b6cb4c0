import FsChecking.FsTester.TraceText
import FsChecking.Lib.FileTree

/-!
# Preparing files

After `Config` the map and the list of entries are the name space of the traces. `PrepareFiles` makes a directory or a file for every name of the traces, in the order of their
numbers, on a file system that behaves as a tree. A directory is made before what it holds, and a
file is filled as far as any transfer reaches.
-/

namespace FsChecking.FsTester

open Lib

/-! ## `PrepareFiles` -/

/-- The directory of a path. -/
def directoryOf (path : Text) : Option Text := (lastIndexOf '\\' path).map path.take

/-- `DokanCreateFile` with `FS_CREATE_ALWAYS`, and what is written to the file. -/
def createAlways (tree : FileTree Text File) (path : Text) (content : File) :
    Option (FileTree Text File) :=
  match tree.lookup path with
  | some .dir => none
  | some (.file _) => some (tree.insert path (.file content))
  | none => tree.create directoryOf path (.file content)

/-- A round of `PrepareFiles`; nothing when it throws. -/
def prepareFile (root : Text) (tree : FileTree Text File) (info : FileAccessInfo) :
    Option (FileTree Text File) :=
  if info.fileName = [] ∨ info.fid = 1 then some tree
  else
    let path := root ++ info.fileName
    if info.isDir = true ∨ 0 < info.childNr then tree.create directoryOf path .dir
    else createAlways tree path (produced (fillFile info.fid info.revision 0 info.maxLength))

/-- `PrepareFiles`. -/
def prepareFiles (root : Text) (tester : TraceTester) (tree : FileTree Text File) :
    Option (FileTree Text File) :=
  tester.fileAccess.foldlM (prepareFile root) tree

/-! ## The names of the traces -/

section Names

variable {tester : TraceTester} {name path root : Text} {fid : Nat} {tree : FileTree Text File}

/-- A path below the root: it begins with a backslash, and with one only. -/
def BelowRoot (path : Text) : Prop := ∃ rest, path = '\\' :: rest ∧ rest.head? ≠ some '\\'

/-- A name in the traces: a path, or a directory on the way to one. -/
def Listed (tester : TraceTester) (name : Text) : Prop :=
  name ≠ [] ∧ name ≠ rootName ∧ ∃ op ∈ tester.entries, AtOrAbove name op.filePath

/-- Nothing is above the empty path. -/
theorem atOrAbove_nil : AtOrAbove name [] ↔ name = [] := by
  unfold AtOrAbove
  apply or_iff_left
  rintro ⟨-, before⟩
  exact absurd (List.prefix_nil.mp before) (List.append_ne_nil_of_right_ne_nil _ (by simp))

/-- What is above a path below the root is below the root. -/
theorem BelowRoot.above (below : BelowRoot path) (above : AtOrAbove name path) : BelowRoot name := by
  rcases above with rfl | ⟨notEmpty, before⟩
  · exact below
  · obtain ⟨rest, rfl, single⟩ := below
    cases name with
    | nil => exact absurd rfl notEmpty
    | cons letter rest' =>
      rw [List.cons_append, List.cons_prefix_cons] at before
      obtain ⟨rfl, before⟩ := before
      refine ⟨rest', rfl, fun double => ?_⟩
      cases rest' with
      | nil => cases double
      | cons letter rest' =>
        obtain rfl := Option.some.inj double
        obtain ⟨more, rfl⟩ := before
        exact single rfl

/-- The directory of a name below the root, behind the root of the test. -/
theorem BelowRoot.directoryOf (below : BelowRoot name) (root : Text) :
    (FsTester.directoryOf (root ++ name) = some root ∧ parentName name = rootName) ∨
      (FsTester.directoryOf (root ++ name) = some (root ++ parentName name) ∧
        BelowRoot (parentName name) ∧ parentName name ≠ rootName) := by
  obtain ⟨rest, rfl, single⟩ := below
  cases found : lastIndexOf '\\' ('\\' :: rest) with
  | none => exact absurd List.mem_cons_self (lastIndexOf_eq_none.mp found)
  | some ss =>
    obtain ⟨last, split, plain, length⟩ := exists_of_lastIndexOf found
    have whole : FsTester.directoryOf (root ++ '\\' :: rest) =
        some (root ++ ('\\' :: rest).take ss) := by
      unfold FsTester.directoryOf
      have behind : root ++ '\\' :: rest = (root ++ ('\\' :: rest).take ss) ++ '\\' :: last := by
        rw [List.append_assoc, ← split]
      rw [behind, lastIndexOf_append plain, Option.map_some, List.take_left]
    unfold parentName
    rw [whole, found]
    dsimp only
    by_cases top : ('\\' :: rest).take ss = []
    · rw [if_pos top, top, List.append_nil]
      exact .inl ⟨rfl, rfl⟩
    · rw [if_neg top]
      have before : ('\\' :: rest).take ss ++ ['\\'] <+: '\\' :: rest :=
        ⟨last, by rw [List.append_assoc]; exact split.symm⟩
      have below := BelowRoot.above ⟨rest, rfl, single⟩ (.inr ⟨top, before⟩)
      refine .inr ⟨rfl, below, fun same => ?_⟩
      rw [same] at before
      obtain ⟨more, double⟩ := before
      exact single (congrArg List.head? (List.cons.inj double).2).symm

end Names

/-! ## Rounds -/

section Rounds

variable {tester : TraceTester} {asked : Text → Prop} {name root : Text} {fid : Nat}
  {tree : FileTree Text File}

/-- What `PrepareFiles` makes for an entry. -/
def FileAccessInfo.prepared (info : FileAccessInfo) : Entry File :=
  if info.isDir = true ∨ 0 < info.childNr then .dir
  else .file (produced (fillFile info.fid info.revision 0 info.maxLength))

/-- The tree holds the entries with early numbers. -/
structure Holds (root : Text) (tester : TraceTester) (count : Nat) (tree : FileTree Text File) :
    Prop where
  /-- The root of the test is a directory. -/
  top : tree.lookup root = some .dir
  /-- The names that have been prepared. -/
  entry : ∀ fid, 1 < fid → fid < count → (tester.info fid).fileName ≠ [] →
    tree.lookup (root ++ (tester.info fid).fileName) = some (tester.info fid).prepared
  /-- Nothing else is there. -/
  only : ∀ path, path ∈ tree → path = root ∨ ∃ fid, 1 < fid ∧ fid < count ∧
    (tester.info fid).fileName ≠ [] ∧ path = root ++ (tester.info fid).fileName

/-- A round that passes over an entry. -/
theorem Holds.skip {count : Nat} (holds : Holds root tester count tree)
    (skipped : (tester.info count).fileName = [] ∨ count = 1) :
    Holds root tester (count + 1) tree := by
  refine ⟨holds.top, fun fid late early named => ?_, fun path member => ?_⟩
  · apply holds.entry fid late _ named
    rcases Nat.lt_succ_iff_lt_or_eq.mp early with old | rfl
    · exact old
    · rcases skipped with none | first
      · exact absurd none named
      · omega
  · rcases holds.only path member with top | ⟨fid, late, early, named⟩
    · exact .inl top
    · exact .inr ⟨fid, late, Nat.lt_succ_of_lt early, named⟩

/-- What a round makes is not there before. -/
theorem Holds.notMem {count : Nat} (holds : Holds root tester count tree)
    (sound : Sound asked none tester) (inside : count < tester.maxFid) (late : 1 < count)
    (named : (tester.info count).fileName ≠ []) :
    root ++ (tester.info count).fileName ∉ tree := by
  intro member
  rcases holds.only _ member with top | ⟨fid, late', early, -, same⟩
  · exact named (List.append_right_eq_self.mp top)
  · have found := (sound.found_iff _ count).mpr ⟨by omega, inside, rfl⟩
    rw [List.append_cancel_left same] at found
    have found' := (sound.found_iff _ fid).mpr ⟨by omega, by omega, rfl⟩
    rw [found'] at found
    exact Nat.ne_of_lt early (Option.some.inj found)

/-- The directory of what a round makes is there. -/
theorem Holds.directory {count : Nat} (holds : Holds root tester count tree)
    (sound : Sound asked none tester) (inside : count < tester.maxFid) (late : 1 < count)
    (below : BelowRoot (tester.info count).fileName) :
    ∃ above, directoryOf (root ++ (tester.info count).fileName) = some above ∧
      tree.lookup above = some .dir := by
  rcases below.directoryOf root with ⟨directory, -⟩ | ⟨directory, belowRoot, apart⟩
  · exact ⟨root, directory, holds.top⟩
  · have found := sound.parent count inside late
    have older := sound.older count inside late
    obtain ⟨present', inside', parentIs⟩ := (sound.found_iff _ _).mp found
    have notFirst : (tester.info count).parentFid ≠ 1 := by
      intro first
      rw [first] at found
      exact apart (sound.inj found sound.root)
    have isNamed : (tester.info (tester.info count).parentFid).fileName ≠ [] := by
      rw [parentIs]
      obtain ⟨rest, same, -⟩ := belowRoot
      rw [same]
      exact List.cons_ne_nil _ _
    have entry := holds.entry _ (by omega) older isNamed
    have children : 0 < (tester.info (tester.info count).parentFid).childNr := by
      rw [sound.counted _ present' inside']
      apply List.countP_pos_iff.mpr
      exact ⟨count, List.mem_range.mpr inside, decide_eq_true rfl⟩
    refine ⟨_, directory, ?_⟩
    rw [parentIs] at entry
    rw [entry, FileAccessInfo.prepared, if_pos (.inr children)]

/-- A round with a directory to put the entry in makes the entry. -/
theorem prepareFile_new {info : FileAccessInfo} {above : Text} (named : info.fileName ≠ [])
    (notRoot : info.fid ≠ 1) (new : root ++ info.fileName ∉ tree)
    (directory : directoryOf (root ++ info.fileName) = some above)
    (isDir : tree.lookup above = some .dir) :
    prepareFile root tree info = some (tree.insert (root ++ info.fileName) info.prepared) := by
  have absent : tree.lookup (root ++ info.fileName) = none := AList.lookup_eq_none.mpr new
  unfold prepareFile FileAccessInfo.prepared
  rw [if_neg (not_or.mpr ⟨named, notRoot⟩)]
  by_cases directory' : info.isDir = true ∨ 0 < info.childNr
  · rw [if_pos directory', if_pos directory']
    exact FileTree.create_of_notMem new directory isDir
  · rw [if_neg directory', if_neg directory', createAlways, absent]
    exact FileTree.create_of_notMem new directory isDir

/-- The tree with one entry more. -/
theorem Holds.insert {count : Nat} (holds : Holds root tester count tree) (late : 1 < count)
    (named : (tester.info count).fileName ≠ [])
    (new : root ++ (tester.info count).fileName ∉ tree) :
    Holds root tester (count + 1)
      (tree.insert (root ++ (tester.info count).fileName) (tester.info count).prepared) := by
  refine ⟨?_, fun fid late' early named' => ?_, fun path member => ?_⟩
  · rw [AList.lookup_insert_ne]
    · exact holds.top
    · exact fun same => named (List.append_right_eq_self.mp same.symm)
  · rcases Nat.lt_succ_iff_lt_or_eq.mp early with old | rfl
    · rw [AList.lookup_insert_ne]
      · exact holds.entry fid late' old named'
      · intro same
        apply new
        rw [← same]
        apply AList.lookup_isSome.mp
        rw [holds.entry fid late' old named']
        rfl
    · exact AList.lookup_insert _
  · rcases (AList.mem_insert _).mp member with same | old
    · exact .inr ⟨count, late, Nat.lt_succ_self _, named, same⟩
    · rcases holds.only path old with top | ⟨fid, late', early, named', same⟩
      · exact .inl top
      · exact .inr ⟨fid, late', Nat.lt_succ_of_lt early, named', same⟩

/-- A round makes the next entry. -/
theorem Holds.round {count : Nat} (holds : Holds root tester count tree)
    (sound : Sound asked none tester) (inside : count < tester.maxFid)
    (below : ∀ fid, 1 < fid → fid < tester.maxFid →
      (tester.info fid).fileName = [] ∨ BelowRoot (tester.info fid).fileName) :
    ∃ tree', prepareFile root tree (tester.info count) = some tree' ∧
      Holds root tester (count + 1) tree' := by
  have number := sound.numbered count inside
  by_cases skipped : (tester.info count).fileName = [] ∨ (tester.info count).fid = 1
  · exact ⟨tree, if_pos skipped, holds.skip (skipped.imp_right number.symm.trans)⟩
  · obtain ⟨named, notRoot⟩ := not_or.mp skipped
    have present : count ≠ 0 := by
      rintro rfl
      exact named sound.dummy
    have late : 1 < count := by omega
    have new := holds.notMem sound inside late named
    obtain ⟨above, directory, isDir⟩ :=
      holds.directory sound inside late ((below count late inside).resolve_left named)
    exact ⟨_, prepareFile_new named notRoot new directory isDir, holds.insert late named new⟩

/-- All rounds make the whole tree. -/
theorem prepareFiles_holds (sound : Sound asked none tester)
    (below : ∀ fid, 1 < fid → fid < tester.maxFid →
      (tester.info fid).fileName = [] ∨ BelowRoot (tester.info fid).fileName)
    (tree : FileTree Text File) (start : Holds root tester 0 tree) :
    ∃ tree', prepareFiles root tester tree = some tree' ∧
      Holds root tester tester.maxFid tree' := by
  have rounds : ∀ count ≤ tester.maxFid, ∃ tree',
      (tester.fileAccess.take count).foldlM (prepareFile root) tree = some tree' ∧
        Holds root tester count tree' := by
    intro count
    induction count with
    | zero =>
      intro
      exact ⟨tree, rfl, start⟩
    | succ count ih =>
      intro inside
      obtain ⟨before, made, holds⟩ := ih (Nat.le_of_succ_le inside)
      obtain ⟨after, next, holds'⟩ := holds.round sound inside below
      have stored : count < tester.fileAccess.length := by
        rw [sound.length]
        exact inside
      have info : tester.info count = tester.fileAccess[count] := by
        rw [TraceTester.info, List.getD_eq_getElem?_getD, List.getElem?_eq_getElem stored]
        rfl
      refine ⟨after, ?_, holds'⟩
      rw [List.take_succ_eq_append_getElem stored, List.foldlM_append, made]
      show List.foldlM _ before _ = _
      rw [List.foldlM_cons, ← info, next]
      rfl
  obtain ⟨tree', made, holds⟩ := rounds tester.maxFid (Nat.le_refl _)
  refine ⟨tree', ?_, holds⟩
  rw [← sound.length, List.take_length] at made
  exact made

end Rounds

/-! ## The prepared tree -/

section Prepared

variable {decode : Text → Text} {files : Text → Option Text} {sources : List TraceSource}
  {tester : TraceTester} {name : Text}

/-- `Config`: the names are the paths of the traces, what is above them, and the root; they are
numbered from one on without gaps; the entry of a number has the name, the older entry of the name
without its last component as its parent, the number of its children, and the mark of directories
exactly if it is the root or has children; and it is as long as the longest transfer needs. -/
theorem config_names (loads : config decode files sources = .ok tester)
    (few : tester.fileAccess.length < 2 ^ 32) :
    (∀ name, (∃ fid, tester.pathMap name = some fid) ↔
      name = rootName ∨ ∃ op ∈ tester.entries, op.fid ≠ 0 ∧ AtOrAbove name op.filePath) ∧
    (∀ fid, (∃ name, tester.pathMap name = some fid) ↔ 0 < fid ∧ fid < tester.maxFid) ∧
    (∀ name name' fid, tester.pathMap name = some fid → tester.pathMap name' = some fid →
      name = name') ∧
    (∀ op ∈ tester.entries, op.fid ≠ 0 → tester.pathMap op.filePath = some op.fid) ∧
    tester.fileAccess.length = tester.maxFid ∧
    ∀ name fid, tester.pathMap name = some fid →
      (tester.info fid).fid = fid ∧ (tester.info fid).fileName = name ∧
      (fid ≠ 1 → (tester.info fid).parentFid < fid ∧
        tester.pathMap (parentName name) = some (tester.info fid).parentFid) ∧
      (tester.info fid).childNr = tester.children fid ∧
      ((tester.info fid).isDir = true ↔ fid = 1 ∨ 0 < tester.children fid) ∧
      (∀ op ∈ tester.entries, op.opCode.Transfers → op.fid = fid →
        op.stop ≤ (tester.info fid).maxLength) ∧
      ((tester.info fid).maxLength = 0 ∨ ∃ op ∈ tester.entries, op.opCode.Transfers ∧
        op.fid = fid ∧ op.stop = (tester.info fid).maxLength) := by
  have loaded : Loaded tester := loaded_withRoot.afterTraces loads few
  have sound := loaded.sound
  refine ⟨fun name => ?_, fun fid => ?_, fun name name' fid => sound.inj, fun op member placed => ?_,
    sound.length, fun name fid found => ?_⟩
  · rw [← Option.isSome_iff_exists, sound.named]
    apply or_congr_right
    constructor
    · rintro ⟨path, ⟨op, member, placed, rfl⟩, above⟩
      exact ⟨op, member, placed, above⟩
    · rintro ⟨op, member, placed, above⟩
      exact ⟨op.filePath, ⟨op, member, placed, rfl⟩, above⟩
  · constructor
    · rintro ⟨name, found⟩
      obtain ⟨present, inside, -⟩ := (sound.found_iff name fid).mp found
      exact ⟨present, inside⟩
    · rintro ⟨present, inside⟩
      exact ⟨_, (sound.found_iff _ fid).mpr ⟨present, inside, rfl⟩⟩
  · rcases loaded.placed op member with ⟨absent, -⟩ | found
    · exact absurd absent placed
    · exact found
  · obtain ⟨present, inside, named⟩ := (sound.found_iff name fid).mp found
    have directory := sound.directory fid present inside
    have counted := sound.counted fid present inside
    refine ⟨sound.numbered fid inside, named, fun later => ?_, counted, ?_, ?_, loaded.needed fid⟩
    · have late : 1 < fid := by omega
      rw [← named]
      exact ⟨sound.older fid inside late, sound.parent fid inside late⟩
    · have idle : ¬ (none : Option Nat) = some fid := by nofun
      rw [directory, counted, or_iff_left idle]
    · rintro op member transfers rfl
      exact loaded.reached op member transfers

/-- The name space of a trace with one line. -/
theorem config_names_sample : ∃ tester,
    config id (fun _ => some sampleFile.text) sampleSources = .ok tester ∧
      ∀ fid, (∃ name, tester.pathMap name = some fid) ↔ 0 < fid ∧ fid < tester.maxFid := by
  obtain ⟨tester, loads, few, -⟩ := sample_loads
  exact ⟨tester, loads, (config_names loads few).2.1⟩

/-- The names of the traces have numbers behind the root. -/
theorem Loaded.listed_iff (loaded : Loaded tester) :
    Listed tester name ↔ name ≠ [] ∧ ∃ fid, 1 < fid ∧ tester.pathMap name = some fid := by
  have named := loaded.sound.named name
  constructor
  · rintro ⟨notEmpty, notRoot, op, member, above⟩
    have asked : AskedFor tester op.filePath := by
      rcases loaded.placed op member with ⟨-, none⟩ | found
      · rw [none] at above
        exact absurd (atOrAbove_nil.mp above) notEmpty
      · exact ⟨op, member, Nat.ne_of_gt ((loaded.sound.found_iff _ _).mp found).1, rfl⟩
    obtain ⟨fid, found⟩ := Option.isSome_iff_exists.mp (named.mpr (.inr ⟨_, asked, above⟩))
    have present := ((loaded.sound.found_iff _ _).mp found).1
    have notFirst : fid ≠ 1 := by
      rintro rfl
      exact notRoot (loaded.sound.inj found loaded.sound.root)
    exact ⟨notEmpty, fid, by omega, found⟩
  · rintro ⟨notEmpty, fid, late, found⟩
    have notRoot : name ≠ rootName := by
      rintro rfl
      rw [loaded.sound.root] at found
      exact Nat.ne_of_lt late (Option.some.inj found)
    rcases named.mp (by rw [found]; rfl) with root | ⟨path, ⟨op, member, -, rfl⟩, above⟩
    · exact absurd root notRoot
    · exact ⟨notEmpty, notRoot, op, member, above⟩

/-- A name of the traces has children if another name is below it. -/
theorem Loaded.children_pos_iff (loaded : Loaded tester) {fid : Nat} (late : 1 < fid)
    (found : tester.pathMap name = some fid) :
    0 < tester.children fid ↔ ∃ other, (∃ fid', 1 < fid' ∧ tester.pathMap other = some fid') ∧
      parentName other = name := by
  have sound := loaded.sound
  unfold TraceTester.children
  rw [List.countP_pos_iff]
  constructor
  · rintro ⟨below, member, isParent⟩
    have inside := List.mem_range.mp member
    have parentIs := of_decide_eq_true isParent
    have later : 1 < below := by
      have top := sound.top
      by_contra early
      have first : below = 0 ∨ below = 1 := by omega
      rcases first with rfl | rfl <;> omega
    have parent := sound.parent below inside later
    rw [parentIs] at parent
    exact ⟨(tester.info below).fileName,
      ⟨below, later, (sound.found_iff _ _).mpr ⟨by omega, inside, rfl⟩⟩, sound.inj parent found⟩
  · rintro ⟨other, ⟨below, later, foundBelow⟩, rfl⟩
    obtain ⟨-, inside, rfl⟩ := (sound.found_iff _ _).mp foundBelow
    have parent := sound.parent below inside later
    rw [found] at parent
    exact ⟨below, List.mem_range.mpr inside, decide_eq_true (Option.some.inj parent).symm⟩

/-- The names of the traces are below the root when the paths are. -/
theorem Loaded.below (loaded : Loaded tester)
    (paths : ∀ op ∈ tester.entries, op.filePath = [] ∨ BelowRoot op.filePath) {fid : Nat}
    (late : 1 < fid) (inside : fid < tester.maxFid) :
    (tester.info fid).fileName = [] ∨ BelowRoot (tester.info fid).fileName := by
  by_cases none : (tester.info fid).fileName = []
  · exact .inl none
  · have found := (loaded.sound.found_iff _ fid).mpr ⟨by omega, inside, rfl⟩
    obtain ⟨-, -, op, member, above⟩ := loaded.listed_iff.mpr ⟨none, fid, late, found⟩
    rcases paths op member with empty | below
    · rw [empty] at above
      exact .inl (atOrAbove_nil.mp above)
    · exact .inr (below.above above)

/-- An entry has children exactly if a listed name has it as its parent. -/
theorem Loaded.childNr_pos_iff (loaded : Loaded tester) {name : Text} {fid : Nat}
    (listed : Listed tester name) (late : 1 < fid) (found : tester.pathMap name = some fid) :
    0 < (tester.info fid).childNr ↔ ∃ other, Listed tester other ∧ parentName other = name := by
  obtain ⟨present, inside, -⟩ := (loaded.sound.found_iff _ _).mp found
  rw [loaded.sound.counted fid present inside, loaded.children_pos_iff late found]
  constructor
  · rintro ⟨other, numbered, rfl⟩
    have notEmpty : other ≠ [] := by
      rintro rfl
      exact listed.2.1 rfl
    exact ⟨other, loaded.listed_iff.mpr ⟨notEmpty, numbered⟩, rfl⟩
  · rintro ⟨other, listed', rfl⟩
    exact ⟨other, (loaded.listed_iff.mp listed').2, rfl⟩

/-- An entry without children is prepared as a file. -/
theorem Sound.prepared_file {asked : Text → Prop} {fid : Nat} (sound : Sound asked none tester)
    (late : 1 < fid) (inside : fid < tester.maxFid) (noChildren : ¬ 0 < (tester.info fid).childNr) :
    (tester.info fid).prepared =
      .file (produced (fillFile fid 1 0 (tester.info fid).maxLength)) := by
  have notDir : ¬ (tester.info fid).isDir = true := by
    rw [sound.directory fid (by omega) inside]
    rintro (first | some | busy)
    · omega
    · exact noChildren some
    · cases busy
  have file : (tester.info fid).prepared = .file (produced (fillFile (tester.info fid).fid
      (tester.info fid).revision 0 (tester.info fid).maxLength)) :=
    if_neg (not_or.mpr ⟨notDir, noChildren⟩)
  rw [sound.numbered fid inside, sound.revision] at file
  exact file

/-- The length of an entry covers what a trace reads or writes of it. -/
theorem Loaded.stop_le (loaded : Loaded tester) {name : Text} {fid : Nat} (named : name ≠ [])
    (found : tester.pathMap name = some fid) {op : TraceEntry} (member : op ∈ tester.entries)
    (transfers : op.opCode.Transfers) (path : op.filePath = name) :
    op.stop ≤ (tester.info fid).maxLength := by
  have reached := loaded.reached op member transfers
  rcases loaded.placed op member with ⟨-, none⟩ | foundOp
  · exact absurd (path.symm.trans none) named
  · rw [path, found] at foundOp
    rw [Option.some.inj foundOp]
    exact reached

/-- `Config` and `PrepareFiles`: on a file system with nothing but the root of the test, the files
and directories are made that the traces name, and nothing else. A name is a directory if another
name is below it; otherwise it is a file that is full of stamps, as far as any transfer reaches. -/
theorem prepareFiles_tree (loads : config decode files sources = .ok tester)
    (few : tester.fileAccess.length < 2 ^ 32)
    (paths : ∀ op ∈ tester.entries, op.filePath = [] ∨ BelowRoot op.filePath) (root : Text) :
    ∃ tree, prepareFiles root tester (AList.singleton root .dir) = some tree ∧
      (∀ path, path ∈ tree ↔ path = root ∨ ∃ name, Listed tester name ∧ path = root ++ name) ∧
      ∀ name, Listed tester name →
        ((∃ other, Listed tester other ∧ parentName other = name) →
          tree.lookup (root ++ name) = some .dir) ∧
        ((¬ ∃ other, Listed tester other ∧ parentName other = name) →
          ∃ file fid, tree.lookup (root ++ name) = some (.file file) ∧
            tester.pathMap name = some fid ∧ Stamped file fid 1 file.size chunkedNumber ∧
            ∀ op ∈ tester.entries, op.opCode.Transfers → op.filePath = name →
              op.stop ≤ file.size) := by
  have loaded : Loaded tester := loaded_withRoot.afterTraces loads few
  have sound := loaded.sound
  have start : Holds root tester 0 (AList.singleton root .dir) := by
    rw [← AList.insert_empty]
    refine ⟨AList.lookup_insert _, fun fid late early => absurd early (Nat.not_lt_zero _),
      fun path member => .inl ?_⟩
    rcases (AList.mem_insert _).mp member with same | none
    · exact same
    · cases none
  obtain ⟨tree, made, holds⟩ := prepareFiles_holds sound
    (fun fid late inside => loaded.below paths late inside) _ start
  refine ⟨tree, made, fun path => ⟨fun member => ?_, ?_⟩, fun name listed => ?_⟩
  · rcases holds.only path member with top | ⟨fid, late, inside, named, same⟩
    · exact .inl top
    · have found := (sound.found_iff _ fid).mpr ⟨by omega, inside, rfl⟩
      exact .inr ⟨_, loaded.listed_iff.mpr ⟨named, fid, late, found⟩, same⟩
  · rintro (rfl | ⟨name, listed, rfl⟩)
    · apply AList.lookup_isSome.mp
      rw [holds.top]
      rfl
    · obtain ⟨named, fid, late, found⟩ := loaded.listed_iff.mp listed
      obtain ⟨-, inside, rfl⟩ := (sound.found_iff _ _).mp found
      apply AList.lookup_isSome.mp
      rw [holds.entry fid late inside named]
      rfl
  · obtain ⟨named, fid, late, found⟩ := loaded.listed_iff.mp listed
    obtain ⟨-, inside, same⟩ := (sound.found_iff _ _).mp found
    have entry := holds.entry fid late inside (same ▸ named)
    have children := loaded.childNr_pos_iff listed late found
    rw [same] at entry
    constructor
    · intro below
      rw [entry, FileAccessInfo.prepared, if_pos (.inr (children.mpr below))]
    · intro below
      have noChildren : ¬ 0 < (tester.info fid).childNr := fun some => below (children.mp some)
      have file := sound.prepared_file late inside noChildren
      have stamped := produced_fillFile fid 1 (tester.info fid).maxLength
      have size := stamped.size
      generalize produced _ = content at *
      refine ⟨content, fid, entry.trans (congrArg some file), found, size.symm ▸ stamped, ?_⟩
      rintro op member transfers path
      rw [size]
      exact loaded.stop_le named found member transfers path

/-- The tree of a trace with one line. -/
theorem prepareFiles_tree_sample : ∃ tester tree,
    config id (fun _ => some sampleFile.text) sampleSources = .ok tester ∧
      prepareFiles ['Z', ':'] tester (AList.singleton ['Z', ':'] .dir) = some tree ∧
      ∀ path, path ∈ tree ↔
        path = ['Z', ':'] ∨ ∃ name, Listed tester name ∧ path = ['Z', ':'] ++ name := by
  obtain ⟨tester, loads, few, paths⟩ := sample_loads
  have below : BelowRoot sampleOperation.filePath := ⟨"d\\f".toList, by decide, by decide⟩
  obtain ⟨tree, made, names, -⟩ := prepareFiles_tree loads few
    (fun op member => .inr ((paths op member).symm ▸ below)) ['Z', ':']
  exact ⟨tester, tree, loads, made, names⟩

end Prepared

end FsChecking.FsTester
