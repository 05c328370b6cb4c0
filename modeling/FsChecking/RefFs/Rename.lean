import FsChecking.RefFs.OpHistory
import FsChecking.RefFs.Runs

/-!
# Renaming in place

`MoveFile` rewrites the names of the used files in their arrays: it keeps what stands behind the old
path, moves it to where the new path ends, and copies the new path in front of it. The names that
come out are those of the move, and the function goes wrong only for the root and for a path that
does not exist but has something below it.
-/

namespace FsChecking.RefFs

open Lib

/-! ## The rewriting of one name -/

/-- Whether `strncmp` finds two arrays equal, up to a number of characters. -/
def strncmpEqual : Nat → Text → Text → Bool
  | 0, _, _ => true
  | count + 1, first :: left, second :: right =>
    if first ≠ second then false
    else if first = '\x00' then true
    else strncmpEqual count left right
  | _ + 1, _, _ => false

/-- The string in an array. -/
def cString (buffer : Text) : Text := buffer.takeWhile (· ≠ '\x00')

/-- `strcpy_s` into an array, to an index with `destSize` bytes left. -/
def strcpyS (start destSize : Nat) (source : Text) : EStateM Fault Text Unit := do
  throwIf (destSize < source.length + 1) .abort
  let buffer ← get
  throwIf (buffer.length < start + (source.length + 1)) .undefined
  set (overwrite buffer start (source ++ ['\x00']))

/-- What `MoveFile` does to the name of one file; whether it is the file to move. -/
def renameEntry (src dst : Text) : EStateM Fault Text Bool := do
  let buffer ← get
  if strncmpEqual src.length (src ++ ['\x00']) buffer ∧
      (buffer.getD src.length '\x00' = '\\' ∨ buffer.getD src.length '\x00' = '\x00') then
    if buffer.getD src.length '\x00' = '\x00' then
      storeChar dst.length '\x00'
      memcpyS 0 maxPathSize dst dst.length
      return true
    else
      let temp := cString (buffer.drop src.length)
      throwIf (maxPathSize + 1 < temp.length + 1) .abort
      strcpyS dst.length (sizeSub (maxPathSize + 1) dst.length) temp
      memcpyS 0 maxPathSize dst dst.length
      return false
  else return false

/-- The loop of `MoveFile` over the used files, with the file to move as found so far. -/
def renameAll (src dst : Text) : List Nat → Option Nat → EStateM Fault (Nat → Text) (Option Nat)
  | [], target => return target
  | index :: rest, target => do
    let names ← get
    match renameEntry src dst (names index) with
    | .error fault buffer =>
      set (Function.update names index buffer)
      throw fault
    | .ok found buffer =>
      set (Function.update names index buffer)
      renameAll src dst rest (if found then some index else target)

/-- The state with the names of the used files as they stand in their arrays. -/
def ReferenceFs.readNames (fs : ReferenceFs) (names : Nat → Text) : ReferenceFs :=
  { fs with
    files := fun index =>
      if index ∈ fs.usedFiles then { fs.files index with fn := cString (names index) }
      else fs.files index }

/-- `MoveFile`, on the arrays `m_fn` of the files. -/
def moveFileInPlace (src dst : Text) (names : Nat → Text) : Program Unit := do
  let fs ← get
  match renameAll src dst fs.usedFiles none names with
  | .error fault names =>
    set (fs.readNames names)
    throw fault
  | .ok target names =>
    set (fs.readNames names)
    match target with
    | none => throw .thrown
    | some target =>
      let parentId := (fs.files target).parent
      throwIf (maxFileNum ≤ parentId) .undefined
      modify fun fs =>
        let parent := fs.files parentId
        fs.setFile parentId
          { parent with ver := if parent.ver < maxFileVersion then parent.ver + 1 else parent.ver }
      updateEncode parentId

/-- An array of a name holds a string. -/
structure HoldsName (buffer name : Text) : Prop where
  /-- The size of the array. -/
  size : buffer.length = maxPathSize + 1
  /-- The string has no terminator. -/
  plain : '\x00' ∉ name
  /-- The string is terminated. -/
  terminated : name ++ ['\x00'] <+: buffer

variable {src dst name buffer : Text}

/-- What stands behind the string. -/
theorem HoldsName.exists_rest (holds : HoldsName buffer name) :
    ∃ rest, buffer = name ++ '\x00' :: rest ∧ name.length + 1 + rest.length = maxPathSize + 1 := by
  obtain ⟨rest, whole⟩ := holds.terminated
  refine ⟨rest, ?_, ?_⟩
  · rw [← whole, List.append_assoc]
    rfl
  · rw [← holds.size, ← whole]
    simp only [List.length_append, List.length_cons, List.length_nil]

/-- The string that an array holds is read back. -/
theorem HoldsName.cString_eq (holds : HoldsName buffer name) : cString buffer = name := by
  obtain ⟨rest, rfl, -⟩ := holds.exists_rest
  exact takeWhile_terminated holds.plain

/-- `strncmp` of a string with a name finds the names that begin with it. -/
theorem strncmpEqual_iff {rest : Text} (plainSrc : '\x00' ∉ src) (plain : '\x00' ∉ name) :
    strncmpEqual src.length (src ++ ['\x00']) (name ++ '\x00' :: rest) = true ↔ src <+: name := by
  induction src generalizing name with
  | nil => simp [strncmpEqual]
  | cons letter src ih =>
    rw [List.mem_cons, not_or] at plainSrc
    cases name with
    | nil =>
      have differs : letter ≠ '\x00' := fun same => plainSrc.1 same.symm
      simp [strncmpEqual, differs]
    | cons first name =>
      rw [List.mem_cons, not_or] at plain
      show (if letter ≠ first then false else if letter = '\x00' then true else
        strncmpEqual src.length (src ++ ['\x00']) (name ++ '\x00' :: rest)) = true ↔ _
      rw [List.cons_prefix_cons]
      by_cases same : letter = first
      · rw [if_neg (not_not.mpr same), if_neg fun null => plainSrc.1 null.symm,
          ih plainSrc.2 plain.2]
        exact (and_iff_right same).symm
      · rw [if_pos same]
        simp [same]

/-- When `strcpy_s` finds room, and what it leaves. -/
theorem strcpyS_eq_ok {start destSize : Nat} {source : Text}
    (room : source.length + 1 ≤ destSize)
    (inside : start + (source.length + 1) ≤ buffer.length) :
    strcpyS start destSize source buffer = .ok () (overwrite buffer start (source ++ ['\x00'])) := by
  unfold strcpyS
  rw [throwIf_bind_of_not (Nat.not_lt.mpr room), get_bind_apply,
    throwIf_bind_of_not (Nat.not_lt.mpr inside)]
  rfl

/-- Copying the new path in front of a suffix that stands in its place. -/
theorem copy_front {suffix : Text} (size : buffer.length = maxPathSize + 1)
    (fits : (dst ++ suffix).length ≤ maxPathSize) (plain : '\x00' ∉ dst ++ suffix) :
    ∃ buffer', memcpyS 0 maxPathSize dst dst.length
        (overwrite buffer dst.length (suffix ++ ['\x00'])) = .ok () buffer' ∧
      HoldsName buffer' (dst ++ suffix) := by
  rw [List.length_append] at fits
  have inside : dst.length + (suffix ++ ['\x00']).length ≤ buffer.length := by
    rw [size, List.length_append, List.length_singleton]
    omega
  have length := length_overwrite inside
  refine ⟨overwrite (overwrite buffer dst.length (suffix ++ ['\x00'])) 0 dst, ?_, ?_, plain, ?_⟩
  · rw [memcpyS_eq_ok, List.take_length]
    exact ⟨.inr ⟨by omega, Nat.le_refl _, by rw [length, size]; omega⟩, rfl⟩
  · rw [length_overwrite (by rw [length, size]; omega), length, size]
  · have front : (buffer.take dst.length).length = dst.length :=
      List.length_take_of_le (by omega)
    rw [overwrite_zero, overwrite, List.append_assoc (buffer.take dst.length),
      List.drop_left' front, List.append_assoc]
    exact (List.prefix_append_right_inj dst).mpr (List.prefix_append _ _)

/-- The file with the old path gets the new one. -/
theorem renameEntry_self (plain : '\x00' ∉ dst) (holds : HoldsName buffer src)
    (fits : dst.length ≤ maxPathSize) :
    ∃ buffer', renameEntry src dst buffer = .ok true buffer' ∧ HoldsName buffer' dst := by
  obtain ⟨rest, whole, -⟩ := holds.exists_rest
  have starts : strncmpEqual src.length (src ++ ['\x00']) buffer = true := by
    rw [whole]
    exact (strncmpEqual_iff holds.plain holds.plain).mpr (List.prefix_refl _)
  have next : buffer.getD src.length '\x00' = '\x00' := by
    rw [whole]
    simp
  obtain ⟨buffer', copied, after⟩ := copy_front holds.size
    (show (dst ++ []).length ≤ maxPathSize by rw [List.append_nil]; exact fits)
    (by rw [List.append_nil]; exact plain)
  rw [List.append_nil] at after
  have stored : storeChar dst.length '\x00' buffer =
      .ok () (overwrite buffer dst.length ([] ++ ['\x00'])) :=
    storeChar_eq_ok.mpr ⟨by rw [holds.size]; omega, rfl⟩
  refine ⟨buffer', ?_, after⟩
  unfold renameEntry
  rw [get_bind_apply, if_pos ⟨starts, .inr next⟩, if_pos next, bind_eq_ok]
  refine ⟨(), _, stored, ?_⟩
  rw [bind_eq_ok]
  exact ⟨(), _, copied, rfl⟩

/-- A file below the old path keeps what stands behind it. -/
theorem renameEntry_below {suffix : Text} (plainDst : '\x00' ∉ dst)
    (holds : HoldsName buffer (src ++ '\\' :: suffix))
    (fits : (dst ++ '\\' :: suffix).length ≤ maxPathSize) :
    ∃ buffer', renameEntry src dst buffer = .ok false buffer' ∧
      HoldsName buffer' (dst ++ '\\' :: suffix) := by
  obtain ⟨rest, whole, total⟩ := holds.exists_rest
  have parts := holds.plain
  rw [List.mem_append, not_or] at parts
  have starts : strncmpEqual src.length (src ++ ['\x00']) buffer = true := by
    rw [whole]
    exact (strncmpEqual_iff parts.1 holds.plain).mpr (List.prefix_append _ _)
  have next : buffer.getD src.length '\x00' = '\\' := by
    rw [whole]
    simp
  have plain : '\x00' ∉ dst ++ '\\' :: suffix := by
    rw [List.mem_append, not_or]
    exact ⟨plainDst, parts.2⟩
  have temp : cString (buffer.drop src.length) = '\\' :: suffix := by
    rw [whole, List.append_assoc, List.drop_left]
    exact takeWhile_terminated parts.2
  obtain ⟨buffer', copied, after⟩ := copy_front holds.size fits plain
  simp only [List.length_append, List.length_cons] at fits total
  refine ⟨buffer', ?_, after⟩
  unfold renameEntry
  rw [get_bind_apply, if_pos ⟨starts, .inl next⟩, if_neg (by rw [next]; decide), temp,
    throwIf_bind_of_not (by simp only [List.length_cons]; omega), bind_eq_ok]
  refine ⟨(), _, strcpyS_eq_ok ?_ ?_, ?_⟩
  · have limit : maxPathSize = 127 := rfl
    rw [limit] at fits
    rw [limit, sizeSub, List.length_cons]
    omega
  · rw [holds.size, List.length_cons]
    omega
  · rw [bind_eq_ok]
    exact ⟨(), _, copied, rfl⟩

/-- Any other file is left alone. -/
theorem renameEntry_other (plainSrc : '\x00' ∉ src) (holds : HoldsName buffer name)
    (other : ¬Below src name) : renameEntry src dst buffer = .ok false buffer := by
  obtain ⟨rest, whole, -⟩ := holds.exists_rest
  have skipped : ¬(strncmpEqual src.length (src ++ ['\x00']) buffer = true ∧
      (buffer.getD src.length '\x00' = '\\' ∨ buffer.getD src.length '\x00' = '\x00')) := by
    rintro ⟨starts, next⟩
    rw [whole] at starts next
    obtain ⟨suffix, rfl⟩ := (strncmpEqual_iff plainSrc holds.plain).mp starts
    apply other
    refine ⟨List.prefix_append _ _, ?_⟩
    rw [List.drop_left]
    rw [List.append_assoc] at next
    cases suffix with
    | nil => exact .inl rfl
    | cons letter suffix =>
      refine .inr ?_
      have plain := holds.plain
      rw [List.mem_append, List.mem_cons, not_or, not_or] at plain
      have here : (src ++ (letter :: suffix ++ '\x00' :: rest)).getD src.length '\x00' = letter := by
        simp
      rw [here] at next
      rw [List.head?_cons]
      exact congrArg some (next.resolve_right fun null => plain.2.1 null.symm)
  unfold renameEntry
  rw [get_bind_apply, if_neg skipped]
  rfl

/-- A name whose new form fits gets that form, and the file to move is found by its name. -/
theorem renameEntry_spec (plainSrc : '\x00' ∉ src) (plainDst : '\x00' ∉ dst)
    (holds : HoldsName buffer name)
    (fits : Below src name → (moved src dst name).length ≤ maxPathSize) :
    ∃ buffer', renameEntry src dst buffer = .ok (decide (name = src)) buffer' ∧
      HoldsName buffer' (moved src dst name) := by
  by_cases below : Below src name
  · obtain rfl | ⟨suffix, rfl⟩ := below_iff.mp below
    · have room := fits below
      rw [moved_self] at room ⊢
      rw [decide_eq_true rfl]
      exact renameEntry_self plainDst holds room
    · have room := fits below
      rw [moved_append below] at room ⊢
      rw [decide_eq_false (by simp)]
      exact renameEntry_below plainDst holds room
  · have apart : name ≠ src := fun same => below (below_iff.mpr (.inl same))
    rw [moved_of_not below, decide_eq_false apart]
    exact ⟨buffer, renameEntry_other plainSrc holds below, holds⟩

/-- The loop of `MoveFile` gives every name its new form and finds the last file with the path. -/
theorem renameAll_spec (plainSrc : '\x00' ∉ src) (plainDst : '\x00' ∉ dst) {fn : Nat → Text}
    (used : List Nat) (nodup : used.Nodup) {names : Nat → Text}
    (holds : ∀ index ∈ used, HoldsName (names index) (fn index))
    (fits : ∀ index ∈ used, Below src (fn index) →
      (moved src dst (fn index)).length ≤ maxPathSize) (target : Option Nat) :
    ∃ names', renameAll src dst used target names =
        .ok (((used.filter fun index => fn index = src).getLast?).or target) names' ∧
      (∀ index ∈ used, HoldsName (names' index) (moved src dst (fn index))) ∧
      ∀ index, index ∉ used → names' index = names index := by
  induction used generalizing names target with
  | nil => exact ⟨names, rfl, nofun, fun _ _ => rfl⟩
  | cons index rest ih =>
    obtain ⟨absent, nodupRest⟩ := List.nodup_cons.mp nodup
    obtain ⟨buffer', renames, after⟩ := renameEntry_spec plainSrc plainDst
      (holds index List.mem_cons_self) (fits index List.mem_cons_self)
    have others : ∀ other ∈ rest, HoldsName (Function.update names index buffer' other)
        (fn other) := by
      intro other member
      have apart : other ≠ index := fun same => absent (same ▸ member)
      rw [Function.update_of_ne apart]
      exact holds other (List.mem_cons_of_mem _ member)
    obtain ⟨names', renamesRest, afterRest, frame⟩ := ih nodupRest others
      (fun other member => fits other (List.mem_cons_of_mem _ member))
      (if decide (fn index = src) then some index else target)
    refine ⟨names', ?_, ?_, ?_⟩
    · unfold renameAll
      rw [get_bind_apply, renames]
      dsimp only
      rw [set_bind_apply, renamesRest]
      by_cases here : fn index = src
      · have listed : (index :: rest).filter (fun other => fn other = src) =
            index :: rest.filter fun other => fn other = src :=
          List.filter_cons_of_pos (decide_eq_true here)
        rw [listed, List.getLast?_cons, if_pos (decide_eq_true here)]
        cases (rest.filter fun other => fn other = src).getLast? with
        | none => rfl
        | some last => rfl
      · have skipped : (index :: rest).filter (fun other => fn other = src) =
            rest.filter fun other => fn other = src :=
          List.filter_cons_of_neg (by simpa using here)
        rw [skipped, if_neg (by simpa using here)]
    · intro other member
      cases member with
      | head =>
        rw [frame index absent, Function.update_self]
        exact after
      | tail _ member => exact afterRest other member
    · intro other outside
      rw [List.mem_cons, not_or] at outside
      rw [frame other outside.2, Function.update_of_ne outside.1]

/-! ## The whole function -/

/-- A state whose lists and tree are in order, whatever the names and the codes of the files are. -/
structure Standing (fs : ReferenceFs) (used free : List Nat) : Prop where
  /-- The lists. -/
  slots : Slots fs used free
  /-- The children. -/
  shape : Shape fs used
  /-- The root is the only file without a parent. -/
  root : ∀ index ∈ used, fs.parentLink index = none ↔ index = 0
  /-- The root has no parent in the array. -/
  rootParent : maxFileNum ≤ (fs.files 0).parent

variable {fs fs' : ReferenceFs} {used free : List Nat}

/-- What every regular call keeps is more than that. -/
theorem Kept.standing {all : Prop} (kept : Kept all fs used free) : Standing fs used free where
  slots := kept.slots
  shape := kept.tree.shape kept.coded.sized
  root := by
    intro index member
    constructor
    · intro link
      by_contra notRoot
      rw [kept.tree.parentLink_eq member notRoot] at link
      cases link
    · rintro rfl
      exact kept.tree.parentLink_root
  rootParent := by
    rw [kept.tree.rootParent]
    decide

/-- Two states that differ in names and versions. -/
structure SameButNames (before after : ReferenceFs) : Prop where
  /-- The files. -/
  files : ∀ index, ∃ fn ver,
    after.files index = { before.files index with fn := fn, ver := ver }
  /-- The used list. -/
  usedList : after.usedList = before.usedList
  /-- The free list. -/
  freeList : after.freeList = before.freeList
  /-- The length of the free list. -/
  freeNum : after.freeNum = before.freeNum

/-- Names and versions do not matter for the lists and the tree. -/
theorem Standing.congr (standing : Standing fs used free) (same : SameButNames fs fs') :
    Standing fs' used free := by
  have links : ∀ index, fs'.parentLink index = fs.parentLink index := by
    intro index
    obtain ⟨fn, ver, file⟩ := same.files index
    unfold ReferenceFs.parentLink
    rw [file]
  refine ⟨?_, ?_, fun index member => by rw [links]; exact standing.root index member, ?_⟩
  · refine standing.slots.congr (fun index => ?_) same.usedList same.freeList same.freeNum
    obtain ⟨fn, ver, file⟩ := same.files index
    rw [file]
  · refine standing.shape.congr links (fun index => ?_) (fun index => ?_) (fun index _ => ?_)
      fun index sized => ?_
    all_goals obtain ⟨fn, ver, file⟩ := same.files index
    · rw [file]
    · rw [file]
      exact ⟨rfl, rfl⟩
    · rw [file]
      exact .refl _
    · rw [file]
      exact sized
  · obtain ⟨fn, ver, file⟩ := same.files 0
    rw [file]
    exact standing.rootParent

/-- Names and versions do not matter for the lengths of the codes. -/
theorem SameButNames.sameSizes (same : SameButNames fs fs') : fs.SameSizes fs' := by
  refine ⟨fun index => ?_, fun index => ?_, fun index => ?_⟩
  · obtain ⟨fn, ver, file⟩ := same.files index
    rw [file]
  · obtain ⟨fn, ver, file⟩ := same.files index
    rw [file]
  · obtain ⟨fn, ver, file⟩ := same.files index
    rw [file]
    exact .refl _

/-- A move renames the path and everything below it and nothing else; when the path does not exist,
it throws and changes nothing. -/
def MovesExactly (fs : ReferenceFs) (src dst : Text)
    (result : EStateM.Result Fault ReferenceFs Unit) : Prop :=
  if ∃ index ∈ fs.usedFiles, (fs.files index).fn = src then
    ∃ fs', result = .ok () fs' ∧ fs'.usedFiles = fs.usedFiles ∧ ∀ index ∈ fs.usedFiles,
      ((fs.files index).fn = src → (fs'.files index).fn = dst) ∧
      (∀ rest, (fs.files index).fn = src ++ '\\' :: rest →
        (fs'.files index).fn = dst ++ '\\' :: rest) ∧
      ((fs.files index).fn ≠ src → (∀ rest, (fs.files index).fn ≠ src ++ '\\' :: rest) →
        (fs'.files index).fn = (fs.files index).fn)
  else result = .error .thrown fs

/-- The file that `MoveFile` takes for the one to move. -/
def moveTarget (fs : ReferenceFs) (src : Text) : Option Nat :=
  (fs.usedFiles.filter fun index => (fs.files index).fn = src).getLast?

/-- There is a file to move exactly when the path exists. -/
theorem moveTarget_eq_none {src : Text} :
    moveTarget fs src = none ↔ ∀ index ∈ fs.usedFiles, (fs.files index).fn ≠ src := by
  rw [moveTarget, List.getLast?_eq_none_iff, List.filter_eq_nil_iff]
  simp only [decide_eq_true_eq, ne_eq]

/-- The names after a move, read off one form of the name. -/
theorem moved_clauses {src dst path path' : Text} (moves : path' = moved src dst path) :
    (path = src → path' = dst) ∧
      (∀ rest, path = src ++ '\\' :: rest → path' = dst ++ '\\' :: rest) ∧
      (path ≠ src → (∀ rest, path ≠ src ++ '\\' :: rest) → path' = path) := by
  refine ⟨?_, ?_, ?_⟩
  · rintro rfl
    rw [moves, moved_self]
  · rintro rest rfl
    rw [moves, moved_append (below_iff.mpr (.inr ⟨rest, rfl⟩))]
  · intro apart other
    rw [moves]
    apply moved_of_not
    rw [below_iff]
    rintro (same | ⟨rest, same⟩)
    · exact apart same
    · exact other rest same

/-- The state of `MoveFile` before the repair: the lists and the tree stay, and the names are moved. -/
theorem renamed_spec (fs : ReferenceFs) (src dst : Text) :
    SameButNames fs (renamed fs fs.usedFiles src dst) ∧ ∀ index ∈ fs.usedFiles,
      ((renamed fs fs.usedFiles src dst).files index).fn = moved src dst (fs.files index).fn := by
  refine ⟨⟨fun index => ?_, rfl, rfl, rfl⟩, fun index member => by rw [renamed_file member]⟩
  by_cases member : index ∈ fs.usedFiles
  · rw [renamed_file member]
    exact ⟨_, _, rfl⟩
  · exact ⟨(fs.files index).fn, (fs.files index).ver, if_neg member⟩

/-- The renaming gives the same state exactly when no name has changed. -/
theorem renamed_eq_self :
    renamed fs fs.usedFiles src dst = fs ↔
      ∀ index ∈ fs.usedFiles, moved src dst (fs.files index).fn = (fs.files index).fn := by
  constructor
  · intro same index member
    rw [← (renamed_spec fs src dst).2 index member, same]
  · intro unchanged
    have files : (renamed fs fs.usedFiles src dst).files = fs.files := by
      funext index
      by_cases member : index ∈ fs.usedFiles
      · rw [renamed_file member, unchanged index member]
      · exact if_neg member
    cases fs
    simp only [renamed] at files ⊢
    rw [files]

/-- A name is changed by a move exactly when it lies below the path and the paths differ. -/
theorem moved_eq_self_iff {src dst path : Text} :
    moved src dst path = path ↔ (Below src path → dst = src) := by
  constructor
  · intro same below
    obtain rfl | ⟨rest, rfl⟩ := below_iff.mp below
    · rwa [moved_self] at same
    · rw [moved_append below] at same
      exact List.append_cancel_right same
  · intro trivial
    by_cases below : Below src path
    · obtain rfl := trivial below
      obtain rfl | ⟨rest, rfl⟩ := below_iff.mp below
      · exact moved_self _ _
      · exact moved_append below
    · exact moved_of_not below

/-- When the new names fit, no name is too long. -/
theorem not_tooLong (fits : ∀ index ∈ fs.usedFiles, Below src (fs.files index).fn →
      (moved src dst (fs.files index).fn).length ≤ maxPathSize) :
    ¬∃ index ∈ fs.usedFiles, Below src (fs.files index).fn ∧
      maxPathSize < (moved src dst (fs.files index).fn).length := by
  rintro ⟨index, member, below, long⟩
  exact Nat.not_lt.mpr (fits index member below) long

section

variable (fits : ∀ index ∈ fs.usedFiles, Below src (fs.files index).fn →
  (moved src dst (fs.files index).fn).length ≤ maxPathSize)

include fits

/-- A path that does not exist throws, after everything below it was renamed. -/
theorem moveFile_missing (missing : moveTarget fs src = none) :
    moveFile src dst fs = .error .thrown (renamed fs fs.usedFiles src dst) := by
  unfold moveTarget at missing
  unfold moveFile
  rw [get_bind_apply, throwIf_bind_of_not (not_tooLong fits), missing]
  rfl

/-- A file whose parent is outside the array, as the root is, is followed out of the array. -/
theorem moveFile_outside {target : Nat} (found : moveTarget fs src = some target)
    (outside : maxFileNum ≤ (fs.files target).parent) :
    moveFile src dst fs = .error .undefined (renamed fs fs.usedFiles src dst) := by
  unfold moveTarget at found
  unfold moveFile
  rw [get_bind_apply, throwIf_bind_of_not (not_tooLong fits), found]
  dsimp only
  rw [set_bind_apply, throwIf_bind_of outside]
  rfl

/-- A file in a directory: the code of the directory is repaired in the state with the new names. -/
theorem moveFile_found {target : Nat} (found : moveTarget fs src = some target)
    (inside : (fs.files target).parent < maxFileNum) :
    moveFile src dst fs = updateEncode (fs.files target).parent
      ((renamed fs fs.usedFiles src dst).setFile (fs.files target).parent
        (aged ((renamed fs fs.usedFiles src dst).files (fs.files target).parent))) := by
  unfold moveTarget at found
  unfold moveFile
  rw [get_bind_apply, throwIf_bind_of_not (not_tooLong fits), found]
  dsimp only
  rw [set_bind_apply, throwIf_bind_of_not (Nat.not_le.mpr inside), modify_bind_apply]
  rfl

end

/-- On arrays that hold the names, the function in place is `MoveFile` of the names. -/
theorem moveFileInPlace_eq_moveFile (nodup : fs.usedFiles.Nodup) {names : Nat → Text}
    (plainSrc : '\x00' ∉ src) (plainDst : '\x00' ∉ dst)
    (holds : ∀ index ∈ fs.usedFiles, HoldsName (names index) (fs.files index).fn)
    (fits : ∀ index ∈ fs.usedFiles, Below src (fs.files index).fn →
      (moved src dst (fs.files index).fn).length ≤ maxPathSize) :
    moveFileInPlace src dst names fs = moveFile src dst fs := by
  obtain ⟨names', renames, after, -⟩ :=
    renameAll_spec plainSrc plainDst fs.usedFiles nodup holds fits none
  rw [Option.or_none] at renames
  have read : fs.readNames names' = renamed fs fs.usedFiles src dst := by
    unfold ReferenceFs.readNames renamed
    congr 1
    funext index
    by_cases member : index ∈ fs.usedFiles
    · rw [if_pos member, if_pos member, (after index member).cString_eq]
    · rw [if_neg member, if_neg member]
  unfold moveFileInPlace moveFile
  rw [get_bind_apply, renames, get_bind_apply, throwIf_bind_of_not (not_tooLong fits)]
  dsimp only
  rw [set_bind_apply, set_bind_apply, read]
  rfl

/-- The state of `MoveFile` in front of the repair, with the version of the directory. -/
theorem SameButNames.aged (same : SameButNames fs fs') (dir : Nat) :
    SameButNames fs (fs'.setFile dir (aged (fs'.files dir))) ∧
      ∀ index, ((fs'.setFile dir (RefFs.aged (fs'.files dir))).files index).fn =
        (fs'.files index).fn := by
  have files : ∀ index, ((fs'.setFile dir (RefFs.aged (fs'.files dir))).files index).fn =
      (fs'.files index).fn ∧ ∃ fn ver,
        (fs'.setFile dir (RefFs.aged (fs'.files dir))).files index =
          { fs.files index with fn := fn, ver := ver } := by
    intro index
    obtain ⟨fn, ver, file⟩ := same.files index
    by_cases here : index = dir
    · subst here
      rw [ReferenceFs.setFile_self, file]
      exact ⟨rfl, _, _, rfl⟩
    · rw [ReferenceFs.setFile_of_ne here, file]
      exact ⟨rfl, fn, ver, rfl⟩
  exact ⟨⟨fun index => (files index).2, same.usedList, same.freeList, same.freeNum⟩,
    fun index => (files index).1⟩

/-- The move of a file in a directory is exact if and only if the codes above it fit: the names are
changed before the codes are repaired, and the repair throws when one of them does not fit. -/
theorem moveFile_exact_iff_fits (standing : Standing fs used free)
    (fits : ∀ index ∈ fs.usedFiles, Below src (fs.files index).fn →
      (moved src dst (fs.files index).fn).length ≤ maxPathSize) {target : Nat}
    (found : moveTarget fs src = some target) (notRoot : target ≠ 0) :
    MovesExactly fs src dst (moveFile src dst fs) ↔
      fs.FitsUpwards (maxFileNum + 1) (fs.files target).parent := by
  have usedFiles := standing.slots.usedFiles_eq
  obtain ⟨member, path⟩ := List.mem_filter.mp (List.mem_of_getLast? found)
  have listed : target ∈ used := usedFiles ▸ member
  -- the parent of the file is a directory of the tree
  obtain ⟨parent, link⟩ : ∃ parent, fs.parentLink target = some parent :=
    Option.ne_none_iff_exists'.mp fun none => notRoot ((standing.root target listed).mp none)
  obtain ⟨parentUsed, parentDir, -⟩ := standing.shape.listed target listed parent link
  have value : (fs.files target).parent = parent := by
    unfold ReferenceFs.parentLink at link
    split at link
    · cases link
    · exact Option.some.inj link
  have inside : (fs.files target).parent < maxFileNum := by
    rw [value]
    exact standing.slots.used_lt parentUsed
  obtain ⟨same, names⟩ := renamed_spec fs src dst
  obtain ⟨sameLast, lastNames⟩ := same.aged parent
  rw [MovesExactly, if_pos ⟨target, member, of_decide_eq_true path⟩, moveFile_found fits found inside,
    value]
  have standing' := standing.congr sameLast
  have stillDir : (((renamed fs fs.usedFiles src dst).setFile parent
      (aged ((renamed fs fs.usedFiles src dst).files parent))).files parent).isDir = true := by
    obtain ⟨fn, ver, file⟩ := sameLast.files parent
    rw [file]
    exact parentDir
  obtain ⟨returns, throws⟩ :=
    updateEncodeWithin_cases standing'.shape parentUsed stillDir (maxFileNum + 1)
  rw [sameLast.sameSizes.fitsUpwards_iff] at returns throws
  constructor
  · rintro ⟨fs', runs, -⟩
    by_contra overflow
    obtain ⟨fault, next, stops⟩ := throws overflow
    cases stops.symm.trans runs
  · intro room
    obtain ⟨next, runs, recoded⟩ := returns room
    refine ⟨next, runs, ?_, ?_⟩
    · have usedList := congrArg ReferenceFs.usedList recoded.others
      have freeList := congrArg ReferenceFs.freeList recoded.others
      have freeNum := congrArg ReferenceFs.freeNum recoded.others
      have slots : Slots next used free := standing'.slots.congr
        (fun index => (recoded.files index).next) usedList freeList freeNum
      rw [slots.usedFiles_eq, usedFiles]
    · intro index member
      apply moved_clauses
      rw [(recoded.files index).fn, lastNames]
      exact names index member

/-- In every state with its lists and its tree in order, whatever the names and the codes in it, a
move whose names fit is exact if and only if the file to move is not the root; when there is none,
nothing lies below the path (or it would be moved to where it is); and when there is one, the codes
of the directories above it fit. -/
theorem moveFileInPlace_exact_iff (standing : Standing fs used free) {names : Nat → Text}
    (plainSrc : '\x00' ∉ src) (plainDst : '\x00' ∉ dst)
    (holds : ∀ index ∈ fs.usedFiles, HoldsName (names index) (fs.files index).fn)
    (fits : ∀ index ∈ fs.usedFiles, Below src (fs.files index).fn →
      (moved src dst (fs.files index).fn).length ≤ maxPathSize) :
    MovesExactly fs src dst (moveFileInPlace src dst names fs) ↔
      moveTarget fs src ≠ some 0 ∧
        (moveTarget fs src = none →
          ∀ index ∈ fs.usedFiles, Below src (fs.files index).fn → dst = src) ∧
        ∀ target, moveTarget fs src = some target →
          fs.FitsUpwards (maxFileNum + 1) (fs.files target).parent := by
  have nodup : fs.usedFiles.Nodup := by
    rw [standing.slots.usedFiles_eq]
    exact (List.nodup_append.mp standing.slots.nodup).1
  rw [moveFileInPlace_eq_moveFile nodup plainSrc plainDst holds fits]
  cases found : moveTarget fs src with
  | none =>
    have absent := moveTarget_eq_none.mp found
    have missing : ¬∃ index ∈ fs.usedFiles, (fs.files index).fn = src := by
      rintro ⟨index, member, path⟩
      exact absent index member path
    rw [MovesExactly, if_neg missing, moveFile_missing fits found]
    simp only [EStateM.Result.error.injEq, true_and, renamed_eq_self, moved_eq_self_iff, ne_eq,
      reduceCtorEq, not_false_eq_true, forall_const, false_implies, and_true]
  | some target =>
    by_cases isRoot : target = 0
    · subst isRoot
      obtain ⟨member, path⟩ := List.mem_filter.mp (List.mem_of_getLast? found)
      rw [MovesExactly, if_pos ⟨0, member, of_decide_eq_true path⟩,
        moveFile_outside fits found standing.rootParent]
      refine iff_of_false ?_ fun conditions => conditions.1 rfl
      rintro ⟨fs', runs, -⟩
      cases runs
    · rw [moveFile_exact_iff_fits standing fits found isRoot]
      constructor
      · intro room
        refine ⟨fun same => isRoot (Option.some.inj same), nofun, ?_⟩
        rintro _ ⟨⟩
        exact room
      · exact fun conditions => conditions.2.2 target rfl

/-- An array with a name in front and terminators behind it. -/
def padName (name : Text) : Text := name ++ List.replicate (maxPathSize + 1 - name.length) '\x00'

/-- Such an array holds the name. -/
theorem holdsName_padName {name : Text} (plain : '\x00' ∉ name) (short : name.length ≤ maxPathSize) :
    HoldsName (padName name) name where
  size := by
    rw [padName, List.length_append, List.length_replicate]
    omega
  plain := plain
  terminated := by
    have room : maxPathSize + 1 - name.length = (maxPathSize - name.length) + 1 := by omega
    rw [padName, room, List.replicate_succ]
    exact (List.prefix_append_right_inj name).mpr ⟨_, rfl⟩

/-- The root is moved: the function writes outside its array. -/
theorem moveFileInPlace_root :
    ¬MovesExactly ReferenceFs.zero.initialized "\\".toList "\\a".toList
      (moveFileInPlace "\\".toList "\\a".toList (fun _ => padName "\\".toList)
        ReferenceFs.zero.initialized) := by
  have usedFiles : ReferenceFs.zero.initialized.usedFiles = [0] :=
    (initialized_slots ReferenceFs.zero).usedFiles_eq
  have holds : ∀ index ∈ ReferenceFs.zero.initialized.usedFiles,
      HoldsName (padName "\\".toList) (ReferenceFs.zero.initialized.files index).fn := by
    intro index member
    rw [usedFiles] at member
    rw [List.mem_singleton.mp member]
    exact holdsName_padName (by decide) (by decide)
  have fits : ∀ index ∈ ReferenceFs.zero.initialized.usedFiles,
      Below "\\".toList (ReferenceFs.zero.initialized.files index).fn →
        (moved "\\".toList "\\a".toList
          (ReferenceFs.zero.initialized.files index).fn).length ≤ maxPathSize := by
    intro index member _
    rw [usedFiles] at member
    rw [List.mem_singleton.mp member]
    decide
  have target : moveTarget ReferenceFs.zero.initialized "\\".toList = some 0 := by
    rw [moveTarget, usedFiles]
    decide
  rw [moveFileInPlace_eq_moveFile (by rw [usedFiles]; exact List.nodup_singleton 0) (by decide)
    (by decide) holds fits, moveFile_outside fits target (by decide), MovesExactly]
  split
  · rintro ⟨fs', runs, -⟩
    cases runs
  · intro runs
    cases runs

/-- A directory with a file in it is moved, next to a file whose name begins in the same way. -/
theorem moveFileInPlace_exact_iff_sample :
    ∃ fs, follow (fun fs call => Proper fs call ∧ Regular fs call)
        [.addPath "\\a".toList true 1, .addPath "\\a\\b".toList false 2,
          .addPath "\\ab".toList false 3] ReferenceFs.zero.initialized = some fs ∧
      MovesExactly fs "\\a".toList "\\long".toList (moveFileInPlace "\\a".toList
        "\\long".toList (fun index => padName (fs.files index).fn) fs) := by
  let built := follow (fun fs call => Proper fs call ∧ Regular fs call)
    [.addPath "\\a".toList true 1, .addPath "\\a\\b".toList false 2,
      .addPath "\\ab".toList false 3] ReferenceFs.zero.initialized
  have facts : built.isSome = true ∧ built.map (fun fs => moveTarget fs "\\a".toList) =
        some (some 1) ∧
      built.map (fun fs => decide (∀ index ∈ fs.usedFiles, '\x00' ∉ (fs.files index).fn ∧
        (fs.files index).fn.length ≤ 100)) = some true ∧
      built.map (fun fs => decide (∀ index ∈ fs.usedFiles,
        (moved "\\a".toList "\\long".toList (fs.files index).fn).length ≤ maxPathSize)) =
        some true ∧
      built.map (fun fs => decide (fs.FitsUpwards (maxFileNum + 1) (fs.files 1).parent)) =
        some true := by
    decide +kernel
  obtain ⟨done, target, names, fits, codes⟩ := facts
  obtain ⟨fs, last⟩ := Option.isSome_iff_exists.mp done
  rw [last, Option.map_some] at target names fits codes
  have target := Option.some.inj target
  have names := of_decide_eq_true (Option.some.inj names)
  have fits := of_decide_eq_true (Option.some.inj fits)
  have codes := of_decide_eq_true (Option.some.inj codes)
  obtain ⟨used, free, kept⟩ := Run.kept
    (initialized_kept (show ¬False → ReferenceFs.zero.fileNum = 0 from fun _ => rfl) fun _ => rfl)
    (fun _ _ passes => ⟨passes.1, passes.2.allowed⟩) (Run.follow .start last)
  refine ⟨fs, last, ?_⟩
  apply (moveFileInPlace_exact_iff kept.standing (by decide) (by decide) ?_ ?_).mpr
  · rw [target]
    refine ⟨by decide, nofun, ?_⟩
    rintro _ ⟨⟩
    exact codes
  · intro index member
    have name := names index member
    exact holdsName_padName name.1 (name.2.trans (by decide))
  · exact fun index member _ => fits index member

end FsChecking.RefFs
