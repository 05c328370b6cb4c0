import FsChecking.FullTester.Reference
import FsChecking.Lib.Chain

/-!
# Slots of the reference

Every file of the reference is in a slot of an array. The slots that no path owns form a list through
the checksums, which ends at the slot of the root.
-/

namespace FsChecking.FullTester

open FsChecking.Lib

/-! ## The map -/

section Map

variable {ref : List (Path × Nat)} {path : Path} {index : Nat}

/-- Inserting a path that is not there. -/
theorem insertKey_perm (absent : path ∉ ref.map Prod.fst) :
    (insertKey ref path index).Perm ((path, index) :: ref) := by
  induction ref with
  | nil => exact List.Perm.refl _
  | cons entry ref ih =>
    obtain ⟨other, old⟩ := entry
    rw [List.map_cons, List.mem_cons, not_or] at absent
    unfold insertKey
    rw [if_neg absent.1]
    by_cases before : path < other
    · rw [if_pos before]
    · rw [if_neg before]
      exact ((ih absent.2).cons _).trans (List.Perm.swap ..)

/-- Looking a path up in a map without repeated keys. -/
theorem lookup_iff (nodup : (ref.map Prod.fst).Nodup) :
    ref.lookup path = some index ↔ (path, index) ∈ ref := by
  induction ref with
  | nil => simp
  | cons entry ref ih =>
    obtain ⟨other, old⟩ := entry
    rw [List.map_cons, List.nodup_cons] at nodup
    rw [List.lookup_cons, List.mem_cons]
    by_cases same : path = other
    · subst same
      simp only [beq_self_eq_true, Option.some.injEq]
      constructor
      · exact fun here => Or.inl (by rw [here])
      · rintro (here | later)
        · exact (Prod.mk.inj here).2.symm
        · exact absurd (List.mem_map_of_mem later) nodup.1
    · have differs : (path == other) = false := beq_eq_false_iff_ne.mpr same
      rw [differs]
      refine (ih nodup.2).trans ⟨Or.inr, ?_⟩
      rintro (here | later)
      · exact absurd (Prod.mk.inj here).1 same
      · exact later

/-- A path that is not found. -/
theorem lookup_none_iff : ref.lookup path = none ↔ path ∉ ref.map Prod.fst := by
  rw [List.lookup_eq_none_iff]
  constructor
  · intro apart member
    obtain ⟨entry, inside, rfl⟩ := List.mem_map.mp member
    exact absurd (apart entry inside) (by simp)
  · intro absent entry inside
    rw [bne_iff_ne]
    rintro rfl
    exact absent (List.mem_map_of_mem inside)

/-- Erasing a path takes its entry out. -/
theorem eraseKey_perm (nodup : (ref.map Prod.fst).Nodup) (member : (path, index) ∈ ref) :
    ref.Perm ((path, index) :: eraseKey ref path) := by
  induction ref with
  | nil => cases member
  | cons entry ref ih =>
    obtain ⟨other, old⟩ := entry
    rw [List.map_cons, List.nodup_cons] at nodup
    unfold eraseKey
    rw [List.filter_cons]
    by_cases same : other = path
    · subst same
      rw [if_neg (by simp)]
      have kept : ref.filter (fun entry => entry.1 ≠ other) = ref := by
        apply List.filter_eq_self.mpr
        intro entry inside
        apply decide_eq_true
        rintro rfl
        exact nodup.1 (List.mem_map.mpr ⟨entry, inside, rfl⟩)
      rw [kept]
      obtain here | later := List.mem_cons.mp member
      · rw [here]
      · exact absurd (List.mem_map_of_mem later) nodup.1
    · rw [if_pos (decide_eq_true same)]
      obtain here | later := List.mem_cons.mp member
      · exact absurd (Prod.mk.inj here).1.symm same
      · exact ((ih nodup.2 later).cons _).trans (List.Perm.swap ..)

end Map

/-! ## The invariant -/

/-- The index of the next free slot, or none at the end of the list, which is the slot of the root. -/
def pointer (index : Nat) : Option Nat := if index = 0 then none else some index

/-- The next slot on the list of free ones. -/
def ReferenceFs.link (fs : ReferenceFs) (slot : Nat) : Option Nat :=
  pointer (fs.files slot).checksum

/-- The paths in a directory. -/
def childrenOf (root : Path) (ref : List (Path × Nat)) (dir : Path) : List (Path × Nat) :=
  ref.filter fun entry => entry.1 ≠ root ∧ parentPath entry.1 = some dir

/-- The slots and the entries of a reference belong together. -/
structure Shape (root : Path) (fs : ReferenceFs) (free : List Nat) : Prop where
  /-- No path is stored twice. -/
  keys : (fs.ref.map Prod.fst).Nodup
  /-- The list of free slots. -/
  chain : Chain fs.link (pointer fs.freeList) free
  /-- Every slot is owned by a path or free. -/
  partition : (fs.ref.map Prod.snd ++ free).Perm (List.range maxFileNum)
  /-- The root is in the first slot. -/
  atRoot : (root, 0) ∈ fs.ref
  /-- The root is a directory. -/
  rootDir : (fs.files 0).isDir
  /-- Other paths are in directories. -/
  parents : ∀ entry ∈ fs.ref, entry.1 ≠ root → ∃ parent ∈ fs.ref,
    parentPath entry.1 = some parent.1 ∧ (fs.files parent.2).isDir

/-- The slots, the entries and the counters of a reference belong together. -/
structure Sound (root : Path) (fs : ReferenceFs) (free : List Nat) : Prop
    extends Shape root fs free where
  /-- Directories count what is in them. -/
  counts : ∀ entry ∈ fs.ref, (fs.files entry.2).isDir →
    (fs.files entry.2).checksum = (childrenOf root fs.ref entry.1).length

/-- The number of entries of a directory does not depend on their order. -/
theorem length_childrenOf_perm {root dir : Path} {ref ref' : List (Path × Nat)}
    (perm : ref.Perm ref') : (childrenOf root ref dir).length = (childrenOf root ref' dir).length :=
  (perm.filter _).length_eq

/-- One more entry counts for its parent. -/
theorem length_childrenOf_cons {root dir path parent : Path} {slot : Nat}
    {ref : List (Path × Nat)} (other : path ≠ root) (below : parentPath path = some parent) :
    (childrenOf root ((path, slot) :: ref) dir).length =
      (childrenOf root ref dir).length + if parent = dir then 1 else 0 := by
  unfold childrenOf
  rw [List.filter_cons]
  by_cases same : parent = dir
  · rw [if_pos same, if_pos (by simp [other, below, same])]
    rfl
  · rw [if_neg same, if_neg (by simp [below, same])]
    rfl

/-- The reference with another counter in a slot. -/
def ReferenceFs.recount (fs : ReferenceFs) (slot checksum : Nat) : ReferenceFs :=
  fs.setFile slot { fs.files slot with checksum }

/-- The slot with another counter. -/
theorem recount_self (fs : ReferenceFs) (slot checksum : Nat) :
    (fs.recount slot checksum).files slot = { fs.files slot with checksum } :=
  Function.update_self ..

/-- The other slots keep their files. -/
theorem recount_of_ne (fs : ReferenceFs) {slot other : Nat} (apart : other ≠ slot)
    (checksum : Nat) : (fs.recount slot checksum).files other = fs.files other :=
  Function.update_of_ne apart ..

/-- Another counter does not change what is a directory. -/
theorem isDir_recount (fs : ReferenceFs) (slot checksum other : Nat) :
    ((fs.recount slot checksum).files other).isDir = (fs.files other).isDir := by
  by_cases same : other = slot
  · rw [same, recount_self]
    rfl
  · rw [recount_of_ne fs same]

/-- Counting an entry of a directory that is found. -/
theorem countEntry_of_found {fs : ReferenceFs} {dir : Path} {slot : Nat}
    (found : fs.findFileIndex dir = some slot) :
    countEntry dir fs = .ok () (fs.recount slot (((fs.files slot).checksum + 1) % 2 ^ 32)) := by
  unfold countEntry
  rw [get_bind_apply, found]
  rfl

/-- No longer counting an entry of a directory that is found. -/
theorem uncountEntry_of_found {fs : ReferenceFs} {dir : Path} {slot : Nat}
    (found : fs.findFileIndex dir = some slot) :
    uncountEntry dir fs =
      .ok () (fs.recount slot (((fs.files slot).checksum + (2 ^ 32 - 1)) % 2 ^ 32)) := by
  unfold uncountEntry
  rw [get_bind_apply, found]
  rfl

namespace Shape

variable {root path parent : Path} {fs : ReferenceFs} {free : List Nat} {slot : Nat}

/-- No slot is used twice. -/
theorem nodup (shape : Shape root fs free) : (fs.ref.map Prod.snd ++ free).Nodup :=
  shape.partition.nodup_iff.mpr List.nodup_range

/-- There are as many slots as entries of the array. -/
theorem length (shape : Shape root fs free) : fs.ref.length + free.length = maxFileNum := by
  have length := shape.partition.length_eq
  rwa [List.length_append, List.length_map, List.length_range] at length

/-- The slot of a path that is found. -/
theorem found_iff (shape : Shape root fs free) :
    fs.findFileIndex path = some slot ↔ (path, slot) ∈ fs.ref := lookup_iff shape.keys

/-- Entries with the same slot have the same path. -/
theorem path_eq (shape : Shape root fs free) {first second : Path × Nat} (left : first ∈ fs.ref)
    (right : second ∈ fs.ref) (same : first.2 = second.2) : first = second :=
  List.inj_on_of_nodup_map (List.nodup_append.mp shape.nodup).1 left right same

/-- The slot of a path is in the array. -/
theorem slot_lt (shape : Shape root fs free) {entry : Path × Nat} (member : entry ∈ fs.ref) :
    entry.2 < maxFileNum := by
  apply List.mem_range.mp
  apply shape.partition.mem_iff.mp
  exact List.mem_append_left free (List.mem_map_of_mem member)

/-- The slot of a path is not free. -/
theorem slot_notMem (shape : Shape root fs free) {entry : Path × Nat} (member : entry ∈ fs.ref) :
    entry.2 ∉ free :=
  fun inside => (List.nodup_append.mp shape.nodup).2.2 entry.2 (List.mem_map_of_mem member)
    entry.2 inside rfl

/-- Entries with the same path are the same. -/
theorem entry_eq (shape : Shape root fs free) {first second : Path × Nat} (left : first ∈ fs.ref)
    (right : second ∈ fs.ref) (same : first.1 = second.1) : first = second :=
  List.inj_on_of_nodup_map shape.keys left right same

/-- A path other than the root is not in the first slot. -/
theorem slot_ne_zero (shape : Shape root fs free) (member : (path, slot) ∈ fs.ref)
    (other : path ≠ root) : slot ≠ 0 := by
  rintro rfl
  exact other (congrArg Prod.fst (shape.path_eq member shape.atRoot rfl))

/-- Directories have few entries. -/
theorem length_childrenOf_le (shape : Shape root fs free) (dir : Path) :
    (childrenOf root fs.ref dir).length ≤ maxFileNum := by
  have length := shape.length
  have fewer : (childrenOf root fs.ref dir).length ≤ fs.ref.length := List.length_filter_le ..
  omega

/-- A chain of free slots does not depend on the slots of paths. -/
theorem chain_recount (shape : Shape root fs free) (member : (path, slot) ∈ fs.ref)
    (checksum : Nat) : Chain (fs.recount slot checksum).link (pointer fs.freeList) free := by
  refine shape.chain.congr fun node inside => ?_
  have apart : node ≠ slot := by
    rintro rfl
    exact shape.slot_notMem member inside
  unfold ReferenceFs.link
  rw [recount_of_ne fs apart]

/-- Another counter in the slot of a path. -/
theorem recount (shape : Shape root fs free) (member : (path, slot) ∈ fs.ref) (checksum : Nat) :
    Shape root (fs.recount slot checksum) free where
  keys := shape.keys
  chain := shape.chain_recount member checksum
  partition := shape.partition
  atRoot := shape.atRoot
  rootDir := by
    rw [isDir_recount]
    exact shape.rootDir
  parents := by
    intro entry inside other
    obtain ⟨parent, there, below, isDir⟩ := shape.parents entry inside other
    exact ⟨parent, there, below, by rwa [isDir_recount]⟩

end Shape

namespace Sound

variable {root path parent : Path} {fs : ReferenceFs} {free : List Nat} {slot : Nat}

/-- The list of free slots starts at the first one. -/
theorem freeList_eq (sound : Sound root fs (slot :: free)) : fs.freeList = slot := by
  have head := sound.chain.1
  unfold pointer at head
  split at head
  · cases head
  · exact Option.some.inj head

/-- The slot of a path is not the first free one. -/
theorem slot_ne (sound : Sound root fs (slot :: free)) {entry : Path × Nat}
    (member : entry ∈ fs.ref) : entry.2 ≠ slot :=
  fun same => sound.slot_notMem member (same ▸ List.mem_cons_self)

/-- The entries with a new path. -/
theorem withPath_perm (sound : Sound root fs (slot :: free)) (dir : Bool)
    (absent : fs.findFileIndex path = none) :
    (fs.withPath path dir).ref.Perm ((path, slot) :: fs.ref) := by
  rw [← sound.freeList_eq]
  exact insertKey_perm (lookup_none_iff.mp absent)

/-- The other slots keep their files. -/
theorem withPath_of_ne (sound : Sound root fs (slot :: free)) (path : Path) (dir : Bool)
    {other : Nat} (apart : other ≠ slot) :
    (fs.withPath path dir).files other = fs.files other := by
  rw [← sound.freeList_eq] at apart
  exact Function.update_of_ne apart ..

/-- The first free slot gets the new file. -/
theorem withPath_self (sound : Sound root fs (slot :: free)) (path : Path) (dir : Bool) :
    (fs.withPath path dir).files slot =
      { size := if dir then -1 else 0, checksum := 0, fn := path } := by
  rw [← sound.freeList_eq]
  exact Function.update_self ..

/-- A new path takes the first free slot. -/
theorem withPath (sound : Sound root fs (slot :: free)) (dir : Bool)
    (absent : fs.findFileIndex path = none) {parentSlot : Nat}
    (below : parentPath path = some parent) (inDir : (parent, parentSlot) ∈ fs.ref)
    (isDir : (fs.files parentSlot).isDir) : Shape root (fs.withPath path dir) free := by
  have notThere := lookup_none_iff.mp absent
  have nodupFree := (List.nodup_append.mp sound.nodup).2.1
  have perm := sound.withPath_perm dir absent
  have old : ∀ entry ∈ fs.ref, entry ∈ (fs.withPath path dir).ref :=
    fun entry inside => perm.mem_iff.mpr (List.mem_cons_of_mem _ inside)
  refine ⟨?_, ?_, ?_, old _ sound.atRoot, ?_, ?_⟩
  · rw [(perm.map Prod.fst).nodup_iff, List.map_cons, List.nodup_cons]
    exact ⟨notThere, sound.keys⟩
  · show Chain _ (pointer (fs.files fs.freeList).checksum) free
    rw [sound.freeList_eq]
    refine sound.chain.2.congr fun node inside => ?_
    have differs : node ≠ slot := by
      rintro rfl
      exact (List.nodup_cons.mp nodupFree).1 inside
    unfold ReferenceFs.link
    rw [sound.withPath_of_ne path dir differs]
  · refine ((perm.map Prod.snd).append_right free).trans ?_
    exact List.perm_middle.symm.trans sound.partition
  · rw [sound.withPath_of_ne path dir (sound.slot_ne sound.atRoot)]
    exact sound.rootDir
  · intro entry inside notRoot
    obtain rfl | inside := List.mem_cons.mp (perm.mem_iff.mp inside)
    · refine ⟨(parent, parentSlot), old _ inDir, below, ?_⟩
      rwa [sound.withPath_of_ne path dir (sound.slot_ne inDir)]
    · obtain ⟨upper, there, above, isDir'⟩ := sound.parents entry inside notRoot
      refine ⟨upper, old _ there, above, ?_⟩
      rwa [sound.withPath_of_ne path dir (sound.slot_ne there)]

/-- A path that is not there has no children. -/
theorem childrenOf_absent (sound : Sound root fs free) (absent : fs.findFileIndex path = none) :
    childrenOf root fs.ref path = [] := by
  apply List.filter_eq_nil_iff.mpr
  intro entry inside isChild
  obtain ⟨notRoot, above⟩ := of_decide_eq_true isChild
  obtain ⟨upper, there, above', _⟩ := sound.parents entry inside notRoot
  obtain same := Option.some.inj (above.symm.trans above')
  exact lookup_none_iff.mp absent (same ▸ List.mem_map_of_mem there)

/-- `AddPath` puts a path into the first free slot, when the counter is not zero. -/
theorem addPath (sound : Sound root fs (slot :: free)) (dir : Bool)
    (absent : fs.findFileIndex path = none) {parentSlot : Nat}
    (below : parentPath path = some parent) (inDir : (parent, parentSlot) ∈ fs.ref)
    (isDir : (fs.files parentSlot).isDir) (counted : fs.freeNum ≠ 0)
    (fits : path.length ≤ maxPathSize) :
    ∃ fs', FullTester.addPath path dir fs = .ok true fs' ∧ Sound root fs' free ∧
      fs'.ref.Perm ((path, slot) :: fs.ref) ∧ fs'.freeNum = fs.freeNum := by
  have notThere := lookup_none_iff.mp absent
  have perm := sound.withPath_perm dir absent
  have shape := sound.withPath dir absent below inDir isDir
  have inArray : slot < maxFileNum := by
    apply List.mem_range.mp
    apply sound.partition.mem_iff.mp
    exact List.mem_append_right _ List.mem_cons_self
  have other : path ≠ root := by
    rintro rfl
    exact notThere (List.mem_map_of_mem sound.atRoot)
  have apart : parent ≠ path := by
    rintro rfl
    exact notThere (List.mem_map_of_mem inDir)
  have inDir' := perm.mem_iff.mpr (List.mem_cons_of_mem _ inDir)
  refine ⟨(fs.withPath path dir).recount parentSlot
    ((((fs.withPath path dir).files parentSlot).checksum + 1) % 2 ^ 32), ?_,
    ⟨shape.recount inDir' _, ?_⟩, perm, rfl⟩
  · unfold FullTester.addPath
    have inList : ¬ fs.freeList ≥ maxFileNum := by
      rw [sound.freeList_eq]
      exact Nat.not_le_of_lt inArray
    rw [get_bind_apply, if_neg counted, throwIf_bind_of_not inList,
      throwIf_bind_of_not (Nat.not_lt_of_le fits), set_bind_apply, below]
    dsimp only
    rw [bind_apply, countEntry_of_found (shape.found_iff.mpr inDir')]
    rfl
  · intro entry inside isDir'
    have few : (childrenOf root fs.ref parent).length ≤ 100 := sound.length_childrenOf_le parent
    change (_ : Nat) = (childrenOf root (fs.withPath path dir).ref entry.1).length
    rw [length_childrenOf_perm perm, length_childrenOf_cons other below]
    rw [isDir_recount] at isDir'
    obtain rfl | inside := List.mem_cons.mp (perm.mem_iff.mp inside)
    · rw [recount_of_ne _ (Ne.symm (sound.slot_ne inDir)), sound.withPath_self, if_neg apart,
        sound.childrenOf_absent absent]
      rfl
    · have kept := sound.withPath_of_ne path dir (sound.slot_ne inside)
      rw [kept] at isDir'
      have before := sound.counts entry inside isDir'
      by_cases same : parent = entry.1
      · obtain rfl := sound.entry_eq inDir inside same
        rw [recount_self, kept, if_pos rfl]
        dsimp only at before ⊢
        rw [before, Nat.mod_eq_of_lt (by omega)]
      · have differs : entry.2 ≠ parentSlot := by
          intro equal
          exact same (congrArg Prod.fst (sound.path_eq inDir inside equal.symm))
        rw [recount_of_ne _ differs, kept, if_neg same]
        exact before

/-- Taking out a path that has no children puts its slot in front of the free ones. -/
theorem withoutPath (bits : Nat) (sound : Sound root fs free) (member : (path, slot) ∈ fs.ref)
    (other : path ≠ root)
    (leaf : ∀ entry ∈ fs.ref, entry.1 ≠ root → parentPath entry.1 ≠ some path) :
    Shape root (fs.withoutPath bits path slot) (slot :: free) := by
  have perm := eraseKey_perm sound.keys member
  have kept : ∀ entry ∈ fs.ref, entry.1 ≠ path → entry ∈ eraseKey fs.ref path :=
    fun entry inside apart => List.mem_filter.mpr ⟨inside, decide_eq_true apart⟩
  have owned : ∀ entry ∈ eraseKey fs.ref path, entry.2 ≠ slot := by
    intro entry inside same
    obtain ⟨inside, apart⟩ := List.mem_filter.mp inside
    exact of_decide_eq_true apart (congrArg Prod.fst (sound.path_eq inside member same))
  have unchanged : ∀ node, node ≠ slot →
      (fs.withoutPath bits path slot).files node = fs.files node :=
    fun node apart => Function.update_of_ne apart ..
  refine ⟨?_, ⟨if_neg (sound.slot_ne_zero member other), ?_⟩, ?_, ?_, ?_, ?_⟩
  · exact sound.keys.sublist (List.filter_sublist.map Prod.fst)
  · unfold ReferenceFs.link
    have freed : (fs.withoutPath bits path slot).files slot =
        { size := 0, checksum := fs.freeList, fn := [] } := Function.update_self ..
    rw [freed]
    refine sound.chain.congr fun node inside => ?_
    have apart : node ≠ slot := by
      rintro rfl
      exact sound.slot_notMem member inside
    unfold ReferenceFs.link
    rw [unchanged node apart]
  · refine List.Perm.trans ?_ sound.partition
    exact List.perm_middle.trans ((perm.map Prod.snd).append_right free).symm
  · exact kept _ sound.atRoot (Ne.symm other)
  · rw [unchanged 0 (Ne.symm (sound.slot_ne_zero member other))]
    exact sound.rootDir
  · intro entry inside notRoot
    have inside' := (List.mem_filter.mp inside).1
    obtain ⟨upper, there, above, isDir⟩ := sound.parents entry inside' notRoot
    have apart : upper.1 ≠ path := by
      intro same
      exact leaf entry inside' notRoot (same ▸ above)
    have there' := kept upper there apart
    refine ⟨upper, there', above, ?_⟩
    rwa [unchanged upper.2 (owned upper there')]

/-- `RemoveFile` frees the slot of a path without children. -/
theorem removeFile (bits : Nat) (sound : Sound root fs free) (found : fs.findFileIndex path = some slot)
    (other : path ≠ root)
    (leaf : ∀ entry ∈ fs.ref, entry.1 ≠ root → parentPath entry.1 ≠ some path) :
    ∃ fs', FullTester.removeFile bits path fs = .ok () fs' ∧ Sound root fs' (slot :: free) := by
  have member := sound.found_iff.mp found
  have shape := sound.withoutPath bits member other leaf
  obtain ⟨upper, there, below, isDir⟩ := sound.parents _ member other
  obtain ⟨parent, parentSlot⟩ := upper
  have apart : parent ≠ path := by
    rintro rfl
    exact leaf _ member other below
  have there' : (parent, parentSlot) ∈ (fs.withoutPath bits path slot).ref :=
    List.mem_filter.mpr ⟨there, decide_eq_true apart⟩
  have found' := shape.found_iff.mpr there'
  have perm := eraseKey_perm sound.keys member
  refine ⟨(fs.withoutPath bits path slot).recount parentSlot
    ((((fs.withoutPath bits path slot).files parentSlot).checksum + (2 ^ 32 - 1)) % 2 ^ 32), ?_,
    shape.recount there' _, ?_⟩
  · unfold FullTester.removeFile
    rw [get_bind_apply, found]
    dsimp only at below ⊢
    rw [modify_bind_apply, below]
    exact uncountEntry_of_found found'
  · intro entry inside isDir'
    have inside' : entry ∈ fs.ref := (List.mem_filter.mp inside).1
    have differs : entry.2 ≠ slot := by
      intro same
      obtain rfl := sound.path_eq inside' member same
      exact of_decide_eq_true (List.mem_filter.mp inside).2 rfl
    have unchanged : (fs.withoutPath bits path slot).files entry.2 = fs.files entry.2 :=
      Function.update_of_ne differs ..
    rw [isDir_recount, unchanged] at isDir'
    have before := sound.counts entry inside' isDir'
    have fewer : (childrenOf root (fs.withoutPath bits path slot).ref entry.1).length ≤ 100 :=
      shape.length_childrenOf_le entry.1
    rw [length_childrenOf_perm perm, length_childrenOf_cons other below] at before
    change _ = (childrenOf root (fs.withoutPath bits path slot).ref entry.1).length
    by_cases same : parent = entry.1
    · obtain rfl := sound.entry_eq there inside' same
      rw [if_pos rfl] at before
      rw [recount_self, unchanged]
      dsimp only at before ⊢
      rw [before]
      change ((childrenOf root (eraseKey fs.ref path) parent).length + 1 + _) % _ =
        (childrenOf root (eraseKey fs.ref path) parent).length
      change (childrenOf root (eraseKey fs.ref path) parent).length ≤ 100 at fewer
      omega
    · have apart' : entry.2 ≠ parentSlot := by
        intro equal
        exact same (congrArg Prod.fst (sound.path_eq there inside' equal.symm))
      rw [if_neg same] at before
      rw [recount_of_ne _ apart', unchanged]
      exact before

/-- The slot of a file may store anything that is not a directory. -/
theorem setFile (sound : Sound root fs free) (member : (path, slot) ∈ fs.ref)
    (isFile : (fs.files slot).isDir = false) {file : RefFile} (stillFile : file.isDir = false) :
    Sound root (fs.setFile slot file) free := by
  have unchanged : ∀ other, other ≠ slot → (fs.setFile slot file).files other = fs.files other :=
    fun other apart => Function.update_of_ne apart ..
  have dirApart : ∀ other, (fs.files other).isDir → other ≠ slot := by
    rintro other isDir rfl
    rw [isDir] at isFile
    cases isFile
  refine ⟨⟨sound.keys, ?_, sound.partition, sound.atRoot, ?_, ?_⟩, ?_⟩
  · refine sound.chain.congr fun node inside => ?_
    have apart : node ≠ slot := by
      rintro rfl
      exact sound.slot_notMem member inside
    unfold ReferenceFs.link
    rw [unchanged node apart]
  · rw [unchanged 0 (dirApart 0 sound.rootDir)]
    exact sound.rootDir
  · intro entry inside notRoot
    obtain ⟨upper, there, above, isDir⟩ := sound.parents entry inside notRoot
    refine ⟨upper, there, above, ?_⟩
    rwa [unchanged upper.2 (dirApart upper.2 isDir)]
  · intro entry inside isDir
    have apart : entry.2 ≠ slot := by
      intro same
      have stored : (fs.setFile slot file).files slot = file := Function.update_self ..
      rw [same, stored, stillFile] at isDir
      cases isDir
    rw [unchanged entry.2 apart] at isDir ⊢
    exact sound.counts entry inside isDir

/-- `UpdateFile` of a file only changes what it stores, also when it throws. -/
theorem updateFile (sound : Sound root fs free) (found : fs.findFileIndex path = some slot)
    (isFile : (fs.files slot).isDir = false) (checksum len : Nat) :
    Sound root (finalState (FullTester.updateFile path checksum len fs)) free := by
  have member := sound.found_iff.mp found
  have stored : (fs.recount slot checksum).files slot = { fs.files slot with checksum } :=
    recount_self ..
  have sound' : Sound root (fs.recount slot checksum) free :=
    sound.setFile member isFile isFile
  unfold FullTester.updateFile
  rw [get_bind_apply, found]
  dsimp only
  rw [modify_bind_apply]
  by_cases large : len ≥ intLimit
  · rw [throwIf_bind_of large]
    exact sound'
  · rw [throwIf_bind_of_not large]
    refine sound'.setFile member ?_ ?_
    · rw [stored]
      exact isFile
    · exact decide_eq_false (Int.not_lt.mpr (Int.natCast_nonneg len))

end Sound

/-- A list in which every slot leads to the next one and the last one to the slot of the root. -/
theorem chain_range' {link : Nat → Option Nat}
    (leads : ∀ slot, 0 < slot → link slot = pointer (if slot = maxFileNum - 1 then 0 else slot + 1))
    (count start : Nat) (positive : 0 < start) (last : start + count = maxFileNum) :
    Chain link (pointer (if start = maxFileNum then 0 else start)) (List.range' start count) := by
  induction count generalizing start with
  | zero =>
    rw [Nat.add_zero] at last
    rw [if_pos last]
    rfl
  | succ count ih =>
    have more : start ≠ maxFileNum := by omega
    rw [if_neg more]
    refine ⟨if_neg (Nat.ne_of_gt positive), ?_⟩
    have next := ih (start + 1) (Nat.succ_pos start) (by omega)
    rw [leads start positive]
    by_cases final : start = maxFileNum - 1
    · have final' : start + 1 = maxFileNum := by omega
      rw [if_pos final'] at next
      rwa [if_pos final]
    · have later : start + 1 ≠ maxFileNum := by omega
      rw [if_neg later] at next
      rwa [if_neg final]

/-- `Initialize` on a new object. -/
theorem sound_initialized (bits : Nat) (root : Path) :
    Sound root (ReferenceFs.empty.initialized bits root) (List.range' 1 (maxFileNum - 1)) := by
  refine ⟨⟨List.nodup_singleton _, ?_, ?_, List.mem_singleton.mpr rfl, rfl, ?_⟩, ?_⟩
  · exact chain_range' (fun slot positive => congrArg pointer (congrArg RefFile.checksum
      (if_neg (Nat.ne_of_gt positive)))) 99 1 (Nat.succ_pos 0) rfl
  · exact List.Perm.of_eq rfl
  · intro entry inside notRoot
    exact absurd (congrArg Prod.fst (List.mem_singleton.mp inside)) notRoot
  · intro entry inside isDir
    obtain rfl := List.mem_singleton.mp inside
    show 0 = (childrenOf root [(root, 0)] root).length
    rw [childrenOf, List.filter_cons, if_neg (by simp)]
    rfl

/-! ## Runs -/

/-- Some slot is not owned by a path. -/
def SomeFree (fs : ReferenceFs) : Prop :=
  ∃ slot < maxFileNum, ∀ path, fs.findFileIndex path ≠ some slot

/-- A path that is not there, in a directory that is. -/
def CanAdd (fs : ReferenceFs) (path : Path) : Prop :=
  fs.findFileIndex path = none ∧ ∃ parent slot, parentPath path = some parent ∧
    fs.findFileIndex parent = some slot ∧ (fs.files slot).isDir

/-- A path other than the root, without children. -/
def CanRemove (root : Path) (fs : ReferenceFs) (path : Path) : Prop :=
  path ≠ root ∧ (∃ slot, fs.findFileIndex path = some slot) ∧
    ∀ other slot, fs.findFileIndex other = some slot → other ≠ root →
      parentPath other ≠ some path

/-- The references that come from `Initialize` on a new object by calls of the other functions, where a
`size_t` has some number of bits. `AddPath` is only called when the reference and the path are of some
kind. -/
inductive Reached (bits : Nat) (root : Path) (kind : ReferenceFs → Path → Prop) :
    ReferenceFs → Prop
  /-- `Initialize`. -/
  | start {fs : ReferenceFs} (initializes : initializeRef bits root .empty = .ok () fs) :
    Reached bits root kind fs
  /-- `AddPath` of a path that is not there. -/
  | addPath {fs fs' : ReferenceFs} {path : Path} {dir answer : Bool}
    (before : Reached bits root kind fs) (can : CanAdd fs path) (allowed : kind fs path)
    (adds : addPath path dir fs = .ok answer fs') : Reached bits root kind fs'
  /-- `RemoveFile` of a path without children. -/
  | removeFile {fs fs' : ReferenceFs} {path : Path} (before : Reached bits root kind fs)
    (can : CanRemove root fs path) (removes : removeFile bits path fs = .ok () fs') :
    Reached bits root kind fs'
  /-- `UpdateFile` of a file, which returns or throws. -/
  | updateFile {fs : ReferenceFs} {path : Path} {slot : Nat} (checksum len : Nat)
    (before : Reached bits root kind fs) (found : fs.findFileIndex path = some slot)
    (isFile : (fs.files slot).isDir = false) :
    Reached bits root kind (finalState (updateFile path checksum len fs))
  /-- `CopyFrom` into any object. -/
  | copyFrom {target fs fs' : ReferenceFs} (before : Reached bits root kind fs)
    (copies : copyFrom fs target = .ok () fs') : Reached bits root kind fs'

/-- What holds of the slots of a reference. -/
structure SlotsRight (root : Path) (fs : ReferenceFs) : Prop where
  /-- Distinct paths own distinct slots. -/
  distinct : ∀ first second slot, fs.findFileIndex first = some slot →
    fs.findFileIndex second = some slot → first = second
  /-- The slots are in the array. -/
  inArray : ∀ path slot, fs.findFileIndex path = some slot → slot < maxFileNum
  /-- The slots that no path owns are those on the list that starts at `m_free_list`. -/
  free : ∃ slots, Chain fs.link (pointer fs.freeList) slots ∧ slots.Nodup ∧
    ∀ slot, slot ∈ slots ↔ slot < maxFileNum ∧ ∀ path, fs.findFileIndex path ≠ some slot
  /-- The root is a directory in the first slot. -/
  atRoot : fs.findFileIndex root = some 0 ∧ (fs.files 0).isDir
  /-- The checksum of a directory is the number of its children. -/
  counts : ∀ path slot, fs.findFileIndex path = some slot → (fs.files slot).isDir →
    (fs.files slot).checksum = (childrenOf root fs.ref path).length

/-- `AddPath` returns false, and changes nothing, exactly if all slots are owned; the slots are right
after it. -/
def AddRight (root : Path) (fs : ReferenceFs) (path : Path) (dir : Bool) : Prop :=
  ∃ answer fs', addPath path dir fs = .ok answer fs' ∧ (answer = false ↔ ¬ SomeFree fs) ∧
    (answer = false → fs' = fs) ∧ SlotsRight root fs'

/-- The counter is zero exactly when all slots are owned, and a path that gets a slot fits into it. -/
def Allowed (fs : ReferenceFs) (path : Path) : Prop :=
  (SomeFree fs ↔ fs.freeNum ≠ 0) ∧ (SomeFree fs → path.length ≤ maxPathSize)

section Runs

variable {root path : Path} {fs : ReferenceFs} {free : List Nat}

/-- A slot is free or owned. -/
theorem Sound.free_iff (sound : Sound root fs free) (slot : Nat) :
    slot ∈ free ↔ slot < maxFileNum ∧ ∀ path, fs.findFileIndex path ≠ some slot := by
  constructor
  · intro member
    refine ⟨List.mem_range.mp (sound.partition.mem_iff.mp (List.mem_append_right _ member)), ?_⟩
    intro path found
    exact sound.slot_notMem (sound.found_iff.mp found) member
  · rintro ⟨inside, apart⟩
    obtain owned | member :=
      List.mem_append.mp (sound.partition.mem_iff.mpr (List.mem_range.mpr inside))
    · obtain ⟨entry, there, rfl⟩ := List.mem_map.mp owned
      exact absurd (sound.found_iff.mpr there) (apart entry.1)
    · exact member

/-- The invariant says what holds of the slots. -/
theorem Sound.slotsRight (sound : Sound root fs free) : SlotsRight root fs where
  distinct := by
    intro first second slot found found'
    have same := sound.path_eq (sound.found_iff.mp found) (sound.found_iff.mp found') rfl
    exact congrArg Prod.fst same
  inArray := fun _ _ found => sound.slot_lt (sound.found_iff.mp found)
  free := ⟨free, sound.chain, (List.nodup_append.mp sound.nodup).2.1, sound.free_iff⟩
  atRoot := ⟨sound.found_iff.mpr sound.atRoot, sound.rootDir⟩
  counts := fun _ _ found isDir => sound.counts _ (sound.found_iff.mp found) isDir

/-- Adding a path while some slot is free and counted. -/
theorem Sound.canAdd (sound : Sound root fs free) (some_free : SomeFree fs) (can : CanAdd fs path)
    (counted : fs.freeNum ≠ 0) (fits : path.length ≤ maxPathSize) (dir : Bool) :
    ∃ fs' free', FullTester.addPath path dir fs = .ok true fs' ∧ Sound root fs' free' := by
  obtain ⟨absent, parent, parentSlot, below, found, isDir⟩ := can
  cases free with
  | nil =>
    obtain ⟨slot, inside, apart⟩ := some_free
    exact absurd ((sound.free_iff slot).mpr ⟨inside, apart⟩) List.not_mem_nil
  | cons slot rest =>
    obtain ⟨fs', adds, sound', -⟩ :=
      sound.addPath dir absent below (sound.found_iff.mp found) isDir counted fits
    exact ⟨fs', rest, adds, sound'⟩

/-- `AddPath` refuses when the counter is zero. -/
theorem addPath_of_zero (zero : fs.freeNum = 0) (path : Path) (dir : Bool) :
    addPath path dir fs = .ok false fs := by
  unfold addPath
  rw [get_bind_apply, if_pos zero]
  rfl

/-- `AddPath` that returns when the counter is not zero does not refuse, and the path fits. -/
theorem addPath_true {dir answer : Bool} {fs' : ReferenceFs} (counted : fs.freeNum ≠ 0)
    (adds : addPath path dir fs = .ok answer fs') : answer = true ∧ path.length ≤ maxPathSize := by
  unfold addPath at adds
  rw [get_bind_apply, if_neg counted, throwIf_bind_eq_ok, throwIf_bind_eq_ok] at adds
  obtain ⟨-, fits, adds⟩ := adds
  refine ⟨?_, Nat.le_of_not_lt fits⟩
  rw [set_bind_apply] at adds
  cases below : parentPath path with
  | none =>
    rw [below] at adds
    cases adds
  | some parent =>
    rw [below] at adds
    obtain ⟨_, _, -, returns⟩ := bind_eq_ok.mp adds
    cases returns
    rfl

/-- `AddPath` does what it should exactly when it is allowed. -/
theorem Sound.addRight_iff (sound : Sound root fs free) (can : CanAdd fs path) (dir : Bool) :
    AddRight root fs path dir ↔ Allowed fs path := by
  by_cases zero : fs.freeNum = 0
  · -- it refuses, which is right when all slots are owned
    have refuses := addPath_of_zero zero path dir
    constructor
    · rintro ⟨answer, fs', adds, full, -⟩
      rw [refuses] at adds
      cases adds
      have all := full.mp rfl
      exact ⟨iff_of_false all fun counted => counted zero, fun free => absurd free all⟩
    · rintro ⟨counts, -⟩
      have all : ¬SomeFree fs := fun free => counts.mp free zero
      exact ⟨false, fs, refuses, iff_of_true rfl all, fun _ => rfl, sound.slotsRight⟩
  · constructor
    · rintro ⟨answer, fs', adds, full, -⟩
      obtain ⟨answered, fits⟩ := addPath_true zero adds
      have some_free : SomeFree fs := by
        by_contra all
        have refused := full.mpr all
        rw [answered] at refused
        cases refused
      exact ⟨iff_of_true some_free zero, fun _ => fits⟩
    · rintro ⟨counts, fits⟩
      have some_free := counts.mpr zero
      obtain ⟨fs', free', adds, sound'⟩ := sound.canAdd some_free can zero (fits some_free) dir
      refine ⟨true, fs', adds, ?_, ?_, sound'.slotsRight⟩
      · exact iff_of_false (by decide) (not_not_intro some_free)
      · intro refused
        cases refused

variable {bits : Nat}

/-- A run whose additions are all allowed keeps the slots, the entries and the counters together. -/
theorem Reached.sound (reached : Reached bits root Allowed fs) : ∃ free, Sound root fs free := by
  induction reached with
  | start initializes =>
    obtain ⟨-, done⟩ := throwIf_bind_eq_ok.mp initializes
    cases done
    exact ⟨_, sound_initialized bits root⟩
  | @addPath fs fs' path dir answer before can allowed adds ih =>
    obtain ⟨free, sound⟩ := ih
    by_cases zero : fs.freeNum = 0
    · rw [addPath_of_zero zero] at adds
      cases adds
      exact ⟨free, sound⟩
    · have some_free := allowed.1.mpr zero
      obtain ⟨last, free', adds', sound'⟩ :=
        sound.canAdd some_free can zero (allowed.2 some_free) dir
      rw [adds'] at adds
      cases adds
      exact ⟨free', sound'⟩
  | removeFile before can removes ih =>
    obtain ⟨free, sound⟩ := ih
    obtain ⟨other, ⟨slot, found⟩, leaf⟩ := can
    obtain ⟨last, removes', sound'⟩ := sound.removeFile bits found other
      fun entry inside => leaf entry.1 entry.2 (sound.found_iff.mpr inside)
    rw [removes'] at removes
    cases removes
    exact ⟨_, sound'⟩
  | updateFile checksum len before found isFile ih =>
    obtain ⟨free, sound⟩ := ih
    exact ⟨free, sound.updateFile found isFile checksum len⟩
  | copyFrom before copies ih =>
    cases copies
    exact ih

/-- Over every run whose additions are made when the counter of free slots is zero exactly if all
slots are owned, and with paths that fit, the slots are right. There, and only there, the next
`AddPath` also returns what it should. -/
theorem slotsRight_of_allowed (reached : Reached bits root Allowed fs) :
    SlotsRight root fs ∧ ∀ path dir, CanAdd fs path →
      (AddRight root fs path dir ↔ Allowed fs path) := by
  obtain ⟨free, sound⟩ := reached.sound
  exact ⟨sound.slotsRight, fun path dir can => sound.addRight_iff can dir⟩

/-- A slot that no entry has is free. -/
theorem someFree_of_notMem (slot : Nat) (inside : slot < maxFileNum)
    (absent : slot ∉ fs.ref.map Prod.snd) : SomeFree fs := by
  refine ⟨slot, inside, fun path found => absent ?_⟩
  obtain ⟨front, rest, whole, -⟩ := List.lookup_eq_some_iff.mp found
  rw [whole]
  simp

/-- A path without entries below it can be removed. -/
theorem canRemove_of_leaf {slot : Nat} (other : path ≠ root)
    (found : fs.findFileIndex path = some slot)
    (leaf : ∀ entry ∈ fs.ref, entry.1 ≠ root → parentPath entry.1 ≠ some path) :
    CanRemove root fs path := by
  refine ⟨other, ⟨slot, found⟩, fun child childSlot there => ?_⟩
  obtain ⟨front, rest, whole, -⟩ := List.lookup_eq_some_iff.mp there
  exact leaf (child, childSlot) (by rw [whole]; simp)

/-- Adding a path that fits, while a slot is free and counted, goes on with the run. -/
theorem Reached.added (before : Reached bits root Allowed fs) (path : Path) (dir : Bool)
    (can : CanAdd fs path) (free : SomeFree fs) (counted : fs.freeNum ≠ 0) (fits : path.length ≤ maxPathSize) :
    Reached bits root Allowed (finalState (FullTester.addPath path dir fs)) := by
  obtain ⟨slots, sound⟩ := before.sound
  obtain ⟨fs', free', adds, -⟩ := sound.canAdd free can counted fits dir
  rw [adds]
  exact before.addPath can ⟨iff_of_true free counted, fun _ => fits⟩ adds

end Runs

/-- A reference with a directory and a file in it. -/
def builtReference : ReferenceFs :=
  finalState (addPath ['\\', 'a', '\\', 'b'] false
    (finalState (addPath ['\\', 'a'] true (ReferenceFs.empty.initialized 64 ['\\']))))

/-- The reference when an update of the file has thrown and another one returned, and a second file
was added. -/
def updatedReference : ReferenceFs :=
  finalState (addPath ['\\', 'c'] false
    (finalState (updateFile ['\\', 'a', '\\', 'b'] 9 512
      (finalState (updateFile ['\\', 'a', '\\', 'b'] 7 intLimit builtReference)))))

/-- When the file in the directory is removed again the slots are right, and the next file gets the
slot that was freed. -/
theorem slotsRight_updated :
    ∃ fs, removeFile 64 ['\\', 'a', '\\', 'b'] updatedReference = .ok () fs ∧
      fs.freeList = 2 ∧ SlotsRight ['\\'] fs ∧ AddRight ['\\'] fs ['\\', 'a', '\\', 'd'] false := by
  have start : Reached 64 ['\\'] Allowed (ReferenceFs.empty.initialized 64 ['\\']) := .start rfl
  have directory := start.added ['\\', 'a'] true
    ⟨by decide +kernel, ['\\'], 0, by decide +kernel, by decide +kernel, by decide +kernel⟩
    (someFree_of_notMem 50 (by decide) (by decide +kernel)) (by decide) (by decide)
  have built : Reached 64 ['\\'] Allowed builtReference := directory.added _ false
    ⟨by decide +kernel, ['\\', 'a'], 1, by decide +kernel, by decide +kernel, by decide +kernel⟩
    (someFree_of_notMem 50 (by decide) (by decide +kernel)) (by decide +kernel) (by decide)
  have thrown : Reached 64 ['\\'] Allowed
      (finalState (updateFile ['\\', 'a', '\\', 'b'] 7 intLimit builtReference)) :=
    .updateFile 7 intLimit built (show _ = some 2 by decide +kernel) (by decide +kernel)
  have stored : Reached 64 ['\\'] Allowed (finalState (updateFile ['\\', 'a', '\\', 'b'] 9 512
      (finalState (updateFile ['\\', 'a', '\\', 'b'] 7 intLimit builtReference)))) :=
    .updateFile 9 512 thrown (show _ = some 2 by decide +kernel) (by decide +kernel)
  have updated : Reached 64 ['\\'] Allowed updatedReference := stored.added _ false
    ⟨by decide +kernel, ['\\'], 0, by decide +kernel, by decide +kernel, by decide +kernel⟩
    (someFree_of_notMem 50 (by decide) (by decide +kernel)) (by decide +kernel) (by decide)
  have leaf : CanRemove ['\\'] updatedReference ['\\', 'a', '\\', 'b'] :=
    canRemove_of_leaf (by decide) (show _ = some 2 by decide +kernel) (by decide +kernel)
  obtain ⟨_, fs, removes⟩ := eq_ok_of_returned
    (show returned (removeFile 64 ['\\', 'a', '\\', 'b'] updatedReference) = true by decide +kernel)
  have last : finalState (removeFile 64 ['\\', 'a', '\\', 'b'] updatedReference) = fs := by
    rw [removes, finalState_ok]
  have facts : fs.freeList = 2 ∧ fs.freeNum ≠ 0 ∧ 50 ∉ fs.ref.map Prod.snd ∧
      fs.findFileIndex ['\\', 'a', '\\', 'd'] = none ∧ fs.findFileIndex ['\\', 'a'] = some 1 ∧
      (fs.files 1).isDir = true := by
    rw [← last]
    decide +kernel
  obtain ⟨freed, counted, absent, new, inDir, isDir⟩ := facts
  obtain ⟨right, adds⟩ := slotsRight_of_allowed (.removeFile updated leaf removes)
  refine ⟨fs, removes, freed, right, (adds _ false ?_).mpr ?_⟩
  · exact ⟨new, ['\\', 'a'], 1, by decide, inDir, isDir⟩
  · exact ⟨iff_of_true (someFree_of_notMem 50 (by decide) absent) counted, fun _ => by decide⟩

/-! ## A full table -/

/-- Paths of files in the root. -/
def fileName (number : Nat) : Path := ['\\', Char.ofNat (256 + number)]

/-- The letter of a file. -/
theorem toNat_letter {number : Nat} (small : number < 100) :
    (Char.ofNat (256 + number)).toNat = 256 + number := by
  unfold Char.ofNat
  rw [dif_pos (Or.inl (show 256 + number < 0xd800 by omega))]
  rfl

/-- Different numbers make different paths. -/
theorem fileName_inj {first second : Nat} (left : first < 100) (right : second < 100)
    (same : fileName first = fileName second) : first = second := by
  have letters := (List.cons.inj (List.cons.inj same).2).1
  have numbers := congrArg Char.toNat letters
  rw [toNat_letter left, toNat_letter right] at numbers
  omega

/-- The files are in the root. -/
theorem parentPath_fileName {number : Nat} (small : number < 100) :
    parentPath (fileName number) = some ['\\'] := by
  have plain : '\\' ∉ [Char.ofNat (256 + number)] := by
    intro member
    have same := congrArg Char.toNat (List.mem_singleton.mp member)
    rw [toNat_letter small] at same
    have backslash : ('\\' : Char).toNat = 92 := rfl
    omega
  exact parentPath_childPath (Or.inl rfl) plain

/-- A file of the root can be added. -/
theorem Sound.canAdd_fileName {fs : ReferenceFs} {free : List Nat} {number : Nat}
    (sound : Sound ['\\'] fs free) (small : number < 100)
    (absent : fs.findFileIndex (fileName number) = none) : CanAdd fs (fileName number) :=
  ⟨absent, ['\\'], 0, parentPath_fileName small, sound.found_iff.mpr sound.atRoot, sound.rootDir⟩

/-- Files are added to the root until the table is full. -/
theorem reached_files (count : Nat) (fits : count ≤ 99) :
    ∃ fs free, Reached 64 ['\\'] (fun _ _ => True) fs ∧ Sound ['\\'] fs free ∧
      free.length + count = 99 ∧ fs.freeNum = 100 ∧
      ∀ number, count ≤ number → number < 100 → fs.findFileIndex (fileName number) = none := by
  induction count with
  | zero =>
    refine ⟨_, _, .start rfl, sound_initialized 64 ['\\'], rfl, rfl, fun number _ _ => ?_⟩
    apply lookup_none_iff.mpr
    intro member
    have same := congrArg List.length (List.mem_singleton.mp member)
    exact absurd same (by simp [fileName])
  | succ count ih =>
    obtain ⟨fs, free, reached, sound, length, counter, absent⟩ := ih (Nat.le_of_succ_le fits)
    have here := absent count (Nat.le_refl count) (by omega)
    have counted : fs.freeNum ≠ 0 := by
      rw [counter]
      decide
    cases free with
    | nil =>
      rw [List.length_nil] at length
      omega
    | cons slot free =>
      obtain ⟨fs', adds, sound', perm, same⟩ := sound.addPath false here
        (parentPath_fileName (by omega)) sound.atRoot sound.rootDir counted (show 2 ≤ 31 by decide)
      rw [List.length_cons] at length
      refine ⟨fs', free, reached.addPath (sound.canAdd_fileName (by omega) here) trivial adds,
        sound', by omega, same.trans counter, fun number after small => ?_⟩
      apply lookup_none_iff.mpr
      intro member
      obtain here' | before := List.mem_cons.mp ((perm.map Prod.fst).mem_iff.mp member)
      · have same := fileName_inj small (by omega) here'
        omega
      · exact lookup_none_iff.mp (absent number (by omega) small) before

/-- After 99 files were added to the root, every slot is owned; the next one is not refused, but gets
the slot of the root. -/
theorem addPath_takes_root :
    ∃ fs fs', Reached 64 ['\\'] (fun _ _ => True) fs ∧ ¬ SomeFree fs ∧ CanAdd fs (fileName 99) ∧
      addPath (fileName 99) false fs = .ok true fs' ∧ ¬ SlotsRight ['\\'] fs' := by
  obtain ⟨fs, free, reached, sound, length, counter, absent⟩ := reached_files 99 (Nat.le_refl 99)
  obtain rfl : free = [] := List.eq_nil_of_length_eq_zero (by omega)
  have here := absent 99 (Nat.le_refl 99) (by decide)
  have can := sound.canAdd_fileName (by decide) here
  have full : ¬ SomeFree fs := by
    rintro ⟨slot, inside, apart⟩
    exact absurd ((sound.free_iff slot).mpr ⟨inside, apart⟩) List.not_mem_nil
  have start : fs.freeList = 0 := by
    have ends := sound.chain
    rw [Chain.nil_iff] at ends
    unfold pointer at ends
    split at ends
    · assumption
    · cases ends
  have notThere := lookup_none_iff.mp here
  have perm : (fs.withPath (fileName 99) false).ref.Perm ((fileName 99, fs.freeList) :: fs.ref) :=
    insertKey_perm notThere
  have keys : ((fs.withPath (fileName 99) false).ref.map Prod.fst).Nodup := by
    rw [(perm.map Prod.fst).nodup_iff, List.map_cons, List.nodup_cons]
    exact ⟨notThere, sound.keys⟩
  have rootFound : (fs.withPath (fileName 99) false).findFileIndex ['\\'] = some 0 :=
    (lookup_iff keys).mpr (perm.mem_iff.mpr (List.mem_cons_of_mem _ sound.atRoot))
  have fileFound : (fs.withPath (fileName 99) false).findFileIndex (fileName 99) = some 0 :=
    (lookup_iff keys).mpr (perm.mem_iff.mpr (start ▸ List.mem_cons_self))
  have adds : addPath (fileName 99) false fs =
      .ok true ((fs.withPath (fileName 99) false).recount 0
        ((((fs.withPath (fileName 99) false).files 0).checksum + 1) % 2 ^ 32)) := by
    unfold addPath
    rw [get_bind_apply, if_neg (by rw [counter]; decide),
      throwIf_bind_of_not (by rw [start]; decide), throwIf_bind_of_not
        (show ¬ (fileName 99).length > maxPathSize from Nat.not_lt.mpr (by decide : 2 ≤ 31)),
      set_bind_apply, parentPath_fileName (by decide)]
    dsimp only
    rw [bind_apply, countEntry_of_found rootFound]
    rfl
  refine ⟨fs, _, reached, full, can, adds, fun right => ?_⟩
  have same := right.distinct _ _ 0 rootFound fileFound
  exact absurd (congrArg List.length same) (by simp [fileName])

end FsChecking.FullTester
