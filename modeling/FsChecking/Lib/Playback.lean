import Mathlib.Data.List.Basic

/-!
# Writes to an array

A write replaces a part of an array, and a list of writes is carried out in order. The length of the
array does not change.
-/

namespace FsChecking.Lib

variable {α : Type}

/-- Replace the part of an array that begins at an offset. -/
def overwrite (content : List α) (offset : Nat) (data : List α) : List α :=
  content.take offset ++ data ++ content.drop (offset + data.length)

/-- The part of an array that begins at an offset. -/
def slice (content : List α) (offset len : Nat) : List α := (content.drop offset).take len

/-- Carry out writes in order. -/
def playback (content : List α) (writes : List (Nat × List α)) : List α :=
  writes.foldl (fun content write => overwrite content write.1 write.2) content

variable {content data : List α} {offset : Nat}

/-- A write inside an array keeps its length. -/
theorem length_overwrite (inside : offset + data.length ≤ content.length) :
    (overwrite content offset data).length = content.length := by
  unfold overwrite
  simp only [List.length_append, List.length_take, List.length_drop]
  omega

/-- What has been written is read back. -/
theorem slice_overwrite (inside : offset ≤ content.length) :
    slice (overwrite content offset data) offset data.length = data := by
  unfold slice overwrite
  have front : (content.take offset).length = offset := List.length_take_of_le inside
  rw [List.append_assoc, List.drop_append_of_le_length (Nat.le_of_eq front.symm),
    List.drop_of_length_le (Nat.le_of_eq front), List.nil_append, List.take_left]

/-- Parts in front of a write are not changed. -/
theorem slice_overwrite_before {start len : Nat} (before : start + len ≤ offset)
    (inside : offset ≤ content.length) :
    slice (overwrite content offset data) start len = slice content start len := by
  unfold slice overwrite
  have front : (content.take offset).length = offset := List.length_take_of_le inside
  rw [List.append_assoc, List.drop_append_of_le_length (by omega),
    List.take_append_of_le_length (by rw [List.length_drop]; omega), List.drop_take,
    List.take_take, Nat.min_eq_left (by omega)]

/-- A write at the beginning. -/
theorem overwrite_zero (content data : List α) :
    overwrite content 0 data = data ++ content.drop data.length := by
  rw [overwrite, List.take_zero, List.nil_append, Nat.zero_add]

/-- A write behind another one continues it. -/
theorem overwrite_overwrite {more : List α} (fits : offset + data.length ≤ content.length) :
    overwrite (overwrite content offset data) (offset + data.length) more =
      overwrite content offset (data ++ more) := by
  have inside : offset ≤ content.length := by omega
  have length : (content.take offset ++ data).length = offset + data.length := by
    rw [List.length_append, List.length_take_of_le inside]
  have front : (overwrite content offset data).take (offset + data.length) =
      content.take offset ++ data := List.take_left' length
  have behind : (overwrite content offset data).drop (offset + data.length) =
      content.drop (offset + data.length) := List.drop_left' length
  have back : (overwrite content offset data).drop (offset + data.length + more.length) =
      content.drop (offset + data.length + more.length) := by
    rw [← List.drop_drop, behind, List.drop_drop]
  rw [overwrite, front, back, overwrite, List.length_append, Nat.add_assoc,
    List.append_assoc (List.take offset content) data more]

/-- Setting one item is a write of one item. -/
theorem set_eq_overwrite {index : Nat} (inside : index < content.length) (item : α) :
    content.set index item = overwrite content index [item] := by
  rw [List.set_eq_take_append_cons_drop, if_pos inside, overwrite, List.append_assoc]
  rfl

/-- One more write. -/
theorem playback_append_singleton (writes : List (Nat × List α)) (write : Nat × List α) :
    playback content (writes ++ [write]) =
      overwrite (playback content writes) write.1 write.2 := by
  unfold playback
  rw [List.foldl_append]
  rfl

end FsChecking.Lib
