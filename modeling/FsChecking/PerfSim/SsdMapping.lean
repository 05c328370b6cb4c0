import FsChecking.PerfSim.Ssd

/-!
# The mapping of an SSD simulator

Over every sequence of requests inside the capacity of a device whose block numbers fit their type,
the logical-to-physical map and the block maps of the segments stay inverse to each other, whatever
victims the garbage collector is given.
-/

namespace FsChecking.PerfSim

open Lib SegmentManager

variable {ssd ssd' : Ssd} {segNr : Nat} {choose : LogChoice}

/-- The place of a logical block. -/
def Ssd.placeOf (ssd : Ssd) (lblk : Nat) : Option (Nat × Nat) :=
  if (ssd.l2pMap lblk).phyBlk = invalidBlk then none
  else some (blockToSeg (ssd.l2pMap lblk).phyBlk)

/-- What holds of a simulator between any two steps. -/
structure Coherent (segNr : Nat) (ssd : Ssd) : Prop where
  /-- The accounting of the segments. -/
  sound : ∃ free, ssd.segment.Sound free
  /-- Every log head has room. -/
  opened : ssd.segment.HeadsOpen
  /-- The number of segments does not change. -/
  size : ssd.segment.segNr = segNr
  /-- The two maps are inverse to each other. -/
  placed : Placed ssd.placeOf ssd.segment.at'

/-- The logical blocks that are mapped. -/
def Ssd.Mapped (ssd : Ssd) (lblk : Nat) : Prop := (ssd.l2pMap lblk).phyBlk ≠ invalidBlk

/-- A mapped block has a place. -/
theorem Ssd.placeOf_isSome (ssd : Ssd) (lblk : Nat) :
    (ssd.placeOf lblk).isSome ↔ ssd.Mapped lblk := by
  unfold placeOf Mapped
  split
  · rename_i invalid
    simp [invalid]
  · rename_i valid
    simp [valid]

/-- A block that moves to a vacant place and gives up its old place keeps the maps inverse. -/
theorem Coherent.move (coherent : Coherent segNr ssd) {lblk : Nat} {spot : Nat × Nat}
    (vacant : ssd.segment.at' spot = none) (sound : ∃ free, ssd'.segment.Sound free)
    (opened : ssd'.segment.HeadsOpen) (size : ssd'.segment.segNr = segNr)
    (places : ssd'.placeOf = Function.update ssd.placeOf lblk (some spot))
    (entries : ssd'.segment.at' =
      vacate (Function.update ssd.segment.at' spot (some lblk)) (ssd.placeOf lblk)) :
    Coherent segNr ssd' ∧ ∀ other, ssd'.Mapped other ↔ ssd.Mapped other ∨ other = lblk := by
  refine ⟨⟨sound, opened, size, ?_⟩, ?_⟩
  · rw [places, entries]
    exact coherent.placed.move vacant
  · intro other
    rw [← Ssd.placeOf_isSome, ← Ssd.placeOf_isSome, places]
    by_cases here : other = lblk
    · simp [here]
    · rw [Function.update_of_ne here]
      simp [here]

/-- The simulator is still coherent and maps the logical blocks that it mapped and the listed ones. -/
structure Wrote (segNr : Nat) (ssd ssd' : Ssd) (written : List Nat) : Prop where
  /-- The invariant. -/
  coherent : Coherent segNr ssd'
  /-- The capacity does not change. -/
  blkNr : ssd'.blkNr = ssd.blkNr
  /-- What is mapped. -/
  mapped : ∀ lblk, ssd'.Mapped lblk ↔ ssd.Mapped lblk ∨ lblk ∈ written

/-- Nothing is written. -/
theorem Wrote.refl (coherent : Coherent segNr ssd) : Wrote segNr ssd ssd [] where
  coherent := coherent
  blkNr := rfl
  mapped lblk := by simp

/-- One write after another. -/
theorem Wrote.append {middle : Ssd} {first second : List Nat} (left : Wrote segNr ssd middle first)
    (right : Wrote segNr middle ssd' second) : Wrote segNr ssd ssd' (first ++ second) where
  coherent := right.coherent
  blkNr := right.blkNr.trans left.blkNr
  mapped lblk := by rw [right.mapped, left.mapped, List.mem_append, or_assoc]

/-- The coherence depends on the places and the segments. -/
theorem Coherent.congr (coherent : Coherent segNr ssd) (places : ssd'.placeOf = ssd.placeOf)
    (segment : ssd'.segment = ssd.segment) : Coherent segNr ssd' where
  sound := segment ▸ coherent.sound
  opened := segment ▸ coherent.opened
  size := segment ▸ coherent.size
  placed := by
    rw [places, segment]
    exact coherent.placed

/-- The logical blocks that a request names. -/
def WriteRequest.Names (request : WriteRequest) (lblk : Nat) : Prop :=
  request.lba / 8 ≤ lblk ∧ lblk < roundUpDiv (request.lba + request.secs) 8

/-- A request inside the capacity of a device. -/
def WriteRequest.Inside (request : WriteRequest) (blkNr : Nat) : Prop :=
  request.lba + request.secs ≤ 8 * blkNr

/-- Whether a request is inside the capacity can be computed. -/
instance (request : WriteRequest) (blkNr : Nat) : Decidable (request.Inside blkNr) :=
  inferInstanceAs (Decidable (_ ≤ _))

end FsChecking.PerfSim
