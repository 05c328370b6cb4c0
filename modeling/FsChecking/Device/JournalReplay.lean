import FsChecking.Device.Journal
import Mathlib.Logic.Relation

/-!
# Playing back the journal

The content of the device is the snapshot with the logged writes. `WriteSectors` changes the content
before it looks for room in the log, and `BackLog` changes the content alone: the steps that have
been played back stay in the log. The calls that keep the promise are those that avoid both.
-/

namespace FsChecking.Device.Journal

open Lib

namespace JournalDevice

variable (dev : JournalDevice)

/-- `GetSteps`. -/
def getSteps : Nat := dev.journalId

/-- The write in a log entry: its offset and its data. -/
def written (index : Nat) : Nat × List UInt8 :=
  ((dev.logs index).lba * dev.sectorSize,
    slice dev.logBuf (dev.logs index).dataPtr ((dev.logs index).secs * dev.sectorSize))

/-- The logged writes. -/
def history : List (Nat × List UInt8) := (List.range dev.getSteps).map dev.written

/-- The content is the snapshot with the logged writes. -/
def Replays : Prop := dev.buf = playback dev.snapshot dev.history

/-- The log has room for a write. -/
def LogRoom (lba secs : Nat) : Prop :=
  dev.journalId < dev.logCapacity ∧
    dev.logDataPtr + secs * dev.sectorSize ≤ dev.logBuf.length ∧
    lba ≤ uintMax ∧ secs ≤ uintMax ∧ secs * dev.sectorSize ≤ uintMax

instance (lba secs : Nat) : Decidable (dev.LogRoom lba secs) := inferInstanceAs (Decidable (_ ∧ _))

end JournalDevice

/-- The calls that the device is meant for: a buffer of the length that is written, no more steps
than there are, and only sectors of the device are read. -/
def Proper (dev : JournalDevice) : Call → Prop
  | .writeSectors data lba secs =>
    lba < 2 ^ 64 ∧ secs * dev.sectorSize < 2 ^ 64 ∧ data.length = secs * dev.sectorSize
  | .backLog num => num ≤ dev.getSteps
  | .resetLog => True
  | .readSectors lba secs => lba * dev.sectorSize + secs * dev.sectorSize ≤ dev.capacity

/-- What a call promises: a write that returns is appended to the log, one that throws changes
nothing, a rollback removes the last writes, and reading changes nothing. -/
def Promise (dev : JournalDevice) :
    Call → EStateM.Result Fault JournalDevice (List UInt8) → Prop
  | .writeSectors data lba _, .ok _ next => next.snapshot = dev.snapshot ∧
    next.history = dev.history ++ [(lba * dev.sectorSize, data)] ∧
    next.buf = overwrite dev.buf (lba * dev.sectorSize) data
  | .writeSectors _ _ _, .error .thrown next =>
    next.buf = dev.buf ∧ next.snapshot = dev.snapshot ∧ next.history = dev.history
  | .backLog num, .ok _ next => next.snapshot = dev.snapshot ∧
    next.history = dev.history.take (dev.getSteps - num) ∧ next.Replays
  | .resetLog, .ok _ next => next.snapshot = dev.buf ∧ next.history = [] ∧ next.buf = dev.buf
  | .readSectors lba secs, .ok found next =>
    found = slice dev.buf (lba * dev.sectorSize) (secs * dev.sectorSize) ∧ next = dev
  | _, _ => False

/-- A call keeps its promise. -/
def Lawful (dev : JournalDevice) (call : Call) : Prop := Promise dev call (call.run dev)

/-- The calls that keep the promise: nothing is rolled back, and a write is refused for the size of
the device, or it lies in the device and either the log has room for it or it changes nothing. -/
def Regular (dev : JournalDevice) : Call → Prop
  | .writeSectors data lba secs =>
    dev.capacity < qword (qword (lba * dev.sectorSize) + secs * dev.sectorSize) ∨
      qword (lba * dev.sectorSize) + secs * dev.sectorSize ≤ dev.capacity ∧
        (dev.LogRoom lba secs ∨ overwrite dev.buf (qword (lba * dev.sectorSize)) data = dev.buf)
  | .backLog num => num = 0
  | .resetLog => True
  | .readSectors _ _ => True

instance (dev : JournalDevice) (call : Call) : Decidable (Proper dev call) := by
  cases call <;> unfold Proper <;> infer_instance

instance (dev : JournalDevice) (call : Call) : Decidable (Regular dev call) := by
  cases call <;> unfold Regular <;> infer_instance

/-- A call that returns or throws. -/
def Step (allowed : JournalDevice → Call → Prop) (dev next : JournalDevice) : Prop :=
  ∃ call, allowed dev call ∧
    ((∃ data, call.run dev = .ok data next) ∨ call.run dev = .error .thrown next)

/-- What every allowed call keeps. -/
structure Sound (dev : JournalDevice) : Prop where
  /-- The journal is enabled. -/
  enabled : dev.journalEnable = true
  /-- `m_sector_size` is a `UINT`. -/
  sector : dev.sectorSize < 2 ^ 32
  /-- The buffers lie in one memory. -/
  memory : dev.buf.length + dev.logBuf.length < 2 ^ 64
  /-- The snapshot has the size of the content. -/
  snapshot : dev.snapshot.length = dev.buf.length
  /-- The pointer lies in the buffer. -/
  dataPtr : dev.logDataPtr ≤ dev.logBuf.length
  /-- The data of logged writes lies in front of the pointer. -/
  logged : ∀ index < dev.journalId,
    (dev.logs index).dataPtr + (dev.logs index).secs * dev.sectorSize ≤ dev.logDataPtr
  /-- Logged writes lie in the device. -/
  inside : ∀ index < dev.journalId,
    (dev.logs index).lba * dev.sectorSize + (dev.logs index).secs * dev.sectorSize ≤ dev.buf.length
  /-- The content is the snapshot with the logged writes. -/
  replays : dev.Replays

variable {dev next : JournalDevice} {data : List UInt8} {lba secs num : Nat}

/-- The parts of `InternalWrite`. -/
theorem internalWrite_inside {len : Nat} (isLen : qword (secs * dev.sectorSize) = len)
    (inside : qword (lba * dev.sectorSize) + len ≤ dev.capacity) (memory : dev.capacity < 2 ^ 64)
    (long : len ≤ data.length) :
    internalWrite data lba secs dev = .ok ⟨⟩
      { dev with buf := overwrite dev.buf (qword (lba * dev.sectorSize)) (data.take len) } := by
  have noWrap : qword (qword (lba * dev.sectorSize) + len) =
      qword (lba * dev.sectorSize) + len := Nat.mod_eq_of_lt (by omega)
  unfold internalWrite throwIf
  rw [get_bind_apply, isLen, noWrap]
  rw [if_neg (Nat.not_lt.mpr inside), if_neg (by omega)]
  rfl

/-- The data of a logged write. -/
theorem Sound.length_written (sound : Sound dev) {index : Nat} (before : index < dev.journalId) :
    (dev.written index).2.length = (dev.logs index).secs * dev.sectorSize := by
  have logged := sound.logged index before
  have dataPtr := sound.dataPtr
  unfold JournalDevice.written slice
  rw [List.length_take_of_le]
  rw [List.length_drop]
  omega

/-- Playing back a part of the log. -/
theorem Sound.playback (sound : Sound dev) {indices : List Nat} {content : List UInt8}
    (logged : ∀ index ∈ indices, index < dev.journalId)
    (length : content.length = dev.buf.length) :
    indices.forM playbackLog { dev with buf := content } =
      .ok ⟨⟩ { dev with buf := Lib.playback content (indices.map dev.written) } := by
  induction indices generalizing content with
  | nil => rfl
  | cons index indices ih =>
    have before := logged index List.mem_cons_self
    have inside := sound.inside index before
    have stored := sound.logged index before
    have dataPtr := sound.dataPtr
    have memory := sound.memory
    have isLen : qword ((dev.logs index).secs * dev.sectorSize) =
        (dev.logs index).secs * dev.sectorSize := Nat.mod_eq_of_lt (by omega)
    have isOffset : qword ((dev.logs index).lba * dev.sectorSize) =
        (dev.logs index).lba * dev.sectorSize := Nat.mod_eq_of_lt (by omega)
    have write : playbackLog index { dev with buf := content } = .ok ⟨⟩
          { dev with buf := overwrite content (dev.written index).1 (dev.written index).2 } := by
      have does := @internalWrite_inside { dev with buf := content }
        (dev.logBuf.drop (dev.logs index).dataPtr) (dev.logs index).lba (dev.logs index).secs _
        isLen (by
          change qword ((dev.logs index).lba * dev.sectorSize) + _ ≤ content.length
          rw [isOffset, length]
          exact inside)
        (by
          change content.length < _
          omega)
        (by
          rw [List.length_drop]
          omega)
      unfold playbackLog
      rw [get_bind_apply]
      dsimp only
      rw [does]
      have offset : qword ((dev.logs index).lba * ({ dev with buf := content } :
          JournalDevice).sectorSize) = (dev.logs index).lba * dev.sectorSize := isOffset
      rw [offset]
      rfl
    have written : (overwrite content (dev.written index).1 (dev.written index).2).length =
        dev.buf.length := by
      have fits : (dev.written index).1 + (dev.written index).2.length ≤ content.length := by
        rw [sound.length_written before, length]
        exact inside
      rw [length_overwrite fits, length]
    change (playbackLog index >>= fun _ => indices.forM playbackLog) _ = _
    rw [bind_apply, write]
    exact ih (fun other listed => logged other (List.mem_cons_of_mem _ listed)) written

/-- `BackLog` changes the content alone. -/
theorem Sound.backLog (sound : Sound dev) (fits : num ≤ dev.getSteps) :
    Journal.backLog num dev = .ok ⟨⟩ { dev with
      buf := Lib.playback dev.snapshot (dev.history.take (dev.getSteps - num)) } := by
  have part : (List.range (dev.journalId - num)).map dev.written =
      dev.history.take (dev.getSteps - num) := by
    unfold JournalDevice.history
    rw [← List.map_take, List.take_range, Nat.min_eq_left (Nat.sub_le _ _)]
    rfl
  have enough : ¬ dev.journalId < num := Nat.not_lt.mpr fits
  unfold Journal.backLog throwIf
  rw [get_bind_apply, if_neg enough, ← part]
  exact sound.playback (fun index listed => Nat.lt_of_lt_of_le (List.mem_range.mp listed)
    (Nat.sub_le _ _)) sound.snapshot

/-- The device after a write that the log has room for. -/
def appended (dev : JournalDevice) (data : List UInt8) (lba secs : Nat) : JournalDevice :=
  { dev with
    buf := overwrite dev.buf (lba * dev.sectorSize) data
    logs := Function.update dev.logs dev.journalId ⟨lba, secs, dev.logDataPtr⟩
    logBuf := overwrite dev.logBuf dev.logDataPtr data
    logDataPtr := dev.logDataPtr + secs * dev.sectorSize
    journalId := dev.journalId + 1 }

/-- What a write that the log has no room for leaves of the device. -/
structure Refused (before after : JournalDevice) : Prop where
  /-- `m_snapshot`. -/
  snapshot : after.snapshot = before.snapshot
  /-- `m_journal_enable`. -/
  journalEnable : after.journalEnable = before.journalEnable
  /-- `m_sector_size`. -/
  sectorSize : after.sectorSize = before.sectorSize
  /-- `m_journal_id`. -/
  journalId : after.journalId = before.journalId
  /-- The entries of the log. -/
  logs : ∀ index < before.journalId, after.logs index = before.logs index
  /-- The data of the log. -/
  data : ∀ start len, start + len ≤ before.logDataPtr →
    slice after.logBuf start len = slice before.logBuf start len
  /-- The buffer keeps its length. -/
  logBuf : after.logBuf.length = before.logBuf.length
  /-- The pointer only moves forwards. -/
  behind : before.logDataPtr ≤ after.logDataPtr
  /-- The pointer stays in the buffer. -/
  dataPtr : after.logDataPtr ≤ after.logBuf.length

/-- `WriteSectors` inside the device. -/
theorem Sound.writeSectors (sound : Sound dev)
    (proper : Proper dev (.writeSectors data lba secs))
    (inside : qword (lba * dev.sectorSize) + secs * dev.sectorSize ≤ dev.capacity) :
    (dev.LogRoom lba secs →
        Journal.writeSectors data lba secs dev = .ok ⟨⟩ (appended dev data lba secs)) ∧
      (¬ dev.LogRoom lba secs → ∃ next, Journal.writeSectors data lba secs dev =
        .error .thrown next ∧ Refused dev next ∧
          next.buf = overwrite dev.buf (qword (lba * dev.sectorSize)) data) := by
  obtain ⟨lbaFits, lenFits, length⟩ := proper
  have memory := sound.memory
  have dataPtr := sound.dataPtr
  have isLen : qword (secs * dev.sectorSize) = secs * dev.sectorSize := Nat.mod_eq_of_lt lenFits
  have allData : data.take (secs * dev.sectorSize) = data :=
    List.take_of_length_le (Nat.le_of_eq length)
  have capacity : dev.capacity < 2 ^ 64 := Nat.lt_of_le_of_lt (Nat.le_add_right _ _) memory
  have write := @internalWrite_inside dev data lba secs _ isLen inside capacity
    (Nat.le_of_eq length.symm)
  rw [allData] at write
  have noWrap : qword (dev.logDataPtr + secs * dev.sectorSize) =
      dev.logDataPtr + secs * dev.sectorSize := by
    refine Nat.mod_eq_of_lt ?_
    change _ ≤ dev.buf.length at inside
    omega
  let changed := { dev with buf := overwrite dev.buf (qword (lba * dev.sectorSize)) data }
  have tooLong : dev.logBuf.length < qword (dev.logDataPtr + qword (secs * dev.sectorSize)) ↔
      dev.logBuf.length < dev.logDataPtr + secs * dev.sectorSize := by rw [isLen, noWrap]
  have tooLong' : dev.logBuf.length < dev.logDataPtr + qword (secs * dev.sectorSize) ↔
      dev.logBuf.length < dev.logDataPtr + secs * dev.sectorSize := by rw [isLen]
  have tooBig : uintMax < qword (secs * dev.sectorSize) ↔ uintMax < secs * dev.sectorSize := by
    rw [isLen]
  unfold Journal.writeSectors
  rw [bind_apply, write]
  simp only [get_bind_apply, sound.enabled, if_true]
  constructor
  · rintro ⟨notFull, fits, lbaUint, secsUint, lenUint⟩
    have offset : qword (lba * dev.sectorSize) = lba * dev.sectorSize := by
      have sector := sound.sector
      refine Nat.mod_eq_of_lt (Nat.lt_of_le_of_lt (Nat.mul_le_mul lbaUint (Nat.le_of_lt sector)) ?_)
      decide
    rw [throwIf_bind_of_not (Nat.not_le.mpr notFull),
      throwIf_bind_of_not (tooLong.not.mpr (Nat.not_lt.mpr fits)),
      throwIf_bind_of_not (tooLong'.not.mpr (Nat.not_lt.mpr fits)),
      throwIf_bind_of_not (Nat.not_lt.mpr lbaUint)]
    simp only [set_bind_apply]
    rw [throwIf_bind_of_not (Nat.not_lt.mpr secsUint)]
    simp only [set_bind_apply]
    rw [throwIf_bind_of_not (tooBig.not.mpr (Nat.not_lt.mpr lenUint))]
    simp only [set_apply, isLen, allData, offset]
    unfold appended
    rw [← sound.enabled]
  · intro noRoom
    have same : Refused dev changed :=
      ⟨rfl, rfl, rfl, rfl, fun _ _ => rfl, fun _ _ _ => rfl, rfl, Nat.le_refl _, dataPtr⟩
    have older : ∀ entry, ∀ index < dev.journalId,
        Function.update dev.logs dev.journalId entry index = dev.logs index :=
      fun entry index before => Function.update_of_ne (Nat.ne_of_lt before) _ _
    by_cases full : dev.logCapacity ≤ dev.journalId
    · rw [throwIf_bind_of full]
      exact ⟨changed, by rw [← sound.enabled], same, rfl⟩
    rw [throwIf_bind_of_not full]
    by_cases fits : dev.logBuf.length < dev.logDataPtr + secs * dev.sectorSize
    · rw [throwIf_bind_of (tooLong.mpr fits)]
      exact ⟨changed, by rw [← sound.enabled], same, rfl⟩
    rw [throwIf_bind_of_not (tooLong.not.mpr fits), throwIf_bind_of_not (tooLong'.not.mpr fits)]
    by_cases lbaUint : uintMax < lba
    · rw [throwIf_bind_of lbaUint]
      exact ⟨changed, by rw [← sound.enabled], same, rfl⟩
    rw [throwIf_bind_of_not lbaUint]
    simp only [set_bind_apply]
    by_cases secsUint : uintMax < secs
    · rw [throwIf_bind_of secsUint]
      exact ⟨_, rfl, ⟨rfl, sound.enabled.symm, rfl, rfl, older _, fun _ _ _ => rfl, rfl,
        Nat.le_refl _, dataPtr⟩, rfl⟩
    rw [throwIf_bind_of_not secsUint]
    simp only [set_bind_apply]
    have lenUint : uintMax < secs * dev.sectorSize := by
      by_contra lenUint
      exact noRoom ⟨Nat.not_le.mp full, Nat.not_lt.mp fits, Nat.not_lt.mp lbaUint,
        Nat.not_lt.mp secsUint, Nat.not_lt.mp lenUint⟩
    rw [throwIf_bind_of (tooBig.mpr lenUint)]
    have long : (overwrite dev.logBuf dev.logDataPtr (data.take (qword (secs * dev.sectorSize)))).length
        = dev.logBuf.length := by
      rw [isLen, allData]
      exact length_overwrite (by omega)
    refine ⟨_, rfl, ⟨rfl, sound.enabled.symm, rfl, rfl, older _, fun start len before =>
      slice_overwrite_before before dataPtr, long, Nat.le_add_right _ _, ?_⟩, rfl⟩
    change dev.logDataPtr + qword (secs * dev.sectorSize) ≤ List.length (overwrite _ _ _)
    rw [long, isLen]
    exact Nat.not_lt.mp fits

/-- The logged writes of a device that differs in what is behind the log. -/
theorem Refused.history (sound : Sound dev) (refused : Refused dev next) :
    next.history = dev.history := by
  unfold JournalDevice.history JournalDevice.getSteps
  rw [refused.journalId]
  refine List.map_congr_left fun index listed => ?_
  have before := List.mem_range.mp listed
  unfold JournalDevice.written
  rw [refused.logs index before, refused.sectorSize, refused.data _ _ (sound.logged index before)]

/-- A write that is refused and has changed nothing else keeps the invariant. -/
theorem Refused.sound (sound : Sound dev) (refused : Refused dev next)
    (content : next.buf = dev.buf) : Sound next where
  enabled := refused.journalEnable.trans sound.enabled
  sector := by
    rw [refused.sectorSize]
    exact sound.sector
  memory := by
    rw [content, refused.logBuf]
    exact sound.memory
  snapshot := by
    rw [refused.snapshot, content]
    exact sound.snapshot
  dataPtr := refused.dataPtr
  logged := by
    rw [refused.journalId, refused.sectorSize]
    intro index before
    rw [refused.logs index before]
    exact Nat.le_trans (sound.logged index before) refused.behind
  inside := by
    rw [refused.journalId, refused.sectorSize, content]
    intro index before
    rw [refused.logs index before]
    exact sound.inside index before
  replays := by
    unfold JournalDevice.Replays
    rw [content, refused.snapshot, refused.history sound]
    exact sound.replays

/-- The logged writes after one more. -/
theorem Sound.history_appended (sound : Sound dev)
    (length : data.length = secs * dev.sectorSize) :
    (appended dev data lba secs).history = dev.history ++ [(lba * dev.sectorSize, data)] := by
  unfold JournalDevice.history
  change (List.range (dev.journalId + 1)).map _ = (List.range dev.journalId).map _ ++ _
  rw [List.range_succ, List.map_append]
  congr 1
  · refine List.map_congr_left fun index listed => ?_
    have before := List.mem_range.mp listed
    have entry : (appended dev data lba secs).logs index = dev.logs index :=
      Function.update_of_ne (Nat.ne_of_lt before) _ _
    unfold JournalDevice.written
    rw [entry]
    change (_, slice (overwrite dev.logBuf dev.logDataPtr data) _
      ((dev.logs index).secs * dev.sectorSize)) = _
    rw [slice_overwrite_before (sound.logged index before) sound.dataPtr]
    rfl
  · have entry : (appended dev data lba secs).logs dev.journalId =
        ⟨lba, secs, dev.logDataPtr⟩ := Function.update_self ..
    unfold JournalDevice.written
    rw [List.map_singleton, entry]
    change [(_, slice (overwrite dev.logBuf dev.logDataPtr data) dev.logDataPtr
      (secs * dev.sectorSize))] = _
    rw [← length, slice_overwrite sound.dataPtr]
    rfl

/-- A write that the log has room for keeps the invariant. -/
theorem Sound.appended (sound : Sound dev) (length : data.length = secs * dev.sectorSize)
    (inside : lba * dev.sectorSize + secs * dev.sectorSize ≤ dev.capacity)
    (room : dev.LogRoom lba secs) : Sound (appended dev data lba secs) := by
  obtain ⟨-, fits, -⟩ := room
  have written : (overwrite dev.buf (lba * dev.sectorSize) data).length = dev.buf.length :=
    length_overwrite (length ▸ inside)
  have stored : (overwrite dev.logBuf dev.logDataPtr data).length = dev.logBuf.length :=
    length_overwrite (length ▸ fits)
  have entries : ∀ index < dev.journalId + 1,
      (index < dev.journalId ∧
        (Journal.appended dev data lba secs).logs index = dev.logs index) ∨
      (Journal.appended dev data lba secs).logs index = ⟨lba, secs, dev.logDataPtr⟩ := by
    intro index before
    rcases Nat.lt_succ_iff_lt_or_eq.mp before with older | rfl
    · exact .inl ⟨older, Function.update_of_ne (Nat.ne_of_lt older) _ _⟩
    · exact .inr (Function.update_self ..)
  refine ⟨sound.enabled, sound.sector, ?_, ?_, ?_, ?_, ?_, ?_⟩
  · change (overwrite _ _ _).length + (overwrite _ _ _).length < _
    rw [written, stored]
    exact sound.memory
  · change dev.snapshot.length = (overwrite _ _ _).length
    rw [written]
    exact sound.snapshot
  · change dev.logDataPtr + secs * dev.sectorSize ≤ (overwrite _ _ _).length
    rw [stored]
    exact fits
  · intro index before
    change _ ≤ dev.logDataPtr + secs * dev.sectorSize
    rcases entries index before with ⟨older, entry⟩ | entry
    · rw [entry]
      exact Nat.le_trans (sound.logged index older) (Nat.le_add_right _ _)
    · rw [entry]
      exact Nat.le_refl _
  · intro index before
    change _ ≤ (overwrite _ _ _).length
    rw [written]
    rcases entries index before with ⟨older, entry⟩ | entry
    · rw [entry]
      exact sound.inside index older
    · rw [entry]
      exact inside
  · unfold JournalDevice.Replays
    rw [sound.history_appended length, playback_append_singleton]
    change overwrite dev.buf _ data = overwrite (Lib.playback dev.snapshot dev.history) _ data
    rw [← sound.replays]

/-! ## Single calls -/

/-- A write keeps its promise exactly when it does not take the wrong turn. -/
theorem Sound.write_lawful_iff (sound : Sound dev)
    (proper : Proper dev (.writeSectors data lba secs)) :
    Lawful dev (.writeSectors data lba secs) ↔ Regular dev (.writeSectors data lba secs) := by
  obtain ⟨lbaFits, lenFits, length⟩ := id proper
  have isLen : qword (secs * dev.sectorSize) = secs * dev.sectorSize := Nat.mod_eq_of_lt lenFits
  have runs : (Call.writeSectors data lba secs).run dev =
      (Journal.writeSectors data lba secs >>= fun _ => pure []) dev := rfl
  unfold Lawful
  rw [runs, bind_apply]
  by_cases beyond : dev.capacity < qword (qword (lba * dev.sectorSize) + secs * dev.sectorSize)
  · have refuses : Journal.writeSectors data lba secs dev = .error .thrown dev := by
      unfold Journal.writeSectors internalWrite
      rw [bind_apply, get_bind_apply, throwIf_bind_of (by rw [isLen]; exact beyond)]
    rw [refuses]
    exact ⟨fun _ => .inl beyond, fun _ => ⟨rfl, rfl, rfl⟩⟩
  by_cases inside : qword (lba * dev.sectorSize) + secs * dev.sectorSize ≤ dev.capacity
  · obtain ⟨fits, refuses⟩ := sound.writeSectors proper inside
    by_cases room : dev.LogRoom lba secs
    · have offset : qword (lba * dev.sectorSize) = lba * dev.sectorSize := by
        refine Nat.mod_eq_of_lt (Nat.lt_of_le_of_lt
          (Nat.mul_le_mul room.2.2.1 (Nat.le_of_lt sound.sector)) ?_)
        decide
      rw [fits room]
      exact ⟨fun _ => .inr ⟨inside, .inl room⟩,
        fun _ => ⟨rfl, sound.history_appended length, rfl⟩⟩
    · obtain ⟨next, throws, refused, content⟩ := refuses room
      rw [throws]
      constructor
      · rintro ⟨same, -⟩
        exact .inr ⟨inside, .inr (content.symm.trans same)⟩
      · intro regular
        have same := ((regular.resolve_left beyond).2.resolve_left room)
        exact ⟨content.trans same, refused.snapshot, refused.history sound⟩
  · have wraps : Journal.writeSectors data lba secs dev = .error .undefined dev := by
      unfold Journal.writeSectors internalWrite
      rw [bind_apply, get_bind_apply, throwIf_bind_of_not (by rw [isLen]; exact beyond),
        throwIf_bind_of (by rw [isLen]; exact .inl (Nat.not_le.mp inside))]
    rw [wraps]
    exact ⟨False.elim, fun regular => absurd (regular.resolve_left beyond).1 inside⟩

/-- A rollback keeps its promise exactly when it rolls nothing back. -/
theorem Sound.backLog_lawful_iff (sound : Sound dev) (proper : Proper dev (.backLog num)) :
    Lawful dev (.backLog num) ↔ Regular dev (.backLog num) := by
  have runs : (Call.backLog num).run dev = (Journal.backLog num >>= fun _ => pure []) dev := rfl
  unfold Lawful
  rw [runs, bind_apply, sound.backLog proper]
  change _ ∧ dev.history = dev.history.take (dev.getSteps - num) ∧ _ ↔ num = 0
  have steps : dev.history.length = dev.getSteps := by
    unfold JournalDevice.history
    rw [List.length_map, List.length_range]
  constructor
  · rintro ⟨-, same, -⟩
    have lengths := congrArg List.length same
    rw [List.length_take, steps] at lengths
    have bound : num ≤ dev.getSteps := proper
    omega
  · rintro rfl
    have whole : dev.history.take (dev.getSteps - 0) = dev.history :=
      List.take_of_length_le (Nat.le_of_eq steps)
    refine ⟨rfl, whole.symm, ?_⟩
    change Lib.playback dev.snapshot (dev.history.take (dev.getSteps - 0)) =
      Lib.playback dev.snapshot dev.history
    rw [whole]

/-- Reading returns a part of the content. -/
theorem Sound.readSectors (sound : Sound dev) (proper : Proper dev (.readSectors lba secs)) :
    Journal.readSectors lba secs dev =
      .ok (slice dev.buf (lba * dev.sectorSize) (secs * dev.sectorSize)) dev := by
  have memory := sound.memory
  have bound : lba * dev.sectorSize + secs * dev.sectorSize ≤ dev.buf.length := proper
  have isOffset : qword (lba * dev.sectorSize) = lba * dev.sectorSize :=
    Nat.mod_eq_of_lt (by omega)
  have isLen : qword (secs * dev.sectorSize) = secs * dev.sectorSize :=
    Nat.mod_eq_of_lt (by omega)
  unfold Journal.readSectors
  rw [get_bind_apply, throwIf_bind_of_not (by rw [isOffset, isLen]; exact Nat.not_lt.mpr bound),
    isOffset, isLen]
  rfl

/-- A call keeps its promise exactly when it does not take a wrong turn. -/
theorem Sound.lawful_iff (sound : Sound dev) {call : Call} (proper : Proper dev call) :
    Lawful dev call ↔ Regular dev call := by
  cases call with
  | writeSectors data lba secs => exact sound.write_lawful_iff proper
  | backLog num => exact sound.backLog_lawful_iff proper
  | resetLog => exact ⟨fun _ => trivial, fun _ => ⟨rfl, rfl, rfl⟩⟩
  | readSectors lba secs =>
    refine ⟨fun _ => trivial, fun _ => ?_⟩
    change Promise dev _ (Journal.readSectors lba secs dev)
    rw [sound.readSectors proper]
    exact ⟨rfl, rfl⟩

/-! ## Runs -/

/-- A call without a wrong turn keeps the invariant. -/
theorem Sound.step (sound : Sound dev)
    (step : Step (fun dev call => Proper dev call ∧ Regular dev call) dev next) : Sound next := by
  obtain ⟨call, ⟨proper, regular⟩, ends⟩ := step
  cases call with
  | writeSectors data lba secs =>
    obtain ⟨-, lenFits, length⟩ := id proper
    have isLen : qword (secs * dev.sectorSize) = secs * dev.sectorSize := Nat.mod_eq_of_lt lenFits
    have runs : (Call.writeSectors data lba secs).run dev =
        (Journal.writeSectors data lba secs >>= fun _ => pure []) dev := rfl
    rw [runs, bind_apply] at ends
    rcases regular with beyond | ⟨inside, outcome⟩
    · have refuses : Journal.writeSectors data lba secs dev = .error .thrown dev := by
        unfold Journal.writeSectors internalWrite
        rw [bind_apply, get_bind_apply, throwIf_bind_of (by rw [isLen]; exact beyond)]
      rw [refuses] at ends
      obtain ⟨_, ⟨⟩⟩ | ⟨⟨⟩⟩ := ends
      exact sound
    · obtain ⟨fits, refuses⟩ := sound.writeSectors proper inside
      by_cases room : dev.LogRoom lba secs
      · have offset : qword (lba * dev.sectorSize) = lba * dev.sectorSize := by
          refine Nat.mod_eq_of_lt (Nat.lt_of_le_of_lt
            (Nat.mul_le_mul room.2.2.1 (Nat.le_of_lt sound.sector)) ?_)
          decide
        rw [fits room] at ends
        rw [offset] at inside
        obtain ⟨_, ⟨⟩⟩ | ⟨⟨⟩⟩ := ends
        exact sound.appended length inside room
      · obtain ⟨last, throws, refused, content⟩ := refuses room
        rw [throws] at ends
        obtain ⟨_, ⟨⟩⟩ | ⟨⟨⟩⟩ := ends
        exact refused.sound sound (content.trans (outcome.resolve_left room))
  | backLog num =>
    have nothing : num = 0 := regular
    subst nothing
    have runs : (Call.backLog 0).run dev = (Journal.backLog 0 >>= fun _ => pure []) dev := rfl
    rw [runs, bind_apply, sound.backLog proper] at ends
    have steps : dev.history.length ≤ dev.getSteps - 0 := by
      unfold JournalDevice.history
      rw [List.length_map, List.length_range]
      exact Nat.le_refl _
    rw [List.take_of_length_le steps, ← show dev.buf = _ from sound.replays] at ends
    obtain ⟨_, ⟨⟩⟩ | ⟨⟨⟩⟩ := ends
    exact sound
  | resetLog =>
    obtain ⟨_, ⟨⟩⟩ | ⟨⟨⟩⟩ := ends
    exact ⟨sound.enabled, sound.sector, sound.memory, rfl, Nat.zero_le _, nofun, nofun, rfl⟩
  | readSectors lba secs =>
    change (∃ found, Journal.readSectors lba secs dev = .ok found next) ∨
      Journal.readSectors lba secs dev = .error .thrown next at ends
    rw [sound.readSectors proper] at ends
    obtain ⟨_, ⟨⟩⟩ | ⟨⟨⟩⟩ := ends
    exact sound

/-- In runs without wrong turns, from a device with any image, the content is the snapshot with the
logged writes, and a call keeps its promise exactly when it does not take a wrong turn. -/
theorem journal_lawful_iff {image logBuf : List UInt8} {sectorSize logCapacity : Nat}
    (sector : sectorSize < 2 ^ 32) (memory : image.length + logBuf.length < 2 ^ 64)
    (run : Relation.ReflTransGen (Step fun dev call => Proper dev call ∧ Regular dev call)
      (createFileImage image sectorSize logCapacity logBuf) dev) :
    dev.Replays ∧ ∀ call, Proper dev call → (Lawful dev call ↔ Regular dev call) := by
  have sound : Sound dev := by
    induction run with
    | refl => exact ⟨rfl, sector, memory, rfl, Nat.zero_le _, nofun, nofun, rfl⟩
    | tail _ step ih => exact ih.step step
  exact ⟨sound.replays, fun call proper => sound.lawful_iff proper⟩

/-- A device with two sectors and room for one write, after a write. -/
theorem journal_lawful_iff_written :
    ∃ dev, Relation.ReflTransGen (Step fun dev call => Proper dev call ∧ Regular dev call)
        (createFileImage (List.replicate 1024 0) 512 1 (List.replicate 8192 0)) dev ∧
      dev.getSteps = 1 ∧ dev.Replays ∧ Lawful dev (.backLog 0) ∧
      ¬ Lawful dev (.writeSectors (List.replicate 512 2) 1 1) := by
  let first := createFileImage (List.replicate 1024 0) 512 1 (List.replicate 8192 0)
  let write := Call.writeSectors (List.replicate 512 1) 0 1
  have allowed : Proper first write ∧ Regular first write ∧ returned (write.run first) = true ∧
      (finalState (write.run first)).getSteps = 1 := by decide +kernel
  obtain ⟨proper, regular, returns, steps⟩ := allowed
  obtain ⟨found, dev, ran⟩ := eq_ok_of_returned returns
  rw [ran] at steps
  have run : Relation.ReflTransGen (Step fun dev call => Proper dev call ∧ Regular dev call)
      first dev := .single ⟨write, ⟨proper, regular⟩, .inl ⟨found, ran⟩⟩
  have refused : Proper (finalState (write.run first)) (.writeSectors (List.replicate 512 2) 1 1) ∧
      ¬ Regular (finalState (write.run first)) (.writeSectors (List.replicate 512 2) 1 1) := by
    decide +kernel
  rw [ran] at refused
  obtain ⟨replays, lawful⟩ := journal_lawful_iff (by decide)
    (by rw [List.length_replicate, List.length_replicate]; decide) run
  exact ⟨dev, run, steps, replays, (lawful (.backLog 0) (Nat.zero_le _)).mpr rfl,
    fun keeps => refused.2 ((lawful _ refused.1).mp keeps)⟩

/-- A rollback of the only write leaves the write in the log. -/
theorem rollback_keeps_steps :
    ¬ ∀ (image logBuf : List UInt8) (sectorSize logCapacity : Nat) (dev : JournalDevice),
      sectorSize < 2 ^ 32 → image.length + logBuf.length < 2 ^ 64 →
      Relation.ReflTransGen (Step Proper)
        (createFileImage image sectorSize logCapacity logBuf) dev →
      dev.Replays ∧ ∀ call, Proper dev call → Lawful dev call := by
  intro promised
  let first := createFileImage (List.replicate 1024 0) 512 1 (List.replicate 8192 0)
  let write := Call.writeSectors (List.replicate 512 1) 0 1
  have allowed : Proper first write ∧ returned (write.run first) = true := by decide +kernel
  have rolled : Proper (finalState (write.run first)) (.backLog 1) ∧
      (finalState ((Call.backLog 1).run (finalState (write.run first)))).getSteps = 1 ∧
      returned ((Call.backLog 1).run (finalState (write.run first))) = true := by decide +kernel
  obtain ⟨found, dev, ran⟩ := eq_ok_of_returned allowed.2
  rw [ran] at rolled
  obtain ⟨proper, steps, returns⟩ := rolled
  obtain ⟨found', next, rolls⟩ := eq_ok_of_returned returns
  change (finalState ((Call.backLog 1).run dev)).getSteps = 1 at steps
  change (Call.backLog 1).run dev = _ at rolls
  rw [rolls] at steps
  have lawful := (promised _ _ _ _ dev (by decide)
    (by rw [List.length_replicate, List.length_replicate]; decide)
    (.single ⟨write, allowed.1, .inl ⟨found, ran⟩⟩)).2 (.backLog 1) proper
  unfold Lawful at lawful
  rw [rolls] at lawful
  have one : dev.getSteps = 1 := by
    have counted : (finalState (write.run first)).getSteps = 1 := by decide +kernel
    rw [ran] at counted
    exact counted
  have nothing : next.history = [] := by
    rw [lawful.2.1, one]
    exact List.take_zero
  have lengths := congrArg List.length nothing
  change next.getSteps = 1 at steps
  unfold JournalDevice.history at lengths
  rw [List.length_map, List.length_range, steps] at lengths
  cases lengths

end FsChecking.Device.Journal
