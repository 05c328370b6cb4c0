import FsChecking.Tester.WorkItems

/-!
# Steps of the coordinator

Every step of `RunTest`, of the two enumerations and of `FinishTest` keeps `Sound`: it hands
references from one holder to another, takes them with `add_ref` and `get`, and gives them back in
`put`.
-/

namespace FsChecking.Tester.ExTester

open Lib

variable {σ ω ρ ε : Type} {config : Config σ ω ρ ε} {tester next : ExTester σ ω ε}
  {emitted : List (Event σ ω ρ)} {cur : Nat}

/-- Handing a state with an operation to a work item. -/
theorem doFsOperatorQueue_sound {op : ω} {rest : List ω} {contextId : Nat}
    (sound : Sound config tester) (phase : tester.phase = .submitting cur (op :: rest) contextId)
    (does : tester.doFsOperatorQueue cur op rest contextId = some (next, emitted)) :
    Sound config next := by
  have curHeld : cur ∈ tester.held := by
    simp [held, phase, Phase.locals]
  have curLive := sound.accounted.live_of_mem (List.mem_append_left _ curHeld)
  obtain ⟨referred, refLives⟩ := sound.accounted.addRef curLive
  unfold doFsOperatorQueue at does
  split at does
  · cases does
  rename_i state states obtained
  obtain ⟨rfl, rfl⟩ := Prod.mk.inj (Option.some.inj does)
  obtain ⟨hands, handed⟩ := referred.get obtained
  have fresh : contextId ∉ tester.pending config := fun member =>
    absurd (sound.below contextId (by rw [phase]; rfl) contextId member) (Nat.lt_irrefl _)
  have workItems : tester.workItems config = tester.pending config := by
    simp [ExTester.workItems, phase, Phase.item]
  obtain ⟨final, -⟩ := handed.setState state
    { states.state state with op := op } rfl rfl rfl
  have untouched : ∀ slot ∈ tester.pending config,
      (setOp states state op).state (tester.works slot).state =
        tester.states.state (tester.works slot).state := by
    intro slot member
    rw [← workItems] at member
    have alive := sound.live_state member
    have notNew : (tester.works slot).state ≠ state := fun same =>
      hands.dead ((refLives state).mpr (same ▸ alive))
    have notCur : (tester.works slot).state ≠ cur := fun same =>
      (sound.foreign member).1 (same ▸ curHeld)
    unfold setOp
    rw [StateManager.setState_of_ne notNew, hands.others _ notNew,
      StateManager.addRef_of_ne notCur]
  let next : ExTester σ ω ε :=
    { tester with
      states := setOp states state op
      works := Function.update tester.works contextId
        { state := state, srcState := cur, result := .pending }
      subQ := tester.subQ ++ [contextId]
      phase := .submitting cur rest (contextId + 1) }
  change Sound config next
  have pending : (next.pending config).Perm (contextId :: tester.pending config) := by
    refine List.perm_iff_count.mpr fun slot => ?_
    change ((tester.subQ ++ [contextId] ++ tester.hands config _) ++
      (tester.hands config _ ++ tester.cmpQ)).count slot = _
    unfold ExTester.pending
    simp only [List.count_append, List.count_cons, List.count_nil]
    omega
  have items : (next.workItems config).Perm (contextId :: tester.pending config) := by
    have none_received : next.workItems config = next.pending config := List.append_nil _
    rw [none_received]
    exact pending
  have work : ∀ slot ∈ tester.pending config, next.works slot = tester.works slot := by
    intro slot member
    have apart : slot ≠ contextId := fun same => fresh (same ▸ member)
    exact Function.update_of_ne apart ..
  have newWork : next.works contextId = { state := state, srcState := cur, result := .pending } :=
    Function.update_self ..
  have states' : next.states = setOp states state op := rfl
  exact
    { accounted := by
        refine final.perm ?_
        unfold holders carried
        rw [workItems, phase]
        have sameState := List.map_congr_left fun slot member =>
          congrArg WorkContext.state (work slot member)
        have sameSource := List.map_congr_left fun slot member =>
          congrArg WorkContext.srcState (work slot member)
        have states := items.map fun slot => (next.works slot).state
        have sources := items.map fun slot => (next.works slot).srcState
        rw [List.map_cons, sameState, newWork] at states
        rw [List.map_cons, sameSource, newWork] at sources
        have held : next.held = tester.held := by
          unfold ExTester.held
          rw [phase]
          rfl
        have source : next.phase.source.toList = [] := rfl
        rw [held, source, List.append_nil]
        refine List.perm_iff_count.mpr fun other => ?_
        simp only [List.count_append, states.count_eq, sources.count_eq, List.count_cons,
          Phase.source, Option.toList_none, List.append_nil]
        omega
      distinct := by
        have source : next.phase.source.toList = [] := rfl
        rw [source, List.append_nil, items.nodup_iff]
        have distinct := sound.distinct
        rw [workItems, phase] at distinct
        exact List.nodup_cons.mpr ⟨fresh, (List.nodup_append.mp distinct).1⟩
      outstanding := by
        rw [pending.length_eq, List.length_cons, sound.outstanding, phase]
        rfl
      below := by
        rintro _ ⟨⟩ slot member
        rcases List.mem_cons.mp (pending.mem_iff.mp member) with rfl | before
        · exact Nat.lt_succ_self _
        · exact Nat.lt_succ_of_lt (sound.below contextId (by rw [phase]; rfl) slot before)
      own := by
        intro slot member
        rcases List.mem_cons.mp (items.mem_iff.mp member) with rfl | before
        · rw [newWork, states']
          unfold setOp
          rw [StateManager.setState_self]
          exact hands.single
        · rw [work slot before, states', untouched slot before]
          exact sound.own slot (workItems ▸ before)
      orphan := by
        intro slot member
        rcases List.mem_cons.mp (pending.mem_iff.mp (pending_of_uncopied member)) with rfl | before
        · rw [newWork, states']
          unfold setOp
          rw [StateManager.setState_self]
          exact hands.orphan
        · rw [work slot before, states', untouched slot before]
          apply sound.orphan
          unfold uncopied at member ⊢
          rcases List.mem_append.mp member with queued | taken
          · rcases List.mem_append.mp queued with old | new
            · exact List.mem_append_left _ old
            · exact absurd (List.mem_singleton.mp new ▸ before) fresh
          · exact List.mem_append_right _ taken
      fits := ⟨nofun, Nat.zero_le _⟩ }

/-- Taking a completion from `m_cmp_q`. -/
theorem receive_sound {left inserted slot : Nat} {failed : Bool} {rest : List Nat}
    (sound : Sound config tester) (phase : tester.phase = .receiving cur (left + 1) failed inserted)
    (queue : tester.cmpQ = slot :: rest) :
    Sound config
      { tester with cmpQ := rest, phase := .received cur left failed inserted slot } := by
  have length := sound.outstanding
  have sameItems : (tester.workItems config).length = (tester.pending config).length := by
    simp [workItems, phase, Phase.item]
  rw [phase] at length
  refine sound.passed ?_ ?_ (by rw [phase]; rfl) ?_ nofun ?_ ⟨nofun, ?_⟩ (fun _ => rfl) (fun _ => rfl)
    sound.accounted sound.own fun _ _ => rfl
  · unfold held
    rw [phase]
    exact List.Perm.refl _
  · refine List.perm_iff_count.mpr fun other => ?_
    simp only [workItems, pending, phase, queue, Phase.item, hands, List.count_append,
      Option.toList_some, Option.toList_none, List.count_cons, List.count_nil]
    omega
  · change _ = left + 1 at length
    simp only [pending, queue, List.length_append, List.length_cons] at length
    change _ = left
    simp only [pending, hands, List.length_append] at length ⊢
    omega
  · exact fun slot member => member
  · have fits := sound.fits.inserted
    rw [phase] at fits
    exact fits

/-- Dealing with the new state of a completion. -/
theorem Sound.handled {left inserted slot : Nat} {failed : Bool}
    (sound : Sound config tester) (phase : tester.phase = .received cur left failed inserted slot)
    (item : next.phase.item = none) (source : next.phase.source = some slot)
    (waiting : next.phase.left = left) (contextId : next.phase.contextId = none)
    (fits : next.Fits) (states : next.states = tester.states)
    (works : next.works = tester.works) (workers : next.workers = tester.workers)
    (subQ : next.subQ = tester.subQ) (cmpQ : next.cmpQ = tester.cmpQ)
    (held : next.held.Perm ((tester.works slot).state :: tester.held)) : Sound config next := by
  have pending : next.pending config = tester.pending config := by
    unfold ExTester.pending hands
    rw [workers, subQ, cmpQ]
  have before : tester.workItems config = tester.pending config ++ [slot] := by
    unfold workItems
    rw [phase]
    rfl
  have after : next.workItems config = tester.pending config := by
    unfold workItems
    rw [item, pending]
    exact List.append_nil _
  exact
    { accounted := by
        rw [states]
        refine sound.accounted.perm (List.perm_iff_count.mpr fun other => ?_)
        simp only [holders, carried, after, before, source, works, phase, Phase.source,
          List.count_append, held.count_eq, List.map_append, List.map_cons, List.map_nil,
          Option.toList_some, Option.toList_none, List.count_cons, List.count_nil]
        omega
      distinct := by
        have distinct := sound.distinct
        rw [before, phase] at distinct
        rw [after, source]
        simpa [Phase.source] using distinct
      outstanding := by
        rw [pending, waiting, sound.outstanding, phase]
        rfl
      below := by
        rw [contextId]
        exact nofun
      own := by
        rw [after, states, works]
        intro other member
        exact sound.own other (before ▸ List.mem_append_left _ member)
      orphan := by
        have uncopied : next.uncopied config = tester.uncopied config := by
          unfold ExTester.uncopied hands
          rw [workers, subQ]
        rw [uncopied, states, works]
        exact sound.orphan
      fits := fits }

/-- Inserting a state into the open list adds a reference. -/
theorem count_insertIdx (list : List Nat) (position state other : Nat)
    (inside : position ≤ list.length) :
    (list.insertIdx position state).count other = (state :: list).count other :=
  (List.perm_insertIdx state list inside).count_eq other

/-- The reference to the new state of a completion goes to `put`, or to the open list. -/
theorem handleResult_sound [DecidableEq ε] {left inserted slot : Nat} {failed : Bool}
    (sound : Sound config tester)
    (phase : tester.phase = .received cur left failed inserted slot) :
    Sound config (tester.handleResult config cur left failed inserted slot) := by
  have fits := sound.fits.inserted
  rw [phase] at fits
  change inserted ≤ tester.openList.length at fits
  have put : ∀ (closed : ε → Option Nat) (failed' : Bool), Sound config
      { tester with
        closed := closed
        phase := .putting (some (tester.works slot).state)
          (.releasing cur left failed' inserted slot) } := by
    intro closed failed'
    refine sound.handled phase rfl rfl rfl rfl ⟨nofun, fits⟩ rfl rfl rfl rfl rfl ?_
    refine List.perm_iff_count.mpr fun other => ?_
    simp only [held, phase, Phase.locals, List.count_append, List.count_cons, List.count_nil,
      Option.toList_some]
    omega
  unfold handleResult
  dsimp only
  split
  · split
    · exact put _ _
    · refine sound.handled phase rfl rfl rfl rfl ⟨nofun, ?_⟩ rfl rfl rfl rfl rfl ?_
      · change inserted + 1 ≤ (tester.openList.insertIdx inserted _).length
        rw [List.length_insertIdx_of_le_length fits]
        omega
      · refine List.perm_iff_count.mpr fun other => ?_
        simp only [held, phase, Phase.locals, List.count_append, count_insertIdx _ _ _ _ fits,
          List.count_cons, List.count_nil]
        omega
  · exact put tester.closed _
  · exact put tester.closed _
  · exact put tester.closed _

/-- The reference to the source state of a completion goes to `put`. -/
theorem release_sound {left inserted slot : Nat} {failed : Bool} (sound : Sound config tester)
    (phase : tester.phase = .releasing cur left failed inserted slot) :
    Sound config
      { tester with
        works := Function.update tester.works slot
          { tester.works slot with result := .unknown }
        phase := .putting (some (tester.works slot).srcState)
          (.receiving cur left failed inserted) } := by
  let next : ExTester σ ω ε :=
    { tester with
      works := Function.update tester.works slot { tester.works slot with result := .unknown }
      phase := .putting (some (tester.works slot).srcState)
        (.receiving cur left failed inserted) }
  change Sound config next
  have before : tester.workItems config = tester.pending config := by
    unfold workItems
    rw [phase]
    exact List.append_nil _
  have after : next.workItems config = tester.pending config := List.append_nil _
  have outside : slot ∉ tester.pending config := by
    have distinct := sound.distinct
    rw [before, phase] at distinct
    intro member
    exact (List.nodup_append.mp distinct).2.2 slot member slot (List.mem_singleton_self slot) rfl
  have work : ∀ other ∈ tester.pending config, next.works other = tester.works other := by
    intro other member
    have apart : other ≠ slot := fun same => outside (same ▸ member)
    exact Function.update_of_ne apart ..
  have sameState := List.map_congr_left fun other member =>
    congrArg WorkContext.state (work other member)
  have sameSource := List.map_congr_left fun other member =>
    congrArg WorkContext.srcState (work other member)
  exact
    { accounted := by
        refine sound.accounted.perm (List.perm_iff_count.mpr fun other => ?_)
        unfold holders carried
        rw [after, before, List.map_append, List.map_append, sameState, sameSource, phase]
        simp only [held, phase, next, Phase.locals, Phase.source, List.count_append,
          List.count_cons, List.count_nil, Option.toList_some, Option.toList_none, List.map_cons,
          List.map_nil]
        omega
      distinct := by
        rw [after, ← before]
        change (tester.workItems config ++ []).Nodup
        rw [List.append_nil]
        exact (List.nodup_append.mp sound.distinct).1
      outstanding := by
        change (tester.pending config).length = left
        rw [sound.outstanding, phase]
        rfl
      below := nofun
      own := by
        rw [after]
        intro other member
        rw [work other member]
        exact sound.own other (before ▸ member)
      orphan := by
        intro other member
        rw [work other (pending_of_uncopied member)]
        exact sound.orphan other member
      fits := by
        have fits := sound.fits.inserted
        rw [phase] at fits
        exact ⟨nofun, fits⟩ }

/-- One round of `put`. -/
theorem put_sound {address : Nat} {after : Phase ω} (sound : Sound config tester)
    (phase : tester.phase = .putting (some address) after) :
    Sound config
      { tester with
        states := (tester.states.putRound address).2
        phase := .putting (tester.states.putRound address).1 after } := by
  have fits := sound.fits
  have heldHere : address ∈ tester.held := by
    simp [held, phase, Phase.locals]
  refine sound.coordinated rfl rfl rfl rfl ?_ ⟨?_, ?_⟩ ?_ fun slot member => ?_
  · rw [phase]
    exact ⟨rfl, rfl, rfl, .inl rfl⟩
  · have records := fits.records
    rw [phase] at records
    exact records
  · have inserted := fits.inserted
    rw [phase] at inserted
    exact inserted
  · let others := tester.openList ++ tester.maxDepthState.toList ++ after.locals
    have listed : Accounted tester.states (address :: (others ++ tester.carried config)) := by
      refine sound.accounted.perm (List.perm_iff_count.mpr fun other => ?_)
      simp only [others, holders, held, phase, Phase.locals, List.count_append, List.count_cons,
        List.count_nil, Option.toList_some]
      omega
    refine listed.putRound.1.perm (List.perm_iff_count.mpr fun other => ?_)
    simp only [others, held, Phase.locals, List.count_append]
    omega
  · have foreign : (tester.works slot).state ≠ address := fun same =>
      (sound.foreign member).1 (same ▸ heldHere)
    exact StateManager.putRound_of_ne foreign

/-- Copying the current state for `DoFsOperator`. -/
theorem duplicateCurrent_sound {op : ω} {rest : List ω} {index inserted : Nat}
    (sound : Sound config tester)
    (phase : tester.phase = .enumerating cur (op :: rest) index inserted)
    (does : tester.duplicateCurrent cur op rest index inserted = some (next, emitted)) :
    Sound config next := by
  have curHeld : cur ∈ tester.held := by
    simp [held, phase, Phase.locals]
  have curLive := sound.accounted.live_of_mem (List.mem_append_left _ curHeld)
  unfold duplicateCurrent at does
  split at does
  · cases does
  rename_i state states obtained
  obtain ⟨rfl, rfl⟩ := Prod.mk.inj (Option.some.inj does)
  obtain ⟨handsOut, handed⟩ := sound.accounted.get obtained
  have apart : state ≠ cur := fun same => handsOut.dead (same ▸ curLive)
  have stateLive := (handsOut.lives state).mpr (.inr rfl)
  have childless : states.liveChildren state = 0 := by
    have exact_count := handed.ref_eq stateLive
    rw [handsOut.single, List.count_cons_self] at exact_count
    omega
  obtain ⟨copied, -⟩ := handed.duplicateFrom ((handsOut.lives state).mpr (.inr rfl))
    handsOut.orphan childless ((handsOut.lives cur).mpr (.inl curLive)) apart
  obtain ⟨final, -⟩ := copied.setState state
    { (states.duplicateFrom state cur).state state with op := op } rfl rfl rfl
  have none_left : tester.workItems config = [] :=
    sound.idle (by rw [phase]; rfl) (by rw [phase]; rfl)
  refine sound.coordinated rfl rfl rfl rfl ?_ ⟨nofun, ?_⟩ ?_ ?_
  · rw [phase]
    exact ⟨rfl, rfl, rfl, .inl rfl⟩
  · have fits := sound.fits.inserted
    rw [phase] at fits
    exact fits
  · refine final.perm (List.perm_iff_count.mpr fun other => ?_)
    simp only [holders, held, phase, Phase.locals, List.count_append, List.count_cons,
      List.count_nil]
    omega
  · rw [none_left]
    exact nofun

/-- Executing an operation changes only the data of its state. -/
theorem execute_states (config : Config σ ω ρ ε) (states : StateManager σ ω) (random : ρ) (address : Nat) :
    ∃ content op, (execute config states random address).1 =
      states.setState address { states.state address with content := content, op := op } :=
  ⟨_, _, rfl⟩

/-- The rest of `DoFsOperator`: the reference to the new state goes to `put`, or to the open list. -/
theorem doFsOperator_sound [DecidableEq ε] {rest : List ω} {index inserted newState : Nat}
    {random : ρ} (sound : Sound config tester)
    (phase : tester.phase = .operating cur rest index inserted newState)
    (does : tester.doFsOperator config random cur rest index inserted newState =
      some (next, emitted)) : Sound config next := by
  have none_left : tester.workItems config = [] :=
    sound.idle (by rw [phase]; rfl) (by rw [phase]; rfl)
  have fits := sound.fits.inserted
  rw [phase] at fits
  change inserted ≤ tester.openList.length at fits
  obtain ⟨content, op, states⟩ := execute_states config tester.states random newState
  obtain ⟨final, -⟩ := sound.accounted.setState newState
    { tester.states.state newState with content := content, op := op } rfl rfl rfl
  rw [← states] at final
  have put : ∀ (closed : ε → Option Nat) (after : Phase ω), after.locals = [cur] →
      Phase.Keeps tester.phase after → after.records = false →
      after.inserted ≤ tester.openList.length → Sound config
        { tester with
          states := (execute config tester.states random newState).1
          closed := closed
          phase := .putting (some newState) after } := by
    intro closed after locals keeps records inserted
    refine sound.coordinated rfl rfl rfl rfl
      ⟨keeps.item, keeps.source, keeps.left, keeps.contextId⟩ ⟨?_, inserted⟩ ?_ ?_
    · change after.records = true → _
      rw [records]
      exact nofun
    · refine final.perm (List.perm_iff_count.mpr fun other => ?_)
      simp only [holders, held, phase, Phase.locals, locals, List.count_append, List.count_cons,
        List.count_nil, Option.toList_some]
      omega
    · rw [none_left]
      exact nofun
  unfold doFsOperator at does
  dsimp only at does
  split at does
  · obtain ⟨rfl, rfl⟩ := Prod.mk.inj (Option.some.inj does)
    exact put tester.closed _ rfl (by rw [phase]; exact ⟨rfl, rfl, rfl, .inl rfl⟩) rfl
      (Nat.zero_le _)
  · split at does
    · obtain ⟨rfl, rfl⟩ := Prod.mk.inj (Option.some.inj does)
      exact put _ _ rfl (by rw [phase]; exact ⟨rfl, rfl, rfl, .inl rfl⟩) rfl fits
    · obtain ⟨rfl, rfl⟩ := Prod.mk.inj (Option.some.inj does)
      refine sound.coordinated rfl rfl rfl rfl ?_ ⟨nofun, ?_⟩ ?_ ?_
      · rw [phase]
        exact ⟨rfl, rfl, rfl, .inl rfl⟩
      · change inserted + 1 ≤ (tester.openList.insertIdx inserted newState).length
        rw [List.length_insertIdx_of_le_length fits]
        omega
      · refine final.perm (List.perm_iff_count.mpr fun other => ?_)
        simp only [holders, held, phase, Phase.locals, List.count_append,
          count_insertIdx _ _ _ _ fits, List.count_cons, List.count_nil]
        omega
      · rw [none_left]
        exact nofun
  · split at does
    · obtain ⟨rfl, rfl⟩ := Prod.mk.inj (Option.some.inj does)
      exact put _ _ rfl (by rw [phase]; exact ⟨rfl, rfl, rfl, .inl rfl⟩) rfl fits
    · obtain ⟨rfl, rfl⟩ := Prod.mk.inj (Option.some.inj does)
      exact put _ _ rfl (by rw [phase]; exact ⟨rfl, rfl, rfl, .inl rfl⟩) rfl (Nat.zero_le _)

/-- Recording the state of maximal depth takes a reference. -/
theorem record_sound (sound : Sound config tester) (phase : tester.phase = .recording cur) :
    Sound config
      { tester with
        states := tester.states.addRef cur, maxDepthState := some cur, phase := .deciding cur } := by
  have curHeld : cur ∈ tester.held := by
    simp [held, phase, Phase.locals]
  have nothing : tester.maxDepthState = none := sound.fits.records (by rw [phase]; rfl)
  have curLive := sound.accounted.live_of_mem (List.mem_append_left _ curHeld)
  obtain ⟨referred, -⟩ := sound.accounted.addRef curLive
  refine sound.coordinated rfl rfl rfl rfl ?_ ⟨nofun, Nat.zero_le _⟩ ?_ fun slot member => ?_
  · rw [phase]
    exact ⟨rfl, rfl, rfl, .inl rfl⟩
  · refine referred.perm (List.perm_iff_count.mpr fun other => ?_)
    simp only [holders, held, phase, nothing, Phase.locals, List.count_append, List.count_cons,
      List.count_nil, Option.toList_some, Option.toList_none]
    omega
  · have foreign : (tester.works slot).state ≠ cur := fun same =>
      (sound.foreign member).1 (same ▸ curHeld)
    exact StateManager.addRef_of_ne foreign

/-- Verifying a state that is not expanded. -/
theorem verify_sound {content : σ} (sound : Sound config tester)
    (phase : tester.phase = .deciding cur) :
    Sound config
      { tester with
        states := tester.states.setState cur
          { tester.states.state cur with content := content }
        phase := .putting (some cur) .loop } := by
  obtain ⟨final, -⟩ := sound.accounted.setState cur
    { tester.states.state cur with content := content } rfl rfl rfl
  refine sound.coordinated rfl rfl rfl rfl ?_ ⟨nofun, Nat.zero_le _⟩ ?_ ?_
  · rw [phase]
    exact ⟨rfl, rfl, rfl, .inl rfl⟩
  · refine final.perm (List.perm_iff_count.mpr fun other => ?_)
    simp only [holders, held, phase, Phase.locals, List.count_append, List.count_cons,
      List.count_nil, Option.toList_some]
    omega
  · rw [sound.idle (by rw [phase]; rfl) (by rw [phase]; rfl)]
    exact nofun

/-- All operations have been submitted. -/
theorem submitted_sound {contextId : Nat} (sound : Sound config tester)
    (phase : tester.phase = .submitting cur [] contextId) :
    Sound config { tester with phase := .receiving cur contextId false 0 } := by
  have sameHeld : ({ tester with phase := .receiving cur contextId false 0 } :
      ExTester σ ω ε).held = tester.held := by
    unfold held
    rw [phase]
    rfl
  refine sound.passed ?_ ?_ (by rw [phase]; rfl) ?_ nofun ?_ ⟨nofun, Nat.zero_le _⟩ (fun _ => rfl)
    (fun _ => rfl) sound.accounted sound.own fun _ _ => rfl
  · rw [sameHeld]
  · unfold workItems
    rw [phase]
    exact List.Perm.refl _
  · change (tester.pending config).length = contextId
    rw [sound.outstanding, phase]
    rfl
  · exact fun slot member => member

/-- A step that only moves references between the open list, `m_max_depth_state` and the local
variables of the coordinator. -/
theorem Sound.hop (sound : Sound config tester) {openList : List Nat} {maxDepth : Nat}
    {maxDepthState : Option Nat} {phase : Phase ω} (keeps : tester.phase.Keeps phase)
    (records : phase.records = true → maxDepthState = none)
    (inserted : phase.inserted ≤ openList.length)
    (references : ∀ state, (openList ++ maxDepthState.toList ++ phase.locals).count state =
      (tester.openList ++ tester.maxDepthState.toList ++ tester.phase.locals).count state) :
    Sound config
      { tester with
        openList := openList
        maxDepth := maxDepth
        maxDepthState := maxDepthState
        phase := phase } :=
  sound.moved rfl rfl rfl rfl keeps ⟨records, inserted⟩ rfl
    (List.perm_iff_count.mpr references)

/-- Every step of the coordinator keeps the tester sound. -/
theorem coordinate_sound [DecidableEq ε] {stop : Bool} {picks : List Nat} {random : ρ}
    (sound : Sound config tester)
    (does : tester.coordinate config stop picks random = some (next, emitted)) :
    Sound config next := by
  have fits := sound.fits
  cases phase : tester.phase with
  | loop =>
    simp only [coordinate, phase] at does
    split at does
    · obtain ⟨rfl, rfl⟩ := Prod.mk.inj (Option.some.inj does)
      refine sound.hop ?_ nofun (Nat.zero_le _) fun state => ?_ <;> rw [phase]
      · exact ⟨rfl, rfl, rfl, .inl rfl⟩
      · rfl
    · rename_i cur rest openList
      obtain ⟨rfl, rfl⟩ := Prod.mk.inj (Option.some.inj does)
      refine sound.hop ?_ nofun (Nat.zero_le _) fun state => ?_ <;> rw [phase]
      · exact ⟨rfl, rfl, rfl, .inl rfl⟩
      · simp only [openList, Phase.locals, List.count_append, List.count_cons, List.count_nil]
        omega
  | popped cur =>
    simp only [coordinate, phase] at does
    split at does <;> obtain ⟨rfl, rfl⟩ := Prod.mk.inj (Option.some.inj does)
    · refine sound.hop ?_ (fun _ => rfl) (Nat.zero_le _) fun state => ?_ <;> rw [phase]
      · exact ⟨rfl, rfl, rfl, .inl rfl⟩
      · simp only [Phase.locals, List.count_append, Option.toList_none, List.count_nil]
        omega
    · refine sound.hop ?_ nofun (Nat.zero_le _) fun state => ?_ <;> rw [phase]
      · exact ⟨rfl, rfl, rfl, .inl rfl⟩
      · rfl
  | recording cur =>
    simp only [coordinate, phase] at does
    obtain ⟨rfl, rfl⟩ := Prod.mk.inj (Option.some.inj does)
    exact record_sound sound phase
  | deciding cur =>
    simp only [coordinate, phase] at does
    split at does
    · obtain ⟨rfl, rfl⟩ := Prod.mk.inj (Option.some.inj does)
      refine sound.hop ?_ nofun (Nat.zero_le _) fun state => ?_ <;> rw [phase]
      · exact ⟨rfl, rfl, rfl, .inl rfl⟩
      · rfl
    · split at does <;> obtain ⟨rfl, rfl⟩ := Prod.mk.inj (Option.some.inj does)
      · exact verify_sound sound phase
      · refine sound.hop ?_ nofun (Nat.zero_le _) fun state => ?_ <;> rw [phase]
        · exact ⟨rfl, rfl, rfl, .inl rfl⟩
        · rfl
  | expanding cur =>
    simp only [coordinate, phase] at does
    split at does
    · obtain ⟨chosen, -, same⟩ := Option.map_eq_some_iff.mp does
      obtain ⟨rfl, rfl⟩ := Prod.mk.inj same
      refine sound.hop ?_ nofun (Nat.zero_le _) fun state => ?_ <;> rw [phase]
      · exact ⟨rfl, rfl, rfl, .inr rfl⟩
      · rfl
    · obtain ⟨rfl, rfl⟩ := Prod.mk.inj (Option.some.inj does)
      refine sound.hop ?_ nofun (Nat.zero_le _) fun state => ?_ <;> rw [phase]
      · exact ⟨rfl, rfl, rfl, .inl rfl⟩
      · rfl
  | submitting cur rest contextId =>
    cases rest with
    | nil =>
      simp only [coordinate, phase] at does
      obtain ⟨rfl, rfl⟩ := Prod.mk.inj (Option.some.inj does)
      exact submitted_sound sound phase
    | cons op rest =>
      simp only [coordinate, phase] at does
      split at does
      · exact doFsOperatorQueue_sound sound phase does
      · cases does
  | receiving cur left failed inserted =>
    cases left with
    | zero =>
      simp only [coordinate, phase] at does
      obtain ⟨rfl, rfl⟩ := Prod.mk.inj (Option.some.inj does)
      refine sound.hop ?_ nofun (Nat.zero_le _) fun state => ?_ <;> rw [phase]
      · exact ⟨rfl, rfl, rfl, .inl rfl⟩
      · rfl
    | succ left =>
      simp only [coordinate, phase] at does
      split at does
      · cases does
      · rename_i slot rest queue
        obtain ⟨rfl, rfl⟩ := Prod.mk.inj (Option.some.inj does)
        exact receive_sound sound phase queue
  | received cur left failed inserted slot =>
    simp only [coordinate, phase] at does
    obtain ⟨rfl, rfl⟩ := Prod.mk.inj (Option.some.inj does)
    exact handleResult_sound sound phase
  | releasing cur left failed inserted slot =>
    simp only [coordinate, phase] at does
    obtain ⟨rfl, rfl⟩ := Prod.mk.inj (Option.some.inj does)
    exact release_sound sound phase
  | enumerating cur rest index inserted =>
    cases rest with
    | nil =>
      simp only [coordinate, phase] at does
      obtain ⟨rfl, rfl⟩ := Prod.mk.inj (Option.some.inj does)
      refine sound.hop ?_ nofun (Nat.zero_le _) fun state => ?_ <;> rw [phase]
      · exact ⟨rfl, rfl, rfl, .inl rfl⟩
      · rfl
    | cons op rest =>
      simp only [coordinate, phase] at does
      exact duplicateCurrent_sound sound phase does
  | operating cur rest index inserted newState =>
    simp only [coordinate, phase] at does
    exact doFsOperator_sound sound phase does
  | expanded cur failed =>
    simp only [coordinate, phase] at does
    split at does <;> obtain ⟨rfl, rfl⟩ := Prod.mk.inj (Option.some.inj does) <;>
      refine sound.hop ?_ nofun (Nat.zero_le _) fun state => ?_ <;> rw [phase]
    · exact ⟨rfl, rfl, rfl, .inl rfl⟩
    · rfl
    · exact ⟨rfl, rfl, rfl, .inl rfl⟩
    · rfl
  | putting pointer after =>
    cases pointer with
    | none =>
      simp only [coordinate, phase] at does
      obtain ⟨rfl, rfl⟩ := Prod.mk.inj (Option.some.inj does)
      have records := fits.records
      have inserted := fits.inserted
      rw [phase] at records inserted
      refine sound.hop ?_ records inserted fun state => ?_ <;> rw [phase]
      · exact ⟨rfl, rfl, rfl, .inl rfl⟩
      · rfl
    | some address =>
      simp only [coordinate, phase] at does
      obtain ⟨rfl, rfl⟩ := Prod.mk.inj (Option.some.inj does)
      exact put_sound sound phase
  | finishRun =>
    simp only [coordinate, phase] at does
    obtain ⟨rfl, rfl⟩ := Prod.mk.inj (Option.some.inj does)
    refine sound.hop ?_ nofun (Nat.zero_le _) fun state => ?_ <;> rw [phase]
    · exact ⟨rfl, rfl, rfl, .inl rfl⟩
    · simp only [Phase.locals, List.count_append, Option.toList_none, List.count_nil]
      omega
  | finishTest =>
    simp only [coordinate, phase] at does
    split at does
    · obtain ⟨rfl, rfl⟩ := Prod.mk.inj (Option.some.inj does)
      refine sound.hop ?_ nofun (Nat.zero_le _) fun state => ?_ <;> rw [phase]
      · exact ⟨rfl, rfl, rfl, .inl rfl⟩
      · rfl
    · rename_i first rest openList
      obtain ⟨rfl, rfl⟩ := Prod.mk.inj (Option.some.inj does)
      refine sound.hop ?_ nofun (Nat.zero_le _) fun state => ?_ <;> rw [phase]
      · exact ⟨rfl, rfl, rfl, .inl rfl⟩
      · simp only [openList, Phase.locals, List.count_append, List.count_cons, List.count_nil,
          Option.toList_some]
        omega
  | finished =>
    simp only [coordinate, phase] at does
    cases does

end FsChecking.Tester.ExTester
