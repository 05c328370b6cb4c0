import FsChecking.Tester.Coordinator

/-!
# Steps of the workers

The steps of `FsOperator_Queue` keep `Sound` too: a work item moves from `m_sub_q` through the hands
of a worker to `m_cmp_q`, its state becomes a copy of the source state, and nobody else touches it.
So every run keeps `Sound`.
-/

namespace FsChecking.Tester.ExTester

open Lib

variable {σ ω ρ ε : Type} {config : Config σ ω ρ ε} {tester next : ExTester σ ω ε}
  {emitted : List (Event σ ω ρ)}

/-- Taking an item from `m_sub_q`. -/
theorem take_sound {worker : Nat} (sound : Sound config tester) (inside : worker < config.threadNum)
    (does : tester.take worker = some (next, emitted)) : Sound config next := by
  unfold take at does
  split at does
  · rename_i slot rest idle queue
    obtain ⟨rfl, rfl⟩ := Prod.mk.inj (Option.some.inj does)
    let next : ExTester σ ω ε :=
      { tester with
        workers := Function.update tester.workers worker (.took slot), subQ := rest }
    change Sound config next
    have taken := hands_update next inside Worker.taken? (.took slot) rfl
    have copied := hands_update next inside Worker.copied? (.took slot) rfl
    simp only [idle, Worker.taken?, Worker.copied?, Option.toList_none, Option.toList_some,
      List.append_nil] at taken copied
    have uncopied : (next.uncopied config).Perm (tester.uncopied config) := by
      refine List.perm_iff_count.mpr fun other => ?_
      change (rest ++ next.hands config _).count other = _
      unfold ExTester.uncopied
      rw [List.count_append, taken.count_eq, queue]
      simp only [List.count_append, List.count_cons, List.count_nil]
      omega
    have pending : (next.pending config).Perm (tester.pending config) :=
      uncopied.append (copied.append_right _)
    exact sound.worked rfl rfl rfl pending (fun slot member => uncopied.mem_iff.mp member)
      (fun _ => rfl) (fun _ => rfl) sound.accounted sound.own fun _ _ => rfl
  · cases does

/-- The item of a worker that has not copied its source state is not copied. -/
theorem uncopied_of_took {worker slot : Nat} (inside : worker < config.threadNum)
    (here : tester.workers worker = .took slot) : slot ∈ tester.uncopied config := by
  refine List.mem_append_right _ (List.mem_filterMap.mpr ⟨worker, List.mem_range.mpr inside, ?_⟩)
  rw [here]
  rfl

/-- The item of a worker that has copied its source state is pending. -/
theorem pending_of_copied {worker slot : Nat} (inside : worker < config.threadNum)
    (here : (tester.workers worker).copied? = some slot) : slot ∈ tester.pending config :=
  List.mem_append_right _ (List.mem_append_left _
    (List.mem_filterMap.mpr ⟨worker, List.mem_range.mpr inside, here⟩))

/-- Copying the source state of an item. -/
theorem duplicate_sound {worker : Nat} (sound : Sound config tester)
    (inside : worker < config.threadNum) (does : tester.duplicate worker = some (next, emitted)) :
    Sound config next := by
  unfold duplicate at does
  split at does
  · rename_i slot here
    obtain ⟨rfl, rfl⟩ := Prod.mk.inj (Option.some.inj does)
    have isUncopied : slot ∈ tester.uncopied config := uncopied_of_took inside here
    have isItem := workItem_of_pending (pending_of_uncopied isUncopied)
    have foreign : ∀ other ∈ tester.workItems config,
        (tester.works other).state ≠ (tester.works slot).srcState := by
      intro other member same
      refine (sound.foreign member).2 ?_
      rw [same]
      exact List.mem_map.mpr ⟨slot, List.mem_append_left _ isItem, rfl⟩
    obtain ⟨accounted, -⟩ := sound.accounted.duplicateFrom (sound.live_state isItem)
      (sound.orphan slot isUncopied) (sound.single isItem).2 (sound.live_source isItem) (foreign slot isItem)
    let next : ExTester σ ω ε :=
      { tester with
        workers := Function.update tester.workers worker (.duplicated slot)
        states := tester.states.duplicateFrom (tester.works slot).state
          (tester.works slot).srcState }
    change Sound config next
    have taken := hands_update next inside Worker.taken? (.duplicated slot) rfl
    have copied := hands_update next inside Worker.copied? (.duplicated slot) rfl
    simp only [here, Worker.taken?, Worker.copied?, Option.toList_none, Option.toList_some,
      List.append_nil] at taken copied
    have split : (slot :: next.uncopied config).Perm (tester.uncopied config) := by
      refine List.perm_iff_count.mpr fun other => ?_
      change (slot :: (tester.subQ ++ next.hands config _)).count other = _
      unfold ExTester.uncopied
      have same := taken.count_eq other
      simp only [List.count_append, List.count_cons, List.count_nil] at same ⊢
      omega
    have pending : (next.pending config).Perm (tester.pending config) := by
      refine List.perm_iff_count.mpr fun other => ?_
      have first := split.count_eq other
      have second := copied.count_eq other
      change (next.uncopied config ++ (next.hands config _ ++ tester.cmpQ)).count other =
        (tester.uncopied config ++ (tester.hands config _ ++ tester.cmpQ)).count other
      simp only [List.count_append, List.count_cons, List.count_nil] at first second ⊢
      omega
    have fewer : ∀ other ∈ next.uncopied config, other ∈ tester.uncopied config := fun other member =>
      split.mem_iff.mp (List.mem_cons_of_mem _ member)
    have apart : ∀ other ∈ next.uncopied config, other ≠ slot := by
      rintro other member rfl
      have distinct := (List.nodup_append.mp sound.distinct).1
      have distinct := (List.nodup_append.mp (List.nodup_append.mp distinct).1).1
      exact (List.nodup_cons.mp (split.nodup_iff.mpr distinct)).1 member
    refine sound.worked rfl rfl rfl pending fewer (fun _ => rfl) (fun _ => rfl) accounted
      (fun other member => ?_) fun other member => ?_
    · by_cases same : other = slot
      · subst same
        change ((tester.states.duplicateFrom _ _).state _).ref = 1
        unfold StateManager.duplicateFrom
        rw [StateManager.addRef_of_ne (foreign other member), StateManager.setState_self]
        exact sound.own other member
      · change ((tester.states.duplicateFrom _ _).state _).ref = 1
        rw [StateManager.duplicateFrom_of_ne (sound.state_ne isItem member same)
          (foreign other member)]
        exact sound.own other member
    · have isOther := workItem_of_pending (pending_of_uncopied (fewer other member))
      change ((tester.states.duplicateFrom _ _).state _).parent = _
      rw [StateManager.duplicateFrom_of_ne
        (sound.state_ne isItem isOther (apart other member)) (foreign other isOther)]
  · cases does

/-- Executing the operation of an item. -/
theorem run_sound {worker : Nat} {random : ρ} (sound : Sound config tester)
    (inside : worker < config.threadNum)
    (does : tester.run config worker random = some (next, emitted)) : Sound config next := by
  unfold run at does
  split at does
  · rename_i slot here
    obtain ⟨rfl, rfl⟩ := Prod.mk.inj (Option.some.inj does)
    obtain ⟨content, op, states⟩ :=
      execute_states config tester.states random (tester.works slot).state
    obtain ⟨accounted, -⟩ := sound.accounted.setState (tester.works slot).state
      { tester.states.state (tester.works slot).state with content := content, op := op } rfl rfl rfl
    rw [← states] at accounted
    have kept : ∀ address,
        ((execute config tester.states random (tester.works slot).state).1.state address).ref =
          (tester.states.state address).ref ∧
        ((execute config tester.states random (tester.works slot).state).1.state address).parent =
          (tester.states.state address).parent := by
      intro address
      rw [states]
      by_cases same : address = (tester.works slot).state
      · rw [same, StateManager.setState_self]
        exact ⟨rfl, rfl⟩
      · rw [StateManager.setState_of_ne same]
        exact ⟨rfl, rfl⟩
    let next : ExTester σ ω ε :=
      { tester with
        workers := Function.update tester.workers worker (.ran slot)
        states := (execute config tester.states random (tester.works slot).state).1
        works := Function.update tester.works slot
          { tester.works slot with
            result :=
              .done (execute config tester.states random (tester.works slot).state).2 } }
    change Sound config next
    have taken := hands_update next inside Worker.taken? (.ran slot) rfl
    have copied := hands_update next inside Worker.copied? (.ran slot) rfl
    simp only [here, Worker.taken?, Worker.copied?, Option.toList_none, Option.toList_some,
      List.append_nil] at taken copied
    have copied := (List.perm_append_right_iff _).mp copied
    have uncopied : (next.uncopied config).Perm (tester.uncopied config) := taken.append_left _
    have pending : (next.pending config).Perm (tester.pending config) :=
      uncopied.append (copied.append_right _)
    have works : ∀ other, (next.works other).state = (tester.works other).state ∧
        (next.works other).srcState = (tester.works other).srcState := by
      intro other
      by_cases same : other = slot
      · subst same
        change (Function.update tester.works other _ other).state = _ ∧
          (Function.update tester.works other _ other).srcState = _
        rw [Function.update_self]
        exact ⟨rfl, rfl⟩
      · change (Function.update tester.works slot _ other).state = _ ∧
          (Function.update tester.works slot _ other).srcState = _
        rw [Function.update_of_ne same]
        exact ⟨rfl, rfl⟩
    exact sound.worked rfl rfl rfl pending (fun other member => uncopied.mem_iff.mp member)
      (fun other => (works other).1) (fun other => (works other).2) accounted
      (fun other member => (kept (tester.works other).state).1.trans (sound.own other member))
      fun other _ => (kept (tester.works other).state).2
  · cases does

/-- Pushing an item to `m_cmp_q`. -/
theorem complete_sound {worker : Nat} (sound : Sound config tester)
    (inside : worker < config.threadNum) (does : tester.complete worker = some (next, emitted)) :
    Sound config next := by
  unfold complete at does
  split at does
  · rename_i slot here
    obtain ⟨rfl, rfl⟩ := Prod.mk.inj (Option.some.inj does)
    let next : ExTester σ ω ε :=
      { tester with
        workers := Function.update tester.workers worker .idle
        cmpQ := tester.cmpQ ++ [slot] }
    change Sound config next
    have taken := hands_update next inside Worker.taken? .idle rfl
    have copied := hands_update next inside Worker.copied? .idle rfl
    simp only [here, Worker.taken?, Worker.copied?, Option.toList_none, Option.toList_some,
      List.append_nil] at taken copied
    have uncopied : (next.uncopied config).Perm (tester.uncopied config) := taken.append_left _
    have rest : (next.hands config Worker.copied? ++ (tester.cmpQ ++ [slot])).Perm
        (tester.hands config Worker.copied? ++ tester.cmpQ) := by
      refine List.perm_iff_count.mpr fun other => ?_
      have same := copied.count_eq other
      simp only [List.count_append] at same ⊢
      omega
    have pending : (next.pending config).Perm (tester.pending config) := uncopied.append rest
    exact sound.worked rfl rfl rfl pending (fun slot member => uncopied.mem_iff.mp member)
      (fun _ => rfl) (fun _ => rfl) sound.accounted sound.own fun _ _ => rfl
  · cases does

/-! ## Runs -/

/-- Every step keeps the tester sound. -/
theorem step_sound [DecidableEq ε] {action : Action ρ} (sound : Sound config tester)
    (does : tester.step config action = some (next, emitted)) : Sound config next := by
  cases action with
  | coordinate stop picks random => exact coordinate_sound sound does
  | take worker =>
    simp only [step] at does
    split at does
    · rename_i started
      exact take_sound sound started.2 does
    · cases does
  | duplicate worker =>
    simp only [step] at does
    split at does
    · rename_i started
      exact duplicate_sound sound started.2 does
    · cases does
  | run worker random =>
    simp only [step] at does
    split at does
    · rename_i started
      exact run_sound sound started.2 does
    · cases does
  | complete worker =>
    simp only [step] at does
    split at does
    · rename_i started
      exact complete_sound sound started.2 does
    · cases does

end FsChecking.Tester.ExTester
