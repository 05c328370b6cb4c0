import Mathlib.Order.Defs.Unbundled

/-!
# Programs with state and exceptions

Rules for `EStateM` programs, whose state survives an exception. `Triple` is partial correctness
with a condition for each of the two exits; `Moves` relates the state before a program to the state
after it, whichever exit is taken, by a preorder. `Lens.zoom` runs a program on one component of a
larger state.
-/

namespace FsChecking.Lib

variable {ε σ τ α β : Type}

/-! ## How programs compute -/

/-- Sequencing hands the state over. -/
theorem bind_apply (first : EStateM ε σ α) (next : α → EStateM ε σ β) (s : σ) :
    (first >>= next) s = match first s with
      | .ok value s' => next value s'
      | .error fault s' => .error fault s' := rfl

/-- Returning a value leaves the state. -/
@[simp] theorem pure_apply (value : α) (s : σ) :
    (pure value : EStateM ε σ α) s = .ok value s := rfl

/-- Throwing leaves the state. -/
@[simp] theorem throw_apply (fault : ε) (s : σ) :
    (throw fault : EStateM ε σ α) s = .error fault s := rfl

/-- Reading the state. -/
@[simp] theorem get_apply (s : σ) : (get : EStateM ε σ σ) s = .ok s s := rfl

/-- Changing the state. -/
@[simp] theorem modify_apply (change : σ → σ) (s : σ) :
    (modify change : EStateM ε σ PUnit) s = .ok ⟨⟩ (change s) := rfl

/-- Replacing the state. -/
@[simp] theorem set_apply (s s' : σ) : (set s' : EStateM ε σ PUnit) s = .ok ⟨⟩ s' := rfl

/-- Reading the state, then going on. -/
@[simp] theorem get_bind_apply (next : σ → EStateM ε σ β) (s : σ) :
    ((get : EStateM ε σ σ) >>= next) s = next s s := rfl

/-- Changing the state, then going on. -/
@[simp] theorem modify_bind_apply (change : σ → σ) (next : PUnit → EStateM ε σ β) (s : σ) :
    ((modify change : EStateM ε σ PUnit) >>= next) s = next ⟨⟩ (change s) := rfl

/-- Replacing the state, then going on. -/
@[simp] theorem set_bind_apply (s s' : σ) (next : PUnit → EStateM ε σ β) :
    ((set s' : EStateM ε σ PUnit) >>= next) s = next ⟨⟩ s' := rfl

/-- A sequence returns when both parts return. -/
theorem bind_eq_ok {first : EStateM ε σ α} {next : α → EStateM ε σ β} {s s'' : σ} {result : β} :
    (first >>= next) s = .ok result s'' ↔
      ∃ value s', first s = .ok value s' ∧ next value s' = .ok result s'' := by
  rw [bind_apply]
  cases run : first s with
  | ok value s' =>
    constructor
    · exact fun done => ⟨value, s', rfl, done⟩
    · rintro ⟨_, _, ⟨⟩, done⟩
      exact done
  | error fault s' => simp

/-- Fail when a check fails. -/
def throwIf (wrong : Prop) [Decidable wrong] (fault : ε) : EStateM ε σ PUnit :=
  if wrong then throw fault else pure ⟨⟩

/-- A program that only runs under a condition. -/
def doIf (cond : Prop) [Decidable cond] (program : EStateM ε σ PUnit) : EStateM ε σ PUnit :=
  if cond then program else pure ⟨⟩

/-- A check that returns has found nothing wrong and changed nothing. -/
theorem throwIf_eq_ok {wrong : Prop} [Decidable wrong] {fault : ε} {s s' : σ} {result : PUnit} :
    throwIf wrong fault s = .ok result s' ↔ ¬ wrong ∧ s' = s := by
  unfold throwIf
  split
  · rename_i holds
    simp [holds]
  · rename_i fails
    simp only [pure_apply, EStateM.Result.ok.injEq, fails, not_false_eq_true, true_and]
    exact eq_comm

/-- A check in front of a program. -/
@[simp] theorem throwIf_bind_eq_ok {wrong : Prop} [Decidable wrong] {fault : ε}
    {next : PUnit → EStateM ε σ β} {s s' : σ} {result : β} :
    (throwIf wrong fault >>= next) s = .ok result s' ↔
      ¬ wrong ∧ next ⟨⟩ s = .ok result s' := by
  rw [bind_eq_ok]
  constructor
  · rintro ⟨_, _, first, rest⟩
    rw [throwIf_eq_ok] at first
    obtain ⟨fine, rfl⟩ := first
    exact ⟨fine, rest⟩
  · rintro ⟨fine, rest⟩
    exact ⟨⟨⟩, s, throwIf_eq_ok.mpr ⟨fine, rfl⟩, rest⟩

/-- A check that fails in front of a program. -/
theorem throwIf_bind_of {wrong : Prop} [Decidable wrong] {fault : ε}
    {next : PUnit → EStateM ε σ β} {s : σ} (holds : wrong) :
    (throwIf wrong fault >>= next) s = .error fault s := by
  unfold throwIf
  rw [if_pos holds]
  rfl

/-- A check that passes in front of a program. -/
theorem throwIf_bind_of_not {wrong : Prop} [Decidable wrong] {fault : ε}
    {next : PUnit → EStateM ε σ β} {s : σ} (fails : ¬ wrong) :
    (throwIf wrong fault >>= next) s = next ⟨⟩ s := by
  unfold throwIf
  rw [if_neg fails]
  rfl

/-- A conditional program that runs in front of a program. -/
theorem doIf_bind_of {cond : Prop} [Decidable cond] {program : EStateM ε σ PUnit}
    {next : PUnit → EStateM ε σ β} (holds : cond) (s : σ) :
    (doIf cond program >>= next) s = (program >>= next) s := by
  unfold doIf
  rw [if_pos holds]

/-- A conditional program that is skipped in front of a program. -/
theorem doIf_bind_of_not {cond : Prop} [Decidable cond] {program : EStateM ε σ PUnit}
    {next : PUnit → EStateM ε σ β} (fails : ¬ cond) (s : σ) :
    (doIf cond program >>= next) s = next ⟨⟩ s := by
  unfold doIf
  rw [if_neg fails]
  rfl

/-- A conditional program returns when it is skipped or returns itself. -/
theorem doIf_eq_ok {cond : Prop} [Decidable cond] {program : EStateM ε σ PUnit} {s s' : σ}
    {result : PUnit} :
    doIf cond program s = .ok result s' ↔
      (cond ∧ program s = .ok result s') ∨ (¬ cond ∧ s' = s) := by
  unfold doIf
  split
  · rename_i holds
    simp [holds]
  · rename_i fails
    simp only [pure_apply, EStateM.Result.ok.injEq, fails, false_and, not_false_eq_true,
      true_and, false_or]
    exact eq_comm

/-- The state that a program leaves, whether it returns or throws. -/
def finalState : EStateM.Result ε σ α → σ
  | .ok _ s => s
  | .error _ s => s

/-- Whether a program returned. -/
def returned : EStateM.Result ε σ α → Bool
  | .ok _ _ => true
  | .error _ _ => false

/-- A program that returned has a value and a state. -/
theorem eq_ok_of_returned {result : EStateM.Result ε σ α} (run : returned result = true) :
    ∃ value s, result = .ok value s := by
  cases result with
  | ok value s => exact ⟨value, s, rfl⟩
  | error fault s => cases run

/-- The state left by a return. -/
@[simp] theorem finalState_ok (value : α) (s : σ) :
    finalState (.ok value s : EStateM.Result ε σ α) = s := rfl

/-- The state left by an exception. -/
@[simp] theorem finalState_error (fault : ε) (s : σ) :
    finalState (.error fault s : EStateM.Result ε σ α) = s := rfl

/-- An invariant of a loop that threads a value, over the items done so far, for the runs that
return. -/
theorem foldlM_ok {items : List α} {body : β → α → EStateM ε σ β} {start result : β} {s s' : σ}
    (invariant : List α → β → σ → Prop) (initial : invariant [] start s)
    (step : ∀ done item value state value' state', item ∈ items → invariant done value state →
      body value item state = .ok value' state' → invariant (done ++ [item]) value' state')
    (run : items.foldlM body start s = .ok result s') : invariant items result s' := by
  suffices general : ∀ (rest done : List α) (value : β) (state : σ), done ++ rest = items →
      invariant done value state → rest.foldlM body value state = .ok result s' →
      invariant items result s' from general items [] start s rfl initial run
  intro rest
  induction rest with
  | nil =>
    intro done value state whole holds finished
    rw [List.append_nil] at whole
    cases finished
    exact whole ▸ holds
  | cons item rest ih =>
    intro done value state whole holds finished
    rw [List.foldlM_cons, bind_eq_ok] at finished
    obtain ⟨value', state', one, others⟩ := finished
    have member : item ∈ items := by rw [← whole]; simp
    exact ih (done ++ [item]) value' state' (by rw [← whole]; simp)
      (step done item value state value' state' member holds one) others

/-- An invariant of a loop, over the items done so far, for the runs that return. -/
theorem forM_ok {items : List α} {body : α → EStateM ε σ PUnit} {s s' : σ}
    (invariant : List α → σ → Prop) (initial : invariant [] s)
    (step : ∀ done item state state', item ∈ items → invariant done state →
      body item state = .ok ⟨⟩ state' → invariant (done ++ [item]) state')
    (run : items.forM body s = .ok ⟨⟩ s') : invariant items s' := by
  suffices general : ∀ (rest done : List α) (state : σ), done ++ rest = items →
      invariant done state → rest.forM body state = .ok ⟨⟩ s' → invariant items s' from
    general items [] s rfl initial run
  intro rest
  induction rest with
  | nil =>
    intro done state whole holds finished
    rw [List.append_nil] at whole
    cases finished
    exact whole ▸ holds
  | cons item rest ih =>
    intro done state whole holds finished
    change (body item >>= fun _ => rest.forM body) state = _ at finished
    rw [bind_eq_ok] at finished
    obtain ⟨_, state', one, others⟩ := finished
    have member : item ∈ items := by rw [← whole]; simp
    exact ih (done ++ [item]) state' (by rw [← whole]; simp)
      (step done item state state' member holds one) others

/-- A loop whose rounds return exactly under conditions: the loop returns exactly when all the
conditions hold, and then an invariant over the items done so far has reached the end. -/
theorem forM_spec (items : List α) (body : α → EStateM ε σ PUnit) (s : σ)
    (invariant : List α → σ → Prop) (condition : α → Prop) (initial : invariant [] s)
    (round : ∀ done item rest state, items = done ++ item :: rest → invariant done state →
      (condition item → ∃ state', body item state = .ok ⟨⟩ state') ∧
      ∀ state', body item state = .ok ⟨⟩ state' →
        condition item ∧ invariant (done ++ [item]) state') :
    ((∀ item ∈ items, condition item) → ∃ s', items.forM body s = .ok ⟨⟩ s') ∧
      ∀ s', items.forM body s = .ok ⟨⟩ s' →
        (∀ item ∈ items, condition item) ∧ invariant items s' := by
  suffices general : ∀ (rest done : List α) (state : σ), done ++ rest = items →
      invariant done state →
      ((∀ item ∈ rest, condition item) → ∃ s', rest.forM body state = .ok ⟨⟩ s') ∧
        ∀ s', rest.forM body state = .ok ⟨⟩ s' →
          (∀ item ∈ rest, condition item) ∧ invariant items s' from
    general items [] s rfl initial
  intro rest
  induction rest with
  | nil =>
    intro done state whole holds
    rw [List.append_nil] at whole
    refine ⟨fun _ => ⟨state, rfl⟩, fun s' run => ?_⟩
    cases run
    exact ⟨by simp, whole ▸ holds⟩
  | cons item rest ih =>
    intro done state whole holds
    obtain ⟨runs, leads⟩ := round done item rest state whole.symm holds
    have unfold : (item :: rest).forM body state = (body item >>= fun _ => rest.forM body) state :=
      rfl
    rw [unfold, List.forall_mem_cons]
    constructor
    · rintro ⟨first, others⟩
      obtain ⟨middle, one⟩ := runs first
      obtain ⟨s', all⟩ := (ih (done ++ [item]) middle (by rw [← whole]; simp)
        (leads middle one).2).1 others
      exact ⟨s', bind_eq_ok.mpr ⟨⟨⟩, middle, one, all⟩⟩
    · intro s' run
      obtain ⟨_, middle, one, all⟩ := bind_eq_ok.mp run
      obtain ⟨first, next⟩ := leads middle one
      obtain ⟨others, final⟩ := (ih (done ++ [item]) middle (by rw [← whole]; simp) next).2 s' all
      exact ⟨⟨first, others⟩, final⟩

/-! ## Two exits -/

/-- A result satisfies the condition of its exit. -/
def Outcome (post : α → σ → Prop) (fail : ε → σ → Prop) : EStateM.Result ε σ α → Prop
  | .ok value s => post value s
  | .error fault s => fail fault s

/-- From every state of the precondition the program leaves through a satisfied exit. -/
def Triple (pre : σ → Prop) (program : EStateM ε σ α) (post : α → σ → Prop)
    (fail : ε → σ → Prop) : Prop :=
  ∀ s, pre s → Outcome post fail (program s)

/-- Two sequences do the same when their first parts do, and their second parts do in every state in
which the first one returns. -/
theorem bind_eq_of_outcome {first first' : EStateM ε σ α} {next next' : α → EStateM ε σ β}
    {post : α → σ → Prop} {fail : ε → σ → Prop} {s : σ} (same : first' s = first s)
    (ends : Outcome post fail (first s))
    (rest : ∀ value s', post value s' → next' value s' = next value s') :
    (first' >>= next') s = (first >>= next) s := by
  rw [bind_apply, bind_apply, same]
  cases run : first s with
  | ok value s' =>
    rw [run] at ends
    exact rest value s' ends
  | error fault s' => rfl

namespace Triple

variable {pre : σ → Prop} {post : α → σ → Prop} {fail : ε → σ → Prop}

/-- Returning a value. -/
theorem pure {value : α} (holds : ∀ s, pre s → post value s) :
    Triple pre (Pure.pure value) post fail := holds

/-- Throwing an exception. -/
theorem throw {fault : ε} (holds : ∀ s, pre s → fail fault s) :
    Triple pre (MonadExcept.throw fault : EStateM ε σ α) post fail := holds

/-- Changing the state. -/
theorem change {update : σ → σ} {post : PUnit → σ → Prop}
    (holds : ∀ s, pre s → post ⟨⟩ (update s)) :
    Triple pre (modify update : EStateM ε σ PUnit) post fail := holds

/-- Sequencing. -/
theorem bind {first : EStateM ε σ α} {next : α → EStateM ε σ β} {middle : α → σ → Prop}
    {post : β → σ → Prop} (left : Triple pre first middle fail)
    (right : ∀ value, Triple (middle value) (next value) post fail) :
    Triple pre (first >>= next) post fail := by
  intro s start
  have done := left s start
  rw [bind_apply]
  cases run : first s with
  | ok value s' =>
    rw [run] at done
    exact right value s' done
  | error fault s' =>
    rw [run] at done
    exact done

/-- Weakening the conditions. -/
theorem conseq {pre' : σ → Prop} {post' : α → σ → Prop} {fail' : ε → σ → Prop}
    {program : EStateM ε σ α} (triple : Triple pre program post fail)
    (before : ∀ s, pre' s → pre s) (after : ∀ value s, post value s → post' value s)
    (thrown : ∀ fault s, fail fault s → fail' fault s) :
    Triple pre' program post' fail' := by
  intro s start
  have done := triple s (before s start)
  cases run : program s with
  | ok value s' =>
    rw [run] at done
    exact after value s' done
  | error fault s' =>
    rw [run] at done
    exact thrown fault s' done

end Triple

/-! ## Preorders on states -/

/-- Every run of the program moves along a relation. -/
def Moves (relation : σ → σ → Prop) (program : EStateM ε σ α) : Prop :=
  ∀ s, relation s (finalState (program s))

/-- The relation "the invariant is not lost". -/
def Retains (invariant : σ → Prop) (before after : σ) : Prop := invariant before → invariant after

instance (invariant : σ → Prop) : IsPreorder σ (Retains invariant) where
  refl _ := id
  trans _ _ _ left right := right ∘ left

namespace Moves

variable {relation : σ → σ → Prop}

/-- Returning a value. -/
theorem pure [IsPreorder σ relation] (value : α) :
    Moves relation (Pure.pure value : EStateM ε σ α) := fun s => refl_of relation s

/-- Throwing an exception. -/
theorem throw [IsPreorder σ relation] (fault : ε) :
    Moves relation (MonadExcept.throw fault : EStateM ε σ α) := fun s => refl_of relation s

/-- Reading the state. -/
theorem get [IsPreorder σ relation] :
    Moves relation (MonadState.get : EStateM ε σ σ) := fun s => refl_of relation s

/-- Changing the state. -/
theorem change {update : σ → σ} (step : ∀ s, relation s (update s)) :
    Moves relation (modify update : EStateM ε σ PUnit) := step

/-- Sequencing. -/
theorem bind [IsPreorder σ relation] {first : EStateM ε σ α} {next : α → EStateM ε σ β}
    (left : Moves relation first) (right : ∀ value, Moves relation (next value)) :
    Moves relation (first >>= next) := by
  intro s
  have before := left s
  rw [bind_apply]
  cases run : first s with
  | ok value s' =>
    rw [run] at before
    exact trans_of relation before (right value s')
  | error fault s' =>
    rw [run] at before
    exact before

/-- A check. -/
theorem throwIf [IsPreorder σ relation] (wrong : Prop) [Decidable wrong] (fault : ε) :
    Moves relation (Lib.throwIf wrong fault : EStateM ε σ PUnit) := by
  unfold Lib.throwIf
  split
  · exact throw fault
  · exact pure PUnit.unit

/-- A program that only runs under a condition. -/
theorem doIf [IsPreorder σ relation] {cond : Prop} [Decidable cond]
    {program : EStateM ε σ PUnit} (moves : cond → Moves relation program) :
    Moves relation (Lib.doIf cond program) := by
  unfold Lib.doIf
  split
  · rename_i holds
    exact moves holds
  · exact pure PUnit.unit

/-- A loop over a list. -/
theorem forM [IsPreorder σ relation] {items : List α} {body : α → EStateM ε σ PUnit}
    (each : ∀ item, Moves relation (body item)) : Moves relation (items.forM body) := by
  induction items with
  | nil => exact fun s => refl_of relation s
  | cons head rest ih => exact bind (each head) (fun _ => ih)

end Moves

/-! ## Conditions on both exits -/

/-- The state that a program leaves when it starts in a given one meets a condition, whichever exit
is taken. -/
def Ends (good : σ → Prop) (program : EStateM ε σ α) (s : σ) : Prop := good (finalState (program s))

namespace Ends

variable {good : σ → Prop} {s : σ}

/-- Reading the state, then going on. -/
theorem get {next : σ → EStateM ε σ β} (rest : Ends good (next s) s) :
    Ends good (MonadState.get >>= next) s := rest

/-- Replacing the state, then going on. -/
theorem set {s' : σ} {next : PUnit → EStateM ε σ β} (rest : Ends good (next ⟨⟩) s') :
    Ends good ((MonadStateOf.set s' : EStateM ε σ PUnit) >>= next) s := rest

/-- Changing the state, then going on. -/
theorem change {update : σ → σ} {next : PUnit → EStateM ε σ β}
    (rest : Ends good (next ⟨⟩) (update s)) :
    Ends good ((modify update : EStateM ε σ PUnit) >>= next) s := rest

/-- A check, then going on. -/
theorem throwIf {wrong : Prop} [Decidable wrong] {fault : ε} {next : PUnit → EStateM ε σ β}
    (here : good s) (rest : ¬wrong → Ends good (next ⟨⟩) s) :
    Ends good (Lib.throwIf wrong fault >>= next) s := by
  by_cases holds : wrong
  · unfold Ends
    rw [throwIf_bind_of holds]
    exact here
  · unfold Ends
    rw [throwIf_bind_of_not holds]
    exact rest holds

/-- Sequencing programs, where the first one meets a stronger condition. -/
theorem bind_of {stronger : σ → Prop} {first : EStateM ε σ α} {next : α → EStateM ε σ β}
    (left : Ends stronger first s) (weaken : ∀ s', stronger s' → good s')
    (right : ∀ value s', stronger s' → Ends good (next value) s') :
    Ends good (first >>= next) s := by
  unfold Ends at left ⊢
  rw [bind_apply]
  cases run : first s with
  | ok value s' =>
    rw [run] at left
    exact right value s' left
  | error fault s' =>
    rw [run] at left
    exact weaken s' left

/-- Sequencing programs that keep the condition. -/
theorem bind {first : EStateM ε σ α} {next : α → EStateM ε σ β} (left : Ends good first s)
    (right : ∀ value s', good s' → Ends good (next value) s') : Ends good (first >>= next) s :=
  left.bind_of (fun _ holds => holds) right

end Ends

/-! ## Components of a state -/

/-- A component of a state, with the laws of reading and writing it. -/
structure Lens (σ τ : Type) where
  /-- Read the component. -/
  get : σ → τ
  /-- Replace the component. -/
  put : τ → σ → σ
  /-- The component written is read back. -/
  get_put : ∀ value s, get (put value s) = value
  /-- Writing what is there changes nothing. -/
  put_get : ∀ s, put (get s) s = s

/-- Run a program on one component. -/
def Lens.zoom (lens : Lens σ τ) (program : EStateM ε τ α) : EStateM ε σ α := fun s =>
  match program (lens.get s) with
  | .ok value component => .ok value (lens.put component s)
  | .error fault component => .error fault (lens.put component s)

/-- A program on a component returns when it returns on the component. -/
theorem Lens.zoom_eq_ok {lens : Lens σ τ} {program : EStateM ε τ α} {s s' : σ} {value : α} :
    lens.zoom program s = .ok value s' ↔
      ∃ component, program (lens.get s) = .ok value component ∧ s' = lens.put component s := by
  unfold zoom
  cases run : program (lens.get s) with
  | ok value' component =>
    constructor
    · rintro ⟨⟩
      exact ⟨component, rfl, rfl⟩
    · rintro ⟨_, ⟨⟩, rfl⟩
      rfl
  | error fault component => simp

/-- A program that returns on the component. -/
theorem Lens.zoom_of_ok {lens : Lens σ τ} {program : EStateM ε τ α} {s : σ} {value : α}
    {component : τ} (run : program (lens.get s) = .ok value component) :
    lens.zoom program s = .ok value (lens.put component s) := by
  rw [zoom, run]

/-- A program that throws on the component. -/
theorem Lens.zoom_of_error {lens : Lens σ τ} {program : EStateM ε τ α} {s : σ} {fault : ε}
    {component : τ} (run : program (lens.get s) = .error fault component) :
    lens.zoom program s = .error fault (lens.put component s) := by
  rw [zoom, run]

/-- A program on a component whose replacement moves along the relation. -/
theorem Moves.zoom {relation : σ → σ → Prop} {lens : Lens σ τ} {program : EStateM ε τ α}
    (step : ∀ s component, relation s (lens.put component s)) :
    Moves relation (lens.zoom program) := by
  intro s
  cases run : program (lens.get s) with
  | ok value component =>
    rw [lens.zoom_of_ok run]
    exact step s component
  | error fault component =>
    rw [lens.zoom_of_error run]
    exact step s component

/-! ## Programs that return -/

/-- A run that returns, started in a given state, moves along a relation. -/
def ReturnsAt (relation : σ → σ → Prop) (program : EStateM ε σ α) (s : σ) : Prop :=
  ∀ value s', program s = .ok value s' → relation s s'

/-- Every run of the program that returns moves along a relation. -/
def Returns (relation : σ → σ → Prop) (program : EStateM ε σ α) : Prop :=
  ∀ s, ReturnsAt relation program s

namespace Returns

variable {relation : σ → σ → Prop}

/-- A program whose runs all move along the relation. -/
theorem ofMoves {program : EStateM ε σ α} (moves : Moves relation program) :
    Returns relation program := fun s value s' run => by
  have step := moves s
  rw [run] at step
  exact step

/-- A stronger relation. -/
theorem mono {stronger : σ → σ → Prop} {program : EStateM ε σ α}
    (returns : Returns stronger program) (weaker : ∀ s s', stronger s s' → relation s s') :
    Returns relation program := fun s value s' run => weaker s s' (returns s value s' run)

/-- Returning a value. -/
theorem pure [IsPreorder σ relation] (value : α) :
    Returns relation (Pure.pure value : EStateM ε σ α) := ofMoves (Moves.pure value)

/-- Throwing an exception. -/
theorem throw (fault : ε) : Returns relation (MonadExcept.throw fault : EStateM ε σ α) :=
  fun _ _ _ run => by cases run

/-- Reading the state. -/
theorem get [IsPreorder σ relation] : Returns relation (MonadState.get : EStateM ε σ σ) :=
  ofMoves Moves.get

/-- Changing the state. -/
theorem change {update : σ → σ} (step : ∀ s, relation s (update s)) :
    Returns relation (modify update : EStateM ε σ PUnit) := ofMoves (Moves.change step)

/-- Sequencing, from a given state. -/
theorem bindAt [IsPreorder σ relation] {first : EStateM ε σ α} {next : α → EStateM ε σ β} {s : σ}
    (left : ReturnsAt relation first s)
    (right : ∀ value s', first s = .ok value s' → ReturnsAt relation (next value) s') :
    ReturnsAt relation (first >>= next) s := by
  intro result s'' run
  obtain ⟨value, s', one, rest⟩ := bind_eq_ok.mp run
  exact trans_of relation (left value s' one) (right value s' one result s'' rest)

/-- Sequencing. -/
theorem bind [IsPreorder σ relation] {first : EStateM ε σ α} {next : α → EStateM ε σ β}
    (left : Returns relation first) (right : ∀ value, Returns relation (next value)) :
    Returns relation (first >>= next) := fun s =>
  bindAt (left s) fun value s' _ => right value s'

/-- Reading the state, then going on from it. -/
theorem getBind {next : σ → EStateM ε σ β} (right : ∀ s, ReturnsAt relation (next s) s) :
    Returns relation ((MonadState.get : EStateM ε σ σ) >>= next) := right

/-- A check. -/
theorem throwIf [IsPreorder σ relation] (wrong : Prop) [Decidable wrong] (fault : ε) :
    Returns relation (Lib.throwIf wrong fault : EStateM ε σ PUnit) :=
  ofMoves (Moves.throwIf wrong fault)

/-- A program that only runs under a condition. -/
theorem doIf [IsPreorder σ relation] {cond : Prop} [Decidable cond]
    {program : EStateM ε σ PUnit} (returns : Returns relation program) :
    Returns relation (Lib.doIf cond program) := by
  unfold Lib.doIf
  split
  · exact returns
  · exact pure PUnit.unit

/-- One of two programs. -/
theorem ite {cond : Prop} [Decidable cond] {first second : EStateM ε σ α}
    (left : Returns relation first) (right : Returns relation second) :
    Returns relation (if cond then first else second) := by
  split
  · exact left
  · exact right

/-- A loop over a list. -/
theorem forM [IsPreorder σ relation] {items : List α} {body : α → EStateM ε σ PUnit}
    (each : ∀ item ∈ items, Returns relation (body item)) : Returns relation (items.forM body) := by
  induction items with
  | nil => exact pure PUnit.unit
  | cons head rest ih =>
    refine bind (each head List.mem_cons_self) fun _ => ih fun item member => ?_
    exact each item (List.mem_cons_of_mem _ member)

/-- A loop that threads a value. -/
theorem foldlM [IsPreorder σ relation] {items : List α} {body : β → α → EStateM ε σ β}
    (each : ∀ value item, Returns relation (body value item)) (start : β) :
    Returns relation (items.foldlM body start) := by
  induction items generalizing start with
  | nil => exact pure start
  | cons head rest ih =>
    rw [List.foldlM_cons]
    exact bind (each start head) ih

/-- A loop that collects values. -/
theorem mapM [IsPreorder σ relation] {items : List α} {body : α → EStateM ε σ β}
    (each : ∀ item, Returns relation (body item)) : Returns relation (items.mapM body) := by
  induction items with
  | nil => exact pure []
  | cons head rest ih =>
    rw [List.mapM_cons]
    exact bind (each head) fun _ => bind ih fun _ => pure _

/-- A program on one component. -/
theorem zoom {inner : τ → τ → Prop} {lens : Lens σ τ} {program : EStateM ε τ α}
    (returns : Returns inner program)
    (lift : ∀ s component, inner (lens.get s) component → relation s (lens.put component s)) :
    Returns relation (lens.zoom program) := by
  intro s value s' run
  obtain ⟨component, inside, rfl⟩ := Lens.zoom_eq_ok.mp run
  exact lift s component (returns _ value component inside)

end Returns

end FsChecking.Lib
