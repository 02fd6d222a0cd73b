import Combinatory.Proofs.Program.Choice

/-!
# Computations put off make progress

A computation that has been put off stays what it is until it completes, and once it has completed
it keeps its result. Whatever a program does, and however that ends, it takes the computations put
off forward in this sense only.
-/

namespace Combinatory
namespace Program

/-- The second is the first at the same or a later time. -/
inductive Thunk.Becomes : Thunk → Thunk → Prop where
  /-- Nothing has happened to it. -/
  | same (thunk : Thunk) : thunk.Becomes thunk
  /-- It has been completed. -/
  | completed (computation : Computation) (result : Val) :
      (Thunk.pending computation).Becomes (.forced result)

theorem Thunk.Becomes.trans {first second third : Thunk} (earlier : first.Becomes second)
    (later : second.Becomes third) : first.Becomes third := by
  cases earlier with
  | same => exact later
  | completed computation result =>
      cases later
      exact .completed computation result

namespace Machine

variable {first before after : Machine} {number : Nat} {result : Val} {computation : Computation}

/-- Every computation put off is still there, at the same or a later time. -/
def Advances (before after : Machine) : Prop :=
  ∀ (number : Nat) thunk, before.thunks[number]? = some thunk →
    ∃ later, after.thunks[number]? = some later ∧ thunk.Becomes later

theorem advances_of_eq (same : after.thunks = before.thunks) : before.Advances after := by
  intro number thunk there
  exact ⟨thunk, same ▸ there, .same thunk⟩

theorem Advances.refl (machine : Machine) : machine.Advances machine :=
  advances_of_eq rfl

theorem Advances.trans (earlier : first.Advances before) (later : before.Advances after) :
    first.Advances after := by
  intro number thunk there
  obtain ⟨middle, middle_there, becomes_middle⟩ := earlier number thunk there
  obtain ⟨last, last_there, becomes_last⟩ := later number middle middle_there
  exact ⟨last, last_there, becomes_middle.trans becomes_last⟩

/-- A completed computation keeps its result. -/
theorem Advances.forced (advances : before.Advances after)
    (there : before.thunks[number]? = some (.forced result)) :
    after.thunks[number]? = some (.forced result) := by
  obtain ⟨later, later_there, becomes⟩ := advances number _ there
  cases becomes
  exact later_there

/-- A computation that has not been completed stays what it is unless it is completed. -/
theorem Advances.pending (advances : before.Advances after)
    (there : before.thunks[number]? = some (.pending computation)) :
    after.thunks[number]? = some (.pending computation) ∨
      ∃ result, after.thunks[number]? = some (.forced result) := by
  obtain ⟨later, later_there, becomes⟩ := advances number _ there
  cases becomes with
  | same => exact .inl later_there
  | completed _ result => exact .inr ⟨result, later_there⟩

/-- The state in which one more computation has been put off. -/
theorem advances_push (machine : Machine) (thunk : Thunk) :
    machine.Advances { machine with thunks := machine.thunks.push thunk } := by
  intro number other there
  obtain ⟨inside, rfl⟩ := Array.getElem?_eq_some_iff.mp there
  exact ⟨_, Array.getElem?_push_lt inside, .same _⟩

/-- The state in which a computation has been completed with a result. -/
def complete (machine : Machine) (number : Nat) (result : Val) : Machine :=
  { machine with thunks := machine.thunks.setIfInBounds number (.forced result) }

theorem complete_there {thunk : Thunk} (there : after.thunks[number]? = some thunk)
    (result : Val) : (after.complete number result).thunks[number]? = some (.forced result) := by
  obtain ⟨inside, -⟩ := Array.getElem?_eq_some_iff.mp there
  simp [complete, inside]

theorem complete_other {other : Nat} (ne : other ≠ number) (machine : Machine) (result : Val) :
    (machine.complete number result).thunks[other]? = machine.thunks[other]? := by
  simp [complete, Array.getElem?_setIfInBounds_ne ne.symm]

/-- To complete a computation that was put off before takes it forward, whatever has happened to it
in the meantime. -/
theorem Advances.complete (advances : before.Advances after)
    (there : before.thunks[number]? = some (.pending computation)) (result : Val) :
    before.Advances (after.complete number result) := by
  intro other thunk other_there
  obtain ⟨later, later_there, becomes⟩ := advances other thunk other_there
  by_cases same : other = number
  · subst same
    obtain rfl := Option.some.inj (there.symm.trans other_there)
    exact ⟨_, complete_there later_there result, .completed computation result⟩
  · exact ⟨later, (complete_other same after result).trans later_there, becomes⟩

end Machine

section Advancing

variable {α β : Type}

/-- Whatever comes of it, the run takes the computations put off forward. -/
def Advancing (run : Run α) : Prop :=
  ∀ first : Machine, run.Ensures first.Advances fun _ => True

theorem Advancing.outcome {run : Run α} (advancing : Advancing run) (machine : Machine) :
    machine.Advances (run.outcome machine).2 :=
  (advancing machine machine (.refl machine)).1

theorem advancing_of_outcome {run : Run α}
    (advances : ∀ machine : Machine, machine.Advances (run.outcome machine).2) : Advancing run :=
  fun _ before earlier => ⟨earlier.trans (advances before), fun _ _ => trivial⟩

theorem advancing_pure (result : α) : Advancing (pure result) :=
  fun _ => ExceptT.ensures_pure trivial

theorem advancing_throw (interruption : Interruption Failure) :
    Advancing (throw interruption : Run α) :=
  fun _ => ExceptT.ensures_throw _

theorem advancing_raise (failure : Failure) : Advancing (Effect.raise failure : Run α) :=
  advancing_throw _

theorem advancing_get : Advancing (get : Run Machine) :=
  advancing_of_outcome fun machine => .refl machine

theorem advancing_modify {change : Machine → Machine}
    (advances : ∀ machine : Machine, machine.Advances (change machine)) :
    Advancing (modify change) :=
  advancing_of_outcome advances

theorem Advancing.bind {run : Run α} {next : α → Run β} (earlier : Advancing run)
    (later : ∀ value, Advancing (next value)) : Advancing (run >>= next) :=
  fun first => (earlier first).bind fun value _ => later value first

theorem advancing_foldlM {items : List β} {step : α → β → Run α} {start : α}
    (each : ∀ value item, Advancing (step value item)) : Advancing (items.foldlM step start) := by
  induction items generalizing start with
  | nil => exact advancing_pure start
  | cons item items ih =>
      rw [List.foldlM_cons]
      exact (each start item).bind fun _ => ih

theorem advancing_mapM {items : List β} {step : β → Run α}
    (each : ∀ item, Advancing (step item)) : Advancing (items.mapM step) := by
  induction items with
  | nil => exact advancing_pure []
  | cons item items ih =>
      rw [List.mapM_cons]
      exact (each item).bind fun _ => ih.bind fun _ => advancing_pure _

end Advancing

/-! ## Single orders -/

theorem advancing_onBench {α : Type} (work : Lambda.Work α) : Advancing (onBench work) := by
  refine advancing_of_outcome fun machine => Machine.advances_of_eq ?_
  simp only [onBench, ExceptT.outcome_bind, ExceptT.outcome_get]
  rcases (ExceptT.run work).run machine.bench with ⟨⟨_ | _⟩ | _, bench⟩ <;> rfl

theorem advancing_record (symbol arg : Val) : Advancing (record symbol arg) :=
  advancing_modify fun _ => Machine.advances_of_eq rfl

theorem advancing_increment (counter : String) : Advancing (increment counter) :=
  advancing_get.bind fun _ =>
    (advancing_modify fun _ => Machine.advances_of_eq rfl).bind fun _ => advancing_pure _

theorem advancing_lookup (scope : Scope) (name : String) : Advancing (lookup scope name) := by
  rw [lookup]
  split
  · exact advancing_pure _
  · refine advancing_get.bind fun machine => ?_
    split
    · exact advancing_pure _
    · exact advancing_raise _

theorem advancing_integer (value : Val) : Advancing (integer value) := by
  rw [integer.eq_def]
  split
  · exact advancing_pure _
  · exact advancing_raise _

theorem advancing_suspend (computation : Computation) : Advancing (suspend computation) :=
  advancing_get.bind fun _ =>
    (advancing_modify fun machine => machine.advances_push _).bind fun _ => advancing_pure _

theorem advancing_delay (value : Val) : Advancing (delay value) := by
  rw [delay.eq_def]
  split
  · exact advancing_pure _
  · exact advancing_raise _
  · exact advancing_suspend _

/-! ## Calls -/

section Calls

variable {evaluate : Scope → Expr → Run Val}

theorem advancing_callForeign (advancing : ∀ scope expr, Advancing (evaluate scope expr))
    (value : Foreign) (arg : Val) : Advancing (callForeign evaluate value arg) := by
  cases value with
  | symbol name traced args =>
      rw [callForeign]
      split
      · exact (advancing_record _ _).bind fun _ => advancing_pure _
      · exact advancing_pure _
  | closure param body scope => exact advancing _ _
  | _ => exact advancing_raise _

theorem advancing_apply (advancing : ∀ scope expr, Advancing (evaluate scope expr)) (steps : Nat)
    (fn arg : Val) : Advancing ((hostOf evaluate).apply steps fn arg) := by
  induction steps generalizing fn arg with
  | zero => exact advancing_throw _
  | succ steps ih =>
      cases fn with
      | host value => exact advancing_callForeign advancing value arg
      | distribute p f => exact (ih p arg).bind fun _ => (ih f arg).bind fun _ => ih _ _
      | _ => exact advancing_pure _

theorem advancing_hostEvaluate (advancing : ∀ scope expr, Advancing (evaluate scope expr))
    (steps : Nat) (term : Term) : Advancing ((hostOf evaluate).evaluate steps term) := by
  induction term with
  | app fn arg fn_ih arg_ih =>
      exact fn_ih.bind fun _ => arg_ih.bind fun _ => advancing_apply advancing _ _ _
  | _ => exact advancing_pure _

theorem advancing_callWithNone (advancing : ∀ scope expr, Advancing (evaluate scope expr))
    (fn : Val) : Advancing (callWithNone evaluate fn) := by
  rw [callWithNone.eq_def]
  split
  next body scope => exact advancing scope body
  all_goals exact advancing_raise _

theorem advancing_compute (advancing : ∀ scope expr, Advancing (evaluate scope expr))
    (computation : Computation) : Advancing (compute evaluate computation) := by
  cases computation with
  | suspended body scope => exact advancing scope body
  | call fn => exact advancing_callWithNone advancing fn

/-- What comes of having a computation completed that has not been so far. -/
theorem outcome_complete_pending (evaluate : Scope → Expr → Run Val) (number : Nat)
    (computation : Computation) (machine : Machine) :
    ((Thunk.pending computation).complete evaluate number).outcome machine =
      match (compute evaluate computation).outcome machine with
      | (.ok result, after) => (.ok result, after.complete number result)
      | (.error interruption, after) => (.error interruption, after) := by
  rw [Thunk.complete, ExceptT.outcome_bind]
  rcases (compute evaluate computation).outcome machine with ⟨_ | _, after⟩ <;> rfl

theorem advancing_force (advancing : ∀ scope expr, Advancing (evaluate scope expr)) (value : Val) :
    Advancing (force evaluate value) := by
  rw [force.eq_def]
  split
  next number =>
    refine advancing_of_outcome fun machine => ?_
    change machine.Advances ((force evaluate (.host (.thunk number))).outcome machine).2
    cases there : machine.thunks[number]? with
    | none =>
        simp only [force, ExceptT.outcome_bind, ExceptT.outcome_get, there]
        exact .refl machine
    | some thunk =>
        rw [outcome_force there]
        cases thunk with
        | forced result => exact .refl machine
        | pending computation =>
            have advances := (advancing_compute advancing computation).outcome machine
            rw [outcome_complete_pending]
            rcases ended : (compute evaluate computation).outcome machine with ⟨_ | result, after⟩
            · rw [ended] at advances
              exact advances
            · rw [ended] at advances
              exact advances.complete there result
  next => exact advancing_pure _

theorem advancing_decode (advancing : ∀ scope expr, Advancing (evaluate scope expr)) (steps : Nat)
    (selector : Val) : Advancing (decode (hostOf evaluate) steps selector) := by
  have chosen : Advancing
      ((hostOf evaluate).choose steps selector (literal (.bool true)) (literal (.bool false))) :=
    (advancing_apply advancing _ _ _).bind fun _ => advancing_apply advancing _ _ _
  refine chosen.bind fun value => ?_
  split
  · exact advancing_pure _
  · exact advancing_raise _

theorem advancing_branch (advancing : ∀ scope expr, Advancing (evaluate scope expr)) (steps : Nat)
    (selector first second : Val) : Advancing (branch evaluate steps selector first second) :=
  (advancing_delay _).bind fun _ => (advancing_apply advancing _ _ _).bind fun _ =>
    (advancing_delay _).bind fun _ => (advancing_apply advancing _ _ _).bind fun _ =>
      advancing_force advancing _

end Calls

/-! ## Whole runs -/

theorem advancing_evaluate (steps : Nat) (scope : Scope) (expr : Expr) :
    Advancing (evaluate steps scope expr) := by
  induction steps generalizing scope expr with
  | zero => exact advancing_throw _
  | succ steps ih =>
      cases expr with
      | term source =>
          exact (advancing_onBench _).bind fun _ => advancing_hostEvaluate ih _ _
      | get name => exact advancing_lookup scope name
      | raise message => exact advancing_raise _
      | apply fn args =>
          exact (ih _ _).bind fun _ => advancing_foldlM fun _ _ =>
            (ih _ _).bind fun _ => advancing_apply ih _ _ _
      | arithmetic operation left right =>
          exact (ih _ _).bind fun _ => (advancing_integer _).bind fun _ => (ih _ _).bind fun _ =>
            (advancing_integer _).bind fun _ => advancing_pure _
      | count counter => exact (advancing_increment _).bind fun _ => advancing_pure _
      | thunk body => exact advancing_suspend _
      | delay fn => exact (ih _ _).bind fun _ => advancing_delay _
      | force value => exact (ih _ _).bind fun _ => advancing_force ih _
      | encode value =>
          exact (ih _ _).bind fun _ => (advancing_onBench _).bind fun _ =>
            advancing_hostEvaluate ih _ _
      | decode selector =>
          exact (ih _ _).bind fun _ => (advancing_decode ih _ _).bind fun _ => advancing_pure _
      | branch selector first second =>
          exact (ih _ _).bind fun _ => (ih _ _).bind fun _ => (ih _ _).bind fun _ =>
            advancing_branch ih _ _ _ _
      | same left right =>
          exact (ih _ _).bind fun _ => (ih _ _).bind fun _ => advancing_pure _
      | _ => exact advancing_pure _

theorem advancing_reify (levels steps level : Nat) (value : Val) :
    Advancing (reify levels steps level value) := by
  induction steps generalizing level value with
  | zero => exact advancing_throw _
  | succ steps ih =>
      rw [reify.eq_def]
      simp only
      split
      · exact (advancing_mapM fun _ => ih _ _).bind fun _ => advancing_pure _
      · exact advancing_get.bind fun _ => advancing_pure _
      · exact advancing_get.bind fun _ => advancing_pure _
      · split
        · exact (advancing_apply (fun _ _ => advancing_evaluate _ _ _) _ _ _).bind fun _ =>
            (ih _ _).bind fun _ => advancing_pure _
        · exact advancing_pure _

theorem advancing_evaluate_step (steps : Nat) (step : Step) : Advancing (step.evaluate steps) := by
  obtain ⟨expr, name?, levels?⟩ := step
  refine (advancing_evaluate _ _ _).bind fun value => ?_
  have named (name : String) : Advancing (modify fun machine : Machine =>
      { machine with session := (name, value) :: machine.session }) :=
    advancing_modify fun _ => Machine.advances_of_eq rfl
  cases levels? with
  | none =>
      have shows : Advancing (do return shown (← get) value : Run Shown) :=
        advancing_get.bind fun _ => advancing_pure _
      cases name? with
      | none => exact shows
      | some name => exact (named name).bind fun _ => shows
  | some levels =>
      have shows := advancing_reify levels steps 0 value
      cases name? with
      | none => exact shows
      | some name => exact (named name).bind fun _ => shows

theorem preserves_report (first : Machine) (steps : Nat) (failure : Failure) :
    StateT.Preserves first.Advances (report steps failure) := by
  cases failure with
  | noTerm reason => exact fun before earlier => earlier.trans (Machine.advances_of_eq rfl)
  | _ => exact StateT.preserves_pure _

theorem preserves_run_step (first : Machine) (steps : Nat) (step : Step) :
    StateT.Preserves first.Advances (step.run steps) := by
  have reported : StateT.Preserves first.Advances
      (Effect.reported (report steps) (step.evaluate steps)) :=
    Effect.preserves_reported (advancing_evaluate_step steps step first)
      (preserves_report first steps)
  have forgotten : StateT.Preserves first.Advances
      (modify fun machine => { machine with trace := [] } : StateM Machine Unit) :=
    fun before earlier => earlier.trans (Machine.advances_of_eq rfl)
  exact forgotten.bind fun _ => reported.bind fun _ => fun _ earlier => earlier

/-- A session takes the computations put off forward. -/
theorem advances_session (steps : Nat) (session : List Step) (machine : Machine) :
    machine.Advances ((session.mapM (Step.run steps)).run machine).2 := by
  have preserved : StateT.Preserves machine.Advances (session.mapM (Step.run steps)) := by
    induction session with
    | nil => exact StateT.preserves_pure _
    | cons step session ih =>
        rw [List.mapM_cons]
        exact (preserves_run_step machine steps step).bind fun _ => ih.bind fun _ =>
          StateT.preserves_pure _
  exact preserved machine (.refl machine)

end Program
end Combinatory
