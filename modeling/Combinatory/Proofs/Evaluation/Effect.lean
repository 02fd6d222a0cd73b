import Combinatory.Evaluation.Effect

/-!
# How runs go

A run from a state has an outcome: a result or an error, and the state it leaves. The outcome of one
run after another is that of the second one from where the first one has got to. A run that is
granted more steps continues one that used its steps up, and does the same as one that did not.
-/

namespace ExceptT

variable {σ ε α β : Type}

/-- What comes out of a run from a state, and the state it leaves. -/
def outcome (run : ExceptT ε (StateM σ) α) (before : σ) : Except ε α × σ :=
  (ExceptT.run run).run before

/-- The run returns normally, with a result and a state. -/
def Returns (run : ExceptT ε (StateM σ) α) (before : σ) (result : α) (after : σ) : Prop :=
  run.outcome before = (.ok result, after)

/-- The run ends with an error and a state. -/
def Fails (run : ExceptT ε (StateM σ) α) (before : σ) (error : ε) (after : σ) : Prop :=
  run.outcome before = (.error error, after)

@[simp]
theorem outcome_pure (result : α) (before : σ) :
    (pure result : ExceptT ε (StateM σ) α).outcome before = (.ok result, before) := rfl

@[simp]
theorem outcome_throw (error : ε) (before : σ) :
    (throw error : ExceptT ε (StateM σ) α).outcome before = (.error error, before) := rfl

@[simp]
theorem outcome_get (before : σ) :
    (get : ExceptT ε (StateM σ) σ).outcome before = (.ok before, before) := rfl

@[simp]
theorem outcome_set (after before : σ) :
    (set after : ExceptT ε (StateM σ) PUnit).outcome before = (.ok ⟨⟩, after) := rfl

theorem outcome_bind (run : ExceptT ε (StateM σ) α) (next : α → ExceptT ε (StateM σ) β)
    (before : σ) :
    (run >>= next).outcome before =
      match run.outcome before with
      | (.ok result, middle) => (next result).outcome middle
      | (.error error, middle) => (.error error, middle) := by
  simp only [outcome, bind, ExceptT.run, ExceptT.bind, ExceptT.mk, StateT.run, StateT.bind]
  rcases run before with ⟨_ | _, middle⟩ <;> rfl

theorem outcome_tryCatch (run : ExceptT ε (StateM σ) α) (handle : ε → ExceptT ε (StateM σ) α)
    (before : σ) :
    (tryCatch run handle).outcome before =
      match run.outcome before with
      | (.ok result, middle) => (.ok result, middle)
      | (.error error, middle) => (handle error).outcome middle := by
  simp only [outcome, tryCatch, tryCatchThe, MonadExceptOf.tryCatch, ExceptT.tryCatch, ExceptT.run,
    ExceptT.mk, StateT.run, bind, StateT.bind]
  rcases run before with ⟨_ | _, middle⟩ <;> rfl

theorem outcome_ofExcept (result : Except ε α) (before : σ) :
    (MonadExcept.ofExcept result : ExceptT ε (StateM σ) α).outcome before = (result, before) := by
  cases result <;> rfl

@[simp]
theorem returns_pure {result other : α} {before after : σ} :
    (pure result : ExceptT ε (StateM σ) α).Returns before other after ↔
      result = other ∧ before = after := by
  simp [Returns]

/-- Two runs one after another return what the second one returns. -/
theorem returns_bind {run : ExceptT ε (StateM σ) α} {next : α → ExceptT ε (StateM σ) β}
    {before after : σ} {result : β} :
    (run >>= next).Returns before result after ↔
      ∃ value middle,
        run.Returns before value middle ∧ (next value).Returns middle result after := by
  simp only [Returns, outcome_bind]
  rcases run.outcome before with ⟨error | value, middle⟩
  · simp
  · constructor
    · exact fun second => ⟨value, middle, rfl, second⟩
    · rintro ⟨_, _, ⟨_, _⟩, second⟩
      exact second

theorem Returns.bind {run : ExceptT ε (StateM σ) α} {next : α → ExceptT ε (StateM σ) β}
    {before middle after : σ} {value : α} {result : β} (first : run.Returns before value middle)
    (second : (next value).Returns middle result after) :
    (run >>= next).Returns before result after :=
  returns_bind.mpr ⟨value, middle, first, second⟩

/-- After a run that returns it goes on with what it returned. -/
theorem Returns.outcome_bind {run : ExceptT ε (StateM σ) α} {before middle : σ} {value : α}
    (first : run.Returns before value middle) (next : α → ExceptT ε (StateM σ) β) :
    (run >>= next).outcome before = (next value).outcome middle := by
  rw [ExceptT.outcome_bind, show run.outcome before = (.ok value, middle) from first]

theorem Returns.bind_fails {run : ExceptT ε (StateM σ) α} {next : α → ExceptT ε (StateM σ) β}
    {before middle after : σ} {value : α} {error : ε} (first : run.Returns before value middle)
    (second : (next value).Fails middle error after) : (run >>= next).Fails before error after :=
  (first.outcome_bind next).trans second

/-- Nothing is done after a run that fails. -/
theorem Fails.bind {run : ExceptT ε (StateM σ) α} {before after : σ} {error : ε}
    (failed : run.Fails before error after) (next : α → ExceptT ε (StateM σ) β) :
    (run >>= next).Fails before error after := by
  rw [Fails, ExceptT.outcome_bind, show run.outcome before = (.error error, after) from failed]

/-! ## Invariants -/

/-- From a state in which the condition holds the run ends in one in which it holds, and a result
that it returns is good. -/
def Ensures (holds : σ → Prop) (run : ExceptT ε (StateM σ) α) (good : α → Prop) : Prop :=
  ∀ before, holds before →
    holds (run.outcome before).2 ∧ ∀ result, (run.outcome before).1 = .ok result → good result

section Ensures

variable {holds : σ → Prop} {good : α → Prop} {best : β → Prop}

theorem ensures_pure {result : α} (is_good : good result) :
    Ensures holds (pure result : ExceptT ε (StateM σ) α) good := by
  intro before held
  refine ⟨held, ?_⟩
  rintro _ ⟨⟩
  exact is_good

theorem ensures_throw (error : ε) : Ensures holds (throw error : ExceptT ε (StateM σ) α) good := by
  intro before held
  refine ⟨held, ?_⟩
  rintro _ ⟨⟩

theorem ensures_ofExcept {result : Except ε α}
    (is_good : ∀ value, result = .ok value → good value) :
    Ensures holds (MonadExcept.ofExcept result : ExceptT ε (StateM σ) α) good := by
  intro before held
  rw [outcome_ofExcept]
  exact ⟨held, is_good⟩

theorem Ensures.bind {run : ExceptT ε (StateM σ) α} {next : α → ExceptT ε (StateM σ) β}
    (first : Ensures holds run good)
    (second : ∀ value, good value → Ensures holds (next value) best) :
    Ensures holds (run >>= next) best := by
  intro before held
  obtain ⟨middle_held, is_good⟩ := first before held
  rw [outcome_bind]
  rcases ended : run.outcome before with ⟨error | value, middle⟩
  · rw [ended] at middle_held
    refine ⟨middle_held, ?_⟩
    rintro _ ⟨⟩
  · rw [ended] at middle_held is_good
    exact second value (is_good value rfl) middle middle_held

theorem Ensures.tryCatch {run : ExceptT ε (StateM σ) α} {handle : ε → ExceptT ε (StateM σ) α}
    (first : Ensures holds run good) (second : ∀ error, Ensures holds (handle error) good) :
    Ensures holds (tryCatch run handle) good := by
  intro before held
  obtain ⟨middle_held, is_good⟩ := first before held
  rw [outcome_tryCatch]
  rcases ended : run.outcome before with ⟨error | value, middle⟩
  · rw [ended] at middle_held
    exact second error middle middle_held
  · rw [ended] at middle_held is_good
    exact ⟨middle_held, is_good⟩

theorem Ensures.mono {run : ExceptT ε (StateM σ) α} {better : α → Prop}
    (ensures : Ensures holds run better) (weaker : ∀ result, better result → good result) :
    Ensures holds run good :=
  fun before held => ⟨(ensures before held).1,
    fun result returned => weaker result ((ensures before held).2 result returned)⟩

theorem ensures_mapM {items : List β} {step : β → ExceptT ε (StateM σ) α}
    (each : ∀ item, Ensures holds (step item) fun _ => True) :
    Ensures holds (items.mapM step) fun _ => True := by
  induction items with
  | nil => exact ensures_pure trivial
  | cons item items ih =>
      rw [List.mapM_cons]
      exact (each item).bind fun _ _ => ih.bind fun _ _ => ensures_pure trivial

end Ensures

/-! ## Runs that agree -/

/-- The other run does what the run does, unless the run ends with the given error. -/
def AgreesUnless (stop : ε) (run other : ExceptT ε (StateM σ) α) : Prop :=
  ∀ before, (∃ after, run.Fails before stop after) ∨ other.outcome before = run.outcome before

section AgreesUnless

variable {stop : ε}

theorem AgreesUnless.refl (run : ExceptT ε (StateM σ) α) : AgreesUnless stop run run :=
  fun _ => .inr rfl

theorem agreesUnless_of_fails {run : ExceptT ε (StateM σ) α}
    (fails : ∀ before, ∃ after, run.Fails before stop after) (other : ExceptT ε (StateM σ) α) :
    AgreesUnless stop run other :=
  fun before => .inl (fails before)

theorem AgreesUnless.bind {run other : ExceptT ε (StateM σ) α}
    {next further : α → ExceptT ε (StateM σ) β} (first : AgreesUnless stop run other)
    (second : ∀ value, AgreesUnless stop (next value) (further value)) :
    AgreesUnless stop (run >>= next) (other >>= further) := by
  intro before
  simp only [Fails, outcome_bind]
  rcases first before with ⟨after, failed⟩ | same
  · exact .inl ⟨after, by rw [failed]⟩
  · rw [same]
    rcases run.outcome before with ⟨error | value, middle⟩
    · exact .inr rfl
    · exact second value middle

theorem AgreesUnless.mapM {items : List β} {step further : β → ExceptT ε (StateM σ) α}
    (each : ∀ item, AgreesUnless stop (step item) (further item)) :
    AgreesUnless stop (items.mapM step) (items.mapM further) := by
  induction items with
  | nil => exact .refl _
  | cons item items ih =>
      rw [List.mapM_cons, List.mapM_cons]
      exact (each item).bind fun _ => ih.bind fun _ => .refl _

theorem AgreesUnless.foldlM {items : List β} {step further : α → β → ExceptT ε (StateM σ) α}
    (each : ∀ value item, AgreesUnless stop (step value item) (further value item)) (start : α) :
    AgreesUnless stop (items.foldlM step start) (items.foldlM further start) := by
  induction items generalizing start with
  | nil => exact .refl _
  | cons item items ih =>
      rw [List.foldlM_cons, List.foldlM_cons]
      exact (each start item).bind ih

/-- An error that is caught only to be passed on stops the run all the same. -/
theorem AgreesUnless.tryCatch {run other : ExceptT ε (StateM σ) α}
    {handle : ε → ExceptT ε (StateM σ) α} (agrees : AgreesUnless stop run other)
    (passes : ∀ before, ∃ after, (handle stop).Fails before stop after) :
    AgreesUnless stop (tryCatch run handle) (tryCatch other handle) := by
  intro before
  simp only [Fails, outcome_tryCatch]
  rcases agrees before with ⟨after, failed⟩ | same
  · obtain ⟨final, passed⟩ := passes after
    exact .inl ⟨final, by rw [failed]; exact passed⟩
  · exact .inr (by rw [same])

/-- A run ends with one error only, so it does not matter which of two errors would excuse it. -/
theorem eq_of_agreesUnless {run other : ExceptT ε (StateM σ) α} {first second : ε}
    (apart : first ≠ second) (one : AgreesUnless first run other)
    (two : AgreesUnless second run other) : other = run := by
  refine funext fun before => ?_
  rcases one before with ⟨after, failed⟩ | same
  · rcases two before with ⟨_, also_failed⟩ | same
    · exact (apart (by simpa using congrArg Prod.fst (failed.symm.trans also_failed))).elim
    · exact same
  · exact same

end AgreesUnless

end ExceptT

namespace StateT

variable {σ ε α β : Type} {holds : σ → Prop}

/-- From a state in which the condition holds the run ends in one in which it holds. -/
def Preserves (holds : σ → Prop) (run : StateM σ α) : Prop :=
  ∀ before, holds before → holds (run.run before).2

theorem preserves_pure (result : α) : Preserves holds (pure result : StateM σ α) :=
  fun _ held => held

theorem Preserves.bind {run : StateM σ α} {next : α → StateM σ β} (first : Preserves holds run)
    (second : ∀ value, Preserves holds (next value)) : Preserves holds (run >>= next) :=
  fun before held => second _ _ (first before held)

theorem preserves_run {run : ExceptT ε (StateM σ) α} {good : α → Prop}
    (ensures : run.Ensures holds good) : Preserves holds (ExceptT.run run) :=
  fun before held => (ensures before held).1

end StateT

namespace Combinatory
namespace Effect

variable {σ ε α β : Type}

@[simp]
theorem outcome_raise (error : ε) (before : σ) :
    (raise error : Effect σ ε α).outcome before = (.error (.raised error), before) := rfl

/-- The second run does what the first one does, unless the first one uses its steps up. -/
def ContinuedBy (short long : Effect σ ε α) : Prop :=
  ∀ before, (∃ after, short.Fails before .unfinished after) ∨
    long.outcome before = short.outcome before

theorem ContinuedBy.refl (run : Effect σ ε α) : run.ContinuedBy run :=
  ExceptT.AgreesUnless.refl run

theorem continuedBy_of_unfinished (long : Effect σ ε α) :
    (throw .unfinished : Effect σ ε α).ContinuedBy long :=
  ExceptT.agreesUnless_of_fails (fun before => ⟨before, rfl⟩) long

theorem ContinuedBy.bind {short long : Effect σ ε α} {next further : α → Effect σ ε β}
    (first : short.ContinuedBy long) (second : ∀ value, (next value).ContinuedBy (further value)) :
    (short >>= next).ContinuedBy (long >>= further) :=
  ExceptT.AgreesUnless.bind first second

/-- A run that returns is continued only by runs that return the same. -/
theorem ContinuedBy.returns {short long : Effect σ ε α} {before after : σ} {result : α}
    (continued : short.ContinuedBy long) (returned : short.Returns before result after) :
    long.Returns before result after := by
  rcases continued before with ⟨_, unfinished⟩ | same
  · cases returned.symm.trans unfinished
  · exact same.trans returned

/-- Only a report on an error changes the state after the run. -/
theorem state_reported (report : ε → StateM σ (Option String)) (run : Effect σ ε α) (before : σ) :
    ((reported report run).run before).2 =
      match run.outcome before with
      | (.error (.raised error), after) => ((report error).run after).2
      | (_, after) => after := by
  simp only [reported, ExceptT.outcome, ExceptT.run, StateT.run, bind, StateT.bind]
  rcases run before with ⟨⟨error | _⟩ | result, after⟩ <;> rfl

/-- Reporting on a run that has failed preserves what the run and the report preserve. -/
theorem preserves_reported {holds : σ → Prop} {run : Effect σ ε α}
    {report : ε → StateM σ (Option String)} {good : α → Prop}
    (ensures : ExceptT.Ensures holds run good)
    (reports : ∀ error, StateT.Preserves holds (report error)) :
    StateT.Preserves holds (reported report run) := by
  refine (StateT.preserves_run ensures).bind fun outcome => ?_
  cases outcome with
  | ok result => exact StateT.preserves_pure _
  | error interruption =>
      cases interruption with
      | raised error => exact (reports error).bind fun _ => StateT.preserves_pure _
      | unfinished => exact StateT.preserves_pure _

end Effect
end Combinatory
