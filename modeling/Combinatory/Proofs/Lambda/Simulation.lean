import Combinatory.Lambda.Compile
import Combinatory.Proofs.Lambda.Abstraction
import Combinatory.Proofs.Term.Sharing

/-!
# Work that follows a computation

Putting expressions together in a session numbers the applications, consults the registry and writes
to the log. None of this matters to the expressions: from a sound registry the work does what the
same computation on closed expressions does, where the variables may have other names. It fails only
where an application has no type.
-/

namespace Combinatory
namespace Lambda

/-! ## The state of a session -/

/-- The session has gone on: its named objects and its combinators are the same, the serial numbers
used are used up and a sound registry is still sound. -/
structure Workbench.Advances (before after : Workbench) : Prop where
  /-- The named objects are the same. -/
  session_eq : after.session = before.session
  /-- The combinators are the same. -/
  combinators_eq : after.combinators = before.combinators
  /-- Serial numbers are not used again. -/
  serial_le : before.nextSerial ≤ after.nextSerial
  /-- The registry stays sound. -/
  sound : before.terms.Sound → after.terms.Sound

namespace Workbench

theorem Advances.refl (bench : Workbench) : bench.Advances bench where
  session_eq := rfl
  combinators_eq := rfl
  serial_le := Nat.le_refl _
  sound := id

theorem Advances.trans {before middle after : Workbench} (first : before.Advances middle)
    (second : middle.Advances after) : before.Advances after where
  session_eq := second.session_eq.trans first.session_eq
  combinators_eq := second.combinators_eq.trans first.combinators_eq
  serial_le := Nat.le_trans first.serial_le second.serial_le
  sound := second.sound ∘ first.sound

end Workbench

/-! ## Following a computation -/

section Mirrors

variable {α β γ δ : Type}

/-- The work returns something related to the result of the computation, or it fails for a missing
type as the computation does. -/
def EndsLike (R : α → β → Prop) (work : Work α) (before after : Workbench) :
    Except (IllTyped Term) β → Prop
  | .ok expected => ∃ result, work.Returns before result after ∧ R result expected
  | .error _ => ∃ refusal, work.Fails before (.raised (.term (.illTyped refusal))) after

/-- From a state with a sound registry the work ends like the computation. -/
def Mirrors (R : α → β → Prop) (work : Work α) (before : Workbench)
    (computation : Except (IllTyped Term) β) : Prop :=
  before.terms.Sound → ∃ after, before.Advances after ∧ EndsLike R work before after computation

variable {R : α → β → Prop} {Q : γ → δ → Prop} {before : Workbench}

theorem Mirrors.pure {result : α} {expected : β} (related : R result expected) :
    Mirrors R (pure result) before (.ok expected) :=
  fun _ => ⟨before, .refl before, result, rfl, related⟩

theorem Mirrors.bind {work : Work α} {computation : Except (IllTyped Term) β}
    {next : α → Work γ} {further : β → Except (IllTyped Term) δ}
    (first : Mirrors R work before computation)
    (second : ∀ result expected middle, before.Advances middle → R result expected →
      Mirrors Q (next result) middle (further expected)) :
    Mirrors Q (work >>= next) before (computation >>= further) := by
  intro sound
  obtain ⟨middle, advances, outcome⟩ := first sound
  cases computation with
  | error reason =>
      obtain ⟨refusal, failed⟩ := outcome
      exact ⟨middle, advances, refusal, failed.bind next⟩
  | ok expected =>
      obtain ⟨result, returned, related⟩ := outcome
      obtain ⟨after, later, outcome⟩ :=
        second result expected middle advances related (advances.sound sound)
      refine ⟨after, advances.trans later, ?_⟩
      change EndsLike Q (work >>= next) before after (further expected)
      cases ended : further expected with
      | error reason =>
          rw [ended] at outcome
          obtain ⟨refusal, failed⟩ := outcome
          exact ⟨refusal, returned.bind_fails failed⟩
      | ok last =>
          rw [ended] at outcome
          obtain ⟨result, second_returned, related⟩ := outcome
          exact ⟨result, returned.bind second_returned, related⟩

/-- Work that starts with something that returns. -/
theorem Mirrors.of_returns {work : Work γ} {value : γ} {middle : Workbench} {next : γ → Work α}
    {computation : Except (IllTyped Term) β} (returned : work.Returns before value middle)
    (advances : before.Advances middle) (rest : Mirrors R (next value) middle computation) :
    Mirrors R (work >>= next) before computation := by
  intro sound
  obtain ⟨after, later, outcome⟩ := rest (advances.sound sound)
  refine ⟨after, advances.trans later, ?_⟩
  cases computation with
  | error reason =>
      obtain ⟨refusal, failed⟩ := outcome
      exact ⟨refusal, returned.bind_fails failed⟩
  | ok expected =>
      obtain ⟨result, last_returned, related⟩ := outcome
      exact ⟨result, returned.bind last_returned, related⟩

/-- It does not matter which missing type a computation finds. -/
theorem Mirrors.of_ok_iff {work : Work α} {computation other : Except (IllTyped Term) β}
    (mirrors : Mirrors R work before computation)
    (same : ∀ expected, computation = .ok expected ↔ other = .ok expected) :
    Mirrors R work before other := by
  intro sound
  obtain ⟨after, advances, outcome⟩ := mirrors sound
  refine ⟨after, advances, ?_⟩
  cases computation with
  | ok expected =>
      obtain rfl := (same expected).mp rfl
      exact outcome
  | error reason =>
      cases other with
      | error reason => exact outcome
      | ok expected => cases (same expected).mpr rfl

/-- Work that follows a computation in one way follows it in another one, if that is so for the
result that the computation has. -/
theorem Mirrors.imp {S : α → β → Prop} {work : Work α} {computation : Except (IllTyped Term) β}
    (mirrors : Mirrors R work before computation)
    (weaker : ∀ result expected, computation = .ok expected → R result expected →
      S result expected) : Mirrors S work before computation := by
  intro sound
  obtain ⟨after, advances, outcome⟩ := mirrors sound
  refine ⟨after, advances, ?_⟩
  cases computation with
  | error reason => exact outcome
  | ok expected =>
      obtain ⟨result, returned, related⟩ := outcome
      exact ⟨result, returned, weaker _ _ rfl related⟩

/-- What the work returns is related to what the computation has been found to give. -/
theorem Mirrors.known {work : Work α} {computation : Except (IllTyped Term) β}
    (mirrors : Mirrors R work before computation) :
    Mirrors (fun result expected => R result expected ∧ computation = .ok expected) work before
      computation :=
  mirrors.imp fun _ _ ok related => ⟨related, ok⟩

/-- What comes of work that returns is what the computation gives. -/
theorem Mirrors.exists_of_returns {work : Work α} {computation : Except (IllTyped Term) β}
    (mirrors : Mirrors R work before computation) (sound : before.terms.Sound) {result : α}
    {after : Workbench} (returned : work.Returns before result after) :
    ∃ expected, computation = .ok expected ∧ R result expected := by
  obtain ⟨_, -, ended⟩ := mirrors sound
  cases computation with
  | error reason =>
      obtain ⟨refusal, failed⟩ := ended
      cases returned.symm.trans failed
  | ok expected =>
      obtain ⟨other, other_returned, related⟩ := ended
      cases returned.symm.trans other_returned
      exact ⟨expected, rfl, related⟩

/-- Work that does more than the computation where that does not matter. -/
theorem Mirrors.after {work : Work γ} {next : γ → Work α} {computation : Except (IllTyped Term) β}
    (first : Mirrors (fun _ _ => True) work before (.ok ()))
    (rest : ∀ value middle, before.Advances middle → Mirrors R (next value) middle computation) :
    Mirrors R (work >>= next) before computation :=
  first.bind fun value _ middle advances _ => rest value middle advances

end Mirrors

/-! ## Doing what a computation does -/

section Copies

variable {α β γ δ : Type}

/-- The work returns something related to the result of the computation, or it is refused the same
application. -/
def EndsAs (R : α → β → Prop) (work : Work α) (before after : Workbench) :
    Except (IllTyped Term) β → Prop
  | .ok expected => ∃ result, work.Returns before result after ∧ R result expected
  | .error refusal =>
      work.Fails before (.raised (.term (.illTyped (refusal.map .ofTerm)))) after

/-- From a state with a sound registry the work ends as the computation does. -/
def Copies (R : α → β → Prop) (work : Work α) (before : Workbench)
    (computation : Except (IllTyped Term) β) : Prop :=
  before.terms.Sound → ∃ after, before.Advances after ∧ EndsAs R work before after computation

variable {R : α → β → Prop} {Q : γ → δ → Prop} {before : Workbench}

theorem Copies.pure {result : α} {expected : β} (related : R result expected) :
    Copies R (pure result) before (.ok expected) :=
  fun _ => ⟨before, .refl before, result, rfl, related⟩

theorem Copies.bind {work : Work α} {computation : Except (IllTyped Term) β}
    {next : α → Work γ} {further : β → Except (IllTyped Term) δ}
    (first : Copies R work before computation)
    (second : ∀ result expected middle, before.Advances middle → R result expected →
      Copies Q (next result) middle (further expected)) :
    Copies Q (work >>= next) before (computation >>= further) := by
  intro sound
  obtain ⟨middle, advances, outcome⟩ := first sound
  cases computation with
  | error refusal => exact ⟨middle, advances, outcome.bind next⟩
  | ok expected =>
      obtain ⟨result, returned, related⟩ := outcome
      obtain ⟨after, later, outcome⟩ :=
        second result expected middle advances related (advances.sound sound)
      refine ⟨after, advances.trans later, ?_⟩
      change EndsAs Q (work >>= next) before after (further expected)
      cases ended : further expected with
      | error refusal =>
          rw [ended] at outcome
          exact returned.bind_fails outcome
      | ok last =>
          rw [ended] at outcome
          obtain ⟨result, second_returned, related⟩ := outcome
          exact ⟨result, returned.bind second_returned, related⟩

/-- What the work returns is related to what the computation has been found to give. -/
theorem Copies.known {work : Work α} {computation : Except (IllTyped Term) β}
    (copies : Copies R work before computation) :
    Copies (fun result expected => R result expected ∧ computation = .ok expected) work before
      computation := by
  intro sound
  obtain ⟨after, advances, outcome⟩ := copies sound
  refine ⟨after, advances, ?_⟩
  cases computation with
  | error refusal => exact outcome
  | ok expected =>
      obtain ⟨result, returned, related⟩ := outcome
      exact ⟨result, returned, related, rfl⟩

/-- Work that ends as the computation does ends like it. -/
theorem Copies.mirrors {work : Work α} {computation : Except (IllTyped Term) β}
    (copies : Copies R work before computation) : Mirrors R work before computation := by
  intro sound
  obtain ⟨after, advances, outcome⟩ := copies sound
  refine ⟨after, advances, ?_⟩
  cases computation with
  | error refusal => exact ⟨_, outcome⟩
  | ok expected => exact outcome

end Copies

/-! ## Single orders -/

/-- Orders to the registry that succeed. -/
theorem consult_returns {α : Type} {access : Registry.Access α} {before : Workbench} {result : α}
    {terms : Registry} (returned : access.Returns before.terms result terms) :
    (consult access).Returns before result { before with terms } := by
  have run_eq : access.run.run before.terms = (.ok result, terms) := returned
  simp only [ExceptT.Returns, consult, ExceptT.outcome_bind, ExceptT.outcome_get, run_eq,
    ExceptT.outcome_set, ExceptT.outcome_pure]

/-- Orders to the registry that are refused. -/
theorem consult_fails {α : Type} {access : Registry.Access α} {before : Workbench}
    {reason : RawTerm.Failure} {terms : Registry}
    (failed : access.Fails before.terms reason terms) :
    (consult access).Fails before (.raised (.term reason)) { before with terms } := by
  have run_eq : access.run.run before.terms = (.error reason, terms) := failed
  simp only [ExceptT.Fails, consult, ExceptT.outcome_bind, ExceptT.outcome_get, run_eq,
    ExceptT.outcome_set, Effect.outcome_raise]

theorem Workbench.advances_terms (before : Workbench) {terms : Registry} (sound : terms.Sound) :
    before.Advances { before with terms } where
  session_eq := rfl
  combinators_eq := rfl
  serial_le := Nat.le_refl _
  sound := fun _ => sound

theorem copies_nextSerial (before : Workbench) :
    Copies (fun _ _ => True) nextSerial before (.ok 0) := by
  intro sound
  refine ⟨{ before with nextSerial := before.nextSerial + 1 }, ?_, _, rfl, trivial⟩
  exact ⟨rfl, rfl, Nat.le_succ _, id⟩

theorem copies_log (line : String) (before : Workbench) :
    Copies (fun _ _ => True) (log line) before (.ok ()) := by
  intro sound
  exact ⟨{ before with log := line :: before.log }, ⟨rfl, rfl, Nat.le_refl _, id⟩, (), rfl, trivial⟩

theorem mirrors_log (line : String) (before : Workbench) :
    Mirrors (fun _ _ => True) (log line) before (.ok ()) :=
  (copies_log line before).mirrors

theorem copies_termText (value : TypedTerm) (before : Workbench) :
    Copies (fun _ _ => True) (termText value) before (.ok ()) := by
  intro sound
  obtain ⟨object, middle, registered, object_term, middle_sound⟩ := sound.registered value.term
  obtain ⟨after, written, after_sound⟩ := middle_sound.render value.term
  rw [← object_term] at written
  have returned : ExceptT.Returns (do Registry.render (← Registry.registered value.term).term)
      before.terms value.term.render after := registered.bind written
  exact ⟨_, before.advances_terms after_sound, _, consult_returns returned, trivial⟩

variable {perform : Task → Work Object} {naming : Var → Var}

/-- Closed terms are applied to one another as without a session. -/
theorem copies_applyTyped (fn arg : TypedTerm) (before : Workbench) :
    Copies Eq (consult (Registry.applyTyped fn arg)) before (fn.app? arg) := by
  intro sound
  obtain ⟨terms, terms_sound, outcome⟩ := sound.applyTyped fn arg
  refine ⟨{ before with terms }, before.advances_terms terms_sound, ?_⟩
  cases applied : fn.app? arg with
  | ok application =>
      rw [applied] at outcome
      exact ⟨application, consult_returns outcome, rfl⟩
  | error refusal =>
      rw [applied] at outcome
      exact consult_fails outcome

/-! ## Expressions -/

/-- The object is the expression, with the variables named in a certain way and with serial numbers
for its applications. -/
inductive Stands (naming : Var → Var) : Object → Open Empty → Prop
  /-- A closed term. -/
  | term (value : TypedTerm) : Stands naming (.term value) (.term value)
  /-- A variable under its name. -/
  | var (x : Var) : Stands naming (.var (naming x)) (.var x)
  /-- An application of expressions. -/
  | app {serial number : Nat} {fn arg : Object} {fnExpr argExpr : Open Empty}
      (fn_stands : Stands naming fn fnExpr) (arg_stands : Stands naming arg argExpr) :
      Stands naming (.app serial fn arg) (.app number fnExpr argExpr)

theorem Stands.congr {other : Var → Var} {object : Object} {expr : Open Empty}
    (stands : Stands naming object expr) (agree : ∀ x, expr.Mentions x → naming x = other x) :
    Stands other object expr := by
  induction stands with
  | term value => exact .term value
  | var x =>
      rw [agree x rfl]
      exact .var x
  | app _ _ fn_ih arg_ih =>
      exact .app (fn_ih fun x occurs => agree x (.inl occurs))
        (arg_ih fun x occurs => agree x (.inr occurs))

theorem Stands.isTerm {object : Object} {expr : Open Empty} (stands : Stands naming object expr) :
    object.isTerm = expr.isTerm := by
  cases stands <;> rfl

/-- An expression can be written, whatever it is. -/
theorem Stands.copies_text {object : Object} {expr : Open Empty}
    (stands : Stands naming object expr) (before : Workbench) :
    Copies (fun _ _ => True) (text perform object) before (.ok ()) := by
  induction stands generalizing before with
  | term value => exact copies_termText value before
  | var x => exact .pure trivial
  | app _ _ fn_ih arg_ih =>
      exact (fn_ih before).bind fun _ _ middle _ _ =>
        (arg_ih middle).bind fun _ _ _ _ _ => .pure trivial

theorem Stands.mirrors_text {object : Object} {expr : Open Empty}
    (stands : Stands naming object expr) (before : Workbench) :
    Mirrors (fun _ _ => True) (text perform object) before (.ok ()) :=
  (stands.copies_text before).mirrors

theorem Stands.convert {object : Object} {expr : Open Empty} (stands : Stands naming object expr) :
    (assembly perform).convert object = pure object := by
  cases stands <;> rfl

theorem Stands.result? {object : Object} {expr : Open Empty} (stands : Stands naming object expr) :
    (assembly perform).result? object = some object := by
  cases stands <;> rfl

/-- Objects are joined as the expressions they are. -/
theorem Stands.copies_join {fn arg : Object} {fnExpr argExpr : Open Empty}
    (fn_stands : Stands naming fn fnExpr) (arg_stands : Stands naming arg argExpr)
    (before : Workbench) :
    Copies (Stands naming) ((assembly perform).join fn arg) before
      (Assembly.closed.join fnExpr argExpr) := by
  rcases Assembly.join_cases fn arg with ⟨f, a, rfl, rfl⟩ | apart
  · cases fn_stands
    cases arg_stands
    refine (copies_applyTyped f a before).bind fun result expected _ _ same => ?_
    rw [same]
    exact .pure (.term expected)
  · have expr_apart : (fnExpr.isTerm && argExpr.isTerm) = false := by
      rw [← fn_stands.isTerm, ← arg_stands.isTerm, apart]
    rw [Assembly.join_apart _ apart, Assembly.join_apart _ expr_apart]
    exact (copies_nextSerial before).bind fun _ _ _ _ _ => .pure (.app fn_stands arg_stands)

/-- Objects are applied in turn as the expressions they are. -/
theorem copies_foldlM_join {first : Object} {firstExpr : Open Empty} {rest : List Object}
    {restExprs : List (Open Empty)} (first_stands : Stands naming first firstExpr)
    (rest_stand : List.Forall₂ (Stands naming) rest restExprs) (before : Workbench) :
    Copies (Stands naming) (rest.foldlM (assembly perform).join first) before
      (restExprs.foldlM Assembly.closed.join firstExpr) := by
  induction rest_stand generalizing first firstExpr before with
  | nil => exact .pure first_stands
  | cons arg_stands _ ih =>
      exact (first_stands.copies_join arg_stands before).bind fun _ _ middle _ joined =>
        ih joined middle

theorem mirrors_foldlM_join {first : Object} {firstExpr : Open Empty} {rest : List Object}
    {restExprs : List (Open Empty)} (first_stands : Stands naming first firstExpr)
    (rest_stand : List.Forall₂ (Stands naming) rest restExprs) (before : Workbench) :
    Mirrors (Stands naming) (rest.foldlM (assembly perform).join first) before
      (restExprs.foldlM Assembly.closed.join firstExpr) :=
  (copies_foldlM_join first_stands rest_stand before).mirrors

theorem mapM_convert {objects : List Object} {exprs : List (Open Empty)}
    (stand : List.Forall₂ (Stands naming) objects exprs) :
    objects.mapM (assembly perform).convert = pure objects := by
  induction stand with
  | nil => rfl
  | cons stands _ ih => simp [stands.convert, ih]

theorem copies_app {first : Object} {firstExpr : Open Empty} {rest : List Object}
    {restExprs : List (Open Empty)} (first_stands : Stands naming first firstExpr)
    (rest_stand : List.Forall₂ (Stands naming) rest restExprs) (before : Workbench) :
    Copies (Stands naming) ((assembly perform).app first rest) before
      (Assembly.closed.app firstExpr restExprs) := by
  rw [Assembly.closed_app, Assembly.app, first_stands.convert, mapM_convert rest_stand, pure_bind,
    pure_bind]
  exact copies_foldlM_join first_stands rest_stand before

/-! ## Abstraction -/

theorem Stands.isVar {object : Object} {expr : Open Empty} (stands : Stands naming object expr)
    {x : Var} (apart : ∀ y, expr.Mentions y → naming y = naming x → y = x) :
    object.isVar (naming x) = expr.isVar x := by
  cases stands with
  | var y =>
      have same_iff : naming y = naming x ↔ y = x := ⟨apart y rfl, fun same => by rw [same]⟩
      simp [Open.isVar, same_iff]
  | _ => rfl

/-- The distribution of two abstractions. -/
theorem copies_distributed {fnAbs argAbs : Object} {fnExpr argExpr : Open Empty}
    (fn_stands : Stands naming fnAbs fnExpr) (arg_stands : Stands naming argAbs argExpr)
    (before : Workbench) :
    Copies (Option.Rel (Stands naming))
      (do return some (← (assembly perform).app (.term .S) [fnAbs, argAbs])) before
      (do return some (← Assembly.closed.app (.term .S) [fnExpr, argExpr])) :=
  (copies_app (.term .S) (.cons fn_stands (.cons arg_stands .nil)) before).bind
    fun _ _ _ _ stands => .pure (.some stands)

/-- A variable whose name is its own is abstracted from an object as from the expression it is. -/
theorem Stands.copies_abstract? {object : Object} {expr : Open Empty}
    (stands : Stands naming object expr) {x : Var}
    (apart : ∀ y, expr.Mentions y → naming y = naming x → y = x) (before : Workbench) :
    Copies (Option.Rel (Stands naming)) ((assembly perform).abstract? (naming x) object) before
      (Assembly.closed.abstract? x expr) := by
  induction stands generalizing before with
  | term value => exact .pure .none
  | var y =>
      by_cases same : y = x
      · subst same
        simp only [Assembly.abstract?, if_true]
        exact .pure (.some (.term .I))
      · have names_apart : naming y ≠ naming x := fun names_same => same (apart y rfl names_same)
        simp only [Assembly.abstract?, if_neg same, if_neg names_apart]
        exact .pure .none
  | @app serial number fn arg fnExpr argExpr fn_stands arg_stands fn_ih arg_ih =>
      have fn_apart (y : Var) (occurs : fnExpr.Mentions y) := apart y (.inl occurs)
      have arg_apart (y : Var) (occurs : argExpr.Mentions y) := apart y (.inr occurs)
      refine (fn_ih fn_apart before).bind fun fnAbs fnAbsExpr first _ fn_related => ?_
      refine (arg_ih arg_apart first).bind fun argAbs argAbsExpr second _ arg_related => ?_
      cases fn_related with
      | none =>
          cases arg_related with
          | none => exact .pure .none
          | some argAbs_stands =>
              simp only [arg_stands.isVar arg_apart, fn_stands.result?, Assembly.closed_result?]
              split
              · exact .pure (.some fn_stands)
              · refine (copies_app (.term .K) (.cons fn_stands .nil) second).bind ?_
                intro kept keptExpr third _ kept_stands
                exact copies_distributed kept_stands argAbs_stands third
      | some fnAbs_stands =>
          cases arg_related with
          | none =>
              refine (copies_app (.term .K) (.cons arg_stands .nil) second).bind ?_
              intro kept keptExpr third _ kept_stands
              exact copies_distributed fnAbs_stands kept_stands third
          | some argAbs_stands => exact copies_distributed fnAbs_stands argAbs_stands second

/-- An abstraction is noted in the log. -/
theorem Stands.copies_note {body abstraction : Object} {bodyExpr absExpr : Open Empty}
    (body_stands : Stands naming body bodyExpr) (abs_stands : Stands naming abstraction absExpr)
    (x : Var) (before : Workbench) :
    Copies (fun _ _ => True) ((assembly perform).note x body abstraction) before (.ok ()) :=
  (body_stands.copies_text before).bind fun _ _ middle _ _ =>
    (abs_stands.copies_text middle).bind fun _ _ last _ _ => copies_log _ last

theorem Stands.copies_abstract {object : Object} {expr : Open Empty}
    (stands : Stands naming object expr) {x : Var}
    (apart : ∀ y, expr.Mentions y → naming y = naming x → y = x) (before : Workbench) :
    Copies (Stands naming) ((assembly perform).abstract (naming x) object) before
      (Assembly.closed.abstract x expr) := by
  refine (stands.copies_abstract? apart before).bind fun found foundExpr middle _ related => ?_
  cases related with
  | some abs_stands =>
      exact (stands.copies_note abs_stands _ middle).bind fun _ _ _ _ _ => .pure abs_stands
  | none =>
      refine (copies_app (.term .K) (.cons stands .nil) middle).bind ?_
      intro kept keptExpr third _ kept_stands
      exact (stands.copies_note kept_stands _ third).bind fun _ _ _ _ _ => .pure kept_stands

theorem Stands.mirrors_abstract {object : Object} {expr : Open Empty}
    (stands : Stands naming object expr) {x : Var}
    (apart : ∀ y, expr.Mentions y → naming y = naming x → y = x) (before : Workbench) :
    Mirrors (Stands naming) ((assembly perform).abstract (naming x) object) before
      (Assembly.closed.abstract x expr) :=
  (stands.copies_abstract apart before).mirrors

/-- Variables with names of their own are abstracted in turn. -/
theorem Stands.copies_abstractAll {xs : List Var} {object : Object} {expr : Open Empty}
    (stands : Stands naming object expr)
    (apart : ∀ x ∈ xs, ∀ y, expr.Mentions y → naming y = naming x → y = x) (before : Workbench) :
    Copies (Stands naming) ((assembly perform).abstractAll (xs.map naming) object) before
      (Assembly.closed.abstractAll xs expr) := by
  rw [Assembly.abstractAll, Assembly.abstractAll, ← List.map_reverse]
  replace apart : ∀ x ∈ xs.reverse, ∀ y, expr.Mentions y → naming y = naming x → y = x :=
    fun x mem => apart x (List.mem_reverse.mp mem)
  generalize xs.reverse = ordered at apart
  induction ordered generalizing object expr before with
  | nil => exact .pure stands
  | cons x ordered ih =>
      have x_apart := apart x List.mem_cons_self
      refine (stands.copies_abstract x_apart before).known.bind ?_
      rintro result expected middle - ⟨result_stands, abstracted⟩
      refine ih result_stands middle fun other mem y occurs => ?_
      have occurs_before := (((Assembly.eliminates_of_abstract abstracted).mentions y).mp occurs).1
      exact apart other (List.mem_cons_of_mem x mem) y occurs_before

theorem Stands.mirrors_abstractAll {xs : List Var} {object : Object} {expr : Open Empty}
    (stands : Stands naming object expr)
    (apart : ∀ x ∈ xs, ∀ y, expr.Mentions y → naming y = naming x → y = x) (before : Workbench) :
    Mirrors (Stands naming) ((assembly perform).abstractAll (xs.map naming) object) before
      (Assembly.closed.abstractAll xs expr) :=
  (stands.copies_abstractAll apart before).mirrors

end Lambda
end Combinatory
