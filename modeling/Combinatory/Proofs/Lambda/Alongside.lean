import Combinatory.Proofs.Lambda.Preservation
import Combinatory.Proofs.Lambda.Renaming

/-!
# Sessions with renamed parameters

Requests that are alike keep sessions in step, also where they fail and the failure is reported. So
two sessions that are worked through by requests that are alike get to states that differ in the
names of variables and parameters and in the log only.
-/

namespace Combinatory
namespace Lambda

/-! ## Requests -/

/-- The two requests are the same for expressions that are alike. -/
inductive Request.Alike : Request → Request → Prop
  /-- Combinators of the same name are defined. -/
  | define {name : String} {signature other : Signature} {body counterpart : Expr}
      (functions : (Expr.function name signature body).Alike []
        (.function name other counterpart)) :
      Alike (.define name signature body) (.define name other counterpart)
  /-- Objects are given the same name. -/
  | bind (name : String) {expr other : Expr} (exprs : expr.Alike [] other) :
      Alike (.bind name expr) (.bind name other)
  /-- Objects are shown. -/
  | exhibit {expr other : Expr} (exprs : expr.Alike [] other) :
      Alike (.exhibit expr) (.exhibit other)
  /-- Functions are compiled. -/
  | compile {expr other : Expr} (exprs : expr.Alike [] other) :
      Alike (.compile expr) (.compile other)
  /-- Objects are written. -/
  | constructorForm {expr other : Expr} (exprs : expr.Alike [] other) :
      Alike (.constructorForm expr) (.constructorForm other)
  /-- Variables are listed. -/
  | freeVars {expr other : Expr} (exprs : expr.Alike [] other) :
      Alike (.freeVars expr) (.freeVars other)
  /-- Objects are compared. -/
  | same {left right other counterpart : Expr} (lefts : left.Alike [] other)
      (rights : right.Alike [] counterpart) : Alike (.same left right) (.same other counterpart)

/-- From sessions in step the two runs lead to sessions in step. -/
def LeadsInStep {α β : Type} (pairs : Pairing) (run : StateM Workbench α)
    (other : StateM Workbench β) : Prop :=
  ∀ bench counterpart, bench.InStep pairs counterpart →
    ∃ more, pairs.Within more ∧ (run.run bench).2.InStep more (other.run counterpart).2

/-- No application is made in the request without reading its parts. -/
def Request.joins : Request → Bool
  | define _ _ body => body.joins
  | bind _ expr => expr.joins
  | exhibit expr => expr.joins
  | compile expr => expr.joins
  | constructorForm expr => expr.joins
  | freeVars expr => expr.joins
  | same left right => left.joins && right.joins

section Requests

variable {α β : Type} {perform : Task → Work Object} {pairs : Pairing}

theorem Expr.Alike.self {expr : Expr} (joins : expr.joins = true) : expr.Alike [] expr :=
  .refl (by simp) expr joins

/-- A request without raw applications is like itself. -/
theorem Request.Alike.self {request : Request} (joins : request.joins = true) :
    request.Alike request := by
  cases request with
  | define name signature body =>
      have function_joins : (Expr.function name signature body).joins = true := joins
      exact .define (.self function_joins)
  | bind name expr => exact .bind name (.self joins)
  | exhibit expr => exact .exhibit (.self joins)
  | compile expr => exact .compile (.self joins)
  | constructorForm expr => exact .constructorForm (.self joins)
  | freeVars expr => exact .freeVars (.self joins)
  | same left right =>
      rw [Request.joins, Bool.and_eq_true] at joins
      exact .same (.self joins.1) (.self joins.2)

mutual

theorem Expr.Alike.joins {names : List (String × String)} {expr other : Expr}
    (alike : expr.Alike names other) : expr.joins = true := by
  cases alike with
  | function name signatures bodies => exact bodies.joins
  | form joins all =>
      rw [Expr.joins, Bool.and_eq_true, bne_iff_ne]
      exact ⟨joins, all.allJoin⟩
  | _ => rfl

theorem Expr.AllAlike.allJoin {names : List (String × String)} {exprs others : List Expr}
    (alike : Expr.AllAlike names exprs others) : Expr.allJoin exprs = true := by
  cases alike with
  | nil => rfl
  | cons first rest =>
      rw [Expr.allJoin, Bool.and_eq_true]
      exact ⟨first.joins, rest.allJoin⟩

end

theorem Request.Alike.joins {request other : Request} (alike : request.Alike other) :
    request.joins = true := by
  cases alike with
  | define functions => exact functions.joins
  | same lefts rights =>
      rw [Request.joins, Bool.and_eq_true]
      exact ⟨lefts.joins, rights.joins⟩
  | bind _ exprs | exhibit exprs | compile exprs | constructorForm exprs | freeVars exprs =>
      exact exprs.joins

theorem leads_pure (result : α) (counterpart : β) :
    LeadsInStep pairs (pure result) (pure counterpart) :=
  fun _ _ in_step => ⟨pairs, .refl pairs, in_step⟩

/-- Work in step leads to sessions in step, whether it returns or not. -/
theorem StaysInStep.leads {R : Pairing → α → β → Prop} {work : Work α} {other : Work β}
    (stays : StaysInStep pairs R work other) :
    LeadsInStep pairs (ExceptT.run work) (ExceptT.run other) := by
  intro bench counterpart in_step
  have ended := stays bench counterpart in_step
  change ∃ more, pairs.Within more ∧
    (work.outcome bench).2.InStep more (other.outcome counterpart).2
  generalize work.outcome bench = outcome at ended ⊢
  generalize other.outcome counterpart = twin at ended ⊢
  cases ended with
  | returned within in_step => exact ⟨_, within, in_step⟩
  | raised within in_step => exact ⟨_, within, in_step⟩
  | unfinished within in_step => exact ⟨_, within, in_step⟩

theorem LeadsInStep.stays {run : StateM Workbench α} {other : StateM Workbench β}
    (leads : LeadsInStep pairs run other) :
    StaysInStep pairs (fun _ _ _ => True) (liftM run : Work α) (liftM other : Work β) := by
  intro bench counterpart in_step
  obtain ⟨more, within, later⟩ := leads bench counterpart in_step
  exact .returned within later trivial

theorem Twin.leads_text? (performs : PerformsInStep perform) {object other : Object}
    (twins : Twin pairs object other) :
    LeadsInStep pairs (text? perform object) (text? perform other) :=
  (twins.stays_text performs).leads

/-- Failures that are alike are reported in step. -/
theorem Failure.Alike.leads_report (performs : PerformsInStep perform) {failure other : Failure}
    (alike : failure.Alike pairs other) :
    LeadsInStep pairs (report perform failure) (report perform other) := by
  unfold Failure.Alike at alike
  split at alike
  · exact leads_pure _ _
  · exact leads_pure _ _
  · exact leads_pure _ _
  · exact leads_pure _ _
  · exact alike.leads_text? performs
  · exact (Twin.foreign alike).leads_text? performs
  · rename_i not_objects not_values
    subst alike
    cases failure with
    | notAVariable object => exact absurd rfl (not_objects object object rfl)
    | notAnExpression value => exact absurd rfl (not_values value value rfl)
    | term reason =>
        intro bench counterpart in_step
        refine ⟨pairs, .refl pairs, { in_step with terms_eq := ?_ }⟩
        change ((Registry.report reason).run counterpart.terms).2 =
          ((Registry.report reason).run bench.terms).2
        rw [in_step.terms_eq]
    | _ => exact leads_pure _ _

/-- What failed is reported in step. -/
theorem StaysInStep.leads_reported (performs : PerformsInStep perform)
    {R : Pairing → α → β → Prop} {work : Work α} {other : Work β}
    (stays : StaysInStep pairs R work other) :
    LeadsInStep pairs (Effect.reported (report perform) work)
      (Effect.reported (report perform) other) := by
  intro bench counterpart in_step
  have ended := stays bench counterpart in_step
  rw [Effect.state_reported, Effect.state_reported]
  generalize work.outcome bench = outcome at ended ⊢
  generalize other.outcome counterpart = twin at ended ⊢
  cases ended with
  | returned within in_step => exact ⟨_, within, in_step⟩
  | unfinished within in_step => exact ⟨_, within, in_step⟩
  | raised within in_step alike =>
      obtain ⟨most, further, last⟩ := alike.leads_report performs _ _ in_step
      exact ⟨most, within.trans further, last⟩

theorem Twin.stays_exhibit (performs : PerformsInStep perform) {object other : Object}
    (twins : Twin pairs object other) :
    StaysInStep pairs (fun _ _ _ => True) (exhibit perform object) (exhibit perform other) := by
  have written := twins.stays_text performs
  cases twins with
  | expr twins =>
      cases twins with
      | app serial fns args apart =>
          exact (written.leads_reported performs).stays.bind fun _ _ => .pure trivial
      | _ => exact .pure trivial
  | foreign twins =>
      cases twins with
      | tuple serial twins => exact written.bind fun _ _ => .pure trivial
      | _ => exact .pure trivial

theorem stays_bindName (name : String) {object other : Object} (twins : Twin pairs object other) :
    StaysInStep pairs (fun _ _ _ => True) (bindName name object) (bindName name other) :=
  fun _ _ in_step => .returned (.refl pairs)
    { in_step with session := .cons name name twins in_step.session } trivial

theorem stays_named (performs : PerformsInStep perform) (name : String) {object other : Object}
    (twins : Twin pairs object other) :
    StaysInStep pairs (fun _ _ _ => True)
      (do bindName name object; exhibit perform object)
      (do bindName name other; exhibit perform other) :=
  (stays_bindName name twins).bind fun within _ => (twins.within within).stays_exhibit performs

theorem Request.Alike.stays_fulfil (performs : PerformsInStep perform) {request other : Request}
    (alike : request.Alike other) :
    StaysInStep pairs (fun _ _ _ => True) (request.fulfil perform) (other.fulfil perform) := by
  cases alike with
  | define functions =>
      exact (performs.evaluate .nil functions).bind fun _ twins =>
        (twins.stays_wrap performs).bind fun _ twins => stays_named performs _ twins
  | bind name exprs =>
      exact (performs.evaluate .nil exprs).bind fun _ twins => stays_named performs name twins
  | exhibit exprs =>
      exact (performs.evaluate .nil exprs).bind fun _ twins => twins.stays_exhibit performs
  | compile exprs =>
      exact (performs.evaluate .nil exprs).bind fun _ twins =>
        (twins.stays_compile performs).bind fun _ _ => .pure trivial
  | constructorForm exprs =>
      exact (performs.evaluate .nil exprs).bind fun _ twins =>
        (twins.stays_constructorForm performs).bind fun _ _ => .pure trivial
  | freeVars exprs =>
      exact (performs.evaluate .nil exprs).bind fun _ twins =>
        twins.stays_freeVars.bind fun _ _ => .pure trivial
  | same lefts rights =>
      exact (performs.evaluate .nil lefts).bind fun _ _ =>
        (performs.evaluate .nil rights).bind fun _ _ => .pure trivial

/-- Requests that are alike lead to sessions in step. -/
theorem Request.Alike.leads_run {request other : Request} (alike : request.Alike other)
    (steps : Nat) : LeadsInStep pairs (request.run steps) (other.run steps) := by
  intro bench counterpart in_step
  exact (alike.stays_fulfil (performs_in_step steps)).leads_reported (performs_in_step steps)
    { bench with log := [] } { counterpart with log := [] } { in_step with }

end Requests

/-! ## Sessions -/

/-- Two states that sessions get to by requests that are alike. -/
inductive Workbench.Alongside : Workbench → Workbench → Prop
  /-- The state in which sessions begin. -/
  | initial : Alongside .initial .initial
  /-- Requests that are alike have been worked through. -/
  | request {bench other : Workbench} (alongside : bench.Alongside other) (steps : Nat)
      {request counterpart : Request} (alike : request.Alike counterpart) :
      Alongside ((request.run steps).run bench).2 ((counterpart.run steps).run other).2

namespace Workbench.Alongside

variable {bench other : Workbench}

theorem in_step (alongside : bench.Alongside other) : ∃ pairs, bench.InStep pairs other := by
  induction alongside with
  | initial =>
      refine ⟨fun _ _ => False, rfl, rfl, rfl, fun number => .none, .nil, ⟨?_, ?_⟩, ?_⟩
      all_goals
        intros
        contradiction
  | request _ steps alike ih =>
      obtain ⟨pairs, in_step⟩ := ih
      obtain ⟨more, -, later⟩ := alike.leads_run steps _ _ in_step
      exact ⟨more, later⟩

/-- A session that may be compared with another one may be compared with itself. -/
theorem self (alongside : bench.Alongside other) : bench.Alongside bench := by
  induction alongside with
  | initial => exact .initial
  | request _ steps alike ih => exact .request ih steps (.self alike.joins)

theorem reachable (alongside : bench.Alongside other) : bench.Reachable := by
  induction alongside with
  | initial => exact .initial
  | request _ steps _ ih => exact .request ih steps _

end Workbench.Alongside

end Lambda
end Combinatory
