import Combinatory.Lambda.Session
import Combinatory.Proofs.Lambda.Asking
import Combinatory.Proofs.Lambda.Simulation

/-!
# What a session keeps

Whatever is evaluated, compiled or written in a session, and however that ends, is put together from
a few single orders. A relation between states that the single orders respect, and the compilation
of a combinator if that of functions does, relates the state before any work to the one after it.

The first such law is that the registry of terms stays sound. A session begins with a sound
registry, so it has one in every state that it gets to.
-/

namespace Combinatory
namespace Lambda

/-- The work leads only to states in relation to the one it starts from. -/
def Keeps {α : Type} (law : Workbench → Workbench → Prop) (work : Work α) : Prop :=
  ∀ before, law before (work.outcome before).2

/-- A relation between the states before and after something, which single orders respect. -/
class Law (law : Workbench → Workbench → Prop) : Prop where
  /-- Nothing need be done. -/
  refl : ∀ bench, law bench bench
  /-- One thing may be done after another. -/
  trans : ∀ {before middle after}, law before middle → law middle after → law before after
  /-- Serial numbers may be drawn. -/
  drawn : ∀ bench serial, law bench { bench with nextSerial := serial }
  /-- The log may be written. -/
  logged : ∀ bench log, law bench { bench with log }
  /-- Objects may be named. -/
  named : ∀ bench session, law bench { bench with session }
  /-- The registry may be consulted. -/
  consulted : ∀ bench terms, (bench.terms.Sound → terms.Sound) → law bench { bench with terms }
  /-- Objects may be wrapped as combinators. -/
  wrapped : ∀ bench source name?,
    law bench
      { bench with
        combinators := bench.combinators.push { source, name?, compiling := false, term? := none } }
  /-- The term of a combinator may be asked for if functions may be compiled. -/
  asked : ∀ {perform number}, (∀ source, Keeps law (compile perform source)) →
    Keeps law (termOf perform number)

section Keeps

variable {α β : Type} {law : Workbench → Workbench → Prop} [Law law]

theorem keeps_pure (result : α) : Keeps law (pure result : Work α) :=
  Law.refl

theorem keeps_throw (interruption : Interruption Failure) :
    Keeps law (throw interruption : Work α) :=
  Law.refl

theorem keeps_raise (failure : Failure) : Keeps law (Effect.raise failure : Work α) :=
  Law.refl

omit [Law law] in
/-- Work that does not fail keeps what the run of it keeps. -/
theorem keeps_lift {run : StateM Workbench α} (keeps : ∀ before, law before (run.run before).2) :
    Keeps law (liftM run : Work α) :=
  keeps

theorem keeps_get : Keeps law (get : Work Workbench) :=
  Law.refl

omit [Law law] in
theorem keeps_modify {change : Workbench → Workbench} (keeps : ∀ bench, law bench (change bench)) :
    Keeps law (modify change) :=
  keeps

omit [Law law] in
theorem Keeps.after_returns {work : Work α} (keeps : Keeps law work) {before after : Workbench}
    {result : α} (returned : work.Returns before result after) : law before after := by
  have kept := keeps before
  rwa [show work.outcome before = (.ok result, after) from returned] at kept

omit [Law law] in
theorem Keeps.after_fails {work : Work α} (keeps : Keeps law work) {before after : Workbench}
    {interruption : Interruption Failure} (failed : work.Fails before interruption after) :
    law before after := by
  have kept := keeps before
  rwa [show work.outcome before = (.error interruption, after) from failed] at kept

theorem Keeps.bind {work : Work α} {next : α → Work β} (first : Keeps law work)
    (second : ∀ value, Keeps law (next value)) : Keeps law (work >>= next) := by
  intro before
  rw [ExceptT.outcome_bind]
  rcases ended : work.outcome before with ⟨interruption | value, middle⟩
  · exact first.after_fails ended
  · exact Law.trans (first.after_returns ended) (second value middle)

/-- What is kept from a state on holds throughout. -/
theorem Keeps.ensures {work : Work α} (keeps : Keeps law work) (first : Workbench) :
    work.Ensures (law first) fun _ => True :=
  fun before kept => ⟨Law.trans kept (keeps before), fun _ _ => trivial⟩

theorem keeps_mapM {items : List β} {step : β → Work α} (each : ∀ item, Keeps law (step item)) :
    Keeps law (items.mapM step) := by
  induction items with
  | nil => exact keeps_pure []
  | cons item items ih =>
      rw [List.mapM_cons]
      exact (each item).bind fun _ => ih.bind fun _ => keeps_pure _

theorem keeps_foldlM {items : List β} {step : α → β → Work α} {start : α}
    (each : ∀ value item, Keeps law (step value item)) : Keeps law (items.foldlM step start) := by
  induction items generalizing start with
  | nil => exact keeps_pure start
  | cons item items ih =>
      rw [List.foldlM_cons]
      exact (each start item).bind fun _ => ih

/-- The registry is consulted by accesses that keep it sound. -/
theorem keeps_consult {access : Registry.Access α} {good : α → Prop}
    (ensures : access.Ensures Registry.Sound good) : Keeps law (consult access) := by
  intro before
  have terms_sound (sound : before.terms.Sound) := (ensures before.terms sound).1
  rcases ended : access.outcome before.terms with ⟨reason | result, terms⟩
  · rw [ended] at terms_sound
    have failed : (consult access).outcome before = _ := consult_fails ended
    rw [failed]
    exact Law.consulted before terms terms_sound
  · rw [ended] at terms_sound
    have returned : (consult access).outcome before = _ := consult_returns ended
    rw [returned]
    exact Law.consulted before terms terms_sound

end Keeps

section Evaluation

variable {law : Workbench → Workbench → Prop} [Law law]

/-! ## Single orders -/

theorem keeps_nextSerial : Keeps law nextSerial :=
  keeps_get.bind fun _ =>
    (keeps_modify fun bench => Law.drawn bench _).bind fun _ => keeps_pure _

theorem keeps_newVar (name : String) : Keeps law (newVar name) :=
  keeps_nextSerial.bind fun _ => keeps_pure _

theorem keeps_log (line : String) : Keeps law (log line) :=
  keeps_modify fun bench => Law.logged bench _

theorem keeps_termForm (value : TypedTerm) : Keeps law (termForm value) :=
  (keeps_consult (Registry.ensures_registered value.term)).bind fun _ => keeps_pure _

theorem keeps_termText (value : TypedTerm) : Keeps law (termText value) :=
  keeps_consult ((Registry.ensures_registered value.term).bind fun _ _ =>
    Registry.ensures_render _)

theorem keeps_applyTyped (fn arg : TypedTerm) : Keeps law (consult (Registry.applyTyped fn arg)) :=
  keeps_consult (Registry.ensures_applyTyped fn arg)

theorem keeps_freeVars (expr : Object) : Keeps law (freeVars expr) := by
  rw [freeVars]
  split
  · exact keeps_pure _
  · exact keeps_raise _

theorem keeps_close (expr : Object) : Keeps law (close expr) := by
  cases expr with
  | term value => exact keeps_pure value
  | _ => exact (keeps_freeVars _).bind fun _ => keeps_raise _

theorem keeps_lookup (name : String) : Keeps law (lookup name) := by
  refine keeps_get.bind fun bench => ?_
  split
  · exact keeps_pure _
  · split
    · exact keeps_pure _
    · exact keeps_pure _
    · exact keeps_pure _
    · exact keeps_raise _

theorem keeps_libraryTerm (name : Datum) : Keeps law (libraryTerm name) := by
  rw [libraryTerm]
  split
  · split
    · exact keeps_pure _
    · exact keeps_raise _
  · exact keeps_raise _

/-! ## Tasks -/

section Tasks

variable {perform : Task → Work Object}

mutual

theorem keeps_constructorForm (performs : ∀ task, Keeps law (perform task)) (object : Object) :
    Keeps law (constructorForm perform object) := by
  cases object with
  | term value => exact keeps_termForm value
  | var x => exact keeps_pure _
  | app serial fn arg =>
      exact (keeps_constructorForm performs fn).bind fun _ =>
        (keeps_constructorForm performs arg).bind fun _ => keeps_pure _
  | foreign value => exact keeps_constructorFormOfExtra performs value

theorem keeps_constructorFormOfExtra (performs : ∀ task, Keeps law (perform task)) (value : Extra) :
    Keeps law (constructorFormOfExtra perform value) := by
  cases value with
  | function => exact keeps_pure _
  | combinator number name? =>
      refine (performs _).bind fun object => ?_
      cases object with
      | term value => exact keeps_termForm value
      | _ => exact keeps_raise _
  | datum place value => exact keeps_pure _
  | tuple serial items =>
      refine (keeps_constructorForms performs items).bind fun texts => ?_
      split <;> exact keeps_pure _
  | noKeywords => exact keeps_pure _

theorem keeps_constructorForms (performs : ∀ task, Keeps law (perform task))
    (objects : List Object) : Keeps law (constructorForms perform objects) := by
  cases objects with
  | nil => exact keeps_pure _
  | cons object objects =>
      exact (keeps_constructorForm performs object).bind fun _ =>
        (keeps_constructorForms performs objects).bind fun _ => keeps_pure _

end

variable (performs : ∀ task, Keeps law (perform task))

include performs

theorem keeps_textOfExtra (value : Extra) : Keeps law (textOfExtra perform value) := by
  cases value with
  | combinator number name? =>
      cases name? with
      | none => exact keeps_raise _
      | some name => exact keeps_pure _
  | datum place value => exact keeps_pure _
  | _ => exact keeps_constructorFormOfExtra performs _

theorem keeps_text (object : Object) : Keeps law (text perform object) := by
  induction object with
  | term value => exact keeps_termText value
  | var x => exact keeps_pure _
  | app serial fn arg fn_ih arg_ih =>
      exact fn_ih.bind fun _ => arg_ih.bind fun _ => keeps_pure _
  | foreign value => exact keeps_textOfExtra performs value

theorem keeps_convert (object : Object) : Keeps law ((assembly perform).convert object) := by
  cases object with
  | foreign value => exact performs _
  | _ => exact keeps_pure _

omit performs in
theorem keeps_join (fn arg : Object) : Keeps law ((assembly perform).join fn arg) := by
  rcases Assembly.join_cases fn arg with ⟨f, a, rfl, rfl⟩ | apart
  · exact (keeps_applyTyped f a).bind fun _ => keeps_pure _
  · rw [Assembly.join_apart _ apart]
    exact keeps_nextSerial.bind fun _ => keeps_pure _

theorem keeps_appAll (first : Object) (rest : List Object) :
    Keeps law ((assembly perform).app first rest) :=
  (keeps_convert performs first).bind fun _ =>
    (keeps_mapM fun object => keeps_convert performs object).bind fun _ =>
      keeps_foldlM fun fn arg => keeps_join fn arg

theorem keeps_abstract? (x : Var) (body : Object) :
    Keeps law ((assembly perform).abstract? x body) := by
  induction body with
  | term value => exact keeps_pure _
  | var y => exact keeps_pure _
  | foreign value => exact keeps_pure _
  | app serial fn arg fn_ih arg_ih =>
      refine fn_ih.bind fun fnAbs => arg_ih.bind fun argAbs => ?_
      have distributes (f a : Object) :
          Keeps law (do return some (← (assembly perform).app (.term .S) [f, a])) :=
        (keeps_appAll performs _ _).bind fun _ => keeps_pure _
      cases fnAbs with
      | none =>
          cases argAbs with
          | none => exact keeps_pure _
          | some argAbs =>
              dsimp only
              split
              · exact keeps_pure _
              · exact (keeps_appAll performs _ _).bind fun _ => distributes _ _
      | some fnAbs =>
          cases argAbs with
          | none => exact (keeps_appAll performs _ _).bind fun _ => distributes _ _
          | some argAbs => exact distributes _ _

theorem keeps_note (x : Var) (body abstraction : Object) :
    Keeps law ((assembly perform).note x body abstraction) :=
  (keeps_text performs body).bind fun _ => (keeps_text performs abstraction).bind fun _ =>
    keeps_log _

theorem keeps_abstract (x : Var) (body : Object) :
    Keeps law ((assembly perform).abstract x body) := by
  refine (keeps_abstract? performs x body).bind fun found => ?_
  cases found with
  | some abstraction => exact (keeps_note performs _ _ _).bind fun _ => keeps_pure _
  | none =>
      exact (keeps_appAll performs _ _).bind fun _ =>
        (keeps_note performs _ _ _).bind fun _ => keeps_pure _

theorem keeps_callFunction (signature : Signature Object) (body : Expr) (scope : Scope)
    (args : List Object) : Keeps law (callFunction perform signature body scope args) := by
  refine keeps_nextSerial.bind fun serial => ?_
  split
  · exact performs _
  · exact keeps_raise _

theorem keeps_compileFunction (name : String) (signature : Signature Object) (body : Expr)
    (scope : Scope) : Keeps law (compileFunction perform name signature body scope) := by
  rw [compileFunction]
  split
  · exact keeps_raise _
  · refine (keeps_mapM fun _ => keeps_newVar _).bind fun xs => ?_
    refine (keeps_callFunction performs signature body scope _).bind fun result => ?_
    refine (keeps_convert performs result).bind fun expr => ?_
    refine (keeps_text performs expr).bind fun _ => (keeps_log _).bind fun _ => ?_
    exact keeps_foldlM fun body x => keeps_abstract performs x body

theorem keeps_compile (object : Object) : Keeps law (compile perform object) := by
  cases object with
  | foreign value =>
      cases value with
      | function serial name signature body scope =>
          exact (keeps_compileFunction performs name signature body scope).bind fun expr =>
            keeps_close expr
      | combinator number name? => exact (keeps_text performs _).bind fun _ => keeps_raise _
      | _ => exact keeps_raise _
  | _ => exact (keeps_text performs _).bind fun _ => keeps_raise _

theorem keeps_termOf (number : Nat) : Keeps law (termOf perform number) :=
  Law.asked (keeps_compile performs)

theorem keeps_readExtra (value : Extra) : Keeps law (readExtra perform value) := by
  cases value with
  | function serial name signature body scope =>
      exact keeps_compileFunction performs name signature body scope
  | combinator number name? => exact (keeps_termOf performs number).bind fun _ => keeps_pure _
  | _ => exact (keeps_constructorFormOfExtra performs _).bind fun _ => keeps_raise _

theorem keeps_app (objects : List Object) : Keeps law (app perform objects) := by
  cases objects with
  | nil => exact keeps_raise _
  | cons first rest => exact keeps_appAll performs first rest

theorem keeps_call (callee : Object) (args : List Object) :
    Keeps law (call perform callee args) := by
  cases callee with
  | foreign value =>
      cases value with
      | function serial name signature body scope =>
          exact keeps_callFunction performs signature body scope args
      | combinator number name? =>
          exact (keeps_termOf performs number).bind fun _ => keeps_app performs _
      | _ => exact keeps_raise _
  | _ => exact keeps_app performs _

theorem keeps_infixApp (fn arg : Object) : Keeps law (infixApp perform fn arg) := by
  rw [infixApp.eq_def]
  split
  · exact keeps_app performs _
  · split
    · exact keeps_app performs _
    · exact keeps_raise _

theorem keeps_wrap (object : Object) : Keeps law (wrap perform object) := by
  have adds (name? : Option String) : Keeps law (wrap.add object name?) :=
    keeps_get.bind fun _ =>
      (keeps_modify fun bench => Law.wrapped bench object name?).bind fun _ => keeps_pure _
  cases object with
  | foreign value =>
      cases value with
      | function serial name => exact adds (some name)
      | combinator number name? => exact keeps_pure _
      | _ => exact (keeps_textOfExtra performs _).bind fun _ => keeps_raise _
  | _ => exact adds none

theorem keeps_performForm (form : Form) (objects : List Object) :
    Keeps law (performForm perform form objects) := by
  rw [performForm.eq_def]
  split
  · exact keeps_app performs _
  · exact keeps_call performs _ _
  · exact keeps_infixApp performs _ _
  · exact keeps_nextSerial.bind fun _ => keeps_pure _
  · exact keeps_convert performs _
  · exact keeps_abstract performs _ _
  · exact keeps_raise _
  · exact keeps_wrap performs _
  · exact (keeps_termOf performs _).bind fun _ => keeps_pure _
  · exact keeps_raise _
  · exact keeps_raise _

theorem keeps_evaluateExpr (scope : Scope) (expr : Expr) :
    Keeps law (evaluateExpr perform scope expr) := by
  cases expr with
  | name name =>
      rw [evaluateExpr]
      split
      · exact keeps_pure _
      · exact keeps_lookup name
  | newVar name => exact (keeps_newVar name).bind fun _ => keeps_pure _
  | library name => exact keeps_libraryTerm name
  | datum place value => exact keeps_pure _
  | function name signature body => exact keeps_nextSerial.bind fun _ => keeps_pure _
  | form form parts =>
      exact (keeps_mapM fun _ => performs _).bind fun objects => keeps_performForm performs form _

end Tasks

/-- Tasks keep every law, however many steps they are granted. -/
theorem keeps_perform (steps : Nat) (task : Task) : Keeps law (perform steps task) := by
  induction steps generalizing task with
  | zero => exact keeps_throw _
  | succ steps ih =>
      cases task with
      | evaluate scope expr => exact keeps_evaluateExpr ih scope expr
      | read value => exact keeps_readExtra ih value

/-! ## Requests -/

section Requests

variable {perform : Task → Work Object} (performs : ∀ task, Keeps law (perform task))

include performs

theorem preserves_text? (object : Object) (first : Workbench) :
    StateT.Preserves (law first) (text? perform object) :=
  (StateT.preserves_run ((keeps_text performs object).ensures first)).bind
    fun _ => StateT.preserves_pure _

theorem preserves_report (failure : Failure) (first : Workbench) :
    StateT.Preserves (law first) (report perform failure) := by
  cases failure with
  | notAVariable object => exact preserves_text? performs object first
  | notAnExpression value => exact preserves_text? performs _ first
  | term reason =>
      exact fun before kept =>
        Law.trans kept (Law.consulted before _ (Registry.preserves_report reason before.terms))
  | _ => exact StateT.preserves_pure _

theorem keeps_exhibit (object : Object) : Keeps law (exhibit perform object) := by
  cases object with
  | app serial fn arg =>
      have reported (before : Workbench) := Effect.preserves_reported
        ((keeps_text performs (.app serial fn arg)).ensures before)
        (fun failure => preserves_report performs failure before) before (Law.refl before)
      exact Keeps.bind (keeps_lift reported) fun _ => keeps_pure _
  | foreign value =>
      cases value with
      | tuple serial items => exact (keeps_text performs _).bind fun _ => keeps_pure _
      | _ => exact keeps_pure _
  | _ => exact keeps_pure _

theorem keeps_fulfil (request : Request) : Keeps law (request.fulfil perform) := by
  have binds (name : String) (object : Object) : Keeps law (bindName name object) :=
    keeps_modify fun bench => Law.named bench _
  cases request with
  | define name signature body =>
      exact (performs _).bind fun function => (keeps_wrap performs function).bind fun combinator =>
        (binds name combinator).bind fun _ => keeps_exhibit performs combinator
  | bind name expr =>
      exact (performs _).bind fun object =>
        (binds name object).bind fun _ => keeps_exhibit performs object
  | exhibit expr => exact (performs _).bind fun object => keeps_exhibit performs object
  | compile expr =>
      exact (performs _).bind fun object =>
        (keeps_compile performs object).bind fun _ => keeps_pure _
  | constructorForm expr =>
      exact (performs _).bind fun object =>
        (keeps_constructorForm performs object).bind fun _ => keeps_pure _
  | freeVars expr =>
      exact (performs _).bind fun object => (keeps_freeVars object).bind fun _ => keeps_pure _
  | same left right =>
      exact (performs _).bind fun _ => (performs _).bind fun _ => keeps_pure _

end Requests

/-- Working through a request keeps every law. -/
theorem keeps_run_request (steps : Nat) (request : Request) (before : Workbench) :
    law before ((request.run steps).run before).2 := by
  have cleared : StateT.Preserves (law before) (modify fun bench => { bench with log := [] }) :=
    fun bench kept => Law.trans kept (Law.logged bench [])
  have performs (task : Task) : Keeps law (perform steps task) := keeps_perform steps task
  have fulfilled := Effect.preserves_reported ((keeps_fulfil performs request).ensures before)
    fun failure => preserves_report performs failure before
  have worked : StateT.Preserves (law before) (request.run steps) :=
    cleared.bind fun _ => fulfilled.bind fun _ _ kept => kept
  exact worked before (Law.refl before)

end Evaluation

/-! ## The states of a session -/

/-- The registry of the session is sound. -/
def Workbench.Sound (bench : Workbench) : Prop :=
  bench.terms.Sound

/-- The registry is sound afterwards if it is before. -/
def Workbench.StaysSound (before after : Workbench) : Prop :=
  before.Sound → after.Sound

instance : Law Workbench.StaysSound where
  refl _ := id
  trans first second := second ∘ first
  drawn _ _ := id
  logged _ _ := id
  named _ _ := id
  consulted _ _ sound := sound
  wrapped _ _ _ := id
  asked {perform number} compiles before sound := by
    have answer := answer_termOf perform before number
    generalize (termOf perform number).outcome before = ended at answer
    cases answer with
    | absent | kept | refused => exact sound
    | completed _ _ _ compiled =>
        have kept : Workbench.StaysSound _ _ := (compiles _).after_returns compiled
        exact kept sound
    | abandoned _ _ _ failed =>
        have kept : Workbench.StaysSound _ _ := (compiles _).after_fails failed
        exact kept sound

/-- A state that a session gets to, between two requests or while it works through one. -/
inductive Workbench.Reachable : Workbench → Prop
  /-- The state in which a session begins. -/
  | initial : Reachable .initial
  /-- A request has been worked through. -/
  | request {before : Workbench} (reachable : before.Reachable) (steps : Nat) (request : Request) :
      Reachable ((request.run steps).run before).2
  /-- A request has been taken up, for which the log is empty. -/
  | begun {before : Workbench} (reachable : before.Reachable) : Reachable { before with log := [] }
  /-- An expression has been evaluated, with a result or without one. -/
  | evaluated {before : Workbench} (reachable : before.Reachable) (steps : Nat) (expr : Expr) :
      Reachable ((perform steps (.evaluate [] expr)).outcome before).2

/-- A session has a sound registry in every state that it gets to. -/
theorem Workbench.Reachable.sound {bench : Workbench} (reachable : bench.Reachable) :
    bench.Sound := by
  induction reachable with
  | initial => exact Registry.sound_initial
  | request _ steps request before_sound =>
      have kept (bench : Workbench) : bench.StaysSound ((request.run steps).run bench).2 :=
        keeps_run_request steps request bench
      exact kept _ before_sound
  | begun _ before_sound => exact before_sound
  | evaluated _ steps expr before_sound =>
      have kept : Keeps Workbench.StaysSound (perform steps (.evaluate [] expr)) :=
        keeps_perform steps _
      exact kept _ before_sound

end Lambda
end Combinatory
