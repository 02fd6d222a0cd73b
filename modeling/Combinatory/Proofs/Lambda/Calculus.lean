import Combinatory.Proofs.Lambda.Typing

/-!
# Lambda terms

Lambda terms over closed combinator terms, and the expressions they are compiled to when nothing but
a missing type can go wrong. A lambda term without free variables is compiled to a closed term if it
has a simple type, and cannot be compiled otherwise. All its types are types of the closed term.
-/

namespace Combinatory

/-- A lambda term over closed combinator terms. -/
inductive LambdaTerm where
  /-- A variable. -/
  | var (x : Var)
  /-- A closed combinator term. -/
  | const (value : TypedTerm)
  /-- An application. -/
  | app (fn arg : LambdaTerm)
  /-- A function of one variable. -/
  | lam (x : Var) (body : LambdaTerm)

namespace LambdaTerm

open Function (update)
open Assembly (closed)

/-- A function of several variables. -/
def lams (xs : List Var) (body : LambdaTerm) : LambdaTerm :=
  xs.foldr lam body

/-- A lambda term applied to several others in turn. -/
def apps (fn : LambdaTerm) (args : List LambdaTerm) : LambdaTerm :=
  args.foldl app fn

/-- Does the variable occur free in the lambda term? -/
def Free (y : Var) : LambdaTerm → Prop
  | var x => x = y
  | const _ => False
  | app fn arg => fn.Free y ∨ arg.Free y
  | lam x body => body.Free y ∧ y ≠ x

/-- The expression that the lambda term is compiled to, or the first application without a type. -/
def compile : LambdaTerm → Except (IllTyped Term) (Open Empty)
  | var x => .ok (.var x)
  | const value => .ok (.term value)
  | app fn arg => do
      let fn ← fn.compile
      let arg ← arg.compile
      closed.join fn arg
  | lam x body => do
      let body ← body.compile
      closed.abstract x body

theorem free_lams_iff {xs : List Var} {body : LambdaTerm} {y : Var} :
    (lams xs body).Free y ↔ body.Free y ∧ y ∉ xs := by
  induction xs with
  | nil => simp [lams]
  | cons x xs ih =>
      change (lams xs body).Free y ∧ y ≠ x ↔ _
      rw [ih, List.mem_cons, not_or, and_assoc, and_comm (a := y ∉ xs)]

theorem free_apps_iff {fn : LambdaTerm} {args : List LambdaTerm} {y : Var} :
    (fn.apps args).Free y ↔ fn.Free y ∨ ∃ arg ∈ args, arg.Free y := by
  induction args generalizing fn with
  | nil => simp [apps]
  | cons arg args ih =>
      change ((fn.app arg).apps args).Free y ↔ _
      simp [ih, Free, or_assoc]

/-- A function of several variables is compiled by abstracting all of them from its body. -/
theorem compile_lams (xs : List Var) (body : LambdaTerm) :
    (lams xs body).compile = body.compile >>= closed.abstractAll xs := by
  induction xs with
  | nil => exact (bind_pure _).symm
  | cons x xs ih =>
      change ((lams xs body).compile >>= closed.abstract x) = _
      rw [ih, funext (closed.abstractAll_cons x xs), bind_assoc]

/-- Compiling all parts first makes no difference to what an application is compiled to. -/
theorem compile_apps_ok_iff {fn : LambdaTerm} {args : List LambdaTerm} {expr : Open Empty} :
    (fn.apps args).compile = .ok expr ↔
      (do let fn ← fn.compile
          let args ← args.mapM compile
          closed.app fn args) = .ok expr := by
  induction args generalizing fn with
  | nil => simp [apps, Assembly.closed_app]
  | cons arg args ih =>
      change ((fn.app arg).apps args).compile = .ok expr ↔ _
      rw [ih]
      simp only [compile, Assembly.closed_app, List.mapM_cons, Assembly.bind_eq_ok]
      constructor
      · rintro ⟨joined, ⟨f, fn_ok, a, arg_ok, join_ok⟩, rest, rest_ok, ok⟩
        refine ⟨f, fn_ok, a :: rest, ⟨a, arg_ok, rest, rest_ok, rfl⟩, ?_⟩
        rw [List.foldlM_cons]
        exact Assembly.bind_eq_ok.mpr ⟨joined, join_ok, ok⟩
      · rintro ⟨f, fn_ok, _, ⟨a, arg_ok, rest, rest_ok, ⟨⟩⟩, ok⟩
        rw [List.foldlM_cons] at ok
        obtain ⟨joined, join_ok, ok⟩ := Assembly.bind_eq_ok.mp ok
        exact ⟨joined, ⟨f, fn_ok, a, arg_ok, join_ok⟩, rest, rest_ok, ok⟩

/-- The lambda term has the type in the context. -/
inductive HasType : (Var → Ty) → LambdaTerm → Ty → Prop
  /-- A variable has the type that the context gives it. -/
  | var {context : Var → Ty} (x : Var) : HasType context (.var x) (context x)
  /-- A closed term has any instance of its principal type. -/
  | const {context : Var → Ty} {value : TypedTerm} {type : Ty}
      (instance_of : type.isInstance value.type = true) : HasType context (.const value) type
  /-- An application has the codomain of its function's type, the argument having the domain. -/
  | app {context : Var → Ty} {fn arg : LambdaTerm} {dom cod : Ty}
      (fn_typed : HasType context fn (.arrow dom cod)) (arg_typed : HasType context arg dom) :
      HasType context (.app fn arg) cod
  /-- A function has the type of functions from the type of its variable to that of its body. -/
  | lam {context : Var → Ty} {x : Var} {body : LambdaTerm} {dom cod : Ty}
      (body_typed : HasType (update context x dom) body cod) :
      HasType context (.lam x body) (.arrow dom cod)

theorem hasType_var_iff {context : Var → Ty} {x : Var} {type : Ty} :
    (var x).HasType context type ↔ type = context x := by
  constructor
  · intro typed
    cases typed
    rfl
  · rintro rfl
    exact .var x

theorem HasType.bind {context : Var → Ty} {term : LambdaTerm} {type : Ty}
    (typed : term.HasType context type) (replacement : String → Ty) :
    term.HasType (fun x => (context x).bind replacement) (type.bind replacement) := by
  induction typed with
  | var x => exact .var x
  | const instance_of =>
      have derivable := TypedTerm.hasType_iff.mpr instance_of
      exact .const (TypedTerm.hasType_iff.mp (derivable.bind replacement))
  | app _ _ fn_ih arg_ih => exact .app fn_ih arg_ih
  | @lam context x body dom cod body_typed body_ih =>
      rw [Open.bind_update] at body_ih
      exact .lam body_ih

/-- Only the free variables of a lambda term matter to its types. -/
theorem HasType.congr {context other : Var → Ty} {term : LambdaTerm} {type : Ty}
    (typed : term.HasType context type) (agree : ∀ x, term.Free x → context x = other x) :
    term.HasType other type := by
  induction typed generalizing other with
  | var x =>
      rw [agree x rfl]
      exact .var x
  | const instance_of => exact .const instance_of
  | app _ _ fn_ih arg_ih =>
      exact .app (fn_ih fun x free => agree x (.inl free))
        (arg_ih fun x free => agree x (.inr free))
  | @lam context x body dom cod _ body_ih =>
      refine .lam (body_ih fun y free => ?_)
      by_cases same : y = x
      · rw [same, Function.update_self, Function.update_self]
      · rw [Function.update_of_ne same, Function.update_of_ne same]
        exact agree y ⟨free, same⟩

section Compilation

variable {term : LambdaTerm} {expr : Open Empty}

/-! ## Variables -/

theorem compile_mentions (ok : term.compile = .ok expr) (y : Var) :
    expr.Mentions y ↔ term.Free y := by
  induction term generalizing expr with
  | var x =>
      obtain rfl := Except.ok.inj ok
      rfl
  | const value =>
      obtain rfl := Except.ok.inj ok
      rfl
  | app fn arg fn_ih arg_ih =>
      obtain ⟨fnExpr, fn_ok, ok⟩ := Assembly.bind_eq_ok.mp ok
      obtain ⟨argExpr, arg_ok, ok⟩ := Assembly.bind_eq_ok.mp ok
      rw [Assembly.closed_join_mentions ok, fn_ih fn_ok, arg_ih arg_ok]
      rfl
  | lam x body body_ih =>
      obtain ⟨bodyExpr, body_ok, ok⟩ := Assembly.bind_eq_ok.mp ok
      rw [(Assembly.eliminates_of_abstract ok).mentions, body_ih body_ok]
      rfl

theorem compile_joined (ok : term.compile = .ok expr) : expr.Joined := by
  induction term generalizing expr with
  | var x =>
      obtain rfl := Except.ok.inj ok
      trivial
  | const value =>
      obtain rfl := Except.ok.inj ok
      trivial
  | app fn arg fn_ih arg_ih =>
      obtain ⟨fnExpr, fn_ok, ok⟩ := Assembly.bind_eq_ok.mp ok
      obtain ⟨argExpr, arg_ok, ok⟩ := Assembly.bind_eq_ok.mp ok
      exact Assembly.closed_join_joined ok (fn_ih fn_ok) (arg_ih arg_ok)
  | lam x body body_ih =>
      obtain ⟨bodyExpr, body_ok, ok⟩ := Assembly.bind_eq_ok.mp ok
      exact (Assembly.eliminates_of_abstract ok).joined (body_ih body_ok)

/-- Without free variables a lambda term is compiled to a closed term, if at all. -/
theorem exists_compile_eq_term (closed_term : ∀ x, ¬ term.Free x) (ok : term.compile = .ok expr) :
    ∃ typed, expr = .term typed :=
  (compile_joined ok).exists_term fun x occurs => closed_term x ((compile_mentions ok x).mp occurs)

/-! ## Types -/

/-- A lambda term with a type is compiled to an expression of that type. -/
theorem HasType.compile {context : Var → Ty} {type : Ty} (typed : term.HasType context type) :
    ∃ expr, term.compile = .ok expr ∧ expr.HasType context type := by
  induction typed with
  | var x => exact ⟨_, rfl, .var x⟩
  | const instance_of => exact ⟨_, rfl, .term (TypedTerm.hasType_iff.mpr instance_of)⟩
  | app _ _ fn_ih arg_ih =>
      obtain ⟨fnExpr, fn_ok, fn_typed⟩ := fn_ih
      obtain ⟨argExpr, arg_ok, arg_typed⟩ := arg_ih
      obtain ⟨expr, ok⟩ := Assembly.exists_closed_join fn_typed arg_typed
      refine ⟨expr, ?_, (Assembly.closed_join_hasType ok).mpr ⟨_, fn_typed, arg_typed⟩⟩
      exact Assembly.bind_eq_ok.mpr ⟨fnExpr, fn_ok, Assembly.bind_eq_ok.mpr ⟨argExpr, arg_ok, ok⟩⟩
  | lam _ body_ih =>
      obtain ⟨bodyExpr, body_ok, body_typed⟩ := body_ih
      obtain ⟨expr, ok⟩ := Assembly.exists_closed_abstract body_typed
      refine ⟨expr, Assembly.bind_eq_ok.mpr ⟨bodyExpr, body_ok, ok⟩, ?_⟩
      exact (Assembly.eliminates_of_abstract ok).carries_and_recovers.1 _ _ _ body_typed

/-- Every type of a lambda term is an instance of the principal type of the closed term that it is
compiled to. -/
theorem HasType.isInstance {context : Var → Ty} {type : Ty} (typed : term.HasType context type)
    {value : TypedTerm} (ok : term.compile = .ok (.term value)) :
    type.isInstance value.type = true := by
  obtain ⟨expr, expr_ok, expr_typed⟩ := typed.compile
  obtain rfl : expr = .term value := Except.ok.inj (expr_ok.symm.trans ok)
  have derivable : value.term.HasType type := Open.hasType_term_iff.mp expr_typed
  exact TypedTerm.hasType_iff.mp derivable

/-- A closed term may have more types: that of a function applied to an argument is the identity. -/
example :
    (lams [⟨0, "f"⟩, ⟨1, "x"⟩] ((var ⟨0, "f"⟩).app (var ⟨1, "x"⟩))).compile = .ok (.term .I) := rfl

/-- The types of what a lambda term is compiled to become types of the lambda term, by some
replacement of type variables. -/
theorem hasType_of_compile {context : Var → Ty} {type : Ty} (ok : term.compile = .ok expr)
    (typed : expr.HasType context type) :
    ∃ replacement,
      term.HasType (fun x => (context x).bind replacement) (type.bind replacement) := by
  induction term generalizing expr context type with
  | var x =>
      obtain rfl := Except.ok.inj ok
      obtain rfl := Open.hasType_var_iff.mp typed
      exact ⟨.var, .var x⟩
  | const value =>
      obtain rfl := Except.ok.inj ok
      have derivable := (Open.hasType_term_iff.mp typed).bind .var
      exact ⟨.var, .const (TypedTerm.hasType_iff.mp derivable)⟩
  | app fn arg fn_ih arg_ih =>
      obtain ⟨fnExpr, fn_ok, ok⟩ := Assembly.bind_eq_ok.mp ok
      obtain ⟨argExpr, arg_ok, ok⟩ := Assembly.bind_eq_ok.mp ok
      obtain ⟨dom, fn_typed, arg_typed⟩ := (Assembly.closed_join_hasType ok).mp typed
      obtain ⟨first, fn_typed⟩ := fn_ih fn_ok fn_typed
      obtain ⟨second, arg_typed⟩ := arg_ih arg_ok (arg_typed.bind first)
      refine ⟨fun name => (first name).bind second, ?_⟩
      simp only [← Ty.bind_bind]
      exact .app (fn_typed.bind second) arg_typed
  | lam x body body_ih =>
      obtain ⟨bodyExpr, body_ok, ok⟩ := Assembly.bind_eq_ok.mp ok
      obtain ⟨first, dom, cod, type_eq, body_typed⟩ :=
        (Assembly.eliminates_of_abstract ok).carries_and_recovers.2 _ _ typed
      obtain ⟨second, body_typed⟩ := body_ih body_ok body_typed
      refine ⟨fun name => (first name).bind second, ?_⟩
      rw [Open.bind_update] at body_typed
      simp only [← Ty.bind_bind, type_eq]
      exact .lam body_typed

/-- A lambda term without free variables has a type exactly if it is compiled to a closed term. -/
theorem exists_hasType_iff (closed_term : ∀ x, ¬ term.Free x) (context : Var → Ty) :
    (∃ type, term.HasType context type) ↔ ∃ typed, term.compile = .ok (.term typed) := by
  constructor
  · rintro ⟨type, typed⟩
    obtain ⟨expr, ok, -⟩ := typed.compile
    obtain ⟨value, rfl⟩ := exists_compile_eq_term closed_term ok
    exact ⟨value, ok⟩
  · rintro ⟨value, ok⟩
    have value_typed : (Open.term value).HasType context value.type := .term value.hasType
    obtain ⟨replacement, typed⟩ := hasType_of_compile ok value_typed
    exact ⟨_, typed.congr fun y free => (closed_term y free).elim⟩

end Compilation

end LambdaTerm
end Combinatory
