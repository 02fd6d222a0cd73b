import Combinatory.Lambda.Compile
import Combinatory.Proofs.Lambda.Binding
import Combinatory.Proofs.Lambda.Calculus

/-!
# Functions read as lambda terms

A function is read as a lambda term if it takes parameters by position and its body is put together
from its parameters, from names and library terms that stand for closed terms, from applications and
from functions of the same kind. Parameters become variables of which no two are the same, so names
may be used again.
-/

namespace Combinatory
namespace Lambda

/-- The closed term that a name stands for where no parameter has it. -/
def closed? (outer session : Scope) (name : String) : Option TypedTerm :=
  match (outer.lookup name).or (session.lookup name) with
  | some (.term value) => some value
  | some _ => none
  | none =>
      match name with
      | "S" => some .S
      | "K" => some .K
      | "I" => some .I
      | _ => none

namespace Expr

/-- Is the expression a function? -/
def isFunction : Expr → Bool
  | function _ _ _ => true
  | _ => false

/-- The expression, which reads as the lambda term, is open: it has a free variable and is no
function. -/
def IsOpen (expr : Expr) (term : LambdaTerm) : Prop :=
  expr.isFunction = false ∧ ∃ x, term.Free x

/-- The number of nested functions and forms around the most deeply nested part. -/
def nesting : Expr → Nat
  | function _ _ body => body.nesting + 1
  | form _ parts => nestings parts + 1
  | _ => 1
where
  /-- The nesting of the most deeply nested of several parts. -/
  nestings : List Expr → Nat
    | [] => 0
    | part :: parts => max part.nesting (nestings parts)

theorem nesting_pos (expr : Expr) : 0 < expr.nesting := by
  cases expr <;> exact Nat.succ_pos _

end Expr

/-- The parts of the form, which read as the lambda terms, are applied to one another. A function is
called by application only, and the infix operator applies it to open expressions and them to it. -/
inductive Applies : Form → Expr → LambdaTerm → List Expr → List LambdaTerm → Prop
  /-- Expressions are applied in turn. -/
  | app {head : Expr} {fn : LambdaTerm} {args : List Expr} {terms : List LambdaTerm} :
      Applies .app head fn args terms
  /-- An expression is called. -/
  | call {head : Expr} {fn : LambdaTerm} {args : List Expr} {terms : List LambdaTerm}
      (no_function : head.isFunction = false) : Applies .call head fn args terms
  /-- Two expressions that are no functions, or of which one is open. -/
  | infixApp {head second : Expr} {fn arg : LambdaTerm}
      (operand : head.isFunction = false ∧ second.isFunction = false ∨
        head.IsOpen fn ∨ second.IsOpen arg) :
      Applies .infixApp head fn [second] [arg]

mutual

/-- The expression reads as the lambda term, where parameters are the given variables and other
names stand for closed terms. -/
inductive Reads (names : String → Option TypedTerm) :
    List (String × Var) → Expr → LambdaTerm → Prop
  /-- A name that a parameter has is its variable. -/
  | parameter {vars : List (String × Var)} {name : String} {x : Var}
      (bound : vars.lookup name = some x) : Reads names vars (.name name) (.var x)
  /-- Another name is its closed term. -/
  | closed {vars : List (String × Var)} {name : String} {value : TypedTerm}
      (unbound : vars.lookup name = none) (found : names name = some value) :
      Reads names vars (.name name) (.const value)
  /-- A term of the library. -/
  | library {vars : List (String × Var)} {name : Datum} {term : Term} {value : TypedTerm}
      (found : Library.lookup? name = .ok term) (typed : TypedTerm.ofTerm? term = .ok value) :
      Reads names vars (.library name) (.const value)
  /-- A function is one of as many new variables as it has parameters. -/
  | function {vars : List (String × Var)} {name : String} {parameters : List String} {body : Expr}
      {xs : List Var} {term : LambdaTerm} (enough : xs.length = parameters.length)
      (distinct : xs.Nodup) (fresh : ∀ x ∈ xs, x ∉ vars.map Prod.snd)
      (body_reads : Reads names (parameters.zip xs ++ vars) body term) :
      Reads names vars (.function name (.plain parameters) body) (.lams xs term)
  /-- Parts that are applied to one another. -/
  | application {vars : List (String × Var)} {form : Form} {head : Expr} {args : List Expr}
      {fn : LambdaTerm} {terms : List LambdaTerm} (applies : Applies form head fn args terms)
      (head_reads : Reads names vars head fn) (args_read : ReadAll names vars args terms) :
      Reads names vars (.form form (head :: args)) (fn.apps terms)

/-- The expressions read as the lambda terms, one by one. -/
inductive ReadAll (names : String → Option TypedTerm) :
    List (String × Var) → List Expr → List LambdaTerm → Prop
  /-- No expressions. -/
  | nil {vars : List (String × Var)} : ReadAll names vars [] []
  /-- One expression more. -/
  | cons {vars : List (String × Var)} {expr : Expr} {exprs : List Expr} {term : LambdaTerm}
      {terms : List LambdaTerm} (reads : Reads names vars expr term)
      (others_read : ReadAll names vars exprs terms) :
      ReadAll names vars (expr :: exprs) (term :: terms)

end

theorem mem_vars_of_lookup {vars : List (String × Var)} {name : String} {x : Var}
    (bound : vars.lookup name = some x) : x ∈ vars.map Prod.snd := by
  obtain ⟨first, rest, rfl, -⟩ := List.lookup_eq_some_iff.mp bound
  simp

mutual

/-- Only variables of parameters are free in what an expression reads as. -/
theorem Reads.mem_of_free {names : String → Option TypedTerm} {vars : List (String × Var)}
    {expr : Expr} {term : LambdaTerm} (reads : Reads names vars expr term) {y : Var}
    (free : term.Free y) : y ∈ vars.map Prod.snd := by
  cases reads with
  | @parameter _ name x bound =>
      obtain rfl : x = y := free
      exact mem_vars_of_lookup bound
  | closed => exact free.elim
  | library => exact free.elim
  | @function _ _ parameters _ xs _ enough _ _ body_reads =>
      obtain ⟨body_free, outside⟩ := LambdaTerm.free_lams_iff.mp free
      have mem := body_reads.mem_of_free body_free
      rw [List.map_append, List.map_snd_zip (Nat.le_of_eq enough)] at mem
      exact (List.mem_append.mp mem).resolve_left outside
  | application _ head_reads args_read =>
      rcases LambdaTerm.free_apps_iff.mp free with fn_free | ⟨arg, arg_mem, arg_free⟩
      · exact head_reads.mem_of_free fn_free
      · exact args_read.mem_of_free arg_mem arg_free

theorem ReadAll.mem_of_free {names : String → Option TypedTerm} {vars : List (String × Var)}
    {exprs : List Expr} {terms : List LambdaTerm} (reads : ReadAll names vars exprs terms)
    {term : LambdaTerm} (mem : term ∈ terms) {y : Var} (free : term.Free y) :
    y ∈ vars.map Prod.snd := by
  cases reads with
  | nil => cases mem
  | cons first_reads others_read =>
      cases mem with
      | head => exact first_reads.mem_of_free free
      | tail _ mem => exact others_read.mem_of_free mem free

end

end Lambda
end Combinatory
