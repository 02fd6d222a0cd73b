import Combinatory.Term.Basic
import Combinatory.Ty.Matching
import Combinatory.Ty.Printing

/-!
# Principal types

Every atom has a type scheme, and an application gets its type by solving one equation: a fresh copy
of the type of the function must be the type of functions from a fresh copy of the type of the
argument. The solution is most general, so the type found is principal: the other types of the term
are its instances. Arguments are typed before functions.

A `TypedTerm` is a term together with its principal type. Typed terms are put together by `app?`,
which looks at the two types only.
-/

namespace Combinatory

/-- An application that has no type, between terms of some kind. -/
structure IllTyped (τ : Type) where
  /-- The function part. -/
  fn : τ
  /-- The argument part. -/
  arg : τ
  /-- The principal type of the function part. -/
  fnType : Ty
  /-- The principal type of the argument part. -/
  argType : Ty
  /-- Why the equation between them has no solution. -/
  reason : UnificationFailure
  deriving Inhabited

namespace IllTyped

/-- The same refusal, told about other forms of the two terms. -/
def map {τ υ : Type} (form : τ → υ) (refusal : IllTyped τ) : IllTyped υ :=
  { fn := form refusal.fn
    arg := form refusal.arg
    fnType := refusal.fnType
    argType := refusal.argType
    reason := refusal.reason }

/-- The report on an application that has no type, its drawn variables numbered from zero. -/
def report (fnText argText : String) (fnType argType : Ty) (reason : UnificationFailure) : String :=
  "\n  ".intercalate
    [ "Ill-typed application",
      "function: " ++ fnText ++ " : " ++ fnType.pretty,
      "argument: " ++ argText ++ " : " ++ argType.pretty,
      reason.renumber.message ]

/-- What is reported about an ill-typed application of combinator terms. -/
def message (refusal : IllTyped Term) : String :=
  report refusal.fn.render refusal.arg.render refusal.fnType refusal.argType refusal.reason

end IllTyped

namespace Ty

/-- The type of `S`. -/
def distributor : Ty :=
  arrows [arrows [var "a", var "b"] (var "c"), arrow (var "a") (var "b"), var "a"] (var "c")

/-- The type of `K`. -/
def constant : Ty :=
  arrows [var "a", var "b"] (var "a")

/-- The type of `I`. -/
def identity : Ty :=
  arrow (var "a") (var "a")

/--
The principal type of an application, by the principal types of its parts: a variable is drawn for
the result, then copies of the argument's and the function's type are drawn, and the equation
between them is solved.
-/
def applied (supply : Supply) (fnType argType : Ty) : Except UnificationFailure Ty :=
  let draw : StateM Supply (Ty × Ty × Ty) := do
    let result ← Supply.fresh
    let dom ← Supply.instantiate argType
    let fn ← Supply.instantiate fnType
    return (result, dom, fn)
  let (result, dom, fn) := (draw.run supply).1
  match Subst.empty.unify fn (arrow dom result) with
  | .ok subst => .ok (subst.resolve result).canonicalize
  | .error failure => .error failure

end Ty

namespace Term

/-- The principal type of a term, with variables drawn from the given supply. -/
def typeFrom (supply : Supply) : Term → Except (IllTyped Term) Ty
  | S => .ok Ty.distributor
  | K => .ok Ty.constant
  | I => .ok Ty.identity
  | app fn arg => do
      let argType ← arg.typeFrom supply
      let fnType ← fn.typeFrom supply
      match Ty.applied supply fnType argType with
      | .ok type => .ok type
      | .error reason => .error { fn, arg, fnType, argType, reason }

/-- The principal type of a term. -/
def typeOf (term : Term) : Except (IllTyped Term) Ty :=
  term.typeFrom .start

end Term

/-- A term with its principal type. -/
structure TypedTerm where
  /-- The term. -/
  term : Term
  /-- Its principal type. -/
  type : Ty
  /-- The type is the one that inference finds. -/
  typed : term.typeOf = .ok type

namespace TypedTerm

instance : BEq TypedTerm := ⟨fun left right => left.term == right.term⟩

/-- The typed form of a term that has a type. -/
def ofTerm? (term : Term) : Except (IllTyped Term) TypedTerm :=
  match typed : term.typeOf with
  | .ok type => .ok { term, type, typed }
  | .error refusal => .error refusal

/-- The typed form of `S`. -/
def S : TypedTerm := { term := .S, type := Ty.distributor, typed := rfl }

/-- The typed form of `K`. -/
def K : TypedTerm := { term := .K, type := Ty.constant, typed := rfl }

/-- The typed form of `I`. -/
def I : TypedTerm := { term := .I, type := Ty.identity, typed := rfl }

instance : Inhabited TypedTerm := ⟨I⟩

/-- The application of one typed term to another, if it has a type. -/
def app? (fn arg : TypedTerm) : Except (IllTyped Term) TypedTerm :=
  match applied : Ty.applied .start fn.type arg.type with
  | .ok type =>
      .ok
        { term := .app fn.term arg.term
          type
          typed := by
            have fn_typed : fn.term.typeFrom .start = .ok fn.type := fn.typed
            have arg_typed : arg.term.typeFrom .start = .ok arg.type := arg.typed
            simp [Term.typeOf, Term.typeFrom, fn_typed, arg_typed, applied, bind, Except.bind] }
  | .error reason =>
      .error { fn := fn.term, arg := arg.term, fnType := fn.type, argType := arg.type, reason }

/-- The application, or the first term under `K`, which has a type whatever the second one is. -/
def applyOrKeep? (fn arg : TypedTerm) : Except (IllTyped Term) TypedTerm :=
  match fn.app? arg with
  | .ok application => .ok application
  | .error _ => do
      let kept ← K.app? fn
      kept.app? arg

/-- The same term, provided that the given type is an instance of its principal type. -/
def annotate? (typed : TypedTerm) (type : Ty) : Option TypedTerm :=
  if type.isInstance typed.type then some typed else none

end TypedTerm
end Combinatory
