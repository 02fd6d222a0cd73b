import Combinatory.Term.Typing

/-!
# Pools of typed terms

A pool begins with the atoms and grows by applications of its members, chosen by index. An
application that has no type is refused, or kept as its first part under `K`.
-/

namespace Combinatory

/-- The typed terms built so far, by index. -/
structure Pool where
  /-- The members. -/
  members : Array TypedTerm

namespace Pool

/-- The pool of the atoms. -/
def atoms : Pool := ⟨#[.S, .K, .I]⟩

/-- Why a pool does not grow. -/
inductive Failure where
  /-- There is no member with this index. -/
  | noMember
  /-- The application has no type. -/
  | illTyped (refusal : IllTyped Term)

/-- The member with an index; there is none with a negative one. -/
def get? (pool : Pool) (index : Int) : Except Failure TypedTerm :=
  match index with
  | .ofNat index =>
      match pool.members[index]? with
      | some member => .ok member
      | none => .error .noMember
  | .negSucc _ => .error .noMember

/-- Apply one member to another and add the result, keeping ill-typed applications under `K` if that
is asked for. -/
def grow (keep : Bool) (pool : Pool) (fn arg : Int) : Except Failure (TypedTerm × Pool) := do
  let fn ← pool.get? fn
  let arg ← pool.get? arg
  match (if keep then fn.applyOrKeep? arg else fn.app? arg) with
  | .ok member => return (member, ⟨pool.members.push member⟩)
  | .error refusal => throw (.illTyped refusal)

end Pool
end Combinatory
