import Combinatory.Ty.Matching
import Combinatory.Ty.Raw

/-!
# Substitutions as they are handed in

A raw substitution binds raw types, and its bound types stay as they were handed in. Where nothing
raw is involved, unification and matching are those of proper types.
-/

namespace Combinatory

/-- A finite map between raw types. Only its variables are ever looked up. A variable that is bound
to the literal for no value counts as unbound where bindings are followed. -/
structure RawSubst where
  /-- The bindings, each key at most once, the newest first. -/
  bindings : List (RawTy × RawTy)
  deriving Inhabited, Repr

namespace RawSubst

open RawTy (Failure)

instance : BEq RawSubst := ⟨fun left right => left.bindings == right.bindings⟩

/-- What a variable is bound to. -/
def stored? (subst : RawSubst) (x : RawTy) : Option RawTy :=
  subst.bindings.lookup x

/-- The type that a variable is bound to, where bindings are followed. -/
def get? (subst : RawSubst) (x : RawTy) : Option RawTy :=
  match subst.stored? x with
  | some (.alien (.literal .nothing)) => none
  | found? => found?

/-- The map without bindings. -/
def empty : RawSubst := ⟨[]⟩

/-- Bind a key, in place of any earlier binding of it. Of equal keys the first one is kept. -/
def insert (subst : RawSubst) (key type : RawTy) : RawSubst :=
  let kept := (subst.bindings.find? fun binding => binding.1 == key).map Prod.fst
  ⟨(kept.getD key, type) :: subst.bindings.filter fun binding => binding.1 != key⟩

/-- Bind a key, if it can be one. -/
def insert? (subst : RawSubst) (key type : RawTy) : Except Failure RawSubst :=
  match key.unkeyable? with
  | some reason => .error (.notAKey reason)
  | none => .ok (subst.insert key type)

/-- A proper substitution as a raw one. -/
def ofSubst (subst : Subst) : RawSubst :=
  ⟨subst.bindings.map fun (name, type) => (.var name, .ofTy type)⟩

/-- The raw substitution as a proper one, if that is what it is. -/
def toSubst? (subst : RawSubst) : Option Subst := do
  let bindings ← subst.bindings.mapM fun
    | (.var name, type) => do return (name, ← type.toTy?)
    | _ => none
  return ⟨bindings⟩

/-- The bindings as they are written, in the order of their texts. -/
def entries? (subst : RawSubst) : Except Failure (List (String × String)) := do
  let entries ← subst.bindings.mapM fun (key, type) => do
    return (← key.pretty?, ← type.pretty?)
  return entries.mergeSort fun first second =>
    first.1 < second.1 || (first.1 == second.1 && first.2 ≤ second.2)

/-- Replace variables simultaneously, without chasing bindings. -/
def rename? (subst : RawSubst) (type : RawTy) : Except Failure RawTy :=
  type.bind? fun x => .ok ((subst.stored? x).getD x)

/-- Follow bindings for at most the given number of steps, to anything but a bound variable. -/
def walkFor? (subst : RawSubst) : Nat → RawTy → Except Failure RawTy
  | 0, type => type.proper?
  | steps + 1, type =>
      if type.isVariable then
        match subst.get? type with
        | some bound => subst.walkFor? steps bound
        | none => .ok type
      else type.proper?

/-- Follow bindings to a node or an unbound variable. -/
def walk? (subst : RawSubst) (type : RawTy) : Except Failure RawTy :=
  subst.walkFor? subst.bindings.length type

/-- What a variable stands for, bindings being chased to at most the given depth. -/
def resolveVariable? (subst : RawSubst) : Nat → RawTy → Except Failure RawTy
  | 0, x => .ok x
  | depth + 1, x =>
      match subst.get? x with
      | some type => type.bind? (subst.resolveVariable? depth)
      | none => .ok x

/-- Replace variables until none that is left is bound. -/
def resolve? (subst : RawSubst) (type : RawTy) : Except Failure RawTy :=
  type.bind? (subst.resolveVariable? subst.bindings.length)

/-- Bind an unbound variable to a type that does not contain it once resolved. -/
def bindVariable? (subst : RawSubst) (x type : RawTy) : Except Failure RawSubst := do
  let resolved ← subst.resolve? type
  if (← resolved.leaves?).contains x then
    throw (.unsolvable (.infinite (← x.pretty?) (← resolved.erase?)))
  else subst.insert? x type

/-- Solve an equation between raw types, going down at most the given number of levels. -/
def unifyWithin? : Nat → RawSubst → RawTy → RawTy → Except Failure RawSubst
  | 0, _, _, _ => .error (.unsolvable .cyclic)
  | levels + 1, subst, left, right => do
      let left ← subst.walk? left
      let right ← subst.walk? right
      if left == right then return subst
      else if left.isVariable then subst.bindVariable? left right
      else if right.isVariable then subst.bindVariable? right left
      else
        match left, right with
        | .node _ leftDom leftCod, .node _ rightDom rightCod => do
            let extended ← unifyWithin? levels subst leftDom rightDom
            unifyWithin? levels extended leftCod rightCod
        | .alien value, _ => throw (.notAType value)
        | _, .alien value => throw (.notAType value)
        | _, _ => return subst

/-- The number of nodes in all bound types. -/
def nodes (subst : RawSubst) : Nat :=
  subst.bindings.foldr (fun binding nodes => binding.2.size + nodes) 0

/-- Extend a substitution so that both types resolve to the same type. -/
def unify? (subst : RawSubst) (left right : RawTy) : Except Failure RawSubst :=
  match subst.toSubst?, left.toTy?, right.toTy? with
  | some subst, some left, some right =>
      match subst.unify left right with
      | .ok extended => .ok (ofSubst extended)
      | .error reason => .error (.unsolvable reason)
  | _, _, _ =>
      let nodes := subst.nodes + left.size + right.size + 1
      unifyWithin? (nodes * nodes) subst left right

/-- Match a variable with a type: it must be unbound, or bound to an equal type. -/
def matchVariable? (subst : RawSubst) (x type : RawTy) :
    Except Failure (Option RawSubst) :=
  match subst.get? x with
  | none => do return some (← subst.insert? x type)
  | some bound => .ok (if bound == type then some subst else none)

/-- Extend a substitution by bindings that rename the raw pattern to the raw type. -/
def matchRaw? : RawSubst → RawTy → RawTy → Except Failure (Option RawSubst)
  | subst, .var name, type => subst.matchVariable? (.var name) type
  | _, .alien value, _ => .error (.notAType value)
  | subst, .node patternHead patternDom patternCod, type =>
      if patternHead = RawTy.variableHead then
        subst.matchVariable? (.node patternHead patternDom patternCod) type
      else
        match type with
        | .alien value => .error (.notAType value)
        | .var _ => .ok none
        | .node head dom cod =>
            if head = RawTy.arrowHead then do
              match ← subst.matchRaw? patternDom dom with
              | some extended => extended.matchRaw? patternCod cod
              | none => return none
            else .ok none

/-- Extend a substitution by bindings that rename the pattern to the type. -/
def matchType? (subst : RawSubst) (pattern type : RawTy) : Except Failure (Option RawSubst) :=
  match subst.toSubst?, pattern.toTy?, type.toTy? with
  | some subst, some pattern, some type => .ok ((subst.matchType? pattern type).map ofSubst)
  | _, _, _ => subst.matchRaw? pattern type

end RawSubst

namespace RawTy

/-- Is the type an instance of the general one? -/
def isInstance? (specific general : RawTy) : Except Failure Bool := do
  return (← RawSubst.empty.matchType? general specific).isSome

end RawTy

end Combinatory
