import Combinatory.Lambda.Basic

/-!
# Compiling functions

Evaluating an expression, reading an object as an expression and compiling a function call one
another, and a session may define functions that call themselves without end. So there is one
function `perform` for both kinds of task, granted a number of nested steps, and every piece of it
is given the tasks it may go on with.

A combinator that is needed while it is being compiled is refused. Whether or not its compilation
succeeds, it is not being compiled afterwards, and only a success is kept.
-/

namespace Combinatory
namespace Lambda

/-- Something to be done that yields an object. -/
inductive Task where
  /-- Evaluate an expression among the names around it. -/
  | evaluate (scope : Scope) (expr : Expr)
  /-- Read as an expression an object that is none yet. -/
  | read (value : Extra)
  deriving Inhabited

/-- A number that has not been used. -/
def nextSerial : Work Nat := do
  let serial := (← get).nextSerial
  modify fun bench => { bench with nextSerial := serial + 1 }
  return serial

/-- A new variable. -/
def newVar (name : String) : Work Var := do
  return { serial := ← nextSerial, name }

/-- A term by the operations that build it. -/
def termForm (value : TypedTerm) : Work String := do
  return (← consult (Registry.registered value.term)).term.constructorForm

/-- A term as it is written. -/
def termText (value : TypedTerm) : Work String := do
  consult (do Registry.render (← Registry.registered value.term).term)

/-- Write a line to the log. -/
def log (line : String) : Work Unit :=
  modify fun bench => { bench with log := line :: bench.log }

mutual

/-- An object by the operations that build it; the combinators in it are compiled. -/
def constructorForm (perform : Task → Work Object) : Object → Work String
  | .term value => termForm value
  | .var x => return "Var(" ++ Text.quoted x.name ++ ")"
  | .app _ fn arg => do
      let fnText ← constructorForm perform fn
      let argText ← constructorForm perform arg
      return "App(" ++ fnText ++ ", " ++ argText ++ ")"
  | .foreign value => constructorFormOfExtra perform value

/-- An object that is not an expression by the operations that build it. -/
def constructorFormOfExtra (perform : Task → Work Object) : Extra → Work String
  | .function _ _ _ _ _ => return "<function>"
  | .combinator number name? => do
      match ← perform (.read (.combinator number name?)) with
      | .term value => termForm value
      | _ => Effect.raise .noAttribute
  | .datum _ value => return value.quoted
  | .tuple _ items => do
      match ← constructorForms perform items with
      | [text] => return "(" ++ text ++ ",)"
      | texts => return "(" ++ ", ".intercalate texts ++ ")"
  | .noKeywords _ => return (Datum.record []).quoted

/-- Several objects by the operations that build them. -/
def constructorForms (perform : Task → Work Object) : List Object → Work (List String)
  | [] => return []
  | item :: items => do
      let text ← constructorForm perform item
      return text :: (← constructorForms perform items)

end

/-- An object that is not an expression as it is written on its own. A combinator is written by its
name, and what is inside a tuple by the operations that build it. -/
def textOfExtra (perform : Task → Work Object) : Extra → Work String
  | .combinator _ (some name) => return name
  | .combinator _ none => Effect.raise .noAttribute
  | .datum _ value => return value.display
  | value => constructorFormOfExtra perform value

/-- An object as it is written on its own. -/
def text (perform : Task → Work Object) : Object → Work String
  | .term value => termText value
  | .var x => return x.name
  | .app _ fn arg => do
      let fnText ← text perform fn
      let argText ← text perform arg
      return Term.parenthesize fnText argText
  | .foreign value => textOfExtra perform value

/-- An object as it is written on its own, if it can be. -/
def text? (perform : Task → Work Object) (object : Object) :
    StateM Workbench (Option String) := do
  return (← ExceptT.run (text perform object)).toOption

/-- What is reported about failed work; none where the failure speaks for itself or no text can be
made. Objects in it are written only now, which may compile combinators. -/
def report (perform : Task → Work Object) : Failure → StateM Workbench (Option String)
  | .undefined name => return some ("name " ++ Text.quoted name ++ " is not defined")
  | .notInLibrary reason => return some (reason.message "combinator" Library.names)
  | .notConvertible text => return some ("Cannot convert to term: " ++ text)
  | .noArguments => return some "Too few arguments: app()"
  | .unsupportedSignature text => return some ("Unsupported signature: " ++ text)
  | .unbound names => return some ("Unbound variables: " ++ " ".intercalate names)
  | .recursive name => return some ("Recursive combinator: " ++ name)
  | .notWrappable text => return some ("Cannot apply @combinator to " ++ text)
  | .notAVariable object => text? perform object
  | .notAnExpression value => text? perform (.foreign value)
  | .term reason => modifyGet fun bench =>
      let (message, terms) := (Registry.report reason).run bench.terms
      (message, { bench with terms })
  | .notApplicable => return none
  | .noAttribute => return none

/-- How objects are put together, where foreign objects are read by `perform`. -/
def assembly (perform : Task → Work Object) : Assembly Work Extra where
  read := fun value => perform (.read value)
  isNothing
    | .datum _ (.literal .nothing) => true
    | _ => false
  nextSerial := nextSerial
  apply := fun fn arg => do return .term (← consult (Registry.applyTyped fn arg))
  note := fun x body abstraction => do
    let bodyText ← text perform body
    let abstractionText ← text perform abstraction
    log ("abstract " ++ x.name ++ " in " ++ bodyText ++ " = " ++ abstractionText)

/-- Call a function with positional arguments. -/
def callFunction (perform : Task → Work Object) (signature : Signature Object) (body : Expr)
    (scope : Scope) (args : List Object) : Work Object := do
  let serial ← nextSerial
  match signature.bind? (fun items => .foreign (.tuple serial items))
      (.foreign (.noKeywords serial)) args with
  | some bound => perform (.evaluate (bound ++ scope) body)
  | none => Effect.raise .notApplicable

/-- Compile a function to an expression, in which variables of functions around it may be left. -/
def compileFunction (perform : Task → Work Object) (name : String)
    (signature : Signature Object) (body : Expr) (scope : Scope) : Work Object := do
  if !signature.isCompilable then Effect.raise (.unsupportedSignature "<function>")
  else
    let xs ← signature.positional.mapM fun parameter => newVar parameter.name
    let result ← callFunction perform signature body scope (xs.map .var)
    let expr ← (assembly perform).convert result
    let args := Datum.tuple (xs.map fun x => .literal (.text x.name))
    log ("compiling " ++ name ++ args.quoted ++ " = " ++ (← text perform expr))
    (assembly perform).abstractAll xs expr

/-- The variables of an expression, each once. -/
def freeVars (expr : Object) : Work (List Var) :=
  match expr.freeVars with
  | .ok xs => return xs
  | .error value => Effect.raise (.notAnExpression value)

/-- The term that an expression is, if no variables are left in it. -/
def close : Object → Work TypedTerm
  | .term value => return value
  | expr => do
      let xs ← freeVars expr
      Effect.raise (.unbound ((xs.map Var.name).mergeSort (· ≤ ·)))

/-- Compile a function to a term. -/
def compile (perform : Task → Work Object) : Object → Work TypedTerm
  | .foreign (.function _ name signature body scope) => do
      close (← compileFunction perform name signature body scope)
  | .foreign (.datum _ _) => Effect.raise .notApplicable
  | .foreign (.tuple _ _) => Effect.raise .notApplicable
  | .foreign (.noKeywords _) => Effect.raise .notApplicable
  | object => do Effect.raise (.unsupportedSignature (← text perform object))

/-- Change the combinator with the given number. -/
def changeCombinator (number : Nat) (change : Combinator → Combinator) : Work Unit :=
  modify fun bench => { bench with combinators := bench.combinators.modify number change }

/-- The term of a combinator, which is compiled if it has not been. -/
def termOf (perform : Task → Work Object) (number : Nat) : Work TypedTerm := do
  match (← get).combinators[number]? with
  | none => Effect.raise .noAttribute
  | some combinator =>
      match combinator.term? with
      | some term => return term
      | none =>
          if combinator.compiling then
            match combinator.name? with
            | some name => Effect.raise (.recursive name)
            | none => Effect.raise .noAttribute
          else
            changeCombinator number fun combinator => { combinator with compiling := true }
            let term ←
              tryCatch (compile perform combinator.source) fun interruption => do
                changeCombinator number fun combinator => { combinator with compiling := false }
                throw interruption
            changeCombinator number fun combinator =>
              { combinator with compiling := false, term? := some term }
            return term

/-- Read as an expression an object that is none yet. -/
def readExtra (perform : Task → Work Object) : Extra → Work Object
  | .function _ name signature body scope => compileFunction perform name signature body scope
  | .combinator number _ => do return .term (← termOf perform number)
  | value => do Effect.raise (.notConvertible (← constructorFormOfExtra perform value))

/-- Apply expressions in turn. -/
def app (perform : Task → Work Object) : List Object → Work Object
  | [] => Effect.raise .noArguments
  | first :: rest => (assembly perform).app first rest

/-- Call an object with positional arguments. -/
def call (perform : Task → Work Object) (callee : Object) (args : List Object) : Work Object := do
  match callee with
  | .foreign (.function _ _ signature body scope) => callFunction perform signature body scope args
  | .foreign (.combinator number _) => app perform (.term (← termOf perform number) :: args)
  | .foreign _ => Effect.raise .notApplicable
  | expr => app perform (expr :: args)

/-- Does the object take part in infix applications with any other object? Closed terms do so only
with objects that do, or with closed terms on their right. -/
def isApplicative : Object → Bool
  | .var _ => true
  | .app _ _ _ => true
  | .foreign (.combinator _ _) => true
  | _ => false

/-- Apply one object to another by the infix operator. -/
def infixApp (perform : Task → Work Object) (fn arg : Object) : Work Object :=
  match fn, arg with
  | .term _, .term _ => app perform [fn, arg]
  | _, _ =>
      if isApplicative fn || isApplicative arg then app perform [fn, arg]
      else Effect.raise .notApplicable

/-- Wrap an object as a combinator. -/
def wrap (perform : Task → Work Object) (object : Object) : Work Object :=
  match object with
  | .foreign (.combinator _ _) => return object
  | .foreign (.function _ name _ _ _) => add (some name)
  | .foreign value => do Effect.raise (.notWrappable (← textOfExtra perform value))
  | _ => add none
where
  /-- Add a combinator that has not been compiled. -/
  add (name? : Option String) : Work Object := do
    let number := (← get).combinators.size
    modify fun bench =>
      { bench with
        combinators := bench.combinators.push
          { source := object, name?, compiling := false, term? := none } }
    return .foreign (.combinator number name?)

/-- What a form makes of the objects of its parts. -/
def performForm (perform : Task → Work Object) : Form → List Object → Work Object
  | .app, args => app perform args
  | .call, callee :: args => call perform callee args
  | .infixApp, [fn, arg] => infixApp perform fn arg
  | .rawApp, [fn, arg] => return .app (← nextSerial) fn arg
  | .asExpr, [object] => (assembly perform).convert object
  | .abstract, [.var x, body] => (assembly perform).abstract x body
  | .abstract, [object, _] => Effect.raise (.notAVariable object)
  | .combinator, [object] => wrap perform object
  | .term, [.foreign (.combinator number _)] => return .term (← termOf perform number)
  | .term, [_] => Effect.raise .noAttribute
  | _, _ => Effect.raise .notApplicable

/-- The object that a name stands for where no parameter has it: that of the session, or an atom. -/
def lookup (name : String) : Work Object := do
  match (← get).session.lookup name with
  | some object => return object
  | none =>
      match name with
      | "S" => return .term .S
      | "K" => return .term .K
      | "I" => return .term .I
      | _ => Effect.raise (.undefined name)

/-- The term of the library with a given name. -/
def libraryTerm (name : Datum) : Work Object :=
  match Library.lookup? name with
  | .ok term =>
      match TypedTerm.ofTerm? term with
      | .ok typed => return .term typed
      | .error refusal => Effect.raise (.term (.illTyped (refusal.map .ofTerm)))
  | .error reason => Effect.raise (.notInLibrary reason)

/-- The object of an expression among the names around it. -/
def evaluateExpr (perform : Task → Work Object) (scope : Scope) : Expr → Work Object
  | .name name =>
      match scope.lookup name with
      | some object => return object
      | none => lookup name
  | .newVar name => do return .var (← newVar name)
  | .library name => libraryTerm name
  | .datum place value => return .foreign (.datum place value)
  | .function name signature body => do
      return .foreign (.function (← nextSerial) name (signature.map .term) body scope)
  | .form form parts => do
      let objects ← parts.mapM fun part => perform (.evaluate scope part)
      performForm perform form objects

/-- Do a task, granted a number of nested steps. -/
def perform : Nat → Task → Work Object
  | 0, _ => throw .unfinished
  | steps + 1, .evaluate scope expr => evaluateExpr (perform steps) scope expr
  | steps + 1, .read value => readExtra (perform steps) value

end Lambda
end Combinatory
