import Combinatory.Lambda.Compile
import Combinatory.Proofs.Lambda.Binding
import Combinatory.Proofs.Lambda.Draft

/-!
# Symbolic expressions

An expression is symbolic if it is put together from names, new variables, library terms and plain
data by functions, which are compiled and never called, by applications and calls, and by asking for
terms. Such an expression always comes to an end: it is a draft of an expression, which is found by
recursion on it.

A draft asks for no other terms than those of the combinators that are mentioned in the expression.
If it has a result, it has asked for all of them, unless the result itself is a combinator or a
function that has not been compiled.
-/

namespace Combinatory

/-- The expression that an object is, if there is nothing foreign in it. -/
def Open.expr? {α : Type} : Open α → Option (Open Empty)
  | .term value => some (.term value)
  | .var x => some (.var x)
  | .app serial fn arg => do return .app serial (← fn.expr?) (← arg.expr?)
  | .foreign _ => none

namespace Lambda

/-- What a symbolic expression is drafted to. -/
inductive Part where
  /-- An expression. -/
  | expr (expr : Open Empty)
  /-- A combinator, by its number. -/
  | combinator (number : Nat)
  /-- A function, by what it is compiled to. -/
  | function (compiled : Draft (Open Empty))
  /-- Plain data. -/
  | datum (value : Datum)

namespace Part

/-- The part read as an expression. -/
def convert : Part → Draft (Open Empty)
  | .expr object => .done object
  | .combinator number => do return .term (← Draft.ask number)
  | .function compiled => compiled
  | .datum value => .failed (.notConvertible value.quoted)

/-- Parts applied in turn. -/
def app : List Part → Draft (Open Empty)
  | [] => .failed .noArguments
  | first :: rest => do
      let first ← first.convert
      let rest ← rest.mapM convert
      Draft.ofExcept (rest.foldlM Assembly.closed.join first)

/-- A part that is called. No function is called in a symbolic expression. -/
def call : Part → List Part → Draft (Open Empty)
  | expr callee, args => app (expr callee :: args)
  | combinator number, args => do
      let value ← Draft.ask number
      app (expr (.term value) :: args)
  | function _, _ => .failed .notApplicable
  | datum _, _ => .failed .notApplicable

/-- Does the part take part in infix applications with any other one? -/
def isApplicative : Part → Bool
  | expr (.term _) => false
  | expr _ => true
  | combinator _ => true
  | _ => false

/-- A part applied to another one by the infix operator. -/
def infixApp (fn arg : Part) : Draft (Open Empty) :=
  match fn, arg with
  | expr (.term _), expr (.term _) => app [fn, arg]
  | _, _ =>
      if fn.isApplicative || arg.isApplicative then app [fn, arg] else .failed .notApplicable

/-- What a form makes of parts. Forms that no symbolic expression has are refused. -/
def form : Form → List Part → Draft (Open Empty)
  | .app, parts => app parts
  | .call, callee :: args => call callee args
  | .infixApp, [fn, arg] => infixApp fn arg
  | .asExpr, [part] => part.convert
  | .term, [combinator number] => do return .term (← Draft.ask number)
  | .term, [_] => .failed .noAttribute
  | _, _ => .failed .notApplicable

/-- Is the part a function? -/
def isFunction : Part → Bool
  | function _ => true
  | _ => false

end Part

/-- The names bound to parameters if a function is called on variables. Nothing is collected where
functions are compiled. -/
def Signature.bound (signature : Signature (Open Empty)) (xs : List Var) :
    Draft (List (String × Open Empty)) :=
  match signature.bind? (fun _ => .term .I) (.term .I) (xs.map .var) with
  | some bound => .done bound
  | none => .failed .notApplicable

/-- What a function is compiled to, where its body is drafted among the names of parameters. -/
def Signature.draft (signature : Signature (Open Empty))
    (body : List (String × Open Empty) → Draft Part) : Draft (Open Empty) :=
  if !signature.isCompilable then .failed (.unsupportedSignature "<function>")
  else do
    let xs ← signature.positional.mapM fun parameter => Draft.newVar parameter.name
    let part ← signature.bound xs >>= body
    let expr ← part.convert
    Draft.ofExcept (Assembly.closed.abstractAll xs expr)

/-- A term of the library. -/
def libraryPart (name : Datum) : Draft Part :=
  match Library.lookup? name with
  | .ok term =>
      match TypedTerm.ofTerm? term with
      | .ok typed => .done (.expr (.term typed))
      | .error refusal => .failed (.term (.illTyped (refusal.map .ofTerm)))
  | .error reason => .failed (.notInLibrary reason)

/-- What an object is drafted to. Only expressions, combinators and plain data are. -/
def partOf : Object → Draft Part
  | .foreign (.combinator number _) => .done (.combinator number)
  | .foreign (.datum _ value) => .done (.datum value)
  | object =>
      match object.expr? with
      | some expr => .done (.expr expr)
      | none => .failed .notApplicable

/-- What a name stands for where no parameter has it: an object of the session, or an atom. -/
def Workbench.part (bench : Workbench) (name : String) : Draft Part :=
  match bench.session.lookup name with
  | some object => partOf object
  | none =>
      match name with
      | "S" => .done (.expr (.term .S))
      | "K" => .done (.expr (.term .K))
      | "I" => .done (.expr (.term .I))
      | _ => .failed (.undefined name)

namespace Expr

/-- Is the form one of symbolic expressions, with the given parts? No function is called. -/
def isSymbolicForm : Form → List Expr → Bool
  | .app, _ => true
  | .call, [] => true
  | .call, function _ _ _ :: _ => false
  | .call, _ => true
  | .infixApp, _ => true
  | .asExpr, _ => true
  | .term, _ => true
  | .rawApp, _ => false
  | .abstract, _ => false
  | .combinator, _ => false

mutual

/-- Is the expression symbolic? -/
def isSymbolic : Expr → Bool
  | .name _ => true
  | .newVar _ => true
  | .library _ => true
  | .datum _ _ => true
  | .function _ _ body => body.isSymbolic
  | .form kind parts => isSymbolicForm kind parts && areSymbolic parts

/-- Are all the expressions symbolic? -/
def areSymbolic : List Expr → Bool
  | [] => true
  | part :: parts => part.isSymbolic && areSymbolic parts

end

mutual

/-- The names that occur in an expression without being those of parameters. -/
def freeNames : Expr → List String
  | .name free => [free]
  | .newVar _ => []
  | .library _ => []
  | .datum _ _ => []
  | .function _ signature body => body.freeNames.filter (· ∉ signature.names)
  | .form _ parts => freeNamesAll parts

/-- The names that occur in expressions without being those of parameters. -/
def freeNamesAll : List Expr → List String
  | [] => []
  | part :: parts => part.freeNames ++ freeNamesAll parts

end

mutual

/-- The draft of a symbolic expression among the names bound to parameters. -/
def draft (names : String → Draft Part) (scope : List (String × Open Empty)) : Expr → Draft Part
  | .name free =>
      match scope.lookup free with
      | some object => .done (.expr object)
      | none => names free
  | .newVar new => do return .expr (.var (← Draft.newVar new))
  | .library key => libraryPart key
  | .datum _ value => .done (.datum value)
  | .function _ signature body =>
      .done (.function ((signature.map .term).draft fun bound =>
        draft names (bound ++ scope) body))
  | .form kind exprs => do
      let parts ← draftAll names scope exprs
      return .expr (← Part.form kind parts)

/-- The drafts of symbolic expressions one after another. -/
def draftAll (names : String → Draft Part) (scope : List (String × Open Empty)) :
    List Expr → Draft (List Part)
  | [] => .done []
  | part :: parts => do
      let first ← draft names scope part
      return first :: (← draftAll names scope parts)

end

end Expr

/-! ## What drafts ask for at most -/

section Within

variable {allowed : Nat → Prop}

/-- The term of the part asks for no other terms than allowed. -/
def Part.Within (allowed : Nat → Prop) : Part → Prop
  | .expr _ => True
  | .combinator number => allowed number
  | .function compiled => compiled.Within allowed fun _ => True
  | .datum _ => True

theorem Draft.within_ofExcept {α : Type} (result : Except (IllTyped Term) α) :
    (Draft.ofExcept result).Within allowed fun _ => True := by
  cases result with
  | ok result => trivial
  | error refusal =>
      rintro name ⟨⟩

theorem Draft.within_mapM {α β : Type} {items : List β} {step : β → Draft α}
    (each : ∀ item ∈ items, (step item).Within allowed fun _ => True) :
    (items.mapM step).Within allowed fun _ => True := by
  induction items with
  | nil => trivial
  | cons item items ih =>
      rw [List.mapM_cons]
      refine (each item List.mem_cons_self).bind fun _ _ => ?_
      exact (ih fun other mem => each other (List.mem_cons_of_mem item mem)).bind
        fun _ _ => trivial

namespace Part

theorem Within.convert {part : Part} (within : part.Within allowed) :
    part.convert.Within allowed fun _ => True := by
  cases part with
  | expr expr => trivial
  | combinator number => exact ⟨within, fun _ => trivial⟩
  | function compiled => exact within
  | datum value =>
      rintro name ⟨⟩

theorem within_app {parts : List Part} (within : ∀ part ∈ parts, part.Within allowed) :
    (app parts).Within allowed fun _ => True := by
  cases parts with
  | nil =>
      rintro name ⟨⟩
  | cons first rest =>
      refine (within first List.mem_cons_self).convert.bind fun _ _ => ?_
      refine (Draft.within_mapM fun part mem =>
        (within part (List.mem_cons_of_mem first mem)).convert).bind fun _ _ => ?_
      exact Draft.within_ofExcept _

theorem within_app_expr {callee : Open Empty} {args : List Part}
    (within : ∀ part ∈ args, part.Within allowed) :
    (app (expr callee :: args)).Within allowed fun _ => True :=
  within_app (List.forall_mem_cons.mpr ⟨trivial, within⟩)

theorem within_call {callee : Part} {args : List Part}
    (within : ∀ part ∈ callee :: args, part.Within allowed) :
    (call callee args).Within allowed fun _ => True := by
  obtain ⟨callee_within, args_within⟩ := List.forall_mem_cons.mp within
  cases callee with
  | expr callee => exact within_app_expr args_within
  | combinator number => exact ⟨callee_within, fun _ => within_app_expr args_within⟩
  | function compiled =>
      rintro name ⟨⟩
  | datum value =>
      rintro name ⟨⟩

/-- The infix operator applies two parts or is refused. -/
theorem infixApp_cases (fn arg : Part) :
    infixApp fn arg = app [fn, arg] ∨ infixApp fn arg = .failed .notApplicable := by
  unfold infixApp
  split
  · exact .inl rfl
  · split
    · exact .inl rfl
    · exact .inr rfl

theorem within_form (kind : Form) {parts : List Part}
    (within : ∀ part ∈ parts, part.Within allowed) :
    (form kind parts).Within allowed fun _ => True := by
  unfold form
  split
  · exact within_app within
  · exact within_call within
  · rename_i fn arg
    rcases infixApp_cases fn arg with applied | refused
    · rw [applied]
      exact within_app within
    · rw [refused]
      rintro name ⟨⟩
  · exact (within _ List.mem_cons_self).convert
  · exact ⟨within _ List.mem_cons_self, fun _ => trivial⟩
  · rintro name ⟨⟩
  · rintro name ⟨⟩

end Part

theorem Draft.within_newVar (name : String) :
    (Draft.newVar name).Within allowed fun _ => True :=
  fun _ => trivial

theorem within_libraryPart (name : Datum) :
    (libraryPart name).Within allowed (Part.Within allowed) := by
  unfold libraryPart
  split
  · split
    · trivial
    · rintro name ⟨⟩
  · rintro name ⟨⟩

/-- A function asks for no other terms than its body does. -/
theorem Signature.within_draft {signature : Signature (Open Empty)}
    {body : List (String × Open Empty) → Draft Part}
    (body_within : ∀ bound, bound.map Prod.fst = signature.names →
      (body bound).Within allowed (Part.Within allowed)) :
    (signature.draft body).Within allowed fun _ => True := by
  unfold Signature.draft
  split
  · rintro name ⟨⟩
  · refine (Draft.within_mapM fun _ _ => Draft.within_newVar _).bind fun xs _ => ?_
    have bound_within : (signature.bound xs).Within allowed fun bound =>
        bound.map Prod.fst = signature.names := by
      unfold Signature.bound
      split
      · rename_i fits
        exact Signature.bind?_names fits
      · rintro name ⟨⟩
    refine (bound_within.bind body_within).bind fun part part_within => ?_
    exact part_within.convert.bind fun _ _ => Draft.within_ofExcept _

variable {names : String → Draft Part}

/-- The name is not one of those that are bound. -/
theorem lookup_eq_none_iff_not_mem {α : Type} {scope : List (String × α)} {name : String} :
    scope.lookup name = none ↔ name ∉ scope.map Prod.fst := by
  rw [List.lookup_eq_none_iff]
  simp only [List.mem_map, not_exists, not_and, bne_iff_ne]
  exact ⟨fun apart entry mem same => apart entry mem same.symm,
    fun apart entry mem same => apart entry mem same.symm⟩

mutual

/-- An expression asks for no other terms than the names do that occur in it. -/
theorem Expr.within_draft (expr : Expr) (scope : List (String × Open Empty))
    (names_within : ∀ name ∈ expr.freeNames, name ∉ scope.map Prod.fst →
      (names name).Within allowed (Part.Within allowed)) :
    (expr.draft names scope).Within allowed (Part.Within allowed) := by
  cases expr with
  | name name =>
      rw [Expr.draft]
      split
      · trivial
      · rename_i unbound
        exact names_within name (by simp [Expr.freeNames]) (lookup_eq_none_iff_not_mem.mp unbound)
  | newVar name => exact (Draft.within_newVar name).bind fun _ _ => trivial
  | library name => exact within_libraryPart name
  | datum place value => trivial
  | function name signature body =>
      refine Signature.within_draft fun bound bound_names =>
        Expr.within_draft body (bound ++ scope) fun free mem outside => ?_
      rw [List.map_append, List.mem_append, not_or, bound_names, Signature.names_map] at outside
      refine names_within free ?_ outside.2
      simp only [Expr.freeNames, List.mem_filter, decide_eq_true_eq]
      exact ⟨mem, outside.1⟩
  | form kind exprs =>
      have parts_within := Expr.within_draftAll exprs scope names_within
      exact parts_within.bind fun parts within =>
        (Part.within_form kind within).bind fun _ _ => trivial

theorem Expr.within_draftAll (exprs : List Expr) (scope : List (String × Open Empty))
    (names_within : ∀ name ∈ Expr.freeNamesAll exprs, name ∉ scope.map Prod.fst →
      (names name).Within allowed (Part.Within allowed)) :
    (Expr.draftAll names scope exprs).Within allowed
      fun parts => ∀ part ∈ parts, part.Within allowed := by
  cases exprs with
  | nil => simp [Expr.draftAll, Draft.Within]
  | cons expr exprs =>
      rw [Expr.freeNamesAll] at names_within
      refine (Expr.within_draft expr scope fun name mem =>
        names_within name (List.mem_append_left _ mem)).bind fun part part_within => ?_
      refine (Expr.within_draftAll exprs scope fun name mem =>
        names_within name (List.mem_append_right _ mem)).bind fun parts parts_within => ?_
      exact List.forall_mem_cons.mpr ⟨part_within, parts_within⟩

end

end Within

/-! ## What drafts ask for at least -/

section Asks

variable {number : Nat}

/-- Reading the part as an expression takes the term of the combinator. -/
def Part.Owes (number : Nat) : Part → Prop
  | .expr _ => False
  | .combinator other => other = number
  | .function compiled => compiled.AsksFor number fun _ => False
  | .datum _ => False

theorem Draft.asksFor_mapM {α β : Type} {items : List β} {step : β → Draft α} {item : β}
    (mem : item ∈ items) (asks : (step item).AsksFor number fun _ => False) :
    (items.mapM step).AsksFor number fun _ => False := by
  induction items with
  | nil => cases mem
  | cons first items ih =>
      rw [List.mapM_cons]
      cases mem with
      | head => exact asks.bind fun _ => False.elim
      | tail _ mem =>
          exact Draft.asksFor_bind_right fun _ => (ih mem).bind fun _ => False.elim

namespace Part

theorem Owes.convert {part : Part} (owes : part.Owes number) :
    part.convert.AsksFor number fun _ => False := by
  cases part with
  | expr | datum => exact owes.elim
  | combinator other => exact .inl owes
  | function compiled => exact owes

variable {part : Part}

theorem asksFor_app {parts : List Part} (mem : part ∈ parts) (owes : part.Owes number) :
    (app parts).AsksFor number fun _ => False := by
  cases mem with
  | head => exact owes.convert.bind fun _ => False.elim
  | tail _ mem =>
      exact Draft.asksFor_bind_right fun _ =>
        (Draft.asksFor_mapM mem owes.convert).bind fun _ => False.elim

theorem asksFor_call {callee : Part} {args : List Part} (mem : part ∈ callee :: args)
    (owes : part.Owes number) : (call callee args).AsksFor number fun _ => False := by
  cases callee with
  | expr callee => exact asksFor_app mem owes
  | combinator other =>
      cases mem with
      | head => exact .inl owes
      | tail _ mem => exact .inr fun _ => asksFor_app (List.mem_cons_of_mem _ mem) owes
  | function compiled => trivial
  | datum value => trivial

theorem asksFor_form (kind : Form) {parts : List Part} (mem : part ∈ parts)
    (owes : part.Owes number) : (form kind parts).AsksFor number fun _ => False := by
  unfold form
  split
  · exact asksFor_app mem owes
  · exact asksFor_call mem owes
  · rename_i fn arg
    rcases infixApp_cases fn arg with applied | refused
    · rw [applied]
      exact asksFor_app mem owes
    · rw [refused]
      trivial
  · obtain rfl := List.mem_singleton.mp mem
    exact owes.convert
  · obtain rfl := List.mem_singleton.mp mem
    exact .inl owes
  · trivial
  · trivial

end Part

/-- A function asks for what its body asks for, or for what the part does that it comes to. -/
theorem Signature.asksFor_draft {signature : Signature (Open Empty)}
    {body : List (String × Open Empty) → Draft Part}
    (body_asks : ∀ bound, bound.map Prod.fst = signature.names →
      (body bound).AsksFor number (Part.Owes number)) :
    (signature.draft body).AsksFor number fun _ => False := by
  unfold Signature.draft
  split
  · trivial
  · refine Draft.asksFor_bind_right fun xs => ?_
    have bound_names : (signature.bound xs).AsksFor number fun bound =>
        bound.map Prod.fst = signature.names := by
      unfold Signature.bound
      split
      · rename_i fits
        exact Signature.bind?_names fits
      · trivial
    refine (bound_names.bind body_asks).bind fun part owes => ?_
    exact owes.convert.bind fun _ => False.elim

variable {names : String → Draft Part}

mutual

/-- An expression asks for the terms of the combinators that occur in it, or comes to a part that
takes them. -/
theorem Expr.asksFor_draft (expr : Expr) (scope : List (String × Open Empty)) {name : String}
    (mem : name ∈ expr.freeNames) (unbound : name ∉ scope.map Prod.fst)
    (named : names name = .done (.combinator number)) :
    (expr.draft names scope).AsksFor number (Part.Owes number) := by
  cases expr with
  | name other =>
      simp only [Expr.freeNames, List.mem_singleton] at mem
      subst mem
      rw [Expr.draft, lookup_eq_none_iff_not_mem.mpr unbound, named]
      exact rfl
  | newVar | library | datum => cases mem
  | function other signature body =>
      simp only [Expr.freeNames, List.mem_filter, decide_eq_true_eq] at mem
      refine Signature.asksFor_draft fun bound bound_names =>
        Expr.asksFor_draft body (bound ++ scope) mem.1 ?_ named
      rw [List.map_append, List.mem_append, not_or, bound_names, Signature.names_map]
      exact ⟨mem.2, unbound⟩
  | form kind exprs =>
      refine (Expr.asksFor_draftAll exprs scope mem unbound named).bind fun parts owing => ?_
      obtain ⟨part, part_mem, owes⟩ := owing
      exact (Part.asksFor_form kind part_mem owes).bind fun _ => False.elim

theorem Expr.asksFor_draftAll (exprs : List Expr) (scope : List (String × Open Empty))
    {name : String} (mem : name ∈ Expr.freeNamesAll exprs) (unbound : name ∉ scope.map Prod.fst)
    (named : names name = .done (.combinator number)) :
    (Expr.draftAll names scope exprs).AsksFor number
      fun parts => ∃ part ∈ parts, part.Owes number := by
  cases exprs with
  | nil => cases mem
  | cons expr exprs =>
      rw [Expr.freeNamesAll, List.mem_append] at mem
      rcases mem with first_mem | rest_mem
      · refine (Expr.asksFor_draft expr scope first_mem unbound named).bind fun part owes => ?_
        exact (Draft.asksFor_of_forall fun _ => trivial :
          (Expr.draftAll names scope exprs).AsksFor number fun _ => True).bind
            fun _ _ => ⟨part, List.mem_cons_self, owes⟩
      · refine Draft.asksFor_bind_right fun part => ?_
        refine (Expr.asksFor_draftAll exprs scope rest_mem unbound named).bind ?_
        rintro parts ⟨other, other_mem, owes⟩
        exact ⟨other, List.mem_cons_of_mem part other_mem, owes⟩

end

end Asks

end Lambda
end Combinatory
