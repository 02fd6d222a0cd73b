import Combinatory.Proofs.Lambda.Abstraction
import Combinatory.Proofs.Lambda.Symbolic
import Mathlib.Data.List.Forall2

/-!
# Expressions that differ in names only

Two expressions are alike if one becomes the other by renaming parameters, where every name stands
for the same parameter in both or for the same thing outside. New variables may be called anything.
No form in expressions that are alike makes an application without reading its parts.

Objects are twins if they differ only in the names of parameters and variables. A pairing says which
variables stand for which. Twins that are expressions are joined: no application in them is one of
closed terms.
-/

namespace Combinatory
namespace Lambda

/-! ## Expressions -/

/-- The two names stand for the same thing, where parameters with the paired names are around them,
the innermost first. -/
def SameName : List (String × String) → String → String → Prop
  | [], name, other => name = other
  | (parameter, counterpart) :: names, name, other =>
      (name = parameter ∧ other = counterpart) ∨
        name ≠ parameter ∧ other ≠ counterpart ∧ SameName names name other

mutual

/-- The two expressions differ in the names of parameters and of new variables only, where
parameters with the paired names are around them. -/
inductive Expr.Alike : List (String × String) → Expr → Expr → Prop
  /-- Names that stand for the same thing. -/
  | name {names : List (String × String)} {name other : String} (same : SameName names name other) :
      Alike names (.name name) (.name other)
  /-- New variables of any name. -/
  | newVar (names : List (String × String)) (name other : String) :
      Alike names (.newVar name) (.newVar other)
  /-- A term of the library. -/
  | library (names : List (String × String)) (name : Datum) :
      Alike names (.library name) (.library name)
  /-- Plain data. -/
  | datum (names : List (String × String)) (place : Nat) (value : Datum) :
      Alike names (.datum place value) (.datum place value)
  /-- Functions with bodies that are alike where the parameters are paired. -/
  | function {names : List (String × String)} (name : String)
      {signature other : Signature TypedTerm} {body counterpart : Expr}
      (signatures : signature.Alike Eq other)
      (bodies : Alike (signature.names.zip other.names ++ names) body counterpart) :
      Alike names (.function name signature body) (.function name other counterpart)
  /-- A form other than the raw application with parts that are alike. -/
  | form {names : List (String × String)} {kind : Form} (joins : kind ≠ .rawApp)
      {parts others : List Expr} (all : AllAlike names parts others) :
      Alike names (.form kind parts) (.form kind others)

/-- The expressions are alike one by one. -/
inductive Expr.AllAlike : List (String × String) → List Expr → List Expr → Prop
  /-- No expressions. -/
  | nil (names : List (String × String)) : AllAlike names [] []
  /-- One expression more. -/
  | cons {names : List (String × String)} {expr other : Expr} {exprs others : List Expr}
      (first : Alike names expr other) (rest : AllAlike names exprs others) :
      AllAlike names (expr :: exprs) (other :: others)

end

namespace Expr

mutual

/-- No application is made in the expression without reading its parts. -/
def joins : Expr → Bool
  | name _ => true
  | newVar _ => true
  | library _ => true
  | datum _ _ => true
  | function _ _ body => body.joins
  | form kind parts => kind != .rawApp && allJoin parts

/-- No application is made in any of the expressions without reading its parts. -/
def allJoin : List Expr → Bool
  | [] => true
  | expr :: exprs => expr.joins && allJoin exprs

end

end Expr

/-! ## Objects -/

/-- Which variables of two sessions stand for each other. -/
abbrev Pairing := Var → Var → Prop

/-- Variables that stand for each other still do. -/
def Pairing.Within (pairs more : Pairing) : Prop :=
  ∀ x y, pairs x y → more x y

/-- The two objects are expressions that differ in the names of variables only, and no application
in them is one of closed terms. -/
inductive TwinExpr (pairs : Pairing) : Object → Object → Prop
  /-- A closed term. -/
  | term (value : TypedTerm) : TwinExpr pairs (.term value) (.term value)
  /-- Variables that stand for each other. -/
  | var {x y : Var} (paired : pairs x y) : TwinExpr pairs (.var x) (.var y)
  /-- Applications that are not closed. -/
  | app (serial : Nat) {fn arg other counterpart : Object} (fns : TwinExpr pairs fn other)
      (args : TwinExpr pairs arg counterpart) (apart : (fn.isTerm && arg.isTerm) = false) :
      TwinExpr pairs (.app serial fn arg) (.app serial other counterpart)

mutual

/-- The two objects differ in the names of variables and parameters only. -/
inductive Twin (pairs : Pairing) : Object → Object → Prop
  /-- Expressions. -/
  | expr {object other : Object} (twins : TwinExpr pairs object other) : Twin pairs object other
  /-- Objects that are not expressions. -/
  | foreign {value other : Extra} (twins : TwinExtra pairs value other) :
      Twin pairs (.foreign value) (.foreign other)

/-- The same of objects that are not expressions. -/
inductive TwinExtra (pairs : Pairing) : Extra → Extra → Prop
  /-- Functions that are alike, with twins around them and as default values. -/
  | function (serial : Nat) (name : String) {signature other : Signature Object}
      {body counterpart : Expr} {scope surroundings : Scope} {names : List (String × String)}
      (signatures : TwinSignature pairs signature other)
      (bodies : body.Alike (signature.names.zip other.names ++ names) counterpart)
      (scopes : TwinScope pairs names scope surroundings) :
      TwinExtra pairs (.function serial name signature body scope)
        (.function serial name other counterpart surroundings)
  /-- A combinator. -/
  | combinator (number : Nat) (name? : Option String) :
      TwinExtra pairs (.combinator number name?) (.combinator number name?)
  /-- Plain data. -/
  | datum (place : Nat) (value : Datum) : TwinExtra pairs (.datum place value) (.datum place value)
  /-- Arguments that were left over. -/
  | tuple (serial : Nat) {items others : List Object} (twins : Twins pairs items others) :
      TwinExtra pairs (.tuple serial items) (.tuple serial others)
  /-- No keyword arguments left over. -/
  | noKeywords (serial : Nat) : TwinExtra pairs (.noKeywords serial) (.noKeywords serial)

/-- The signatures differ in the names of parameters only, and the default values are twins. -/
inductive TwinSignature (pairs : Pairing) : Signature Object → Signature Object → Prop
  /-- The parameters are twins, and both or neither collect what is left over. -/
  | of_parameters {positional counterparts keywordOnly otherKeywordOnly : List (Parameter Object)}
      {rest? otherRest? keywords? otherKeywords? : Option String}
      (positional_twins : TwinParameters pairs positional counterparts)
      (rest_alike : Option.Rel (fun _ _ => True) rest? otherRest?)
      (keywordOnly_twins : TwinParameters pairs keywordOnly otherKeywordOnly)
      (keywords_alike : Option.Rel (fun _ _ => True) keywords? otherKeywords?) :
      TwinSignature pairs { positional, rest?, keywordOnly, keywords? }
        { positional := counterparts, rest? := otherRest?, keywordOnly := otherKeywordOnly,
          keywords? := otherKeywords? }

/-- The parameters have default values that are twins, or none, one by one. -/
inductive TwinParameters (pairs : Pairing) :
    List (Parameter Object) → List (Parameter Object) → Prop
  /-- No parameters. -/
  | nil : TwinParameters pairs [] []
  /-- One parameter more, without a default value. -/
  | required (name other : String) {parameters counterparts : List (Parameter Object)}
      (rest : TwinParameters pairs parameters counterparts) :
      TwinParameters pairs ({ name, default? := none } :: parameters)
        ({ name := other, default? := none } :: counterparts)
  /-- One parameter more, with a default value. -/
  | optional (name other : String) {value counterpart : Object}
      {parameters counterparts : List (Parameter Object)} (first : Twin pairs value counterpart)
      (rest : TwinParameters pairs parameters counterparts) :
      TwinParameters pairs ({ name, default? := some value } :: parameters)
        ({ name := other, default? := some counterpart } :: counterparts)

/-- The names are paired like this, and bound to twins. -/
inductive TwinScope (pairs : Pairing) : List (String × String) → Scope → Scope → Prop
  /-- No names. -/
  | nil : TwinScope pairs [] [] []
  /-- One name more. -/
  | cons (name other : String) {object counterpart : Object} {names : List (String × String)}
      {scope surroundings : Scope} (first : Twin pairs object counterpart)
      (rest : TwinScope pairs names scope surroundings) :
      TwinScope pairs ((name, other) :: names) ((name, object) :: scope)
        ((other, counterpart) :: surroundings)

/-- The objects are twins one by one. -/
inductive Twins (pairs : Pairing) : List Object → List Object → Prop
  /-- No objects. -/
  | nil : Twins pairs [] []
  /-- One object more. -/
  | cons {object other : Object} {objects others : List Object} (first : Twin pairs object other)
      (rest : Twins pairs objects others) : Twins pairs (object :: objects) (other :: others)

end

/-! ## Reflexivity -/

theorem sameName_refl {names : List (String × String)} (same : ∀ pair ∈ names, pair.1 = pair.2)
    (name : String) : SameName names name name := by
  induction names with
  | nil => rfl
  | cons pair names ih =>
      obtain ⟨parameter, counterpart⟩ := pair
      obtain rfl : parameter = counterpart := same _ List.mem_cons_self
      by_cases here : name = parameter
      · exact .inl ⟨here, here⟩
      · exact .inr ⟨here, here, ih fun pair mem => same pair (List.mem_cons_of_mem _ mem)⟩

theorem eq_of_mem_zip_self {items : List String} {pair : String × String}
    (mem : pair ∈ items.zip items) : pair.1 = pair.2 := by
  induction items with
  | nil => cases mem
  | cons item items ih =>
      rcases List.mem_cons.mp mem with rfl | mem
      · rfl
      · exact ih mem

mutual

/-- An expression without raw applications is like itself. -/
theorem Expr.Alike.refl {names : List (String × String)} (same : ∀ pair ∈ names, pair.1 = pair.2)
    (expr : Expr) (joins : expr.joins = true) : expr.Alike names expr := by
  cases expr with
  | name name => exact .name (sameName_refl same name)
  | newVar name => exact .newVar names name name
  | library name => exact .library names name
  | datum place value => exact .datum names place value
  | function name signature body =>
      refine .function name (.refl signature) (Expr.Alike.refl (fun pair mem => ?_) body joins)
      exact (List.mem_append.mp mem).elim eq_of_mem_zip_self (same pair)
  | form kind parts =>
      rw [Expr.joins, Bool.and_eq_true, bne_iff_ne] at joins
      exact .form joins.1 (Expr.AllAlike.refl same parts joins.2)

theorem Expr.AllAlike.refl {names : List (String × String)}
    (same : ∀ pair ∈ names, pair.1 = pair.2) (exprs : List Expr)
    (joins : Expr.allJoin exprs = true) : Expr.AllAlike names exprs exprs := by
  cases exprs with
  | nil => exact .nil names
  | cons expr exprs =>
      rw [Expr.allJoin, Bool.and_eq_true] at joins
      exact .cons (Expr.Alike.refl same expr joins.1) (Expr.AllAlike.refl same exprs joins.2)

end

/-! ## Twins -/

section Twins

variable {pairs more : Pairing}

theorem TwinExpr.within {object other : Object} (twins : TwinExpr pairs object other)
    (within : pairs.Within more) : TwinExpr more object other := by
  induction twins with
  | term value => exact .term value
  | var paired => exact .var (within _ _ paired)
  | app serial _ _ apart fn_ih arg_ih => exact .app serial fn_ih arg_ih apart

mutual

theorem Twin.within {object other : Object} (twins : Twin pairs object other)
    (within : pairs.Within more) : Twin more object other := by
  cases twins with
  | expr twins => exact .expr (twins.within within)
  | foreign twins => exact .foreign (twins.within within)

theorem TwinExtra.within {value other : Extra} (twins : TwinExtra pairs value other)
    (within : pairs.Within more) : TwinExtra more value other := by
  cases twins with
  | function serial name signatures bodies scopes =>
      exact .function serial name (signatures.within within) bodies (scopes.within within)
  | combinator number name? => exact .combinator number name?
  | datum place value => exact .datum place value
  | tuple serial twins => exact .tuple serial (twins.within within)
  | noKeywords serial => exact .noKeywords serial

theorem TwinSignature.within {signature other : Signature Object}
    (twins : TwinSignature pairs signature other) (within : pairs.Within more) :
    TwinSignature more signature other := by
  cases twins with
  | of_parameters positional rest keywordOnly keywords =>
      exact .of_parameters (positional.within within) rest (keywordOnly.within within) keywords

theorem TwinParameters.within {parameters counterparts : List (Parameter Object)}
    (twins : TwinParameters pairs parameters counterparts) (within : pairs.Within more) :
    TwinParameters more parameters counterparts := by
  cases twins with
  | nil => exact .nil
  | required name other rest => exact .required name other (rest.within within)
  | optional name other first rest =>
      exact .optional name other (first.within within) (rest.within within)

theorem TwinScope.within {names : List (String × String)} {scope surroundings : Scope}
    (twins : TwinScope pairs names scope surroundings) (within : pairs.Within more) :
    TwinScope more names scope surroundings := by
  cases twins with
  | nil => exact .nil
  | cons name other first rest =>
      exact .cons name other (first.within within) (rest.within within)

theorem Twins.within {objects others : List Object} (twins : Twins pairs objects others)
    (within : pairs.Within more) : Twins more objects others := by
  cases twins with
  | nil => exact .nil
  | cons first rest => exact .cons (first.within within) (rest.within within)

end

theorem twins_iff_forall₂ {objects others : List Object} :
    Twins pairs objects others ↔ List.Forall₂ (Twin pairs) objects others := by
  constructor
  · intro twins
    induction objects generalizing others with
    | nil =>
        cases twins
        exact .nil
    | cons object objects ih =>
        cases twins with
        | cons first rest => exact .cons first (ih rest)
  · intro all
    induction all with
    | nil => exact .nil
    | cons first _ ih => exact .cons first ih

theorem twinParameters_iff_forall₂ {parameters counterparts : List (Parameter Object)} :
    TwinParameters pairs parameters counterparts ↔
      List.Forall₂ (Parameter.Alike (Twin pairs)) parameters counterparts := by
  constructor
  · intro twins
    induction parameters generalizing counterparts with
    | nil =>
        cases twins
        exact .nil
    | cons parameter parameters ih =>
        cases twins with
        | required name other rest => exact .cons .none (ih rest)
        | optional name other first rest => exact .cons (.some first) (ih rest)
  · intro all
    induction all with
    | nil => exact .nil
    | @cons parameter counterpart _ _ alike _ ih =>
        obtain ⟨name, value?⟩ := parameter
        obtain ⟨other, other?⟩ := counterpart
        cases alike with
        | none => exact .required name other ih
        | some first => exact .optional name other first ih

theorem twinSignature_iff_alike {signature other : Signature Object} :
    TwinSignature pairs signature other ↔ signature.Alike (Twin pairs) other := by
  constructor
  · rintro ⟨positional, rest, keywordOnly, keywords⟩
    exact ⟨twinParameters_iff_forall₂.mp positional, rest,
      twinParameters_iff_forall₂.mp keywordOnly, keywords⟩
  · rintro ⟨positional, rest, keywordOnly, keywords⟩
    exact .of_parameters (twinParameters_iff_forall₂.mpr positional) rest
      (twinParameters_iff_forall₂.mpr keywordOnly) keywords

/-- Functions that are written alike are made with default values that are twins. -/
theorem Signature.Alike.twins {signature other : Signature TypedTerm}
    (alike : signature.Alike Eq other) :
    TwinSignature pairs (signature.map .term) (other.map .term) :=
  twinSignature_iff_alike.mpr (alike.map fun value _ same => same ▸ .expr (.term value))

theorem TwinExpr.isTerm_eq {object other : Object} (twins : TwinExpr pairs object other) :
    other.isTerm = object.isTerm := by
  cases twins <;> rfl

/-! ## Names -/

theorem TwinScope.append {names added : List (String × String)}
    {scope inner surroundings innerSurroundings : Scope}
    (inner_twins : TwinScope pairs added inner innerSurroundings)
    (twins : TwinScope pairs names scope surroundings) :
    TwinScope pairs (added ++ names) (inner ++ scope) (innerSurroundings ++ surroundings) := by
  induction added generalizing inner innerSurroundings with
  | nil =>
      cases inner_twins
      exact twins
  | cons pair added ih =>
      cases inner_twins with
      | cons name other first rest => exact .cons name other first (ih rest)

/-- Twins with any names are twins with these names paired. -/
theorem twinScope_of_forall₂ {scope surroundings : Scope}
    (all : List.Forall₂ (fun entry other => Twin pairs entry.2 other.2) scope surroundings) :
    TwinScope pairs ((scope.map Prod.fst).zip (surroundings.map Prod.fst)) scope surroundings := by
  induction all with
  | nil => exact .nil
  | cons first _ ih => exact .cons _ _ first ih

/-- Names that stand for the same thing are bound to twins, or else they are the same. -/
theorem TwinScope.lookup {names : List (String × String)} {scope surroundings : Scope}
    (twins : TwinScope pairs names scope surroundings) {name other : String}
    (same : SameName names name other) :
    (∃ object counterpart, scope.lookup name = some object ∧
      surroundings.lookup other = some counterpart ∧ Twin pairs object counterpart) ∨
      scope.lookup name = none ∧ surroundings.lookup other = none ∧ name = other := by
  induction names generalizing scope surroundings with
  | nil =>
      cases twins
      exact .inr ⟨rfl, rfl, same⟩
  | cons pair names ih =>
      cases twins with
      | @cons parameter counterpart object _ _ _ _ first rest =>
          rcases same with ⟨rfl, rfl⟩ | ⟨apart, other_apart, same⟩
          · exact .inl ⟨_, _, List.lookup_cons_self, List.lookup_cons_self, first⟩
          · rw [List.lookup_cons, List.lookup_cons, beq_eq_false_iff_ne.mpr apart,
              beq_eq_false_iff_ne.mpr other_apart]
            exact ih rest same

end Twins

/-! ## Arguments -/

/-- In a call with twins the paired parameters are bound to twins, or the arguments fit neither
function. -/
theorem TwinSignature.bind? {pairs : Pairing} {signature other : Signature Object}
    (signatures : TwinSignature pairs signature other) (serial : Nat) {args others : List Object}
    (twins : Twins pairs args others) :
    Option.Rel (TwinScope pairs (signature.names.zip other.names))
      (signature.bind? (fun items => .foreign (.tuple serial items))
        (.foreign (.noKeywords serial)) args)
      (other.bind? (fun items => .foreign (.tuple serial items))
        (.foreign (.noKeywords serial)) others) := by
  have related := (twinSignature_iff_alike.mp signatures).bind?
    (fun _ _ _ all => .foreign (.tuple serial (twins_iff_forall₂.mpr all)))
    (fun _ => .foreign (.noKeywords serial)) (twins_iff_forall₂.mp twins)
  refine optionRel_imp related fun bound counterpart fits other_fits entries => ?_
  rw [← Signature.bind?_names fits, ← Signature.bind?_names other_fits]
  exact twinScope_of_forall₂ entries

end Lambda
end Combinatory
