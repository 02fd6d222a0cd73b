import Combinatory.Proofs.Lambda.Following
import Combinatory.Proofs.Lambda.Reading

/-!
# Symbolic expressions follow their drafts

A symbolic expression is evaluated as its draft says, in every state of a session in which asking
for the terms of combinators gives what these settle to. It takes no more nested steps than the
expression has nested parts and asking for a term takes.
-/

namespace Combinatory

namespace Assembly

open Open (Mentions)

/-- Nothing occurs in an application that does not occur in a part. -/
theorem closed_foldlM_join_mentions {first expr : Open Empty} {rest : List (Open Empty)}
    (ok : rest.foldlM closed.join first = .ok expr) {y : Var} (occurs : expr.Mentions y) :
    ∃ part ∈ first :: rest, part.Mentions y := by
  induction rest generalizing first with
  | nil =>
      obtain rfl := Except.ok.inj ok
      exact ⟨first, List.mem_cons_self, occurs⟩
  | cons arg rest ih =>
      rw [List.foldlM_cons] at ok
      obtain ⟨joined, joined_ok, ok⟩ := bind_eq_ok.mp ok
      obtain ⟨part, mem, part_occurs⟩ := ih ok
      rcases List.mem_cons.mp mem with rfl | mem
      · rcases (closed_join_mentions joined_ok y).mp part_occurs with fn_occurs | arg_occurs
        · exact ⟨first, List.mem_cons_self, fn_occurs⟩
        · exact ⟨arg, List.mem_cons_of_mem _ List.mem_cons_self, arg_occurs⟩
      · exact ⟨part, List.mem_cons_of_mem _ (List.mem_cons_of_mem _ mem), part_occurs⟩

/-- Nothing occurs in an abstraction that does not occur in the expression. -/
theorem closed_abstractAll_mentions {xs : List Var} {body expr : Open Empty}
    (ok : closed.abstractAll xs body = .ok expr) {y : Var} (occurs : expr.Mentions y) :
    body.Mentions y := by
  induction xs generalizing expr with
  | nil =>
      obtain rfl := Except.ok.inj ok
      exact occurs
  | cons x xs ih =>
      rw [closed.abstractAll_cons] at ok
      obtain ⟨inner, inner_ok, ok⟩ := bind_eq_ok.mp ok
      exact ih inner_ok (((eliminates_of_abstract ok).mentions y).mp occurs).1

end Assembly

namespace Lambda

/-! ## Variables -/

section Variables

variable {naming : Var → Var} {object : Object} {expr : Open Empty}

theorem freeVars_eq (expr : Open Empty) : expr.freeVars = .ok (varsOf expr) := by
  rw [varsOf]
  split
  · assumption
  · rename_i value _
    exact value.elim

theorem varsOf_app (serial : Nat) (fn arg : Open Empty) :
    varsOf (.app serial fn arg) = varsOf fn ++ (varsOf arg).filter (· ∉ varsOf fn) := by
  have eq := freeVars_eq (.app serial fn arg)
  rw [Open.freeVars, freeVars_eq fn, freeVars_eq arg] at eq
  exact (Except.ok.inj eq).symm

theorem mem_varsOf_iff (expr : Open Empty) (x : Var) : x ∈ varsOf expr ↔ expr.Mentions x := by
  induction expr with
  | term value => simp [varsOf, Open.freeVars, Open.Mentions]
  | var y => simp [varsOf, Open.freeVars, Open.Mentions, eq_comm]
  | app serial fn arg fn_ih arg_ih =>
      simp only [varsOf_app, List.mem_append, List.mem_filter, decide_eq_true_eq, fn_ih, arg_ih,
        Open.Mentions]
      tauto
  | foreign value => exact value.elim

/-- The variables of an object are those of the expression it is, under their names. -/
theorem Stands.freeVars (stands : Stands naming object expr)
    (apart : ∀ x, expr.Mentions x → ∀ y, expr.Mentions y → naming x = naming y → x = y) :
    object.freeVars = .ok ((varsOf expr).map naming) := by
  induction stands with
  | term value => rfl
  | var x => rfl
  | @app serial number fn arg fnExpr argExpr _ _ fn_ih arg_ih =>
      have fn_vars := fn_ih fun x x_occurs y y_occurs => apart x (.inl x_occurs) y (.inl y_occurs)
      have arg_vars := arg_ih fun x x_occurs y y_occurs => apart x (.inr x_occurs) y (.inr y_occurs)
      have mem_map_iff (x : Var) (mem : x ∈ varsOf argExpr) :
          naming x ∈ (varsOf fnExpr).map naming ↔ x ∈ varsOf fnExpr := by
        refine ⟨fun map_mem => ?_, List.mem_map_of_mem⟩
        obtain ⟨y, y_mem, same⟩ := List.mem_map.mp map_mem
        obtain rfl := apart y (.inl ((mem_varsOf_iff _ _).mp y_mem)) x
          (.inr ((mem_varsOf_iff _ _).mp mem)) same
        exact y_mem
      have rest_eq : ((varsOf argExpr).map naming).filter (· ∉ (varsOf fnExpr).map naming) =
          ((varsOf argExpr).filter (· ∉ varsOf fnExpr)).map naming := by
        rw [List.filter_map]
        refine congrArg (List.map naming) (List.filter_congr fun x mem => ?_)
        simp only [Function.comp_apply, mem_map_iff x mem]
      rw [Open.freeVars, fn_vars, arg_vars, varsOf_app, List.map_append, ← rest_eq]
      rfl

end Variables

section Drafting

variable {book : Workbench} {idle : Finset Nat} {depth : Nat}
  {world later : World book.nextSerial}

theorem follows_newVar (name : String) :
    Follows book idle world (fun later y x => y = later.var x ∧ x.serial < later.count)
      (newVar name) (Draft.newVar name) := by
  intro before stage fits
  let after : Workbench := { before with nextSerial := before.nextSerial + 1 }
  have advances : before.Advances after := ⟨rfl, rfl, Nat.le_succ _, id⟩
  refine ⟨after, stage.advances advances, advances.onward, Workbench.retains_nil,
    { serial := before.nextSerial, name }, world.drawing before.nextSerial, rfl,
    world.grows_drawing _, rfl, fits.drawing, ?_, Nat.lt_succ_self _⟩
  simp [World.var, World.drawing]

/-- New variables are drawn for parameters. -/
theorem follows_newVars {α : Type} (parameters : List (Parameter α)) :
    Follows book idle world
      (fun later ys xs => ys = xs.map later.var ∧ ∀ x ∈ xs, x.serial < later.count)
      (parameters.mapM fun parameter => newVar parameter.name)
      (parameters.mapM fun parameter => Draft.newVar parameter.name) := by
  induction parameters generalizing world with
  | nil => exact .pure ⟨rfl, by simp⟩
  | cons parameter parameters ih =>
      rw [List.mapM_cons, List.mapM_cons]
      refine (follows_newVar parameter.name).bind fun middle y x _ first => ?_
      refine ih.bind fun later ys xs grows rest => ?_
      obtain ⟨rfl, x_drawn⟩ := first
      obtain ⟨rfl, xs_drawn⟩ := rest
      refine .pure ⟨?_, List.forall_mem_cons.mpr
        ⟨Nat.lt_of_lt_of_le x_drawn grows.count_le, xs_drawn⟩⟩
      rw [List.map_cons, World.var, World.var, grows.agree x.serial x_drawn]

/-- The names bound around an expression stand for expressions of the draft. -/
def Surrounds {start : Nat} (world : World start) (scope : Scope)
    (drafted : List (String × Open Empty)) : Prop :=
  List.Forall₂ (fun entry other => entry.1 = other.1 ∧ world.Placed entry.2 other.2) scope drafted

theorem Surrounds.grows {scope : Scope} {drafted : List (String × Open Empty)}
    (surrounds : Surrounds world scope drafted) (grows : world.Grows later) :
    Surrounds later scope drafted :=
  surrounds.imp fun _ _ entry => ⟨entry.1, entry.2.grows grows⟩

theorem Surrounds.lookup {scope : Scope} {drafted : List (String × Open Empty)}
    (surrounds : Surrounds world scope drafted) (name : String) :
    Option.Rel world.Placed (scope.lookup name) (drafted.lookup name) := by
  induction surrounds with
  | nil => exact .none
  | @cons entry other scope drafted same _ ih =>
      obtain ⟨bound, object⟩ := entry
      obtain ⟨_, expr⟩ := other
      obtain ⟨rfl, placed⟩ := same
      simp only [List.lookup_cons]
      cases name == bound with
      | true => exact .some placed
      | false => exact ih

/-- The object is what the expression is drafted to. A function is compiled as its draft says. -/
inductive Embodies (book : Workbench) (idle : Finset Nat) (depth : Nat)
    (world : World book.nextSerial) (expr : Expr) : Object → Part → Prop
  /-- An expression. -/
  | expr {object : Object} {drafted : Open Empty} (placed : world.Placed object drafted) :
      Embodies book idle depth world expr object (.expr drafted)
  /-- A combinator. -/
  | combinator {number : Nat} {name? : Option String} :
      Embodies book idle depth world expr (.foreign (.combinator number name?)) (.combinator number)
  /-- Plain data. -/
  | datum {place : Nat} {value : Datum} :
      Embodies book idle depth world expr (.foreign (.datum place value)) (.datum value)
  /-- A function. -/
  | function {serial : Nat} {name : String} {signature : Signature Object} {body : Expr}
      {scope : Scope} {compiled : Draft (Open Empty)} (is_function : expr.isFunction = true)
      (follows : ∀ {later : World book.nextSerial}, world.Grows later → ∀ {steps : Nat},
        expr.nesting + depth ≤ steps + 1 → Follows book idle later World.Placed
          (compileFunction (perform steps) name signature body scope) compiled) :
      Embodies book idle depth world expr
        (.foreign (.function serial name signature body scope)) (.function compiled)

/-- The objects are what the expressions are drafted to, one by one. -/
inductive EmbodiesAll (book : Workbench) (idle : Finset Nat) (depth : Nat)
    (world : World book.nextSerial) : List Expr → List Object → List Part → Prop
  /-- No expressions. -/
  | nil : EmbodiesAll book idle depth world [] [] []
  /-- One expression more. -/
  | cons {expr : Expr} {exprs : List Expr} {object : Object} {objects : List Object} {part : Part}
      {parts : List Part} (first : Embodies book idle depth world expr object part)
      (rest : EmbodiesAll book idle depth world exprs objects parts) :
      EmbodiesAll book idle depth world (expr :: exprs) (object :: objects) (part :: parts)

theorem Embodies.grows {expr : Expr} {object : Object} {part : Part}
    (embodies : Embodies book idle depth world expr object part) (grows : world.Grows later) :
    Embodies book idle depth later expr object part := by
  cases embodies with
  | expr placed => exact .expr (placed.grows grows)
  | combinator => exact .combinator
  | datum => exact .datum
  | function is_function follows =>
      exact .function is_function fun further => follows (grows.trans further)

theorem EmbodiesAll.grows {exprs : List Expr} {objects : List Object} {parts : List Part}
    (all : EmbodiesAll book idle depth world exprs objects parts) (grows : world.Grows later) :
    EmbodiesAll book idle depth later exprs objects parts := by
  induction all with
  | nil => exact .nil
  | cons first _ ih => exact .cons (first.grows grows) ih

/-- Asking for the terms of combinators, granted enough steps, gives what these settle to. -/
def Settles (book : Workbench) (idle : Finset Nat) (depth : Nat) : Prop :=
  ∀ {world : World book.nextSerial} {steps : Nat}, depth ≤ steps → ∀ number,
    Follows book idle world (fun _ value expected => value = expected)
      (termOf (perform steps) number) (Draft.ask number)

/-! ## Parts -/

section Parts

variable (settles : Settles book idle depth)

include settles

/-- An object is read as the expression to which the part is drafted. -/
theorem Embodies.follows_convert {expr : Expr} {object : Object} {part : Part}
    (embodies : Embodies book idle depth world expr object part) {steps : Nat}
    (enough : expr.nesting + depth ≤ steps) :
    Follows book idle world World.Placed ((assembly (perform steps)).convert object)
      part.convert := by
  have pos := expr.nesting_pos
  obtain ⟨steps, rfl⟩ : ∃ fewer, steps = fewer + 1 := ⟨steps - 1, by omega⟩
  cases embodies with
  | expr placed =>
      rw [placed.stands.convert]
      exact .pure placed
  | @combinator number name? =>
      have asked : Follows book idle world _ (termOf (perform steps) number) (Draft.ask number) :=
        settles (by omega) number
      refine asked.bind fun later value expected _ same => ?_
      rw [same]
      exact .pure (World.placed_term expected)
  | datum => exact .raise _
  | function _ follows => exact follows (.refl world) enough

theorem EmbodiesAll.follows_mapM_convert {exprs : List Expr} {objects : List Object}
    {parts : List Part} (all : EmbodiesAll book idle depth world exprs objects parts)
    (grows : world.Grows later) {steps : Nat}
    (enough : Expr.nesting.nestings exprs + depth ≤ steps) :
    Follows book idle later (fun latest => List.Forall₂ latest.Placed)
      (objects.mapM (assembly (perform steps)).convert) (parts.mapM Part.convert) := by
  induction all generalizing later with
  | nil => exact .pure .nil
  | @cons expr exprs object objects part parts first _ ih =>
      rw [Expr.nesting.nestings] at enough
      rw [List.mapM_cons, List.mapM_cons]
      refine ((first.grows grows).follows_convert settles (by omega)).bind
        fun middle _ _ further placed => ?_
      refine (ih (grows.trans further) (by omega)).bind fun latest _ _ last rest_placed => ?_
      exact .pure (.cons (placed.grows last) rest_placed)

/-- Objects are applied in turn as the parts. -/
theorem EmbodiesAll.follows_app {exprs : List Expr} {objects : List Object} {parts : List Part}
    (all : EmbodiesAll book idle depth world exprs objects parts) {steps : Nat}
    (enough : Expr.nesting.nestings exprs + depth ≤ steps) :
    Follows book idle world World.Placed (app (perform steps) objects) (Part.app parts) := by
  cases all with
  | nil => exact .raise _
  | cons first rest =>
      rw [Expr.nesting.nestings] at enough
      refine (first.follows_convert settles (by omega)).bind
        fun middle fn fnExpr grows fn_placed => ?_
      refine (rest.follows_mapM_convert settles grows (by omega)).bind
        fun later args argExprs further args_placed => ?_
      have placed := fn_placed.grows further
      have args_stand : List.Forall₂ (Stands later.var) args argExprs :=
        args_placed.imp fun _ _ arg_placed => arg_placed.stands
      have args_drawn : ∀ arg ∈ argExprs, ∀ x, arg.Mentions x → x.serial < later.count :=
        ((List.forall₂_and_left argExprs args).mp
          (args_placed.flip.imp fun _ _ arg_placed => ⟨arg_placed.drawn, arg_placed⟩)).1
      have joined : Follows book idle later _ (args.foldlM (assembly (perform steps)).join fn) _ :=
        .of_copies fun before _ => copies_foldlM_join placed.stands args_stand before
      refine joined.imp fun latest object expr related => ?_
      obtain ⟨rfl, ok, stands⟩ := related
      refine ⟨stands, fun x occurs => ?_⟩
      obtain ⟨part, mem, part_occurs⟩ := Assembly.closed_foldlM_join_mentions ok occurs
      rcases List.mem_cons.mp mem with rfl | mem
      · exact placed.drawn x part_occurs
      · exact args_drawn part mem x part_occurs

/-- An object that is no function is called as the part. -/
theorem EmbodiesAll.follows_call {head : Expr} {exprs : List Expr} {callee : Object}
    {args : List Object} {part : Part} {parts : List Part} (no_function : head.isFunction = false)
    (all : EmbodiesAll book idle depth world (head :: exprs) (callee :: args) (part :: parts))
    {steps : Nat} (enough : Expr.nesting.nestings (head :: exprs) + depth ≤ steps) :
    Follows book idle world World.Placed (call (perform steps) callee args)
      (Part.call part parts) := by
  obtain ⟨first, rest⟩ : Embodies book idle depth world head callee part ∧
      EmbodiesAll book idle depth world exprs args parts := by
    cases all with
    | cons first rest => exact ⟨first, rest⟩
  cases first with
  | @expr _ drafted placed =>
      have called : call (perform steps) callee args = app (perform steps) (callee :: args) := by
        cases placed.stands <;> rfl
      rw [called]
      exact all.follows_app settles enough
  | @combinator number name? =>
      have asked : Follows book idle world _ (termOf (perform steps) number) (Draft.ask number) :=
        settles (by omega) number
      refine asked.bind fun later value expected grows same => ?_
      rw [same]
      exact (EmbodiesAll.cons (.expr (World.placed_term expected)) (rest.grows grows)).follows_app
        settles enough
  | datum => exact .raise _
  | function is_function => cases no_function.symm.trans is_function

omit settles in
theorem Embodies.isApplicative_eq {expr : Expr} {object : Object} {part : Part}
    (embodies : Embodies book idle depth world expr object part) :
    isApplicative object = part.isApplicative := by
  cases embodies with
  | expr placed => cases placed.stands <;> rfl
  | _ => rfl

omit settles in
theorem infixApp_apart {perform : Task → Work Object} {fn arg : Object}
    (apart : (fn.isTerm && arg.isTerm) = false) :
    infixApp perform fn arg =
      if isApplicative fn || isApplicative arg then app perform [fn, arg]
      else Effect.raise .notApplicable := by
  rw [infixApp.eq_def]
  split
  · cases apart
  · rfl

omit settles in
theorem Part.infixApp_apart {fn arg : Part}
    (apart : ∀ f a, fn = .expr (.term f) → arg ≠ .expr (.term a)) :
    Part.infixApp fn arg =
      if fn.isApplicative || arg.isApplicative then Part.app [fn, arg]
      else .failed .notApplicable := by
  rw [Part.infixApp.eq_def]
  split
  · exact absurd rfl (apart _ _ rfl)
  · rfl

omit settles in
theorem Embodies.eq_term {expr : Expr} {object : Object} {value : TypedTerm}
    (embodies : Embodies book idle depth world expr object (.expr (.term value))) :
    object = .term value := by
  cases embodies with
  | expr placed =>
      cases placed.stands
      rfl

/-- An object is applied by the infix operator as the part. -/
theorem EmbodiesAll.follows_infixApp {first second : Expr} {fn arg : Object} {fnPart argPart : Part}
    (all : EmbodiesAll book idle depth world [first, second] [fn, arg] [fnPart, argPart])
    {steps : Nat} (enough : Expr.nesting.nestings [first, second] + depth ≤ steps) :
    Follows book idle world World.Placed (infixApp (perform steps) fn arg)
      (Part.infixApp fnPart argPart) := by
  have applied := all.follows_app settles enough
  rcases all with _ | ⟨fn_embodies, _ | ⟨arg_embodies, _⟩⟩
  rcases Assembly.join_cases fn arg with ⟨f, a, rfl, rfl⟩ | apart
  · cases fn_embodies with
    | expr fn_placed =>
        cases arg_embodies with
        | expr arg_placed =>
            cases fn_placed.stands
            cases arg_placed.stands
            exact applied
  · have parts_apart (f a : TypedTerm) (fn_eq : fnPart = .expr (.term f)) :
        argPart ≠ .expr (.term a) := by
      rintro rfl
      subst fn_eq
      rw [fn_embodies.eq_term, arg_embodies.eq_term] at apart
      cases apart
    rw [infixApp_apart apart, Part.infixApp_apart parts_apart, fn_embodies.isApplicative_eq,
      arg_embodies.isApplicative_eq]
    split
    · exact applied
    · exact .raise _

/-- The form is applied to the objects as to the parts. -/
theorem EmbodiesAll.follows_performForm {kind : Form} {exprs : List Expr} {objects : List Object}
    {parts : List Part} (symbolic : Expr.isSymbolicForm kind exprs = true)
    (all : EmbodiesAll book idle depth world exprs objects parts) {steps : Nat}
    (enough : Expr.nesting.nestings exprs + depth ≤ steps) :
    Follows book idle world World.Placed (performForm (perform steps) kind objects)
      (Part.form kind parts) := by
  cases kind with
  | app => exact all.follows_app settles enough
  | call =>
      cases all with
      | nil => exact .raise _
      | @cons head _ _ _ _ _ first rest =>
          have no_function : head.isFunction = false := by
            cases head with
            | function => cases symbolic
            | _ => rfl
          exact (EmbodiesAll.cons first rest).follows_call settles no_function enough
  | infixApp =>
      rcases all with _ | ⟨first, _ | ⟨second, _ | ⟨third, rest⟩⟩⟩
      · exact .raise _
      · exact .raise _
      · exact (EmbodiesAll.cons first (.cons second .nil)).follows_infixApp settles enough
      · exact .raise _
  | asExpr =>
      rcases all with _ | ⟨first, _ | ⟨second, rest⟩⟩
      · exact .raise _
      · rw [Expr.nesting.nestings] at enough
        exact first.follows_convert settles (by omega)
      · exact .raise _
  | term =>
      rcases all with _ | ⟨first, _ | ⟨second, rest⟩⟩
      · exact .raise _
      · cases first with
        | expr placed =>
            cases placed.stands <;> exact .raise _
        | @combinator number name? =>
            have asked : Follows book idle world _ (termOf (perform steps) number)
                (Draft.ask number) := settles (by omega) number
            refine asked.bind fun later value expected grows same => ?_
            rw [same]
            exact .pure (World.placed_term expected)
        | datum => exact .raise _
        | function => exact .raise _
      · simp only [performForm, Part.form]
        exact .raise _
  | rawApp | abstract | combinator => cases symbolic

end Parts

/-! ## Functions -/

/-- A function is called on new variables as its draft says if its body is evaluated so. -/
theorem follows_callFunction {signature : Signature TypedTerm} {body : Expr} {scope : Scope}
    {drafted : List (String × Open Empty)} (surrounds : Surrounds world scope drafted)
    (compilable : signature.isCompilable = true) {args : List Object} {xs : List Var}
    (args_placed : List.Forall₂ world.Placed args (xs.map .var)) {steps : Nat}
    (body_follows : ∀ {later : World book.nextSerial} {inner : Scope}
      {innerDrafted : List (String × Open Empty)}, Surrounds later inner innerDrafted →
        Follows book idle later (fun latest => Embodies book idle depth latest body)
          (perform steps (.evaluate inner body)) (body.draft book.part innerDrafted)) :
    Follows book idle world (fun latest => Embodies book idle depth latest body)
      (callFunction (perform steps) (signature.map .term) body scope args)
      ((signature.map .term).bound xs >>= fun bound =>
        body.draft book.part (bound ++ drafted)) := by
  refine .after copies_nextSerial fun serial => ?_
  have alike : (signature.map .term : Signature Object).Alike world.Placed (signature.map .term) :=
    (Signature.Alike.refl signature).map fun value _ same => same ▸ World.placed_term value
  have related : Option.Rel (Surrounds world)
      ((signature.map .term).bind? (fun items => .foreign (.tuple serial items))
        (.foreign (.noKeywords serial)) args)
      ((signature.map .term).bind? (fun _ => .term .I) (.term .I) (xs.map .var)) :=
    alike.bind?_compilable (by simp) (by simpa using compilable) args_placed
  unfold Signature.bound
  generalize (signature.map .term).bind? (fun items => Open.foreign (.tuple serial items))
    (.foreign (.noKeywords serial)) args = bound at related ⊢
  generalize (signature.map .term).bind? (fun _ => Open.term .I) (Open.term .I)
    (xs.map Open.var) = drafts at related ⊢
  cases related with
  | none => exact .raise _
  | some bound_surrounds => exact body_follows (List.rel_append bound_surrounds surrounds)

/-- A function is compiled as its draft says if its body is evaluated so. -/
theorem follows_compileFunction (settles : Settles book idle depth) {name : String}
    {signature : Signature TypedTerm} {body : Expr} {scope : Scope}
    {drafted : List (String × Open Empty)} (surrounds : Surrounds world scope drafted) {steps : Nat}
    (enough : body.nesting + depth ≤ steps)
    (body_follows : ∀ {later : World book.nextSerial} {inner : Scope}
      {innerDrafted : List (String × Open Empty)}, Surrounds later inner innerDrafted →
        Follows book idle later (fun latest => Embodies book idle depth latest body)
          (perform steps (.evaluate inner body)) (body.draft book.part innerDrafted)) :
    Follows book idle world World.Placed
      (compileFunction (perform steps) name (signature.map .term) body scope)
      ((signature.map .term).draft fun bound => body.draft book.part (bound ++ drafted)) := by
  unfold compileFunction Signature.draft
  rw [Signature.isCompilable_map, Signature.isCompilable_map]
  cases compilable : signature.isCompilable with
  | false => exact .raise _
  | true =>
      simp only [Bool.not_true, Bool.false_eq_true, if_false, Signature.map, List.mapM_map]
      refine (follows_newVars signature.positional).bind fun middle ys xs grows vars => ?_
      obtain ⟨rfl, drawn⟩ := vars
      have args_placed : List.Forall₂ middle.Placed ((xs.map middle.var).map .var)
          (xs.map .var) := by
        rw [List.map_map, List.forall₂_map_left_iff, List.forall₂_map_right_iff,
          List.forall₂_same]
        exact fun x mem => World.placed_var (drawn x mem)
      have called :=
        follows_callFunction (surrounds.grows grows) compilable args_placed body_follows
      refine called.bind fun second object part further embodies => ?_
      refine (embodies.follows_convert settles enough).bind fun later object expr last placed => ?_
      refine .after (fun before => placed.stands.copies_text before) fun exprText => ?_
      refine .after (copies_log _) fun _ => ?_
      have later_drawn (x : Var) (mem : x ∈ xs) : x.serial < later.count :=
        Nat.lt_of_lt_of_le (drawn x mem) (further.trans last).count_le
      have vars_eq : xs.map middle.var = xs.map later.var := by
        refine List.map_congr_left fun x mem => ?_
        rw [World.var, World.var, (further.trans last).agree x.serial (drawn x mem)]
      rw [vars_eq]
      have abstracted : Follows book idle later _
          ((assembly (perform steps)).abstractAll (xs.map later.var) object) _ :=
        .of_copies fun before fits => placed.stands.copies_abstractAll (fun x mem y occurs =>
          fits.var_injective (placed.drawn y occurs) (later_drawn x mem)) before
      refine abstracted.imp fun latest result abstraction related => ?_
      obtain ⟨rfl, ok, stands⟩ := related
      exact ⟨stands, fun x occurs =>
        placed.drawn x (Assembly.closed_abstractAll_mentions ok occurs)⟩

/-! ## Evaluation -/

/-- An expression with variables that have been drawn, a combinator or plain data. -/
inductive Workbench.Plain (book : Workbench) : Object → Prop
  /-- An expression in which there is nothing foreign. -/
  | expr {object : Object} {expr : Open Empty} (found : object.expr? = some expr)
      (drawn : ∀ x, expr.Mentions x → x.serial < book.nextSerial) : Plain book object
  /-- A combinator. -/
  | combinator (number : Nat) (name? : Option String) :
      Plain book (.foreign (.combinator number name?))
  /-- Plain data. -/
  | datum (place : Nat) (value : Datum) : Plain book (.foreign (.datum place value))

/-- Only expressions, combinators and plain data are named. -/
def Workbench.NamesPlain (book : Workbench) : Prop :=
  ∀ name object, book.session.lookup name = some object → book.Plain object

/-- Work that looks at the state first. -/
theorem Follows.of_get {α β : Type} {R : World book.nextSerial → α → β → Prop}
    {next : Workbench → Work α} {draft : Draft β} (rest : ∀ before, book.Stage idle before →
      Follows book idle world R (next before) draft) :
    Follows book idle world R (get >>= next) draft :=
  fun before stage fits => rest before stage before stage fits

/-- What is named is drafted to what it is. -/
theorem follows_named (expr : Expr) {object : Object} (plain : book.Plain object) :
    Follows book idle world (fun later => Embodies book idle depth later expr)
      (pure object : Work Object) (partOf object) := by
  cases plain with
  | @expr object drafted found drawn =>
      have part_eq : partOf object = .done (.expr drafted) := by
        cases object with
        | foreign value => cases found
        | _ => simp only [partOf, found]
      rw [part_eq]
      exact .pure (.expr (World.placed_old found drawn))
  | combinator number name? => exact .pure .combinator
  | datum place value => exact .pure .datum

theorem follows_lookup (named : book.NamesPlain) (expr : Expr) (name : String) :
    Follows book idle world (fun later => Embodies book idle depth later expr) (lookup name)
      (book.part name) := by
  refine .of_get fun before stage => ?_
  unfold Workbench.part
  rw [stage.session_eq]
  cases found : book.session.lookup name with
  | some object =>
      exact follows_named expr (named name object found)
  | none =>
      dsimp only
      by_cases is_S : name = "S"
      · subst is_S
        exact .pure (.expr (World.placed_term .S))
      · by_cases is_K : name = "K"
        · subst is_K
          exact .pure (.expr (World.placed_term .K))
        · by_cases is_I : name = "I"
          · subst is_I
            exact .pure (.expr (World.placed_term .I))
          · simp only
            exact .raise _

theorem follows_libraryTerm (expr : Expr) (name : Datum) :
    Follows book idle world (fun later => Embodies book idle depth later expr) (libraryTerm name)
      (libraryPart name) := by
  unfold libraryTerm libraryPart
  cases Library.lookup? name with
  | error reason => exact .raise _
  | ok term =>
      dsimp only
      cases TypedTerm.ofTerm? term with
      | error refusal => exact .raise _
      | ok typed => exact .pure (.expr (World.placed_term typed))

mutual

/-- A symbolic expression is evaluated as its draft says. -/
theorem follows_evaluate (settles : Settles book idle depth) (named : book.NamesPlain) (expr : Expr)
    (symbolic : expr.isSymbolic = true) {world : World book.nextSerial} {scope : Scope}
    {drafted : List (String × Open Empty)} (surrounds : Surrounds world scope drafted) {steps : Nat}
    (enough : expr.nesting + depth ≤ steps) :
    Follows book idle world (fun later => Embodies book idle depth later expr)
      (perform steps (.evaluate scope expr)) (expr.draft book.part drafted) := by
  have pos := expr.nesting_pos
  obtain ⟨steps, rfl⟩ : ∃ fewer, steps = fewer + 1 := ⟨steps - 1, by omega⟩
  cases expr with
  | name name =>
      simp only [perform, evaluateExpr, Expr.draft]
      have found := surrounds.lookup name
      generalize scope.lookup name = object at found ⊢
      generalize drafted.lookup name = other at found ⊢
      cases found with
      | some placed => exact .pure (.expr placed)
      | none => exact follows_lookup named _ name
  | newVar name =>
      refine (follows_newVar name).bind fun later y x _ drawn => ?_
      obtain ⟨rfl, x_drawn⟩ := drawn
      exact .pure (.expr (World.placed_var x_drawn))
  | library name => exact follows_libraryTerm _ name
  | datum place value => exact .pure .datum
  | function name signature body =>
      refine .after copies_nextSerial fun serial => .pure (.function rfl ?_)
      intro later grows granted enough
      rw [Expr.nesting] at enough
      rw [Expr.isSymbolic] at symbolic
      exact follows_compileFunction settles (surrounds.grows grows) (by omega)
        fun inner_surrounds => follows_evaluate settles named body symbolic inner_surrounds
          (by omega)
  | form kind exprs =>
      rw [Expr.isSymbolic, Bool.and_eq_true] at symbolic
      rw [Expr.nesting] at enough
      refine (follows_evaluateAll settles named exprs symbolic.2 surrounds (by omega)).bind
        fun middle objects parts grows all => ?_
      have parts_enough : Expr.nesting.nestings exprs + depth ≤ steps := by omega
      have formed := all.follows_performForm settles symbolic.1 parts_enough
      rw [← bind_pure (performForm (perform steps) kind objects)]
      exact formed.bind fun later object drafted _ placed => .pure (.expr placed)

theorem follows_evaluateAll (settles : Settles book idle depth) (named : book.NamesPlain)
    (exprs : List Expr) (symbolic : Expr.areSymbolic exprs = true)
    {world : World book.nextSerial} {scope : Scope} {drafted : List (String × Open Empty)}
    (surrounds : Surrounds world scope drafted) {steps : Nat}
    (enough : Expr.nesting.nestings exprs + depth ≤ steps) :
    Follows book idle world (fun later => EmbodiesAll book idle depth later exprs)
      (exprs.mapM fun part => perform steps (.evaluate scope part))
      (Expr.draftAll book.part drafted exprs) := by
  cases exprs with
  | nil => exact .pure .nil
  | cons expr exprs =>
      rw [Expr.areSymbolic, Bool.and_eq_true] at symbolic
      rw [Expr.nesting.nestings] at enough
      rw [List.mapM_cons, Expr.draftAll]
      refine (follows_evaluate settles named expr symbolic.1 surrounds (by omega)).bind
        fun middle object part grows first => ?_
      refine (follows_evaluateAll settles named exprs symbolic.2 (surrounds.grows grows)
        (by omega)).bind fun later objects parts further rest => ?_
      exact .pure (.cons (first.grows further) rest)

end

end Drafting

end Lambda
end Combinatory
