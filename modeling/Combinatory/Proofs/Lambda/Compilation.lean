import Combinatory.Proofs.Lambda.Reading
import Combinatory.Proofs.Lambda.Simulation

/-!
# Compiling functions in a session

A function that reads as a lambda term is compiled to what the lambda term is compiled to, whatever
the variables drawn for its parameters, and it fails only if the lambda term cannot be compiled.
Parts of an application are evaluated first and read as expressions afterwards, and a function among
them is compiled only then.
-/

namespace Combinatory
namespace Lambda

/-! ## Names of variables -/

/-- The names bound around an expression, where every variable of a parameter has a name of its own
in the session. -/
def scopeOf (naming : Var → Var) (vars : List (String × Var)) : Scope :=
  vars.map fun (name, x) => (name, .var (naming x))

theorem lookup_scopeOf (naming : Var → Var) (vars : List (String × Var)) (outer : Scope)
    (name : String) :
    (scopeOf naming vars ++ outer).lookup name =
      match vars.lookup name with
      | some x => some (.var (naming x))
      | none => outer.lookup name := by
  induction vars with
  | nil => rfl
  | cons entry vars ih =>
      obtain ⟨other, x⟩ := entry
      simp only [scopeOf, List.map_cons, List.cons_append, List.lookup_cons]
      cases name == other with
      | true => rfl
      | false => exact ih

/-- The variables of parameters are told apart in the session, and their serial numbers are used. -/
structure Hosts (session : Scope) (naming : Var → Var) (vars : List (String × Var))
    (bench : Workbench) : Prop where
  /-- The named objects are those of the session. -/
  session_eq : bench.session = session
  /-- Different variables have different names. -/
  apart : ∀ x ∈ vars.map Prod.snd, ∀ y ∈ vars.map Prod.snd, naming y = naming x → y = x
  /-- No new variable has the name of one of them. -/
  used : ∀ x ∈ vars.map Prod.snd, (naming x).serial < bench.nextSerial

theorem Hosts.advances {session : Scope} {naming : Var → Var} {vars : List (String × Var)}
    {before after : Workbench} (hosts : Hosts session naming vars before)
    (advances : before.Advances after) : Hosts session naming vars after where
  session_eq := advances.session_eq.trans hosts.session_eq
  apart := hosts.apart
  used x mem := Nat.lt_of_lt_of_le (hosts.used x mem) advances.serial_le

/-- Names for further variables. -/
def renamed (naming : Var → Var) (xs ys : List Var) (x : Var) : Var :=
  ((xs.zip ys).lookup x).getD (naming x)

theorem renamed_of_not_mem {naming : Var → Var} {xs ys : List Var} {x : Var} (outside : x ∉ xs) :
    renamed naming xs ys x = naming x := by
  have unlisted : (xs.zip ys).lookup x = none := by
    rw [List.lookup_eq_none_iff]
    rintro ⟨other, y⟩ mem
    simp only [bne_iff_ne]
    rintro rfl
    exact outside (List.of_mem_zip mem).1
  rw [renamed, unlisted, Option.getD_none]

theorem map_renamed {naming : Var → Var} {xs ys : List Var} (same_length : xs.length = ys.length)
    (distinct : xs.Nodup) : xs.map (renamed naming xs ys) = ys := by
  induction xs generalizing ys with
  | nil => exact (List.eq_nil_of_length_eq_zero same_length.symm).symm
  | cons x xs ih =>
      obtain ⟨y, ys, rfl⟩ := List.exists_cons_of_length_eq_add_one same_length.symm
      obtain ⟨outside, distinct⟩ := List.nodup_cons.mp distinct
      have rest : xs.map (renamed naming (x :: xs) (y :: ys)) = xs.map (renamed naming xs ys) := by
        refine List.map_congr_left fun z mem => ?_
        have apart : (z == x) = false := by
          rw [beq_eq_false_iff_ne]
          rintro rfl
          exact outside mem
        simp [renamed, List.lookup_cons, apart]
      rw [List.map_cons, rest, ih (Nat.succ.inj same_length) distinct]
      simp [renamed]

/-- New variables for all parameters. -/
theorem newVars_returns (names : List String) (before : Workbench) :
    ∃ ys after, (names.mapM newVar).Returns before ys after ∧ before.Advances after ∧
      ys.length = names.length ∧ ys.Nodup ∧
        ∀ y ∈ ys, before.nextSerial ≤ y.serial ∧ y.serial < after.nextSerial := by
  induction names generalizing before with
  | nil => exact ⟨[], before, rfl, .refl before, rfl, .nil, by simp⟩
  | cons name names ih =>
      let middle : Workbench := { before with nextSerial := before.nextSerial + 1 }
      let first : Var := { serial := before.nextSerial, name }
      have first_returned : (newVar name).Returns before first middle := rfl
      have first_advances : before.Advances middle := ⟨rfl, rfl, Nat.le_succ _, id⟩
      obtain ⟨ys, after, returned, advances, same_length, distinct, bounds⟩ := ih middle
      refine ⟨first :: ys, after, ?_, first_advances.trans advances, ?_, ?_, ?_⟩
      · rw [List.mapM_cons]
        exact first_returned.bind (returned.bind rfl)
      · rw [List.length_cons, List.length_cons, same_length]
      · refine List.nodup_cons.mpr ⟨fun mem => ?_, distinct⟩
        exact absurd (bounds first mem).1 (Nat.not_succ_le_self _)
      · intro y mem
        rcases List.mem_cons.mp mem with rfl | mem
        · exact ⟨Nat.le_refl _, advances.serial_le⟩
        · exact ⟨Nat.le_of_succ_le (bounds y mem).1, (bounds y mem).2⟩

theorem Hosts.renamed {session : Scope} {naming : Var → Var} {vars : List (String × Var)}
    {before after : Workbench} (hosts : Hosts session naming vars before)
    (advances : before.Advances after) {names : List String} {xs ys : List Var}
    (enough : xs.length = names.length) (distinct : xs.Nodup)
    (fresh : ∀ x ∈ xs, x ∉ vars.map Prod.snd) (same_length : xs.length = ys.length)
    (ys_distinct : ys.Nodup)
    (bounds : ∀ y ∈ ys, before.nextSerial ≤ y.serial ∧ y.serial < after.nextSerial) :
    Hosts session (renamed naming xs ys) (names.zip xs ++ vars) after := by
  have naming_new (x : Var) (mem : x ∈ xs) : Lambda.renamed naming xs ys x ∈ ys := by
    have mem_map : Lambda.renamed naming xs ys x ∈ xs.map (Lambda.renamed naming xs ys) :=
      List.mem_map_of_mem mem
    rwa [map_renamed same_length distinct] at mem_map
  have naming_old (x : Var) (mem : x ∈ vars.map Prod.snd) :
      Lambda.renamed naming xs ys x = naming x :=
    renamed_of_not_mem fun new => fresh x new mem
  have range_eq : (names.zip xs ++ vars).map Prod.snd = xs ++ vars.map Prod.snd := by
    rw [List.map_append, List.map_snd_zip (Nat.le_of_eq enough)]
  refine ⟨advances.session_eq.trans hosts.session_eq, ?_, ?_⟩
  · rw [range_eq]
    intro x x_mem y y_mem same
    rcases List.mem_append.mp x_mem with x_new | x_old
    · rcases List.mem_append.mp y_mem with y_new | y_old
      · have map_distinct : (xs.map (Lambda.renamed naming xs ys)).Nodup := by
          rwa [map_renamed same_length distinct]
        exact List.inj_on_of_nodup_map map_distinct y_new x_new same
      · have old_serial := hosts.used y y_old
        rw [← naming_old y y_old, same] at old_serial
        exact absurd (bounds _ (naming_new x x_new)).1 (Nat.not_le_of_lt old_serial)
    · rcases List.mem_append.mp y_mem with y_new | y_old
      · have old_serial := hosts.used x x_old
        rw [← naming_old x x_old, ← same] at old_serial
        exact absurd (bounds _ (naming_new y y_new)).1 (Nat.not_le_of_lt old_serial)
      · rw [naming_old x x_old, naming_old y y_old] at same
        exact hosts.apart x x_old y y_old same
  · rw [range_eq]
    intro x mem
    rcases List.mem_append.mp mem with new | old
    · exact (bounds _ (naming_new x new)).2
    · rw [naming_old x old]
      exact Nat.lt_of_lt_of_le (hosts.used x old) advances.serial_le

/-! ## Parts of an expression -/

section Parts

variable {perform : Task → Work Object} {outer session : Scope} {naming : Var → Var}
  {vars : List (String × Var)} {bench : Workbench}

/-- What is known about an object to which an expression has been evaluated that reads as the lambda
term: it is read as what the lambda term is compiled to, and it is that already unless it is a
function. -/
structure Evaluated (perform : Task → Work Object) (session : Scope) (naming : Var → Var)
    (vars : List (String × Var)) (expr : Expr) (term : LambdaTerm) (object : Object) : Prop where
  /-- It is read as what the lambda term is compiled to. -/
  converts : ∀ bench, Hosts session naming vars bench →
    Mirrors (Stands naming) ((assembly perform).convert object) bench term.compile
  /-- It is what the lambda term is compiled to unless it is a function. -/
  stands : expr.isFunction = false →
    ∃ compiled, term.compile = .ok compiled ∧ Stands naming object compiled

/-- The same of several expressions. -/
inductive EvaluatedAll (perform : Task → Work Object) (session : Scope) (naming : Var → Var)
    (vars : List (String × Var)) : List Expr → List LambdaTerm → List Object → Prop
  /-- No expressions. -/
  | nil : EvaluatedAll perform session naming vars [] [] []
  /-- One expression more. -/
  | cons {expr : Expr} {exprs : List Expr} {term : LambdaTerm} {terms : List LambdaTerm}
      {object : Object} {objects : List Object}
      (first : Evaluated perform session naming vars expr term object)
      (others : EvaluatedAll perform session naming vars exprs terms objects) :
      EvaluatedAll perform session naming vars (expr :: exprs) (term :: terms) (object :: objects)

/-- A part is compiled when it is evaluated, unless it is a function. -/
def evaluation (expr : Expr) (term : LambdaTerm) : Except (IllTyped Term) Unit :=
  if expr.isFunction then .ok () else do let _ ← term.compile

/-- Several parts are evaluated from left to right. -/
def evaluations : List Expr → List LambdaTerm → Except (IllTyped Term) Unit
  | expr :: exprs, term :: terms => do
      evaluation expr term
      evaluations exprs terms
  | _, _ => .ok ()

/-- In every state that hosts the variables the expression is evaluated as the lambda term. -/
def EvaluatesAs (perform : Task → Work Object) (outer session : Scope) (vars : List (String × Var))
    (expr : Expr) (term : LambdaTerm) : Prop :=
  ∀ naming bench, Hosts session naming vars bench →
    Mirrors (fun object _ => Evaluated perform session naming vars expr term object)
      (perform (.evaluate (scopeOf naming vars ++ outer) expr)) bench (evaluation expr term)

theorem mirrors_evaluated {expr : Expr} {term : LambdaTerm} {work : Work Object}
    (no_function : expr.isFunction = false)
    (mirrors : Mirrors (Stands naming) work bench term.compile) :
    Mirrors (fun object _ => Evaluated perform session naming vars expr term object) work bench
      (evaluation expr term) := by
  rw [← bind_pure work, evaluation, if_neg (by simp [no_function])]
  refine mirrors.known.bind ?_
  rintro object compiled middle - ⟨stands, ok⟩
  refine .pure ⟨fun bench _ => ?_, fun _ => ⟨compiled, ok, stands⟩⟩
  rw [stands.convert, ok]
  exact .pure stands

theorem EvaluatedAll.mirrors_convert {exprs : List Expr} {terms : List LambdaTerm}
    {objects : List Object} (all : EvaluatedAll perform session naming vars exprs terms objects)
    (hosts : Hosts session naming vars bench) :
    Mirrors (List.Forall₂ (Stands naming)) (objects.mapM (assembly perform).convert) bench
      (terms.mapM LambdaTerm.compile) := by
  induction all generalizing bench with
  | nil => exact .pure .nil
  | cons first _ ih =>
      rw [List.mapM_cons, List.mapM_cons]
      refine (first.converts bench hosts).bind fun object compiled middle advances stands => ?_
      refine (ih (hosts.advances advances)).bind fun _ _ _ _ others_stand => ?_
      exact .pure (.cons stands others_stand)

/-- Parts that have been evaluated are applied as their lambda terms. -/
theorem Evaluated.mirrors_app {head : Expr} {args : List Expr} {fn : LambdaTerm}
    {terms : List LambdaTerm} {object : Object} {objects : List Object}
    (first : Evaluated perform session naming vars head fn object)
    (others : EvaluatedAll perform session naming vars args terms objects)
    (hosts : Hosts session naming vars bench) :
    Mirrors (Stands naming) ((assembly perform).app object objects) bench
      (do let fn ← fn.compile
          let args ← terms.mapM LambdaTerm.compile
          Assembly.closed.app fn args) := by
  refine (first.converts bench hosts).bind fun _ fnExpr middle advances fn_stands => ?_
  have middle_hosts := hosts.advances advances
  refine (others.mirrors_convert middle_hosts).bind fun _ argExprs last _ args_stand => ?_
  rw [Assembly.closed_app]
  exact mirrors_foldlM_join fn_stands args_stand last

/-- An open expression takes part in infix applications with anything. -/
theorem Evaluated.isApplicative {expr : Expr} {term : LambdaTerm} {object : Object}
    (evaluated : Evaluated perform session naming vars expr term object)
    (is_open : expr.IsOpen term) : isApplicative object = true := by
  obtain ⟨no_function, x, free⟩ := is_open
  obtain ⟨compiled, ok, stands⟩ := evaluated.stands no_function
  have occurs : compiled.Mentions x := (LambdaTerm.compile_mentions ok x).mpr free
  cases stands with
  | term value => exact occurs.elim
  | var y => rfl
  | app _ _ => rfl

theorem infixApp_eq_app {fn arg : Object}
    (takes_part : (isApplicative fn || isApplicative arg) = true) :
    infixApp perform fn arg = app perform [fn, arg] := by
  rw [infixApp.eq_def, if_pos takes_part]
  split <;> rfl

/-- Every form that applies its parts comes to the application of the objects they have been
evaluated to. -/
theorem performForm_eq_app {form : Form} {head : Expr} {args : List Expr} {fn : LambdaTerm}
    {terms : List LambdaTerm} {object : Object} {objects : List Object}
    (applies : Applies form head fn args terms)
    (first : Evaluated perform session naming vars head fn object)
    (others : EvaluatedAll perform session naming vars args terms objects) :
    performForm perform form (object :: objects) = (assembly perform).app object objects := by
  cases applies with
  | app => rfl
  | call no_function =>
      obtain ⟨compiled, -, stands⟩ := first.stands no_function
      cases stands <;> rfl
  | infixApp operand =>
      rcases others with _ | ⟨second, ⟨⟩⟩
      rcases operand with ⟨fn_value, arg_value⟩ | fn_open | arg_open
      · obtain ⟨_, -, fn_stands⟩ := first.stands fn_value
        obtain ⟨_, -, arg_stands⟩ := second.stands arg_value
        cases fn_stands <;> cases arg_stands <;> rfl
      · refine infixApp_eq_app ?_
        rw [first.isApplicative fn_open, Bool.true_or]
      · refine infixApp_eq_app ?_
        rw [second.isApplicative arg_open, Bool.or_true]

/-! ## Functions -/

/-- The parameters get the new variables. -/
theorem zip_append_scopeOf {names : List String} {xs ys : List Var}
    (same_length : xs.length = ys.length) (distinct : xs.Nodup)
    (fresh : ∀ x ∈ xs, x ∉ vars.map Prod.snd) :
    names.zip (ys.map Open.var) ++ scopeOf naming vars =
      scopeOf (renamed naming xs ys) (names.zip xs ++ vars) := by
  have old_eq : scopeOf naming vars = scopeOf (renamed naming xs ys) vars := by
    refine List.map_congr_left ?_
    rintro ⟨name, x⟩ mem
    have outside : x ∉ xs := fun new => fresh x new (List.mem_map_of_mem mem)
    simp only [renamed_of_not_mem outside]
  have new_eq : names.zip (ys.map Open.var) = scopeOf (renamed naming xs ys) (names.zip xs) :=
    calc
      names.zip (ys.map Open.var) =
          names.zip ((xs.map (renamed naming xs ys)).map Open.var) := by
        rw [map_renamed same_length distinct]
      _ = scopeOf (renamed naming xs ys) (names.zip xs) := by
        rw [List.map_map, List.zip_map_right]
        rfl
  rw [old_eq, new_eq, scopeOf, scopeOf, scopeOf, List.map_append]

theorem evaluation_ok {expr : Expr} {term : LambdaTerm} {compiled : Open Empty}
    (ok : term.compile = .ok compiled) : evaluation expr term = .ok () := by
  rw [evaluation, ok]
  split <;> rfl

theorem evaluations_ok {exprs : List Expr} {terms : List LambdaTerm} {compiled : List (Open Empty)}
    (ok : terms.mapM LambdaTerm.compile = .ok compiled) : evaluations exprs terms = .ok () := by
  induction exprs generalizing terms compiled with
  | nil => rfl
  | cons expr exprs ih =>
      cases terms with
      | nil => rfl
      | cons term terms =>
          rw [List.mapM_cons] at ok
          obtain ⟨first, first_ok, ok⟩ := Assembly.bind_eq_ok.mp ok
          obtain ⟨others, others_ok, -⟩ := Assembly.bind_eq_ok.mp ok
          exact Assembly.bind_eq_ok.mpr ⟨(), evaluation_ok first_ok, ih others_ok⟩

/-- Evaluating a body first makes no difference to what is made of what it is compiled to. -/
theorem evaluation_bind_ok_iff {α : Type} (expr : Expr) {term : LambdaTerm}
    {next : Open Empty → Except (IllTyped Term) α} {result : α} :
    (do evaluation expr term; term.compile >>= next) = .ok result ↔
      (term.compile >>= next) = .ok result := by
  constructor
  · intro ok
    obtain ⟨-, -, ok⟩ := Assembly.bind_eq_ok.mp ok
    exact ok
  · intro ok
    obtain ⟨compiled, compiled_ok, -⟩ := Assembly.bind_eq_ok.mp ok
    exact Assembly.bind_eq_ok.mpr ⟨(), evaluation_ok compiled_ok, ok⟩

/-- Evaluating all parts first makes no difference to what an application is compiled to. -/
theorem evaluations_bind_ok_iff (head : Expr) (args : List Expr) {fn : LambdaTerm}
    {terms : List LambdaTerm} {result : Open Empty} :
    (do evaluation head fn
        evaluations args terms
        let fn ← fn.compile
        let args ← terms.mapM LambdaTerm.compile
        Assembly.closed.app fn args) = .ok result ↔
      (fn.apps terms).compile = .ok result := by
  rw [LambdaTerm.compile_apps_ok_iff]
  constructor
  · intro ok
    obtain ⟨-, -, ok⟩ := Assembly.bind_eq_ok.mp ok
    obtain ⟨-, -, ok⟩ := Assembly.bind_eq_ok.mp ok
    exact ok
  · intro ok
    obtain ⟨fnExpr, fn_ok, args_ok⟩ := Assembly.bind_eq_ok.mp ok
    obtain ⟨argExprs, args_ok, -⟩ := Assembly.bind_eq_ok.mp args_ok
    exact Assembly.bind_eq_ok.mpr ⟨(), evaluation_ok fn_ok,
      Assembly.bind_eq_ok.mpr ⟨(), evaluations_ok args_ok, ok⟩⟩

/-- A function that is called on new variables has its body evaluated under their names. -/
theorem mirrors_callFunction {names : List String} {body : Expr} {xs ys : List Var}
    {term : LambdaTerm} (same_length : xs.length = ys.length) (ys_enough : ys.length = names.length)
    (distinct : xs.Nodup) (fresh : ∀ x ∈ xs, x ∉ vars.map Prod.snd)
    (body_evaluates : EvaluatesAs perform outer session (names.zip xs ++ vars) body term)
    (hosts : Hosts session (renamed naming xs ys) (names.zip xs ++ vars) bench) :
    Mirrors
      (fun object _ => Evaluated perform session (renamed naming xs ys) (names.zip xs ++ vars) body
        term object)
      (callFunction perform (.plain names) body (scopeOf naming vars ++ outer) (ys.map .var)) bench
      (evaluation body term) := by
  let numbered : Workbench := { bench with nextSerial := bench.nextSerial + 1 }
  have numbered_advances : bench.Advances numbered := ⟨rfl, rfl, Nat.le_succ _, id⟩
  have args_enough : (ys.map (Open.var : Var → Object)).length = names.length := by
    rw [List.length_map, ys_enough]
  refine .of_returns (rfl : nextSerial.Returns bench bench.nextSerial numbered) numbered_advances ?_
  rw [Signature.bind?_plain _ _ args_enough]
  simp only [← List.append_assoc, zip_append_scopeOf same_length distinct fresh]
  exact body_evaluates _ _ (hosts.advances numbered_advances)

/-- The parameters are abstracted from the body. No other variable has the name of one of them. -/
theorem mirrors_abstractParameters {names : List String} {xs ys : List Var} {term : LambdaTerm}
    {object : Object} {compiled : Open Empty} (same_length : xs.length = ys.length)
    (enough : xs.length = names.length) (distinct : xs.Nodup)
    (body_vars : ∀ y, term.Free y → y ∈ (names.zip xs ++ vars).map Prod.snd)
    (hosts : Hosts session (renamed naming xs ys) (names.zip xs ++ vars) bench)
    (stands : Stands (renamed naming xs ys) object compiled) (ok : term.compile = .ok compiled)
    (later : Workbench) :
    Mirrors (Stands (renamed naming xs ys)) ((assembly perform).abstractAll ys object) later
      (Assembly.closed.abstractAll xs compiled) := by
  have apart (x : Var) (new : x ∈ xs) (y : Var) (occurs : compiled.Mentions y) :
      renamed naming xs ys y = renamed naming xs ys x → y = x := by
    have y_mem := body_vars y ((LambdaTerm.compile_mentions ok y).mp occurs)
    refine hosts.apart x ?_ y y_mem
    rw [List.map_append, List.map_snd_zip (Nat.le_of_eq enough)]
    exact List.mem_append_left _ new
  have abstracted : Mirrors (Stands (renamed naming xs ys))
      ((assembly perform).abstractAll (xs.map (renamed naming xs ys)) object) later
      (Assembly.closed.abstractAll xs compiled) := stands.mirrors_abstractAll apart later
  rwa [map_renamed same_length distinct] at abstracted

/-- A function is compiled as the lambda term that it reads as if its body is. -/
theorem mirrors_compileFunction {name : String} {names : List String} {body : Expr} {xs : List Var}
    {term : LambdaTerm} (enough : xs.length = names.length) (distinct : xs.Nodup)
    (fresh : ∀ x ∈ xs, x ∉ vars.map Prod.snd)
    (body_vars : ∀ y, term.Free y → y ∈ (names.zip xs ++ vars).map Prod.snd)
    (body_evaluates : EvaluatesAs perform outer session (names.zip xs ++ vars) body term)
    (hosts : Hosts session naming vars bench) :
    Mirrors (Stands naming)
      (compileFunction perform name (.plain names) body (scopeOf naming vars ++ outer)) bench
      (LambdaTerm.lams xs term).compile := by
  obtain ⟨ys, drawn, returned, advances, ys_enough, ys_distinct, bounds⟩ :=
    newVars_returns names bench
  have same_length : xs.length = ys.length := enough.trans ys_enough.symm
  have body_hosts :=
    hosts.renamed advances enough distinct fresh same_length ys_distinct bounds
  have params_returned :
      ((Signature.plain names : Signature Object).positional.mapM fun parameter =>
        newVar parameter.name).Returns bench ys drawn := by
    rw [Signature.plain, List.mapM_map]
    exact returned
  have compiled : Mirrors (Stands (renamed naming xs ys))
      (compileFunction perform name (.plain names) body (scopeOf naming vars ++ outer)) bench
      (LambdaTerm.lams xs term).compile := by
    rw [LambdaTerm.compile_lams]
    refine .of_ok_iff ?_ fun _ => evaluation_bind_ok_iff body
    rw [compileFunction, Signature.isCompilable_plain]
    refine .of_returns params_returned advances ?_
    have called :=
      mirrors_callFunction same_length ys_enough distinct fresh body_evaluates body_hosts
    refine called.bind fun object _ second later evaluated => ?_
    refine (evaluated.converts second (body_hosts.advances later)).known.bind ?_
    rintro expr compiled third - ⟨stands, ok⟩
    refine .after (stands.mirrors_text third) fun exprText fourth _ => ?_
    refine .after (mirrors_log _ fourth) fun _ fifth _ => ?_
    exact mirrors_abstractParameters same_length enough distinct body_vars body_hosts stands ok
      fifth
  refine compiled.imp fun object expr ok stands => stands.congr fun y occurs => ?_
  have free := (LambdaTerm.compile_mentions ok y).mp occurs
  exact renamed_of_not_mem (LambdaTerm.free_lams_iff.mp free).2

end Parts

/-! ## Evaluation -/

section Evaluation

variable {outer session : Scope}

/-- A name that no parameter has is evaluated to the closed term that it stands for. -/
theorem evaluateExpr_closed {perform : Task → Work Object} {bench : Workbench} {scope : Scope}
    {name : String} {value : TypedTerm} (unbound : scope.lookup name = outer.lookup name)
    (found : closed? outer bench.session name = some value) :
    (evaluateExpr perform scope (.name name)).Returns bench (.term value) bench := by
  simp only [evaluateExpr, unbound]
  unfold closed? at found
  cases outer_found : outer.lookup name with
  | some object =>
      rw [outer_found, Option.some_or] at found
      cases object <;> cases found
      rfl
  | none =>
      rw [outer_found, Option.none_or] at found
      refine ExceptT.Returns.bind (rfl : (get : Work Workbench).Returns bench bench bench) ?_
      cases session_found : bench.session.lookup name with
      | some object =>
          rw [session_found] at found
          cases object <;> cases found
          rfl
      | none =>
          rw [session_found] at found
          simp only at found
          split at found <;> cases found <;> rfl

mutual

/-- An expression that reads as a lambda term is evaluated as it, and its functions are compiled as
the lambda terms that they read as. -/
theorem Reads.evaluatesAs {vars : List (String × Var)} {expr : Expr} {term : LambdaTerm}
    (reads : Reads (closed? outer session) vars expr term) {steps : Nat}
    (enough : expr.nesting ≤ steps) :
    EvaluatesAs (perform steps) outer session vars expr term := by
  intro naming bench hosts
  cases steps with
  | zero => exact absurd enough (Nat.not_le_of_lt expr.nesting_pos)
  | succ steps =>
      cases reads with
      | @parameter _ name x bound =>
          refine mirrors_evaluated rfl ?_
          simp only [perform, evaluateExpr, lookup_scopeOf, bound]
          exact .pure (.var x)
      | @closed _ name value unbound found =>
          refine mirrors_evaluated rfl ?_
          have scope_unbound : (scopeOf naming vars ++ outer).lookup name = outer.lookup name := by
            rw [lookup_scopeOf, unbound]
          rw [← hosts.session_eq] at found
          rw [← bind_pure (perform _ _)]
          exact .of_returns (evaluateExpr_closed scope_unbound found) (.refl bench)
            (.pure (.term value))
      | @library _ name term value found typed =>
          refine mirrors_evaluated rfl ?_
          simp only [perform, evaluateExpr, libraryTerm, found, typed]
          exact .pure (.term value)
      | @function _ name parameters body xs term xs_enough distinct fresh body_reads =>
          let numbered : Workbench := { bench with nextSerial := bench.nextSerial + 1 }
          refine .of_returns (rfl : nextSerial.Returns bench bench.nextSerial numbered)
            ⟨rfl, rfl, Nat.le_succ _, id⟩ (.pure ⟨?_, ?_⟩)
          · intro later later_hosts
            have body_enough : body.nesting ≤ steps := Nat.le_of_succ_le_succ enough
            rw [Signature.map_plain]
            exact mirrors_compileFunction xs_enough distinct fresh (fun _ => body_reads.mem_of_free)
              (body_reads.evaluatesAs body_enough) later_hosts
          · intro no_function
            cases no_function
      | @application _ form head args fn terms applies head_reads args_read =>
          refine mirrors_evaluated rfl (.of_ok_iff ?_ fun _ => evaluations_bind_ok_iff head args)
          have parts_enough : max head.nesting (Expr.nesting.nestings args) ≤ steps :=
            Nat.le_of_succ_le_succ enough
          have head_enough := Nat.le_trans (Nat.le_max_left _ _) parts_enough
          have args_enough := Nat.le_trans (Nat.le_max_right _ _) parts_enough
          simp only [perform, evaluateExpr, List.mapM_cons, bind_assoc, pure_bind]
          refine (head_reads.evaluatesAs head_enough naming bench hosts).bind
            fun object _ middle advances first => ?_
          have middle_hosts := hosts.advances advances
          refine (args_read.mirrors_evaluate args_enough middle_hosts).bind
            fun objects _ last later others => ?_
          rw [performForm_eq_app applies first others]
          exact first.mirrors_app others (middle_hosts.advances later)
termination_by sizeOf expr

theorem ReadAll.mirrors_evaluate {vars : List (String × Var)} {exprs : List Expr}
    {terms : List LambdaTerm} (reads : ReadAll (closed? outer session) vars exprs terms)
    {steps : Nat} (enough : Expr.nesting.nestings exprs ≤ steps) {naming : Var → Var}
    {bench : Workbench} (hosts : Hosts session naming vars bench) :
    Mirrors (fun objects _ => EvaluatedAll (perform steps) session naming vars exprs terms objects)
      (exprs.mapM fun part => perform steps (.evaluate (scopeOf naming vars ++ outer) part)) bench
      (evaluations exprs terms) := by
  cases reads with
  | nil => exact .pure .nil
  | @cons _ expr exprs term terms first_reads others_read =>
      rw [List.mapM_cons]
      have first_enough : expr.nesting ≤ steps := Nat.le_trans (Nat.le_max_left _ _) enough
      have others_enough := Nat.le_trans (Nat.le_max_right expr.nesting _) enough
      refine (first_reads.evaluatesAs first_enough naming bench hosts).bind
        fun object _ middle advances first => ?_
      rw [← bind_pure (evaluations exprs terms)]
      refine (others_read.mirrors_evaluate others_enough (hosts.advances advances)).bind
        fun objects _ _ _ others => ?_
      exact .pure (.cons first others)
termination_by sizeOf exprs

end

end Evaluation

/-- A closed function is compiled to the closed term that the lambda term is compiled to. -/
theorem mirrors_compile {bench : Workbench} {outer : Scope} {name : String}
    {signature : Signature TypedTerm} {body : Expr} {term : LambdaTerm}
    (reads : Reads (closed? outer bench.session) [] (.function name signature body) term)
    (serial : Nat) {steps : Nat} (enough : body.nesting ≤ steps) :
    Mirrors (fun value compiled => compiled = .term value)
      (compile (perform steps)
        (.foreign (.function serial name (signature.map .term) body outer)))
      bench term.compile := by
  have hosts : Hosts bench.session id [] bench := ⟨rfl, by simp, by simp⟩
  have no_free (x : Var) (free : term.Free x) : False := by simpa using reads.mem_of_free free
  cases reads with
  | @function _ _ parameters _ xs term xs_enough distinct fresh body_reads =>
      rw [Signature.map_plain, ← bind_pure (LambdaTerm.lams xs term).compile]
      refine (mirrors_compileFunction xs_enough distinct fresh (fun _ => body_reads.mem_of_free)
        (body_reads.evaluatesAs enough) hosts).known.bind ?_
      rintro object compiled after - ⟨stands, ok⟩
      obtain ⟨value, rfl⟩ := LambdaTerm.exists_compile_eq_term no_free ok
      cases stands
      exact .pure rfl

end Lambda
end Combinatory
