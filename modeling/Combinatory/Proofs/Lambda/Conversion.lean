import Combinatory.Proofs.Lambda.Hygiene

/-!
# Abstraction from objects that are not expressions

Application reads its parts as expressions before it looks at them. Abstraction looks for the
variable first, and an object that is no expression has no variables. It is read only where it is
put under `K`. That makes no difference unless the object is a function and the variable is left in
what is read from it: then the variable is not abstracted but left in the result.
-/

namespace Combinatory

namespace Assembly

section Absent

variable {m : Type → Type} [Monad m] [LawfulMonad m] {α : Type} (assembly : Assembly m α) {x : Var}

/-- Nothing is abstracted from an expression without the variable, and nothing is done. -/
theorem abstract?_of_not_mentions {expr : Open α} (absent : ¬ expr.Mentions x) :
    assembly.abstract? x expr = pure none := by
  induction expr with
  | term value => rfl
  | var y =>
      have apart : y ≠ x := absent
      rw [abstract?, if_neg apart]
  | app serial fn arg fn_ih arg_ih =>
      rw [abstract?, fn_ih fun occurs => absent (.inl occurs),
        arg_ih fun occurs => absent (.inr occurs), pure_bind, pure_bind]
  | foreign value => rfl

/-- An expression without the variable is read and put under `K`. -/
theorem abstract_of_not_mentions {body : Open α} (absent : ¬ body.Mentions x) :
    assembly.abstract x body = (do
      let expr ← assembly.convert body
      let kept ← assembly.join (.term .K) expr
      assembly.note x body kept
      return kept) := by
  simp [abstract, abstract?_of_not_mentions assembly absent, app, convert]

end Absent

end Assembly

namespace Lambda

/-- Is the object a function? -/
def isFunction : Object → Bool
  | .foreign (.function _ _ _ _ _) => true
  | _ => false

/-- How abstraction from an object compares with abstraction from the expression that is read from
it, which has certain variables, if others are left in the result. -/
structure Compares (perform : Task → Work Object) (x : Var) (body result converted : Object)
    (later : Workbench) (vars left : List Var) : Prop where
  /-- The result is the same, and the variable is gone. -/
  agrees (agreeing : isFunction body = false ∨ x ∉ vars) :
    x ∉ left ∧ ∃ last, ((assembly perform).abstract x converted).Returns later result last
  /-- The variable is left, and so the result is no abstraction of the expression. -/
  deviates (is_function : isFunction body = true) (mem : x ∈ vars) :
    x ∈ left ∧ (∃ serial, result = .app serial (.term .K) converted) ∧
      ∀ other last, ((assembly perform).abstract x converted).Returns later other last →
        other ≠ result

section Conversion

variable {bench after : Workbench} {steps : Nat} {x : Var}

/-- What is read from an object other than a function is a closed term. -/
theorem exists_term_of_read {value : Extra} (no_function : isFunction (.foreign value) = false)
    {expr : Object} (returned : (perform steps (.read value)).Returns bench expr after) :
    ∃ term, expr = .term term := by
  cases steps with
  | zero => cases returned
  | succ steps =>
      cases value with
      | function => cases no_function
      | combinator number name? =>
          obtain ⟨term, middle, -, ended⟩ := ExceptT.returns_bind.mp returned
          exact ⟨term, (ExceptT.returns_pure.mp ended).1.symm⟩
      | _ =>
          obtain ⟨text, middle, -, ended⟩ := ExceptT.returns_bind.mp returned
          cases ended

variable {perform : Task → Work Object} {object : Object} {expr : Open Empty}

/-- What is put under `K` keeps its variables. -/
theorem Stands.exists_kept (stands : Stands id object expr) (sound : bench.terms.Sound)
    {kept : Object}
    (returned : ((assembly perform).join (.term .K) object).Returns bench kept after) :
    ∃ keptExpr, Stands id kept keptExpr ∧ ∀ y, keptExpr.Mentions y ↔ expr.Mentions y := by
  have mirrors : Mirrors (Stands id) ((assembly perform).join (.term .K) object) bench _ :=
    (Stands.copies_join (.term .K) stands bench).mirrors
  obtain ⟨keptExpr, ok, kept_stands⟩ := mirrors.exists_of_returns sound returned
  exact ⟨keptExpr, kept_stands, Assembly.kept_mentions ok⟩

/-- What is put under `K` is an application of `K` unless it is a closed term. -/
theorem exists_app_of_kept (no_term : object.isTerm = false) {kept : Object}
    (returned : ((assembly perform).join (.term .K) object).Returns bench kept after) :
    ∃ serial, kept = .app serial (.term .K) object := by
  have apart : ((Open.term .K : Object).isTerm && object.isTerm) = false := no_term
  rw [Assembly.join_apart _ apart] at returned
  obtain ⟨serial, middle, -, ended⟩ := ExceptT.returns_bind.mp returned
  exact ⟨serial, (ExceptT.returns_pure.mp ended).1.symm⟩

theorem Stands.mentions_iff (stands : Stands id object expr) (y : Var) :
    object.Mentions y ↔ expr.Mentions y := by
  induction stands with
  | term | var => rfl
  | app _ _ fn_ih arg_ih => exact or_congr fn_ih arg_ih

/-- What is put under `K` is the abstraction of any variable that does not occur in it. -/
theorem Stands.abstract_returns_kept (stands : Stands id object expr) (sound : bench.terms.Sound)
    (absent : ¬ expr.Mentions x) {kept : Object}
    (returned : ((assembly perform).join (.term .K) object).Returns bench kept after) :
    ∃ last, ((assembly perform).abstract x object).Returns bench kept last := by
  obtain ⟨keptExpr, kept_stands, -⟩ := stands.exists_kept sound returned
  have after_kept : Workbench.StaysSound bench after := (keeps_join _ _).after_returns returned
  have notes : Copies (fun _ _ => True) ((assembly perform).note x object kept) after (.ok ()) :=
    stands.copies_note kept_stands x after
  obtain ⟨last, -, written, note_returned, -⟩ := notes (after_kept sound)
  refine ⟨last, ?_⟩
  rw [Assembly.abstract_of_not_mentions _ (mt (stands.mentions_iff x).mp absent), stands.convert,
    pure_bind]
  exact returned.bind (note_returned.bind rfl)

/-- What is put under `K` is the abstraction of a variable if that does not occur in it, and is no
abstraction of it otherwise. -/
theorem Stands.compare_kept (stands : Stands id object expr) (sound : bench.terms.Sound) (x : Var)
    {kept : Object}
    (returned : ((assembly perform).join (.term .K) object).Returns bench kept after) :
    ∃ left, kept.freeVars = .ok left ∧
      (x ∉ varsOf expr →
        x ∉ left ∧ ∃ last, ((assembly perform).abstract x object).Returns bench kept last) ∧
      (x ∈ varsOf expr →
        x ∈ left ∧ (∃ serial, kept = .app serial (.term .K) object) ∧
          ∀ other last, ((assembly perform).abstract x object).Returns bench other last →
            other ≠ kept) := by
  obtain ⟨keptExpr, kept_stands, kept_mentions⟩ := stands.exists_kept sound returned
  have mem_left_iff : x ∈ varsOf keptExpr ↔ x ∈ varsOf expr := by
    rw [mem_varsOf_iff, mem_varsOf_iff, kept_mentions]
  refine ⟨varsOf keptExpr, kept_stands.freeVars_eq, fun absent => ?_, fun mem => ?_⟩
  · have not_mentioned : ¬ expr.Mentions x := mt (mem_varsOf_iff expr x).mpr absent
    exact ⟨mt mem_left_iff.mp absent, stands.abstract_returns_kept sound not_mentioned returned⟩
  · refine ⟨mem_left_iff.mpr mem, exists_app_of_kept ?_ returned, ?_⟩
    · rw [stands.isTerm]
      cases expr with
      | term value => cases mem
      | _ => rfl
    · rintro other last abstracted rfl
      obtain ⟨left, listed, mem_iff⟩ := stands.freeVars_of_abstract sound abstracted
      obtain rfl := Except.ok.inj (kept_stands.freeVars_eq.symm.trans listed)
      exact ((mem_iff x).mp (mem_left_iff.mpr mem)).2 rfl

/-- An object that is not an expression is read and put under `K`. -/
theorem returns_of_abstract_foreign {value : Extra} {result : Object}
    (abstracted : ((assembly perform).abstract x (.foreign value)).Returns bench result after) :
    ∃ converted later middle,
      ((assembly perform).convert (.foreign value)).Returns bench converted later ∧
        ((assembly perform).join (.term .K) converted).Returns later result middle := by
  have absent : ¬ (Open.foreign value : Object).Mentions x := id
  rw [Assembly.abstract_of_not_mentions _ absent] at abstracted
  obtain ⟨converted, later, read, rest⟩ := ExceptT.returns_bind.mp abstracted
  obtain ⟨kept, middle, joined, rest⟩ := ExceptT.returns_bind.mp rest
  obtain ⟨-, last, -, ended⟩ := ExceptT.returns_bind.mp rest
  obtain rfl := (ExceptT.returns_pure.mp ended).1
  exact ⟨converted, later, middle, read, joined⟩

/-- From a function that can be read abstraction returns what is read, put under `K`. -/
theorem returns_abstract_function {serial : Nat} {name : String} {signature : Signature Object}
    {body : Expr} {scope : Scope} {later middle : Workbench} {converted kept : Object}
    (read : ((assembly perform).convert
      (.foreign (.function serial name signature body scope))).Returns bench converted later)
    (joined : ((assembly perform).join (.term .K) converted).Returns later kept middle)
    (kept_stands : Stands id kept expr) (sound : middle.terms.Sound) :
    ∃ last, ((assembly perform).abstract x
      (.foreign (.function serial name signature body scope))).Returns bench kept last := by
  have writes : Copies (fun _ _ => True) (text perform kept) middle (.ok ()) :=
    kept_stands.copies_text middle
  obtain ⟨written, -, keptText, text_returned, -⟩ := writes sound
  have absent : ¬ (Open.foreign (.function serial name signature body scope) : Object).Mentions x :=
    id
  let line := "abstract " ++ x.name ++ " in " ++ "<function>" ++ " = " ++ keptText
  have function_text :
      (text perform (.foreign (.function serial name signature body scope))).Returns middle
        "<function>" middle := rfl
  have noted : ((assembly perform).note x (.foreign (.function serial name signature body scope))
      kept).Returns middle () { written with log := line :: written.log } :=
    function_text.bind (text_returned.bind rfl)
  refine ⟨{ written with log := line :: written.log }, ?_⟩
  rw [Assembly.abstract_of_not_mentions _ absent]
  exact read.bind (joined.bind (noted.bind rfl))

/-- An object whose variables can be listed is an expression throughout. -/
theorem exists_stands_of_freeVars {vars : List Var} (listed : object.freeVars = .ok vars) :
    ∃ expr, Stands id object expr := by
  induction object generalizing vars with
  | term value => exact ⟨.term value, .term value⟩
  | var y => exact ⟨.var y, .var y⟩
  | foreign value => cases listed
  | app serial fn arg fn_ih arg_ih =>
      obtain ⟨fnVars, fn_listed, listed⟩ := Assembly.bind_eq_ok.mp listed
      obtain ⟨argVars, arg_listed, -⟩ := Assembly.bind_eq_ok.mp listed
      obtain ⟨fnExpr, fn_stands⟩ := fn_ih fn_listed
      obtain ⟨argExpr, arg_stands⟩ := arg_ih arg_listed
      exact ⟨.app serial fnExpr argExpr, .app fn_stands arg_stands⟩

theorem convert_eq_pure (no_foreign : ∀ value, object ≠ .foreign value) :
    (assembly perform).convert object = pure object := by
  cases object with
  | foreign value => exact absurd rfl (no_foreign value)
  | _ => rfl

end Conversion

/-- In a session without raw applications the variables of what is read can be listed. -/
theorem exists_freeVars_of_convert {bench renamed middle later : Workbench}
    (alongside : bench.Alongside renamed) {steps : Nat} {expr : Expr} (joins : expr.joins = true)
    {body converted : Object}
    (evaluated : (perform steps (.evaluate [] expr)).Returns bench body middle)
    (read : ((assembly (perform steps)).convert body).Returns middle converted later) :
    ∃ vars, converted.freeVars = .ok vars := by
  have performs := performs_in_step steps
  obtain ⟨pairs, in_step⟩ := alongside.self.in_step
  have evaluates : StaysInStep pairs Twin _ _ := performs.evaluate .nil (.self joins)
  obtain ⟨more, middle_in_step, twins⟩ := evaluates.of_returns in_step evaluated evaluated
  have reads : StaysInStep more TwinExpr _ _ := twins.stays_convert performs
  obtain ⟨most, -, converted_twins⟩ := reads.of_returns middle_in_step read read
  obtain ⟨vars, listed, -⟩ := converted_twins.isTerm_iff
  exact ⟨vars, listed⟩

/-- What is read from an object that is not an expression is compared by what is put under `K`. -/
theorem compares_of_foreign {bench later after : Workbench} {steps : Nat} {x : Var} {value : Extra}
    {converted result : Object} (sound : later.terms.Sound)
    (read : (perform steps (.read value)).Returns bench converted later)
    (kept : ((assembly (perform steps)).join (.term .K) converted).Returns later result after)
    {vars : List Var} (listed : converted.freeVars = .ok vars) :
    ∃ left, result.freeVars = .ok left ∧
      Compares (perform steps) x (.foreign value) result converted later vars left := by
  obtain ⟨expr, stands⟩ := exists_stands_of_freeVars listed
  obtain rfl := Except.ok.inj (stands.freeVars_eq.symm.trans listed)
  obtain ⟨left, left_listed, agrees, deviates⟩ := stands.compare_kept sound x kept
  refine ⟨left, left_listed, fun agreeing => agrees ?_, fun _ => deviates⟩
  rcases agreeing with no_function | absent
  · obtain ⟨term, rfl⟩ := exists_term_of_read no_function read
    cases stands
    exact List.not_mem_nil
  · exact absent

/-- An expression is read as itself. -/
theorem compares_of_expression {bench after : Workbench} {perform : Task → Work Object} {x : Var}
    {body result : Object} (sound : bench.terms.Sound)
    (abstracted : ((assembly perform).abstract x body).Returns bench result after)
    {vars : List Var} (listed : body.freeVars = .ok vars) :
    ∃ left, result.freeVars = .ok left ∧ Compares perform x body result body bench vars left := by
  obtain ⟨expr, stands⟩ := exists_stands_of_freeVars listed
  obtain ⟨left, left_listed, mem_left_iff⟩ := stands.freeVars_of_abstract sound abstracted
  have absent : x ∉ left := fun mem => ((mem_left_iff x).mp mem).2 rfl
  refine ⟨left, left_listed, fun _ => ⟨absent, after, abstracted⟩, fun is_function => ?_⟩
  cases stands <;> cases is_function

/-- Abstraction from an object makes of it what abstraction from the expression that is read from it
makes, and leaves no variable that is abstracted, unless the object is a function and the variable
is one of those of that expression. Then the expression is put under `K` with the variable in it,
which no abstraction from the expression gives. Without raw applications the variables of that
expression can always be listed. -/
theorem abstraction_reads_late {bench : Workbench} (reachable : bench.Reachable) {steps : Nat}
    {x : Var} {body result : Object} {after : Workbench}
    (abstracted : ((assembly (perform steps)).abstract x body).Returns bench result after) :
    ∃ converted later,
      ((assembly (perform steps)).convert body).Returns bench converted later ∧
      ((∀ value, body ≠ .foreign value) →
        ((assembly (perform steps)).abstract x converted).Returns later result after) ∧
      (∀ {earlier renamed : Workbench} {expr : Expr}, earlier.Alongside renamed →
        expr.joins = true → (perform steps (.evaluate [] expr)).Returns earlier body bench →
          ∃ vars, converted.freeVars = .ok vars) ∧
      ∀ vars, converted.freeVars = .ok vars → ∃ left, result.freeVars = .ok left ∧
        Compares (perform steps) x body result converted later vars left := by
  by_cases foreign : ∃ value, body = .foreign value
  · obtain ⟨value, rfl⟩ := foreign
    obtain ⟨converted, later, middle, read, kept⟩ := returns_of_abstract_foreign abstracted
    have read_sound : Workbench.StaysSound bench later :=
      (keeps_convert (fun task => keeps_perform steps task) _).after_returns read
    exact ⟨converted, later, read, fun no_foreign => absurd rfl (no_foreign value),
      fun alongside joins evaluated => exists_freeVars_of_convert alongside joins evaluated read,
      fun _ => compares_of_foreign (read_sound reachable.sound) read kept⟩
  · have no_foreign (value : Extra) : body ≠ .foreign value := fun same => foreign ⟨value, same⟩
    have read : ((assembly (perform steps)).convert body).Returns bench body bench := by
      rw [convert_eq_pure no_foreign]
      rfl
    exact ⟨body, bench, read, fun _ => abstracted,
      fun alongside joins evaluated => exists_freeVars_of_convert alongside joins evaluated read,
      fun _ => compares_of_expression reachable.sound abstracted⟩

/-- A session with one variable. -/
def oneVariable : Workbench :=
  (((Request.bind "x" (.newVar "x")).run 1).run .initial).2

/-- The function whose body is the variable of the session. -/
def constantly : Object :=
  .foreign (.function 1 "constantly" (.plain ["y"]) (.name "x") [])

theorem oneVariable_reachable : oneVariable.Reachable :=
  .request .initial 1 (.bind "x" (.newVar "x"))

/-- The function is read as `K x`, of which `K` is left when `x` is abstracted. -/
theorem convert_constantly : ∃ inner later last,
    ((assembly (perform 3)).convert constantly).Returns oneVariable
        (.app inner (.term .K) (.var ⟨0, "x"⟩)) later ∧
      ((assembly (perform 3)).abstract ⟨0, "x"⟩
        (.app inner (.term .K) (.var ⟨0, "x"⟩))).Returns later (.term .K) last := by
  obtain ⟨opened, opened_returned⟩ : ∃ opened,
      (openFunction (perform 2) (.plain ["y"]) (.name "x") []).Returns oneVariable
        ([⟨1, "y"⟩], .var ⟨0, "x"⟩) opened := ⟨_, rfl⟩
  have opened_sound : Workbench.StaysSound oneVariable opened :=
    (keeps_openFunction _ _ _).after_returns opened_returned
  have var_stands : Stands id (.var ⟨0, "x"⟩) (.var ⟨0, "x"⟩) := .var ⟨0, "x"⟩
  have closes : Mirrors (Stands id)
      (closeFunction (perform 2) "constantly" [⟨1, "y"⟩] (.var ⟨0, "x"⟩)) opened
      (.ok (.app 0 (.term .K) (.var ⟨0, "x"⟩))) := var_stands.mirrors_closeFunction _ _ _
  obtain ⟨later, advances, converted, returned, converted_stands⟩ :=
    closes (opened_sound oneVariable_reachable.sound)
  have read : ((assembly (perform 3)).convert constantly).Returns oneVariable converted later := by
    change (compileFunction (perform 2) "constantly" (.plain ["y"]) (.name "x") []).Returns
      oneVariable converted later
    rw [compileFunction_eq]
    exact opened_returned.bind returned
  have eliminates : Mirrors (Stands id)
      ((assembly (perform 3)).abstract (id ⟨0, "x"⟩) converted) later (.ok (.term .K)) :=
    converted_stands.mirrors_abstract (fun _ _ => id) later
  obtain ⟨last, -, result, eliminated, result_stands⟩ :=
    eliminates (advances.sound (opened_sound oneVariable_reachable.sound))
  cases result_stands
  rcases converted_stands with _ | _ | ⟨⟨⟩, ⟨⟩⟩
  exact ⟨_, later, last, read, eliminated⟩

/-- Abstraction from the function puts `K x` under `K`. -/
theorem abstract_constantly {inner : Nat} {later : Workbench}
    (read : ((assembly (perform 3)).convert constantly).Returns oneVariable
      (.app inner (.term .K) (.var ⟨0, "x"⟩)) later) :
    ∃ outer after, ((assembly (perform 3)).abstract ⟨0, "x"⟩ constantly).Returns oneVariable
      (.app outer (.term .K) (.app inner (.term .K) (.var ⟨0, "x"⟩))) after := by
  have joined : ((assembly (perform 3)).join (.term .K)
      (.app inner (.term .K) (.var ⟨0, "x"⟩))).Returns later
        (.app later.nextSerial (.term .K) (.app inner (.term .K) (.var ⟨0, "x"⟩)))
        { later with nextSerial := later.nextSerial + 1 } := rfl
  have later_sound : Workbench.StaysSound oneVariable later :=
    (keeps_convert (fun task => keeps_perform 3 task) _).after_returns read
  have kept_stands : Stands id
      (.app later.nextSerial (.term .K) (.app inner (.term .K) (.var ⟨0, "x"⟩)))
      (.app 0 (.term .K) (.app 0 (.term .K) (.var ⟨0, "x"⟩))) :=
    .app (.term .K) (.app (.term .K) (.var ⟨0, "x"⟩))
  exact ⟨_, returns_abstract_function read joined kept_stands
    (later_sound oneVariable_reachable.sound)⟩

/-- Abstraction of the variable from the function leaves it there, while it is abstracted from what
is read from the function. -/
theorem abstraction_from_function_keeps_variable : ∃ result converted after later last,
    ((assembly (perform 3)).abstract ⟨0, "x"⟩ constantly).Returns oneVariable result after ∧
      result.freeVars = .ok [⟨0, "x"⟩] ∧
      ((assembly (perform 3)).convert constantly).Returns oneVariable converted later ∧
      ((assembly (perform 3)).abstract ⟨0, "x"⟩ converted).Returns later (.term .K) last ∧
      result ≠ .term .K := by
  obtain ⟨inner, later, last, read, eliminated⟩ := convert_constantly
  obtain ⟨outer, after, abstracted⟩ := abstract_constantly read
  exact ⟨_, _, after, later, last, abstracted, rfl, read, eliminated, nofun⟩

/-- From the function the abstraction is no abstraction of what is read. From `y x` it is, and the
variable is gone. -/
theorem abstraction_from_function_and_application :
    (∃ result after left, ((assembly (perform 3)).abstract ⟨0, "x"⟩ constantly).Returns oneVariable
      result after ∧ result.freeVars = .ok left ∧ ⟨0, "x"⟩ ∈ left) ∧
    ∃ left, (Open.var ⟨1, "y"⟩ : Object).freeVars = .ok left ∧ ⟨0, "x"⟩ ∉ left := by
  constructor
  · obtain ⟨inner, known, -, known_read, -⟩ := convert_constantly
    obtain ⟨outer, after, abstracted⟩ := abstract_constantly known_read
    obtain ⟨converted, later, read, -, -, compares⟩ :=
      abstraction_reads_late oneVariable_reachable abstracted
    cases known_read.symm.trans read
    obtain ⟨left, listed, compared⟩ := compares [⟨0, "x"⟩] rfl
    exact ⟨_, after, left, abstracted, listed, (compared.deviates rfl List.mem_cons_self).1⟩
  · obtain ⟨after, abstracted⟩ : ∃ after, ((assembly (perform 3)).abstract ⟨0, "x"⟩
        (.app 1 (.var ⟨1, "y"⟩) (.var ⟨0, "x"⟩))).Returns oneVariable (.var ⟨1, "y"⟩) after :=
      ⟨_, rfl⟩
    obtain ⟨converted, later, read, -, -, compares⟩ :=
      abstraction_reads_late oneVariable_reachable abstracted
    cases read
    obtain ⟨left, listed, compared⟩ := compares _ rfl
    exact ⟨left, listed, (compared.agrees (.inl rfl)).1⟩

end Lambda
end Combinatory
