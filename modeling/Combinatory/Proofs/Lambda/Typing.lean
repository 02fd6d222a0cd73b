import Combinatory.Proofs.Lambda.Abstraction
import Combinatory.Proofs.Term.Principal
import Mathlib.Logic.Function.Basic

/-!
# Types of open expressions

Open expressions have types in a context that gives one to every variable, and a closed term in them
has any of its types at each of its occurrences. If the body of a function has a type, abstraction
succeeds and has the type of the function. Conversely, the body can be typed after some replacement
of type variables whenever the abstraction can: `u x` needs a function type for `u` where its
abstraction `u` may have any type.
-/

namespace Combinatory
namespace Open

open Function (update)

/-- The expression has the type in the context. -/
inductive HasType (context : Var → Ty) : Open Empty → Ty → Prop
  /-- A closed term has the types that can be derived for it. -/
  | term {typed : TypedTerm} {type : Ty} (derivable : typed.term.HasType type) :
      HasType context (.term typed) type
  /-- A variable has the type that the context gives it. -/
  | var (x : Var) : HasType context (.var x) (context x)
  /-- An application has the codomain of its function's type, the argument having the domain. -/
  | app {serial : Nat} {fn arg : Open Empty} {dom cod : Ty}
      (fn_typed : HasType context fn (.arrow dom cod)) (arg_typed : HasType context arg dom) :
      HasType context (.app serial fn arg) cod

variable {context : Var → Ty} {type : Ty}

@[simp]
theorem hasType_term_iff {typed : TypedTerm} :
    (term typed).HasType context type ↔ typed.term.HasType type := by
  constructor
  · rintro ⟨derivable⟩
    exact derivable
  · exact .term

theorem hasType_var_iff {x : Var} : (var x).HasType context type ↔ type = context x := by
  constructor
  · rintro ⟨⟩
    rfl
  · rintro rfl
    exact .var x

theorem hasType_app_iff {serial : Nat} {fn arg : Open Empty} {cod : Ty} :
    (app serial fn arg).HasType context cod ↔
      ∃ dom, fn.HasType context (.arrow dom cod) ∧ arg.HasType context dom := by
  constructor
  · rintro (_ | _ | ⟨fn_typed, arg_typed⟩)
    exact ⟨_, fn_typed, arg_typed⟩
  · rintro ⟨dom, fn_typed, arg_typed⟩
    exact .app fn_typed arg_typed

/-- Only the variables of an expression matter to its types. -/
theorem HasType.congr {other : Var → Ty} {expr : Open Empty} (typed : expr.HasType context type)
    (agree : ∀ x, expr.Mentions x → context x = other x) : expr.HasType other type := by
  induction typed with
  | term derivable => exact .term derivable
  | var x =>
      rw [agree x rfl]
      exact .var x
  | app _ _ fn_ih arg_ih =>
      exact .app (fn_ih fun x occurs => agree x (.inl occurs))
        (arg_ih fun x occurs => agree x (.inr occurs))

theorem hasType_update_iff {x : Var} {dom : Ty} {expr : Open Empty} (absent : ¬ expr.Mentions x) :
    expr.HasType (update context x dom) type ↔ expr.HasType context type := by
  have agree (y : Var) (occurs : expr.Mentions y) : update context x dom y = context y :=
    Function.update_of_ne (by rintro rfl; exact absent occurs) _ _
  exact ⟨fun typed => typed.congr agree, fun typed => typed.congr fun y h => (agree y h).symm⟩

/-- Types stay types if type variables are replaced throughout. -/
theorem HasType.bind {expr : Open Empty} (typed : expr.HasType context type)
    (replacement : String → Ty) :
    expr.HasType (fun x => (context x).bind replacement) (type.bind replacement) := by
  induction typed with
  | term derivable => exact .term (derivable.bind replacement)
  | var x => exact .var x
  | app _ _ fn_ih arg_ih => exact .app fn_ih arg_ih

theorem bind_update (context : Var → Ty) (x : Var) (dom : Ty) (replacement : String → Ty) :
    (fun y => (update context x dom y).bind replacement) =
      update (fun y => (context y).bind replacement) x (dom.bind replacement) :=
  funext fun y => Function.apply_update (fun _ => Ty.bind replacement) context x dom y

/-- The type of one variable is replaced along with the context. -/
theorem HasType.bind_update {x : Var} {dom : Ty} {expr : Open Empty}
    (typed : expr.HasType (update context x dom) type) (replacement : String → Ty) :
    expr.HasType (update (fun y => (context y).bind replacement) x (dom.bind replacement))
      (type.bind replacement) := by
  rw [← Open.bind_update]
  exact typed.bind replacement

end Open

namespace Assembly

open Function (update)

variable {context : Var → Ty} {type : Ty}

/-! ## Putting expressions together -/

/-- Joined expressions have the types of the application. -/
theorem closed_join_hasType {fn arg expr : Open Empty} (ok : closed.join fn arg = .ok expr) :
    expr.HasType context type ↔
      ∃ dom, fn.HasType context (.arrow dom type) ∧ arg.HasType context dom := by
  rcases join_cases fn arg with ⟨f, a, rfl, rfl⟩ | apart
  · rw [closed_join_terms] at ok
    split at ok
    · next application applied =>
        obtain rfl := Except.ok.inj ok
        simp [TypedTerm.app?_ok applied, Term.hasType_app_iff]
    · cases ok
  · rw [closed_join_apart apart] at ok
    obtain rfl := Except.ok.inj ok
    exact Open.hasType_app_iff

/-- Expressions are joined if their application has a type. -/
theorem exists_closed_join {fn arg : Open Empty} {dom : Ty}
    (fn_typed : fn.HasType context (.arrow dom type)) (arg_typed : arg.HasType context dom) :
    ∃ expr, closed.join fn arg = .ok expr := by
  rcases join_cases fn arg with ⟨f, a, rfl, rfl⟩ | apart
  · rw [closed_join_terms]
    split
    · exact ⟨_, rfl⟩
    · next refusal refused =>
        rw [Open.hasType_term_iff] at fn_typed arg_typed
        exact absurd (.app fn_typed arg_typed) ((TypedTerm.app?_error refused).2 type)
  · exact ⟨_, closed_join_apart apart⟩

/-- Under `K` an expression is a function from any type. -/
theorem kept_hasType {body kept : Open Empty} (ok : closed.join (.term .K) body = .ok kept) :
    kept.HasType context type ↔
      ∃ dom cod, type = .arrow dom cod ∧ body.HasType context cod := by
  rw [closed_join_hasType ok]
  constructor
  · rintro ⟨cod, k_typed, body_typed⟩
    obtain ⟨_, dom, k_type⟩ := Term.hasType_K_iff.mp (Open.hasType_term_iff.mp k_typed)
    cases k_type
    exact ⟨dom, cod, rfl, body_typed⟩
  · rintro ⟨dom, cod, rfl, body_typed⟩
    exact ⟨cod, .term (Term.hasType_K_iff.mpr ⟨cod, dom, rfl⟩), body_typed⟩

theorem exists_kept {body : Open Empty} (body_typed : body.HasType context type) :
    ∃ kept, closed.join (.term .K) body = .ok kept :=
  exists_closed_join (.term (Term.hasType_K_iff.mpr ⟨type, type, rfl⟩)) body_typed

/-- Under `S` two functions of one argument are applied to one another for every argument. -/
theorem distributed_hasType {fnAbs argAbs expr : Open Empty}
    (ok : closed.app (.term .S) [fnAbs, argAbs] = .ok expr) :
    expr.HasType context type ↔ ∃ dom middle cod, type = .arrow dom cod ∧
      fnAbs.HasType context (.arrow dom (.arrow middle cod)) ∧
        argAbs.HasType context (.arrow dom middle) := by
  rw [closed_app_two] at ok
  obtain ⟨half, first, second⟩ := bind_eq_ok.mp ok
  rw [closed_join_hasType second]
  constructor
  · rintro ⟨argType, half_typed, arg_typed⟩
    obtain ⟨fnType, s_typed, fn_typed⟩ := (closed_join_hasType first).mp half_typed
    obtain ⟨dom, middle, cod, s_type⟩ := Term.hasType_S_iff.mp (Open.hasType_term_iff.mp s_typed)
    cases s_type
    exact ⟨dom, middle, cod, rfl, fn_typed, arg_typed⟩
  · rintro ⟨dom, middle, cod, rfl, fn_typed, arg_typed⟩
    refine ⟨_, (closed_join_hasType first).mpr ⟨_, ?_, fn_typed⟩, arg_typed⟩
    exact .term (Term.hasType_S_iff.mpr ⟨dom, middle, cod, rfl⟩)

theorem exists_distributed {fnAbs argAbs : Open Empty} {dom middle cod : Ty}
    (fn_typed : fnAbs.HasType context (.arrow dom (.arrow middle cod)))
    (arg_typed : argAbs.HasType context (.arrow dom middle)) :
    ∃ expr, closed.app (.term .S) [fnAbs, argAbs] = .ok expr := by
  have s_typed : (Open.term TypedTerm.S).HasType context
      (.arrow (.arrow dom (.arrow middle cod)) (.arrow (.arrow dom middle) (.arrow dom cod))) :=
    .term (Term.hasType_S_iff.mpr ⟨dom, middle, cod, rfl⟩)
  obtain ⟨half, first⟩ := exists_closed_join s_typed fn_typed
  have half_typed := (closed_join_hasType first).mpr ⟨_, s_typed, fn_typed⟩
  obtain ⟨expr, second⟩ := exists_closed_join half_typed arg_typed
  exact ⟨expr, by rw [closed_app_two]; exact bind_eq_ok.mpr ⟨half, first, second⟩⟩

/-! ## Abstraction -/

/-- The abstraction has the function types that the body gives rise to. -/
def Carries (x : Var) (body abstraction : Open Empty) : Prop :=
  ∀ context dom cod, body.HasType (update context x dom) cod →
    abstraction.HasType context (.arrow dom cod)

/-- Every type of the abstraction becomes, by some replacement of type variables, a function type
that the body gives rise to. -/
def Recovers (x : Var) (body abstraction : Open Empty) : Prop :=
  ∀ context type, abstraction.HasType context type → ∃ replacement dom cod,
    type.bind replacement = .arrow dom cod ∧
      body.HasType (update (fun y => (context y).bind replacement) x dom) cod

variable {x : Var} {fn arg body fnAbs argAbs kept expr : Open Empty} {serial : Nat}

theorem carries_kept (absent : ¬ body.Mentions x) (ok : closed.join (.term .K) body = .ok kept) :
    Carries x body kept := by
  intro context dom cod typed
  exact (kept_hasType ok).mpr ⟨dom, cod, rfl, (Open.hasType_update_iff absent).mp typed⟩

theorem recovers_kept (absent : ¬ body.Mentions x) (ok : closed.join (.term .K) body = .ok kept) :
    Recovers x body kept := by
  intro context type typed
  obtain ⟨dom, cod, rfl, body_typed⟩ := (kept_hasType ok).mp typed
  refine ⟨.var, dom, cod, Ty.bind_var _, ?_⟩
  simpa [Open.hasType_update_iff absent] using body_typed

theorem carries_distributed (fn_carries : Carries x fn fnAbs) (arg_carries : Carries x arg argAbs)
    (ok : closed.app (.term .S) [fnAbs, argAbs] = .ok expr) :
    Carries x (.app serial fn arg) expr := by
  intro context dom cod typed
  obtain ⟨middle, fn_typed, arg_typed⟩ := Open.hasType_app_iff.mp typed
  exact (distributed_hasType ok).mpr
    ⟨dom, middle, cod, rfl, fn_carries _ _ _ fn_typed, arg_carries _ _ _ arg_typed⟩

/-- The replacement for the function comes first; the type of the argument goes along with it. -/
theorem recovers_distributed (fn_recovers : Recovers x fn fnAbs)
    (arg_recovers : Recovers x arg argAbs)
    (ok : closed.app (.term .S) [fnAbs, argAbs] = .ok expr) :
    Recovers x (.app serial fn arg) expr := by
  intro context type typed
  obtain ⟨dom, middle, cod, rfl, fn_typed, arg_typed⟩ := (distributed_hasType ok).mp typed
  obtain ⟨first, _, _, fn_eq, fn_typed⟩ := fn_recovers _ _ fn_typed
  cases fn_eq
  obtain ⟨second, _, _, arg_eq, arg_typed⟩ := arg_recovers _ _ (arg_typed.bind first)
  cases arg_eq
  refine ⟨fun name => (first name).bind second, _, _, rfl, ?_⟩
  simp only [← Ty.bind_bind]
  exact .app (fn_typed.bind_update second) arg_typed

/-- A variable type is made a function type where a function is needed. -/
theorem exists_arrow_instance (type : Ty) :
    ∃ replacement dom cod, type.bind replacement = .arrow dom cod := by
  cases type with
  | var name => exact ⟨fun _ => .arrow (.var name) (.var name), _, _, rfl⟩
  | arrow dom cod => exact ⟨.var, dom, cod, Ty.bind_var _⟩

theorem carries_eta (absent : ¬ fn.Mentions x) : Carries x (.app serial fn (.var x)) fn := by
  intro context dom cod typed
  obtain ⟨argType, fn_typed, arg_typed⟩ := Open.hasType_app_iff.mp typed
  obtain rfl : argType = dom := by simpa using Open.hasType_var_iff.mp arg_typed
  exact (Open.hasType_update_iff absent).mp fn_typed

theorem recovers_eta (absent : ¬ fn.Mentions x) : Recovers x (.app serial fn (.var x)) fn := by
  intro context type typed
  obtain ⟨replacement, dom, cod, type_eq⟩ := exists_arrow_instance type
  refine ⟨replacement, dom, cod, type_eq, ?_⟩
  have fn_typed := typed.bind replacement
  rw [type_eq, ← Open.hasType_update_iff absent] at fn_typed
  refine .app fn_typed ?_
  rw [Open.hasType_var_iff, Function.update_self]

theorem carries_here : Carries x (.var x) (.term .I) := by
  intro context dom cod typed
  obtain rfl : cod = dom := by simpa using Open.hasType_var_iff.mp typed
  exact .term (Term.hasType_I_iff.mpr ⟨cod, rfl⟩)

theorem recovers_here : Recovers x (.var x) (.term .I) := by
  intro context type typed
  obtain ⟨dom, rfl⟩ := Term.hasType_I_iff.mp (Open.hasType_term_iff.mp typed)
  refine ⟨.var, dom, dom, Ty.bind_var _, ?_⟩
  rw [Open.hasType_var_iff, Function.update_self]

/-- Abstraction keeps types in both directions. -/
theorem Eliminates.carries_and_recovers (eliminates : Eliminates x body expr) :
    Carries x body expr ∧ Recovers x body expr := by
  induction eliminates with
  | here => exact ⟨carries_here, recovers_here⟩
  | kept absent ok => exact ⟨carries_kept absent ok, recovers_kept absent ok⟩
  | eta absent => exact ⟨carries_eta absent, recovers_eta absent⟩
  | distributed _ _ ok fn_ih arg_ih =>
      obtain ⟨fn_carries, fn_recovers⟩ := fn_ih
      obtain ⟨arg_carries, arg_recovers⟩ := arg_ih
      exact ⟨carries_distributed fn_carries arg_carries ok,
        recovers_distributed fn_recovers arg_recovers ok⟩

/-! ## Success of abstraction -/

/-- A typed part can be abstracted from, under `K` if the variable does not occur. -/
theorem Tried.exists_whole {result : Option (Open Empty)} {dom cod : Ty}
    (tried : Tried x body result) (typed : body.HasType (update context x dom) cod) :
    ∃ whole, result.elim (closed.join (.term .K) body) .ok = .ok whole ∧
      whole.HasType context (.arrow dom cod) := by
  cases result with
  | some abstraction => exact ⟨abstraction, rfl, tried.carries_and_recovers.1 _ _ _ typed⟩
  | none =>
      obtain ⟨kept, ok⟩ := exists_kept ((Open.hasType_update_iff tried).mp typed)
      exact ⟨kept, ok, carries_kept tried ok _ _ _ typed⟩

/-- The rules apply to a body that has a type. -/
theorem exists_abstract? {dom cod : Ty} (typed : body.HasType (update context x dom) cod) :
    ∃ result, closed.abstract? x body = .ok result := by
  induction body generalizing cod with
  | term typed => exact ⟨_, rfl⟩
  | var y => exact ⟨_, rfl⟩
  | foreign value => exact value.elim
  | app serial fn arg fn_ih arg_ih =>
      obtain ⟨argType, fn_typed, arg_typed⟩ := Open.hasType_app_iff.mp typed
      obtain ⟨fnResult, fn_ok⟩ := fn_ih fn_typed
      obtain ⟨argResult, arg_ok⟩ := arg_ih arg_typed
      obtain ⟨fnAbs, fn_whole, fn_typed⟩ := (tried_of_abstract? fn_ok).exists_whole fn_typed
      obtain ⟨argAbs, arg_whole, arg_typed⟩ := (tried_of_abstract? arg_ok).exists_whole arg_typed
      obtain ⟨expr, distributed⟩ := exists_distributed fn_typed arg_typed
      have distributes : (do return some (← closed.app (.term .S) [fnAbs, argAbs])) =
          (.ok (some expr) : Except (IllTyped Term) _) := bind_eq_ok.mpr ⟨expr, distributed, rfl⟩
      have fn_pure : closed.abstract? x fn = pure fnResult := fn_ok
      have arg_pure : closed.abstract? x arg = pure argResult := arg_ok
      simp only [abstract?, fn_pure, arg_pure, pure_bind, closed_app_one, closed_result?]
      cases fnResult with
      | none =>
          cases argResult with
          | none => exact ⟨none, rfl⟩
          | some argAbstraction =>
              obtain rfl := Except.ok.inj arg_whole
              cases is_x : arg.isVar x with
              | true => exact ⟨some fn, rfl⟩
              | false => exact ⟨some expr, bind_eq_ok.mpr ⟨fnAbs, fn_whole, distributes⟩⟩
      | some fnAbstraction =>
          obtain rfl := Except.ok.inj fn_whole
          cases argResult with
          | none => exact ⟨some expr, bind_eq_ok.mpr ⟨argAbs, arg_whole, distributes⟩⟩
          | some argAbstraction =>
              obtain rfl := Except.ok.inj arg_whole
              exact ⟨some expr, distributes⟩

/-- Abstraction succeeds if the body has a type. -/
theorem exists_closed_abstract {dom cod : Ty} (typed : body.HasType (update context x dom) cod) :
    ∃ expr, closed.abstract x body = .ok expr := by
  obtain ⟨result, tried_ok⟩ := exists_abstract? typed
  obtain ⟨whole, whole_ok, -⟩ := (tried_of_abstract? tried_ok).exists_whole typed
  refine ⟨whole, bind_eq_ok.mpr ⟨result, tried_ok, ?_⟩⟩
  cases result with
  | some abstraction =>
      obtain rfl := Except.ok.inj whole_ok
      rfl
  | none =>
      rw [← closed_app_one] at whole_ok
      exact bind_eq_ok.mpr ⟨whole, whole_ok, rfl⟩

end Assembly
end Combinatory
