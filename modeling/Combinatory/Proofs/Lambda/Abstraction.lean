import Combinatory.Lambda.Open

/-!
# Abstraction in closed expressions

Expressions of terms, variables and applications only. An expression is joined if no application in
it is one of closed terms, so a joined expression without variables is a term. The rules by which a
variable is abstracted are collected in one relation: abstraction removes its variable and no other
one, and keeps expressions joined.
-/

namespace Combinatory
namespace Open

variable {α : Type}

/-- Does the variable occur in the expression? -/
def Mentions (x : Var) : Open α → Prop
  | term _ => False
  | var y => y = x
  | app _ fn arg => fn.Mentions x ∨ arg.Mentions x
  | foreign _ => False

/-- Is the expression a closed term? -/
def isTerm : Open α → Bool
  | term _ => true
  | _ => false

theorem isVar_iff {x : Var} {expr : Open α} : expr.isVar x = true ↔ expr = var x := by
  cases expr <;> simp [isVar]

/-- No application in the expression is one of closed terms. -/
def Joined : Open α → Prop
  | app _ fn arg => fn.Joined ∧ arg.Joined ∧ (fn.isTerm && arg.isTerm) = false
  | _ => True

/-- Every joined expression without variables is a term. -/
theorem Joined.exists_term {expr : Open Empty} (joined : expr.Joined)
    (no_vars : ∀ x, ¬ expr.Mentions x) : ∃ typed, expr = term typed := by
  induction expr with
  | term typed => exact ⟨typed, rfl⟩
  | var x => exact absurd rfl (no_vars x)
  | app serial fn arg fn_ih arg_ih =>
      obtain ⟨fn_joined, arg_joined, apart⟩ := joined
      obtain ⟨fn, rfl⟩ := fn_ih fn_joined fun x occurs => no_vars x (.inl occurs)
      obtain ⟨arg, rfl⟩ := arg_ih arg_joined fun x occurs => no_vars x (.inr occurs)
      cases apart
  | foreign value => exact value.elim

end Open

namespace Assembly

open Open (Mentions Joined)

/-! ## Putting expressions together -/

theorem closed_join_terms (fn arg : TypedTerm) :
    closed.join (.term fn) (.term arg) =
      match fn.app? arg with
      | .ok application => .ok (.term application)
      | .error refusal => .error refusal := by
  change (fn.app? arg >>= fun application => pure (Open.term application)) = _
  cases fn.app? arg <;> rfl

/-- Joining closed terms applies the one to the other, and joining other expressions just pairs
them. -/
theorem join_cases {α : Type} (fn arg : Open α) :
    (∃ f a, fn = .term f ∧ arg = .term a) ∨ (fn.isTerm && arg.isTerm) = false := by
  cases fn <;> cases arg <;> simp [Open.isTerm]

theorem join_apart {m : Type → Type} [Monad m] {α : Type} (assembly : Assembly m α)
    {fn arg : Open α} (apart : (fn.isTerm && arg.isTerm) = false) :
    assembly.join fn arg = do return .app (← assembly.nextSerial) fn arg := by
  cases fn <;> cases arg <;> first | rfl | cases apart

theorem closed_join_apart {fn arg : Open Empty} (apart : (fn.isTerm && arg.isTerm) = false) :
    closed.join fn arg = .ok (.app 0 fn arg) :=
  closed.join_apart apart

theorem closed_join_mentions {fn arg expr : Open Empty} (ok : closed.join fn arg = .ok expr)
    (y : Var) : expr.Mentions y ↔ fn.Mentions y ∨ arg.Mentions y := by
  rcases join_cases fn arg with ⟨f, a, rfl, rfl⟩ | apart
  · rw [closed_join_terms] at ok
    split at ok
    · obtain rfl := Except.ok.inj ok
      simp [Mentions]
    · cases ok
  · rw [closed_join_apart apart] at ok
    obtain rfl := Except.ok.inj ok
    rfl

theorem closed_join_joined {fn arg expr : Open Empty} (ok : closed.join fn arg = .ok expr)
    (fn_joined : fn.Joined) (arg_joined : arg.Joined) : expr.Joined := by
  rcases join_cases fn arg with ⟨f, a, rfl, rfl⟩ | apart
  · rw [closed_join_terms] at ok
    split at ok
    · obtain rfl := Except.ok.inj ok
      trivial
    · cases ok
  · rw [closed_join_apart apart] at ok
    obtain rfl := Except.ok.inj ok
    exact ⟨fn_joined, arg_joined, apart⟩

@[simp]
theorem closed_convert (expr : Open Empty) : closed.convert expr = .ok expr := by
  cases expr with
  | foreign value => exact value.elim
  | _ => rfl

@[simp]
theorem closed_result? (expr : Open Empty) : closed.result? expr = some expr := by
  cases expr with
  | foreign value => exact value.elim
  | _ => rfl

@[simp]
theorem closed_mapM_convert (exprs : List (Open Empty)) :
    exprs.mapM closed.convert = .ok exprs := by
  induction exprs with
  | nil => rfl
  | cons expr exprs ih => simp [ih]; rfl

theorem closed_app (first : Open Empty) (rest : List (Open Empty)) :
    closed.app first rest = rest.foldlM closed.join first := by
  simp [app, bind, Except.bind]

theorem closed_app_one (fn arg : Open Empty) : closed.app fn [arg] = closed.join fn arg := by
  simp [closed_app]

theorem closed_app_two (fn first second : Open Empty) :
    closed.app fn [first, second] =
      closed.join fn first >>= fun middle => closed.join middle second := by
  simp [closed_app]

/-- Two steps that may fail succeed if the second one does so on what the first one gives. -/
theorem bind_eq_ok {ε β γ : Type} {run : Except ε β} {next : β → Except ε γ} {result : γ} :
    (run >>= next) = .ok result ↔ ∃ value, run = .ok value ∧ next value = .ok result := by
  cases run <;> simp [bind, Except.bind]

/-! ## The rules of abstraction -/

/-- The abstraction of the variable from the first expression is the second one. -/
inductive Eliminates (x : Var) : Open Empty → Open Empty → Prop
  /-- The variable itself becomes `I`. -/
  | here : Eliminates x (.var x) (.term .I)
  /-- An expression without the variable becomes `K` of it. -/
  | kept {body expr : Open Empty} (absent : ¬ body.Mentions x)
      (ok : closed.join (.term .K) body = .ok expr) : Eliminates x body expr
  /-- A function without the variable remains where it is applied to the variable. -/
  | eta {serial : Nat} {fn : Open Empty} (absent : ¬ fn.Mentions x) :
      Eliminates x (.app serial fn (.var x)) fn
  /-- The abstractions from both parts are put under `S`. -/
  | distributed {serial : Nat} {fn arg fnAbs argAbs expr : Open Empty}
      (fn_eliminates : Eliminates x fn fnAbs) (arg_eliminates : Eliminates x arg argAbs)
      (ok : closed.app (.term .S) [fnAbs, argAbs] = .ok expr) :
      Eliminates x (.app serial fn arg) expr

/-- What comes of trying to abstract: an abstraction, or nothing if the variable does not occur. -/
def Tried (x : Var) (body : Open Empty) : Option (Open Empty) → Prop
  | some expr => Eliminates x body expr
  | none => ¬ body.Mentions x

theorem tried_of_abstract? {x : Var} {body : Open Empty} {result : Option (Open Empty)}
    (ok : closed.abstract? x body = .ok result) : Tried x body result := by
  induction body generalizing result with
  | term typed =>
      obtain rfl := Except.ok.inj ok
      exact id
  | var y =>
      obtain rfl := Except.ok.inj ok
      by_cases same : y = x
      · subst same
        rw [if_pos rfl]
        exact .here
      · rw [if_neg same]
        exact same
  | app serial fn arg fn_ih arg_ih =>
      obtain ⟨fnResult, fn_ok, ok⟩ := bind_eq_ok.mp ok
      obtain ⟨argResult, arg_ok, ok⟩ := bind_eq_ok.mp ok
      have fn_tried := fn_ih fn_ok
      have arg_tried := arg_ih arg_ok
      cases fnResult with
      | none =>
          cases argResult with
          | none =>
              obtain rfl := Except.ok.inj ok
              exact not_or.mpr ⟨fn_tried, arg_tried⟩
          | some argAbs =>
              cases is_x : arg.isVar x with
              | true =>
                  simp only [is_x, if_true, closed_result?] at ok
                  obtain rfl := Except.ok.inj ok
                  obtain rfl := Open.isVar_iff.mp is_x
                  exact .eta fn_tried
              | false =>
                  simp only [is_x, Bool.false_eq_true, if_false, closed_app_one] at ok
                  obtain ⟨fnAbs, kept, ok⟩ := bind_eq_ok.mp ok
                  obtain ⟨expr, distributed, ok⟩ := bind_eq_ok.mp ok
                  obtain rfl := Except.ok.inj ok
                  exact .distributed (.kept fn_tried kept) arg_tried distributed
      | some fnAbs =>
          cases argResult with
          | none =>
              simp only [closed_app_one] at ok
              obtain ⟨argAbs, kept, ok⟩ := bind_eq_ok.mp ok
              obtain ⟨expr, distributed, ok⟩ := bind_eq_ok.mp ok
              obtain rfl := Except.ok.inj ok
              exact .distributed fn_tried (.kept arg_tried kept) distributed
          | some argAbs =>
              obtain ⟨expr, distributed, ok⟩ := bind_eq_ok.mp ok
              obtain rfl := Except.ok.inj ok
              exact .distributed fn_tried arg_tried distributed
  | foreign value => exact value.elim

theorem eliminates_of_abstract {x : Var} {body expr : Open Empty}
    (ok : closed.abstract x body = .ok expr) : Eliminates x body expr := by
  obtain ⟨result, tried_ok, ok⟩ := bind_eq_ok.mp ok
  have tried := tried_of_abstract? tried_ok
  cases result with
  | some abstraction =>
      obtain rfl := Except.ok.inj ok
      exact tried
  | none =>
      simp only [closed_app_one] at ok
      obtain ⟨kept, joined, ok⟩ := bind_eq_ok.mp ok
      obtain rfl := Except.ok.inj ok
      exact .kept tried joined

/-- The first of several variables is abstracted last. -/
theorem abstractAll_cons {m : Type → Type} [Monad m] [LawfulMonad m] {α : Type}
    (assembly : Assembly m α) (x : Var) (xs : List Var) (body : Open α) :
    assembly.abstractAll (x :: xs) body =
      assembly.abstractAll xs body >>= assembly.abstract x := by
  simp [abstractAll]

/-! ## Variables of abstractions -/

theorem distributed_mentions {fnAbs argAbs expr : Open Empty}
    (distributed : closed.app (.term .S) [fnAbs, argAbs] = .ok expr) (y : Var) :
    expr.Mentions y ↔ fnAbs.Mentions y ∨ argAbs.Mentions y := by
  rw [closed_app_two] at distributed
  obtain ⟨middle, first, second⟩ := bind_eq_ok.mp distributed
  rw [closed_join_mentions second, closed_join_mentions first]
  simp [Mentions]

theorem distributed_joined {fnAbs argAbs expr : Open Empty}
    (distributed : closed.app (.term .S) [fnAbs, argAbs] = .ok expr) (fn_joined : fnAbs.Joined)
    (arg_joined : argAbs.Joined) : expr.Joined := by
  rw [closed_app_two] at distributed
  obtain ⟨middle, first, second⟩ := bind_eq_ok.mp distributed
  exact closed_join_joined second (closed_join_joined first trivial fn_joined) arg_joined

theorem kept_mentions {expr kept : Open Empty} (ok : closed.join (.term .K) expr = .ok kept)
    (y : Var) : kept.Mentions y ↔ expr.Mentions y := by
  simp [closed_join_mentions ok, Mentions]

/-- Abstraction removes its variable and no other one. -/
theorem Eliminates.mentions {x : Var} {body expr : Open Empty} (eliminates : Eliminates x body expr)
    (y : Var) : expr.Mentions y ↔ body.Mentions y ∧ y ≠ x := by
  have apart {other : Open Empty} (absent : ¬ other.Mentions x) (occurs : other.Mentions y) :
      y ≠ x := by
    rintro rfl
    exact absent occurs
  induction eliminates with
  | here => simp [Mentions, eq_comm]
  | kept absent ok =>
      rw [kept_mentions ok]
      exact ⟨fun occurs => ⟨occurs, apart absent occurs⟩, And.left⟩
  | eta absent =>
      constructor
      · intro occurs
        exact ⟨.inl occurs, apart absent occurs⟩
      · rintro ⟨occurs | here, different⟩
        · exact occurs
        · exact absurd here.symm different
  | distributed _ _ ok fn_ih arg_ih =>
      have fn_mentions : _ ↔ _ := fn_ih
      have arg_mentions : _ ↔ _ := arg_ih
      rw [distributed_mentions ok, fn_mentions, arg_mentions, ← or_and_right]
      rfl

theorem Eliminates.joined {x : Var} {body expr : Open Empty} (eliminates : Eliminates x body expr)
    (joined : body.Joined) : expr.Joined := by
  induction eliminates with
  | here => trivial
  | kept _ ok => exact closed_join_joined ok trivial joined
  | eta => exact joined.1
  | distributed _ _ ok fn_ih arg_ih =>
      exact distributed_joined ok (fn_ih joined.1) (arg_ih joined.2.1)

end Assembly
end Combinatory
