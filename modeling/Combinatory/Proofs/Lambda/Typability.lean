import Combinatory.Proofs.Lambda.Compilation
import Combinatory.Proofs.Lambda.Preservation

/-!
# Which functions can be compiled

A closed function is compiled exactly if the lambda term that it reads as has a simple type, in
every state that a session gets to, and is otherwise refused for an application without a type. The
term that comes of it has all types of the lambda term. It may have more: `f` applied to `x` is
abstracted to the identity, which is not only for functions.
-/

namespace Combinatory
namespace Lambda

section Typability

variable {bench : Workbench} {outer : Scope} {name : String} {signature : Signature TypedTerm}
  {body : Expr} {term : LambdaTerm}

theorem closed_of_reads {names : String → Option TypedTerm}
    (reads : Reads names [] (.function name signature body) term) (x : Var) : ¬ term.Free x := by
  intro free
  have bound := reads.mem_of_free free
  cases bound

/-- Compiling a function returns the closed term that its lambda term is compiled to, or it is
refused for an application without a type and the lambda term has none. -/
theorem compile_returns_or_refuses (sound : bench.terms.Sound)
    (reads : Reads (closed? outer bench.session) [] (.function name signature body) term)
    (serial : Nat) {steps : Nat} (enough : body.nesting ≤ steps) :
    let work := compile (perform steps)
      (.foreign (.function serial name (signature.map .term) body outer))
    (∃ value after, work.Returns bench value after ∧ term.compile = .ok (.term value)) ∨
      (∃ refusal after, work.Fails bench (.raised (.term (.illTyped refusal))) after) ∧
        ∀ context type, ¬ term.HasType context type := by
  intro work
  obtain ⟨after, -, ended⟩ := mirrors_compile reads serial enough sound
  cases compiled : term.compile with
  | ok expr =>
      rw [compiled] at ended
      obtain ⟨value, returned, rfl⟩ := ended
      exact .inl ⟨value, after, returned, rfl⟩
  | error reason =>
      rw [compiled] at ended
      obtain ⟨refusal, failed⟩ := ended
      refine .inr ⟨⟨refusal, after, failed⟩, fun context type typed => ?_⟩
      obtain ⟨expr, ok, -⟩ := typed.compile
      cases compiled.symm.trans ok

/-- In every state of a session a closed function is compiled to a term exactly if its lambda term
has a type, and is refused for an application without a type exactly if it has none. All types of
the lambda term are instances of the principal type of the term. -/
theorem compile_returns_iff_typable (reachable : bench.Reachable)
    (reads : Reads (closed? outer bench.session) [] (.function name signature body) term)
    (serial : Nat) {steps : Nat} (enough : body.nesting ≤ steps) (context : Var → Ty) :
    let work := compile (perform steps)
      (.foreign (.function serial name (signature.map .term) body outer))
    ((∃ value after, work.Returns bench value after) ↔ ∃ type, term.HasType context type) ∧
      ((∃ refusal after, work.Fails bench (.raised (.term (.illTyped refusal))) after) ↔
        ¬ ∃ type, term.HasType context type) ∧
      ∀ value after, work.Returns bench value after →
        ∀ type, term.HasType context type → type.isInstance value.type = true := by
  intro work
  have typable_iff := LambdaTerm.exists_hasType_iff (closed_of_reads reads) context
  rcases compile_returns_or_refuses reachable.sound reads serial enough with
    ⟨value, after, returned, ok⟩ | ⟨⟨refusal, after, failed⟩, untypable⟩
  · have typable : ∃ type, term.HasType context type := typable_iff.mpr ⟨value, ok⟩
    refine ⟨⟨fun _ => typable, fun _ => ⟨value, after, returned⟩⟩, ⟨?_, ?_⟩, ?_⟩
    · rintro ⟨refusal, other, failed⟩
      cases returned.symm.trans failed
    · intro untypable
      exact absurd typable untypable
    · intro result other result_returned type typed
      cases returned.symm.trans result_returned
      exact typed.isInstance ok
  · have no_type : ¬ ∃ type, term.HasType context type := fun ⟨type, typed⟩ =>
      untypable context type typed
    refine ⟨⟨?_, fun typable => absurd typable no_type⟩, ⟨fun _ => no_type, ?_⟩, ?_⟩
    · rintro ⟨value, other, returned⟩
      cases failed.symm.trans returned
    · intro _
      exact ⟨refusal, after, failed⟩
    · intro value other returned
      cases failed.symm.trans returned

end Typability

/-- A variable applied to itself has no type. -/
theorem not_hasType_self_app (context : Var → Ty) (x : Var) (type : Ty) :
    ¬ ((LambdaTerm.var x).app (.var x)).HasType context type := by
  intro typed
  cases typed with
  | @app _ _ _ dom _ fn_typed arg_typed =>
      have fn_type := LambdaTerm.hasType_var_iff.mp fn_typed
      have arg_type := LambdaTerm.hasType_var_iff.mp arg_typed
      have infinite : Ty.arrow dom type = dom := fn_type.trans arg_type.symm
      have sizes := congrArg sizeOf infinite
      simp only [Ty.arrow.sizeOf_spec] at sizes
      omega

/-- The function that applies its first argument to its second one is accepted. The one that keeps
its argument from a function that applies its own argument to itself is refused. -/
theorem compile_accepts_application_and_refuses_self_application :
    (∃ value after,
      (compile (perform 2) (.foreign (.function 0 "apply" (.plain ["f", "x"])
        (.form .app [.name "f", .name "x"]) []))).Returns .initial value after) ∧
      ∃ refusal after,
        (compile (perform 4) (.foreign (.function 0 "discard" (.plain ["x"])
          (.form .app [.name "K", .name "x",
            .function "double" (.plain ["y"]) (.form .app [.name "y", .name "y"])]) []))).Fails
          .initial (.raised (.term (.illTyped refusal))) after := by
  let f : Var := { serial := 0, name := "f" }
  let x : Var := { serial := 1, name := "x" }
  let y : Var := { serial := 2, name := "y" }
  constructor
  · have reads : Reads (closed? [] Workbench.initial.session) []
        (.function "apply" (.plain ["f", "x"]) (.form .app [.name "f", .name "x"]))
        (.lams [f, x] ((LambdaTerm.var f).apps [.var x])) :=
      .function rfl (by decide) (by simp)
        (.application .app (.parameter rfl) (.cons (.parameter rfl) .nil))
    have typed : (LambdaTerm.lams [f, x] ((LambdaTerm.var f).apps [.var x])).HasType
        (fun _ => .var "a") _ :=
      .lam (.lam (@LambdaTerm.HasType.app _ _ _ (.var "a") (.var "b") (.var f) (.var x)))
    exact (compile_returns_iff_typable .initial reads 0 (by decide) _).1.mpr ⟨_, typed⟩
  · have reads : Reads (closed? [] Workbench.initial.session) []
        (.function "discard" (.plain ["x"]) (.form .app [.name "K", .name "x",
          .function "double" (.plain ["y"]) (.form .app [.name "y", .name "y"])]))
        (.lams [x] ((LambdaTerm.const .K).apps
          [.var x, .lams [y] ((LambdaTerm.var y).apps [.var y])])) := by
      refine .function rfl (by decide) (by simp) (.application .app (.closed rfl rfl) ?_)
      refine .cons (.parameter rfl) (.cons ?_ .nil)
      exact .function rfl (by decide) (by decide)
        (.application .app (.parameter rfl) (.cons (.parameter rfl) .nil))
    refine (compile_returns_iff_typable .initial reads 0 (by decide) fun _ => .var "a").2.1.mpr ?_
    rintro ⟨type, typed⟩
    cases typed with
    | lam kept_typed =>
        cases kept_typed with
        | app _ double_typed =>
            cases double_typed with
            | lam body_typed => exact not_hasType_self_app _ _ _ body_typed

end Lambda
end Combinatory
