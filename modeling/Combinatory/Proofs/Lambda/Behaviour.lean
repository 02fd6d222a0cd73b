import Combinatory.Proofs.Lambda.Compilation
import Combinatory.Proofs.Lambda.Meaning
import Combinatory.Proofs.Lambda.Preservation

/-!
# Behaviour of abstractions and compiled functions

In every state of a session, abstracting a variable from an expression and compiling a function give
what behaves like the expression and like the body of the function: in a host whose functions have
no memory, calls of it complete whenever they do, with the same results and the same calls of
functions of the host.
-/

namespace Combinatory
namespace Lambda

/-- In every state of a session an abstraction behaves like the expression from which the variable
has been abstracted, and the term of a compiled function like the body of the function. -/
theorem abstraction_and_compilation_preserve_behaviour {bench : Workbench}
    (reachable : bench.Reachable) :
    (∀ {steps : Nat} {x : Var} {body abstraction : Object} {after : Workbench} {expr : Open Empty},
      Stands id body expr →
        ((assembly (perform steps)).abstract x body).Returns bench abstraction after →
          ∃ abstracted, Stands id abstraction abstracted ∧ expr.AbstractsTo x abstracted) ∧
      ∀ {steps serial : Nat} {name : String} {parameters : List String} {body : Expr}
        {outer : Scope} {xs : List Var} {term : LambdaTerm} {value : TypedTerm}
        {after : Workbench},
        xs.length = parameters.length → xs.Nodup →
          Reads (closed? outer bench.session) (parameters.zip xs) body term →
            body.nesting ≤ steps →
              (compile (perform steps)
                (.foreign (.function serial name (.plain parameters) body outer))).Returns bench
                  value after →
                term.ComputedBy xs value.term := by
  constructor
  · intro steps x body abstraction after expr stands returned
    have apart (y : Var) (_ : expr.Mentions y) (same : id y = id x) : y = x := same
    obtain ⟨abstracted, ok, abstraction_stands⟩ :=
      (stands.mirrors_abstract apart bench).exists_of_returns reachable.sound returned
    exact ⟨abstracted, abstraction_stands, Assembly.abstractsTo ok⟩
  · intro steps serial name parameters body outer xs term value after same_length distinct
      body_reads enough returned
    rw [← List.append_nil (parameters.zip xs)] at body_reads
    have reads : Reads (closed? outer bench.session) [] (.function name (.plain parameters) body)
        (.lams xs term) := .function same_length distinct (by simp) body_reads
    rw [← Signature.map_plain Open.term] at returned
    obtain ⟨_, ok, rfl⟩ :=
      (mirrors_compile reads serial enough).exists_of_returns reachable.sound returned
    exact LambdaTerm.computedBy ok

/-- A variable that occurs twice is abstracted from an application, and a function is compiled that
uses a parameter in a function inside it. -/
theorem behaviour_of_shared_variables :
    let f : Var := { serial := 0, name := "f" }
    let x : Var := { serial := 1, name := "x" }
    let y : Var := { serial := 2, name := "y" }
    (∃ abstraction after abstracted,
      ((assembly (perform 0)).abstract x
          (.app 3 (.app 4 (.var f) (.var x)) (.var x))).Returns .initial abstraction after ∧
        Stands id abstraction abstracted ∧
          (Open.app 0 (.app 0 (.var f) (.var x)) (.var x)).AbstractsTo x abstracted) ∧
      ∃ value after,
        (compile (perform 3) (.foreign (.function 0 "apply" (.plain ["f", "x"])
          (.form .call [.name "f", .name "x",
            .function "keep" (.plain ["y"]) (.name "x")]) []))).Returns .initial value after ∧
          ((LambdaTerm.var f).apps [.var x, .lams [y] (.var x)]).ComputedBy [f, x]
            value.term := by
  intro f x y
  have preserved := abstraction_and_compilation_preserve_behaviour .initial
  constructor
  · have stands : Stands id (.app 3 (.app 4 (.var f) (.var x)) (.var x))
        (.app 0 (.app 0 (.var f) (.var x)) (.var x)) := .app (.app (.var f) (.var x)) (.var x)
    have mirrors : Mirrors (Stands id) ((assembly (perform 0)).abstract x _) .initial _ :=
      stands.mirrors_abstract (fun _ _ same => same) .initial
    obtain ⟨after, -, abstraction, returned, -⟩ := mirrors Workbench.Reachable.initial.sound
    obtain ⟨abstracted, rest⟩ := preserved.1 stands returned
    exact ⟨abstraction, after, abstracted, returned, rest⟩
  · have body_reads : Reads (closed? [] Workbench.initial.session) [("f", f), ("x", x)]
        (.form .call [.name "f", .name "x", .function "keep" (.plain ["y"]) (.name "x")])
        ((LambdaTerm.var f).apps [.var x, .lams [y] (.var x)]) :=
      .application (.call rfl) (.parameter rfl) (.cons (.parameter rfl) (.cons
        (.function rfl (by decide) (by decide) (.parameter rfl)) .nil))
    have reads : Reads (closed? [] Workbench.initial.session) [] (.function "apply"
        (.plain ["f", "x"])
        (.form .call [.name "f", .name "x", .function "keep" (.plain ["y"]) (.name "x")]))
        (.lams [f, x] ((LambdaTerm.var f).apps [.var x, .lams [y] (.var x)])) :=
      .function rfl (by decide) (by simp) body_reads
    have mirrors : Mirrors _ (compile (perform 3) _) .initial _ :=
      mirrors_compile reads 0 (by decide)
    rw [Signature.map_plain] at mirrors
    obtain ⟨after, -, value, returned, -⟩ := mirrors Workbench.Reachable.initial.sound
    exact ⟨value, after, returned, preserved.2 rfl (by decide) body_reads (by decide) returned⟩

end Lambda
end Combinatory
