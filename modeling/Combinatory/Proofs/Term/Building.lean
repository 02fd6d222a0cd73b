import Combinatory.Proofs.Term.Principal

/-!
# Building terms part by part

A term is built by applications that are checked for a type, from its atoms up. This succeeds for
every term that has a type, and what is built is the term with its principal type.
-/

namespace Combinatory
namespace TypedTerm

/-- The term built part by part, or the first application without a type. -/
def build? : Term → Except (IllTyped Term) TypedTerm
  | .S => .ok S
  | .K => .ok K
  | .I => .ok I
  | .app fn arg => do
      let fn ← build? fn
      let arg ← build? arg
      fn.app? arg

/-- A term has one principal type, so there is one typed form of it. -/
theorem eq_of_term_eq {left right : TypedTerm} (same : left.term = right.term) : left = right := by
  have left_made : ofTerm? right.term = .ok left := ofTerm?_ok_iff.mpr same
  have right_made : ofTerm? right.term = .ok right := ofTerm?_ok_iff.mpr rfl
  exact Except.ok.inj (left_made.symm.trans right_made)

/-- Two typed terms are applied to one another if any type can be derived for the application. -/
theorem exists_app? {fn arg : TypedTerm} {type : Ty}
    (derivable : (Term.app fn.term arg.term).HasType type) :
    ∃ application, fn.app? arg = .ok application := by
  cases applied : fn.app? arg with
  | ok application => exact ⟨application, rfl⟩
  | error refusal => exact absurd derivable ((app?_error applied).2 type)

theorem build?_term (typed : TypedTerm) : build? typed.term = .ok typed := by
  obtain ⟨term, type, inferred⟩ := typed
  induction term generalizing type with
  | S => exact congrArg Except.ok (eq_of_term_eq rfl)
  | K => exact congrArg Except.ok (eq_of_term_eq rfl)
  | I => exact congrArg Except.ok (eq_of_term_eq rfl)
  | app fn arg fn_ih arg_ih =>
      let whole : TypedTerm := { term := .app fn arg, type, typed := inferred }
      obtain ⟨dom, fn_derivable, arg_derivable⟩ := Term.hasType_app_iff.mp whole.hasType
      obtain ⟨fn, rfl⟩ := exists_of_hasType fn_derivable
      obtain ⟨arg, rfl⟩ := exists_of_hasType arg_derivable
      have derivable : (Term.app fn.term arg.term).HasType type := whole.hasType
      obtain ⟨application, applied⟩ := exists_app? derivable
      have same : application = whole := eq_of_term_eq (app?_ok applied)
      rw [build?, fn_ih _ fn.typed, arg_ih _ arg.typed]
      exact applied.trans (congrArg Except.ok same)

/-- What is built is the typed form of the term. -/
theorem build?_ok_iff {term : Term} {typed : TypedTerm} :
    build? term = .ok typed ↔ typed.term = term := by
  constructor
  · intro built
    induction term generalizing typed with
    | S => exact congrArg TypedTerm.term (Except.ok.inj built).symm
    | K => exact congrArg TypedTerm.term (Except.ok.inj built).symm
    | I => exact congrArg TypedTerm.term (Except.ok.inj built).symm
    | app fn arg fn_ih arg_ih =>
        rw [build?] at built
        cases fn_built : build? fn with
        | error refusal => simp [fn_built, bind, Except.bind] at built
        | ok fnTyped =>
            cases arg_built : build? arg with
            | error refusal => simp [fn_built, arg_built, bind, Except.bind] at built
            | ok argTyped =>
                simp only [fn_built, arg_built, bind, Except.bind] at built
                rw [app?_ok built, fn_ih fn_built, arg_ih arg_built]
  · rintro rfl
    exact build?_term typed

end TypedTerm
end Combinatory
