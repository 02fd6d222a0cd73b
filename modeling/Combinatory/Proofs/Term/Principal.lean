import Combinatory.Proofs.Ty.MostGeneral
import Combinatory.Proofs.Ty.Scheme
import Combinatory.Term.Typing

/-!
# Derivable types and principal types

A term has a type if a derivation says so: every occurrence of an atom takes an instance of its
scheme, and a function is applied to an argument of its domain. Inference finds a type of which
exactly the derivable types are instances, and it finds none only where no type can be derived.
-/

namespace Combinatory

namespace Ty

section Application

variable {supply : Supply} {fnType argType type : Ty}

/-- The copy of the argument's type that is drawn for an application. -/
def argCopy (supply : Supply) (argType : Ty) : Ty :=
  argType.relabel fun index => drawnName (supply.next + 1 + index)

/-- The copy of the function's type that is drawn for an application. -/
def fnCopy (supply : Supply) (fnType argType : Ty) : Ty :=
  fnType.relabel fun index => drawnName (supply.next + 1 + argType.vars.length + index)

/-- The variable that is drawn for the result of an application. -/
def resultVar (supply : Supply) : Ty :=
  var (drawnName supply.next)

theorem applied_eq (supply : Supply) (fnType argType : Ty) :
    applied supply fnType argType =
      match Subst.empty.unify (fnCopy supply fnType argType)
          (arrow (argCopy supply argType) (resultVar supply)) with
      | .ok subst => .ok (subst.resolve (resultVar supply)).canonicalize
      | .error failure => .error failure := rfl

/-- The three parts drawn for an application share no variables, so any instances of them are
taken by one replacement. -/
theorem exists_joint_replacement (supply : Supply) (fnType argType result : Ty)
    (fnInstance argInstance : String → Ty) :
    ∃ replacement, (fnCopy supply fnType argType).bind replacement = fnType.bind fnInstance ∧
      (argCopy supply argType).bind replacement = argType.bind argInstance ∧
        (resultVar supply).bind replacement = result := by
  let argStart := supply.next + 1
  let fnStart := argStart + argType.vars.length
  let byNumber (number : Nat) : Ty :=
    if number < argStart then result
    else if number < fnStart then argInstance (argType.vars.getD (number - argStart) "")
    else fnInstance (fnType.vars.getD (number - fnStart) "")
  refine ⟨Function.extend drawnName byNumber var, ?_, ?_, ?_⟩
  · apply bind_relabel
    intro name occurs
    rw [drawnName_injective.extend_apply]
    have listed := mem_vars.mpr occurs
    have after_args : ¬ fnStart + fnType.vars.idxOf name < argStart := by omega
    simp only [byNumber]
    rw [if_neg after_args, if_neg (by omega), Nat.add_sub_cancel_left]
    simp [List.getD_eq_getElem?_getD, List.getElem?_idxOf listed]
  · apply bind_relabel
    intro name occurs
    rw [drawnName_injective.extend_apply]
    have listed := mem_vars.mpr occurs
    have place_lt := List.idxOf_lt_length_of_mem listed
    simp only [byNumber]
    rw [if_neg (by omega), if_pos (by omega), Nat.add_sub_cancel_left]
    simp [List.getD_eq_getElem?_getD, List.getElem?_idxOf listed]
  · rw [resultVar, bind, drawnName_injective.extend_apply]
    simp [byNumber, argStart]

/-- A function type and an argument type have instances that fit, with the given result. -/
def Fitting (fnType argType result : Ty) : Prop :=
  ∃ fnInstance argInstance,
    fnType.bind fnInstance = arrow (argType.bind argInstance) result

/-- What the copies for an application become is what the types themselves become. -/
theorem fitting_of_copies {replacement : String → Ty}
    (fit : (fnCopy supply fnType argType).bind replacement =
      arrow ((argCopy supply argType).bind replacement) ((resultVar supply).bind replacement)) :
    Fitting fnType argType ((resultVar supply).bind replacement) := by
  obtain ⟨fnInstance, fn_eq⟩ :=
    (exists_relabel_bind_iff (drawnName_add_injective _)).mp ⟨replacement, fit⟩
  obtain ⟨argInstance, arg_eq⟩ :=
    (exists_relabel_bind_iff (drawnName_add_injective _)).mp
      ⟨replacement, (rfl : (argCopy supply argType).bind replacement = _)⟩
  exact ⟨fnInstance, argInstance, by rw [fn_eq, arg_eq]⟩

/-- If instances fit, the equation for the application is solved, and the result is an instance of
what its variable resolves to. -/
theorem Fitting.unify_ok {result : Ty} (fitting : Fitting fnType argType result)
    (supply : Supply) :
    ∃ subst, Subst.empty.unify (fnCopy supply fnType argType)
        (arrow (argCopy supply argType) (resultVar supply)) = .ok subst ∧
      ∃ replacement, (subst.resolve (resultVar supply)).bind replacement = result := by
  obtain ⟨fnInstance, argInstance, fit⟩ := fitting
  obtain ⟨replacement, fn_eq, arg_eq, result_eq⟩ :=
    exists_joint_replacement supply fnType argType result fnInstance argInstance
  have equal : (fnCopy supply fnType argType).bind replacement =
      (arrow (argCopy supply argType) (resultVar supply)).bind replacement := by
    rw [bind, fn_eq, arg_eq, result_eq, fit]
  obtain ⟨subst, ok, solved⟩ :=
    Subst.acyclic_empty.unify_complete (Subst.solvedBy_empty replacement) equal
  have acyclic := (Subst.acyclic_empty.unify_sound ok).1
  exact ⟨subst, ok, replacement, by rw [solved.bind_resolve acyclic, result_eq]⟩

/-- The results of fitting instances are the instances of the type of the application. -/
theorem fitting_iff {result : Ty} (ok : applied supply fnType argType = .ok type) :
    Fitting fnType argType result ↔ ∃ replacement, type.bind replacement = result := by
  rw [applied_eq] at ok
  split at ok
  · next subst solved =>
      obtain rfl := Except.ok.inj ok
      rw [exists_canonicalize_bind_iff]
      constructor
      · intro fitting
        obtain ⟨found, found_eq, instances⟩ := fitting.unify_ok supply
        obtain rfl : subst = found := by simpa [solved] using found_eq
        exact instances
      · rintro ⟨replacement, rfl⟩
        have equal := (Subst.acyclic_empty.unify_sound solved).2.2
        have fit := congrArg (bind replacement) equal
        simp only [Subst.resolve, bind_bind] at fit ⊢
        exact fitting_of_copies fit
  · simp at ok

/-- An application has no type only where no instances fit, which shows at a variable that would
have to be part of itself. -/
theorem not_fitting_of_applied_error {failure : UnificationFailure}
    (failed : applied supply fnType argType = .error failure) :
    (∃ name type, failure = .infinite name type) ∧ ∀ result, ¬ Fitting fnType argType result := by
  rw [applied_eq] at failed
  split at failed
  · simp at failed
  · next reason refused =>
      obtain rfl := Except.error.inj failed
      constructor
      · obtain ⟨_, _, _, name, type, reason_eq, -⟩ := Subst.acyclic_empty.unify_failure refused
        exact ⟨name, type, reason_eq⟩
      · intro result fitting
        obtain ⟨subst, ok, -⟩ := fitting.unify_ok supply
        simp [refused] at ok

end Application

end Ty

namespace Term

/-! ## Derivations -/

/-- The term has the type: atoms have all instances of their schemes, and a function is applied to
an argument of its domain. -/
inductive HasType : Term → Ty → Prop
  /-- An instance of the type of `S`. -/
  | distributor (instances : String → Ty) : HasType S (Ty.distributor.bind instances)
  /-- An instance of the type of `K`. -/
  | constant (instances : String → Ty) : HasType K (Ty.constant.bind instances)
  /-- An instance of the type of `I`. -/
  | identity (instances : String → Ty) : HasType I (Ty.identity.bind instances)
  /-- The codomain of the function's type, the argument having the domain. -/
  | app {fn arg : Term} {dom cod : Ty} (fn_typed : HasType fn (.arrow dom cod))
      (arg_typed : HasType arg dom) : HasType (app fn arg) cod

/-- The derivable types of the term are the instances of the given one. -/
def IsPrincipal (term : Term) (principal : Ty) : Prop :=
  ∀ type, term.HasType type ↔ ∃ replacement, principal.bind replacement = type

theorem hasType_app_iff {fn arg : Term} {type : Ty} :
    (app fn arg).HasType type ↔ ∃ dom, fn.HasType (.arrow dom type) ∧ arg.HasType dom := by
  constructor
  · rintro (_ | _ | _ | ⟨fn_typed, arg_typed⟩)
    exact ⟨_, fn_typed, arg_typed⟩
  · rintro ⟨dom, fn_typed, arg_typed⟩
    exact .app fn_typed arg_typed

/-- The derivable types of an application are the results of fitting instances of principal
types. -/
theorem IsPrincipal.hasType_app_iff {fn arg : Term} {fnType argType type : Ty}
    (fn_principal : fn.IsPrincipal fnType) (arg_principal : arg.IsPrincipal argType) :
    (app fn arg).HasType type ↔ Ty.Fitting fnType argType type := by
  rw [Term.hasType_app_iff]
  constructor
  · rintro ⟨dom, fn_typed, arg_typed⟩
    obtain ⟨fnInstance, fn_eq⟩ := (fn_principal _).mp fn_typed
    obtain ⟨argInstance, rfl⟩ := (arg_principal _).mp arg_typed
    exact ⟨fnInstance, argInstance, fn_eq⟩
  · rintro ⟨fnInstance, argInstance, fit⟩
    exact ⟨_, (fn_principal _).mpr ⟨fnInstance, fit⟩, (arg_principal _).mpr ⟨argInstance, rfl⟩⟩

theorem isPrincipal_S : S.IsPrincipal Ty.distributor := by
  intro type
  constructor
  · rintro ⟨instances⟩
    exact ⟨instances, rfl⟩
  · rintro ⟨instances, rfl⟩
    exact .distributor instances

theorem isPrincipal_K : K.IsPrincipal Ty.constant := by
  intro type
  constructor
  · rintro (_ | ⟨instances⟩)
    exact ⟨instances, rfl⟩
  · rintro ⟨instances, rfl⟩
    exact .constant instances

theorem isPrincipal_I : I.IsPrincipal Ty.identity := by
  intro type
  constructor
  · rintro (_ | _ | ⟨instances⟩)
    exact ⟨instances, rfl⟩
  · rintro ⟨instances, rfl⟩
    exact .identity instances

theorem hasType_S_iff {type : Ty} :
    S.HasType type ↔ ∃ dom middle cod,
      type =
        .arrow (.arrow dom (.arrow middle cod)) (.arrow (.arrow dom middle) (.arrow dom cod)) := by
  rw [isPrincipal_S]
  constructor
  · rintro ⟨instances, rfl⟩
    exact ⟨_, _, _, rfl⟩
  · rintro ⟨dom, middle, cod, rfl⟩
    exact ⟨fun name => if name = "a" then dom else if name = "b" then middle else cod, rfl⟩

theorem hasType_K_iff {type : Ty} :
    K.HasType type ↔ ∃ kept dropped, type = .arrow kept (.arrow dropped kept) := by
  rw [isPrincipal_K]
  constructor
  · rintro ⟨instances, rfl⟩
    exact ⟨_, _, rfl⟩
  · rintro ⟨kept, dropped, rfl⟩
    exact ⟨fun name => if name = "a" then kept else dropped, rfl⟩

theorem hasType_I_iff {type : Ty} : I.HasType type ↔ ∃ dom, type = .arrow dom dom := by
  rw [isPrincipal_I]
  constructor
  · rintro ⟨instances, rfl⟩
    exact ⟨_, rfl⟩
  · rintro ⟨dom, rfl⟩
    exact ⟨fun _ => dom, rfl⟩

/-- The derivable types are closed under replacement of variables. -/
theorem HasType.bind {term : Term} {type : Ty} (typed : term.HasType type)
    (replacement : String → Ty) : term.HasType (type.bind replacement) := by
  induction typed with
  | distributor instances =>
      rw [Ty.bind_bind]
      exact .distributor _
  | constant instances =>
      rw [Ty.bind_bind]
      exact .constant _
  | identity instances =>
      rw [Ty.bind_bind]
      exact .identity _
  | app _ _ fn_ih arg_ih => exact .app fn_ih arg_ih

/-! ## Inference -/

/-- What inference comes to for an application of which both parts have been typed. -/
theorem typeFrom_app {supply : Supply} {fn arg : Term} {fnType argType : Ty}
    (fn_typed : fn.typeFrom supply = .ok fnType) (arg_typed : arg.typeFrom supply = .ok argType) :
    (app fn arg).typeFrom supply =
      match Ty.applied supply fnType argType with
      | .ok type => .ok type
      | .error reason => .error { fn, arg, fnType, argType, reason } := by
  rw [typeFrom, fn_typed, arg_typed]
  rfl

/-- Inference finds a principal type, or no type can be derived. -/
theorem typeFrom_principal (supply : Supply) (term : Term) :
    (∃ principal, term.typeFrom supply = .ok principal ∧ term.IsPrincipal principal) ∨
      (∃ refusal, term.typeFrom supply = .error refusal) ∧ ∀ type, ¬ term.HasType type := by
  induction term with
  | S => exact .inl ⟨_, rfl, isPrincipal_S⟩
  | K => exact .inl ⟨_, rfl, isPrincipal_K⟩
  | I => exact .inl ⟨_, rfl, isPrincipal_I⟩
  | app fn arg fn_ih arg_ih =>
      rcases arg_ih with ⟨argType, arg_typed, arg_principal⟩ | ⟨⟨refusal, refused⟩, untypable⟩
      · rcases fn_ih with ⟨fnType, fn_typed, fn_principal⟩ | ⟨⟨refusal, refused⟩, untypable⟩
        · have inferred := typeFrom_app fn_typed arg_typed
          cases applied : Ty.applied supply fnType argType with
          | ok type =>
              rw [applied] at inferred
              refine .inl ⟨type, inferred, fun result => ?_⟩
              rw [fn_principal.hasType_app_iff arg_principal, Ty.fitting_iff applied]
          | error reason =>
              rw [applied] at inferred
              refine .inr ⟨⟨_, inferred⟩, fun result typed => ?_⟩
              rw [fn_principal.hasType_app_iff arg_principal] at typed
              exact (Ty.not_fitting_of_applied_error applied).2 result typed
        · refine .inr ⟨⟨refusal, by simp [typeFrom, arg_typed, refused, bind, Except.bind]⟩, ?_⟩
          intro type typed
          obtain ⟨dom, fn_typed, -⟩ := hasType_app_iff.mp typed
          exact untypable _ fn_typed
      · refine .inr ⟨⟨refusal, by simp [typeFrom, refused, bind, Except.bind]⟩, ?_⟩
        intro type typed
        obtain ⟨dom, -, arg_typed⟩ := hasType_app_iff.mp typed
        exact untypable _ arg_typed

theorem isPrincipal_of_typeFrom {supply : Supply} {term : Term} {principal : Ty}
    (inferred : term.typeFrom supply = .ok principal) : term.IsPrincipal principal := by
  rcases typeFrom_principal supply term with ⟨found, found_eq, found_principal⟩ | ⟨⟨_, refused⟩, -⟩
  · obtain rfl : principal = found := by simpa [inferred] using found_eq
    exact found_principal
  · simp [inferred] at refused

end Term

namespace TypedTerm

theorem isPrincipal (typed : TypedTerm) : typed.term.IsPrincipal typed.type :=
  Term.isPrincipal_of_typeFrom typed.typed

/-- The application of two typed terms has their terms as its parts. -/
theorem app?_ok {fn arg application : TypedTerm} (ok : fn.app? arg = .ok application) :
    application.term = .app fn.term arg.term := by
  rw [app?] at ok
  split at ok
  · obtain rfl := Except.ok.inj ok
    rfl
  · simp at ok

/-- The application of two typed terms is refused only if it has no type at all. -/
theorem app?_error {fn arg : TypedTerm} {refusal : IllTyped Term}
    (refused : fn.app? arg = .error refusal) :
    (∃ name type, refusal = ⟨fn.term, arg.term, fn.type, arg.type, .infinite name type⟩) ∧
      ∀ type, ¬ (Term.app fn.term arg.term).HasType type := by
  rw [app?] at refused
  split at refused
  · simp at refused
  · next reason applied =>
      obtain rfl := Except.error.inj refused
      obtain ⟨⟨name, type, rfl⟩, misfit⟩ := Ty.not_fitting_of_applied_error applied
      refine ⟨⟨name, type, rfl⟩, fun result typed => ?_⟩
      exact misfit result ((fn.isPrincipal.hasType_app_iff arg.isPrincipal).mp typed)

/-- Some type can be derived for every typed term. -/
theorem hasType (typed : TypedTerm) : typed.term.HasType typed.type :=
  (typed.isPrincipal _).mpr ⟨.var, Ty.bind_var _⟩

/-- The derivable types are the instances of the principal one. -/
theorem hasType_iff {typed : TypedTerm} {type : Ty} :
    typed.term.HasType type ↔ type.isInstance typed.type = true := by
  rw [typed.isPrincipal, Ty.isInstance_iff]

/-- A tree has a typed form exactly if it is the tree of a typed term, which is that form. -/
theorem ofTerm?_ok_iff {term : Term} {typed : TypedTerm} :
    ofTerm? term = .ok typed ↔ typed.term = term := by
  constructor
  · intro ok
    unfold ofTerm? at ok
    split at ok
    · obtain rfl := Except.ok.inj ok
      rfl
    · cases ok
  · rintro rfl
    obtain ⟨term, type, inferred⟩ := typed
    unfold ofTerm?
    split
    · next found found_eq =>
        obtain rfl : found = type := Except.ok.inj (found_eq.symm.trans inferred)
        rfl
    · next refusal refused => cases refused.symm.trans inferred

theorem annotate?_eq_some_iff {typed : TypedTerm} {type : Ty} :
    typed.annotate? type = some typed ↔ typed.term.HasType type := by
  rw [hasType_iff, annotate?]
  split
  · next fits => simp [fits]
  · next misfits => simp [misfits]

/-- Every tree with a type is the tree of a typed term. -/
theorem exists_of_hasType {term : Term} {type : Ty} (derivable : term.HasType type) :
    ∃ typed : TypedTerm, typed.term = term := by
  rcases Term.typeFrom_principal .start term with ⟨principal, inferred, -⟩ | ⟨-, none⟩
  · exact ⟨{ term, type := principal, typed := inferred }, rfl⟩
  · exact absurd derivable (none type)

end TypedTerm

/--
A type can be derived for a term exactly if inference finds a type of which it is an instance. So
two typed terms are applied to one another unless no type at all can be derived for the application,
and a term can be annotated with exactly the types that can be derived for it.
-/
theorem derivable_iff_instance_of_inferred :
    (∀ supply term type, Term.HasType term type ↔
        ∃ principal, term.typeFrom supply = .ok principal ∧ type.isInstance principal = true) ∧
      (∀ fn arg : TypedTerm,
        (∃ name type, fn.app? arg =
            .error ⟨fn.term, arg.term, fn.type, arg.type, .infinite name type⟩) ↔
          ∀ type, ¬ (Term.app fn.term arg.term).HasType type) ∧
      ∀ term type,
        (∃ typed, TypedTerm.ofTerm? term = .ok typed ∧ typed.annotate? type = some typed) ↔
          Term.HasType term type := by
  refine ⟨fun supply term type => ?_, fun fn arg => ?_, fun term type => ?_⟩
  · rcases Term.typeFrom_principal supply term with
      ⟨found, inferred, principal⟩ | ⟨⟨_, refused⟩, none⟩
    · simp [inferred, Ty.isInstance_iff, principal type]
    · simp [refused, none type]
  · constructor
    · rintro ⟨name, type, refused⟩
      exact (TypedTerm.app?_error refused).2
    · intro untypable
      cases outcome : fn.app? arg with
      | ok application =>
          exact absurd (TypedTerm.app?_ok outcome ▸ application.hasType) (untypable _)
      | error refusal =>
          obtain ⟨⟨name, type, rfl⟩, -⟩ := TypedTerm.app?_error outcome
          exact ⟨name, type, rfl⟩
  · constructor
    · rintro ⟨typed, made, annotated⟩
      obtain rfl := TypedTerm.ofTerm?_ok_iff.mp made
      exact TypedTerm.annotate?_eq_some_iff.mp annotated
    · intro derivable
      obtain ⟨typed, rfl⟩ := TypedTerm.exists_of_hasType derivable
      exact ⟨typed, TypedTerm.ofTerm?_ok_iff.mpr rfl, TypedTerm.annotate?_eq_some_iff.mpr derivable⟩

end Combinatory
