import Combinatory.Proofs.Term.Checking
import Combinatory.Proofs.Term.Contraction
import Combinatory.Proofs.Term.Drawing
import Combinatory.Term.Pool

/-!
# Applications that cannot fail

Where a term cannot be applied to another one, it is put under `K` first and then applied. That has
a type whatever the two terms are, because `K` takes any value and drops any other, and it stands
for the first term: it has the same types, so the canonical principal type is the very same one, and
it evaluates to the same value. So terms that are put together in this way have types without any
check, whatever they are made of and in whatever order.
-/

namespace Combinatory

namespace Term

/-- Under `K` and applied to something that has a type, a term has the types that it has. -/
theorem hasType_kept_iff {fn arg : Term} {argType type : Ty} (arg_typed : arg.HasType argType) :
    (apps K [fn, arg]).HasType type ↔ fn.HasType type := by
  constructor
  · exact (Contracts.constant fn arg).hasType
  · intro fn_typed
    have constant_typed : K.HasType (.arrow type (.arrow argType type)) :=
      hasType_K_iff.mpr ⟨type, argType, rfl⟩
    exact .app (.app constant_typed fn_typed) arg_typed

/-- Under `K` and applied to something that has a type, a term that has one evaluates to what it
evaluates to. -/
theorem evaluatesLike_kept {fn arg : Term} {fnType argType : Ty} (fn_typed : fn.HasType fnType)
    (arg_typed : arg.HasType argType) : fn.EvaluatesLike (apps K [fn, arg]) := by
  obtain ⟨steps, value, ⟨⟩, returned, -⟩ :=
    Host.none.evaluate_total ((hasType_kept_iff arg_typed).mpr fn_typed) ()
  exact evaluatesLike_of_returns ((Contracts.constant fn arg).evaluate returned) returned

end Term

namespace TypedTerm

/-- The application of two typed terms has a type, or is refused, as inference finds for it. -/
theorem map_type_app? (fn arg : TypedTerm) :
    (fn.app? arg).map type = (Term.app fn.term arg.term).typeOf := by
  rw [Term.typeOf_app_eq fn.typed arg.typed, app?]
  split <;> simp_all [Except.map, Except.mapError]

/-- Terms of the same types have the same principal type, as that is canonical. -/
theorem type_eq_of_hasType_iff {left right : TypedTerm}
    (same : ∀ type, left.term.HasType type ↔ right.term.HasType type) :
    left.type = right.type := by
  have into : left.type.isInstance right.type = true :=
    hasType_iff.mp ((same _).mp left.hasType)
  have back : right.type.isInstance left.type = true :=
    hasType_iff.mp ((same _).mpr right.hasType)
  have canonical := Ty.canonicalize_eq_iff_isInstance.mpr ⟨into, back⟩
  rwa [Term.canonicalize_of_typeOf left.typed, Term.canonicalize_of_typeOf right.typed] at canonical

/-- A term can be put under `K` and applied to any other one, and then has its own type. -/
theorem exists_kept (fn arg : TypedTerm) :
    ∃ kept application, K.app? fn = .ok kept ∧ kept.app? arg = .ok application ∧
      application.term = Term.apps .K [fn.term, arg.term] ∧ application.type = fn.type := by
  have derivable : (Term.app (.app .K fn.term) arg.term).HasType fn.type :=
    (Term.hasType_kept_iff arg.hasType).mpr fn.hasType
  obtain ⟨dom, kept_derivable, -⟩ := Term.hasType_app_iff.mp derivable
  obtain ⟨kept, kept_made⟩ : ∃ kept, K.app? fn = .ok kept := exists_app? kept_derivable
  have kept_term : kept.term = .app .K fn.term := app?_ok kept_made
  obtain ⟨application, made⟩ : ∃ application, kept.app? arg = .ok application :=
    exists_app? (kept_term ▸ derivable : (Term.app kept.term arg.term).HasType fn.type)
  have application_term : application.term = Term.apps .K [fn.term, arg.term] := by
    rw [app?_ok made, kept_term]
    rfl
  refine ⟨kept, application, kept_made, made, application_term,
    type_eq_of_hasType_iff fun type => ?_⟩
  rw [application_term]
  exact Term.hasType_kept_iff arg.hasType

/-- What is made of two terms is their application, or what keeps the first one. -/
theorem exists_applyOrKeep? (fn arg : TypedTerm) :
    ∃ made, fn.applyOrKeep? arg = .ok made ∧
      match fn.app? arg with
      | .ok application => made = application
      | .error _ => made.term = Term.apps .K [fn.term, arg.term] ∧ made.type = fn.type := by
  rw [applyOrKeep?]
  cases fn.app? arg with
  | ok application => exact ⟨application, rfl, rfl⟩
  | error refusal =>
      obtain ⟨kept, made, kept_applied, applied, made_term, made_type⟩ := fn.exists_kept arg
      refine ⟨made, ?_, made_term, made_type⟩
      simp only [kept_applied, bind, Except.bind]
      exact applied

end TypedTerm

namespace Pool

/-- Add what is made of two members, chosen by index, one step after another. -/
def growAll : Pool → List (Int × Int) → Except Failure Pool
  | pool, [] => .ok pool
  | pool, (fn, arg) :: steps => do
      let (_, grown) ← pool.grow true fn arg
      grown.growAll steps

theorem get?_error {pool : Pool} {index : Int} {failure : Failure}
    (missing : pool.get? index = .error failure) : failure = .noMember := by
  unfold get? at missing
  split at missing
  · split at missing
    · cases missing
    · exact (Except.error.inj missing).symm
  · exact (Except.error.inj missing).symm

/-- A step adds one member, unless an index is that of no member. -/
theorem grow_ok_or_noMember (pool : Pool) (fnIndex argIndex : Int) :
    (∃ made, pool.grow true fnIndex argIndex = .ok (made, ⟨pool.members.push made⟩)) ∨
      pool.grow true fnIndex argIndex = .error .noMember := by
  cases fn_found : pool.get? fnIndex with
  | error failure =>
      obtain rfl := get?_error fn_found
      exact .inr (by simp [grow, fn_found, bind, Except.bind])
  | ok fn =>
      cases arg_found : pool.get? argIndex with
      | error failure =>
          obtain rfl := get?_error arg_found
          exact .inr (by simp [grow, fn_found, arg_found, bind, Except.bind])
      | ok arg =>
          obtain ⟨made, kept, -⟩ := fn.exists_applyOrKeep? arg
          exact .inl ⟨made, by simp [grow, fn_found, arg_found, kept, bind, Except.bind, pure,
            Except.pure]⟩

/-- A pool grows by as many members as there are steps, unless an index is that of no member. -/
theorem growAll_ok_or_noMember (pool : Pool) (steps : List (Int × Int)) :
    (∃ grown, pool.growAll steps = .ok grown ∧
        grown.members.size = pool.members.size + steps.length) ∨
      pool.growAll steps = .error .noMember := by
  induction steps generalizing pool with
  | nil => exact .inl ⟨pool, rfl, rfl⟩
  | cons step steps ih =>
      rw [growAll]
      rcases pool.grow_ok_or_noMember step.1 step.2 with ⟨made, grew⟩ | missing
      · rw [grew]
        rcases ih ⟨pool.members.push made⟩ with ⟨grown, all_grown, size_eq⟩ | missing
        · refine .inl ⟨grown, all_grown, ?_⟩
          rw [size_eq, Array.size_push, List.length_cons]
          omega
        · exact .inr missing
      · rw [missing]
        exact .inr rfl

end Pool

/-! ## Registries -/

namespace Registry

open RawTerm (Failure Object)

/-- The object is the registered one of its shape. -/
def Holds (registry : Registry) (object : Object) : Prop :=
  registry.objects[object.term.shape]? = some object

section

variable {before after : Registry} {object : Object} {lhs rhs : RawTerm}

/-- What is registered is held, together with everything that was held before. -/
theorem holds_of_register (registered : (register object.term).Returns before object after) :
    after.Holds object ∧ ∀ other, before.Holds other → after.Holds other := by
  simp only [ExceptT.Returns, register, ExceptT.outcome_bind, ExceptT.outcome_get] at registered
  cases found : before.objects[object.term.shape]? with
  | some known =>
      rw [found] at registered
      obtain ⟨rfl, rfl⟩ : known = object ∧ before = after := by simpa using registered
      exact ⟨found, fun _ held => held⟩
  | none =>
      rw [found] at registered
      obtain ⟨registered_object, rfl⟩ := Prod.mk.inj registered
      have same_object := Except.ok.inj registered_object
      refine ⟨(Std.HashMap.getElem?_insert_self).trans (congrArg some same_object), ?_⟩
      intro other held
      have apart : ¬ (object.term.shape == other.term.shape) = true := by
        intro same
        rw [Holds, ← eq_of_beq same, found] at held
        cases held
      exact (Std.HashMap.getElem?_insert.trans (if_neg apart)).trans held

/-- Asking for a type does not register anything. -/
theorem objects_typeOf (term : RawTerm) (before : Registry) :
    ((typeOf term).outcome before).2.objects = before.objects :=
  (ensures_inquiry_objects .type term before rfl).1

/-- What is applied is held, together with everything that was held before. -/
theorem holds_of_apply (lhs_genuine : lhs.Genuine) (rhs_genuine : rhs.Genuine)
    (applied : (apply lhs rhs).Returns before object after)
    (stands : object.term = .node RawTerm.appHead lhs rhs) :
    after.Holds object ∧ ∀ other, before.Holds other → after.Holds other := by
  rw [ExceptT.Returns, outcome_apply lhs_genuine rhs_genuine] at applied
  obtain ⟨type, middle, asked, registered⟩ := ExceptT.returns_bind.mp applied
  rw [ExceptT.Returns, outcome_applyUnchecked lhs_genuine rhs_genuine, ← stands] at registered
  have objects_same := objects_typeOf (.node RawTerm.appHead lhs rhs) before
  rw [asked] at objects_same
  obtain ⟨held, keeps⟩ := holds_of_register registered
  refine ⟨held, fun other other_held => keeps other ?_⟩
  rwa [Holds, objects_same]

/-- What is refused leaves the registered objects as they are. -/
theorem Tidy.refuses (tidy : before.Tidy) (lhs_genuine : lhs.Genuine) (rhs_genuine : rhs.Genuine)
    {failure : Failure}
    (untyped : (RawTerm.node RawTerm.appHead lhs rhs).typeOf? = .error failure) :
    ∃ after, (Registry.apply lhs rhs).Fails before failure after ∧
      after.objects = before.objects := by
  have genuine : (RawTerm.node RawTerm.appHead lhs rhs).Genuine := ⟨lhs_genuine, rhs_genuine⟩
  obtain ⟨after, asked, -⟩ := tidy.typeOf genuine
  have objects_same := objects_typeOf (.node RawTerm.appHead lhs rhs) before
  rw [asked] at objects_same
  rw [untyped] at asked
  refine ⟨after, ?_, objects_same⟩
  rw [ExceptT.Fails, outcome_apply lhs_genuine rhs_genuine]
  exact ExceptT.Fails.bind asked _

end

/-- From the registry the run returns the registered object of the term, and leaves a registry in
which everything is still registered. -/
structure Makes (run : Access Object) (before : Registry) (term : Term) (object : Object)
    (after : Registry) : Prop where
  /-- The object is returned. -/
  returned : run.Returns before object after
  /-- It is that of the term. -/
  stands : object.term = .ofTerm term
  /-- The registry can be used on. -/
  used : after.Used
  /-- The object is registered. -/
  held : after.Holds object
  /-- What was registered is so still. -/
  keeps : ∀ other, before.Holds other → after.Holds other

section

variable {before middle after : Registry} {fn arg application : TypedTerm} {object : Object}

/-- What is registered already is returned again. -/
theorem Makes.eq_of_holds {run : Access Object} {term : Term} {other : Object}
    (makes : Makes run before term object after) (held : before.Holds other)
    (stands : other.term = .ofTerm term) : object = other := by
  have object_found := makes.held
  have other_found := makes.keeps other held
  rw [Holds, makes.stands] at object_found
  rw [Holds, stands] at other_found
  exact Option.some.inj (object_found.symm.trans other_found)

/-- Whatever the run returns is that of the term. -/
theorem Makes.stands_of_returns {run : Access Object} {term : Term} {other : Object}
    {otherAfter : Registry} (makes : Makes run before term object after)
    (returned : run.Returns before other otherAfter) : other.term = .ofTerm term := by
  obtain ⟨rfl, -⟩ : object = other ∧ after = otherAfter := by
    simpa [ExceptT.Returns] using makes.returned.symm.trans returned
  exact makes.stands

/-- One thing is made after another. -/
theorem Makes.bind {run : Access Object} {next : Object → Access Object} {part term : Term}
    {first : Object} (made : Makes run before part first middle)
    (rest : Makes (next first) middle term object after) :
    Makes (run >>= next) before term object after where
  returned := made.returned.bind rest.returned
  stands := rest.stands
  used := rest.used
  held := rest.held
  keeps other held := rest.keeps other (made.keeps other held)

theorem typeOf?_application (fn arg : TypedTerm) :
    (RawTerm.node RawTerm.appHead (.ofTerm fn.term) (.ofTerm arg.term)).typeOf? =
      ((fn.app? arg).map TypedTerm.type).mapError fun refusal =>
        .illTyped (refusal.map .ofTerm) := by
  rw [fn.map_type_app? arg]
  exact RawTerm.typeOf?_ofTerm (.app fn.term arg.term)

/-- An application that has a type is made. -/
theorem Used.makes_application (used : before.Used) (applied : fn.app? arg = .ok application) :
    ∃ object after,
      Makes (apply (.ofTerm fn.term) (.ofTerm arg.term)) before application.term object after := by
  have fn_genuine := RawTerm.genuine_ofTerm fn.term
  have arg_genuine := RawTerm.genuine_ofTerm arg.term
  have typed := typeOf?_application fn arg
  rw [applied] at typed
  obtain ⟨after, -, made⟩ := used.tidy.apply fn_genuine arg_genuine
  rw [typed] at made
  obtain ⟨object, returned, stands⟩ := made
  obtain ⟨held, keeps⟩ := holds_of_apply fn_genuine arg_genuine returned stands
  have after_used := used.applied fn_genuine arg_genuine
  rw [show (apply _ _).outcome before = (.ok object, after) from returned] at after_used
  refine ⟨object, after, returned, ?_, after_used, held, keeps⟩
  rw [stands, TypedTerm.app?_ok applied]
  rfl

/-- An application without a type is refused as such, and nothing is registered. -/
theorem Used.refuses_application (used : before.Used) {refusal : IllTyped Term}
    (refused : fn.app? arg = .error refusal) :
    ∃ after, (apply (.ofTerm fn.term) (.ofTerm arg.term)).Fails before
      (.illTyped (refusal.map .ofTerm)) after ∧ after.Used ∧ after.objects = before.objects := by
  have fn_genuine := RawTerm.genuine_ofTerm fn.term
  have arg_genuine := RawTerm.genuine_ofTerm arg.term
  have untyped := typeOf?_application fn arg
  rw [refused] at untyped
  obtain ⟨after, failed, objects_same⟩ := used.tidy.refuses fn_genuine arg_genuine untyped
  have after_used := used.applied fn_genuine arg_genuine
  rw [failed] at after_used
  exact ⟨after, failed, after_used, objects_same⟩

/-- A term is put under `K` and applied. -/
def keep (lhs rhs : RawTerm) : Access Object := do
  let kept ← apply (.atom "K") lhs
  apply kept.term rhs

theorem Used.makes_kept (used : before.Used) (fn arg : TypedTerm) :
    ∃ object after, Makes (keep (.ofTerm fn.term) (.ofTerm arg.term)) before
      (Term.apps .K [fn.term, arg.term]) object after := by
  obtain ⟨kept, application, kept_applied, applied, application_term, -⟩ := fn.exists_kept arg
  obtain ⟨first, middle, first_made⟩ := used.makes_application kept_applied
  obtain ⟨object, after, made⟩ := first_made.used.makes_application applied
  rw [application_term, ← first_made.stands] at made
  exact ⟨object, after, first_made.bind made⟩

/-- What is made of two typed terms is registered. If their application has a type, this is what a
checked application makes. -/
theorem Used.makes_applyOrKeep (used : before.Used) {made : TypedTerm}
    (kept : fn.applyOrKeep? arg = .ok made) :
    ∃ object after,
      Makes (applyOrKeep (.ofTerm fn.term) (.ofTerm arg.term)) before made.term object after ∧
        ∀ application, fn.app? arg = .ok application →
          (apply (.ofTerm fn.term) (.ofTerm arg.term)).Returns before object after := by
  obtain ⟨other, other_kept, outcome⟩ := fn.exists_applyOrKeep? arg
  obtain rfl : other = made := Except.ok.inj (other_kept.symm.trans kept)
  cases applied : fn.app? arg with
  | ok application =>
      rw [applied] at outcome
      obtain rfl := outcome
      obtain ⟨object, after, made⟩ := used.makes_application applied
      refine ⟨object, after, { made with returned := ?_ }, fun _ _ => made.returned⟩
      have returned : (apply _ _).outcome before = _ := made.returned
      rw [ExceptT.Returns, applyOrKeep, ExceptT.outcome_tryCatch, returned]
  | error refusal =>
      rw [applied] at outcome
      obtain ⟨middle, failed, middle_used, objects_same⟩ := used.refuses_application applied
      obtain ⟨object, after, kept⟩ := middle_used.makes_kept fn arg
      rw [← outcome.1] at kept
      refine ⟨object, after, { kept with returned := ?_, keeps := fun other held => ?_ }, ?_⟩
      · have returned : (keep _ _).outcome middle = _ := kept.returned
        have failed : (apply _ _).outcome before = _ := failed
        rw [ExceptT.Returns, applyOrKeep, ExceptT.outcome_tryCatch, failed]
        exact returned
      · refine kept.keeps other ?_
        rwa [Holds, objects_same]
      · intro application succeeded
        cases succeeded

end

/-! ## Terms that are put together -/

/-- The terms that are made of combinators by applications that are checked and by those that cannot
fail, one after another, whatever else is done with the registry in between. -/
inductive Produced : RawTerm → Prop
  /-- A combinator. -/
  | combinator {name : String} (named : (RawTerm.atom name).WellFormed) : Produced (.atom name)
  /-- A checked application. -/
  | applied {before after : Registry} {lhs rhs : RawTerm} {object : Object} (used : before.Used)
      (lhs_produced : Produced lhs) (rhs_produced : Produced rhs)
      (returned : (apply lhs rhs).Returns before object after) : Produced object.term
  /-- An application that cannot fail. -/
  | appliedOrKept {before after : Registry} {lhs rhs : RawTerm} {object : Object}
      (used : before.Used) (lhs_produced : Produced lhs) (rhs_produced : Produced rhs)
      (returned : (applyOrKeep lhs rhs).Returns before object after) : Produced object.term

theorem Produced.exists_typed {term : RawTerm} (produced : Produced term) :
    ∃ typed : TypedTerm, .ofTerm typed.term = term := by
  induction produced with
  | combinator named =>
      rcases named with rfl | rfl | rfl
      · exact ⟨.S, rfl⟩
      · exact ⟨.K, rfl⟩
      · exact ⟨.I, rfl⟩
  | applied used _ _ returned lhs_ih rhs_ih =>
      obtain ⟨fn, rfl⟩ := lhs_ih
      obtain ⟨arg, rfl⟩ := rhs_ih
      cases applied : fn.app? arg with
      | ok made =>
          obtain ⟨object, after, makes⟩ := used.makes_application applied
          exact ⟨made, (makes.stands_of_returns returned).symm⟩
      | error refusal =>
          obtain ⟨after, failed, -⟩ := used.refuses_application applied
          cases returned.symm.trans failed
  | appliedOrKept used _ _ returned lhs_ih rhs_ih =>
      obtain ⟨fn, rfl⟩ := lhs_ih
      obtain ⟨arg, rfl⟩ := rhs_ih
      obtain ⟨made, kept, -⟩ := fn.exists_applyOrKeep? arg
      obtain ⟨object, after, makes, -⟩ := used.makes_applyOrKeep kept
      exact ⟨made, (makes.stands_of_returns returned).symm⟩

/-- Put a term together from its leaves up, by applications that cannot fail. -/
def assembleOrKeep : Term → Access RawTerm
  | .app fn arg => do
      let lhs ← assembleOrKeep fn
      let rhs ← assembleOrKeep arg
      return (← applyOrKeep lhs rhs).term
  | leaf => return .ofTerm leaf

/-- This works for every tree, and what comes of it has a type. -/
theorem Used.assembleOrKeep_returns {before : Registry} (used : before.Used) (tree : Term) :
    ∃ (typed : TypedTerm) (after : Registry),
      (assembleOrKeep tree).Returns before (.ofTerm typed.term) after ∧ after.Used := by
  induction tree generalizing before with
  | S => exact ⟨.S, before, rfl, used⟩
  | K => exact ⟨.K, before, rfl, used⟩
  | I => exact ⟨.I, before, rfl, used⟩
  | app fn arg fn_ih arg_ih =>
      obtain ⟨left, middle, left_returned, middle_used⟩ := fn_ih used
      obtain ⟨right, last, right_returned, last_used⟩ := arg_ih middle_used
      obtain ⟨made, kept, -⟩ := left.exists_applyOrKeep? right
      obtain ⟨object, after, makes, -⟩ := last_used.makes_applyOrKeep kept
      have result : (pure object.term : Access RawTerm).Returns after (.ofTerm made.term) after :=
        ExceptT.returns_pure.mpr ⟨makes.stands, rfl⟩
      exact ⟨made, after,
        left_returned.bind (right_returned.bind (makes.returned.bind result)), makes.used⟩

/-- The registry tells the principal type of a typed term. -/
theorem Used.typeOf_ofTerm {registry : Registry} (used : registry.Used) (typed : TypedTerm) :
    ((typeOf (.ofTerm typed.term)).outcome registry).1 = .ok typed.type := by
  rw [used.tidy.typeOf_eq (RawTerm.genuine_ofTerm typed.term), RawTerm.typeOf?_ofTerm, typed.typed]
  rfl

/--
However a registry has been used, any two terms that have been produced can be put together. If a
type can be derived for their application, this is what is made, as by a checked application.
Otherwise what is made is the first term under `K` applied to the second one, the same object that
checked applications make of these; in every registry it has the principal type of the first term,
and it evaluates to what that evaluates to. So whatever has been produced from combinators has a
principal type. Putting terms together along any tree succeeds, and so does any sequence of steps
that apply members of a pool to one another.
-/
theorem unappliable_terms_are_kept {registry : Registry} (used : registry.Used) :
    (∀ lhs rhs : RawTerm, Produced lhs → Produced rhs →
      ∃ (left right : Term) (object : Object) (after : Registry),
        .ofTerm left = lhs ∧ .ofTerm right = rhs ∧
          (applyOrKeep lhs rhs).Returns registry object after ∧ after.Used ∧
            ((∃ type, (Term.app left right).HasType type) →
              (apply lhs rhs).Returns registry object after) ∧
              ((¬ ∃ type, (Term.app left right).HasType type) →
                (∃ later, (keep lhs rhs).Returns after object later) ∧
                  object.term = .ofTerm (Term.apps .K [left, right]) ∧
                    (∃ type, ∀ later : Registry, later.Used →
                      ((typeOf lhs).outcome later).1 = .ok type ∧
                        ((typeOf object.term).outcome later).1 = .ok type) ∧
                      left.EvaluatesLike (Term.apps .K [left, right]))) ∧
      (∀ made : RawTerm, Produced made → ∃ (term : Term) (principal : Ty),
        .ofTerm term = made ∧ ((typeOf made).outcome registry).1 = .ok principal ∧
          term.IsPrincipal principal) ∧
        (∀ tree : Term, ∃ (term : Term) (principal : Ty) (after : Registry),
          (assembleOrKeep tree).Returns registry (.ofTerm term) after ∧
            ((typeOf (.ofTerm term)).outcome after).1 = .ok principal ∧
              term.IsPrincipal principal) ∧
          ∀ (pool : Pool) (steps : List (Int × Int)),
            (∃ grown, pool.growAll steps = .ok grown ∧
                grown.members.size = pool.members.size + steps.length ∧
                  ∀ member ∈ grown.members, member.term.IsPrincipal member.type) ∨
              pool.growAll steps = .error .noMember := by
  refine ⟨fun lhs rhs lhs_produced rhs_produced => ?_, fun made produced => ?_, fun tree => ?_,
    fun pool steps => ?_⟩
  · obtain ⟨fn, rfl⟩ := lhs_produced.exists_typed
    obtain ⟨arg, rfl⟩ := rhs_produced.exists_typed
    obtain ⟨made, kept, outcome⟩ := fn.exists_applyOrKeep? arg
    obtain ⟨object, after, makes, applies⟩ := used.makes_applyOrKeep kept
    refine ⟨fn.term, arg.term, object, after, rfl, rfl, makes.returned, makes.used, ?_, ?_⟩
    · rintro ⟨type, derivable⟩
      obtain ⟨application, applied⟩ := TypedTerm.exists_app? derivable
      exact applies application applied
    · intro underivable
      cases applied : fn.app? arg with
      | ok application =>
          exact absurd ⟨_, TypedTerm.app?_ok applied ▸ application.hasType⟩ underivable
      | error refusal =>
          rw [applied] at outcome
          obtain ⟨made_term, made_type⟩ := outcome
          have stands : object.term = .ofTerm (Term.apps .K [fn.term, arg.term]) :=
            made_term ▸ makes.stands
          obtain ⟨again, later, kept⟩ := makes.used.makes_kept fn arg
          obtain rfl : again = object := kept.eq_of_holds makes.held stands
          refine ⟨⟨later, kept.returned⟩, stands, ⟨fn.type, fun later later_used => ?_⟩,
            Term.evaluatesLike_kept fn.hasType arg.hasType⟩
          refine ⟨later_used.typeOf_ofTerm fn, ?_⟩
          rw [makes.stands, ← made_type]
          exact later_used.typeOf_ofTerm made
  · obtain ⟨typed, rfl⟩ := produced.exists_typed
    exact ⟨typed.term, typed.type, rfl, used.typeOf_ofTerm typed, typed.isPrincipal⟩
  · obtain ⟨typed, after, returned, after_used⟩ := used.assembleOrKeep_returns tree
    exact ⟨typed.term, typed.type, after, returned, after_used.typeOf_ofTerm typed,
      typed.isPrincipal⟩
  · rcases pool.growAll_ok_or_noMember steps with ⟨grown, all_grown, size_eq⟩ | missing
    · exact .inl ⟨grown, all_grown, size_eq, fun member _ => member.isPrincipal⟩
    · exact .inr missing

/-- `S I` cannot be applied to `I`, so it is kept. The tree of `S I I` can be put together too. -/
theorem self_application_is_kept :
    ∃ function registry, (apply (.atom "S") (.atom "I")).Returns initial function registry ∧
      registry.Used ∧ Produced function.term ∧ Produced (.atom "I") ∧
        (∃ object after, (applyOrKeep function.term (.atom "I")).Returns registry object after ∧
          object.term = .ofTerm (Term.apps .K [.app .S .I, .I]) ∧
            ∃ type, ((typeOf function.term).outcome after).1 = .ok type ∧
              ((typeOf object.term).outcome after).1 = .ok type) ∧
          ∃ term principal after,
            (assembleOrKeep (.app (.app .S .I) .I)).Returns registry (.ofTerm term) after ∧
              term.IsPrincipal principal := by
  have underivable : ¬ ∃ type, (Term.app (.app .S .I) .I).HasType type := by
    rintro ⟨type, derivable⟩
    obtain ⟨typed, same⟩ := TypedTerm.exists_of_hasType derivable
    have untyped : (Term.app (.app .S .I) .I).typeOf.toOption = none := by decide +kernel
    rw [← same, typed.typed] at untyped
    cases untyped
  obtain ⟨application, applied⟩ : ∃ application, TypedTerm.S.app? .I = .ok application := ⟨_, rfl⟩
  obtain ⟨function, registry, makes⟩ := Used.initial.makes_application applied
  have i_produced : Produced (.atom "I") := .combinator (.inr (.inr rfl))
  have produced : Produced function.term :=
    .applied .initial (.combinator (.inl rfl)) i_produced makes.returned
  obtain ⟨together, -, assembled, -⟩ := unappliable_terms_are_kept makes.used
  obtain ⟨left, right, object, after, left_eq, right_eq, returned, after_used, -, kept⟩ :=
    together function.term (.atom "I") produced i_produced
  rw [makes.stands, TypedTerm.app?_ok applied] at left_eq
  obtain rfl : left = .app .S .I := RawTerm.shape_ofTerm_injective (congrArg RawTerm.shape left_eq)
  replace right_eq : RawTerm.ofTerm right = .ofTerm .I := right_eq
  obtain rfl := RawTerm.shape_ofTerm_injective (congrArg RawTerm.shape right_eq)
  obtain ⟨-, stands, ⟨type, typed⟩, -⟩ := kept underivable
  obtain ⟨term, principal, last, assembled, -, is_principal⟩ := assembled (.app (.app .S .I) .I)
  exact ⟨function, registry, makes.returned, makes.used, produced, i_produced,
    ⟨object, after, returned, stands, type, typed after after_used⟩,
    term, principal, last, assembled, is_principal⟩

end Registry
end Combinatory
