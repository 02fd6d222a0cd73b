import Combinatory.Proofs.Term.Blame
import Combinatory.Proofs.Term.Transparency

/-!
# Checks made early and late

The application of two terms is checked for a type when it is made, or it is made unchecked and the
check is made when its type is asked for. A term has a type exactly if it is well formed and can be
made again, from its leaves up, by checked applications; so nothing is gained by putting a check
off, at whatever depth and in whatever state the registry is.
-/

namespace Combinatory

namespace Registry

open RawTerm (Failure Object)

/-! ## Registries of terms -/

/-- A registry in which only terms have been registered, and only right answers are remembered. -/
structure Tidy (registry : Registry) : Prop where
  /-- Under a shape there is a term of this shape. -/
  objects : ∀ (shape : Shape) (object : Object), registry.objects[shape]? = some object →
    object.term.Genuine ∧ object.term.shape = shape
  /-- The answers are right. -/
  transparent : registry.Transparent fun _ _ => True

/-- Asking preserves what remembering an answer does. -/
theorem ensures_ask_of_write {α : Type} {holds : Registry → Prop}
    {slot : Memo.Slot Registry Shape α}
    (kept : ∀ table registry, holds registry → holds (slot.write table registry))
    (question : Question α) (term : RawTerm) :
    ExceptT.Ensures holds (ask slot question term) fun _ => True := by
  have remembered {key : Shape} {computation : Access α}
      (computes : computation.Ensures holds fun _ => True) :
      ExceptT.Ensures holds (Memo.remember slot key computation) fun _ => True :=
    ensures_remember computes (fun _ _ _ _ => trivial) fun _ _ held _ => kept _ _ held
  induction term with
  | atom name => exact remembered (ExceptT.ensures_ofExcept fun _ _ => trivial)
  | node head lhs rhs lhs_ih rhs_ih =>
      refine remembered ((ExceptT.ensures_ofExcept fun _ _ => trivial).bind fun _ (_ : True) => ?_)
      have both : ExceptT.Ensures holds
          (question.both (ask slot question lhs) (ask slot question rhs)) fun _ => True := by
        rw [Question.both]
        split
        · exact rhs_ih.bind fun _ _ => lhs_ih.bind fun _ _ => ExceptT.ensures_pure trivial
        · exact lhs_ih.bind fun _ _ => rhs_ih.bind fun _ _ => ExceptT.ensures_pure trivial
      exact both.bind fun _ _ => ExceptT.ensures_ofExcept fun _ _ => trivial
  | alien value =>
      rw [ask]
      split
      · exact ExceptT.ensures_throw _
      · exact remembered (ExceptT.ensures_throw _)

/-- Asking registers nothing, so it preserves what depends on the registered objects only. -/
theorem ensures_inquiry_of_objects {holds : Registry → Prop}
    (kept : ∀ before after : Registry, after.objects = before.objects →
      after.nextSerial = before.nextSerial → holds before → holds after)
    (inquiry : Inquiry) (term : RawTerm) :
    ExceptT.Ensures holds (inquiry.ask term) fun _ => True := by
  have checked {α : Type} {result : Except Failure α} :
      ExceptT.Ensures holds (MonadExcept.ofExcept result : Access α) fun _ => True :=
    ExceptT.ensures_ofExcept fun _ _ => trivial
  have asked {α : Type} {slot : Memo.Slot Registry Shape α} {question : Question α} {term : RawTerm}
      (written : ∀ table registry, (slot.write table registry).objects = registry.objects ∧
        (slot.write table registry).nextSerial = registry.nextSerial) :
      ExceptT.Ensures holds (Registry.ask slot question term) fun _ => True :=
    ensures_ask_of_write (fun table registry => kept registry (slot.write table registry)
      (written table registry).1 (written table registry).2) question term
  have rendered (term : RawTerm) : ExceptT.Ensures holds (render term) fun _ => True :=
    (checked.bind fun _ _ => checked).bind fun _ _ => asked fun _ _ => ⟨rfl, rfl⟩
  cases inquiry with
  | type =>
      refine (checked.bind fun _ _ => checked).bind fun passed _ =>
        (asked fun _ _ => ⟨rfl, rfl⟩).tryCatch fun failure => ?_
      cases failure with
      | illTyped refusal =>
          exact (rendered _).bind fun _ _ => (rendered _).bind fun _ _ => ExceptT.ensures_throw _
      | _ => exact ExceptT.ensures_throw _
  | text => exact rendered term
  | size => exact checked.bind fun _ _ => asked fun _ _ => ⟨rfl, rfl⟩
  | depth => exact checked.bind fun _ _ => asked fun _ _ => ⟨rfl, rfl⟩

/-- Asking does not register anything. -/
theorem ensures_inquiry_objects {objects : Std.HashMap Shape Object} (inquiry : Inquiry)
    (term : RawTerm) :
    ExceptT.Ensures (fun registry : Registry => registry.objects = objects) (inquiry.ask term)
      fun _ => True :=
  ensures_inquiry_of_objects (fun _ _ same _ held => same.trans held) inquiry term

section Tidy

variable {registry : Registry}

/-- Whatever is asked leaves the registry tidy, and a term gets its own answer. -/
theorem Tidy.ask (tidy : registry.Tidy) (inquiry : Inquiry) (term : RawTerm) :
    ((inquiry.ask term).outcome registry).2.Tidy ∧
      (term.Genuine → ((inquiry.ask term).outcome registry).1 = inquiry.answer? term) := by
  have answered : Answered _ inquiry term registry ((inquiry.ask term).outcome registry) :=
    tidy.transparent.answered (fun _ _ => trivial) fun _ => trivial
  have objects_same := (ensures_inquiry_objects inquiry term registry rfl).1
  refine ⟨⟨?_, answered.transparent⟩, answered.exact⟩
  rw [objects_same]
  exact tidy.objects

/-- What is answered part by part is what a registry answers. -/
theorem Tidy.ask_eq (tidy : registry.Tidy) (inquiry : Inquiry) {term : RawTerm}
    (genuine : term.Genuine) {answer : inquiry.Answer}
    (answered : inquiry.question.answer term = .ok answer) :
    ((inquiry.ask term).outcome registry).1 = .ok answer :=
  ((tidy.ask inquiry term).2 genuine).trans ((inquiry.answer?_eq genuine).trans answered)

/-- The type of a term is asked for. -/
theorem Tidy.typeOf (tidy : registry.Tidy) {term : RawTerm} (genuine : term.Genuine) :
    ∃ after, (Registry.typeOf term).outcome registry = (term.typeOf?, after) ∧ after.Tidy := by
  obtain ⟨after_tidy, answered⟩ := tidy.ask .type term
  exact ⟨_, Prod.ext (answered genuine) rfl, after_tidy⟩

/-- A term is given the object that it stands for. -/
theorem Tidy.register (tidy : registry.Tidy) {term : RawTerm} (genuine : term.Genuine) :
    ∃ object after, (Registry.register term).Returns registry object after ∧
      object.term = term ∧ after.Tidy := by
  simp only [ExceptT.Returns, Registry.register, ExceptT.outcome_bind, ExceptT.outcome_get]
  cases found : registry.objects[term.shape]? with
  | some object =>
      obtain ⟨object_genuine, same⟩ := tidy.objects _ object found
      exact ⟨object, registry, rfl, object_genuine.eq_of_shape_eq genuine same, tidy⟩
  | none =>
      let object : Object := { serial := registry.nextSerial, term }
      refine ⟨object, _, rfl, rfl, ?_, tidy.transparent.of_eq fun inquiry => ?_⟩
      · intro shape other found_other
        simp only [Std.HashMap.getElem?_insert, beq_iff_eq] at found_other
        split at found_other
        · next same =>
            obtain rfl := Option.some.inj found_other
            exact ⟨genuine, same⟩
        · exact tidy.objects shape other found_other
      · cases inquiry <;> rfl

/-- An object is made that is not registered. -/
theorem Tidy.newObject (tidy : registry.Tidy) (term : RawTerm) :
    ((Registry.newObject term).outcome registry).2.Tidy where
  objects := tidy.objects
  transparent := tidy.transparent.of_eq fun inquiry => by cases inquiry <;> rfl

theorem outcome_applyUnchecked {lhs rhs : RawTerm} (lhs_genuine : lhs.Genuine)
    (rhs_genuine : rhs.Genuine) :
    (Registry.applyUnchecked lhs rhs).outcome registry =
      (Registry.register (.node RawTerm.appHead lhs rhs)).outcome registry := by
  have genuine : (RawTerm.node RawTerm.appHead lhs rhs).Genuine := ⟨lhs_genuine, rhs_genuine⟩
  have keyable : (Registry.keyable (.node RawTerm.appHead lhs rhs)).Returns registry
      (.node RawTerm.appHead lhs rhs) registry := by
    rw [ExceptT.Returns, outcome_keyable, genuine.keyable?]
  exact keyable.outcome_bind _

/-- Terms are checked by asking for the type of their application. -/
theorem outcome_apply {lhs rhs : RawTerm} (lhs_genuine : lhs.Genuine) (rhs_genuine : rhs.Genuine) :
    (Registry.apply lhs rhs).outcome registry =
      (do
        let _ ← Registry.typeOf (.node RawTerm.appHead lhs rhs)
        Registry.applyUnchecked lhs rhs).outcome registry := by
  rw [Registry.apply, lhs_genuine.proper?, rhs_genuine.proper?]
  rfl

/-- An unchecked application of two terms is made. -/
theorem Tidy.applyUnchecked (tidy : registry.Tidy) {lhs rhs : RawTerm} (lhs_genuine : lhs.Genuine)
    (rhs_genuine : rhs.Genuine) :
    ∃ object after, (Registry.applyUnchecked lhs rhs).Returns registry object after ∧
      object.term = .node RawTerm.appHead lhs rhs ∧ after.Tidy := by
  simp only [ExceptT.Returns, outcome_applyUnchecked lhs_genuine rhs_genuine]
  exact tidy.register ⟨lhs_genuine, rhs_genuine⟩

/-- A checked application of two terms is made if it has a type, and refused as its type is. -/
theorem Tidy.apply (tidy : registry.Tidy) {lhs rhs : RawTerm} (lhs_genuine : lhs.Genuine)
    (rhs_genuine : rhs.Genuine) :
    ∃ after, after.Tidy ∧
      match (RawTerm.node RawTerm.appHead lhs rhs).typeOf? with
      | .ok _ => ∃ object, (Registry.apply lhs rhs).Returns registry object after ∧
          object.term = .node RawTerm.appHead lhs rhs
      | .error failure => (Registry.apply lhs rhs).Fails registry failure after := by
  have genuine : (RawTerm.node RawTerm.appHead lhs rhs).Genuine := ⟨lhs_genuine, rhs_genuine⟩
  obtain ⟨middle, checked, middle_tidy⟩ := tidy.typeOf genuine
  simp only [ExceptT.Returns, ExceptT.Fails, outcome_apply lhs_genuine rhs_genuine]
  cases typed : (RawTerm.node RawTerm.appHead lhs rhs).typeOf? with
  | error failure =>
      refine ⟨middle, middle_tidy, ?_⟩
      rw [ExceptT.outcome_bind, checked, typed]
  | ok type =>
      obtain ⟨object, after, made, stands, after_tidy⟩ :=
        middle_tidy.applyUnchecked lhs_genuine rhs_genuine
      refine ⟨after, after_tidy, object, ?_, stands⟩
      rw [ExceptT.outcome_bind, checked, typed]
      exact made

end Tidy

/-! ## Making a term again -/

/-- Make a term again from its leaves up, by checked applications, whatever its heads are. -/
def rebuild : RawTerm → Access RawTerm
  | .node _ lhs rhs => do
      let fn ← rebuild lhs
      let arg ← rebuild rhs
      return (← apply fn arg).term
  | leaf => return leaf

/-- A term with a type can be made again, and is what it was. -/
theorem Tidy.rebuild_of_typed {registry : Registry} (tidy : registry.Tidy) {term : RawTerm}
    {type : Ty} (typed : term.typeOf? = .ok type) :
    ∃ after, (rebuild term).Returns registry term after ∧ after.Tidy := by
  induction term generalizing registry type with
  | atom name => exact ⟨registry, rfl, tidy⟩
  | node head lhs rhs lhs_ih rhs_ih =>
      obtain ⟨rfl, fnType, argType, fn_typed, arg_typed, -⟩ := RawTerm.typed_node typed
      obtain ⟨fn_made, fn_returned, fn_tidy⟩ := lhs_ih tidy fn_typed
      obtain ⟨arg_made, arg_returned, arg_tidy⟩ := rhs_ih fn_tidy arg_typed
      obtain ⟨after, after_tidy, applied⟩ := arg_tidy.apply
        (RawTerm.wellFormed_of_typed fn_typed).genuine
        (RawTerm.wellFormed_of_typed arg_typed).genuine
      rw [typed] at applied
      obtain ⟨object, returned, stands⟩ := applied
      exact ⟨after, fn_returned.bind (arg_returned.bind (returned.bind (by rw [stands]; rfl))),
        after_tidy⟩
  | alien value => cases typed

/-- A well-formed term that can be made again has a type. -/
theorem Tidy.typed_of_rebuild {registry after : Registry} (tidy : registry.Tidy)
    {term rebuilt : RawTerm} (wellFormed : term.WellFormed)
    (returned : (rebuild term).Returns registry rebuilt after) :
    ∃ type, term.typeOf? = .ok type := by
  induction term generalizing registry after rebuilt with
  | atom name => exact RawTerm.typed_atom_iff.mpr wellFormed
  | node head lhs rhs lhs_ih rhs_ih =>
      obtain ⟨rfl, lhs_wellFormed, rhs_wellFormed⟩ := wellFormed
      obtain ⟨fn, fn_made, fn_returned, rest⟩ := ExceptT.returns_bind.mp returned
      obtain ⟨arg, arg_made, arg_returned, rest⟩ := ExceptT.returns_bind.mp rest
      obtain ⟨object, made, applied, -⟩ := ExceptT.returns_bind.mp rest
      obtain ⟨fnType, fn_typed⟩ := lhs_ih tidy lhs_wellFormed fn_returned
      obtain ⟨fn_middle, fn_again, fn_tidy⟩ := tidy.rebuild_of_typed fn_typed
      obtain ⟨rfl, rfl⟩ : fn = lhs ∧ fn_made = fn_middle := by
        simpa [ExceptT.Returns] using fn_returned.symm.trans fn_again
      obtain ⟨argType, arg_typed⟩ := rhs_ih fn_tidy rhs_wellFormed arg_returned
      obtain ⟨arg_middle, arg_again, arg_tidy⟩ := fn_tidy.rebuild_of_typed arg_typed
      obtain ⟨rfl, rfl⟩ : arg = rhs ∧ arg_made = arg_middle := by
        simpa [ExceptT.Returns] using arg_returned.symm.trans arg_again
      obtain ⟨end_state, -, outcome⟩ :=
        arg_tidy.apply lhs_wellFormed.genuine rhs_wellFormed.genuine
      cases typed : (RawTerm.node RawTerm.appHead fn arg).typeOf? with
      | ok type => exact ⟨type, rfl⟩
      | error failure =>
          rw [typed] at outcome
          cases applied.symm.trans outcome
  | alien value => exact wellFormed.elim

/-! ## Registries in use -/

/-- The registries that there can be, however they have been used: anything has been asked about
anything, new objects have been made, and terms have been applied, checked or unchecked. -/
inductive Used : Registry → Prop
  /-- The first registry. -/
  | initial : Used initial
  /-- Something has been asked about a raw term. -/
  | asked {registry : Registry} (used : Used registry) (inquiry : Inquiry) (term : RawTerm) :
      Used ((inquiry.ask term).outcome registry).2
  /-- An object has been made that is not registered. -/
  | made {registry : Registry} (used : Used registry) (term : RawTerm) :
      Used ((newObject term).outcome registry).2
  /-- An unchecked application of two terms has been made. -/
  | unchecked {registry : Registry} (used : Used registry) {lhs rhs : RawTerm}
      (lhs_genuine : lhs.Genuine) (rhs_genuine : rhs.Genuine) :
      Used ((applyUnchecked lhs rhs).outcome registry).2
  /-- A checked application of two terms has been tried. -/
  | applied {registry : Registry} (used : Used registry) {lhs rhs : RawTerm}
      (lhs_genuine : lhs.Genuine) (rhs_genuine : rhs.Genuine) :
      Used ((apply lhs rhs).outcome registry).2

theorem ensures_register_tidy {term : RawTerm} (genuine : term.Genuine) :
    ExceptT.Ensures Tidy (register term) fun object => object.term.Genuine := by
  intro before tidy
  obtain ⟨object, after, registered, rfl, after_tidy⟩ := tidy.register genuine
  rw [show (register object.term).outcome before = (.ok object, after) from registered]
  refine ⟨after_tidy, ?_⟩
  rintro _ ⟨⟩
  exact genuine

theorem ensures_apply_tidy {lhs rhs : RawTerm} (lhs_genuine : lhs.Genuine)
    (rhs_genuine : rhs.Genuine) :
    ExceptT.Ensures Tidy (apply lhs rhs) fun object => object.term.Genuine := by
  intro before tidy
  obtain ⟨after, after_tidy, outcome⟩ := tidy.apply lhs_genuine rhs_genuine
  cases typed : (RawTerm.node RawTerm.appHead lhs rhs).typeOf? with
  | error failure =>
      rw [typed] at outcome
      rw [show (apply lhs rhs).outcome before = (.error failure, after) from outcome]
      exact ⟨after_tidy, by rintro _ ⟨⟩⟩
  | ok type =>
      rw [typed] at outcome
      obtain ⟨object, made, stands⟩ := outcome
      rw [show (apply lhs rhs).outcome before = (.ok object, after) from made]
      refine ⟨after_tidy, ?_⟩
      rintro _ ⟨⟩
      rw [stands]
      exact ⟨lhs_genuine, rhs_genuine⟩

theorem ensures_build_tidy (term : Term) :
    ExceptT.Ensures Tidy (build term) fun object => object.term.Genuine := by
  induction term with
  | app fn arg fn_ih arg_ih =>
      exact fn_ih.bind fun _ fn_genuine => arg_ih.bind fun _ arg_genuine =>
        ensures_apply_tidy fn_genuine arg_genuine
  | _ => exact ensures_register_tidy trivial

theorem tidy_empty : empty.Tidy where
  objects shape object found := by simp [empty] at found
  transparent := transparent_empty

theorem tidy_initial : initial.Tidy :=
  initial_of_build tidy_empty fun term => (ensures_build_tidy term).mono fun _ _ => trivial

theorem Used.tidy {registry : Registry} (used : registry.Used) : registry.Tidy := by
  induction used with
  | initial => exact tidy_initial
  | asked _ inquiry term ih => exact (ih.ask inquiry term).1
  | made _ term ih => exact ih.newObject term
  | unchecked _ lhs_genuine rhs_genuine ih =>
      obtain ⟨object, after, made, -, after_tidy⟩ := ih.applyUnchecked lhs_genuine rhs_genuine
      rwa [show (applyUnchecked _ _).outcome _ = (.ok object, after) from made]
  | applied _ lhs_genuine rhs_genuine ih =>
      exact (ensures_apply_tidy lhs_genuine rhs_genuine _ ih).1

/-! ## Early and late -/

section Tidy

variable {registry : Registry}

theorem Tidy.typeOf_eq (tidy : registry.Tidy) {term : RawTerm} (genuine : term.Genuine) :
    ((Registry.typeOf term).outcome registry).1 = term.typeOf? := by
  obtain ⟨after, answered, -⟩ := tidy.typeOf genuine
  rw [answered]

theorem Tidy.typed_iff_rebuilt (tidy : registry.Tidy) {term : RawTerm} (genuine : term.Genuine) :
    (∃ type, ((Registry.typeOf term).outcome registry).1 = .ok type) ↔
      term.WellFormed ∧ ∃ rebuilt, ((rebuild term).outcome registry).1 = .ok rebuilt := by
  rw [tidy.typeOf_eq genuine]
  constructor
  · rintro ⟨type, typed⟩
    obtain ⟨after, returned, -⟩ := tidy.rebuild_of_typed typed
    exact ⟨RawTerm.wellFormed_of_typed typed, term, congrArg Prod.fst returned⟩
  · rintro ⟨wellFormed, rebuilt, returned⟩
    exact tidy.typed_of_rebuild wellFormed (Prod.ext returned rfl)

/-- What is made again has the type and the written form that the term has. -/
theorem Tidy.rebuilt_alike (tidy : registry.Tidy) {term : RawTerm} (genuine : term.Genuine)
    {type : Ty} (typed : ((Registry.typeOf term).outcome registry).1 = .ok type) :
    ∃ rebuilt after text, (rebuild term).Returns registry rebuilt after ∧
      ((Registry.typeOf rebuilt).outcome after).1 = .ok type ∧
        ((render term).outcome registry).1 = .ok text ∧
          ((render rebuilt).outcome after).1 = .ok text := by
  rw [tidy.typeOf_eq genuine] at typed
  obtain ⟨after, returned, after_tidy⟩ := tidy.rebuild_of_typed typed
  obtain ⟨-, text, written⟩ := RawTerm.exists_written_of_typed typed
  exact ⟨term, after, text, returned, (after_tidy.typeOf_eq genuine).trans typed,
    tidy.ask_eq .text genuine written, after_tidy.ask_eq .text genuine written⟩

theorem Tidy.applied_iff (tidy : registry.Tidy) {lhs rhs : RawTerm} (lhs_genuine : lhs.Genuine)
    (rhs_genuine : rhs.Genuine) :
    (∃ object, ((Registry.apply lhs rhs).outcome registry).1 = .ok object) ↔
      ∃ type, (RawTerm.node RawTerm.appHead lhs rhs).typeOf? = .ok type := by
  obtain ⟨after, -, outcome⟩ := tidy.apply lhs_genuine rhs_genuine
  cases typed : (RawTerm.node RawTerm.appHead lhs rhs).typeOf? with
  | error failure =>
      rw [typed] at outcome
      simp [show (Registry.apply lhs rhs).outcome registry = (.error failure, after) from outcome]
  | ok type =>
      rw [typed] at outcome
      obtain ⟨object, made, -⟩ := outcome
      simp [show (Registry.apply lhs rhs).outcome registry = (.ok object, after) from made]

end Tidy

/-- Two terms can be applied exactly if the unchecked application has a type. -/
theorem Tidy.applied_iff_unchecked {registry : Registry} (tidy : registry.Tidy) {lhs rhs : RawTerm}
    (lhs_genuine : lhs.Genuine) (rhs_genuine : rhs.Genuine) :
    (∃ object, ((Registry.apply lhs rhs).outcome registry).1 = .ok object) ↔
      ∃ object after type, (Registry.applyUnchecked lhs rhs).Returns registry object after ∧
        ((Registry.typeOf object.term).outcome after).1 = .ok type := by
  rw [tidy.applied_iff lhs_genuine rhs_genuine]
  obtain ⟨object, after, made, stands, after_tidy⟩ :=
    tidy.applyUnchecked lhs_genuine rhs_genuine
  have late : ((Registry.typeOf object.term).outcome after).1 =
      (RawTerm.node RawTerm.appHead lhs rhs).typeOf? := by
    rw [stands]
    exact after_tidy.typeOf_eq ⟨lhs_genuine, rhs_genuine⟩
  constructor
  · rintro ⟨type, typed⟩
    exact ⟨object, after, type, made, late.trans typed⟩
  · rintro ⟨other, otherAfter, type, other_made, typed⟩
    obtain ⟨rfl, rfl⟩ : object = other ∧ after = otherAfter := by
      simpa [ExceptT.Returns] using made.symm.trans other_made
    exact ⟨type, late.symm.trans typed⟩

/-- The parts of terms that can be applied have types, at any depth. -/
theorem Tidy.parts_typed {registry : Registry} (tidy : registry.Tidy) {lhs rhs : RawTerm}
    (lhs_genuine : lhs.Genuine) (rhs_genuine : rhs.Genuine) {application : RawTerm.Object}
    (applied : ((Registry.apply lhs rhs).outcome registry).1 = .ok application) {part : RawTerm}
    (mem : part ∈ lhs.parts ++ rhs.parts) :
    part.WellFormed ∧ ∃ type, part.typeOf? = .ok type := by
  obtain ⟨type, typed⟩ := (tidy.applied_iff lhs_genuine rhs_genuine).mp ⟨application, applied⟩
  obtain ⟨partType, part_typed⟩ := RawTerm.typed_of_mem_parts typed (List.mem_cons_of_mem _ mem)
  exact ⟨RawTerm.wellFormed_of_typed part_typed, partType, part_typed⟩

/--
However a registry has been used, checks made early and late agree. A term has a type exactly if its
leaves are combinators, its nodes are applications and it can be made again by checked applications;
what is made has the same type and is written in the same way. Two terms are applied exactly if
their unchecked application has a type, and then everything in them is well formed and has a type.
Where a term is refused a type for an application, this is a part of the term; both of its parts
have types and it has none, and all that is visited before it has a type.
-/
theorem checks_agree {registry : Registry} (used : registry.Used) :
    (∀ term : RawTerm, term.Genuine →
      ((∃ type, ((typeOf term).outcome registry).1 = .ok type) ↔
          term.WellFormed ∧ ∃ rebuilt, ((rebuild term).outcome registry).1 = .ok rebuilt) ∧
        ∀ type, ((typeOf term).outcome registry).1 = .ok type →
          ∃ rebuilt after text, (rebuild term).Returns registry rebuilt after ∧
            ((typeOf rebuilt).outcome after).1 = .ok type ∧
              ((render term).outcome registry).1 = .ok text ∧
                ((render rebuilt).outcome after).1 = .ok text) ∧
      (∀ lhs rhs : RawTerm, lhs.Genuine → rhs.Genuine →
        ((∃ object, ((apply lhs rhs).outcome registry).1 = .ok object) ↔
            ∃ object after type, (applyUnchecked lhs rhs).Returns registry object after ∧
              ((typeOf object.term).outcome after).1 = .ok type) ∧
          ∀ object, ((apply lhs rhs).outcome registry).1 = .ok object →
            ∀ part ∈ lhs.parts ++ rhs.parts, part.WellFormed ∧ ∃ type, part.typeOf? = .ok type) ∧
        ∀ term : RawTerm, term.Genuine → ∀ refusal,
          ((typeOf term).outcome registry).1 = .error (.illTyped refusal) →
            .node RawTerm.appHead refusal.fn refusal.arg ∈ term.parts ∧ term.Blames refusal := by
  have tidy := used.tidy
  refine ⟨fun term genuine => ?_, fun lhs rhs lhs_genuine rhs_genuine => ?_,
    fun term genuine refusal refused => ?_⟩
  · exact ⟨tidy.typed_iff_rebuilt genuine, fun type => tidy.rebuilt_alike genuine⟩
  · exact ⟨tidy.applied_iff_unchecked lhs_genuine rhs_genuine,
      fun _ applied _ mem => tidy.parts_typed lhs_genuine rhs_genuine applied mem⟩
  · rw [tidy.typeOf_eq genuine] at refused
    have blames := RawTerm.blames_of_illTyped refused
    exact ⟨blames.mem_parts genuine, blames⟩

/-- `S I I` cannot be part of an application that is checked. As argument of an unknown atom in an
unchecked one it is to blame, since the argument is visited first. -/
theorem self_application_is_blamed :
    let clash : RawTerm := .node RawTerm.appHead
      (.node RawTerm.appHead (.atom "S") (.atom "I")) (.atom "I")
    let term : RawTerm := .node RawTerm.appHead (.atom "X") clash
    (¬ ∃ object, ((apply (.atom "K") clash).outcome initial).1 = .ok object) ∧
      (¬ ∃ type, ((typeOf term).outcome initial).1 = .ok type) ∧
        ∃ refusal, ((typeOf term).outcome initial).1 = .error (.illTyped refusal) ∧
          .node RawTerm.appHead refusal.fn refusal.arg ∈ term.parts ∧ term.Blames refusal := by
  intro clash term
  have clash_genuine : clash.Genuine := ⟨⟨trivial, trivial⟩, trivial⟩
  have genuine : term.Genuine := ⟨trivial, clash_genuine⟩
  obtain ⟨late, early, blamed⟩ := checks_agree .initial
  refine ⟨?_, ?_, ?_⟩
  · rintro ⟨object, applied⟩
    obtain ⟨-, type, typed⟩ := (early (.atom "K") clash trivial clash_genuine).2 object applied
      clash (by simp [clash, RawTerm.parts])
    have untyped : clash.typeOf?.toOption = none := by decide +kernel
    simp [typed, Except.toOption] at untyped
  · rw [(late term genuine).1]
    rintro ⟨⟨-, unknown, -⟩, -⟩
    simp [RawTerm.WellFormed] at unknown
  · have clash_refused : ∃ refusal, clash.typeOf? = .error (.illTyped refusal) := by
      have outcome := RawTerm.typeOf?_ofTerm (.app (.app .S .I) .I)
      cases inferred : (Term.app (.app .S .I) .I).typeOf with
      | error refusal =>
          rw [inferred] at outcome
          exact ⟨_, outcome⟩
      | ok type =>
          have untyped : (Term.app (.app .S .I) .I).typeOf.toOption = none := by decide +kernel
          rw [inferred] at untyped
          cases untyped
    obtain ⟨refusal, clash_refused⟩ := clash_refused
    have refused : term.typeOf? = .error (.illTyped refusal) := by
      rw [RawTerm.typeOf?_node, clash_refused]
      rfl
    have late_refused := (tidy_initial.typeOf_eq genuine).trans refused
    exact ⟨refusal, late_refused, blamed term genuine refusal late_refused⟩

end Registry

end Combinatory
