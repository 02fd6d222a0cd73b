import Combinatory.Proofs.Evaluation.Effect
import Combinatory.Proofs.Term.Principal
import Combinatory.Term.Registry

/-!
# What a registry remembers

A registry is sound if it has the right objects and the right written forms under the shapes of
combinator terms. Terms are told apart by their shapes, so from a sound registry every term gets the
object that stands for it and its own written form, an application of typed terms is refused only
for its type, and the registry stays sound.
-/

namespace Combinatory

/-! ## Shapes of terms -/

theorem RawTerm.shape_ofTerm_injective {left right : Term}
    (same : (RawTerm.ofTerm left).shape = (RawTerm.ofTerm right).shape) : left = right := by
  induction left generalizing right with
  | app fn arg fn_ih arg_ih =>
      cases right with
      | app otherFn otherArg =>
          simp only [ofTerm, shape, Shape.ofList, List.foldr, Shape.cons.injEq] at same
          rw [fn_ih same.2.1, arg_ih same.2.2.1]
      | _ => simp [ofTerm, shape, Shape.ofList] at same
  | _ =>
      cases right with
      | app => simp [ofTerm, shape, Shape.ofList] at same
      | _ => first | rfl | simp [ofTerm, shape, Shape.ofList, Shape.text] at same

theorem RawTerm.eq_render_of_shape_atom {name : String} {term : Term}
    (same : (atom name).shape = (ofTerm term).shape) : name = term.render := by
  cases term <;> simp_all [ofTerm, shape, Shape.ofList, Shape.text, Term.render]

/-- A node of the shape of a term has parts of the shapes of its parts. -/
theorem RawTerm.exists_app_of_shape_node {head : String} {lhs rhs : RawTerm} {term : Term}
    (same : (node head lhs rhs).shape = (ofTerm term).shape) :
    ∃ fn arg,
      term = .app fn arg ∧ lhs.shape = (ofTerm fn).shape ∧ rhs.shape = (ofTerm arg).shape := by
  cases term with
  | app fn arg =>
      simp only [ofTerm, shape, Shape.ofList, List.foldr, Shape.cons.injEq] at same
      exact ⟨fn, arg, rfl, same.2.1, same.2.2.1⟩
  | _ => simp [ofTerm, shape, Shape.ofList] at same

/-- No part of a term is in the way of a key. -/
theorem RawTerm.unkeyable?_ofTerm (term : Term) : (ofTerm term).unkeyable? = none := by
  induction term with
  | app fn arg fn_ih arg_ih => simp [ofTerm, unkeyable?, fn_ih, arg_ih]
  | _ => rfl

theorem RawTerm.proper?_ofTerm (term : Term) : (ofTerm term).proper? = .ok (ofTerm term) := by
  cases term <;> rfl

theorem RawTerm.keyable?_ofTerm (term : Term) : (ofTerm term).keyable? = .ok (ofTerm term) := by
  simp [keyable?, unkeyable?_ofTerm]

namespace Registry

/-- The registry has nothing wrong under the shapes of combinator terms. -/
structure Sound (registry : Registry) : Prop where
  /-- The object of a term stands for it. -/
  objects : ∀ term object, registry.objects[(RawTerm.ofTerm term).shape]? = some object →
    object.term = .ofTerm term
  /-- The written form of a term is its own. -/
  texts : ∀ term text, registry.texts[(RawTerm.ofTerm term).shape]? = some text →
    text = term.render

theorem sound_empty : empty.Sound where
  objects term object found := by simp [empty] at found
  texts term text found := by simp [empty] at found

variable {registry : Registry}

/-- Only objects and written forms matter. -/
theorem Sound.of_eq {after : Registry} (sound : registry.Sound)
    (objects_eq : after.objects = registry.objects) (texts_eq : after.texts = registry.texts) :
    after.Sound where
  objects := by
    rw [objects_eq]
    exact sound.objects
  texts := by
    rw [texts_eq]
    exact sound.texts

theorem Sound.insert_object (sound : registry.Sound) {term : Term} {object : RawTerm.Object}
    (stands : object.term = .ofTerm term) (serial : Nat) :
    Sound { registry with
      nextSerial := serial
      objects := registry.objects.insert (RawTerm.ofTerm term).shape object } where
  objects other found found_eq := by
    simp only [Std.HashMap.getElem?_insert, beq_iff_eq] at found_eq
    split at found_eq
    · next same =>
        obtain rfl := RawTerm.shape_ofTerm_injective same
        obtain rfl := Option.some.inj found_eq
        exact stands
    · exact sound.objects other found found_eq
  texts := sound.texts

theorem Sound.insert_text (sound : registry.Sound) {shape : Shape} {text : String}
    (right : ∀ term, shape = (RawTerm.ofTerm term).shape → text = term.render) :
    Sound { registry with texts := registry.texts.insert shape text } where
  objects := sound.objects
  texts term found found_eq := by
    simp only [Std.HashMap.getElem?_insert, beq_iff_eq] at found_eq
    split at found_eq
    · next same =>
        obtain rfl := Option.some.inj found_eq
        exact right term same
    · exact sound.texts term found found_eq

/-! ## Objects -/

/-- A term is given the object that stands for it. -/
theorem Sound.registered (sound : registry.Sound) (term : Term) :
    ∃ object after, (registered term).Returns registry object after ∧
      object.term = .ofTerm term ∧ after.Sound := by
  simp only [ExceptT.Returns, Registry.registered, register, ExceptT.outcome_bind,
    ExceptT.outcome_get]
  cases found : registry.objects[(RawTerm.ofTerm term).shape]? with
  | some object => exact ⟨object, registry, rfl, sound.objects term object found, sound⟩
  | none =>
      let object : RawTerm.Object := { serial := registry.nextSerial, term := .ofTerm term }
      exact ⟨object, _, rfl, rfl, sound.insert_object rfl _⟩

/-! ## Written forms -/

/-- What comes of a computation whose results are remembered. -/
theorem outcome_remember {σ ε κ ν : Type} [BEq κ] [Hashable κ] (slot : Memo.Slot σ κ ν) (key : κ)
    (computation : ExceptT ε (StateM σ) ν) (before : σ) :
    (Memo.remember slot key computation).outcome before =
      match (slot.read before)[key]? with
      | some result => (.ok result, before)
      | none =>
          match computation.outcome before with
          | (.ok result, middle) =>
              (.ok result, slot.write ((slot.read middle).insert key result) middle)
          | (.error error, middle) => (.error error, middle) := by
  simp only [Memo.remember, ExceptT.outcome_bind, ExceptT.outcome_get]
  cases (slot.read before)[key]? with
  | some result => rfl
  | none =>
      simp only [ExceptT.outcome_bind]
      rcases computation.outcome before with ⟨_ | _, middle⟩ <;> rfl

/-- Remembering preserves what the computation preserves and keeping a good result does, and gives
good results if those in the table are. -/
theorem ensures_remember {σ ε κ ν : Type} [BEq κ] [Hashable κ] {holds : σ → Prop} {good : ν → Prop}
    {slot : Memo.Slot σ κ ν} {key : κ} {computation : ExceptT ε (StateM σ) ν}
    (computes : computation.Ensures holds good)
    (found_good : ∀ before result, holds before → (slot.read before)[key]? = some result →
      good result)
    (kept : ∀ middle result, holds middle → good result →
      holds (slot.write ((slot.read middle).insert key result) middle)) :
    ExceptT.Ensures holds (Memo.remember slot key computation) good := by
  intro before held
  rw [outcome_remember]
  cases found : (slot.read before)[key]? with
  | some result =>
      refine ⟨held, ?_⟩
      rintro _ ⟨⟩
      exact found_good before result held found
  | none =>
      obtain ⟨middle_held, is_good⟩ := computes before held
      rcases ended : computation.outcome before with ⟨error | result, middle⟩
      · rw [ended] at middle_held
        refine ⟨middle_held, ?_⟩
        rintro _ ⟨⟩
      · rw [ended] at middle_held is_good
        refine ⟨kept middle result middle_held (is_good result rfl), ?_⟩
        rintro _ ⟨⟩
        exact is_good result rfl

/-- A remembered written form is found, and one that has been made is remembered. -/
theorem Sound.remember_text (sound : registry.Sound) (term : Term)
    {computation : ExceptT RawTerm.Failure (StateM Registry) String}
    (made : ∃ after, computation.Returns registry term.render after ∧ after.Sound) :
    ∃ after, (Memo.remember textSlot (RawTerm.ofTerm term).shape computation).Returns registry
      term.render after ∧ after.Sound := by
  simp only [ExceptT.Returns, outcome_remember]
  cases found : (textSlot.read registry)[(RawTerm.ofTerm term).shape]? with
  | some text =>
      obtain rfl := sound.texts term text found
      exact ⟨registry, rfl, sound⟩
  | none =>
      obtain ⟨after, returned, after_sound⟩ := made
      rw [show computation.outcome registry = (.ok term.render, after) from returned]
      refine ⟨_, rfl, after_sound.insert_text fun other same => ?_⟩
      rw [RawTerm.shape_ofTerm_injective same]

theorem Sound.ask_written (sound : registry.Sound) (term : Term) :
    ∃ after, (ask textSlot .written (.ofTerm term)).Returns registry term.render after ∧
      after.Sound := by
  induction term generalizing registry with
  | S => exact sound.remember_text .S ⟨registry, rfl, sound⟩
  | K => exact sound.remember_text .K ⟨registry, rfl, sound⟩
  | I => exact sound.remember_text .I ⟨registry, rfl, sound⟩
  | app fn arg fn_ih arg_ih =>
      obtain ⟨after_fn, fn_written, fn_sound⟩ := fn_ih sound
      obtain ⟨after_arg, arg_written, arg_sound⟩ := arg_ih fn_sound
      refine sound.remember_text (.app fn arg) ⟨after_arg, ?_, arg_sound⟩
      have both_written : (Question.written.both (ask textSlot .written (.ofTerm fn))
          (ask textSlot .written (.ofTerm arg))).Returns registry (fn.render, arg.render)
          after_arg :=
        fn_written.bind (arg_written.bind rfl)
      exact ExceptT.Returns.bind rfl (both_written.bind rfl)

/-- A term is written as it should be. -/
theorem Sound.render (sound : registry.Sound) (term : Term) :
    ∃ after, (Registry.render (.ofTerm term)).Returns registry term.render after ∧ after.Sound := by
  obtain ⟨after, written, after_sound⟩ := sound.ask_written term
  refine ⟨after, ExceptT.Returns.bind ?_ written, after_sound⟩
  simp [operand, keyable, RawTerm.proper?_ofTerm, RawTerm.keyable?_ofTerm, ExceptT.Returns,
    ExceptT.outcome_bind, ExceptT.outcome_ofExcept]

/-! ## Applications -/

/-- A refusal is passed on after both parts have been written. -/
theorem Sound.refuse {α : Type} (sound : registry.Sound) (refusal : IllTyped Term) :
    ∃ after, (Registry.refuse (refusal.map .ofTerm) : Access α).Fails registry
      (.illTyped (refusal.map .ofTerm)) after ∧ after.Sound := by
  obtain ⟨after_fn, fn_written, fn_sound⟩ := sound.render refusal.fn
  obtain ⟨after_arg, arg_written, arg_sound⟩ := fn_sound.render refusal.arg
  refine ⟨after_arg, ?_, arg_sound⟩
  exact fn_written.bind_fails (arg_written.bind_fails rfl)

/-- Typed terms are applied to one another unless the application has no type. -/
theorem Sound.applyTyped (sound : registry.Sound) (fn arg : TypedTerm) :
    ∃ after, after.Sound ∧
      match fn.app? arg with
      | .ok application => (Registry.applyTyped fn arg).Returns registry application after
      | .error refusal =>
          (Registry.applyTyped fn arg).Fails registry (.illTyped (refusal.map .ofTerm)) after := by
  obtain ⟨lhs, after_fn, fn_registered, lhs_term, fn_sound⟩ := sound.registered fn.term
  obtain ⟨rhs, after_arg, arg_registered, rhs_term, arg_sound⟩ := fn_sound.registered arg.term
  cases applied : fn.app? arg with
  | ok application =>
      have node_eq : RawTerm.node RawTerm.appHead lhs.term rhs.term = .ofTerm application.term := by
        rw [lhs_term, rhs_term, TypedTerm.app?_ok applied]
        rfl
      let typed : Registry :=
        { after_arg with
          types := after_arg.types.insert (RawTerm.ofTerm application.term).shape application.type }
      have typed_sound : typed.Sound := arg_sound.of_eq rfl rfl
      obtain ⟨object, after, registered, -, after_sound⟩ := typed_sound.registered application.term
      refine ⟨after, after_sound, fn_registered.bind (arg_registered.bind ?_)⟩
      rw [applied, node_eq]
      exact ExceptT.Returns.bind rfl (registered.bind rfl)
  | error refusal =>
      obtain ⟨⟨name, type, rfl⟩, -⟩ := TypedTerm.app?_error applied
      obtain ⟨after, refused, after_sound⟩ := @Sound.refuse after_arg TypedTerm arg_sound
        ⟨fn.term, arg.term, fn.type, arg.type, .infinite name type⟩
      refine ⟨after, after_sound, fn_registered.bind_fails (arg_registered.bind_fails ?_)⟩
      rw [applied, lhs_term, rhs_term]
      exact refused

theorem ensures_applyTyped (fn arg : TypedTerm) :
    ExceptT.Ensures Sound (applyTyped fn arg) fun _ => True := by
  intro before sound
  refine ⟨?_, fun _ _ => trivial⟩
  obtain ⟨after, after_sound, outcome⟩ := sound.applyTyped fn arg
  have after_eq : ((applyTyped fn arg).outcome before).2 = after := by
    cases applied : fn.app? arg with
    | ok application =>
        rw [applied] at outcome
        exact congrArg Prod.snd outcome
    | error refusal =>
        rw [applied] at outcome
        exact congrArg Prod.snd outcome
  rw [after_eq]
  exact after_sound

/-! ## Raw terms -/

/-- What is remembered under a shape is right if it is what terms of the shape are written as. -/
theorem ensures_remember_text {shape : Shape} {computation : Access String}
    (ensures : computation.Ensures Sound fun text =>
      ∀ term, shape = (RawTerm.ofTerm term).shape → text = term.render) :
    ExceptT.Ensures Sound (Memo.remember textSlot shape computation) fun text =>
      ∀ term, shape = (RawTerm.ofTerm term).shape → text = term.render := by
  refine ensures_remember ensures ?_ fun _ _ sound right => sound.insert_text right
  rintro before text sound found term rfl
  exact sound.texts term text found

/-- A raw term is written like the terms of its shape. -/
theorem ensures_ask_written (term : RawTerm) :
    ExceptT.Ensures Sound (ask textSlot .written term) fun text =>
      ∀ other, term.shape = (RawTerm.ofTerm other).shape → text = other.render := by
  induction term with
  | atom name =>
      refine ensures_remember_text (ExceptT.ensures_ofExcept ?_)
      rintro _ ⟨⟩ other same
      exact RawTerm.eq_render_of_shape_atom same
  | alien value => exact ensures_remember_text (ExceptT.ensures_throw _)
  | node head lhs rhs lhs_ih rhs_ih =>
      refine ensures_remember_text ?_
      refine (ExceptT.ensures_ofExcept fun _ _ => trivial).bind fun _ (_ : True) => ?_
      have both : ExceptT.Ensures Sound
          (Question.written.both (ask textSlot .written lhs) (ask textSlot .written rhs))
          fun texts =>
            (∀ other, lhs.shape = (RawTerm.ofTerm other).shape → texts.1 = other.render) ∧
              ∀ other, rhs.shape = (RawTerm.ofTerm other).shape → texts.2 = other.render :=
        lhs_ih.bind fun _ fn_right => rhs_ih.bind fun _ arg_right =>
          ExceptT.ensures_pure ⟨fn_right, arg_right⟩
      refine both.bind fun texts right => ?_
      obtain ⟨fnText, argText⟩ := texts
      obtain ⟨fn_right, arg_right⟩ := right
      refine ExceptT.ensures_ofExcept ?_
      rintro _ ⟨⟩ other same
      obtain ⟨fn, arg, rfl, fn_same, arg_same⟩ := RawTerm.exists_app_of_shape_node same
      have fn_text : fnText = fn.render := fn_right fn fn_same
      have arg_text : argText = arg.render := arg_right arg arg_same
      rw [fn_text, arg_text, Term.render]

theorem ensures_operand (term : RawTerm) : ExceptT.Ensures Sound (operand term) fun _ => True :=
  (ExceptT.ensures_ofExcept fun _ _ => trivial).bind fun _ (_ : True) =>
    ExceptT.ensures_ofExcept fun _ _ => trivial

theorem ensures_render (term : RawTerm) : ExceptT.Ensures Sound (render term) fun _ => True :=
  (ensures_operand term).bind fun term _ => (ensures_ask_written term).mono fun _ _ => trivial

theorem ensures_refuse {α : Type} {good : α → Prop} (refusal : IllTyped RawTerm) :
    ExceptT.Ensures Sound (refuse refusal : Access α) good :=
  (ensures_render _).bind fun _ _ => (ensures_render _).bind fun _ _ => ExceptT.ensures_throw _

/-- Remembering types leaves objects and written forms alone. -/
theorem ensures_remember_type {shape : Shape} {computation : Access Ty}
    (ensures : computation.Ensures Sound fun _ => True) :
    ExceptT.Ensures Sound (Memo.remember typeSlot shape computation) fun _ => True :=
  ensures_remember ensures (fun _ _ _ _ => trivial) fun _ _ sound _ => sound.of_eq rfl rfl

theorem ensures_ask_type (term : RawTerm) :
    ExceptT.Ensures Sound (ask typeSlot .principalType term) fun _ => True := by
  induction term with
  | atom name => exact ensures_remember_type (ExceptT.ensures_ofExcept fun _ _ => trivial)
  | alien value => exact ExceptT.ensures_throw _
  | node head lhs rhs lhs_ih rhs_ih =>
      refine ensures_remember_type ?_
      refine (ExceptT.ensures_ofExcept fun _ _ => trivial).bind fun _ (_ : True) => ?_
      have both : ExceptT.Ensures Sound
          (Question.principalType.both (ask typeSlot .principalType lhs)
            (ask typeSlot .principalType rhs)) fun _ => True :=
        rhs_ih.bind fun _ _ => lhs_ih.bind fun _ _ => ExceptT.ensures_pure trivial
      exact both.bind fun _ _ => ExceptT.ensures_ofExcept fun _ _ => trivial

theorem ensures_typeOf (term : RawTerm) : ExceptT.Ensures Sound (typeOf term) fun _ => True := by
  refine (ensures_operand term).bind fun term _ => ?_
  refine (ensures_ask_type term).tryCatch fun failure => ?_
  cases failure with
  | illTyped refusal => exact ensures_refuse refusal
  | _ => exact ExceptT.ensures_throw _

/-! ## Reports -/

theorem preserves_text? (term : RawTerm) : StateT.Preserves Sound (text? term) :=
  (StateT.preserves_run (ensures_render term)).bind fun _ => StateT.preserves_pure _

theorem preserves_report (failure : RawTerm.Failure) :
    StateT.Preserves Sound (report failure) := by
  cases failure with
  | unknownAtom name => exact preserves_text? (.atom name)
  | illTyped refusal =>
      exact (preserves_text? _).bind fun _ => (preserves_text? _).bind fun _ =>
        StateT.preserves_pure _
  | _ => exact StateT.preserves_pure _

/-! ## The first registry -/

theorem ensures_registered (term : Term) :
    ExceptT.Ensures Sound (registered term) fun object => object.term = .ofTerm term := by
  intro before sound
  obtain ⟨object, after, returned, stands, after_sound⟩ := sound.registered term
  rw [show (registered term).outcome before = (.ok object, after) from returned]
  refine ⟨after_sound, ?_⟩
  rintro _ ⟨⟩
  exact stands

/-- Building a term gives the object that stands for it. -/
theorem ensures_build (term : Term) :
    ExceptT.Ensures Sound (build term) fun object => object.term = .ofTerm term := by
  induction term with
  | S => exact ensures_registered .S
  | K => exact ensures_registered .K
  | I => exact ensures_registered .I
  | app fn arg fn_ih arg_ih =>
      refine fn_ih.bind fun fnObject fn_stands => arg_ih.bind fun argObject arg_stands => ?_
      rw [fn_stands, arg_stands, apply, RawTerm.proper?_ofTerm, RawTerm.proper?_ofTerm]
      change ExceptT.Ensures Sound (typeOf (.ofTerm (.app fn arg)) >>= fun _ =>
        applyUnchecked (.ofTerm fn) (.ofTerm arg)) _
      refine (ensures_typeOf _).bind fun _ _ => ?_
      have keyed : keyable (.node RawTerm.appHead (.ofTerm fn) (.ofTerm arg)) =
          pure (.ofTerm (.app fn arg)) := by
        rw [keyable, show RawTerm.node _ _ _ = .ofTerm (.app fn arg) from rfl,
          RawTerm.keyable?_ofTerm]
        rfl
      rw [applyUnchecked, keyed, pure_bind]
      exact ensures_registered (.app fn arg)

/-- The first registry has what the empty one has and building terms preserves. -/
theorem initial_of_build {holds : Registry → Prop} (at_first : holds empty)
    (built : ∀ term, ExceptT.Ensures holds (build term) fun _ => True) : holds initial := by
  have orders : ExceptT.Ensures holds
      (do let _ ← [Term.S, Term.K, Term.I].mapM build
          let _ ← Library.entries.mapM fun entry => build entry.term : Access Unit) fun _ => True :=
    (ExceptT.ensures_mapM built).bind fun _ _ =>
      (ExceptT.ensures_mapM fun _ => built _).bind fun _ _ => ExceptT.ensures_pure trivial
  exact (orders empty at_first).1

/-- The registry of the atoms and the library is sound. -/
theorem sound_initial : initial.Sound :=
  initial_of_build sound_empty fun term => (ensures_build term).mono fun _ _ => trivial

end Registry
end Combinatory
