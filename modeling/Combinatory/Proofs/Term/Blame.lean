import Combinatory.Proofs.Term.Genuine

/-!
# Well-formed terms and blame

A raw term is well formed if its atoms are combinators and its nodes applications; only well-formed
terms have types. Terms are typed part by part, arguments before functions and both before the
application. So where a term is refused a type for an application, this is the first part in that
order which has none although both of its parts have one.
-/

namespace Combinatory

namespace RawTerm

/-! ## Well-formed terms -/

/-- The leaves are named as combinators and the nodes are applications. -/
def WellFormed : RawTerm → Prop
  | atom name => name = "S" ∨ name = "K" ∨ name = "I"
  | node head lhs rhs => head = appHead ∧ lhs.WellFormed ∧ rhs.WellFormed
  | alien _ => False

/-- The well-formed terms are the combinator terms. -/
theorem wellFormed_iff {term : RawTerm} :
    term.WellFormed ↔ ∃ combinators : Term, ofTerm combinators = term := by
  constructor
  · intro wellFormed
    induction term with
    | atom name =>
        rcases wellFormed with rfl | rfl | rfl
        · exact ⟨.S, rfl⟩
        · exact ⟨.K, rfl⟩
        · exact ⟨.I, rfl⟩
    | node head lhs rhs lhs_ih rhs_ih =>
        obtain ⟨rfl, lhs_wellFormed, rhs_wellFormed⟩ := wellFormed
        obtain ⟨fn, rfl⟩ := lhs_ih lhs_wellFormed
        obtain ⟨arg, rfl⟩ := rhs_ih rhs_wellFormed
        exact ⟨.app fn arg, rfl⟩
    | alien value => exact wellFormed.elim
  · rintro ⟨combinators, rfl⟩
    induction combinators with
    | app fn arg fn_ih arg_ih => exact ⟨rfl, fn_ih, arg_ih⟩
    | _ => simp [ofTerm, WellFormed]

/-- An atom has a type if it is a combinator. -/
theorem typed_atom_iff {name : String} :
    (∃ type, (atom name).typeOf? = .ok type) ↔ (atom name).WellFormed := by
  simp only [typeOf?, Question.answer, Question.principalType, WellFormed]
  constructor
  · rintro ⟨type, typed⟩
    split at typed
    · next found =>
        unfold scheme? at found
        split at found <;> simp_all
    · cases typed
  · rintro (rfl | rfl | rfl) <;> exact ⟨_, rfl⟩

/-- A combinator term has its own type, and is refused it as it is. -/
theorem typeOf?_ofTerm (term : Term) :
    (ofTerm term).typeOf? = term.typeOf.mapError fun refusal => .illTyped (refusal.map ofTerm) := by
  induction term with
  | app fn arg fn_ih arg_ih =>
      rw [ofTerm, typeOf?_node, Term.typeOf, Term.typeFrom, ← Term.typeOf, ← Term.typeOf, fn_ih,
        arg_ih]
      cases arg.typeOf with
      | error refusal => rfl
      | ok argType =>
          cases fn.typeOf with
          | error refusal => rfl
          | ok fnType =>
              simp only [Except.mapError, bind, Except.bind, Question.principalType,
                Question.applicationsOnly, if_true]
              cases Ty.applied .start fnType argType <;> rfl
  | _ => rfl

/-- Only well-formed terms have types. -/
theorem wellFormed_of_typed {term : RawTerm} {type : Ty} (typed : term.typeOf? = .ok type) :
    term.WellFormed := by
  induction term generalizing type with
  | atom name => exact typed_atom_iff.mp ⟨type, typed⟩
  | node head lhs rhs lhs_ih rhs_ih =>
      obtain ⟨headed, fnType, argType, fn_typed, arg_typed, -⟩ := typed_node typed
      exact ⟨headed, lhs_ih fn_typed, rhs_ih arg_typed⟩
  | alien value => cases typed

theorem WellFormed.genuine {term : RawTerm} (wellFormed : term.WellFormed) : term.Genuine := by
  induction term with
  | atom name => trivial
  | node head lhs rhs lhs_ih rhs_ih => exact ⟨lhs_ih wellFormed.2.1, rhs_ih wellFormed.2.2⟩
  | alien value => exact wellFormed

theorem genuine_ofTerm (term : Term) : (ofTerm term).Genuine :=
  (wellFormed_iff.mpr ⟨term, rfl⟩).genuine

/-- A term that has a type has types for all of its parts. -/
theorem typed_of_mem_parts {term part : RawTerm} {type : Ty} (typed : term.typeOf? = .ok type)
    (mem : part ∈ term.parts) : ∃ partType, part.typeOf? = .ok partType := by
  induction term generalizing type with
  | atom name =>
      rw [List.mem_singleton.mp mem]
      exact ⟨type, typed⟩
  | node head lhs rhs lhs_ih rhs_ih =>
      rcases List.mem_cons.mp mem with rfl | inside
      · exact ⟨type, typed⟩
      · obtain ⟨-, fnType, argType, fn_typed, arg_typed, -⟩ := typed_node typed
        rcases List.mem_append.mp inside with left | right
        · exact lhs_ih fn_typed left
        · exact rhs_ih arg_typed right
  | alien value => cases mem

/-! ## Blame -/

/-- The parts of a term in the order in which they are typed. -/
def visits : RawTerm → List RawTerm
  | node head lhs rhs => rhs.visits ++ lhs.visits ++ [node head lhs rhs]
  | term => [term]

/-- A part that is visited is a part of the term, or plain data. -/
theorem Genuine.mem_visits_iff {term part : RawTerm} (genuine : term.Genuine) :
    part ∈ term.visits ↔ part ∈ term.parts := by
  induction term with
  | atom name => rfl
  | node head lhs rhs lhs_ih rhs_ih =>
      simp only [visits, parts, List.mem_append, List.mem_cons, List.not_mem_nil, or_false,
        lhs_ih genuine.1, rhs_ih genuine.2]
      tauto
  | alien value => exact genuine.elim

theorem typed_of_mem_visits {term part : RawTerm} {type : Ty} (typed : term.typeOf? = .ok type)
    (mem : part ∈ term.visits) : ∃ partType, part.typeOf? = .ok partType :=
  typed_of_mem_parts typed
    ((wellFormed_of_typed typed).genuine.mem_visits_iff.mp mem)

/-- An application is to blame for the term having no type. -/
structure Blames (term : RawTerm) (refusal : IllTyped RawTerm) : Prop where
  /-- The function has a type. -/
  fn_typed : refusal.fn.typeOf? = .ok refusal.fnType
  /-- The argument has a type. -/
  arg_typed : refusal.arg.typeOf? = .ok refusal.argType
  /-- The application has none: it is refused, and none can be derived for it. -/
  untyped : (node appHead refusal.fn refusal.arg).typeOf? = .error (.illTyped refusal) ∧
    ∃ fn arg : Term, ofTerm fn = refusal.fn ∧ ofTerm arg = refusal.arg ∧
      ∀ type, ¬ (Term.app fn arg).HasType type
  /-- All parts that are visited before it have types. -/
  first : ∃ before after,
    term.visits = before ++ node appHead refusal.fn refusal.arg :: after ∧
      ∀ part ∈ before, ∃ type, part.typeOf? = .ok type

/-- The application to blame is a part of the term. -/
theorem Blames.mem_parts {term : RawTerm} {refusal : IllTyped RawTerm}
    (blames : term.Blames refusal) (genuine : term.Genuine) :
    node appHead refusal.fn refusal.arg ∈ term.parts := by
  obtain ⟨before, after, visited, -⟩ := blames.first
  exact genuine.mem_visits_iff.mp (by simp [visited])

/-- The application of two typed terms that is refused a type is itself to blame. -/
theorem blames_application {lhs rhs : RawTerm} {fnType argType : Ty}
    {reason : UnificationFailure} (fn_typed : lhs.typeOf? = .ok fnType)
    (arg_typed : rhs.typeOf? = .ok argType)
    (refused : (node appHead lhs rhs).typeOf? =
      .error (.illTyped { fn := lhs, arg := rhs, fnType, argType, reason })) :
    (node appHead lhs rhs).Blames { fn := lhs, arg := rhs, fnType, argType, reason } := by
  refine ⟨fn_typed, arg_typed, ⟨refused, ?_⟩, rhs.visits ++ lhs.visits, [], rfl, ?_⟩
  · obtain ⟨fn, rfl⟩ := wellFormed_iff.mp (wellFormed_of_typed fn_typed)
    obtain ⟨arg, rfl⟩ := wellFormed_iff.mp (wellFormed_of_typed arg_typed)
    refine ⟨fn, arg, rfl, rfl, fun type derivable => ?_⟩
    obtain ⟨principal, inferred, -⟩ :=
      (derivable_iff_instance_of_inferred.1 .start (.app fn arg) type).mp derivable
    have typed := typeOf?_ofTerm (.app fn arg)
    rw [show (Term.app fn arg).typeOf = .ok principal from inferred] at typed
    cases typed.symm.trans refused
  · intro part mem
    rcases List.mem_append.mp mem with in_arg | in_fn
    · exact typed_of_mem_visits arg_typed in_arg
    · exact typed_of_mem_visits fn_typed in_fn

/-- A term that has no type for an application has the first one to blame. -/
theorem blames_of_illTyped {term : RawTerm} {refusal : IllTyped RawTerm}
    (refused : term.typeOf? = .error (.illTyped refusal)) : term.Blames refusal := by
  induction term with
  | atom name =>
      simp only [typeOf?, Question.answer, Question.principalType] at refused
      split at refused <;> simp at refused
  | node head lhs rhs lhs_ih rhs_ih =>
      rcases typeOf?_node_cases head lhs rhs with
        ⟨-, outcome⟩ | ⟨rfl, ⟨failure, arg_refused, outcome⟩ | ⟨argType, arg_typed,
          ⟨failure, fn_refused, outcome⟩ | ⟨fnType, fn_typed, outcome⟩⟩⟩
      · cases outcome.symm.trans refused
      · have blames := rhs_ih (arg_refused.trans (outcome.symm.trans refused))
        obtain ⟨before, after, visited, typed⟩ := blames.first
        refine { blames with
          first := ⟨before, after ++ (lhs.visits ++ [node appHead lhs rhs]), ?_, typed⟩ }
        simp [visits, visited]
      · have blames := lhs_ih (fn_refused.trans (outcome.symm.trans refused))
        obtain ⟨before, after, visited, typed⟩ := blames.first
        refine { blames with
          first := ⟨rhs.visits ++ before, after ++ [node appHead lhs rhs], ?_, ?_⟩ }
        · simp [visits, visited]
        · intro part mem
          rcases List.mem_append.mp mem with in_arg | in_fn
          · exact typed_of_mem_visits arg_typed in_arg
          · exact typed part in_fn
      · cases applied : Ty.applied .start fnType argType with
        | ok type =>
            rw [applied] at outcome
            cases outcome.symm.trans refused
        | error reason =>
            rw [applied] at outcome
            cases outcome.symm.trans refused
            exact blames_application fn_typed arg_typed outcome
  | alien value => cases refused

end RawTerm

end Combinatory
