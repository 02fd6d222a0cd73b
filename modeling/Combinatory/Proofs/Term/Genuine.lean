import Combinatory.Proofs.Term.Sharing

/-!
# Terms and plain data of their shape

A raw term is genuine if no part of it is plain data; its atoms may have any name, its nodes any
head, and its applications need no type. Genuine terms are told apart by their shapes, and they are
no obstacle to remembering answers. The same holds for plain data of the shape of a genuine term,
which equality does not tell from it.
-/

namespace Combinatory

/-! ## Terms without plain data -/

namespace RawTerm

/-- There are no plain data in the term. -/
def Genuine : RawTerm → Prop
  | atom _ => True
  | node _ lhs rhs => lhs.Genuine ∧ rhs.Genuine
  | alien _ => False

/-- The atoms and nodes that the term is made of, itself included. -/
def parts : RawTerm → List RawTerm
  | atom name => [atom name]
  | node head lhs rhs => node head lhs rhs :: (lhs.parts ++ rhs.parts)
  | alien _ => []

/-- Terms are told apart by their shapes. -/
theorem Genuine.eq_of_shape_eq {left right : RawTerm} (left_genuine : left.Genuine)
    (right_genuine : right.Genuine) (same : left.shape = right.shape) : left = right := by
  induction left generalizing right with
  | atom name =>
      cases right with
      | atom other => simpa [shape, Shape.ofList, Shape.text] using same
      | node => simp [shape, Shape.ofList] at same
      | alien => exact right_genuine.elim
  | node head lhs rhs lhs_ih rhs_ih =>
      cases right with
      | atom => simp [shape, Shape.ofList] at same
      | node otherHead otherLhs otherRhs =>
          simp only [shape, Shape.ofList, Shape.text, List.foldr, Shape.cons.injEq,
            Shape.leaf.injEq, Literal.text.injEq] at same
          rw [same.1, lhs_ih left_genuine.1 right_genuine.1 same.2.1,
            rhs_ih left_genuine.2 right_genuine.2 same.2.2.1]
      | alien => exact right_genuine.elim
  | alien => exact left_genuine.elim

theorem Genuine.of_mem_parts {term part : RawTerm} (genuine : term.Genuine)
    (mem : part ∈ term.parts) : part.Genuine := by
  induction term with
  | atom name =>
      rw [List.mem_singleton.mp mem]
      exact genuine
  | node head lhs rhs lhs_ih rhs_ih =>
      rcases List.mem_cons.mp mem with rfl | inside
      · exact genuine
      · rcases List.mem_append.mp inside with left | right
        · exact lhs_ih genuine.1 left
        · exact rhs_ih genuine.2 right
  | alien => exact genuine.elim

/-- No part of a term is in the way of a key. -/
theorem Genuine.keyable? {term : RawTerm} (genuine : term.Genuine) : term.keyable? = .ok term := by
  have nothing_in_the_way : term.unkeyable? = none := by
    induction term with
    | atom => rfl
    | node head lhs rhs lhs_ih rhs_ih =>
        simp [unkeyable?, lhs_ih genuine.1, rhs_ih genuine.2]
    | alien => exact genuine.elim
  simp [RawTerm.keyable?, nothing_in_the_way]

theorem Genuine.proper? {term : RawTerm} (genuine : term.Genuine) : term.proper? = .ok term := by
  cases term with
  | alien => exact genuine.elim
  | _ => rfl

theorem eq_of_keyable?_ok {term keyed : RawTerm} (ok : term.keyable? = .ok keyed) :
    keyed = term := by
  rw [keyable?] at ok
  split at ok
  · cases ok
  · exact (Except.ok.inj ok).symm

theorem eq_of_operand_ok {term keyed : RawTerm}
    (ok : (term.proper? >>= keyable?) = .ok keyed) : keyed = term := by
  cases term with
  | alien => cases ok
  | _ => exact eq_of_keyable?_ok ok

/-! ### Typed terms -/

theorem typeOf?_node (head : String) (lhs rhs : RawTerm) :
    (node head lhs rhs).typeOf? =
      (Question.applicationsOnly head).bind fun _ =>
        rhs.typeOf?.bind fun argType =>
          lhs.typeOf?.bind fun fnType =>
            Question.principalType.node lhs rhs fnType argType := by
  change (Question.applicationsOnly head).bind (fun _ =>
    (rhs.typeOf?.bind fun argType => lhs.typeOf?.bind fun fnType => .ok (fnType, argType)).bind
      fun (fnType, argType) => Question.principalType.node lhs rhs fnType argType) = _
  cases Question.applicationsOnly head with
  | error => rfl
  | ok =>
      cases rhs.typeOf? with
      | error => rfl
      | ok => cases lhs.typeOf? <;> rfl

/-- How a node is typed: its head is looked at first, then its argument is typed, then its function,
and last the equation between their types is solved. -/
theorem typeOf?_node_cases (head : String) (lhs rhs : RawTerm) :
    (head ≠ appHead ∧ (node head lhs rhs).typeOf? = .error .notAnApplication) ∨
      head = appHead ∧
        ((∃ failure, rhs.typeOf? = .error failure ∧
            (node head lhs rhs).typeOf? = .error failure) ∨
          ∃ argType, rhs.typeOf? = .ok argType ∧
            ((∃ failure, lhs.typeOf? = .error failure ∧
                (node head lhs rhs).typeOf? = .error failure) ∨
              ∃ fnType, lhs.typeOf? = .ok fnType ∧
                (node head lhs rhs).typeOf? =
                  (Ty.applied .start fnType argType).mapError fun reason =>
                    .illTyped { fn := lhs, arg := rhs, fnType, argType, reason })) := by
  rw [typeOf?_node, Question.applicationsOnly]
  by_cases headed : head = appHead
  · refine .inr ⟨headed, ?_⟩
    rw [if_pos headed]
    cases rhs.typeOf? with
    | error failure => exact .inl ⟨failure, rfl, rfl⟩
    | ok argType =>
        refine .inr ⟨argType, rfl, ?_⟩
        cases lhs.typeOf? with
        | error failure => exact .inl ⟨failure, rfl, rfl⟩
        | ok fnType =>
            refine .inr ⟨fnType, rfl, ?_⟩
            simp only [Except.bind, Question.principalType]
            cases Ty.applied .start fnType argType <;> rfl
  · exact .inl ⟨headed, by rw [if_neg headed]; rfl⟩

/-- A node has a type only if it is an application and both of its parts have one. -/
theorem typed_node {head : String} {lhs rhs : RawTerm} {type : Ty}
    (typed : (node head lhs rhs).typeOf? = .ok type) :
    head = appHead ∧ ∃ fnType argType, lhs.typeOf? = .ok fnType ∧ rhs.typeOf? = .ok argType ∧
      Ty.applied .start fnType argType = .ok type := by
  rcases typeOf?_node_cases head lhs rhs with
    ⟨-, outcome⟩ | ⟨headed, ⟨failure, -, outcome⟩ | ⟨argType, arg_typed, ⟨failure, -, outcome⟩ |
      ⟨fnType, fn_typed, outcome⟩⟩⟩ <;> rw [outcome] at typed
  · cases typed
  · cases typed
  · cases typed
  · cases applied : Ty.applied .start fnType argType with
    | error reason =>
        rw [applied] at typed
        cases typed
    | ok found =>
        rw [applied] at typed
        obtain rfl := Except.ok.inj typed
        exact ⟨headed, fnType, argType, fn_typed, arg_typed, applied⟩

/-- What has a type can be written. -/
theorem exists_written_of_typed {term : RawTerm} {type : Ty} (typed : term.typeOf? = .ok type) :
    term.Genuine ∧ ∃ text, Question.written.answer term = .ok text := by
  induction term generalizing type with
  | atom name => exact ⟨trivial, name, rfl⟩
  | node head lhs rhs lhs_ih rhs_ih =>
      obtain ⟨rfl, fnType, argType, fn_typed, arg_typed, -⟩ := typed_node typed
      obtain ⟨lhs_genuine, fnText, fn_written⟩ := lhs_ih fn_typed
      obtain ⟨rhs_genuine, argText, arg_written⟩ := rhs_ih arg_typed
      refine ⟨⟨lhs_genuine, rhs_genuine⟩, Term.parenthesize fnText argText, ?_⟩
      rw [Question.answer, fn_written, arg_written]
      rfl
  | alien => cases typed

/-- An application is refused a type only where both of its parts have one. -/
theorem typed_of_illTyped {term : RawTerm} {refusal : IllTyped RawTerm}
    (refused : term.typeOf? = .error (.illTyped refusal)) :
    refusal.fn.typeOf? = .ok refusal.fnType ∧ refusal.arg.typeOf? = .ok refusal.argType := by
  induction term with
  | atom name =>
      simp only [typeOf?, Question.answer, Question.principalType] at refused
      split at refused <;> simp at refused
  | node head lhs rhs lhs_ih rhs_ih =>
      rcases typeOf?_node_cases head lhs rhs with
        ⟨-, outcome⟩ | ⟨-, ⟨failure, arg_refused, outcome⟩ | ⟨argType, arg_typed,
          ⟨failure, fn_refused, outcome⟩ | ⟨fnType, fn_typed, outcome⟩⟩⟩ <;> rw [outcome] at refused
      · cases refused
      · exact rhs_ih (arg_refused.trans refused)
      · exact lhs_ih (fn_refused.trans refused)
      · cases applied : Ty.applied .start fnType argType with
        | ok type =>
            rw [applied] at refused
            cases refused
        | error reason =>
            rw [applied] at refused
            cases refused
            exact ⟨fn_typed, arg_typed⟩
  | alien => cases refused

end RawTerm

/-! ## Plain data of the shape of a term -/

theorem Shape.ofList_injective {left right : List Shape} (same : ofList left = ofList right) :
    left = right := by
  induction left generalizing right with
  | nil => cases right <;> simp_all [ofList]
  | cons first rest ih =>
      cases right with
      | nil => simp [ofList] at same
      | cons other others =>
          simp only [ofList, List.foldr, Shape.cons.injEq] at same
          rw [same.1, ih same.2]

namespace Datum

theorem membersShape_eq (items : List Datum) :
    shape.membersShape items = .ofList (items.map shape) := by
  induction items with
  | nil => rfl
  | cons item items ih => simp [shape.membersShape, Shape.ofList, ih]

/-- Plain data of the shape of a tuple are a tuple, and the shapes of its members are those. -/
theorem exists_tuple_of_shape_eq {value : Datum} {shapes : List Shape}
    (same : value.shape = .ofList shapes) :
    ∃ items, value = tuple items ∧ items.map shape = shapes := by
  cases value with
  | tuple items =>
      rw [shape, membersShape_eq] at same
      exact ⟨items, rfl, Shape.ofList_injective same⟩
  | _ => cases shapes <;> simp [shape, Shape.ofList] at same

theorem unkeyable?_of_shape_eq_text {value : Datum} {text : String}
    (same : value.shape = .text text) : value.unkeyable? = none := by
  cases value with
  | literal => simp [unkeyable?]
  | tuple items => cases items <;> simp [shape, shape.membersShape, Shape.text] at same
  | _ => simp [shape, Shape.text] at same

end Datum

/-- Plain data of the shape of a term are not in the way of a key. -/
theorem RawTerm.Genuine.unkeyable?_of_shape_eq {term : RawTerm} {value : Datum}
    (genuine : term.Genuine) (same : value.shape = term.shape) : value.unkeyable? = none := by
  induction term generalizing value with
  | atom name =>
      obtain ⟨items, rfl, shapes⟩ := Datum.exists_tuple_of_shape_eq same
      obtain ⟨item, rfl, item_shape⟩ := List.map_eq_singleton_iff.mp shapes
      simp [Datum.unkeyable?, Datum.unkeyable?.firstUnkeyable?,
        Datum.unkeyable?_of_shape_eq_text item_shape]
  | node head lhs rhs lhs_ih rhs_ih =>
      obtain ⟨items, rfl, shapes⟩ := Datum.exists_tuple_of_shape_eq same
      obtain ⟨mark, _, rfl, mark_shape, shapes⟩ := List.map_eq_cons_iff.mp shapes
      obtain ⟨fn, _, rfl, fn_shape, shapes⟩ := List.map_eq_cons_iff.mp shapes
      obtain ⟨arg, rfl, arg_shape⟩ := List.map_eq_singleton_iff.mp shapes
      simp [Datum.unkeyable?, Datum.unkeyable?.firstUnkeyable?,
        Datum.unkeyable?_of_shape_eq_text mark_shape, lhs_ih genuine.1 fn_shape,
        rhs_ih genuine.2 arg_shape]
  | alien => exact genuine.elim

end Combinatory
