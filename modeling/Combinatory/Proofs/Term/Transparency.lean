import Combinatory.Proofs.Term.Remembering

/-!
# Answers that do not depend on what was asked before

A registry is asked for types, written forms, sizes and depths in any order, about genuine terms and
about plain data. Genuine terms are answered as if nothing had been asked before, whether or not
there is an answer. Plain data are always refused a type and a written form, because that is decided
before a remembered answer is looked for. Their size and depth are refused too, unless they have the
shape of a part of a term that was asked about: then they are taken for that part.

A term with plain data among its parts is neither. It may have the shape of a genuine term, so what
was asked before may change all four answers about it, and the parts of it that are answered before
it is refused are remembered.
-/

namespace Combinatory
namespace Registry

open RawTerm (Failure)

/-! ## Inquiries -/

/-- What a registry is asked about terms. -/
inductive Inquiry where
  /-- The principal type. -/
  | type
  /-- The written form. -/
  | text
  /-- The number of atoms. -/
  | size
  /-- The number of nodes around the most deeply nested atom. -/
  | depth
  deriving DecidableEq

namespace Inquiry

/-- What is answered. -/
abbrev Answer : Inquiry → Type
  | type => Ty
  | text => String
  | size => Nat
  | depth => Nat

/-- Ask a registry. -/
def ask : (inquiry : Inquiry) → RawTerm → Access inquiry.Answer
  | type => typeOf
  | text => render
  | size => Registry.size
  | depth => Registry.depth

/-- The answer where nothing is remembered. -/
def answer? : (inquiry : Inquiry) → RawTerm → Except Failure inquiry.Answer
  | type, term => term.typeOf?
  | text, term => term.render?
  | size, term => do (← term.keyable?).size?
  | depth, term => do (← term.keyable?).depth?

/-- Are plain data refused before a remembered answer is looked for? -/
def guarded : Inquiry → Bool
  | type => true
  | text => true
  | size => false
  | depth => false

/-- The question that is answered part by part. -/
def question : (inquiry : Inquiry) → Question inquiry.Answer
  | type => .principalType
  | text => .written
  | size => .atomCount
  | depth => .nesting

/-- Where the answers are kept. -/
def slot : (inquiry : Inquiry) → Memo.Slot Registry Shape inquiry.Answer
  | type => typeSlot
  | text => textSlot
  | size => sizeSlot
  | depth => depthSlot

theorem lawful_slot (inquiry : Inquiry) : inquiry.slot.Lawful := by
  cases inquiry <;> exact ⟨fun _ _ => rfl, fun _ _ _ => rfl, fun _ => rfl⟩

theorem uniform_question (inquiry : Inquiry) : Uniform inquiry.question := by
  intro fn arg otherFn otherArg fnAnswer argAnswer result answered
  cases inquiry with
  | type =>
      simp only [question, Question.principalType] at answered ⊢
      split at answered
      · exact answered
      · cases answered
  | _ => exact answered

/-- A term is answered part by part. -/
theorem answer?_eq (inquiry : Inquiry) {term : RawTerm} (genuine : term.Genuine) :
    inquiry.answer? term = inquiry.question.answer term := by
  cases inquiry with
  | type => rfl
  | text =>
      rw [answer?, RawTerm.render?, genuine.proper?]
      rfl
  | _ =>
      rw [answer?, genuine.keyable?]
      rfl

/-- The answers to other inquiries are kept elsewhere. -/
theorem read_write_of_ne {inquiry other : Inquiry} (ne : other ≠ inquiry)
    (table : Std.HashMap Shape inquiry.Answer) (registry : Registry) :
    other.slot.read (inquiry.slot.write table registry) = other.slot.read registry := by
  cases inquiry <;> cases other <;> first | rfl | exact (ne rfl).elim

end Inquiry

/-! ## Whole registries -/

/-- Every answer that is remembered is right, whatever it answers. -/
def Transparent (asked : Inquiry → Shape → Prop) (registry : Registry) : Prop :=
  ∀ inquiry : Inquiry, Right inquiry.question (asked inquiry) (inquiry.slot.read registry)

/-- What asking a registry comes to: with what outcome, and in what state it was and is left. -/
structure Answered (asked : Inquiry → Shape → Prop) (inquiry : Inquiry) (term : RawTerm)
    (before : Registry) (run : Except Failure inquiry.Answer × Registry) : Prop where
  /-- Right answers are remembered. -/
  transparent : run.2.Transparent asked
  /-- Nothing is forgotten. -/
  grows : ∀ (other : Inquiry) shape, shape ∈ other.slot.read before →
    shape ∈ other.slot.read run.2
  /-- A term gets its own answer. -/
  exact : term.Genuine → run.1 = inquiry.answer? term
  /-- The answer for a term is remembered, and so are those for its parts. -/
  remembered : term.Genuine → ∀ result, run.1 = .ok result →
    ∀ part ∈ term.parts, part.shape ∈ inquiry.slot.read run.2

section Whole

variable {asked : Inquiry → Shape → Prop} {registry : Registry} {inquiry : Inquiry} {term : RawTerm}

theorem Transparent.write (transparent : registry.Transparent asked)
    {table : Std.HashMap Shape inquiry.Answer}
    (right : Right inquiry.question (asked inquiry) table) :
    (inquiry.slot.write table registry).Transparent asked := by
  intro other
  by_cases same : other = inquiry
  · subst same
    rw [other.lawful_slot.read_write]
    exact right
  · rw [Inquiry.read_write_of_ne same]
    exact transparent other

/-- Asking the question of an inquiry, part by part. -/
theorem Transparent.ask (transparent : registry.Transparent asked)
    (parts_asked : ∀ part ∈ term.parts, asked inquiry part.shape) :
    ∃ outcome table,
      (Registry.ask inquiry.slot inquiry.question term).outcome registry =
          (outcome, inquiry.slot.write table registry) ∧
        Settles inquiry.question (asked inquiry) (inquiry.slot.read registry) table term outcome ∧
        (inquiry.slot.write table registry).Transparent asked ∧
        ∀ (other : Inquiry) shape, shape ∈ other.slot.read registry →
          shape ∈ other.slot.read (inquiry.slot.write table registry) := by
  obtain ⟨outcome, table, ran, settles⟩ :=
    asks_ask inquiry.lawful_slot inquiry.uniform_question term parts_asked registry
      (transparent inquiry)
  refine ⟨outcome, table, ran, settles, transparent.write settles.right, ?_⟩
  intro other shape known
  by_cases same : other = inquiry
  · subst same
    rw [other.lawful_slot.read_write]
    exact settles.grows shape known
  · rw [Inquiry.read_write_of_ne same]
    exact known

/-- What is refused before anything is asked leaves everything as it was. -/
theorem Transparent.refused (transparent : registry.Transparent asked) {failure : Failure}
    (exact : term.Genuine → Except.error failure = inquiry.answer? term) :
    Answered asked inquiry term registry (.error failure, registry) where
  transparent := transparent
  grows _ _ := id
  exact := exact
  remembered := by
    rintro _ _ ⟨⟩

theorem outcome_keyable (term : RawTerm) (before : Registry) :
    (keyable term).outcome before = (term.keyable?, before) :=
  ExceptT.outcome_ofExcept _ _

theorem outcome_operand (term : RawTerm) (before : Registry) :
    (operand term).outcome before = (term.proper? >>= RawTerm.keyable?, before) := by
  rw [operand, ExceptT.outcome_bind, ExceptT.outcome_ofExcept]
  cases term.proper? with
  | error => rfl
  | ok proper => exact outcome_keyable proper before

/-- What is asked part by part once the term has passed a check. -/
theorem Transparent.answered_ask (transparent : registry.Transparent asked)
    (parts_asked : ∀ part ∈ term.parts, asked inquiry part.shape) {gate : Access RawTerm}
    {checked : Except Failure RawTerm} (gated : gate.outcome registry = (checked, registry))
    (unchanged : ∀ passed, checked = .ok passed → passed = term)
    (passes : term.Genuine → checked = .ok term) :
    Answered asked inquiry term registry
      ((gate >>= Registry.ask inquiry.slot inquiry.question).outcome registry) := by
  rw [ExceptT.outcome_bind, gated]
  cases checked with
  | error failure =>
      refine transparent.refused fun genuine => ?_
      cases passes genuine
  | ok passed =>
      obtain rfl := unchanged passed rfl
      obtain ⟨outcome, table, ran, settles, after_transparent, grows⟩ :=
        transparent.ask parts_asked
      simp only [ran]
      refine ⟨after_transparent, grows, ?_, ?_⟩
      · exact fun genuine => (settles.exact genuine).trans (inquiry.answer?_eq genuine).symm
      · intro genuine result returned part mem
        rw [inquiry.lawful_slot.read_write]
        exact ((settles.backed result returned).answer_eq genuine).2 part mem

theorem Transparent.answered_text (transparent : registry.Transparent asked)
    (parts_asked : ∀ part ∈ term.parts, asked .text part.shape) :
    Answered asked .text term registry ((render term).outcome registry) := by
  refine transparent.answered_ask parts_asked (outcome_operand term registry)
    (fun _ => RawTerm.eq_of_operand_ok) fun genuine => ?_
  rw [genuine.proper?]
  exact genuine.keyable?

theorem Transparent.answered_size (transparent : registry.Transparent asked)
    (parts_asked : ∀ part ∈ term.parts, asked .size part.shape) :
    Answered asked .size term registry ((size term).outcome registry) :=
  transparent.answered_ask parts_asked (outcome_keyable term registry)
    (fun _ => RawTerm.eq_of_keyable?_ok) fun genuine => genuine.keyable?

theorem Transparent.answered_depth (transparent : registry.Transparent asked)
    (parts_asked : ∀ part ∈ term.parts, asked .depth part.shape) :
    Answered asked .depth term registry ((depth term).outcome registry) :=
  transparent.answered_ask parts_asked (outcome_keyable term registry)
    (fun _ => RawTerm.eq_of_keyable?_ok) fun genuine => genuine.keyable?

/-- An application that has no type is refused for that reason: both of its parts can be written. -/
theorem Transparent.refuse (transparent : registry.Transparent asked)
    (texts_asked : ∀ shape, asked .text shape) (refusal : IllTyped RawTerm) :
    ∃ failure after, (Registry.refuse refusal : Access Ty).Fails registry failure after ∧
      after.Transparent asked ∧
      (∀ (other : Inquiry) shape, shape ∈ other.slot.read registry →
        shape ∈ other.slot.read after) ∧
      (refusal.fn.typeOf? = .ok refusal.fnType → refusal.arg.typeOf? = .ok refusal.argType →
        failure = .illTyped refusal) := by
  have written {part : RawTerm} {type : Ty} {before : Registry}
      (answered : Answered asked .text part before ((render part).outcome before))
      (typed : part.typeOf? = .ok type) :
      ∃ text, ((render part).outcome before).1 = .ok text := by
    obtain ⟨genuine, text, written⟩ := RawTerm.exists_written_of_typed typed
    exact ⟨text, (answered.exact genuine).trans ((Inquiry.text.answer?_eq genuine).trans written)⟩
  have fn_answered : Answered asked .text refusal.fn registry _ :=
    transparent.answered_text fun _ _ => texts_asked _
  rcases fn_ran : (render refusal.fn).outcome registry with ⟨failure | fnText, middle⟩
  · rw [fn_ran] at fn_answered
    refine ⟨failure, middle, ?_, fn_answered.transparent, fn_answered.grows, ?_⟩
    · exact ExceptT.Fails.bind fn_ran _
    · intro fn_typed _
      obtain ⟨text, fn_written⟩ := written (fn_ran ▸ fn_answered) fn_typed
      rw [fn_ran] at fn_written
      cases fn_written
  · rw [fn_ran] at fn_answered
    have arg_answered : Answered asked .text refusal.arg middle _ :=
      fn_answered.transparent.answered_text fun _ _ => texts_asked _
    rcases arg_ran : (render refusal.arg).outcome middle with ⟨failure | argText, after⟩
    · rw [arg_ran] at arg_answered
      refine ⟨failure, after, ?_, arg_answered.transparent, fun other shape known =>
        arg_answered.grows other shape (fn_answered.grows other shape known), ?_⟩
      · exact ExceptT.Returns.bind_fails fn_ran (ExceptT.Fails.bind arg_ran _)
      · intro _ arg_typed
        obtain ⟨text, arg_written⟩ := written (arg_ran ▸ arg_answered) arg_typed
        rw [arg_ran] at arg_written
        cases arg_written
    · rw [arg_ran] at arg_answered
      refine ⟨.illTyped refusal, after, ?_, arg_answered.transparent, fun other shape known =>
        arg_answered.grows other shape (fn_answered.grows other shape known), fun _ _ => rfl⟩
      exact ExceptT.Returns.bind_fails fn_ran (ExceptT.Returns.bind_fails arg_ran rfl)

theorem Transparent.answered_type (transparent : registry.Transparent asked)
    (parts_asked : ∀ part ∈ term.parts, asked .type part.shape)
    (texts_asked : ∀ shape, asked .text shape) :
    Answered asked .type term registry ((typeOf term).outcome registry) := by
  rw [typeOf, ExceptT.outcome_bind, outcome_operand]
  cases checked : term.proper? >>= RawTerm.keyable? with
  | error failure =>
      refine transparent.refused fun genuine => ?_
      rw [genuine.proper?] at checked
      cases checked.symm.trans genuine.keyable?
  | ok passed =>
      obtain rfl := RawTerm.eq_of_operand_ok checked
      obtain ⟨outcome, table, ran, settles, after_transparent, grows⟩ :=
        transparent.ask parts_asked
      have asked_ran : (Registry.ask typeSlot .principalType passed).outcome registry = _ := ran
      simp only [ExceptT.outcome_tryCatch, asked_ran]
      cases outcome with
      | ok type =>
          refine ⟨after_transparent, grows, settles.exact, ?_⟩
          intro genuine result returned part mem
          exact ((settles.backed result returned).answer_eq genuine).2 part mem
      | error failure =>
          cases failure with
          | illTyped refusal =>
              obtain ⟨failure, after, refused, refused_transparent, refused_grows, reason⟩ :=
                after_transparent.refuse texts_asked refusal
              simp only [show (Registry.refuse refusal : Access Ty).outcome _ = _ from refused]
              refine ⟨refused_transparent, fun other shape known =>
                refused_grows other shape (grows other shape known), ?_, ?_⟩
              · intro genuine
                have illTyped : passed.typeOf? = .error (.illTyped refusal) :=
                  (settles.exact genuine).symm
                obtain ⟨fn_typed, arg_typed⟩ := RawTerm.typed_of_illTyped illTyped
                exact (congrArg Except.error (reason fn_typed arg_typed)).trans illTyped.symm
              · rintro _ _ ⟨⟩
          | _ =>
              refine ⟨after_transparent, grows, settles.exact, ?_⟩
              rintro _ _ ⟨⟩

/-- Whatever is asked about whatever raw term, right answers are remembered, and a term gets its
own. -/
theorem Transparent.answered (transparent : registry.Transparent asked)
    (parts_asked : ∀ part ∈ term.parts, asked inquiry part.shape)
    (texts_asked : ∀ shape, asked .text shape) :
    Answered asked inquiry term registry ((inquiry.ask term).outcome registry) := by
  cases inquiry with
  | type => exact transparent.answered_type parts_asked texts_asked
  | text => exact transparent.answered_text parts_asked
  | size => exact transparent.answered_size parts_asked
  | depth => exact transparent.answered_depth parts_asked

/-! ## The first registry -/

theorem Transparent.of_eq {after : Registry} (transparent : registry.Transparent asked)
    (same : ∀ inquiry : Inquiry, inquiry.slot.read after = inquiry.slot.read registry) :
    after.Transparent asked := by
  intro inquiry
  rw [same inquiry]
  exact transparent inquiry

theorem transparent_empty : empty.Transparent asked := by
  intro inquiry shape result found
  have nothing : inquiry.slot.read empty = ∅ := by cases inquiry <;> rfl
  simp [nothing] at found

theorem ensures_register_transparent (term : RawTerm) :
    ExceptT.Ensures (Transparent asked) (register term) fun _ => True := by
  intro before transparent
  refine ⟨?_, fun _ _ => trivial⟩
  simp only [register, ExceptT.outcome_bind, ExceptT.outcome_get]
  cases before.objects[term.shape]? with
  | some object => exact transparent
  | none => exact transparent.of_eq fun inquiry => by cases inquiry <;> rfl

/-- Building asks for types only. -/
theorem ensures_build_transparent (types_asked : ∀ shape, asked .type shape)
    (texts_asked : ∀ shape, asked .text shape) (term : Term) :
    ExceptT.Ensures (Transparent asked) (build term) fun _ => True := by
  have typed (application : RawTerm) :
      ExceptT.Ensures (Transparent asked) (typeOf application) fun _ => True :=
    fun _ transparent => ⟨(transparent.answered_type (fun _ _ => types_asked _)
      texts_asked).transparent, fun _ _ => trivial⟩
  induction term with
  | app fn arg fn_ih arg_ih =>
      refine fn_ih.bind fun lhs _ => arg_ih.bind fun rhs _ => ?_
      refine (ExceptT.ensures_ofExcept fun _ _ => trivial).bind fun fnTerm (_ : True) => ?_
      refine (ExceptT.ensures_ofExcept fun _ _ => trivial).bind fun argTerm (_ : True) => ?_
      refine (typed _).bind fun _ _ => ?_
      refine (ExceptT.ensures_ofExcept fun _ _ => trivial).bind fun node (_ : True) => ?_
      exact ensures_register_transparent node
  | _ => exact ensures_register_transparent _

/-- At first only types and written forms are remembered. -/
theorem transparent_initial (types_asked : ∀ shape, asked .type shape)
    (texts_asked : ∀ shape, asked .text shape) : initial.Transparent asked :=
  initial_of_build transparent_empty (ensures_build_transparent types_asked texts_asked)

end Whole

/-! ## Calls one after another -/

/-- A call of one of the functions on something. -/
structure Call where
  /-- What is asked. -/
  inquiry : Inquiry
  /-- What it is asked about. -/
  term : RawTerm

namespace Call

/-- Is the call about a term, or else about plain data? -/
def Admissible (call : Call) : Prop :=
  call.term.Genuine ∨ ∃ value, call.term = .alien value

/-- The registry after a call. -/
def after (registry : Registry) (call : Call) : Registry :=
  ((call.inquiry.ask call.term).outcome registry).2

end Call

/-- The first registry after calls one after another. -/
def afterCalls (history : List Call) : Registry :=
  history.foldl Call.after initial

/-- What is answered after calls. -/
def answerAfter (history : List Call) (inquiry : Inquiry) (term : RawTerm) :
    Except Failure inquiry.Answer :=
  ((inquiry.ask term).outcome (afterCalls history)).1

/-- The parts of what an inquiry was made about. -/
def partsAsked (inquiry : Inquiry) (history : List Call) : List RawTerm :=
  (history.filter fun call => call.inquiry = inquiry).flatMap fun call => call.term.parts

/-- What the registry may have been asked about: anything by the orders it was made with, and the
parts of what it was called with. -/
def AskedIn (history : List Call) (inquiry : Inquiry) (shape : Shape) : Prop :=
  inquiry.guarded = true ∨ ∃ part ∈ partsAsked inquiry history, part.shape = shape

theorem afterCalls_append (history : List Call) (call : Call) :
    afterCalls (history ++ [call]) = call.after (afterCalls history) := by
  simp [afterCalls]

theorem mem_partsAsked {inquiry : Inquiry} {history : List Call} {part : RawTerm} :
    part ∈ partsAsked inquiry history ↔
      ∃ call ∈ history, call.inquiry = inquiry ∧ part ∈ call.term.parts := by
  simp [partsAsked, and_assoc]

theorem AskedIn.append {history : List Call} {inquiry : Inquiry} {shape : Shape}
    (asked : AskedIn history inquiry shape) (call : Call) :
    AskedIn (history ++ [call]) inquiry shape := by
  refine asked.imp_right ?_
  rintro ⟨part, mem, same⟩
  obtain ⟨earlier, earlier_mem, rest⟩ := mem_partsAsked.mp mem
  exact ⟨part, mem_partsAsked.mpr ⟨earlier, List.mem_append_left _ earlier_mem, rest⟩, same⟩

/-- A further call is answered from what the calls before it left. -/
theorem Transparent.answered_call {history : List Call}
    (transparent : (afterCalls history).Transparent (AskedIn history)) (call : Call) :
    Answered (AskedIn (history ++ [call])) call.inquiry call.term (afterCalls history)
      ((call.inquiry.ask call.term).outcome (afterCalls history)) := by
  have further : (afterCalls history).Transparent (AskedIn (history ++ [call])) := by
    intro inquiry shape result found
    obtain ⟨asked, backed⟩ := transparent inquiry shape result found
    exact ⟨asked.append call, backed⟩
  refine further.answered (fun part mem => .inr ⟨part, ?_, rfl⟩) fun _ => .inl rfl
  exact mem_partsAsked.mpr ⟨call, by simp, rfl, mem⟩

/-- After any calls right answers are remembered, under shapes that were asked about. -/
theorem transparent_afterCalls (history : List Call) :
    (afterCalls history).Transparent (AskedIn history) := by
  induction history using List.reverseRecOn with
  | nil => exact transparent_initial (fun _ => .inl rfl) fun _ => .inl rfl
  | append_singleton history call ih =>
      rw [afterCalls_append]
      exact (ih.answered_call call).transparent

/-- A term gets its own answer after any calls. -/
theorem answerAfter_genuine (history : List Call) (inquiry : Inquiry) {term : RawTerm}
    (genuine : term.Genuine) : answerAfter history inquiry term = inquiry.answer? term :=
  ((transparent_afterCalls history).answered_call ⟨inquiry, term⟩).exact genuine

/-- A question that is answered for all atoms and nodes is answered for all terms. -/
theorem exists_answer {α : Type} {question : Question α}
    (atom : ∀ name, ∃ result, question.atom name = .ok result)
    (head : ∀ mark, question.head mark = .ok ())
    (node : ∀ lhs rhs fn arg, ∃ result, question.node lhs rhs fn arg = .ok result)
    {term : RawTerm} (genuine : term.Genuine) : ∃ result, question.answer term = .ok result := by
  induction term with
  | atom name => exact atom name
  | node mark lhs rhs lhs_ih rhs_ih =>
      obtain ⟨fn, fn_answered⟩ := lhs_ih genuine.1
      obtain ⟨arg, arg_answered⟩ := rhs_ih genuine.2
      obtain ⟨result, answered⟩ := node lhs rhs fn arg
      refine ⟨result, ?_⟩
      rw [Question.answer, head, fn_answered, arg_answered, Question.both]
      split <;> exact answered
  | alien => exact genuine.elim

/-- Sizes and depths are never refused to terms. -/
theorem exists_answer_of_unguarded {inquiry : Inquiry} (unguarded : inquiry.guarded = false)
    {term : RawTerm} (genuine : term.Genuine) : ∃ result, inquiry.answer? term = .ok result := by
  rw [inquiry.answer?_eq genuine]
  cases inquiry with
  | size => exact exists_answer (fun _ => ⟨1, rfl⟩) (fun _ => rfl) (fun _ _ _ _ => ⟨_, rfl⟩) genuine
  | depth =>
      exact exists_answer (fun _ => ⟨0, rfl⟩) (fun _ => rfl) (fun _ _ _ _ => ⟨_, rfl⟩) genuine
  | _ => cases unguarded

/-- What was asked about with success is remembered, part by part. -/
theorem mem_read_afterCalls {history : List Call} {call : Call} (mem : call ∈ history)
    (unguarded : call.inquiry.guarded = false) (genuine : call.term.Genuine) {part : RawTerm}
    (part_mem : part ∈ call.term.parts) :
    part.shape ∈ call.inquiry.slot.read (afterCalls history) := by
  induction history using List.reverseRecOn with
  | nil => cases mem
  | append_singleton history last ih =>
      have answered := (transparent_afterCalls history).answered_call last
      rw [afterCalls_append]
      rcases List.mem_append.mp mem with earlier | now
      · exact answered.grows call.inquiry part.shape (ih earlier)
      · obtain rfl := List.mem_singleton.mp now
        obtain ⟨result, answer⟩ := exists_answer_of_unguarded unguarded genuine
        exact answered.remembered genuine result ((answered.exact genuine).trans answer) part
          part_mem

/-! ### Plain data -/

/-- Plain data are refused a type and a written form before anything is looked up. -/
theorem outcome_ask_guarded {inquiry : Inquiry} (guarded : inquiry.guarded = true) (value : Datum)
    (registry : Registry) :
    (inquiry.ask (.alien value)).outcome registry = (.error (.expectedTerm value), registry) := by
  cases inquiry with
  | type => rfl
  | text => rfl
  | _ => cases guarded

/-- Plain data are looked up for their size or depth, and refused it if that fails. -/
theorem outcome_ask_unguarded {inquiry : Inquiry} (unguarded : inquiry.guarded = false)
    (value : Datum) (registry : Registry) :
    (inquiry.ask (.alien value)).outcome registry =
      match value.unkeyable? with
      | some reason => (.error (.notAKey reason), registry)
      | none =>
          match (inquiry.slot.read registry)[value.shape]? with
          | some result => (.ok result, registry)
          | none => (.error (.notATerm value), registry) := by
  have gated : inquiry.ask (.alien value) =
      keyable (.alien value) >>= Registry.ask inquiry.slot inquiry.question := by
    cases inquiry with
    | size => rfl
    | depth => rfl
    | _ => cases unguarded
  have looked_up : Registry.ask inquiry.slot inquiry.question (.alien value) =
      Memo.remember inquiry.slot value.shape (throw (.notATerm value)) := by
    cases inquiry with
    | size => rfl
    | depth => rfl
    | _ => cases unguarded
  rw [gated, ExceptT.outcome_bind, outcome_keyable, RawTerm.keyable?, RawTerm.unkeyable?]
  cases value.unkeyable? with
  | some reason => rfl
  | none =>
      change (Registry.ask inquiry.slot inquiry.question (.alien value)).outcome registry = _
      rw [looked_up, outcome_remember]
      cases (inquiry.slot.read registry)[value.shape]? <;> rfl

/-- Nothing is remembered of the size or depth of what was not asked about. -/
theorem read_afterCalls_eq_none {history : List Call} {inquiry : Inquiry} {shape : Shape}
    (unguarded : inquiry.guarded = false)
    (other_shapes : ∀ part ∈ partsAsked inquiry history, part.shape ≠ shape) :
    (inquiry.slot.read (afterCalls history))[shape]? = none := by
  cases found : (inquiry.slot.read (afterCalls history))[shape]? with
  | none => rfl
  | some result =>
      rcases (transparent_afterCalls history inquiry shape result found).1 with
        always | ⟨part, mem, same⟩
      · rw [unguarded] at always
        cases always
      · exact absurd same (other_shapes part mem)

/-- Plain data of another shape than all parts that were asked about are refused. -/
theorem answerAfter_alien {history : List Call} {inquiry : Inquiry} {value : Datum}
    (told_apart : inquiry.guarded = true ∨
      ∀ part ∈ partsAsked inquiry history, part.shape ≠ value.shape) :
    answerAfter history inquiry (.alien value) = answerAfter [] inquiry (.alien value) ∧
      ∃ failure, answerAfter history inquiry (.alien value) = .error failure := by
  cases guarded : inquiry.guarded with
  | true =>
      simp only [answerAfter, outcome_ask_guarded guarded]
      exact ⟨trivial, _, rfl⟩
  | false =>
      have other_shapes : ∀ part ∈ partsAsked inquiry history, part.shape ≠ value.shape := by
        rcases told_apart with always | other_shapes
        · rw [guarded] at always
          cases always
        · exact other_shapes
      have nothing_at_first :
          (inquiry.slot.read (afterCalls []))[value.shape]? = none :=
        read_afterCalls_eq_none guarded fun part mem => by cases mem
      simp only [answerAfter, outcome_ask_unguarded guarded,
        read_afterCalls_eq_none guarded other_shapes, nothing_at_first]
      cases value.unkeyable? with
      | some reason => exact ⟨rfl, _, rfl⟩
      | none => exact ⟨rfl, _, rfl⟩

/-- Plain data of the shape of a part of a term that was asked for its size or depth are taken for
that part. -/
theorem answerAfter_alien_of_shape_eq {history : List Call} {call : Call} {part : RawTerm}
    {value : Datum} (mem : call ∈ history) (unguarded : call.inquiry.guarded = false)
    (genuine : call.term.Genuine) (part_mem : part ∈ call.term.parts)
    (same : part.shape = value.shape) :
    answerAfter history call.inquiry (.alien value) = call.inquiry.answer? part := by
  have part_genuine := genuine.of_mem_parts part_mem
  have known := mem_read_afterCalls mem unguarded genuine part_mem
  rw [same] at known
  obtain ⟨result, found⟩ :
      ∃ result, (call.inquiry.slot.read (afterCalls history))[value.shape]? = some result :=
    ⟨_, Std.HashMap.getElem?_eq_some_getElem known⟩
  have backed := (transparent_afterCalls history call.inquiry value.shape result found).2
  rw [← same] at backed
  rw [answerAfter, outcome_ask_unguarded unguarded, part_genuine.unkeyable?_of_shape_eq same.symm]
  simp only [found]
  rw [call.inquiry.answer?_eq part_genuine]
  exact (backed.answer_eq part_genuine).1.symm

/-! ### Calls that fail -/

theorem partsAsked_append (inquiry : Inquiry) (history further : List Call) :
    partsAsked inquiry (history ++ further) =
      partsAsked inquiry history ++ partsAsked inquiry further := by
  simp [partsAsked]

/-- A call that fails asks about no part of anything whose size or depth is kept. -/
theorem partsAsked_of_fails {history : List Call} {failed : Call} {failure : Failure}
    (fails : answerAfter history failed.inquiry failed.term = .error failure)
    (admissible : failed.Admissible) {inquiry : Inquiry} (unguarded : inquiry.guarded = false) :
    partsAsked inquiry [failed] = [] := by
  rcases admissible with genuine | ⟨value, alien⟩
  · have other : failed.inquiry ≠ inquiry := by
      rintro rfl
      obtain ⟨result, answered⟩ := exists_answer_of_unguarded unguarded genuine
      rw [answerAfter_genuine history failed.inquiry genuine, answered] at fails
      cases fails
    simp [partsAsked, other]
  · simp only [partsAsked, List.filter_cons, List.filter_nil]
    split
    · simp [alien, RawTerm.parts]
    · rfl

/-- Which parts were asked about decides how plain data are answered. -/
theorem answerAfter_alien_congr {left right : List Call} {inquiry : Inquiry} (value : Datum)
    (left_admissible : ∀ call ∈ left, call.Admissible)
    (right_admissible : ∀ call ∈ right, call.Admissible)
    (same : inquiry.guarded = false → partsAsked inquiry left = partsAsked inquiry right) :
    answerAfter left inquiry (.alien value) = answerAfter right inquiry (.alien value) := by
  have taken {history : List Call} {part : RawTerm} (unguarded : inquiry.guarded = false)
      (all_admissible : ∀ call ∈ history, call.Admissible)
      (mem : part ∈ partsAsked inquiry history) (same_shape : part.shape = value.shape) :
      answerAfter history inquiry (.alien value) = inquiry.answer? part := by
    obtain ⟨call, call_mem, rfl, part_mem⟩ := mem_partsAsked.mp mem
    rcases all_admissible call call_mem with genuine | ⟨other, alien⟩
    · exact answerAfter_alien_of_shape_eq call_mem unguarded genuine part_mem same_shape
    · rw [alien] at part_mem
      cases part_mem
  cases guarded : inquiry.guarded with
  | true =>
      exact (answerAfter_alien (.inl guarded)).1.trans (answerAfter_alien (.inl guarded)).1.symm
  | false =>
      have parts_eq := same guarded
      by_cases shared : ∃ part ∈ partsAsked inquiry left, part.shape = value.shape
      · obtain ⟨part, mem, same_shape⟩ := shared
        rw [taken guarded left_admissible mem same_shape,
          taken guarded right_admissible (parts_eq ▸ mem) same_shape]
      · have other_shapes : ∀ part ∈ partsAsked inquiry left, part.shape ≠ value.shape :=
          fun part mem same_shape => shared ⟨part, mem, same_shape⟩
        have right_other_shapes : ∀ part ∈ partsAsked inquiry right, part.shape ≠ value.shape := by
          rw [← parts_eq]
          exact other_shapes
        exact (answerAfter_alien (.inr other_shapes)).1.trans
          (answerAfter_alien (.inr right_other_shapes)).1.symm

/-- Whatever was asked before, a genuine term is answered as it is at first, and that answer is its
own. Plain data are refused as they are at first, except that the size and the depth of plain data
of the shape of a part that has been asked for it are those of the part. Where genuine terms and
plain data are all that is asked about, no answer changes if a call that fails is left out. Nothing
is said about the answers for a term with plain data among its parts: all four depend on what was
asked before, and a call that fails on such a term may change later answers. -/
theorem answers_do_not_depend_on_history (history : List Call) (inquiry : Inquiry) :
    (∀ term : RawTerm, term.Genuine →
      answerAfter history inquiry term = answerAfter [] inquiry term ∧
        answerAfter history inquiry term = inquiry.answer? term) ∧
    (∀ value : Datum,
      (inquiry.guarded = true ∨ ∀ part ∈ partsAsked inquiry history, part.shape ≠ value.shape) →
        answerAfter history inquiry (.alien value) = answerAfter [] inquiry (.alien value) ∧
          ∃ failure, answerAfter history inquiry (.alien value) = .error failure) ∧
    (∀ (value : Datum), inquiry.guarded = false → ∀ call ∈ history, call.inquiry = inquiry →
      call.term.Genuine → ∀ part ∈ call.term.parts, part.shape = value.shape →
        answerAfter history inquiry (.alien value) = inquiry.answer? part) ∧
    (∀ (failed : Call) (later : List Call) (failure : Failure) (call : Call),
      answerAfter history failed.inquiry failed.term = .error failure →
        (∀ other ∈ history ++ failed :: later, other.Admissible) → call.Admissible →
          answerAfter (history ++ failed :: later) call.inquiry call.term =
            answerAfter (history ++ later) call.inquiry call.term) := by
  refine ⟨?terms, fun value => answerAfter_alien, ?taken, ?failed⟩
  case terms =>
    intro term genuine
    rw [answerAfter_genuine history inquiry genuine, answerAfter_genuine [] inquiry genuine]
    exact ⟨rfl, rfl⟩
  case taken =>
    rintro value unguarded call mem rfl genuine part part_mem same
    exact answerAfter_alien_of_shape_eq mem unguarded genuine part_mem same
  case failed =>
    intro failed later failure call fails all_admissible admissible
    rcases admissible with genuine | ⟨value, alien⟩
    · rw [answerAfter_genuine _ _ genuine, answerAfter_genuine _ _ genuine]
    · have failed_admissible : failed.Admissible := all_admissible failed (by simp)
      have rest_admissible : ∀ other ∈ history ++ later, other.Admissible := by
        intro other mem
        refine all_admissible other ?_
        rcases List.mem_append.mp mem with before | after
        · exact List.mem_append_left _ before
        · exact List.mem_append_right _ (List.mem_cons_of_mem _ after)
      rw [alien]
      refine answerAfter_alien_congr value all_admissible rest_admissible fun unguarded => ?_
      rw [List.append_cons, partsAsked_append, partsAsked_append, partsAsked_append,
        partsAsked_of_fails fails failed_admissible unguarded, List.append_nil]

/-- The size of an application is asked for, and plain data are refused a type. After that the
application and plain data are answered as at first, except that plain data of the shape of a part
of the application have the size of that part. -/
theorem answers_after_size_and_refusal :
    let application : RawTerm := .node RawTerm.appHead (.atom "K") (.atom "I")
    let equal : Datum := .tuple [.literal (.text "K")]
    let other : Datum := .tuple [.literal (.text "S")]
    let history : List Call := [⟨.size, application⟩, ⟨.type, .alien equal⟩]
    answerAfter history .type application = answerAfter [] .type application ∧
      (∃ failure, answerAfter history .type (.alien equal) = .error failure) ∧
      (∃ failure, answerAfter history .size (.alien other) = .error failure) ∧
      answerAfter history .size (.alien equal) = .ok 1 ∧
      answerAfter history .size (.alien equal) =
        answerAfter [⟨.size, application⟩] .size (.alien equal) := by
  intro application equal other history
  have genuine : application.Genuine := ⟨trivial, trivial⟩
  refine ⟨?_, ?_, ?_, ?_, ?_⟩
  · exact ((answers_do_not_depend_on_history history .type).1 application genuine).1
  · exact ((answers_do_not_depend_on_history history .type).2.1 equal (.inl rfl)).2
  · refine ((answers_do_not_depend_on_history history .size).2.1 other (.inr ?_)).2
    decide
  · exact (answers_do_not_depend_on_history history .size).2.2.1 equal rfl ⟨.size, application⟩
      (by simp [history]) rfl genuine (.atom "K") (by simp [application, RawTerm.parts]) rfl
  · obtain ⟨failure, fails⟩ :=
      ((answers_do_not_depend_on_history [⟨.size, application⟩] .type).2.1 equal (.inl rfl)).2
    refine (answers_do_not_depend_on_history [⟨.size, application⟩] .size).2.2.2
      ⟨.type, .alien equal⟩ [] failure ⟨.size, .alien equal⟩ fails ?_ (.inr ⟨equal, rfl⟩)
    intro call mem
    rcases List.mem_cons.mp mem with rfl | mem
    · exact .inl genuine
    · obtain rfl := List.mem_singleton.mp mem
      exact .inr ⟨equal, rfl⟩

/-- The size of plain data equal to an atom is refused at first, and answered with that of the atom
once the atom has been asked for it. The depth is no different. -/
theorem answers_for_plain_data_depend_on_history :
    let equal : Datum := .tuple [.literal (.text "K")]
    (answerAfter [] .size (.alien equal) = .error (.notATerm equal) ∧
      answerAfter [⟨.size, .atom "K"⟩] .size (.alien equal) = .ok 1) ∧
    (answerAfter [] .depth (.alien equal) = .error (.notATerm equal) ∧
      answerAfter [⟨.depth, .atom "K"⟩] .depth (.alien equal) = .ok 0) := by
  intro equal
  have at_first {inquiry : Inquiry} (unguarded : inquiry.guarded = false) :
      answerAfter [] inquiry (.alien equal) = .error (.notATerm equal) := by
    have keyable : equal.unkeyable? = none := by rfl
    rw [answerAfter, outcome_ask_unguarded unguarded, keyable,
      read_afterCalls_eq_none unguarded fun part mem => by cases mem]
  have taken {inquiry : Inquiry} (unguarded : inquiry.guarded = false) :
      answerAfter [⟨inquiry, .atom "K"⟩] inquiry (.alien equal) = inquiry.answer? (.atom "K") := by
    have called : (⟨inquiry, .atom "K"⟩ : Call) ∈ [(⟨inquiry, .atom "K"⟩ : Call)] := by simp
    have part_mem : RawTerm.atom "K" ∈ (RawTerm.atom "K").parts := by simp [RawTerm.parts]
    exact answerAfter_alien_of_shape_eq called unguarded trivial part_mem rfl
  exact ⟨⟨at_first rfl, taken rfl⟩, at_first rfl, taken rfl⟩

end Registry
end Combinatory
