import Combinatory.Proofs.Term.Genuine

/-!
# Tables of remembered answers

A question about a raw term is answered part by part from a table that is kept by shape. The table
is right if everything in it is the answer for a genuine term of its shape, the parts of which are
in the table too. Asking about any raw term, plain data in it or not, leaves a right table right and
forgets nothing, and a genuine term is given the answer that it would get without the table.
-/

namespace Combinatory

/-! ## What is remembered -/

/-- Reading gives what was written last, and writing back what is there changes nothing. -/
structure Memo.Slot.Lawful {σ κ ν : Type} [BEq κ] [Hashable κ] (slot : Memo.Slot σ κ ν) :
    Prop where
  /-- A table that was written is read. -/
  read_write : ∀ table state, slot.read (slot.write table state) = table
  /-- Only the last table written counts. -/
  write_write : ∀ table other state,
    slot.write table (slot.write other state) = slot.write table state
  /-- To write the table that is there changes nothing. -/
  write_read : ∀ state, slot.write (slot.read state) state = state

namespace Registry

open RawTerm (Failure)

/-- A term of the shape has the result for its answer, and all of its parts are known. -/
def Backed {α : Type} (question : Question α) (known : Shape → Prop) (shape : Shape) (result : α) :
    Prop :=
  ∃ term : RawTerm, term.Genuine ∧ term.shape = shape ∧ question.answer term = .ok result ∧
    ∀ part ∈ term.parts, known part.shape

/-- Every answer in a table is under a shape that was asked about and is that for a term of the
shape, the parts of which have answers too. -/
def Right {α : Type} (question : Question α) (asked : Shape → Prop)
    (table : Std.HashMap Shape α) : Prop :=
  ∀ shape result, table[shape]? = some result →
    asked shape ∧ Backed question (· ∈ table) shape result

section Backed

variable {α : Type} {question : Question α} {known : Shape → Prop} {shape : Shape} {result : α}

theorem Backed.mono {further : Shape → Prop} (backed : Backed question known shape result)
    (weaker : ∀ shape, known shape → further shape) : Backed question further shape result := by
  obtain ⟨term, genuine, shape_eq, answered, parts_known⟩ := backed
  exact ⟨term, genuine, shape_eq, answered, fun part mem => weaker _ (parts_known part mem)⟩

/-- The answer that is kept for a term is its own. -/
theorem Backed.answer_eq {term : RawTerm} (backed : Backed question known term.shape result)
    (genuine : term.Genuine) :
    question.answer term = .ok result ∧ ∀ part ∈ term.parts, known part.shape := by
  obtain ⟨other, other_genuine, shape_eq, answered, parts_known⟩ := backed
  obtain rfl := other_genuine.eq_of_shape_eq genuine shape_eq
  exact ⟨answered, parts_known⟩

end Backed

section Asking

variable {α : Type} {slot : Memo.Slot Registry Shape α} {question : Question α}
  {asked : Shape → Prop} {table : Std.HashMap Shape α} {registry : Registry}

/-- What asking about a term comes to: with what outcome, and what is remembered before and after
it. -/
structure Settles (question : Question α) (asked : Shape → Prop)
    (before after : Std.HashMap Shape α) (term : RawTerm) (outcome : Except Failure α) : Prop where
  /-- Right answers are remembered. -/
  right : Right question asked after
  /-- Nothing is forgotten. -/
  grows : ∀ shape, shape ∈ before → shape ∈ after
  /-- A result is the answer for a term of the shape. -/
  backed : ∀ result, outcome = .ok result → Backed question (· ∈ after) term.shape result
  /-- A term gets its own answer. -/
  exact : term.Genuine → outcome = question.answer term

theorem Right.insert (right : Right question asked table) {key : Shape} {result : α}
    (key_asked : asked key)
    (backed : Backed question (fun shape => shape = key ∨ shape ∈ table) key result) :
    Right question asked (table.insert key result) := by
  have kept : ∀ shape, shape = key ∨ shape ∈ table → shape ∈ table.insert key result := by
    intro shape known
    rw [Std.HashMap.mem_insert]
    rcases known with rfl | known
    · exact .inl BEq.rfl
    · exact .inr known
  intro shape found found_eq
  rw [Std.HashMap.getElem?_insert] at found_eq
  split at found_eq
  · next same =>
      obtain rfl := eq_of_beq same
      obtain rfl := Option.some.inj found_eq
      exact ⟨key_asked, backed.mono kept⟩
  · obtain ⟨shape_asked, shape_backed⟩ := right shape found found_eq
    exact ⟨shape_asked, shape_backed.mono fun shape known => kept shape (.inr known)⟩

/-- A computation that asks about a term from a registry in which right answers are remembered. -/
def Asks (slot : Memo.Slot Registry Shape α) (question : Question α) (asked : Shape → Prop)
    (computation : Access α) (term : RawTerm) : Prop :=
  ∀ registry, Right question asked (slot.read registry) →
    ∃ outcome table, computation.outcome registry = (outcome, slot.write table registry) ∧
      Settles question asked (slot.read registry) table term outcome

/-- The answer for a term is looked up, or made from right answers and kept. -/
theorem remember_settles (lawful : slot.Lawful) {term : RawTerm} {computation : Access α}
    {outcome : Except Failure α} (right : Right question asked (slot.read registry))
    (ran : computation.outcome registry = (outcome, slot.write table registry))
    (table_right : Right question asked table)
    (grows : ∀ shape, shape ∈ slot.read registry → shape ∈ table)
    (made : ∀ result, outcome = .ok result → asked term.shape ∧
      Backed question (fun shape => shape = term.shape ∨ shape ∈ table) term.shape result)
    (exact : term.Genuine → outcome = question.answer term) :
    ∃ outcome after,
      (Memo.remember slot term.shape computation).outcome registry =
          (outcome, slot.write after registry) ∧
        Settles question asked (slot.read registry) after term outcome := by
  rw [outcome_remember]
  cases found : (slot.read registry)[term.shape]? with
  | some result =>
      have backed := (right term.shape result found).2
      refine ⟨.ok result, slot.read registry, by rw [lawful.write_read], right, fun _ => id, ?_, ?_⟩
      · rintro _ ⟨⟩
        exact backed
      · exact fun genuine => (backed.answer_eq genuine).1.symm
  | none =>
      rw [ran]
      cases outcome with
      | error failure =>
          refine ⟨.error failure, table, rfl, table_right, grows, ?_, exact⟩
          rintro _ ⟨⟩
      | ok result =>
          obtain ⟨key_asked, backed⟩ := made result rfl
          have after_right := table_right.insert key_asked backed
          have kept : ∀ shape, shape ∈ table → shape ∈ table.insert term.shape result := by
            intro shape known
            exact Std.HashMap.mem_insert.mpr (.inr known)
          refine ⟨.ok result, table.insert term.shape result, ?_, after_right,
            fun shape known => kept shape (grows shape known), ?_, exact⟩
          · simp only [lawful.read_write, lawful.write_write]
          · rintro _ ⟨⟩
            exact (after_right term.shape result Std.HashMap.getElem?_insert_self).2

/-- A computation that remembers nothing itself. -/
theorem remember_settles_of_unchanged (lawful : slot.Lawful) {term : RawTerm}
    {computation : Access α} {outcome : Except Failure α}
    (right : Right question asked (slot.read registry))
    (ran : computation.outcome registry = (outcome, registry))
    (made : ∀ result, outcome = .ok result → asked term.shape ∧
      Backed question (· = term.shape) term.shape result)
    (exact : term.Genuine → outcome = question.answer term) :
    ∃ outcome after,
      (Memo.remember slot term.shape computation).outcome registry =
          (outcome, slot.write after registry) ∧
        Settles question asked (slot.read registry) after term outcome := by
  refine remember_settles lawful right ?_ right (fun _ => id) ?_ exact
  · rw [ran, lawful.write_read]
  · intro result returned
    obtain ⟨key_asked, backed⟩ := made result returned
    exact ⟨key_asked, backed.mono fun _ => .inl⟩

/-- Asking about two terms, one after the other. -/
theorem Asks.seq {β : Type} (lawful : slot.Lawful) {first second : Access α} {left right : RawTerm}
    (first_asks : Asks slot question asked first left)
    (second_asks : Asks slot question asked second right)
    (before_right : Right question asked (slot.read registry)) (combine : α → α → β) :
    ∃ outcome table,
      (do let a ← first
          let b ← second
          return combine a b : Access β).outcome registry = (outcome, slot.write table registry) ∧
        Right question asked table ∧ (∀ shape, shape ∈ slot.read registry → shape ∈ table) ∧
        (∀ result, outcome = .ok result → ∃ a b, result = combine a b ∧
          Backed question (· ∈ table) left.shape a ∧ Backed question (· ∈ table) right.shape b) ∧
        (left.Genuine → right.Genuine → outcome = do
          let a ← question.answer left
          let b ← question.answer right
          return combine a b) := by
  obtain ⟨outcome, middle, first_ran, first_settles⟩ := first_asks registry before_right
  simp only [ExceptT.outcome_bind, first_ran]
  cases outcome with
  | error failure =>
      refine ⟨_, middle, rfl, first_settles.right, first_settles.grows, ?_, ?_⟩
      · rintro _ ⟨⟩
      · intro left_genuine _
        rw [← first_settles.exact left_genuine]
        rfl
  | ok a =>
      have middle_right : Right question asked (slot.read (slot.write middle registry)) := by
        rw [lawful.read_write]
        exact first_settles.right
      obtain ⟨outcome, after, second_ran, second_settles⟩ := second_asks _ middle_right
      rw [lawful.read_write, lawful.write_write] at *
      have grows : ∀ shape, shape ∈ slot.read registry → shape ∈ after :=
        fun shape known => second_settles.grows shape (first_settles.grows shape known)
      simp only [second_ran]
      cases outcome with
      | error failure =>
          refine ⟨_, after, rfl, second_settles.right, grows, ?_, ?_⟩
          · rintro _ ⟨⟩
          · intro left_genuine right_genuine
            rw [← first_settles.exact left_genuine, ← second_settles.exact right_genuine]
            rfl
      | ok b =>
          refine ⟨_, after, rfl, second_settles.right, grows, ?_, ?_⟩
          · rintro _ ⟨⟩
            exact ⟨a, b, rfl, (first_settles.backed a rfl).mono second_settles.grows,
              second_settles.backed b rfl⟩
          · intro left_genuine right_genuine
            rw [← first_settles.exact left_genuine, ← second_settles.exact right_genuine]
            rfl

/-- Asking about both parts of a node, in whatever order. -/
theorem Asks.both (lawful : slot.Lawful) {fn arg : Access α} {lhs rhs : RawTerm}
    (fn_asks : Asks slot question asked fn lhs) (arg_asks : Asks slot question asked arg rhs)
    (right : Right question asked (slot.read registry)) :
    ∃ outcome table,
      (question.both fn arg).outcome registry = (outcome, slot.write table registry) ∧
        Right question asked table ∧ (∀ shape, shape ∈ slot.read registry → shape ∈ table) ∧
        (∀ results, outcome = .ok results → Backed question (· ∈ table) lhs.shape results.1 ∧
          Backed question (· ∈ table) rhs.shape results.2) ∧
        (lhs.Genuine → rhs.Genuine →
          outcome = question.both (question.answer lhs) (question.answer rhs)) := by
  by_cases argFirst : question.argFirst = true
  · obtain ⟨outcome, table, ran, table_right, grows, backed, exact⟩ :=
      arg_asks.seq lawful fn_asks right fun argAnswer fnAnswer => (fnAnswer, argAnswer)
    simp only [Question.both, argFirst, if_true]
    refine ⟨outcome, table, ran, table_right, grows, ?_, fun fn_gen arg_gen => exact arg_gen fn_gen⟩
    intro results returned
    obtain ⟨_, _, rfl, arg_backed, fn_backed⟩ := backed results returned
    exact ⟨fn_backed, arg_backed⟩
  · obtain ⟨outcome, table, ran, table_right, grows, backed, exact⟩ :=
      fn_asks.seq lawful arg_asks right Prod.mk
    simp only [Question.both, argFirst]
    refine ⟨outcome, table, ran, table_right, grows, ?_, exact⟩
    intro results returned
    obtain ⟨_, _, rfl, fn_backed, arg_backed⟩ := backed results returned
    exact ⟨fn_backed, arg_backed⟩

/-- What a node is answered with does not depend on how its parts came by their answers. -/
def Uniform (question : Question α) : Prop :=
  ∀ fn arg otherFn otherArg fnAnswer argAnswer result,
    question.node fn arg fnAnswer argAnswer = .ok result →
      question.node otherFn otherArg fnAnswer argAnswer = .ok result

/-- The answer for a node is that for the node of the terms that answered for its parts. -/
theorem backed_node (uniform : Uniform question) {known : Shape → Prop} {head : String}
    {lhs rhs : RawTerm} {fnAnswer argAnswer result : α} (headed : question.head head = .ok ())
    (fn_backed : Backed question known lhs.shape fnAnswer)
    (arg_backed : Backed question known rhs.shape argAnswer)
    (answered : question.node lhs rhs fnAnswer argAnswer = .ok result) :
    Backed question (fun shape => shape = (RawTerm.node head lhs rhs).shape ∨ known shape)
      (RawTerm.node head lhs rhs).shape result := by
  obtain ⟨fn, fn_genuine, fn_shape, fn_answered, fn_known⟩ := fn_backed
  obtain ⟨arg, arg_genuine, arg_shape, arg_answered, arg_known⟩ := arg_backed
  have node_shape : (RawTerm.node head fn arg).shape = (RawTerm.node head lhs rhs).shape := by
    simp only [RawTerm.shape, fn_shape, arg_shape]
  refine ⟨.node head fn arg, ⟨fn_genuine, arg_genuine⟩, node_shape, ?_, ?_⟩
  · have both : question.both (question.answer fn) (question.answer arg) =
        .ok (fnAnswer, argAnswer) := by
      rw [fn_answered, arg_answered, Question.both]
      split <;> rfl
    rw [Question.answer, headed, both]
    exact uniform _ _ _ _ _ _ _ answered
  · intro part mem
    rcases List.mem_cons.mp mem with rfl | inside
    · exact .inl node_shape
    · rcases List.mem_append.mp inside with left | right
      · exact .inr (fn_known part left)
      · exact .inr (arg_known part right)

/-- Any raw term may be asked about. -/
theorem asks_ask (lawful : slot.Lawful) (uniform : Uniform question) (term : RawTerm)
    (parts_asked : ∀ part ∈ term.parts, asked part.shape) :
    Asks slot question asked (ask slot question term) term := by
  induction term with
  | atom name =>
      intro registry right
      refine remember_settles_of_unchanged lawful right (ExceptT.outcome_ofExcept _ _) ?_
        fun _ => rfl
      intro result answered
      refine ⟨parts_asked (.atom name) (by simp [RawTerm.parts]), .atom name, trivial, rfl,
        answered, ?_⟩
      intro part mem
      rw [List.mem_singleton.mp mem]
  | alien value =>
      intro registry right
      by_cases guarded : question.guarded = true
      · rw [ask, if_pos guarded]
        refine ⟨.error (question.alien value), slot.read registry, ?_, right, fun _ => id, ?_, ?_⟩
        · rw [lawful.write_read]
          rfl
        · rintro _ ⟨⟩
        · exact fun genuine => genuine.elim
      · rw [ask, if_neg guarded]
        change ∃ outcome table,
          (Memo.remember slot (RawTerm.alien value).shape _).outcome registry =
            (outcome, slot.write table registry) ∧ _
        refine remember_settles_of_unchanged lawful right (ExceptT.outcome_throw _ _) ?_
          fun genuine => genuine.elim
        rintro _ ⟨⟩
  | node head lhs rhs lhs_ih rhs_ih =>
      intro registry right
      have node_asked : asked (RawTerm.node head lhs rhs).shape :=
        parts_asked _ (by simp [RawTerm.parts])
      have fn_asks := lhs_ih fun part mem => parts_asked part (by simp [RawTerm.parts, mem])
      have arg_asks := rhs_ih fun part mem => parts_asked part (by simp [RawTerm.parts, mem])
      obtain ⟨outcome, table, ran, table_right, grows, backed, exact⟩ :=
        fn_asks.both lawful arg_asks right
      rw [ask]
      cases headed : question.head head with
      | error failure =>
          refine remember_settles_of_unchanged lawful right (ExceptT.Fails.bind rfl _) ?_ ?_
          · rintro _ ⟨⟩
          · intro _
            rw [Question.answer, headed]
            rfl
      | ok _ =>
          have made : ((do
              MonadExcept.ofExcept (Except.ok ())
              let parts ← question.both (ask slot question lhs) (ask slot question rhs)
              MonadExcept.ofExcept (question.node lhs rhs parts.1 parts.2) :
                Access α)).outcome registry =
                  (outcome.bind fun parts => question.node lhs rhs parts.1 parts.2,
                    slot.write table registry) := by
            rw [ExceptT.outcome_bind, ExceptT.outcome_ofExcept]
            simp only [ExceptT.outcome_bind, ran]
            cases outcome with
            | error => rfl
            | ok => exact ExceptT.outcome_ofExcept _ _
          refine remember_settles lawful right made table_right grows ?_ ?_
          · intro result returned
            cases outcome with
            | error => cases returned
            | ok results =>
                obtain ⟨fn_backed, arg_backed⟩ := backed results rfl
                exact ⟨node_asked, backed_node uniform headed fn_backed arg_backed returned⟩
          · intro genuine
            rw [Question.answer, headed, exact genuine.1 genuine.2]
            rfl

end Asking

end Registry
end Combinatory
