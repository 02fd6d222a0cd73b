import Combinatory.Proofs.Term.Keeping

/-!
# Equal terms are one object

Combinators and applications are looked up by shape before they are made, and an object that has
been registered is never replaced. So two of them are the same object exactly if they are the same
tree, however they were put together and whatever was refused in between. An atom that is made
afresh is an object of its own; as an operand it cannot be told from the registered one of its name.
-/

namespace Combinatory

namespace RawTerm.Object

/-- Objects that are no plain data are told apart by their numbers. -/
theorem isSame_iff {left right : RawTerm.Object} (genuine : left.term.Genuine) :
    left.isSame right = true ↔ left.serial = right.serial := by
  unfold isSame
  split
  · next alien _ =>
      rw [alien] at genuine
      exact genuine.elim
  · exact beq_iff_eq

end RawTerm.Object

namespace Registry

open RawTerm (Object)

/-! ## Numbers -/

/-- Registered objects have numbers of their own. -/
structure Numbered (registry : Registry) : Prop where
  /-- The numbers are used up. -/
  below : ∀ (shape : Shape) (object : Object), registry.objects[shape]? = some object →
    object.serial < registry.nextSerial
  /-- No number is used under two shapes. -/
  apart : ∀ (shape other : Shape) (object otherObject : Object),
    registry.objects[shape]? = some object → registry.objects[other]? = some otherObject →
      object.serial = otherObject.serial → shape = other

section Numbered

variable {registry after : Registry}

theorem Numbered.of_eq (numbered : registry.Numbered)
    (objects_eq : after.objects = registry.objects)
    (next_le : registry.nextSerial ≤ after.nextSerial) : after.Numbered where
  below shape object found := by
    rw [objects_eq] at found
    exact Nat.lt_of_lt_of_le (numbered.below shape object found) next_le
  apart := by
    rw [objects_eq]
    exact numbered.apart

/-- An object with the next number is registered. -/
theorem Numbered.insert (numbered : registry.Numbered) (shape : Shape) (term : RawTerm) :
    Numbered { registry with
      nextSerial := registry.nextSerial + 1
      objects := registry.objects.insert shape ⟨registry.nextSerial, term⟩ } := by
  -- What is found afterwards is new, and has the next number, or was there before.
  have cases_of_found {key : Shape} {object : Object}
      (found : (registry.objects.insert shape ⟨registry.nextSerial, term⟩)[key]? = some object) :
      (shape = key ∧ object.serial = registry.nextSerial) ∨
        registry.objects[key]? = some object ∧ object.serial < registry.nextSerial := by
    rw [Std.HashMap.getElem?_insert] at found
    split at found
    · next same =>
        obtain rfl := Option.some.inj found
        exact .inl ⟨eq_of_beq same, rfl⟩
    · exact .inr ⟨found, numbered.below key object found⟩
  constructor
  · intro key object found
    rcases cases_of_found found with ⟨-, number⟩ | ⟨-, used_up⟩
    · exact Nat.lt_succ_of_le (Nat.le_of_eq number)
    · exact Nat.lt_succ_of_lt used_up
  · intro key other object otherObject found other_found same
    rcases cases_of_found found with ⟨rfl, number⟩ | ⟨found, used_up⟩ <;>
      rcases cases_of_found other_found with ⟨rfl, other_number⟩ | ⟨other_found, other_used_up⟩
    · rfl
    · omega
    · omega
    · exact numbered.apart key other object otherObject found other_found same

theorem ensures_newObject_numbered (term : RawTerm) :
    ExceptT.Ensures Numbered (newObject term) fun _ => True :=
  fun _ numbered => ⟨numbered.of_eq rfl (Nat.le_succ _), fun _ _ => trivial⟩

theorem ensures_register_numbered (term : RawTerm) :
    ExceptT.Ensures Numbered (register term) fun _ => True := by
  refine fun before numbered => ⟨?_, fun _ _ => trivial⟩
  simp only [register, ExceptT.outcome_bind, ExceptT.outcome_get]
  cases before.objects[term.shape]? with
  | some object => exact numbered
  | none => exact numbered.insert term.shape term

theorem ensures_applyUnchecked_numbered (lhs rhs : RawTerm) :
    ExceptT.Ensures Numbered (applyUnchecked lhs rhs) fun _ => True :=
  (ExceptT.ensures_ofExcept fun _ _ => trivial).bind fun term (_ : True) =>
    ensures_register_numbered term

theorem ensures_inquiry_numbered (inquiry : Inquiry) (term : RawTerm) :
    ExceptT.Ensures Numbered (inquiry.ask term) fun _ => True :=
  ensures_inquiry_of_objects
    (fun _ _ same same_next numbered => numbered.of_eq same (Nat.le_of_eq same_next.symm))
    inquiry term

theorem ensures_apply_numbered (lhs rhs : RawTerm) :
    ExceptT.Ensures Numbered (apply lhs rhs) fun _ => True :=
  (ExceptT.ensures_ofExcept fun _ _ => trivial).bind fun lhs (_ : True) =>
    (ExceptT.ensures_ofExcept fun _ _ => trivial).bind fun rhs (_ : True) =>
      (ensures_inquiry_numbered .type _).bind fun _ _ => ensures_applyUnchecked_numbered lhs rhs

theorem ensures_build_numbered (term : Term) :
    ExceptT.Ensures Numbered (build term) fun _ => True := by
  induction term with
  | app fn arg fn_ih arg_ih =>
      exact fn_ih.bind fun _ _ => arg_ih.bind fun _ _ => ensures_apply_numbered _ _
  | _ => exact ensures_register_numbered _

theorem numbered_initial : initial.Numbered :=
  initial_of_build
    ⟨fun _ _ found => by simp [empty] at found, fun _ _ _ _ found => by simp [empty] at found⟩
    ensures_build_numbered

theorem Used.numbered (used : registry.Used) : registry.Numbered := by
  induction used with
  | initial => exact numbered_initial
  | asked _ inquiry term ih => exact (ensures_inquiry_numbered inquiry term _ ih).1
  | made _ term ih => exact (ensures_newObject_numbered term _ ih).1
  | unchecked _ _ _ ih => exact (ensures_applyUnchecked_numbered _ _ _ ih).1
  | applied _ _ _ ih => exact (ensures_apply_numbered _ _ _ ih).1

/-- Registered objects are one and the same exactly if they are the same tree. -/
theorem Numbered.isSame_iff (numbered : registry.Numbered) {left right : Object}
    (left_genuine : left.term.Genuine) (right_genuine : right.term.Genuine)
    (left_held : registry.Holds left) (right_held : registry.Holds right) :
    left.isSame right = true ↔ left.term = right.term := by
  rw [RawTerm.Object.isSame_iff left_genuine]
  constructor
  · intro same
    exact left_genuine.eq_of_shape_eq right_genuine
      (numbered.apart _ _ left right left_held right_held same)
  · intro same
    rw [Holds, same] at left_held
    rw [Option.some.inj (left_held.symm.trans right_held)]

end Numbered

/-! ## What an order makes -/

/-- From the registry the order makes the tree, or nothing if there is none. What it makes is
registered if it is to be shared, and what was registered is so still. -/
structure Obeys (order : Access Object) (before : Registry) (tree? : Option RawTerm)
    (shared : Prop) : Prop where
  /-- Only terms are registered, and only right answers remembered. -/
  tidy : (order.outcome before).2.Tidy
  /-- Registered objects keep numbers of their own. -/
  numbered : before.Numbered → (order.outcome before).2.Numbered
  /-- The tree is made. -/
  tree : (order.outcome before).1.toOption.map Object.term = tree?
  /-- What is made is registered. -/
  held : shared → ∀ object, (order.outcome before).1.toOption = some object →
    (order.outcome before).2.Holds object
  /-- What was registered is so still. -/
  keeps : ∀ other, before.Holds other → (order.outcome before).2.Holds other

section Obeys

variable {registry : Registry}

theorem Tidy.obeys_register (tidy : registry.Tidy) {term : RawTerm} (genuine : term.Genuine) :
    Obeys (Registry.register term) registry (some term) True := by
  obtain ⟨object, after, registered, rfl, after_tidy⟩ := tidy.register genuine
  obtain ⟨held, keeps⟩ := holds_of_register registered
  have outcome : (Registry.register object.term).outcome registry = (.ok object, after) :=
    registered
  refine ⟨?_, fun numbered => (ensures_register_numbered _ _ numbered).1, ?_, ?_, ?_⟩ <;>
    rw [outcome]
  · exact after_tidy
  · rfl
  · rintro - _ ⟨⟩
    exact held
  · exact keeps

theorem Tidy.obeys_newObject (tidy : registry.Tidy) (term : RawTerm) :
    Obeys (Registry.newObject term) registry (some term) False where
  tidy := tidy.newObject term
  numbered numbered := (ensures_newObject_numbered term registry numbered).1
  tree := rfl
  held := False.elim
  keeps _ held := held

theorem Tidy.obeys_applyUnchecked (tidy : registry.Tidy) {lhs rhs : RawTerm}
    (lhs_genuine : lhs.Genuine) (rhs_genuine : rhs.Genuine) :
    Obeys (Registry.applyUnchecked lhs rhs) registry (some (.node RawTerm.appHead lhs rhs))
      True := by
  have genuine : (RawTerm.node RawTerm.appHead lhs rhs).Genuine := ⟨lhs_genuine, rhs_genuine⟩
  have registered := tidy.obeys_register genuine
  have outcome : (Registry.applyUnchecked lhs rhs).outcome registry = _ :=
    outcome_applyUnchecked lhs_genuine rhs_genuine
  constructor <;> rw [outcome]
  · exact registered.tidy
  · exact registered.numbered
  · exact registered.tree
  · exact registered.held
  · exact registered.keeps

/-- A checked application is made of terms whose application has a type. -/
def checkedTree? (fn arg : RawTerm) : Option RawTerm :=
  (RawTerm.node RawTerm.appHead fn arg).typeOf?.toOption.map fun _ =>
    .node RawTerm.appHead fn arg

theorem checkedTree?_eq_some {fn arg : RawTerm} (typed : (checkedTree? fn arg).isSome) :
    checkedTree? fn arg = some (.node RawTerm.appHead fn arg) := by
  obtain ⟨tree, made⟩ := Option.isSome_iff_exists.mp typed
  obtain ⟨_, _, rfl⟩ := Option.map_eq_some_iff.mp made
  exact made

theorem Tidy.obeys_apply (tidy : registry.Tidy) {lhs rhs : RawTerm} (lhs_genuine : lhs.Genuine)
    (rhs_genuine : rhs.Genuine) :
    Obeys (Registry.apply lhs rhs) registry (checkedTree? lhs rhs) True := by
  have after_tidy := (ensures_apply_tidy lhs_genuine rhs_genuine registry tidy).1
  have after_numbered (numbered : registry.Numbered) :=
    (ensures_apply_numbered lhs rhs registry numbered).1
  rw [checkedTree?]
  cases typed : (RawTerm.node RawTerm.appHead lhs rhs).typeOf? with
  | error failure =>
      obtain ⟨after, failed, objects_same⟩ := tidy.refuses lhs_genuine rhs_genuine typed
      have outcome : (Registry.apply lhs rhs).outcome registry = (.error failure, after) := failed
      refine ⟨after_tidy, after_numbered, ?_, ?_, ?_⟩ <;> rw [outcome]
      · rfl
      · rintro - _ ⟨⟩
      · intro other held
        rwa [Holds, objects_same]
  | ok type =>
      obtain ⟨after, -, applied⟩ := tidy.apply lhs_genuine rhs_genuine
      rw [typed] at applied
      obtain ⟨object, returned, stands⟩ := applied
      obtain ⟨held, keeps⟩ := holds_of_apply lhs_genuine rhs_genuine returned stands
      have outcome : (Registry.apply lhs rhs).outcome registry = (.ok object, after) := returned
      refine ⟨after_tidy, after_numbered, ?_, ?_, ?_⟩ <;> rw [outcome]
      · exact congrArg some stands
      · rintro - _ ⟨⟩
        exact held
      · exact keeps

end Obeys

/-! ## Histories -/

/-- A construction. Its operands are the results of earlier ones, which are counted from zero. -/
inductive Construction where
  /-- The distributor. -/
  | S
  /-- The constant. -/
  | K
  /-- The identity. -/
  | I
  /-- An atom of any name that is made afresh. -/
  | fresh (name : String)
  /-- An application that is made if it has a type. -/
  | checked (fn arg : Nat)
  /-- An application that need not have a type. -/
  | unchecked (fn arg : Nat)

namespace Construction

/-- What is made is registered. -/
def IsShared : Construction → Prop
  | fresh _ => False
  | _ => True

/-- What has been made at two positions, if something has been made at both. -/
def operands? {α : Type} (made : List (Option α)) (fn arg : Nat) : Option (α × α) := do
  return (← made[fn]?.join, ← made[arg]?.join)

/-- What is ordered, if the operands have been made. -/
def order? (results : List (Option Object)) : Construction → Option (Access Object)
  | S => some (build .S)
  | K => some (build .K)
  | I => some (build .I)
  | fresh name => some (newObject (.atom name))
  | checked fn arg =>
      (operands? results fn arg).map fun (fn, arg) => apply fn.term arg.term
  | unchecked fn arg =>
      (operands? results fn arg).map fun (fn, arg) => applyUnchecked fn.term arg.term

/-- The tree that is made from the trees that have been made before. -/
def tree? (trees : List (Option RawTerm)) : Construction → Option RawTerm
  | S => some (.atom "S")
  | K => some (.atom "K")
  | I => some (.atom "I")
  | fresh name => some (.atom name)
  | checked fn arg => (operands? trees fn arg).bind fun (fn, arg) => checkedTree? fn arg
  | unchecked fn arg =>
      (operands? trees fn arg).map fun (fn, arg) => .node RawTerm.appHead fn arg

end Construction

/-- The trees of constructions that are made one after another. -/
def trees (constructions : List Construction) : List (Option RawTerm) :=
  constructions.foldl (fun made construction => made ++ [construction.tree? made]) []

/-- What has been made, and the registry that is left. -/
structure History where
  /-- The results; none where nothing was made. -/
  results : List (Option Object)
  /-- The registry. -/
  registry : Registry

namespace History

/-- Go on with a construction. -/
def extend (history : History) (construction : Construction) : History :=
  match construction.order? history.results with
  | none => { history with results := history.results ++ [none] }
  | some order =>
      let (made, after) := order.outcome history.registry
      { results := history.results ++ [made.toOption], registry := after }

/-- Make one construction after another. -/
def construct (registry : Registry) (constructions : List Construction) : History :=
  constructions.foldl extend { results := [], registry }

end History

section

variable {registry : Registry} {results : List (Option Object)}
  {constructions : List Construction} {construction : Construction} {history : History}

theorem trees_concat (constructions : List Construction) (construction : Construction) :
    trees (constructions ++ [construction]) =
      trees constructions ++ [construction.tree? (trees constructions)] := by
  rw [trees, List.foldl_append]
  rfl

theorem length_trees (constructions : List Construction) :
    (trees constructions).length = constructions.length := by
  induction constructions using List.reverseRecOn with
  | nil => rfl
  | append_singleton constructions construction ih => simp [trees_concat, ih]

namespace Construction

theorem operands?_map {α β : Type} (function : α → β) (made : List (Option α)) (fn arg : Nat) :
    operands? (made.map (Option.map function)) fn arg =
      (operands? made fn arg).map (Prod.map function function) := by
  simp only [operands?, List.getElem?_map]
  rcases made[fn]? with _ | _ | _ <;> rcases made[arg]? with _ | _ | _ <;> rfl

theorem mem_of_operands? {α : Type} {made : List (Option α)} {fn arg : Nat} {first second : α}
    (found : operands? made fn arg = some (first, second)) :
    some first ∈ made ∧ some second ∈ made := by
  obtain ⟨_, fn_found, rest⟩ := Option.bind_eq_some_iff.mp found
  obtain ⟨_, arg_found, pair⟩ := Option.bind_eq_some_iff.mp rest
  cases pair
  exact ⟨List.mem_of_getElem? (Option.join_eq_some_iff.mp fn_found),
    List.mem_of_getElem? (Option.join_eq_some_iff.mp arg_found)⟩

/-- Without operands there is no tree. -/
theorem tree?_eq_none (missing : construction.order? results = none) :
    construction.tree? (results.map (Option.map Object.term)) = none := by
  cases construction with
  | checked fn arg | unchecked fn arg =>
      simp only [tree?, operands?_map, Option.map_eq_none_iff.mp missing, Option.map_none,
        Option.bind_none]
  | _ => cases missing

/-- With operands the tree is made. -/
theorem obeys (tidy : registry.Tidy)
    (genuine : ∀ object, some object ∈ results → object.term.Genuine) {order : Access Object}
    (ordered : construction.order? results = some order) :
    Obeys order registry (construction.tree? (results.map (Option.map Object.term)))
      construction.IsShared := by
  cases construction with
  | S | K | I =>
      obtain rfl := Option.some.inj ordered
      exact tidy.obeys_register trivial
  | fresh name =>
      obtain rfl := Option.some.inj ordered
      exact tidy.obeys_newObject (.atom name)
  | checked fn arg =>
      obtain ⟨⟨fn, arg⟩, made, rfl⟩ := Option.map_eq_some_iff.mp ordered
      obtain ⟨fn_mem, arg_mem⟩ := mem_of_operands? made
      rw [tree?, operands?_map, made]
      exact tidy.obeys_apply (genuine fn fn_mem) (genuine arg arg_mem)
  | unchecked fn arg =>
      obtain ⟨⟨fn, arg⟩, made, rfl⟩ := Option.map_eq_some_iff.mp ordered
      obtain ⟨fn_mem, arg_mem⟩ := mem_of_operands? made
      rw [tree?, operands?_map, made]
      exact tidy.obeys_applyUnchecked (genuine fn fn_mem) (genuine arg arg_mem)

/-- Terms are made of terms. -/
theorem genuine_of_tree? {trees : List (Option RawTerm)} {tree : RawTerm}
    (genuine : ∀ part, some part ∈ trees → part.Genuine)
    (made : construction.tree? trees = some tree) : tree.Genuine := by
  cases construction with
  | S | K | I | fresh =>
      obtain rfl := Option.some.inj made
      trivial
  | checked fn arg =>
      obtain ⟨⟨fn, arg⟩, found, checked⟩ := Option.bind_eq_some_iff.mp made
      obtain ⟨type, -, rfl⟩ := Option.map_eq_some_iff.mp checked
      obtain ⟨fn_mem, arg_mem⟩ := mem_of_operands? found
      exact ⟨genuine fn fn_mem, genuine arg arg_mem⟩
  | unchecked fn arg =>
      obtain ⟨⟨fn, arg⟩, found, rfl⟩ := Option.map_eq_some_iff.mp made
      obtain ⟨fn_mem, arg_mem⟩ := mem_of_operands? found
      exact ⟨genuine fn fn_mem, genuine arg arg_mem⟩

end Construction

theorem genuine_of_mem_trees {tree : RawTerm} (mem : some tree ∈ trees constructions) :
    tree.Genuine := by
  induction constructions using List.reverseRecOn generalizing tree with
  | nil => cases mem
  | append_singleton constructions construction ih =>
      rw [trees_concat] at mem
      rcases List.mem_append.mp mem with earlier | last
      · exact ih earlier
      · exact Construction.genuine_of_tree? (fun part => ih) (List.mem_singleton.mp last).symm

namespace History

/-- The object is what a construction has made, and it is not an atom that was made afresh. -/
def Shares (history : History) (constructions : List Construction) (position : Nat)
    (object : Object) : Prop :=
  history.results[position]? = some (some object) ∧
    ∃ construction, constructions[position]? = some construction ∧ construction.IsShared

/-- The history is that of the constructions. -/
structure Right (history : History) (constructions : List Construction) : Prop where
  /-- Only terms are registered, and only right answers remembered. -/
  tidy : history.registry.Tidy
  /-- Registered objects have numbers of their own. -/
  numbered : history.registry.Numbered
  /-- The results are the trees that are to be made. -/
  trees : history.results.map (Option.map Object.term) = trees constructions
  /-- What is shared is registered. -/
  held : ∀ position object, history.Shares constructions position object →
    history.registry.Holds object

theorem Right.length_results (right : history.Right constructions) :
    history.results.length = constructions.length := by
  rw [← length_trees, ← right.trees, List.length_map]

theorem Right.genuine (right : history.Right constructions) (object : Object)
    (mem : some object ∈ history.results) : object.term.Genuine := by
  have tree_mem : some object.term ∈ Registry.trees constructions := by
    rw [← right.trees]
    exact List.mem_map_of_mem mem
  exact genuine_of_mem_trees tree_mem

/-- What is shared after one more construction was so before, or has just been made. -/
theorem Right.cases_of_shares (right : history.Right constructions) {after : History}
    {made : Option Object} (extended : after.results = history.results ++ [made]) {position : Nat}
    {object : Object} (shared : after.Shares (constructions ++ [construction]) position object) :
    history.Shares constructions position object ∨
      construction.IsShared ∧ made = some object := by
  obtain ⟨found, other, other_found, other_shared⟩ := shared
  rw [extended] at found
  rcases Nat.lt_or_ge position constructions.length with earlier | last
  · rw [List.getElem?_append_left (right.length_results ▸ earlier)] at found
    rw [List.getElem?_append_left earlier] at other_found
    exact .inl ⟨found, other, other_found, other_shared⟩
  · have position_eq : position = constructions.length := by
      have := (List.getElem?_eq_some_iff.mp other_found).1
      rw [List.length_append, List.length_singleton] at this
      omega
    subst position_eq
    rw [List.getElem?_concat_length] at other_found
    rw [← right.length_results, List.getElem?_concat_length] at found
    obtain rfl := Option.some.inj other_found
    exact .inr ⟨other_shared, Option.some.inj found⟩

/-- One more construction adds what it makes, and nothing that was registered gets lost. -/
theorem Right.extend (right : history.Right constructions) (construction : Construction) :
    (history.extend construction).Right (constructions ++ [construction]) ∧
      history.results <+: (history.extend construction).results ∧
        ∀ object, history.registry.Holds object →
          (history.extend construction).registry.Holds object := by
  cases ordered : construction.order? history.results with
  | none =>
      have extended : history.extend construction =
          { history with results := history.results ++ [none] } := by
        rw [History.extend, ordered]
      rw [extended]
      refine ⟨⟨right.tidy, right.numbered, ?_, fun position object shared => ?_⟩,
        List.prefix_append _ _, fun _ held => held⟩
      · rw [List.map_append, trees_concat, ← right.trees, Construction.tree?_eq_none ordered]
        rfl
      · rcases right.cases_of_shares rfl shared with earlier | ⟨-, made⟩
        · exact right.held position object earlier
        · cases made
  | some order =>
      have obeys := Construction.obeys right.tidy right.genuine ordered
      have extended : history.extend construction =
          { results := history.results ++ [(order.outcome history.registry).1.toOption]
            registry := (order.outcome history.registry).2 } := by
        rw [History.extend, ordered]
      rw [extended]
      refine ⟨⟨obeys.tidy, obeys.numbered right.numbered, ?_, fun position object shared => ?_⟩,
        List.prefix_append _ _, obeys.keeps⟩
      · rw [List.map_append, trees_concat, ← right.trees, ← obeys.tree]
        rfl
      · rcases right.cases_of_shares rfl shared with earlier | ⟨now_shared, made⟩
        · exact obeys.keeps object (right.held position object earlier)
        · exact obeys.held now_shared object made

theorem construct_concat (registry : Registry) (constructions : List Construction)
    (construction : Construction) :
    construct registry (constructions ++ [construction]) =
      (construct registry constructions).extend construction := by
  rw [construct, List.foldl_append]
  rfl

theorem right_construct {registry : Registry} (used : registry.Used)
    (constructions : List Construction) :
    (construct registry constructions).Right constructions := by
  induction constructions using List.reverseRecOn with
  | nil =>
      refine ⟨used.tidy, used.numbered, rfl, ?_⟩
      rintro position object ⟨found, -⟩
      cases found
  | append_singleton constructions construction ih =>
      rw [construct_concat]
      exact (ih.extend construction).1

/-- However many constructions follow, earlier results stay and what was registered is so still. -/
theorem construct_append {registry : Registry} (used : registry.Used)
    (constructions more : List Construction) :
    (construct registry constructions).results <+:
        (construct registry (constructions ++ more)).results ∧
      ∀ object, (construct registry constructions).registry.Holds object →
        (construct registry (constructions ++ more)).registry.Holds object := by
  induction more using List.reverseRecOn with
  | nil =>
      rw [List.append_nil]
      exact ⟨List.prefix_refl _, fun _ held => held⟩
  | append_singleton more construction ih =>
      obtain ⟨-, extended, keeps⟩ :=
        (right_construct used (constructions ++ more)).extend construction
      rw [← List.append_assoc, construct_concat]
      exact ⟨ih.1.trans extended, fun object held => keeps object (ih.2 object held)⟩

end History

end

/--
However a registry has been used, what is constructed from there, one thing after another, are the
trees that the constructions describe, where a checked application is none if it has no type. Two
combinators or applications are the same object exactly if they are the same tree. Whatever follows,
every construction keeps its result, and that stays registered, so to make the tree again is to get
the object again.
-/
theorem objects_are_trees {registry : Registry} (used : registry.Used)
    (constructions : List Construction) :
    let history := History.construct registry constructions
    history.results.map (Option.map Object.term) = trees constructions ∧
      (∀ {position otherPosition : Nat} {left right : Object},
        history.Shares constructions position left →
          history.Shares constructions otherPosition right →
            (left.isSame right = true ↔ left.term = right.term)) ∧
        ∀ more,
          history.results <+: (History.construct registry (constructions ++ more)).results ∧
            ∀ {position : Nat} {object : Object}, history.Shares constructions position object →
              (History.construct registry (constructions ++ more)).registry.Holds object := by
  intro history
  have right := History.right_construct used constructions
  refine ⟨right.trees, ?_, fun more => ?_⟩
  · intro position otherPosition left other left_shared other_shared
    exact right.numbered.isSame_iff (right.genuine left (List.mem_of_getElem? left_shared.1))
      (right.genuine other (List.mem_of_getElem? other_shared.1))
      (right.held position left left_shared) (right.held otherPosition other other_shared)
  · obtain ⟨kept, keeps⟩ := History.construct_append used constructions more
    exact ⟨kept, fun shared => keeps _ (right.held _ _ shared)⟩

/-- `K` applied to itself is made unchecked of an atom that was made afresh, and checked of the
registered one, after `S I I` has been refused. -/
theorem application_of_fresh_atom_is_shared :
    let constructions : List Construction :=
      [.fresh "K", .unchecked 0 0, .S, .I, .checked 2 3, .checked 4 3, .K, .checked 6 6]
    let history := History.construct initial constructions
    initial.Used ∧ ∃ unchecked checked : Object,
      history.Shares constructions 1 unchecked ∧ history.Shares constructions 7 checked ∧
        history.results[5]? = some none ∧ unchecked.isSame checked = true := by
  intro constructions history
  obtain ⟨made, identical, -⟩ := objects_are_trees .initial constructions
  let constant : RawTerm := .node RawTerm.appHead (.atom "K") (.atom "K")
  let half : RawTerm := .node RawTerm.appHead (.atom "S") (.atom "I")
  have constant_made : checkedTree? (.atom "K") (.atom "K") = some constant :=
    checkedTree?_eq_some (by decide +kernel)
  have half_made : checkedTree? (.atom "S") (.atom "I") = some half :=
    checkedTree?_eq_some (by decide +kernel)
  have refused : checkedTree? half (.atom "I") = none :=
    Option.isNone_iff_eq_none.mp (by decide +kernel)
  have trees_eq : trees constructions = [some (.atom "K"), some constant, some (.atom "S"),
      some (.atom "I"), some half, none, some (.atom "K"), some constant] := by
    simp [constructions, trees, Construction.tree?, Construction.operands?, constant_made,
      half_made, refused, constant]
  rw [trees_eq] at made
  have at_position (position : Nat) :
      (history.results[position]?).map (Option.map Object.term) = _ :=
    List.getElem?_map.symm.trans (congrArg (·[position]?) made)
  obtain ⟨_, first, first_term⟩ := Option.map_eq_some_iff.mp (at_position 1)
  obtain ⟨unchecked, rfl, unchecked_term⟩ := Option.map_eq_some_iff.mp first_term
  obtain ⟨_, last, last_term⟩ := Option.map_eq_some_iff.mp (at_position 7)
  obtain ⟨checked, rfl, checked_term⟩ := Option.map_eq_some_iff.mp last_term
  obtain ⟨_, between, between_term⟩ := Option.map_eq_some_iff.mp (at_position 5)
  obtain rfl := Option.map_eq_none_iff.mp between_term
  have unchecked_shared : history.Shares constructions 1 unchecked := ⟨first, _, rfl, trivial⟩
  have checked_shared : history.Shares constructions 7 checked := ⟨last, _, rfl, trivial⟩
  refine ⟨.initial, unchecked, checked, unchecked_shared, checked_shared, between, ?_⟩
  exact (identical unchecked_shared checked_shared).mpr (unchecked_term.trans checked_term.symm)

end Registry
end Combinatory
