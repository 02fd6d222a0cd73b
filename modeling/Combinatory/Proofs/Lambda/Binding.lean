import Combinatory.Lambda.Signature
import Mathlib.Data.List.Forall2

/-!
# Binding arguments to parameters

A call binds the names of all parameters in the order of the signature. Where two signatures differ
in names only and their default values are related, related arguments are bound to the parameters of
both so that the same places get related values, or they fit neither signature. As many arguments as
there are plain parameters are bound to them one by one.
-/

namespace Combinatory
namespace Lambda

/-! ## Names -/

namespace Signature

variable {α β : Type}

/-- The names of the parameters in the order in which they are bound. -/
def names (signature : Signature α) : List String :=
  signature.positional.map Parameter.name ++ signature.rest?.toList ++
    signature.keywordOnly.map Parameter.name ++ signature.keywords?.toList

@[simp]
theorem names_map (change : α → β) (signature : Signature α) :
    (signature.map change).names = signature.names := by
  simp [map, names, Function.comp_def]

theorem bindParameters_names {parameters : List (Parameter α)} {args left : List α}
    {bound : List (String × α)} (fits : bindParameters parameters args = some (bound, left)) :
    bound.map Prod.fst = parameters.map Parameter.name := by
  induction parameters generalizing args left bound with
  | nil =>
      cases fits
      rfl
  | cons parameter parameters ih =>
      cases args with
      | nil =>
          obtain ⟨value, -, fits⟩ := Option.bind_eq_some_iff.mp fits
          obtain ⟨⟨rest, rest_left⟩, rest_fits, same⟩ := Option.bind_eq_some_iff.mp fits
          cases same
          rw [List.map_cons, List.map_cons, ih rest_fits]
      | cons arg args =>
          obtain ⟨⟨rest, rest_left⟩, rest_fits, same⟩ := Option.bind_eq_some_iff.mp fits
          cases same
          rw [List.map_cons, List.map_cons, ih rest_fits]

theorem bindLeft_names {tuple : List α → α} {name? : Option String} {left : List α}
    {bound : List (String × α)} (fits : bindLeft tuple name? left = some bound) :
    bound.map Prod.fst = name?.toList := by
  unfold bindLeft at fits
  split at fits <;> cases fits <;> rfl

/-- The names that are bound in a call are those of the parameters. -/
theorem bind?_names {signature : Signature α} {tuple : List α → α} {noKeywords : α} {args : List α}
    {bound : List (String × α)} (fits : signature.bind? tuple noKeywords args = some bound) :
    bound.map Prod.fst = signature.names := by
  obtain ⟨⟨positional, left⟩, positional_fits, fits⟩ := Option.bind_eq_some_iff.mp fits
  obtain ⟨rest, rest_fits, fits⟩ := Option.bind_eq_some_iff.mp fits
  obtain ⟨⟨keywordOnly, _⟩, keywordOnly_fits, same⟩ := Option.bind_eq_some_iff.mp fits
  cases same
  have keyword_names :
      (signature.keywords?.toList.map fun name => (name, noKeywords)).map Prod.fst =
        signature.keywords?.toList := by
    simp [Function.comp_def]
  simp only [List.map_append, bindParameters_names positional_fits,
    bindLeft_names rest_fits, bindParameters_names keywordOnly_fits, keyword_names, names]

end Signature

/-! ## Signatures that are alike -/

/-- Both parameters carry default values, which are related, or neither does. -/
def Parameter.Alike {α β : Type} (R : α → β → Prop) (parameter : Parameter α)
    (counterpart : Parameter β) : Prop :=
  Option.Rel R parameter.default? counterpart.default?

/-- The two signatures differ in the names of parameters only, and their default values are
related. -/
structure Signature.Alike {α β : Type} (R : α → β → Prop) (signature : Signature α)
    (other : Signature β) : Prop where
  /-- The parameters taken by position carry related default values. -/
  positional : List.Forall₂ (Parameter.Alike R) signature.positional other.positional
  /-- Both or neither collect the positional arguments left over. -/
  rest : Option.Rel (fun _ _ => True) signature.rest? other.rest?
  /-- The parameters taken by keyword only carry related default values. -/
  keywordOnly : List.Forall₂ (Parameter.Alike R) signature.keywordOnly other.keywordOnly
  /-- Both or neither collect the keyword arguments left over. -/
  keywords : Option.Rel (fun _ _ => True) signature.keywords? other.keywords?

section Alike

variable {α β γ δ : Type} {R : α → β → Prop}

theorem Parameter.Alike.hasDefault_eq {parameter : Parameter α} {counterpart : Parameter β}
    (alike : parameter.Alike R counterpart) : counterpart.hasDefault = parameter.hasDefault := by
  obtain ⟨name, value?⟩ := parameter
  obtain ⟨other, other?⟩ := counterpart
  cases alike with
  | none => rfl
  | some both => rfl

theorem Parameter.Alike.map {S : γ → δ → Prop} {change : α → γ} {otherChange : β → δ}
    {parameter : Parameter α} {counterpart : Parameter β} (alike : parameter.Alike R counterpart)
    (related : ∀ value other, R value other → S (change value) (otherChange other)) :
    (parameter.map change).Alike S (counterpart.map otherChange) := by
  obtain ⟨name, value?⟩ := parameter
  obtain ⟨other, other?⟩ := counterpart
  cases alike with
  | none => exact .none
  | some both => exact .some (related _ _ both)

theorem Parameter.forall₂_alike_map {S : γ → δ → Prop} {change : α → γ} {otherChange : β → δ}
    {parameters : List (Parameter α)} {counterparts : List (Parameter β)}
    (all : List.Forall₂ (Parameter.Alike R) parameters counterparts)
    (related : ∀ value other, R value other → S (change value) (otherChange other)) :
    List.Forall₂ (Parameter.Alike S) (parameters.map (Parameter.map change))
      (counterparts.map (Parameter.map otherChange)) := by
  rw [List.forall₂_map_left_iff, List.forall₂_map_right_iff]
  exact all.imp fun _ _ alike => alike.map related

namespace Signature.Alike

theorem map {S : γ → δ → Prop} {change : α → γ} {otherChange : β → δ} {signature : Signature α}
    {other : Signature β} (alike : signature.Alike R other)
    (related : ∀ value other, R value other → S (change value) (otherChange other)) :
    (signature.map change).Alike S (other.map otherChange) where
  positional := Parameter.forall₂_alike_map alike.positional related
  rest := alike.rest
  keywordOnly := Parameter.forall₂_alike_map alike.keywordOnly related
  keywords := alike.keywords

theorem isCompilable_eq {signature : Signature α} {other : Signature β}
    (alike : signature.Alike R other) : other.isCompilable = signature.isCompilable := by
  obtain ⟨parameters, rest?, keywordOnly, keywords?⟩ := signature
  obtain ⟨counterparts, otherRest?, otherKeywordOnly, otherKeywords?⟩ := other
  obtain ⟨positional_alike, rest_alike, -, keywords_alike⟩ := alike
  dsimp only at positional_alike rest_alike keywords_alike
  have positional_eq : (counterparts.all fun parameter => !parameter.hasDefault) =
      parameters.all fun parameter => !parameter.hasDefault := by
    induction positional_alike with
    | nil => rfl
    | cons same _ ih => rw [List.all_cons, List.all_cons, same.hasDefault_eq, ih]
  cases rest_alike <;> cases keywords_alike <;>
    simp only [Signature.isCompilable, positional_eq, Option.isNone_none, Option.isNone_some]

theorem refl (signature : Signature α) : signature.Alike Eq signature := by
  have any_refl (name? : Option String) : Option.Rel (fun _ _ => True) name? name? := by
    cases name? <;> constructor
    trivial
  have parameter_refl (parameter : Parameter α) : parameter.Alike Eq parameter := by
    obtain ⟨name, value?⟩ := parameter
    cases value? with
    | none => exact .none
    | some value => exact .some rfl
  exact
    { positional := List.forall₂_same.mpr fun parameter _ => parameter_refl parameter
      rest := any_refl signature.rest?
      keywordOnly := List.forall₂_same.mpr fun parameter _ => parameter_refl parameter
      keywords := any_refl signature.keywords? }

end Signature.Alike

end Alike

/-! ## Related arguments -/

section Related

variable {α β γ δ : Type} {R : α → β → Prop}

/-- The two names, whatever they are, are bound to related values. -/
def EntriesRelated (R : α → β → Prop) (entry : String × α) (other : String × β) : Prop :=
  R entry.2 other.2

theorem optionRel_bind {S : γ → δ → Prop} {found : Option α} {other : Option β}
    {next : α → Option γ} {otherNext : β → Option δ} (related : Option.Rel R found other)
    (rest : ∀ value counterpart, R value counterpart →
      Option.Rel S (next value) (otherNext counterpart)) :
    Option.Rel S (found >>= next) (other >>= otherNext) := by
  cases related with
  | none => exact .none
  | some both => exact rest _ _ both

theorem optionRel_imp {S : α → β → Prop} {found : Option α} {other : Option β}
    (related : Option.Rel R found other)
    (imp : ∀ value counterpart, found = some value → other = some counterpart →
      R value counterpart → S value counterpart) : Option.Rel S found other := by
  cases related with
  | none => exact .none
  | some both => exact .some (imp _ _ rfl rfl both)

theorem bindParameters_alike {parameters : List (Parameter α)} {counterparts : List (Parameter β)}
    (alike : List.Forall₂ (Parameter.Alike R) parameters counterparts) {args : List α}
    {others : List β} (related : List.Forall₂ R args others) :
    Option.Rel (fun bound other => List.Forall₂ (EntriesRelated R) bound.1 other.1 ∧
        List.Forall₂ R bound.2 other.2)
      (Signature.bindParameters parameters args)
      (Signature.bindParameters counterparts others) := by
  induction alike generalizing args others with
  | nil => exact .some ⟨.nil, related⟩
  | cons same _ ih =>
      cases related with
      | nil =>
          refine optionRel_bind same fun value counterpart values_related => ?_
          refine optionRel_bind (ih .nil) fun bound other both => ?_
          exact .some ⟨.cons values_related both.1, both.2⟩
      | cons arg_related args_related =>
          refine optionRel_bind (ih args_related) fun bound other both => ?_
          exact .some ⟨.cons arg_related both.1, both.2⟩

theorem bindLeft_alike {name? other? : Option String}
    (alike : Option.Rel (fun _ _ => True) name? other?) {tuple : List α → α}
    {otherTuple : List β → β}
    (tuples_related : name?.isSome → ∀ {items : List α} {others : List β},
      List.Forall₂ R items others → R (tuple items) (otherTuple others))
    {left : List α} {otherLeft : List β} (related : List.Forall₂ R left otherLeft) :
    Option.Rel (List.Forall₂ (EntriesRelated R)) (Signature.bindLeft tuple name? left)
      (Signature.bindLeft otherTuple other? otherLeft) := by
  cases alike with
  | some => exact .some (.cons (tuples_related rfl related) .nil)
  | none =>
      cases related with
      | nil => exact .some .nil
      | cons _ _ => exact .none

/-- Keyword arguments are collected by both or by neither. -/
theorem collected_related {name? other? : Option String}
    (alike : Option.Rel (fun _ _ => True) name? other?) {value : α} {counterpart : β}
    (related : name?.isSome → R value counterpart) :
    List.Forall₂ (EntriesRelated R) (name?.toList.map fun name => (name, value))
      (other?.toList.map fun name => (name, counterpart)) := by
  cases alike with
  | none => exact .nil
  | some => exact .cons (related rfl) .nil

/-- Related arguments are bound to parameters of signatures that are alike, or to neither. Tuples
and the absence of keyword arguments matter only where they are collected. -/
theorem Signature.Alike.bind? {signature : Signature α} {other : Signature β}
    (alike : signature.Alike R other) {tuple : List α → α} {otherTuple : List β → β}
    (tuples_related : signature.rest?.isSome → ∀ {items : List α} {others : List β},
      List.Forall₂ R items others → R (tuple items) (otherTuple others))
    {noKeywords : α} {otherNoKeywords : β}
    (keywords_related : signature.keywords?.isSome → R noKeywords otherNoKeywords)
    {args : List α} {others : List β} (related : List.Forall₂ R args others) :
    Option.Rel (List.Forall₂ (EntriesRelated R)) (signature.bind? tuple noKeywords args)
      (other.bind? otherTuple otherNoKeywords others) := by
  obtain ⟨parameters, rest?, keywordOnly, keywords?⟩ := signature
  obtain ⟨counterparts, otherRest?, otherKeywordOnly, otherKeywords?⟩ := other
  obtain ⟨positional_alike, rest_alike, keywordOnly_alike, keywords_alike⟩ := alike
  dsimp only at positional_alike rest_alike keywordOnly_alike keywords_alike
  refine optionRel_bind (bindParameters_alike positional_alike related) ?_
  rintro ⟨bound, left⟩ ⟨counterpart, otherLeft⟩ ⟨bound_related, left_related⟩
  refine optionRel_bind (bindLeft_alike rest_alike tuples_related left_related)
    fun rest otherRest rest_related => ?_
  refine optionRel_bind (bindParameters_alike keywordOnly_alike .nil) ?_
  rintro ⟨defaults, _⟩ ⟨otherDefaults, _⟩ ⟨defaults_related, -⟩
  exact .some (List.rel_append (List.rel_append (List.rel_append bound_related rest_related)
    defaults_related) (collected_related keywords_alike keywords_related))

/-- The same names are bound to related values. -/
theorem forall₂_of_entriesRelated {bound : List (String × α)} {others : List (String × β)}
    (related : List.Forall₂ (EntriesRelated R) bound others)
    (same : bound.map Prod.fst = others.map Prod.fst) :
    List.Forall₂ (fun entry other => entry.1 = other.1 ∧ R entry.2 other.2) bound others := by
  induction related with
  | nil => exact .nil
  | cons first _ ih =>
      rw [List.map_cons, List.map_cons, List.cons.injEq] at same
      exact .cons ⟨same.1, first⟩ (ih same.2)

/-- Where a function can be compiled, nothing is collected. So related arguments are bound alike to
parameters of the same names. -/
theorem Signature.Alike.bind?_compilable {signature : Signature α} {other : Signature β}
    (alike : signature.Alike R other) (same : signature.names = other.names)
    (compilable : signature.isCompilable = true) {tuple : List α → α} {otherTuple : List β → β}
    {noKeywords : α} {otherNoKeywords : β} {args : List α} {others : List β}
    (related : List.Forall₂ R args others) :
    Option.Rel (List.Forall₂ fun entry other => entry.1 = other.1 ∧ R entry.2 other.2)
      (signature.bind? tuple noKeywords args) (other.bind? otherTuple otherNoKeywords others) := by
  simp only [Signature.isCompilable, Bool.and_eq_true, Option.isNone_iff_eq_none] at compilable
  obtain ⟨⟨no_rest, no_keywords⟩, -⟩ := compilable
  have bound_related : Option.Rel (List.Forall₂ (EntriesRelated R))
      (signature.bind? tuple noKeywords args) (other.bind? otherTuple otherNoKeywords others) :=
    alike.bind? (by simp [no_rest]) (by simp [no_keywords]) related
  refine optionRel_imp bound_related fun bound counterpart fits other_fits entries => ?_
  refine forall₂_of_entriesRelated entries ?_
  rw [Signature.bind?_names fits, Signature.bind?_names other_fits, same]

end Related

/-! ## Plain signatures -/

namespace Signature

variable {α β : Type}

/-- The signature with parameters of the given names, all taken by position and none left out. -/
def plain (names : List String) : Signature α :=
  { Signature.empty with positional := names.map fun name => { name, default? := none } }

@[simp]
theorem map_plain (change : α → β) (names : List String) :
    (plain names).map change = plain names := by
  simp [plain, empty, map, Parameter.map, Function.comp_def]

theorem isCompilable_plain (names : List String) :
    (plain names : Signature α).isCompilable = true := by
  simp [isCompilable, plain, empty, Parameter.hasDefault]

theorem bindParameters_plain {names : List String} {args : List α}
    (same_length : args.length = names.length) :
    bindParameters (plain names).positional args = some (names.zip args, []) := by
  induction names generalizing args with
  | nil =>
      obtain rfl := List.eq_nil_of_length_eq_zero same_length
      rfl
  | cons name names ih =>
      obtain ⟨arg, args, rfl⟩ := List.exists_cons_of_length_eq_add_one same_length
      have rest := ih (Nat.succ.inj same_length)
      simp only [plain, empty] at rest
      simp [plain, bindParameters, rest]

theorem bind?_plain (tuple : List α → α) (noKeywords : α) {names : List String} {args : List α}
    (same_length : args.length = names.length) :
    (plain names).bind? tuple noKeywords args = some (names.zip args) := by
  rw [bind?, bindParameters_plain same_length]
  simp [plain, empty, bindLeft, bindParameters]

end Signature

end Lambda
end Combinatory
