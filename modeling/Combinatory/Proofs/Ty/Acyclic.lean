import Combinatory.Ty.Subst
import Mathlib.Data.Finset.Card
import Mathlib.Data.Finset.Dedup
import Mathlib.Logic.Relation

/-!
# Substitutions without cycles

A variable leads to the variables of the type that it is bound to. In a substitution without cycles
no variable leads back to itself, so every chain of bindings passes each bound variable at most once
and the bounds on `walk` and `resolve` are never met. Both therefore obey the equations of an
unbounded chase, and types can be treated by induction along their bindings.
-/

namespace Combinatory
namespace Subst

variable {subst : Subst} {name other : String} {type : Ty}

/-! ## Chains of bindings -/

/-- The second variable occurs in the type that the first one is bound to. -/
def Leads (subst : Subst) (name other : String) : Prop :=
  ∃ type, subst.get? name = some type ∧ type.mentions other = true

/-- A chain of bindings goes from the first variable to the second one. -/
abbrev Reaches (subst : Subst) : String → String → Prop :=
  Relation.ReflTransGen subst.Leads

/-- No variable leads back to itself. -/
def Acyclic (subst : Subst) : Prop :=
  ∀ name, ¬ Relation.TransGen subst.Leads name name

theorem leads_of_get? (bound : subst.get? name = some type) (occurs : type.mentions other = true) :
    subst.Leads name other :=
  ⟨type, bound, occurs⟩

theorem leads_of_var (bound : subst.get? name = some (.var other)) : subst.Leads name other :=
  leads_of_get? bound (by simp [Ty.mentions])

/-- A measure that decreases along all bindings excludes cycles. -/
theorem acyclic_of_rank (rank : String → Nat)
    (decreasing : ∀ name other, subst.Leads name other → rank other < rank name) :
    subst.Acyclic := by
  have decreases : ∀ {name other}, Relation.TransGen subst.Leads name other →
      rank other < rank name := by
    intro name other chain
    induction chain with
    | single step => exact decreasing _ _ step
    | tail _ step ih => exact (decreasing _ _ step).trans ih
  intro name cycle
  exact (decreases cycle).false

theorem acyclic_empty : empty.Acyclic :=
  acyclic_of_rank (fun _ => 0) fun _ _ ⟨_, bound, _⟩ => by simp at bound

/-- The variables that have a binding. -/
def keys (subst : Subst) : List String :=
  subst.bindings.map Prod.fst

theorem mem_keys_iff : name ∈ subst.keys ↔ ∃ type, subst.get? name = some type := by
  obtain ⟨bindings⟩ := subst
  simp only [keys, get?]
  induction bindings with
  | nil => simp
  | cons binding bindings ih =>
      obtain ⟨key, value⟩ := binding
      by_cases same : name = key
      · simp [same]
      · have name_ne : (name == key) = false := by simp [same]
        simp [List.lookup_cons, name_ne, same, ih]

open Classical in
/-- The bound variables on the chains of bindings from a variable, itself included. -/
noncomputable def passed (subst : Subst) (name : String) : Finset String :=
  subst.keys.toFinset.filter (subst.Reaches name)

/-- The number of bound variables on the chains of bindings from a variable. -/
noncomputable def rank (subst : Subst) (name : String) : Nat :=
  (subst.passed name).card

theorem mem_passed : other ∈ subst.passed name ↔ other ∈ subst.keys ∧ subst.Reaches name other := by
  simp [passed]

theorem rank_le_size (subst : Subst) (name : String) : subst.rank name ≤ subst.size := by
  calc
    subst.rank name ≤ subst.keys.toFinset.card :=
      Finset.card_le_card fun _ member => List.mem_toFinset.mpr (mem_passed.mp member).1
    _ ≤ subst.keys.length := List.toFinset_card_le _
    _ = subst.size := by simp [keys, size]

theorem Acyclic.rank_lt (acyclic : subst.Acyclic) (step : subst.Leads name other) :
    subst.rank other < subst.rank name := by
  obtain ⟨type, bound, occurs⟩ := step
  apply Finset.card_lt_card
  rw [Finset.ssubset_iff_of_subset]
  · refine ⟨name, mem_passed.mpr ⟨mem_keys_iff.mpr ⟨type, bound⟩, .refl⟩, ?_⟩
    intro member
    exact acyclic name (.head' ⟨type, bound, occurs⟩ (mem_passed.mp member).2)
  · intro passedName member
    obtain ⟨key, chain⟩ := mem_passed.mp member
    exact mem_passed.mpr ⟨key, chain.head ⟨type, bound, occurs⟩⟩

theorem rank_pos (bound : subst.get? name = some type) : 0 < subst.rank name :=
  Finset.card_pos.mpr ⟨name, mem_passed.mpr ⟨mem_keys_iff.mpr ⟨type, bound⟩, .refl⟩⟩

/-- Types can be treated by induction along the bindings of their variables. -/
theorem Acyclic.induction (acyclic : subst.Acyclic) {motive : Ty → Prop}
    (free : ∀ name, subst.get? name = none → motive (.var name))
    (bound : ∀ name type, subst.get? name = some type → motive type → motive (.var name))
    (arrow : ∀ dom cod, motive dom → motive cod → motive (.arrow dom cod)) (type : Ty) :
    motive type := by
  have ranked : ∀ limit type, (∀ name, type.mentions name = true → subst.rank name < limit) →
      motive type := by
    intro limit
    induction limit with
    | zero =>
        intro type below
        induction type with
        | var name => exact absurd (below name (by simp [Ty.mentions])) (by omega)
        | arrow dom cod dom_ih cod_ih =>
            exact arrow dom cod
              (dom_ih fun name occurs => below name (by simp [Ty.mentions, occurs]))
              (cod_ih fun name occurs => below name (by simp [Ty.mentions, occurs]))
    | succ limit ih =>
        intro type below
        induction type with
        | var name =>
            cases value : subst.get? name with
            | none => exact free name value
            | some type =>
                apply bound name type value
                apply ih
                intro other occurs
                have lower := acyclic.rank_lt (leads_of_get? value occurs)
                have name_below := below name (by simp [Ty.mentions])
                omega
        | arrow dom cod dom_ih cod_ih =>
            exact arrow dom cod
              (dom_ih fun name occurs => below name (by simp [Ty.mentions, occurs]))
              (cod_ih fun name occurs => below name (by simp [Ty.mentions, occurs]))
  exact ranked (subst.size + 1) type fun name _ => Nat.lt_succ_of_le (subst.rank_le_size name)

/-! ## Walking and resolving -/

theorem resolveVar_of_rank_le (acyclic : subst.Acyclic) {depth more : Nat}
    (enough : subst.rank name ≤ depth) (le : depth ≤ more) :
    subst.resolveVar more name = subst.resolveVar depth name := by
  induction depth generalizing name more with
  | zero =>
      cases value : subst.get? name with
      | none => cases more <;> simp [resolveVar, value]
      | some type => exact absurd (rank_pos value) (by omega)
  | succ depth ih =>
      obtain ⟨more, rfl⟩ : ∃ rest, more = rest + 1 := ⟨more - 1, by omega⟩
      cases value : subst.get? name with
      | none => simp [resolveVar, value]
      | some type =>
          simp only [resolveVar, value]
          apply Ty.bind_congr
          intro other occurs
          have lower := acyclic.rank_lt (leads_of_get? value occurs)
          exact ih (by omega) (by omega)

@[simp]
theorem resolve_arrow (subst : Subst) (dom cod : Ty) :
    subst.resolve (.arrow dom cod) = .arrow (subst.resolve dom) (subst.resolve cod) := rfl

/-- An unbound variable stands for itself. -/
theorem resolve_free (free : subst.get? name = none) : subst.resolve (.var name) = .var name := by
  cases size : subst.size <;> simp [resolve, Ty.bind, resolveVar, size, free]

/-- A bound variable stands for what its type stands for. -/
theorem Acyclic.resolve_bound (acyclic : subst.Acyclic) (bound : subst.get? name = some type) :
    subst.resolve (.var name) = subst.resolve type := by
  have name_le := subst.rank_le_size name
  have name_pos := rank_pos bound
  obtain ⟨rest, size_eq⟩ : ∃ rest, subst.size = rest + 1 := ⟨subst.size - 1, by omega⟩
  simp only [resolve, Ty.bind, size_eq, resolveVar, bound]
  apply Ty.bind_congr
  intro other occurs
  have lower := acyclic.rank_lt (leads_of_get? bound occurs)
  have stable : subst.resolveVar (rest + 1) other = subst.resolveVar rest other :=
    resolveVar_of_rank_le acyclic (by omega) (by omega)
  rw [← stable, resolveVar]

theorem walkFor_of_rank_le (acyclic : subst.Acyclic) {steps more : Nat}
    (enough : subst.rank name ≤ steps) (le : steps ≤ more) :
    subst.walkFor more (.var name) = subst.walkFor steps (.var name) := by
  induction steps generalizing name more with
  | zero =>
      cases value : subst.get? name with
      | none => cases more <;> simp [walkFor, value]
      | some type => exact absurd (rank_pos value) (by omega)
  | succ steps ih =>
      obtain ⟨more, rfl⟩ : ∃ rest, more = rest + 1 := ⟨more - 1, by omega⟩
      cases value : subst.get? name with
      | none => simp [walkFor, value]
      | some type =>
          simp only [walkFor, value]
          cases type with
          | var other =>
              have lower := acyclic.rank_lt (leads_of_var value)
              exact ih (by omega) (by omega)
          | arrow dom cod => cases more <;> cases steps <;> rfl

@[simp]
theorem walk_arrow (subst : Subst) (dom cod : Ty) :
    subst.walk (.arrow dom cod) = .arrow dom cod := by
  cases size : subst.size <;> simp [walk, size, walkFor]

theorem walk_free (free : subst.get? name = none) : subst.walk (.var name) = .var name := by
  cases size : subst.size <;> simp [walk, size, walkFor, free]

theorem Acyclic.walk_bound (acyclic : subst.Acyclic) (bound : subst.get? name = some type) :
    subst.walk (.var name) = subst.walk type := by
  have name_le := subst.rank_le_size name
  have name_pos := rank_pos bound
  obtain ⟨rest, size_eq⟩ : ∃ rest, subst.size = rest + 1 := ⟨subst.size - 1, by omega⟩
  simp only [walk, size_eq, walkFor, bound]
  cases type with
  | var other =>
      have lower := acyclic.rank_lt (leads_of_var bound)
      exact (walkFor_of_rank_le acyclic (by omega) (by omega)).symm
  | arrow dom cod => cases rest <;> rfl

/-- A walk ends at a function type or at an unbound variable. -/
theorem Acyclic.walk_end (acyclic : subst.Acyclic) (type : Ty) :
    (∃ dom cod, subst.walk type = .arrow dom cod) ∨
      ∃ name, subst.walk type = .var name ∧ subst.get? name = none := by
  induction type using acyclic.induction with
  | free name free => exact .inr ⟨name, walk_free free, free⟩
  | bound name type bound ih => rwa [acyclic.walk_bound bound]
  | arrow dom cod => exact .inl ⟨dom, cod, walk_arrow ..⟩

/-- Walking does not change what a type stands for. -/
@[simp]
theorem Acyclic.resolve_walk (acyclic : subst.Acyclic) (type : Ty) :
    subst.resolve (subst.walk type) = subst.resolve type := by
  induction type using acyclic.induction with
  | free name free => rw [walk_free free]
  | bound name type bound ih => rw [acyclic.walk_bound bound, acyclic.resolve_bound bound, ih]
  | arrow dom cod => rw [walk_arrow]

/-- The variables of a resolved type are the unbound ones at the ends of chains of bindings. -/
theorem Acyclic.mentions_resolve (acyclic : subst.Acyclic) (type : Ty) :
    (subst.resolve type).mentions other = true ↔
      subst.get? other = none ∧ ∃ name, type.mentions name = true ∧ subst.Reaches name other := by
  induction type using acyclic.induction with
  | free name free =>
      rw [resolve_free free]
      simp only [Ty.mentions, beq_iff_eq, exists_eq_left']
      constructor
      · rintro rfl
        exact ⟨free, .refl⟩
      · rintro ⟨-, chain⟩
        obtain same | ⟨_, ⟨_, bound, _⟩, _⟩ := chain.cases_head
        · exact same
        · simp [free] at bound
  | bound name type bound ih =>
      rw [acyclic.resolve_bound bound, ih]
      simp only [Ty.mentions, beq_iff_eq, exists_eq_left']
      refine and_congr_right fun free => ⟨?_, ?_⟩
      · rintro ⟨first, occurs, chain⟩
        exact chain.head (leads_of_get? bound occurs)
      · intro chain
        obtain rfl | ⟨first, ⟨_, bound', occurs⟩, rest⟩ := chain.cases_head
        · simp [free] at bound
        · rw [bound] at bound'
          cases bound'
          exact ⟨first, occurs, rest⟩
  | arrow dom cod dom_ih cod_ih =>
      simp only [resolve_arrow, Ty.mentions, Bool.or_eq_true, dom_ih, cod_ih]
      grind

/-- No variable that is left in a resolved type is bound. -/
theorem Acyclic.get?_of_mentions_resolve (acyclic : subst.Acyclic) (type : Ty)
    (occurs : (subst.resolve type).mentions name = true) : subst.get? name = none :=
  ((acyclic.mentions_resolve type).mp occurs).1

/-- A type without bound variables stands for itself. -/
theorem resolve_eq_self
    (free : ∀ name, type.mentions name = true → subst.get? name = none) :
    subst.resolve type = type := by
  induction type with
  | var name => exact resolve_free (free name (by simp [Ty.mentions]))
  | arrow dom cod dom_ih cod_ih =>
      rw [resolve_arrow, dom_ih fun name occurs => free name (by simp [Ty.mentions, occurs]),
        cod_ih fun name occurs => free name (by simp [Ty.mentions, occurs])]

theorem Acyclic.resolve_resolve (acyclic : subst.Acyclic) (type : Ty) :
    subst.resolve (subst.resolve type) = subst.resolve type :=
  resolve_eq_self fun _ => acyclic.get?_of_mentions_resolve type

/-! ## New bindings -/

/-- Every binding of the first substitution is one of the second. -/
def Extends (before after : Subst) : Prop :=
  ∀ name type, before.get? name = some type → after.get? name = some type

theorem Extends.refl (subst : Subst) : subst.Extends subst :=
  fun _ _ bound => bound

theorem Extends.trans {first second third : Subst} (early : first.Extends second)
    (late : second.Extends third) : first.Extends third :=
  fun name type bound => late name type (early name type bound)

theorem extends_insert (free : subst.get? name = none) :
    subst.Extends (subst.insert name type) := by
  intro other value bound
  rw [get?_insert, if_neg, bound]
  rintro rfl
  simp [free] at bound

theorem Extends.get?_eq_none {before after : Subst} (extended : before.Extends after)
    (free : after.get? name = none) : before.get? name = none := by
  cases stored : before.get? name with
  | none => rfl
  | some type => cases (extended name type stored).symm.trans free

/-- Resolving in a larger substitution may be preceded by resolving in a smaller one. -/
theorem Extends.resolve_resolve {before after : Subst} (extended : before.Extends after)
    (before_acyclic : before.Acyclic) (after_acyclic : after.Acyclic) (type : Ty) :
    after.resolve (before.resolve type) = after.resolve type := by
  induction type using before_acyclic.induction with
  | free name free => rw [resolve_free free]
  | bound name type bound ih =>
      rw [before_acyclic.resolve_bound bound, ih,
        after_acyclic.resolve_bound (extended name type bound)]
  | arrow dom cod dom_ih cod_ih => simp [dom_ih, cod_ih]

/-- Binding an unbound variable to a type that does not lead to it makes no cycle. -/
theorem Acyclic.insert (acyclic : subst.Acyclic) (free : subst.get? name = none)
    (absent : (subst.resolve type).mentions name = false) : (subst.insert name type).Acyclic := by
  classical
  obtain ⟨bound, below⟩ : ∃ bound, ∀ other, type.mentions other = true → subst.rank other < bound :=
    ⟨subst.size + 1, fun other _ => Nat.lt_succ_of_le (subst.rank_le_size other)⟩
  -- Variables that lead to the new key are lifted above everything that its type leads to.
  apply acyclic_of_rank fun other =>
    if subst.Reaches other name then subst.rank other + bound else subst.rank other
  rintro first second ⟨value, stored, occurs⟩
  rcases get?_insert_eq_some stored with ⟨same, rfl⟩ | ⟨-, stored⟩
  · have second_below := below second occurs
    have no_return : ¬ subst.Reaches second name := by
      intro chain
      have returned : (subst.resolve type).mentions name = true :=
        (acyclic.mentions_resolve type).mpr ⟨free, second, occurs, chain⟩
      simp [absent] at returned
    have first_reaches : subst.Reaches first name := same ▸ .refl
    simp only [if_neg no_return, if_pos first_reaches]
    omega
  · have step := leads_of_get? stored occurs
    have lower := acyclic.rank_lt step
    by_cases chain : subst.Reaches second name
    · have first_reaches : subst.Reaches first name := chain.head step
      simp only [if_pos chain, if_pos first_reaches]
      omega
    · simp only [if_neg chain]
      split <;> omega

end Subst
end Combinatory
