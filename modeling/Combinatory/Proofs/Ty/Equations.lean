import Combinatory.Proofs.Ty.MostGeneral
import Combinatory.Proofs.Ty.Scheme

/-!
# Several equations

Equations are solved one after another, each on top of what has been found. In which order that is
done, and which side of an equation stands first, changes the bindings that are made, but not which
assignments are solutions. Two substitutions without cycles that have the same solutions differ by
the names of variables only, so an order does not matter to what types resolve to, up to names.
-/

namespace Combinatory
namespace Subst

/-! ## Solving equations in turn -/

/-- Solve equations in turn, each given by its two sides. -/
def unifyAll (subst : Subst) (equations : List (Ty × Ty)) : Except UnificationFailure Subst :=
  equations.foldlM (fun found equation => found.unify equation.1 equation.2) subst

/-- The assignment makes the sides of every equation equal. -/
def Solves (solution : String → Ty) (equations : List (Ty × Ty)) : Prop :=
  ∀ equation ∈ equations, equation.1.bind solution = equation.2.bind solution

section

variable {subst after : Subst} {equations others : List (Ty × Ty)} {solution : String → Ty}

theorem unifyAll_cons_ok_iff {equation : Ty × Ty} :
    subst.unifyAll (equation :: equations) = .ok after ↔
      ∃ middle, subst.unify equation.1 equation.2 = .ok middle ∧
        middle.unifyAll equations = .ok after := by
  simp only [unifyAll, List.foldlM_cons]
  cases subst.unify equation.1 equation.2 with
  | error failure => simp [bind, Except.bind]
  | ok middle => simp [bind, Except.bind]

theorem solves_cons {equation : Ty × Ty} :
    Solves solution (equation :: equations) ↔
      equation.1.bind solution = equation.2.bind solution ∧ Solves solution equations :=
  List.forall_mem_cons

theorem Acyclic.unifyAll_extends (acyclic : subst.Acyclic)
    (ok : subst.unifyAll equations = .ok after) : after.Acyclic ∧ subst.Extends after := by
  induction equations generalizing subst with
  | nil =>
      obtain rfl : subst = after := Except.ok.inj ok
      exact ⟨acyclic, .refl subst⟩
  | cons equation equations ih =>
      obtain ⟨middle, solved, rest⟩ := unifyAll_cons_ok_iff.mp ok
      obtain ⟨middle_acyclic, first, -⟩ := acyclic.unify_sound solved
      obtain ⟨after_acyclic, second⟩ := ih middle_acyclic rest
      exact ⟨after_acyclic, first.trans second⟩

/-- The solutions of what is found are the solutions of all equations. -/
theorem Acyclic.solvedBy_unifyAll_iff (acyclic : subst.Acyclic)
    (ok : subst.unifyAll equations = .ok after) :
    after.SolvedBy solution ↔ subst.SolvedBy solution ∧ Solves solution equations := by
  induction equations generalizing subst with
  | nil =>
      obtain rfl : subst = after := Except.ok.inj ok
      simp [Solves]
  | cons equation equations ih =>
      obtain ⟨middle, solved, rest⟩ := unifyAll_cons_ok_iff.mp ok
      obtain ⟨middle_acyclic, first, equal⟩ := acyclic.unify_sound solved
      rw [ih middle_acyclic rest, solves_cons, ← and_assoc]
      refine and_congr_left fun _ => ⟨fun middle_solved => ?_, ?_⟩
      · refine ⟨first.solvedBy middle_solved, ?_⟩
        rw [← middle_solved.bind_resolve middle_acyclic, equal,
          middle_solved.bind_resolve middle_acyclic]
      · rintro ⟨subst_solved, sides_equal⟩
        obtain ⟨found, found_eq, found_solved⟩ := acyclic.unify_complete subst_solved sides_equal
        obtain rfl : middle = found := Except.ok.inj (solved.symm.trans found_eq)
        exact found_solved

/-- Equations are solved exactly if they have a solution in common. -/
theorem Acyclic.unifyAll_ok_iff (acyclic : subst.Acyclic) :
    (∃ after, subst.unifyAll equations = .ok after) ↔
      ∃ solution, subst.SolvedBy solution ∧ Solves solution equations := by
  constructor
  · rintro ⟨after, ok⟩
    obtain ⟨after_acyclic, -⟩ := acyclic.unifyAll_extends ok
    exact ⟨_, (acyclic.solvedBy_unifyAll_iff ok).mp after_acyclic.solvedBy_resolve⟩
  · rintro ⟨solution, solved, solves⟩
    induction equations generalizing subst with
    | nil => exact ⟨subst, rfl⟩
    | cons equation equations ih =>
        obtain ⟨equal, others_solved⟩ := solves_cons.mp solves
        obtain ⟨middle, first, middle_solved⟩ := acyclic.unify_complete solved equal
        obtain ⟨after, rest⟩ := ih (acyclic.unify_sound first).1 middle_solved others_solved
        exact ⟨after, unifyAll_cons_ok_iff.mpr ⟨middle, first, rest⟩⟩

/-! ## Rearranging equations -/

/-- The same equation, perhaps with its sides swapped. -/
def SameSides (equation other : Ty × Ty) : Prop :=
  other = equation ∨ other = equation.swap

/-- The second list has the equations of the first one in some order, some of them with their sides
swapped. -/
def Rearranges (equations others : List (Ty × Ty)) : Prop :=
  ∃ ordered, equations.Perm ordered ∧ List.Forall₂ SameSides ordered others

theorem solves_swapped_iff (same : List.Forall₂ SameSides equations others) :
    Solves solution equations ↔ Solves solution others := by
  induction same with
  | nil => rfl
  | cons sides _ ih =>
      rw [solves_cons, solves_cons, ih]
      rcases sides with rfl | rfl
      · rfl
      · exact and_congr_left fun _ => eq_comm

/-- Rearranging equations does not change their solutions. -/
theorem Rearranges.solves_iff (rearranges : Rearranges equations others) :
    Solves solution equations ↔ Solves solution others := by
  obtain ⟨ordered, permutation, swapped⟩ := rearranges
  rw [← solves_swapped_iff swapped]
  exact ⟨fun solves equation member => solves equation (permutation.mem_iff.mpr member),
    fun solves equation member => solves equation (permutation.mem_iff.mp member)⟩

end

/-! ## The same solutions under other names -/

section

variable {first second : Subst} {name : String}

/-- The two substitutions have the same solutions. -/
def SameSolutions (first second : Subst) : Prop :=
  ∀ solution, first.SolvedBy solution ↔ second.SolvedBy solution

theorem SameSolutions.symm (same : first.SameSolutions second) : second.SameSolutions first :=
  fun solution => (same solution).symm

/-- Resolving by one substitution may be preceded by resolving by the other one. -/
theorem SameSolutions.resolve_resolve (same : first.SameSolutions second) (acyclic : first.Acyclic)
    (second_acyclic : second.Acyclic) (type : Ty) :
    first.resolve (second.resolve type) = first.resolve type :=
  ((same _).mp acyclic.solvedBy_resolve).bind_resolve second_acyclic type

/-- The variable that stands at the end of the bindings of a variable, if that is where they end. -/
def lastVar (subst : Subst) (name : String) : String :=
  match subst.resolve (.var name) with
  | .var other => other
  | .arrow _ _ => name

theorem lastVar_free (free : first.get? name = none) : first.lastVar name = name := by
  simp [lastVar, resolve_free free]

/-- A variable that one substitution leaves unbound stands for a variable in the other one, which
the other one leaves unbound and which stands for it in the first one. -/
theorem SameSolutions.lastVar (same : first.SameSolutions second) (first_acyclic : first.Acyclic)
    (second_acyclic : second.Acyclic) (free : second.get? name = none) :
    first.resolve (.var name) = .var (first.lastVar name) ∧
      first.get? (first.lastVar name) = none ∧
        second.resolve (.var (first.lastVar name)) = .var name := by
  have returned : second.resolve (first.resolve (.var name)) = .var name := by
    rw [same.symm.resolve_resolve second_acyclic first_acyclic, resolve_free free]
  cases resolved : first.resolve (.var name) with
  | arrow dom cod => simp [resolved] at returned
  | var other =>
      have last_eq : first.lastVar name = other := by simp [Subst.lastVar, resolved]
      have occurs : (first.resolve (.var name)).mentions other = true := by
        simp [resolved, Ty.mentions]
      rw [last_eq]
      rw [resolved] at returned
      exact ⟨rfl, first_acyclic.get?_of_mentions_resolve _ occurs, returned⟩

/-- The name under which the first substitution leaves unbound what the second one leaves unbound
under the given name, and the other way round. -/
def exchange (first second : Subst) (name : String) : String :=
  if second.get? name = none then first.lastVar name
  else if first.get? name = none then second.lastVar name
  else name

theorem exchange_free (free : second.get? name = none) :
    first.exchange second name = first.lastVar name := if_pos free

theorem exchange_other_free (free : first.get? name = none) :
    first.exchange second name = second.lastVar name := by
  by_cases second_free : second.get? name = none
  · rw [exchange_free second_free, lastVar_free free, lastVar_free second_free]
  · rw [exchange, if_neg second_free, if_pos free]

/-- Names are exchanged in pairs. -/
theorem SameSolutions.exchange_involutive (same : first.SameSolutions second)
    (first_acyclic : first.Acyclic) (second_acyclic : second.Acyclic) :
    Function.Involutive (first.exchange second) := by
  intro name
  by_cases second_free : second.get? name = none
  · obtain ⟨-, last_free, returned⟩ := same.lastVar first_acyclic second_acyclic second_free
    rw [exchange_free second_free, exchange_other_free last_free, Subst.lastVar, returned]
  · by_cases first_free : first.get? name = none
    · obtain ⟨-, last_free, returned⟩ := same.symm.lastVar second_acyclic first_acyclic first_free
      rw [exchange_other_free first_free, exchange_free last_free, Subst.lastVar, returned]
    · have kept : first.exchange second name = name := by
        rw [exchange, if_neg second_free, if_neg first_free]
      rw [kept, kept]

/-- What types resolve to differs by the exchange of names. -/
theorem SameSolutions.resolve_eq (same : first.SameSolutions second) (first_acyclic : first.Acyclic)
    (second_acyclic : second.Acyclic) (type : Ty) :
    first.resolve type = (second.resolve type).mapVars (first.exchange second) := by
  rw [← same.resolve_resolve first_acyclic second_acyclic type]
  apply Ty.bind_congr
  intro name occurs
  have free := second_acyclic.get?_of_mentions_resolve type occurs
  rw [exchange_free free]
  exact (same.lastVar first_acyclic second_acyclic free).1

end

/--
Rearranged equations are solved on top of a substitution without cycles exactly if the equations are
solved on top of it. What is found then differs by one renaming of the variables, so every type
resolves to the same canonical form.
-/
theorem unifyAll_of_rearranges {subst : Subst} {equations others : List (Ty × Ty)}
    (acyclic : subst.Acyclic) (rearranges : Rearranges equations others) :
    ((∃ first, subst.unifyAll equations = .ok first) ↔
        ∃ second, subst.unifyAll others = .ok second) ∧
      ∀ first second, subst.unifyAll equations = .ok first → subst.unifyAll others = .ok second →
        ∃ names : Equiv.Perm String,
          (∀ type, first.resolve type = (second.resolve type).mapVars names) ∧
            ∀ goal, (first.resolve goal).canonicalize = (second.resolve goal).canonicalize := by
  constructor
  · rw [acyclic.unifyAll_ok_iff, acyclic.unifyAll_ok_iff]
    simp only [rearranges.solves_iff]
  · intro first second first_ok second_ok
    obtain ⟨first_acyclic, -⟩ := acyclic.unifyAll_extends first_ok
    obtain ⟨second_acyclic, -⟩ := acyclic.unifyAll_extends second_ok
    have same : first.SameSolutions second := by
      intro solution
      rw [acyclic.solvedBy_unifyAll_iff first_ok, acyclic.solvedBy_unifyAll_iff second_ok,
        rearranges.solves_iff]
    let names := (same.exchange_involutive first_acyclic second_acyclic).toPerm
    have renamed (type : Ty) : first.resolve type = (second.resolve type).mapVars names :=
      same.resolve_eq first_acyclic second_acyclic type
    refine ⟨names, renamed, fun goal => ?_⟩
    rw [renamed goal, Ty.canonicalize_mapVars names.injective]

/-- Three equations between variables and one with a function type, on top of a binding: solved from
the other end, with sides swapped, they bind other variables. -/
theorem unifyAll_of_reversed_chain :
    let subst : Subst := ⟨[("f", .arrow (.var "a") (.var "d"))]⟩
    let equations : List (Ty × Ty) :=
      [(.var "a", .var "b"), (.var "b", .var "c"), (.var "f", .arrow (.var "d") (.var "e"))]
    let others : List (Ty × Ty) :=
      [(.arrow (.var "d") (.var "e"), .var "f"), (.var "b", .var "c"), (.var "b", .var "a")]
    subst.Acyclic ∧ Rearranges equations others ∧
      ∃ first second, subst.unifyAll equations = .ok first ∧ subst.unifyAll others = .ok second ∧
        first ≠ second ∧
          ∃ names : Equiv.Perm String,
            (∀ type, first.resolve type = (second.resolve type).mapVars names) ∧
              ∀ goal, (first.resolve goal).canonicalize = (second.resolve goal).canonicalize := by
  intro subst equations others
  have acyclic : subst.Acyclic :=
    @Acyclic.insert empty "f" (.arrow (.var "a") (.var "d")) acyclic_empty rfl (by decide)
  have rearranges : Rearranges equations others :=
    ⟨equations.reverse, (List.reverse_perm equations).symm,
      .cons (.inr rfl) (.cons (.inl rfl) (.cons (.inr rfl) .nil))⟩
  obtain ⟨first, first_ok⟩ : ∃ first, subst.unifyAll equations = .ok first := ⟨_, rfl⟩
  obtain ⟨second, second_ok⟩ : ∃ second, subst.unifyAll others = .ok second := ⟨_, rfl⟩
  refine ⟨acyclic, rearranges, first, second, first_ok, second_ok, ?_,
    (unifyAll_of_rearranges acyclic rearranges).2 first second first_ok second_ok⟩
  rintro rfl
  have differ : subst.unifyAll equations ≠ subst.unifyAll others := by decide
  exact differ (first_ok.trans second_ok.symm)

end Subst
end Combinatory
