import ClassCode.Checker
import ClassCode.Proofs.ClassGraph.Acyclic
import ClassCode.Proofs.Search

/-!
# Implementations and instantiation

To look for the implementation of a class from an instantiation is to look for it from the class and
to put the type arguments in place afterwards.

One level up, this is how the supertypes of an instantiation are defined. Further up, the assignment
of the instantiation is carried out on types that have been substituted already, so the proof is a
simulation: along the whole search, the types that are met from a type and those that are met from
the type with an assignment carried out correspond to each other (`searchOrder_subst`). The
assignment of every instantiation on the way covers the supertypes of its class, which makes two
substitutions one.
-/

namespace ClassCode

variable {g : ClassGraph}

namespace ClassGraph

/-! ## Well-formed supertypes -/

/-- Whether a type is a class without type parameters, or an instantiation of a class with one type
argument for each of its type parameters. -/
def Instantiated (g : ClassGraph) : Ty → Prop
  | .cls d => (g.decl d).typeParams = []
  | .inst d args => (g.decl d).typeParams.length = args.length
  | _ => False

instance (g : ClassGraph) : DecidablePred g.Instantiated
  | .cls d => inferInstanceAs (Decidable ((g.decl d).typeParams = []))
  | .inst d args => inferInstanceAs (Decidable ((g.decl d).typeParams.length = args.length))
  | .builtin _ _ | .param _ | .boundedParam _ _ | .plain _ _ => inferInstanceAs (Decidable False)

/-- Whether every supertype that a class declares is instantiated, and mentions no type parameters
outside bounds but those of the class. -/
structure Scoped (g : ClassGraph) : Prop where
  instantiated : ∀ c, ∀ s ∈ (g.decl c).supertypes, g.Instantiated s
  params : ∀ c, ∀ s ∈ (g.decl c).supertypes, ∀ p ∈ s.params,
    (g.decl c).typeParams.any (· == p) = true

theorem Instantiated.isParam {t : Ty} (h : g.Instantiated t) : t.isParam = false := by
  cases t <;> first | rfl | cases h

theorem Scoped.firm (h : g.Scoped) : g.FirmSupertypes :=
  fun c s hs => (h.instantiated c s hs).isParam

/-- Substitution keeps the number of type arguments. -/
theorem Instantiated.subst {t : Ty} (h : g.Instantiated t) (m : Assignment) :
    g.Instantiated (t.subst m) := by
  cases t with
  | cls d => exact h
  | inst d args =>
    have hlength : (g.decl d).typeParams.length = args.length := h
    rw [Ty.subst, Instantiated, Ty.substAll_eq_map, List.length_map, hlength]
  | _ => cases h

/-! ## The assignment of an instantiation -/

/-- A class is instantiated with as many type arguments as it has type parameters. -/
theorem instantiate_eq_ok {c : ClassId} {args : List Ty} {t : Ty} :
    g.instantiate (.cls c) args = .ok t ↔
      (g.decl c).typeParams.length = args.length ∧ t = .inst c args := by
  rw [instantiate]
  split
  case isTrue hlength =>
    rw [Except.ok.injEq, eq_comm]
    exact (and_iff_right hlength).symm
  case isFalse hlength =>
    constructor
    · intro h
      cases h
    · intro h
      exact absurd h.1 hlength

/-- Carrying a substitution out on the type arguments is carrying it out on the assigned types. -/
theorem assignment_substAll (g : ClassGraph) (c : ClassId) (args : List Ty) (m : Assignment) :
    g.assignment c (Ty.substAll m args) =
      Keyed.mapValues (Ty.subst m) (g.assignment c args) := by
  have hzip : (g.decl c).typeParams.zip (Ty.substAll m args) =
      Keyed.mapValues (Ty.subst m) ((g.decl c).typeParams.zip args) := by
    rw [Ty.substAll_eq_map, List.zip_map_right]
    rfl
  rw [assignment, assignment, hzip]
  exact Keyed.putAll_mapValues (Ty.subst m) [] _

/-- The assignment of an instantiation has a type for each type parameter of the class. -/
theorem isSome_get?_assignment {c : ClassId} {args : List Ty}
    (hlength : (g.decl c).typeParams.length = args.length) {p : Ty}
    (hp : (g.decl c).typeParams.any (· == p) = true) :
    (Keyed.get? (g.assignment c args) p).isSome = true := by
  obtain ⟨q, hq, hqp⟩ := List.any_eq_true.1 hp
  obtain ⟨n, hn, rfl⟩ := List.mem_iff_getElem.1 hq
  have hpair : ((g.decl c).typeParams[n], args[n]) ∈ (g.decl c).typeParams.zip args :=
    List.mem_iff_getElem.2 ⟨n, by simp [hn, ← hlength], by simp⟩
  rw [assignment, Assignment.ofPairs, Keyed.isSome_get?_putAll, Bool.or_eq_true]
  exact .inl (List.any_eq_true.2 ⟨_, hpair, hqp⟩)

/-! ## The search -/

theorem searchOrder_inst (g : ClassGraph) (c : ClassId) (args : List Ty) :
    g.searchOrder (.inst c args) =
      (g.searchOrder (.cls c)).map (Ty.subst (g.assignment c args)) := by
  simp only [searchOrder, superclass?, interfaces, mixins, List.map_append]
  cases (g.decl c).superclass <;> rfl

/-- What is searched above a type are its supertypes. -/
theorem mem_searchOrder {t s : Ty} : s ∈ g.searchOrder t ↔ s ∈ g.supertypes t := by
  simp only [searchOrder, supertypes, List.mem_append]
  tauto

/-- What is searched above an instantiated type is instantiated. -/
theorem Scoped.instantiated_of_mem_searchOrder (h : g.Scoped) {t s : Ty}
    (hs : s ∈ g.searchOrder t) : g.Instantiated s := by
  rw [mem_searchOrder] at hs
  cases t with
  | cls c => exact h.instantiated c s hs
  | inst c args =>
    rw [supertypes_inst] at hs
    obtain ⟨u, hu, rfl⟩ := List.mem_map.1 hs
    exact (h.instantiated c u hu).subst _
  | _ => cases hs

/-- What is searched above a type with an assignment carried out is what is searched above the type,
with the assignment carried out. -/
theorem Scoped.searchOrder_subst (h : g.Scoped) {t : Ty} (ht : g.Instantiated t)
    (m : Assignment) : g.searchOrder (t.subst m) = (g.searchOrder t).map (Ty.subst m) := by
  cases t with
  | cls c =>
    have hc : (g.decl c).typeParams = [] := ht
    -- a class without type parameters has supertypes without type parameters
    have hclosed : ∀ s ∈ g.searchOrder (.cls c), s.subst m = s := by
      intro s hs
      rw [mem_searchOrder] at hs
      refine Ty.subst_of_params_eq_nil m (List.eq_nil_iff_forall_not_mem.2 fun p hp => ?_)
      have hany := h.params c s hs p hp
      rw [hc] at hany
      cases hany
    rw [List.map_congr_left hclosed, List.map_id']
    rfl
  | inst c args =>
    have hargs : (g.decl c).typeParams.length = args.length := ht
    -- the arguments cover the supertypes of the class, so putting them in place and substituting
    -- afterwards is one substitution
    have hcovers : ∀ s ∈ g.searchOrder (.cls c), Ty.Covers (g.assignment c args) s := by
      intro s hs p hp
      rw [mem_searchOrder] at hs
      exact isSome_get?_assignment hargs (h.params c s hs p hp)
    rw [Ty.subst, searchOrder_inst, searchOrder_inst, assignment_substAll, List.map_map]
    exact List.map_congr_left fun s hs => (Ty.subst_subst m (hcovers s hs)).symm
  | _ => cases ht

/-- Putting type arguments in place does the same to the type arguments of a type. -/
theorem Instantiated.typeArgs_subst {t : Ty} (h : g.Instantiated t) (m : Assignment) :
    g.typeArgs (t.subst m) = (g.typeArgs t).map (Ty.subst m) := by
  cases t with
  | cls d =>
    have hd : (g.decl d).typeParams = [] := h
    change (g.decl d).typeParams = ((g.decl d).typeParams).map (Ty.subst m)
    rw [hd, List.map_nil]
  | inst d args => exact Ty.substAll_eq_map m args
  | _ => cases h

end ClassGraph

namespace Checker

/-- A checker does not see a substitution. -/
theorem isExactly_subst (k : Checker) {t : Ty} (h : t.isParam = false) (m : Assignment) :
    k.isExactly (t.subst m) = k.isExactly t := by
  rw [isExactly, isExactly, Ty.definition?_subst h]

/-- A checker does not match another class than its own. -/
theorem isExactly_cls_of_ne {k : Checker} {c : ClassId} (h : k.definition ≠ c) :
    k.isExactly (.cls c) = false := by
  simpa [isExactly, Ty.definition?] using Ne.symm h

/-- The search from a type with an assignment carried out finds what the search from the type finds,
with the assignment carried out. -/
theorem implementation?_subst (h : g.Scoped) (k : Checker) (limit : ℕ) {t : Ty}
    (ht : g.Instantiated t) (m : Assignment) :
    k.implementation? g limit (t.subst m) =
      (k.implementation? g limit t).map (Option.map (Ty.subst m)) := by
  induction limit generalizing t with
  | zero => rfl
  | succ limit ih =>
    rw [implementation?, implementation?, k.isExactly_subst ht.isParam]
    by_cases hk : k.isExactly t = true
    · rw [if_pos hk, if_pos hk]
      rfl
    · rw [if_neg hk, if_neg hk, h.searchOrder_subst ht]
      exact Search.first?_map _ _ fun s hs => ih (h.instantiated_of_mem_searchOrder hs)

/-- The search from an instantiation of another class finds what the search from that class finds,
with the type arguments put in place. -/
theorem implementation?_inst (h : g.Scoped) {k : Checker} {c : ClassId} (hk : k.definition ≠ c)
    (args : List Ty) (limit : ℕ) :
    k.implementation? g limit (.inst c args) =
      (k.implementation? g limit (.cls c)).map (Option.map (Ty.subst (g.assignment c args))) := by
  cases limit with
  | zero => rfl
  | succ limit =>
    have hinst : k.isExactly (.inst c args) = false := isExactly_cls_of_ne hk
    -- the assignment does not cover the class itself, only what is above it
    rw [implementation?, implementation?, isExactly_cls_of_ne hk, hinst,
      ClassGraph.searchOrder_inst]
    exact Search.first?_map _ _ fun s hs =>
      implementation?_subst h k limit (h.instantiated_of_mem_searchOrder hs) _

/-- What is found above an instantiated type, or is that type, is instantiated. -/
theorem instantiated_of_implementation? (h : g.Scoped) {k : Checker} {limit : ℕ} {t r : Ty}
    (ht : g.Instantiated t) (hr : k.implementation? g limit t = some (some r)) :
    g.Instantiated r := by
  induction limit generalizing t with
  | zero => cases hr
  | succ limit ih =>
    rw [implementation?] at hr
    split at hr
    · cases hr
      exact ht
    · obtain ⟨s, hs, hr⟩ := Search.exists_of_first? hr
      exact ih (h.instantiated_of_mem_searchOrder hs) hr

/-- What is found above a class is instantiated, also when the class itself is generic. -/
theorem instantiated_of_implementation?_cls (h : g.Scoped) {k : Checker} {limit : ℕ} {c : ClassId}
    {r : Ty} (hk : k.definition ≠ c) (hr : k.implementation? g limit (.cls c) = some (some r)) :
    g.Instantiated r := by
  cases limit with
  | zero => cases hr
  | succ limit =>
    rw [implementation?, isExactly_cls_of_ne hk] at hr
    obtain ⟨s, hs, hr⟩ := Search.exists_of_first? hr
    exact instantiated_of_implementation? h (h.instantiated_of_mem_searchOrder hs) hr

/-- If all ways up come to an end, so does the search. -/
theorem exists_limit_implementation? (hgrounded : g.Grounded) (k : Checker) (t : Ty) :
    ∃ n, ∀ limit, n ≤ limit → (k.implementation? g limit t).isSome = true := by
  induction t using hgrounded.induction with
  | _ t ih =>
    obtain ⟨n, hn⟩ := Search.exists_limit _ fun s hs =>
      ih s (ClassGraph.mem_searchOrder.1 hs)
    refine ⟨n + 1, fun limit hlimit => ?_⟩
    obtain ⟨limit, rfl⟩ : ∃ l, limit = l + 1 := ⟨limit - 1, by omega⟩
    rw [implementation?]
    split
    · rfl
    · exact Search.isSome_first? fun s hs => hn limit (by omega) s hs

/-- Looking for an implementation commutes with instantiation: the implementation that a class
inherits, and its type arguments, have the type arguments of the instantiation put in place when the
search starts from the instantiation. Both searches end in an acyclic graph, within the same
limit. -/
theorem implementation?_instantiate (hacyclic : g.Acyclic) (hscoped : g.Scoped) {c : ClassId}
    {args : List Ty} {t : Ty} {m : Assignment} (ht : g.instantiate (.cls c) args = .ok t)
    (hm : g.assignments t = .ok m) {k : Checker} (hk : k.definition ≠ c) :
    (∀ limit,
      k.implementation? g limit t =
        (k.implementation? g limit (.cls c)).map (Option.map (Ty.subst m)) ∧
      k.typeArgumentsOf g limit t =
        (k.typeArgumentsOf g limit (.cls c)).map (Option.map (List.map (Ty.subst m)))) ∧
    ∃ n, ∀ limit, n ≤ limit → (k.implementation? g limit (.cls c)).isSome = true := by
  obtain rfl : Ty.inst c args = t := by
    rw [ClassGraph.instantiate] at ht
    split at ht
    · cases ht
      rfl
    · cases ht
  obtain rfl : g.assignment c args = m := by
    rw [ClassGraph.assignments] at hm
    cases hm
    rfl
  have hgrounded := hacyclic.supertypes_wellFounded hscoped.firm
  refine ⟨fun limit => ?_, exists_limit_implementation? hgrounded k _⟩
  have himpl := implementation?_inst hscoped hk args limit
  refine ⟨himpl, ?_⟩
  rw [typeArgumentsOf, typeArgumentsOf, himpl]
  cases hfound : k.implementation? g limit (.cls c) with
  | none => rfl
  | some found =>
    cases found with
    | none => rfl
    | some r =>
      have hr := instantiated_of_implementation?_cls hscoped hk hfound
      simp only [Option.map_some, hr.typeArgs_subst]

/-- Three generic classes that all call their type parameter `T`: `Ser<T>`, then
`Box<T> implements Ser<T>`, then `Wrapper<T extends num> extends Box<Ser<T>>`. -/
def wrapperGraph : ClassGraph :=
  let object : Option Ty := some (.cls ClassGraph.rootId)
  let bounded : Ty := .boundedParam "T" (.builtin .num "num")
  ⟨#[ClassGraph.rootDecl "Object",
    { ClassDecl.unknown with name := "Ser", typeParams := [.param "T"], superclass := object },
    { ClassDecl.unknown with
      name := "Box", typeParams := [.param "T"], superclass := object,
      interfaces := [.inst 1 [.param "T"]] },
    { ClassDecl.unknown with
      name := "Wrapper", typeParams := [bounded],
      superclass := some (.inst 2 [.inst 1 [bounded]]) }], #[]⟩

/-- `Wrapper<Ser<T>>` implements `Ser<Ser<Ser<T>>>`, since `Wrapper<T>` implements
`Ser<Ser<T>>`. -/
theorem implementation?_wrapper :
    ((wrapperGraph.Acyclic ∧ wrapperGraph.Scoped) ∧
      wrapperGraph.instantiate (.cls 3) [.inst 1 [.param "T"]] =
        .ok (.inst 3 [.inst 1 [.param "T"]])) ∧
    (⟨1⟩ : Checker).implementation? wrapperGraph 3 (.inst 3 [.inst 1 [.param "T"]]) =
      some (some (.inst 1 [.inst 1 [.inst 1 [.param "T"]]])) := by
  have hacyclic : wrapperGraph.Acyclic := ClassGraph.acyclic_of_declared_before (by decide)
  have hscoped : wrapperGraph.Scoped :=
    ⟨ClassGraph.forall_supertypes (by decide), ClassGraph.forall_supertypes (by decide)⟩
  have ht : wrapperGraph.instantiate (.cls 3) [.inst 1 [.param "T"]] =
      .ok (.inst 3 [.inst 1 [.param "T"]]) := rfl
  refine ⟨⟨⟨hacyclic, hscoped⟩, ht⟩, ?_⟩
  rw [((implementation?_instantiate hacyclic hscoped ht rfl (by decide)).1 3).1]
  rfl

end Checker

end ClassCode
