import ClassCode.ClassGraph
import ClassCode.Proofs.Ty.Substitution
import Mathlib.Logic.Relation
import Mathlib.Order.WellFounded
import Mathlib.Data.Fintype.EquivFin

/-!
# Acyclic inheritance

A class extends the classes that its declared supertypes refer to. When no class extends itself over
any number of steps, inheritance is well-founded, for classes (`Acyclic.wellFounded`) and for types,
whose supertypes are those of their classes with type arguments put in place
(`Acyclic.supertypes_wellFounded`). The latter needs that no class declares a type parameter as a
supertype, since that could come to stand for any class.
-/

namespace ClassCode.ClassGraph

variable {g : ClassGraph}

open Relation

/-! ## Classes -/

/-- Whether a class declares a supertype that refers to another class. -/
def Extends (g : ClassGraph) (c d : ClassId) : Prop :=
  ∃ s ∈ (g.decl c).supertypes, s.definition? = some d

/-- Whether a class is a proper ancestor of another: `g.Inherits c d` says that `c` inherits from
`d`, over one step or more. -/
def Inherits (g : ClassGraph) : ClassId → ClassId → Prop := TransGen g.Extends

/-- Whether no class inherits from itself. -/
def Acyclic (g : ClassGraph) : Prop := ∀ c, ¬ g.Inherits c c

/-- A place that the graph does not have has no declaration. -/
theorem decl_of_size_le {c : ClassId} (h : g.classes.size ≤ c) :
    g.decl c = ClassDecl.unknown := by
  rw [decl, Array.getElem?_eq_none h]
  rfl

/-- A place that the graph does not have extends nothing. -/
theorem Extends.lt_size {c d : ClassId} (h : g.Extends c d) : c < g.classes.size := by
  by_contra hc
  obtain ⟨s, hs, -⟩ := h
  rw [decl_of_size_le (Nat.le_of_not_lt hc)] at hs
  cases hs

/-- What holds for the declared supertypes of all places in the graph holds for all declared
supertypes. -/
theorem forall_supertypes {p : ClassId → Ty → Prop}
    (h : ∀ c < g.classes.size, ∀ s ∈ (g.decl c).supertypes, p c s) :
    ∀ c, ∀ s ∈ (g.decl c).supertypes, p c s := by
  intro c s hs
  by_cases hc : c < g.classes.size
  · exact h c hc s hs
  · rw [decl_of_size_le (Nat.le_of_not_lt hc)] at hs
    cases hs

/-- A graph in which classes only extend classes that were declared before them is acyclic. -/
theorem acyclic_of_declared_before
    (h : ∀ c < g.classes.size, ∀ s ∈ (g.decl c).supertypes,
      (s.definition?.all fun d => d < c) = true) : g.Acyclic := by
  have hstep : ∀ c d, g.Extends c d → d < c := by
    rintro c d ⟨s, hs, hd⟩
    have hall := forall_supertypes h c s hs
    rw [hd] at hall
    simpa using hall
  have hrun : ∀ c d, g.Inherits c d → d < c := by
    intro c d hcd
    induction hcd with
    | single hcd => exact hstep _ _ hcd
    | tail _ hde ih => exact Nat.lt_trans (hstep _ _ hde) ih
  exact fun c hc => Nat.lt_irrefl c (hrun c c hc)

/-- In an acyclic graph one can do induction on the way up from a class. -/
theorem Acyclic.wellFounded (h : g.Acyclic) : WellFounded fun d c => g.Extends c d := by
  -- the classes of the graph are finitely many, and any other class extends nothing
  let above (i j : Fin g.classes.size) : Prop := g.Inherits j i
  have : IsTrans _ above := ⟨fun i j k hij hjk => TransGen.trans hjk hij⟩
  have : Std.Irrefl above := ⟨fun i hi => h i hi⟩
  have hwf : WellFounded above := Finite.wellFounded_of_trans_of_irrefl above
  refine ⟨fun c => Acc.intro c fun d hcd => ?_⟩
  have hacc : ∀ i : Fin g.classes.size, Acc (fun d c => g.Extends c d) i.1 := by
    intro i
    induction i using hwf.induction with
    | _ i ih =>
      refine Acc.intro i.1 fun d hd => ?_
      by_cases hlt : d < g.classes.size
      · exact ih ⟨d, hlt⟩ (TransGen.single hd)
      · exact Acc.intro d fun e he => absurd he.lt_size hlt
  by_cases hlt : d < g.classes.size
  · exact hacc ⟨d, hlt⟩
  · exact Acc.intro d fun e he => absurd he.lt_size hlt

/-! ## Types -/

/-- Whether no class declares a type parameter as a supertype. -/
def FirmSupertypes (g : ClassGraph) : Prop :=
  ∀ c, ∀ s ∈ (g.decl c).supertypes, s.isParam = false

/-- A class that declares classes and instantiations as supertypes declares no type parameters. -/
theorem firmSupertypes_of_isClass (h : ∀ c, ∀ s ∈ (g.decl c).supertypes, s.isClass = true) :
    g.FirmSupertypes := by
  intro c s hs
  have hclass := h c s hs
  cases s <;> first | rfl | cases hclass

/-- The supertypes of a class are the declared ones. -/
theorem supertypes_cls (g : ClassGraph) (c : ClassId) :
    g.supertypes (.cls c) = (g.decl c).supertypes := rfl

/-- The supertypes of an instantiation are the declared ones with the arguments put in place. -/
theorem supertypes_inst (g : ClassGraph) (c : ClassId) (args : List Ty) :
    g.supertypes (.inst c args) =
      (g.decl c).supertypes.map (Ty.subst (g.assignment c args)) := by
  simp only [supertypes, superclass?, interfaces, mixins, ClassDecl.supertypes, List.map_append]
  cases (g.decl c).superclass <;> rfl

/-- A type that refers to no class has no supertypes. -/
theorem supertypes_of_definition?_eq_none {t : Ty} (h : t.definition? = none) :
    g.supertypes t = [] := by
  cases t <;> first | rfl | cases h

/-- The classes that the supertypes of a type refer to are those that its class extends. -/
theorem exists_supertype_iff (hfirm : g.FirmSupertypes) {t : Ty} {c : ClassId}
    (ht : t.definition? = some c) (d : ClassId) :
    (∃ s ∈ g.supertypes t, s.definition? = some d) ↔ g.Extends c d := by
  cases t with
  | cls c' =>
    cases ht
    rw [supertypes_cls]
    rfl
  | inst c' args =>
    cases ht
    rw [supertypes_inst, Extends]
    constructor
    · rintro ⟨s, hs, hd⟩
      obtain ⟨u, hu, rfl⟩ := List.mem_map.1 hs
      exact ⟨u, hu, by rwa [Ty.definition?_subst (hfirm c u hu)] at hd⟩
    · rintro ⟨u, hu, hd⟩
      refine ⟨_, List.mem_map_of_mem hu, ?_⟩
      rwa [Ty.definition?_subst (hfirm c u hu)]
  | _ => cases ht

/-- Whether every way up from a type comes to an end. No type is above itself then, not even by way
of type arguments. -/
abbrev Grounded (g : ClassGraph) : Prop := WellFounded fun s t => s ∈ g.supertypes t

/-- In an acyclic graph one can do induction on the way up from a type. -/
theorem Acyclic.supertypes_wellFounded (h : g.Acyclic) (hfirm : g.FirmSupertypes) :
    g.Grounded := by
  have hnone : ∀ t : Ty, t.definition? = none → Acc (fun s t => s ∈ g.supertypes t) t := by
    intro t ht
    refine Acc.intro t fun s hs => ?_
    rw [supertypes_of_definition?_eq_none ht] at hs
    cases hs
  have hsome : ∀ c, ∀ t : Ty, t.definition? = some c →
      Acc (fun s t => s ∈ g.supertypes t) t := by
    intro c
    induction c using h.wellFounded.induction with
    | _ c ih =>
      intro t ht
      refine Acc.intro t fun s hs => ?_
      cases hd : s.definition? with
      | none => exact hnone s hd
      | some d => exact ih d ((exists_supertype_iff hfirm ht d).1 ⟨s, hs, hd⟩) s hd
  refine ⟨fun t => ?_⟩
  cases hc : t.definition? with
  | none => exact hnone t hc
  | some c => exact hsome c t hc

/-- Unless a class declares a type parameter as a supertype, ways up from types come to an end
exactly if no class inherits from itself. -/
theorem grounded_iff_acyclic (hfirm : g.FirmSupertypes) : g.Grounded ↔ g.Acyclic := by
  refine ⟨fun hgrounded c hc => ?_, fun h => h.supertypes_wellFounded hfirm⟩
  have hup : ∀ t : Ty, ∀ d, t.definition? = some d → ¬ g.Inherits d d := by
    intro t
    induction t using hgrounded.induction with
    | _ t ih =>
      intro d hd hcircle
      obtain ⟨e, hde, hed⟩ := TransGen.head'_iff.1 hcircle
      -- the circle goes on from a supertype that refers to the next class on it
      obtain ⟨s, hs, he⟩ := (exists_supertype_iff hfirm hd e).2 hde
      exact ih s hs e he (TransGen.tail' hed hde)
  exact hup (.cls c) c rfl hc

end ClassCode.ClassGraph
