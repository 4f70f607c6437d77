import ClassCode.Proofs.Implementation.Agreement
import ClassCode.Proofs.Supertypes.Finite
import Mathlib.Order.Defs.Unbundled

/-!
# Classes are ordered by inheritance

In an acyclic graph classes are partially ordered by what a checker says about assignability, and
what it says about proper ancestors is the strict part of that order. Type arguments do not matter:
an instantiation is answered as its class is, and stands for the same checker
(`isAssignableFrom_order`).

The answers are read off the ancestry of a type, in which type arguments have been put in place at
every level. They are those of inheritance among declarations all the same
(`settles_isSuperOf_decide`, `settles_isAssignableFrom_decide`), since no substitution changes the
class that a supertype refers to. For inheritance the laws of an order are those of a closure.
-/

namespace ClassCode

variable {g : ClassGraph}

open Relation

/-! ## Answers about types -/

namespace Checker

variable {t : Ty} {c : ClassId}

open scoped Classical in
/-- In an acyclic graph the checked class is found to be a proper ancestor of a type exactly if the
class of the type inherits from it. -/
theorem settles_isSuperOf_decide (hacyclic : g.Acyclic) (hfirm : g.FirmSupertypes) (k : Checker)
    (ht : t.definition? = some c) :
    Search.Settles (fun limit => k.isSuperOf g limit t)
      (decide (g.Inherits c k.definition)) := by
  obtain ⟨answer, ⟨n, hanswer⟩, hsettles⟩ :=
    (stable_isSuperOf k g t).exists_settles (exists_isSuperOf hacyclic hfirm k t)
  have heq : answer = decide (g.Inherits c k.definition) := by
    rw [Bool.eq_iff_iff, decide_eq_true_iff]
    exact isSuperOf_eq_some hacyclic hfirm ht hanswer
  exact heq ▸ hsettles

open scoped Classical in
/-- In an acyclic graph a type is found to be assignable to the checked class exactly if the class
of the type is the checked one or inherits from it. -/
theorem settles_isAssignableFrom_decide (hacyclic : g.Acyclic) (hfirm : g.FirmSupertypes)
    (k : Checker) (ht : t.definition? = some c) :
    Search.Settles (fun limit => k.isAssignableFrom g limit t)
      (decide (ReflTransGen g.Extends c k.definition)) := by
  obtain ⟨found, ⟨n, hfound⟩, -⟩ :=
    (g.stable_ancestry t).exists_settles (hacyclic.exists_ancestry hfirm t)
  have heq : found.any k.isExactly = decide (ReflTransGen g.Extends c k.definition) := by
    rw [Bool.eq_iff_iff, decide_eq_true_iff, List.any_eq_true,
      ← g.exists_mem_ancestry_iff hfirm hfound ht]
    simp only [isExactly_iff]
  exact heq ▸ k.settles_isAssignableFrom hfound

end Checker

/-! ## The order -/

namespace ClassGraph

/-- Whether values of the second class are found to be values of the first one. -/
def Assignable (g : ClassGraph) (a b : ClassId) : Prop :=
  Search.Settles (fun limit => Checker.isAssignableFrom ⟨a⟩ g limit (.cls b)) true

/-- Whether the first class is found to be a proper ancestor of the second one. -/
def Super (g : ClassGraph) (a b : ClassId) : Prop :=
  Search.Settles (fun limit => Checker.isSuperOf ⟨a⟩ g limit (.cls b)) true

variable {a b : ClassId}

theorem assignable_iff (hacyclic : g.Acyclic) (hfirm : g.FirmSupertypes) :
    g.Assignable a b ↔ ReflTransGen g.Extends b a := by
  classical
  have hanswer := Checker.settles_isAssignableFrom_decide hacyclic hfirm ⟨a⟩ (t := .cls b) rfl
  constructor
  · intro h
    exact of_decide_eq_true (hanswer.unique h)
  · intro h
    rwa [decide_eq_true h] at hanswer

theorem super_iff (hacyclic : g.Acyclic) (hfirm : g.FirmSupertypes) :
    g.Super a b ↔ g.Inherits b a := by
  classical
  have hanswer := Checker.settles_isSuperOf_decide hacyclic hfirm ⟨a⟩ (t := .cls b) rfl
  constructor
  · intro h
    exact of_decide_eq_true (hanswer.unique h)
  · intro h
    rwa [decide_eq_true h] at hanswer

/-- In an acyclic graph no two classes inherit from each other. -/
theorem Acyclic.antisymm (h : g.Acyclic) (hab : ReflTransGen g.Extends a b)
    (hba : ReflTransGen g.Extends b a) : a = b := by
  rcases reflTransGen_iff_eq_or_transGen.1 hab with heq | hinherits
  · exact heq.symm
  · exact absurd (hinherits.trans_left hba) (h a)

theorem isPartialOrder_assignable (hacyclic : g.Acyclic) (hfirm : g.FirmSupertypes) :
    IsPartialOrder ClassId g.Assignable := by
  have hiff {a b : ClassId} := g.assignable_iff hacyclic hfirm (a := a) (b := b)
  exact {
    refl := fun a => hiff.2 .refl
    trans := fun a b c hab hbc => hiff.2 ((hiff.1 hbc).trans (hiff.1 hab))
    antisymm := fun a b hab hba => hacyclic.antisymm (hiff.1 hba) (hiff.1 hab) }

/-- The proper ancestors of a class are the other classes to which it is assignable. -/
theorem super_iff_assignable (hacyclic : g.Acyclic) (hfirm : g.FirmSupertypes) :
    g.Super a b ↔ g.Assignable a b ∧ ¬ g.Assignable b a := by
  rw [super_iff hacyclic hfirm, assignable_iff hacyclic hfirm, assignable_iff hacyclic hfirm]
  constructor
  · intro hba
    exact ⟨hba.to_reflTransGen, fun hab => hacyclic b (hba.trans_left hab)⟩
  · rintro ⟨hba, hab⟩
    rcases reflTransGen_iff_eq_or_transGen.1 hba with rfl | hinherits
    · exact absurd .refl hab
    · exact hinherits

end ClassGraph

namespace Checker

/-- In an acyclic graph assignability is a partial order on classes, and its strict part says which
classes are proper ancestors. Every checker has an answer for every class, and has the same answers
for all instantiations of the class. An instantiation makes the same checker as its class. -/
theorem isAssignableFrom_order (hacyclic : g.Acyclic) (hfirm : g.FirmSupertypes) :
    IsPartialOrder ClassId g.Assignable ∧
    (∀ a b, g.Super a b ↔ g.Assignable a b ∧ ¬ g.Assignable b a) ∧
    (∀ (k : Checker) (c : ClassId), ∃ assignable super : Bool,
      Search.Settles (fun limit => k.isAssignableFrom g limit (.cls c)) assignable ∧
      Search.Settles (fun limit => k.isSuperOf g limit (.cls c)) super ∧
      ∀ args t, g.instantiate (.cls c) args = .ok t →
        k.isExactly t = k.isExactly (.cls c) ∧
        Search.Settles (fun limit => k.isAssignableFrom g limit t) assignable ∧
        Search.Settles (fun limit => k.isSuperOf g limit t) super) ∧
    ∀ c args t, g.instantiate (.cls c) args = .ok t →
      ∃ k, ofTy g t = .ok k ∧ ofTy g (.cls c) = .ok k := by
  classical
  refine ⟨g.isPartialOrder_assignable hacyclic hfirm,
    fun a b => g.super_iff_assignable hacyclic hfirm, fun k c => ?_, fun c args t ht => ?_⟩
  · have hassignable {t : Ty} (ht : t.definition? = some c) :=
      k.settles_isAssignableFrom_decide hacyclic hfirm ht
    have hsuper {t : Ty} (ht : t.definition? = some c) :=
      k.settles_isSuperOf_decide hacyclic hfirm ht
    refine ⟨_, _, hassignable rfl, hsuper rfl, fun args t ht => ?_⟩
    obtain ⟨-, rfl⟩ := ClassGraph.instantiate_eq_ok.1 ht
    exact ⟨rfl, hassignable rfl, hsuper rfl⟩
  · obtain ⟨-, rfl⟩ := ClassGraph.instantiate_eq_ok.1 ht
    exact ⟨⟨c⟩, rfl, rfl⟩

/-- `Ser` is a proper ancestor of `Wrapper`, as `Wrapper<T> extends Box<Ser<T>>` and `Box<T>`
implements `Ser<T>`, and so it is of `Wrapper<int>`. -/
theorem isSuperOf_wrapper :
    ((wrapperGraph.Acyclic ∧ wrapperGraph.FirmSupertypes) ∧
      wrapperGraph.instantiate (.cls 3) [.builtin .int "int"] =
        .ok (.inst 3 [.builtin .int "int"])) ∧
    IsPartialOrder ClassId wrapperGraph.Assignable ∧
    (wrapperGraph.Assignable 1 3 ∧ ¬ wrapperGraph.Assignable 3 1) ∧
    Search.Settles
      (fun limit => isSuperOf ⟨1⟩ wrapperGraph limit (.inst 3 [.builtin .int "int"])) true := by
  have hacyclic : wrapperGraph.Acyclic := ClassGraph.acyclic_of_declared_before (by decide)
  have hfirm : wrapperGraph.FirmSupertypes := ClassGraph.forall_supertypes (by decide)
  have ht : wrapperGraph.instantiate (.cls 3) [.builtin .int "int"] =
      .ok (.inst 3 [.builtin .int "int"]) := rfl
  have hsuper : wrapperGraph.Super 1 3 :=
    (stable_isSuperOf ⟨1⟩ wrapperGraph (.cls 3)).settles
      (show isSuperOf ⟨1⟩ wrapperGraph 20 (.cls 3) = some true by decide)
  obtain ⟨horder, hstrict, hanswers, -⟩ := isAssignableFrom_order hacyclic hfirm
  obtain ⟨_, super, -, hcls, hinst⟩ := hanswers ⟨1⟩ 3
  obtain ⟨-, -, hanswer⟩ := hinst _ _ ht
  obtain rfl : super = true := hcls.unique hsuper
  exact ⟨⟨⟨hacyclic, hfirm⟩, ht⟩, horder, (hstrict 1 3).1 hsuper, hanswer⟩

end Checker

end ClassCode
