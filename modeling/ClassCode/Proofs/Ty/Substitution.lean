import ClassCode.Proofs.Keyed
import ClassCode.Proofs.Ty.Same
import ClassCode.Ty

/-!
# Laws of substitution

Two substitutions one after another are one substitution, whose assignment has the second one
carried out on its types (`subst_subst`). This needs the first assignment to have all parameters of
the type: the bound of a parameter that it lacks would be rewritten, and the second assignment would
look up another parameter.

Substitution does not see display names: it takes types that are the same to types that are the
same, also with assignments that agree up to sameness (`subst_beq`).
-/

namespace ClassCode

namespace Ty

/-! ## Shape -/

theorem substAll_eq_map (m : Assignment) (ts : List Ty) : substAll m ts = ts.map (subst m) := by
  induction ts with
  | nil => rfl
  | cons t ts ih => rw [substAll, ih, List.map_cons]

/-- Substitution keeps the class that a type refers to; only a type parameter may come to refer to
one. -/
theorem definition?_subst {t : Ty} (h : t.isParam = false) (m : Assignment) :
    (subst m t).definition? = t.definition? := by
  cases t <;> first | rfl | cases h

/-- Substitution in an instantiation is carried out on its type arguments. -/
theorem subst_inst (m : Assignment) (c : ClassId) (args : List Ty) :
    subst m (.inst c args) = .inst c (args.map (subst m)) := by
  rw [subst, substAll_eq_map]

/-- A type parameter that an assignment has becomes the type that it has for it. -/
theorem subst_of_get? {m : Assignment} {p u : Ty} (hp : p.isParam = true)
    (h : Keyed.get? m p = some u) : subst m p = u := by
  cases p with
  | param n => rw [subst, h, Option.getD_some]
  | boundedParam n b => rw [subst, h]
  | _ => cases hp

/-! ## Parameters of a type -/

mutual

/-- The type parameters that occur in a type, those in bounds left aside. -/
def params : Ty → List Ty
  | .param n => [.param n]
  | .boundedParam n b => [.boundedParam n b]
  | .inst _ args => paramsAll args
  | _ => []

/-- The type parameters that occur in a list of types. -/
def paramsAll : List Ty → List Ty
  | [] => []
  | t :: ts => params t ++ paramsAll ts

end

theorem paramsAll_eq_flatMap (ts : List Ty) : paramsAll ts = ts.flatMap params := by
  induction ts with
  | nil => rfl
  | cons t ts ih => rw [paramsAll, ih, List.flatMap_cons]

/-- The type parameters of a type argument are type parameters of the instantiation. -/
theorem mem_params_inst {c : ClassId} {args : List Ty} {a p : Ty} (ha : a ∈ args)
    (hp : p ∈ a.params) : p ∈ (Ty.inst c args).params := by
  rw [params, paramsAll_eq_flatMap]
  exact List.mem_flatMap.2 ⟨a, ha, hp⟩

/-- An instantiation has no type parameters if none of its type arguments has. -/
theorem params_inst_eq_nil {c : ClassId} {args : List Ty} :
    (Ty.inst c args).params = [] ↔ ∀ a ∈ args, a.params = [] := by
  rw [params, paramsAll_eq_flatMap, List.flatMap_eq_nil_iff]

theorem isParam_of_mem_params {t p : Ty} (h : p ∈ t.params) : p.isParam = true := by
  induction t using induct with
  | param n =>
    rw [List.mem_singleton.1 h]
    rfl
  | boundedParam n b =>
    rw [List.mem_singleton.1 h]
    rfl
  | inst c args ih =>
    rw [params, paramsAll_eq_flatMap] at h
    obtain ⟨a, ha, hp⟩ := List.mem_flatMap.1 h
    exact ih a ha hp
  | _ => cases h

/-- Whether an assignment has a type for every parameter of a type. -/
def Covers (m : Assignment) (t : Ty) : Prop := ∀ p ∈ t.params, (Keyed.get? m p).isSome = true

/-- An assignment that covers an instantiation covers its type arguments. -/
theorem Covers.argument {m : Assignment} {c : ClassId} {args : List Ty}
    (h : Covers m (.inst c args)) {a : Ty} (ha : a ∈ args) : Covers m a :=
  fun p hp => h p (mem_params_inst ha hp)

/-- Substituting twice is substituting once, with the second substitution carried out on the types
of the first assignment. -/
theorem subst_subst {m : Assignment} (n : Assignment) {t : Ty} (h : Covers m t) :
    subst n (subst m t) = subst (Keyed.mapValues (subst n) m) t := by
  have hcovered : ∀ {p}, p.isParam = true → (Keyed.get? m p).isSome = true →
      subst n (subst m p) = subst (Keyed.mapValues (subst n) m) p := by
    intro p hp hget
    obtain ⟨u, hu⟩ := Option.isSome_iff_exists.1 hget
    have hu' : Keyed.get? (Keyed.mapValues (subst n) m) p = some (subst n u) := by
      rw [Keyed.get?_mapValues, hu, Option.map_some]
    rw [subst_of_get? hp hu, subst_of_get? hp hu']
  induction t using induct with
  | param x => exact hcovered rfl (h (.param x) (by simp [params]))
  | boundedParam x b => exact hcovered rfl (h (.boundedParam x b) (by simp [params]))
  | inst c args ih =>
    rw [subst_inst, subst_inst, subst_inst, List.map_map]
    congr 1
    exact List.map_congr_left fun a ha => ih a ha (h.argument ha)
  | _ => rfl

/-- Substitution does not change a type without type parameters. -/
theorem subst_of_params_eq_nil (m : Assignment) {t : Ty} (h : t.params = []) : subst m t = t := by
  induction t using induct with
  | param n => simp [params] at h
  | boundedParam n b => simp [params] at h
  | inst c args ih =>
    have hargs : args.map (subst m) = args.map id :=
      List.map_congr_left fun a ha => ih a ha (params_inst_eq_nil.1 h a ha)
    rw [subst_inst, hargs, List.map_id]
  | _ => rfl

end Ty

/-! ## Sameness -/

namespace Assignment

/-- Whether two assignments have the same types for the same parameters. -/
def Agree (m n : Assignment) : Prop :=
  ∀ ⦃p q : Ty⦄, (p == q) = true → (Keyed.get? m p == Keyed.get? n q) = true

/-- For parameters that are the same, assignments that agree have either no types or the same. -/
theorem Agree.cases {m n : Assignment} (h : Agree m n) {p q : Ty} (hpq : (p == q) = true) :
    (Keyed.get? m p = none ∧ Keyed.get? n q = none) ∨
      ∃ u v, Keyed.get? m p = some u ∧ Keyed.get? n q = some v ∧ (u == v) = true := by
  have hget := h hpq
  cases hp : Keyed.get? m p <;> cases hq : Keyed.get? n q <;> rw [hp, hq] at hget
  case none.none => exact .inl ⟨rfl, rfl⟩
  case some.some u v => exact .inr ⟨u, v, rfl, rfl, by rwa [Option.some_beq_some] at hget⟩
  all_goals cases hget

theorem agree_refl (m : Assignment) : Agree m m := by
  intro p q hpq
  rw [Keyed.get?_congr m hpq]
  exact BEq.rfl

theorem Agree.put {m n : Assignment} (h : Agree m n) (p : Ty) {u v : Ty}
    (huv : (u == v) = true) : Agree (Keyed.put m p u) (Keyed.put n p v) := by
  intro q r hqr
  rw [Keyed.get?_put, Keyed.get?_put, BEq.congr_right hqr]
  split
  · rwa [Option.some_beq_some]
  · exact h hqr

/-- Assigning the same types to parameters keeps agreement. -/
theorem Agree.putAll_zip (ps : List Ty) {us vs : List Ty} (huv : (us == vs) = true)
    {m n : Assignment} (h : Agree m n) :
    Agree (Keyed.putAll m (ps.zip us)) (Keyed.putAll n (ps.zip vs)) := by
  induction us, vs, huv using Ty.beq_list_induct generalizing ps m n with
  | nil =>
    rw [List.zip_nil_right]
    exact h
  | cons u v us vs huv _ ih =>
    cases ps with
    | nil => exact h
    | cons p ps => exact ih ps (h.put p huv)

end Assignment

namespace Ty

/-- Types that are the same are the same after substitution. -/
theorem subst_beq {m n : Assignment} (h : m.Agree n) {a b : Ty} (hab : (a == b) = true) :
    (subst m a == subst n b) = true := by
  induction a, b, hab using beq_induct with
  | param x hab =>
    rw [subst, subst]
    rcases h.cases hab with ⟨hx, hy⟩ | ⟨u, v, hx, hy, huv⟩
    · rw [hx, hy]
      exact hab
    · rw [hx, hy]
      exact huv
  | boundedParam x a b hbound ih =>
    rw [subst, subst]
    rcases h.cases (boundedParam_beq x hbound) with ⟨hx, hy⟩ | ⟨u, v, hx, hy, huv⟩
    · -- neither assignment has the parameter, so its bound is rewritten
      rw [hx, hy]
      exact boundedParam_beq x ih
    · rw [hx, hy]
      exact huv
  | inst c as bs hargs ih =>
    rw [subst_inst, subst_inst]
    exact inst_beq c (map_beq_map_of_beq ih hargs)
  | builtin k x y hab => exact hab
  | cls c hab => exact hab
  | plain i x y hab => exact hab

end Ty

end ClassCode
