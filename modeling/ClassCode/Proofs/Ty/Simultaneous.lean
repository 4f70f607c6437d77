import ClassCode.Proofs.Ty.Substitution
import Mathlib.Data.Nat.Notation

/-!
# Substitution is simultaneous

An assignment replaces the type parameters of a type all at once: the types put in place stand in
the result as they are, two substitutions one after another are one substitution, and what is
substituted depends on the parameters of the type only (`subst_simultaneous`).

A parameter is looked up together with its bound, and its bound is rewritten only if the lookup
fails. So the parameters outside bounds decide what a composition has to do (`params`), while an
assignment that lacks some of them has to be known on those inside their bounds, too
(`allParams`).

Where a type put in place stands is said with places in types, which lead from a type to a type
argument or to the bound of a type parameter. Substitution gets to a place unless it replaces a
parameter on the way there (`isExposed`).
-/

namespace ClassCode.Ty

/-! ## Parameters -/

mutual

/-- The type parameters that occur in a type, those in bounds as well. -/
def allParams : Ty → List Ty
  | .param n => [.param n]
  | .boundedParam n b => .boundedParam n b :: allParams b
  | .inst _ args => allParamsAll args
  | _ => []

/-- The type parameters that occur in a list of types, those in bounds as well. -/
def allParamsAll : List Ty → List Ty
  | [] => []
  | t :: ts => allParams t ++ allParamsAll ts

end

theorem allParamsAll_eq_flatMap (ts : List Ty) : allParamsAll ts = ts.flatMap allParams := by
  induction ts with
  | nil => rfl
  | cons t ts ih => rw [allParamsAll, ih, List.flatMap_cons]

/-- The type parameters of a type argument are type parameters of the instantiation. -/
theorem mem_allParams_inst {c : ClassId} {args : List Ty} {a p : Ty} (ha : a ∈ args)
    (hp : p ∈ a.allParams) : p ∈ (Ty.inst c args).allParams := by
  rw [allParams, allParamsAll_eq_flatMap]
  exact List.mem_flatMap.2 ⟨a, ha, hp⟩

/-! ## Composition -/

/-- Two substitutions do what one does that does the same to the parameters outside bounds. -/
theorem subst_beq_subst_subst {m₁ m₂ m : Assignment} {t : Ty}
    (h : ∀ p ∈ t.params, (subst m p == subst m₂ (subst m₁ p)) = true) :
    (subst m t == subst m₂ (subst m₁ t)) = true := by
  induction t using induct with
  | param n => exact h (.param n) (by simp [params])
  | boundedParam n b => exact h (.boundedParam n b) (by simp [params])
  | inst c args ih =>
    rw [subst_inst, subst_inst, subst_inst, List.map_map]
    exact inst_beq c (map_beq_map fun a ha => ih a ha fun p hp => h p (mem_params_inst ha hp))
  | _ => exact BEq.rfl

/-- There is an assignment with given types for given types, if these are the same for types that
are the same. -/
theorem exists_assignment {f : Ty → Ty} (hf : ∀ p q, (p == q) = true → (f p == f q) = true)
    (ps : List Ty) : ∃ m : Assignment, ∀ p ∈ ps, (Keyed.get? m p == some (f p)) = true := by
  refine ⟨Assignment.ofPairs (ps.map fun p => (p, f p)), fun p hp => ?_⟩
  have hsome : (Keyed.get? (Assignment.ofPairs (ps.map fun p => (p, f p))) p).isSome = true := by
    rw [Assignment.ofPairs, Keyed.isSome_get?_putAll, Bool.or_eq_true, List.any_eq_true]
    exact .inl ⟨(p, f p), List.mem_map.2 ⟨p, hp, rfl⟩, BEq.rfl⟩
  obtain ⟨u, hu⟩ := Option.isSome_iff_exists.1 hsome
  rcases Keyed.exists_of_get?_putAll hu with ⟨pair, hpair, hkey, rfl⟩ | hnil
  · obtain ⟨q, -, rfl⟩ := List.mem_map.1 hpair
    rw [hu, Option.some_beq_some]
    exact hf q p hkey
  · cases hnil

/-! ## Assignments that change nothing, and assignments that agree -/

/-- An assignment that has no other types for type parameters than themselves changes nothing. -/
theorem subst_beq_self {m : Assignment}
    (hm : ∀ p u, p.isParam = true → Keyed.get? m p = some u → (u == p) = true) (t : Ty) :
    (subst m t == t) = true := by
  induction t using induct with
  | param n =>
    rw [subst]
    cases hget : Keyed.get? m (.param n) with
    | none => exact BEq.rfl
    | some u => exact hm _ u rfl hget
  | boundedParam n b ih =>
    rw [subst]
    cases hget : Keyed.get? m (.boundedParam n b) with
    | none => exact boundedParam_beq n ih
    | some u => exact hm _ u rfl hget
  | inst c args ih =>
    rw [subst_inst]
    have hargs : (args.map (subst m) == args.map id) = true := map_beq_map ih
    rw [List.map_id] at hargs
    exact inst_beq c hargs
  | _ => exact BEq.rfl

/-- Assignments that agree on all type parameters of a type do the same to it. -/
theorem subst_beq_of_agree {m n : Assignment} {t : Ty}
    (h : ∀ p ∈ t.allParams, (Keyed.get? m p == Keyed.get? n p) = true) :
    (subst m t == subst n t) = true := by
  induction t using induct with
  | param x =>
    have hx := h (.param x) (by simp [allParams])
    rw [subst, subst]
    cases hm : Keyed.get? m (.param x) <;> cases hn : Keyed.get? n (.param x) <;>
      rw [hm, hn] at hx
    case none.none => exact BEq.rfl
    case some.some u v => rwa [Option.some_beq_some] at hx
    all_goals cases hx
  | boundedParam x b ih =>
    have hx := h (.boundedParam x b) (by simp [allParams])
    rw [subst, subst]
    cases hm : Keyed.get? m (.boundedParam x b) <;>
      cases hn : Keyed.get? n (.boundedParam x b) <;> rw [hm, hn] at hx
    case none.none =>
      -- both rewrite the bound, whose parameters are among those of the type
      exact boundedParam_beq x (ih fun p hp => h p (by simp [allParams, hp]))
    case some.some u v => rwa [Option.some_beq_some] at hx
    all_goals cases hx
  | inst c args ih =>
    rw [subst_inst, subst_inst]
    exact inst_beq c (map_beq_map fun a ha => ih a ha fun p hp => h p (mem_allParams_inst ha hp))
  | _ => exact BEq.rfl

/-! ## Places -/

/-- A step from a type to a part of it. -/
inductive Inward where
  /-- To a type argument. -/
  | argument (i : ℕ)
  /-- To the bound of a type parameter. -/
  | bound

/-- The part of a type to which a step leads. -/
def part? : Ty → Inward → Option Ty
  | .inst _ args, .argument i => args[i]?
  | .boundedParam _ b, .bound => some b
  | _, _ => none

/-- What stands at a place in a type. -/
def at? : List Inward → Ty → Option Ty
  | [], t => some t
  | step :: path, t => (t.part? step).bind (at? path)

/-- Whether substitution gets to a place in a type: the assignment has no type for any of the type
parameters on the way there. -/
def isExposed (m : Assignment) : List Inward → Ty → Bool
  | [], _ => true
  | step :: path, t =>
    !(t.isParam && (Keyed.get? m t).isSome) && (t.part? step).all (isExposed m path)

variable {m : Assignment} {t : Ty}

/-- The parts of a type that is not replaced as a whole are substituted in. -/
theorem part?_subst (h : t.isParam = true → Keyed.get? m t = none) (step : Inward) :
    (subst m t).part? step = (t.part? step).map (subst m) := by
  cases t with
  | param n =>
    rw [subst, h rfl]
    rfl
  | boundedParam n b =>
    rw [subst, h rfl]
    cases step <;> rfl
  | inst c args =>
    rw [subst_inst]
    cases step with
    | argument i => exact List.getElem?_map
    | bound => rfl
  | _ => rfl

/-- The places to which substitution gets have what stood there, substituted in. -/
theorem at?_subst {path : List Inward} (h : isExposed m path t = true) {s : Ty}
    (hs : at? path t = some s) : at? path (subst m t) = some (subst m s) := by
  induction path generalizing t with
  | nil =>
    rw [at?, Option.some.injEq] at hs
    rw [hs]
    rfl
  | cons step path ih =>
    obtain ⟨u, hu, hs⟩ := Option.bind_eq_some_iff.1 hs
    rw [isExposed, Bool.and_eq_true, hu] at h
    have hkept : t.isParam = true → Keyed.get? m t = none := fun ht => by simpa [ht] using h.1
    rw [at?, part?_subst hkept, hu]
    exact ih h.2 hs

/-! ## All laws -/

/-- Substitution replaces the type parameters of a type all at once. Two substitutions are one, by
any assignment that has, for the type parameters outside bounds, what the two make of them, and
there is such an assignment. A type put in place stands in the result as it is, wherever
substitution gets to its parameter. An assignment that has no other types for type parameters than
themselves changes nothing, in particular one without entries. Assignments that agree on all type
parameters of the type, those in bounds as well, do the same to it. -/
theorem subst_simultaneous (t : Ty) :
    (∀ m₁ m₂ m : Assignment,
      (∀ p ∈ t.params, (Keyed.get? m p == some (subst m₂ (subst m₁ p))) = true) →
        (subst m t == subst m₂ (subst m₁ t)) = true) ∧
    (∀ m₁ m₂ : Assignment, ∃ m : Assignment, ∀ p ∈ t.params,
      (Keyed.get? m p == some (subst m₂ (subst m₁ p))) = true) ∧
    (∀ (m : Assignment) (path : List Inward) (p u : Ty), at? path t = some p →
      p.isParam = true → isExposed m path t = true → Keyed.get? m p = some u →
        at? path (subst m t) = some u) ∧
    (∀ m : Assignment, (∀ p u, p.isParam = true → Keyed.get? m p = some u → (u == p) = true) →
      (subst m t == t) = true) ∧
    (subst [] t == t) = true ∧
    ∀ m n : Assignment, (∀ p ∈ t.allParams, (Keyed.get? m p == Keyed.get? n p) = true) →
      (subst m t == subst n t) = true := by
  refine ⟨fun m₁ m₂ m hm => ?_, fun m₁ m₂ => ?_, fun m path p u hp hparam hexposed hu => ?_,
    fun m hm => subst_beq_self hm t, ?_, fun m n => subst_beq_of_agree⟩
  · refine subst_beq_subst_subst fun p hp => ?_
    have hget := hm p hp
    cases hu : Keyed.get? m p with
    | none =>
      rw [hu] at hget
      cases hget
    | some u =>
      rw [hu, Option.some_beq_some] at hget
      rwa [subst_of_get? (isParam_of_mem_params hp) hu]
  · refine exists_assignment (fun p q hpq => ?_) t.params
    exact subst_beq m₂.agree_refl (subst_beq m₁.agree_refl hpq)
  · rw [at?_subst hexposed hp, subst_of_get? hparam hu]
  · exact subst_beq_self (fun p u _ h => by cases h) t

/-- In `Pair<A, List<T extends Box<A>>>` the assignment that swaps `A` and `B` puts `B` in place
twice, once in the bound of `T`, which it does not have. Putting in `int` for `A` and `List<A>` for
`B` afterwards is one substitution, whose assignment has the whole of `T extends Box<A>`. -/
theorem subst_swap :
    let a : Ty := .param "A"
    let b : Ty := .param "B"
    let int : Ty := .builtin .int "int"
    let bounded (t : Ty) : Ty := .boundedParam "T" (.inst 3 [t])
    let pair (t : Ty) : Ty := .inst 1 [t, .inst 2 [bounded t]]
    let swap : Assignment := [(a, b), (b, a)]
    let fill : Assignment := [(a, int), (b, .inst 2 [a])]
    let both : Assignment := [(a, .inst 2 [a]), (bounded a, bounded (.inst 2 [a]))]
    let inBound : List Inward := [.argument 1, .argument 0, .bound, .argument 0]
    ((∀ p ∈ (pair a).params,
        (Keyed.get? both p == some (subst fill (subst swap p))) = true) ∧
      (subst both (pair a) == subst fill (subst swap (pair a))) = true) ∧
    ((at? inBound (pair a) = some a ∧ isExposed swap inBound (pair a) = true) ∧
      at? inBound (subst swap (pair a)) = some b) ∧
    ((∀ p u, p.isParam = true → Keyed.get? [(a, a)] p = some u → (u == p) = true) ∧
      (subst [(a, a)] (pair a) == pair a) = true) ∧
    (∀ p ∈ (pair a).allParams,
        (Keyed.get? fill p == Keyed.get? [(a, int), (.param "T", b)] p) = true) ∧
      (subst fill (pair a) == subst [(a, int), (.param "T", b)] (pair a)) = true := by
  intro a b int bounded pair swap fill both inBound
  obtain ⟨hcompose, -, hplace, hself, -, hagree⟩ := subst_simultaneous (pair a)
  have hboth : ∀ p ∈ (pair a).params,
      (Keyed.get? both p == some (subst fill (subst swap p))) = true := by decide
  have hat : at? inBound (pair a) = some a := by decide
  have hexposed : isExposed swap inBound (pair a) = true := by decide
  have hsame : ∀ p u, p.isParam = true → Keyed.get? [(a, a)] p = some u → (u == p) = true := by
    intro p u _ hu
    rw [Keyed.get?_cons] at hu
    split at hu
    case isTrue hp => exact Option.some.inj hu ▸ hp
    case isFalse => cases hu
  have hfill : ∀ p ∈ (pair a).allParams,
      (Keyed.get? fill p == Keyed.get? [(a, int), (.param "T", b)] p) = true := by decide
  exact ⟨⟨hboth, hcompose swap fill both hboth⟩,
    ⟨⟨hat, hexposed⟩, hplace swap inBound a b hat rfl hexposed (by decide)⟩,
    ⟨hsame, hself _ hsame⟩, hfill, hagree _ _ hfill⟩

end ClassCode.Ty
