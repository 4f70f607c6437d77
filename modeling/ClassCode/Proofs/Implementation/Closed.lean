import ClassCode.Proofs.Implementation.Agreement

/-!
# Closed instantiations

No type variable leaks out of an instantiation with closed type arguments: all types above it are
closed, and so are the type arguments with which it implements a class (`closed_instantiation`).

One level up, a supertype of the class is closed by the arguments, since they cover all its type
parameters (`closed_subst`). That it is closed and instantiated again carries this on to the next
level. Generic classes without type arguments and bare types must not occur in supertypes: the
former count as open, and of the latter it cannot be told.
-/

namespace ClassCode

namespace ClassGraph

variable {g : ClassGraph}

/-! ## Closed types -/

/-- Whether it can be told of a type that no type variable occurs in it. -/
def Closed (g : ClassGraph) (t : Ty) : Prop := g.hasVariables t = .ok false

theorem hasVariablesAny_eq_false {ts : List Ty} :
    g.hasVariablesAny ts = .ok false ↔ ∀ t ∈ ts, g.Closed t := by
  induction ts with
  | nil => simp [hasVariablesAny]
  | cons t ts ih =>
    rw [hasVariablesAny, List.forall_mem_cons, Closed]
    split <;> rename_i h <;> simp [h, ih]

/-- An instantiation is closed if its type arguments are. -/
theorem closed_inst {c : ClassId} {args : List Ty} :
    g.Closed (.inst c args) ↔ ∀ a ∈ args, g.Closed a := by
  rw [Closed, hasVariables, hasVariablesAny_eq_false]

/-- A class is closed if it has no type parameters. -/
theorem closed_cls {c : ClassId} : g.Closed (.cls c) ↔ (g.decl c).typeParams = [] := by
  rw [Closed, hasVariables, Except.ok.injEq, Bool.not_eq_false', List.isEmpty_iff]

/-- The type arguments of a closed type are closed. -/
theorem Closed.typeArgs {t : Ty} (h : g.Closed t) : ∀ a ∈ g.typeArgs t, g.Closed a := by
  cases t with
  | cls c =>
    intro a ha
    rw [ClassGraph.typeArgs, closed_cls.1 h] at ha
    cases ha
  | inst c args => exact closed_inst.1 h
  | _ =>
    intro a ha
    cases ha

/-- No type parameter occurs in a closed type. -/
theorem Closed.params_eq_nil {t : Ty} (h : g.Closed t) : t.params = [] := by
  induction t using Ty.induct with
  | param n => cases h
  | boundedParam n b => cases h
  | inst c args ih => exact Ty.params_inst_eq_nil.2 fun a ha => ih a ha (closed_inst.1 h a ha)
  | _ => rfl

/-- Substitution leaves a closed type as it is. -/
theorem Closed.subst_eq {t : Ty} (h : g.Closed t) (m : Assignment) : t.subst m = t :=
  Ty.subst_of_params_eq_nil m h.params_eq_nil

/-! ## Closing a type -/

mutual

/-- Whether a type mentions no bare type and no generic class without type arguments, bounds left
aside. -/
def isExplicit (g : ClassGraph) : Ty → Bool
  | .builtin _ _ => true
  | .param _ => true
  | .boundedParam _ _ => true
  | .cls c => (g.decl c).typeParams.isEmpty
  | .inst _ args => isExplicitAll g args
  | .plain _ _ => false

/-- Whether all types of a list are explicit. -/
def isExplicitAll (g : ClassGraph) : List Ty → Bool
  | [] => true
  | t :: ts => isExplicit g t && isExplicitAll g ts

end

theorem isExplicitAll_iff {ts : List Ty} :
    g.isExplicitAll ts = true ↔ ∀ t ∈ ts, g.isExplicit t = true := by
  induction ts with
  | nil => simp [isExplicitAll]
  | cons t ts ih => rw [isExplicitAll, Bool.and_eq_true, ih, List.forall_mem_cons]

/-- Closed types for all type parameters of an explicit type close it. -/
theorem closed_subst {m : Assignment} (hm : ∀ p u, Keyed.get? m p = some u → g.Closed u) {t : Ty}
    (hexplicit : g.isExplicit t = true) (h : Ty.Covers m t) : g.Closed (t.subst m) := by
  have hcovered : ∀ {p}, p.isParam = true → (Keyed.get? m p).isSome = true →
      g.Closed (p.subst m) := by
    intro p hp hget
    obtain ⟨u, hu⟩ := Option.isSome_iff_exists.1 hget
    rw [Ty.subst_of_get? hp hu]
    exact hm p u hu
  induction t using Ty.induct with
  | builtin k n => rfl
  | param x => exact hcovered rfl (h (.param x) (by simp [Ty.params]))
  | boundedParam x b => exact hcovered rfl (h (.boundedParam x b) (by simp [Ty.params]))
  | cls c => exact closed_cls.2 (List.isEmpty_iff.1 hexplicit)
  | inst c args ih =>
    rw [Ty.subst_inst, closed_inst]
    intro u hu
    obtain ⟨a, ha, rfl⟩ := List.mem_map.1 hu
    exact ih a ha (isExplicitAll_iff.1 hexplicit a ha) (h.argument ha)
  | plain i n => cases hexplicit

/-- Closed type arguments assign closed types. -/
theorem closed_of_get?_assignment {c : ClassId} {args : List Ty} (hargs : ∀ a ∈ args, g.Closed a)
    (p u : Ty) (h : Keyed.get? (g.assignment c args) p = some u) : g.Closed u := by
  rcases Keyed.exists_of_get?_putAll h with ⟨⟨q, a⟩, hpair, -, rfl⟩ | hnil
  · exact hargs a (List.of_mem_zip hpair).2
  · cases hnil

/-- The supertypes of a closed instantiated type are closed. -/
theorem Scoped.closed_of_mem_supertypes (hscoped : g.Scoped)
    (hexplicit : ∀ c, ∀ s ∈ (g.decl c).supertypes, g.isExplicit s = true) {t s : Ty}
    (ht : g.Instantiated t) (hclosed : g.Closed t) (hs : s ∈ g.supertypes t) : g.Closed s := by
  cases t with
  | cls c =>
    have hc : (g.decl c).typeParams = [] := ht
    -- the class has no type parameters for its supertypes to mention
    have hparams : s.params = [] := by
      refine List.eq_nil_iff_forall_not_mem.2 fun p hp => ?_
      have hany := hscoped.params c s hs p hp
      rw [hc] at hany
      cases hany
    have hsubst : g.Closed (s.subst []) :=
      closed_subst (fun _ _ h => by cases h) (hexplicit c s hs) fun p hp => by
        rw [hparams] at hp
        cases hp
    rwa [Ty.subst_of_params_eq_nil [] hparams] at hsubst
  | inst c args =>
    have hargs : (g.decl c).typeParams.length = args.length := ht
    rw [supertypes_inst] at hs
    obtain ⟨u, hu, rfl⟩ := List.mem_map.1 hs
    refine closed_subst (closed_of_get?_assignment (closed_inst.1 hclosed)) (hexplicit c u hu) ?_
    exact fun p hp => isSome_get?_assignment hargs (hscoped.params c u hu p hp)
  | _ => cases hs

/-- All types above a closed instantiated type are closed. -/
theorem Scoped.closed_of_above (hscoped : g.Scoped)
    (hexplicit : ∀ c, ∀ s ∈ (g.decl c).supertypes, g.isExplicit s = true) {t s : Ty}
    (ht : g.Instantiated t) (hclosed : g.Closed t) (h : g.Above t s) : g.Closed s := by
  have hboth : g.Instantiated s ∧ g.Closed s := by
    refine h.forall (p := fun u => g.Instantiated u ∧ g.Closed u) (fun u hu v hv => ⟨?_, ?_⟩)
      ⟨ht, hclosed⟩
    · exact hscoped.instantiated_of_mem_searchOrder (mem_searchOrder.2 hv)
    · exact hscoped.closed_of_mem_supertypes hexplicit hu.1 hu.2 hv
  exact hboth.2

end ClassGraph

namespace Checker

variable {g : ClassGraph}

/-- An instantiation with closed type arguments has closed types above it only, and implements
classes with closed type arguments only. A closed type is left as it is by every substitution. -/
theorem closed_instantiation (hacyclic : g.Acyclic) (hscoped : g.Scoped)
    (hexplicit : ∀ c, ∀ s ∈ (g.decl c).supertypes, g.isExplicit s = true) :
    (∀ c args t, g.instantiate (.cls c) args = .ok t →
      (∀ a ∈ args, g.hasVariables a = .ok false) →
        (∃ found, Search.Settles (fun limit => g.ancestry limit t) found ∧
          ∀ s ∈ found, g.hasVariables s = .ok false) ∧
        ∀ k : Checker, ∃ arguments,
          Search.Settles (fun limit => k.typeArgumentsOf g limit t) arguments ∧
          ∀ as, arguments = some as → ∀ a ∈ as, g.hasVariables a = .ok false) ∧
    ∀ t m, g.hasVariables t = .ok false → Ty.subst m t = t := by
  refine ⟨fun c args t ht hargs => ?_, fun t m h => ClassGraph.Closed.subst_eq h m⟩
  rw [ClassGraph.instantiate] at ht
  split at ht
  case isFalse => cases ht
  case isTrue hlength =>
    cases ht
    have hclosed : ∀ s, g.Above (.inst c args) s → g.Closed s := fun s =>
      hscoped.closed_of_above hexplicit hlength (ClassGraph.closed_inst.2 hargs)
    obtain ⟨n, hn⟩ := hacyclic.exists_ancestry hscoped.firm (.inst c args)
    obtain ⟨found, hfound⟩ := Option.isSome_iff_exists.1 (hn n (Nat.le_refl n))
    refine ⟨⟨found, (g.stable_ancestry _).settles hfound, fun s hs =>
      hclosed s (ClassGraph.above_of_mem_ancestry hfound hs)⟩, fun k => ?_⟩
    obtain ⟨all, hall⟩ := exists_implements hacyclic hscoped.firm k (.inst c args)
    refine ⟨all.head?.map g.typeArgs, hall.typeArguments, fun as has => ?_⟩
    obtain ⟨r, hr, rfl⟩ := Option.map_eq_some_iff.1 has
    exact (hclosed r (hall.matched r (List.mem_of_mem_head? hr)).1).typeArgs

/-- `Wrapper<int>` has `Box<Ser<int>>`, `Object` and `Ser<Ser<int>>` above it, and implements `Ser`
with the type argument `Ser<int>`. -/
theorem closed_wrapper :
    ((wrapperGraph.Acyclic ∧ wrapperGraph.Scoped) ∧
      ∀ c, ∀ s ∈ (wrapperGraph.decl c).supertypes, wrapperGraph.isExplicit s = true) ∧
    (wrapperGraph.instantiate (.cls 3) [.builtin .int "int"] =
        .ok (.inst 3 [.builtin .int "int"]) ∧
      ∀ a ∈ [Ty.builtin .int "int"], wrapperGraph.hasVariables a = .ok false) ∧
    (wrapperGraph.ancestry 20 (.inst 3 [.builtin .int "int"]) =
        some [.inst 3 [.builtin .int "int"], .inst 2 [.inst 1 [.builtin .int "int"]], .cls 0,
          .inst 1 [.inst 1 [.builtin .int "int"]]] ∧
      ∀ s ∈ [Ty.inst 3 [.builtin .int "int"], .inst 2 [.inst 1 [.builtin .int "int"]], .cls 0,
        .inst 1 [.inst 1 [.builtin .int "int"]]], wrapperGraph.hasVariables s = .ok false) ∧
    (⟨1⟩ : Checker).typeArgumentsOf wrapperGraph 4 (.inst 3 [.builtin .int "int"]) =
        some (some [.inst 1 [.builtin .int "int"]]) ∧
      ∀ a ∈ [Ty.inst 1 [.builtin .int "int"]],
        wrapperGraph.hasVariables a = .ok false ∧ ∀ m, a.subst m = a := by
  have hacyclic : wrapperGraph.Acyclic := ClassGraph.acyclic_of_declared_before (by decide)
  have hscoped : wrapperGraph.Scoped :=
    ⟨ClassGraph.forall_supertypes (by decide), ClassGraph.forall_supertypes (by decide)⟩
  have hexplicit : ∀ c, ∀ s ∈ (wrapperGraph.decl c).supertypes, wrapperGraph.isExplicit s = true :=
    ClassGraph.forall_supertypes (by decide)
  have ht : wrapperGraph.instantiate (.cls 3) [.builtin .int "int"] =
      .ok (.inst 3 [.builtin .int "int"]) := rfl
  have hargs : ∀ a ∈ [Ty.builtin .int "int"], wrapperGraph.hasVariables a = .ok false := by
    intro a ha
    rw [List.mem_singleton.1 ha]
    rfl
  have hancestry : wrapperGraph.ancestry 20 (.inst 3 [.builtin .int "int"]) =
      some [.inst 3 [.builtin .int "int"], .inst 2 [.inst 1 [.builtin .int "int"]], .cls 0,
        .inst 1 [.inst 1 [.builtin .int "int"]]] := by decide
  have harguments : (⟨1⟩ : Checker).typeArgumentsOf wrapperGraph 4 (.inst 3 [.builtin .int "int"]) =
      some (some [.inst 1 [.builtin .int "int"]]) := by decide
  obtain ⟨hinst, hsubst⟩ := closed_instantiation hacyclic hscoped hexplicit
  obtain ⟨⟨found, hfound, hclosed⟩, hall⟩ := hinst 3 _ _ ht hargs
  obtain ⟨arguments, hsettles, hclosedArgs⟩ := hall ⟨1⟩
  rw [← hfound.only 20 _ hancestry] at hclosed
  have hclosedArgs' := hclosedArgs _ (hsettles.only 4 _ harguments).symm
  exact ⟨⟨⟨hacyclic, hscoped⟩, hexplicit⟩, ⟨ht, hargs⟩, ⟨hancestry, hclosed⟩, harguments,
    fun a ha => ⟨hclosedArgs' a ha, fun m => hsubst a m (hclosedArgs' a ha)⟩⟩

end Checker

end ClassCode
