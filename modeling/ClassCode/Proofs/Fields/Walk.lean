import ClassCode.Proofs.Checker.Order
import ClassCode.Proofs.Fields.Ancestors

/-!
# The walk over ancestors

The walk that collects the ancestors of a class, told without a limit on its depth (`Walk`): from
every type that refers to a class not seen yet it goes on to the supertypes of that class, before it
takes the next type. On every graph, with inheritance in circles or growing type arguments, the walk
ends, and in one way only (`walk_ancestors_iff`). Where it ends, exactly those classes have been
seen that can be reached without passing a root (`mem_ancestors_iff_reaches`).

That the walk ends is taken from the limited one, whose limit is never met. What it reaches is by
induction on the walk itself; that it reaches everything has been proved for the limited walk.
-/

namespace ClassCode.ClassGraph

variable {g : ClassGraph}

open Relation Checker

/-! ## Walks -/

/-- Going through types one after another: `g.Walk seen ts seen'` says that this starts with the
declarations that were seen before and ends with those seen then. -/
inductive Walk (g : ClassGraph) : List ClassId → List Ty → List ClassId → Prop
  | done (seen : List ClassId) : Walk g seen [] seen
  /-- A type that refers to no class, to a root or to a class seen before is passed by. -/
  | pass {seen seen' : List ClassId} {t : Ty} {ts : List Ty}
      (ht : ∀ c, t.definition? = some c → (g.decl c).isRoot = true ∨ c ∈ seen)
      (hrest : Walk g seen ts seen') : Walk g seen (t :: ts) seen'
  /-- Any other class is seen, and its supertypes are gone through before the walk goes on. -/
  | enter {seen mid seen' : List ClassId} {t : Ty} {ts : List Ty} {c : ClassId}
      (ht : t.definition? = some c) (hproper : (g.decl c).isRoot = false) (hnew : c ∉ seen)
      (hup : Walk g (seen ++ [c]) (g.decl c).lookupOrder mid) (hrest : Walk g mid ts seen') :
      Walk g seen (t :: ts) seen'

namespace Walk

variable {seen mid seen' seen'' : List ClassId} {t : Ty} {ts : List Ty}

/-- A walk through types begins with one through the first of them. -/
theorem cons (h : g.Walk seen [t] mid) (hrest : g.Walk mid ts seen') :
    g.Walk seen (t :: ts) seen' := by
  cases h with
  | pass ht hdone =>
    cases hdone
    exact .pass ht hrest
  | enter ht hproper hnew hup hdone =>
    cases hdone
    exact .enter ht hproper hnew hup hrest

/-- A walk has no other end. -/
theorem unique (h : g.Walk seen ts seen') (h' : g.Walk seen ts seen'') : seen' = seen'' := by
  induction h generalizing seen'' with
  | done => cases h'; rfl
  | pass ht _ ih =>
    cases h' with
    | pass _ hrest' => exact ih hrest'
    | enter ht' hproper hnew =>
      rcases ht _ ht' with hroot | hseen
      · rw [hproper] at hroot
        cases hroot
      · exact absurd hseen hnew
  | enter ht hproper hnew _ _ ihup ihrest =>
    cases h' with
    | pass ht' =>
      rcases ht' _ ht with hroot | hseen
      · rw [hproper] at hroot
        cases hroot
      · exact absurd hseen hnew
    | enter ht' _ _ hup' hrest' =>
      rw [ht, Option.some.injEq] at ht'
      subst ht'
      obtain rfl := ihup hup'
      exact ihrest hrest'

end Walk

/-! ## Where a walk ends -/

/-- Going through types with a limit is a walk, if visiting one of them is. -/
theorem walk_foldl_visit {depth : ℕ}
    (hvisit : ∀ seen t, g.Seen seen → g.classes.size < depth + seen.length →
      g.Walk seen [t] (g.visit depth seen t))
    (ts : List Ty) {seen : List ClassId} (hseen : g.Seen seen)
    (hdepth : g.classes.size < depth + seen.length) :
    g.Walk seen ts (ts.foldl (g.visit depth) seen) := by
  induction ts generalizing seen with
  | nil => exact .done seen
  | cons t ts ih =>
    have hhead := hvisit seen t hseen hdepth
    obtain ⟨news, heq, hnews⟩ := visit_spec depth seen t hseen hdepth
    rw [List.foldl_cons]
    rw [heq] at hhead ⊢
    exact hhead.cons (ih hnews.marked (by rw [List.length_append]; omega))

/-- Visiting a type does not meet its limit if this is above the number of declarations that are not
seen yet. -/
theorem walk_visit (depth : ℕ) (seen : List ClassId) (t : Ty) (hseen : g.Seen seen)
    (hdepth : g.classes.size < depth + seen.length) :
    g.Walk seen [t] (g.visit depth seen t) := by
  induction depth generalizing seen t with
  | zero =>
    have hle := hseen.length_le
    omega
  | succ depth ih =>
    rw [visit]
    split
    case h_1 hnone =>
      refine .pass (fun c hc => ?_) (.done seen)
      rw [hnone] at hc
      cases hc
    case h_2 c hc =>
      split
      case isTrue h =>
        refine .pass (fun d hd => ?_) (.done seen)
        rw [hc, Option.some.injEq] at hd
        simpa [hd] using h
      case isFalse h =>
        rw [Bool.not_eq_true, Bool.or_eq_false_iff] at h
        have hnew : c ∉ seen := by simpa using h.2
        refine .enter hc h.1 hnew ?_ (.done _)
        exact walk_foldl_visit ih _ (hseen.snoc h.1 hnew)
          (by rw [List.length_append, List.length_singleton]; omega)

/-- On every graph the walk over the supertypes of a class ends, with the ancestors of the class and
with nothing else. -/
theorem walk_ancestors_iff (g : ClassGraph) (c : ClassId) {found : List ClassId} :
    g.Walk [] (g.decl c).lookupOrder found ↔ found = g.ancestors c := by
  have hwalk : g.Walk [] (g.decl c).lookupOrder (g.ancestors c) :=
    walk_foldl_visit (walk_visit _) _ (seen_nil g) (by simp)
  exact ⟨fun h => h.unique hwalk, fun h => h ▸ hwalk⟩

/-! ## What a walk reaches -/

/-- Whether a class declares a supertype that refers to another class, which is no root. -/
def ExtendsProper (g : ClassGraph) (c d : ClassId) : Prop :=
  g.Extends c d ∧ (g.decl d).isRoot = false

/-- Whatever a walk comes to see is reached from one of the types without passing a root. -/
theorem Walk.reached {seen seen' : List ClassId} {ts : List Ty} (h : g.Walk seen ts seen') :
    ∀ d ∈ seen', d ∈ seen ∨ ∃ t ∈ ts, ∃ c, t.definition? = some c ∧ (g.decl c).isRoot = false ∧
      ReflTransGen g.ExtendsProper c d := by
  induction h with
  | done => exact fun d hd => .inl hd
  | pass _ _ ih =>
    intro d hd
    rcases ih d hd with hseen | ⟨t, ht, hreached⟩
    · exact .inl hseen
    · exact .inr ⟨t, List.mem_cons_of_mem _ ht, hreached⟩
  | @enter seen mid seen' t ts c ht hproper _ _ _ ihup ihrest =>
    intro d hd
    rcases ihrest d hd with hmid | ⟨s, hs, hreached⟩
    · rcases ihup d hmid with hseen | ⟨s, hs, e, he, heproper, hreach⟩
      · rcases List.mem_append.1 hseen with hseen | hself
        · exact .inl hseen
        · rw [List.mem_singleton.1 hself]
          exact .inr ⟨t, List.mem_cons_self, c, ht, hproper, .refl⟩
      · have hstep : g.ExtendsProper c e := ⟨⟨s, ClassDecl.mem_lookupOrder.1 hs, he⟩, heproper⟩
        exact .inr ⟨t, List.mem_cons_self, c, ht, hproper, hreach.head hstep⟩
    · exact .inr ⟨s, List.mem_cons_of_mem t hs, hreached⟩

/-- The ancestors of a class are the classes that are reached from it over one step or more without
coming to a root. -/
theorem mem_ancestors_iff_reaches {c d : ClassId} :
    d ∈ g.ancestors c ↔ TransGen g.ExtendsProper c d := by
  constructor
  · intro hd
    rcases ((walk_ancestors_iff g c).2 rfl).reached d hd with hnil | ⟨s, hs, e, he, hproper, hreach⟩
    · cases hnil
    · exact .head' ⟨⟨s, ClassDecl.mem_lookupOrder.1 hs, he⟩, hproper⟩ hreach
  · intro h
    have hvisits := visits_ancestors g c
    induction h with
    | single hcd =>
      obtain ⟨⟨s, hs, hsd⟩, hproper⟩ := hcd
      exact hvisits.covers s (ClassDecl.mem_lookupOrder.2 hs) _ hsd hproper
    | tail _ hde ih => exact hvisits.closed _ ih _ hde.1 hde.2

/-- On every graph the walk over the supertypes of a class ends with its ancestors, whichever way
inheritance runs. These are, each once, exactly the classes that are reached from the class over one
step or more without coming to a root, so the class itself is among them only if it inherits from
itself. In an acyclic graph whose classes declare no other supertypes than classes and
instantiations, and whose roots declare none, they are the classes that are no roots and that are
found to be proper ancestors of the class. -/
theorem ancestors_exact (g : ClassGraph) (c : ClassId) :
    (∀ found, g.Walk [] (g.decl c).lookupOrder found ↔ found = g.ancestors c) ∧
    (g.ancestors c).Nodup ∧
    (∀ d, d ∈ g.ancestors c ↔ TransGen g.ExtendsProper c d) ∧
    (c ∈ g.ancestors c → g.Inherits c c) ∧
    (g.Acyclic → (∀ c, ∀ s ∈ (g.decl c).supertypes, s.isClass = true) → g.BareRoots →
      ∀ a, a ∈ g.ancestors c ↔ (g.decl a).isRoot = false ∧ g.Super a c) := by
  refine ⟨fun found => g.walk_ancestors_iff c, g.nodup_ancestors c,
    fun d => mem_ancestors_iff_reaches, fun hself => ?_, fun hacyclic hclasses hbare a => ?_⟩
  · have hle : g.ExtendsProper ≤ g.Extends := fun _ _ h => h.1
    exact TransGen.mono hle c c (mem_ancestors_iff_reaches.1 hself)
  · rw [mem_ancestors_iff hbare, super_iff hacyclic (firmSupertypes_of_isClass hclasses)]
    exact and_comm

/-- `class Deep<T> extends Deep<List<T>> with Shape`; `Shape` and `List<T>` extend `Object`. -/
def deepGraph : ClassGraph :=
  ⟨#[rootDecl "Object",
    { ClassDecl.unknown with
      name := "List", typeParams := [.param "T"], superclass := some (.cls rootId) },
    { ClassDecl.unknown with
      name := "Deep", typeParams := [.param "T"],
      superclass := some (.inst 2 [.inst 1 [.param "T"]]), mixins := [.cls 3] },
    { ClassDecl.unknown with name := "Shape", superclass := some (.cls rootId) }], #[]⟩

/-- Infinitely many types are above `Deep<T>`, but the walk ends with `Shape` and `Deep`. The
ancestors of `Wrapper`, which extends `Box<Ser<T>>`, are `Box` and its interface `Ser`. -/
theorem ancestors_deep :
    (∀ found, deepGraph.Walk [] (deepGraph.decl 2).lookupOrder found ↔ found = [3, 2]) ∧
    TransGen deepGraph.ExtendsProper 2 2 ∧ ¬ TransGen deepGraph.ExtendsProper 2 1 ∧
    ((wrapperGraph.Acyclic ∧ ∀ c, ∀ s ∈ (wrapperGraph.decl c).supertypes, s.isClass = true) ∧
      wrapperGraph.BareRoots) ∧
    wrapperGraph.ancestors 3 = [2, 1] ∧ wrapperGraph.Super 2 3 ∧ wrapperGraph.Super 1 3 ∧
      ¬ wrapperGraph.Super 3 3 := by
  have hacyclic : wrapperGraph.Acyclic := acyclic_of_declared_before (by decide)
  have hclasses : ∀ c, ∀ s ∈ (wrapperGraph.decl c).supertypes, s.isClass = true :=
    forall_supertypes (by decide)
  have hbare : wrapperGraph.BareRoots := bareRoots_of_places (by decide)
  obtain ⟨hwalk, -, hreaches, -⟩ := ancestors_exact deepGraph 2
  obtain ⟨-, -, -, -, hsuper⟩ := ancestors_exact wrapperGraph 3
  have hdeep : deepGraph.ancestors 2 = [3, 2] := by decide
  have hwrapper : wrapperGraph.ancestors 3 = [2, 1] := by decide
  simp only [hdeep, hwrapper] at hwalk hreaches hsuper
  have hiff := hsuper hacyclic hclasses hbare
  exact ⟨hwalk, (hreaches 2).1 (by decide), fun h => absurd ((hreaches 1).2 h) (by decide),
    ⟨⟨hacyclic, hclasses⟩, hbare⟩, rfl, ((hiff 2).1 (by decide)).2, ((hiff 1).1 (by decide)).2,
    fun h => absurd ((hiff 3).2 ⟨by decide, h⟩) (by decide)⟩

end ClassCode.ClassGraph
