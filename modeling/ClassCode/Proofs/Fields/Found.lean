import ClassCode.Operations
import ClassCode.Proofs.Codegen
import ClassCode.Proofs.Fields.Collected
import ClassCode.Proofs.Fields.Order

/-!
# The fields that are found for a class

What is found for a class in an acyclic graph are its own instance fields and those that come down
to it from its ancestors, each of them once (`findFields_exact`). The outcome does not depend on the
limit of the searches, as soon as they end, nor on the world.
-/

namespace ClassCode

namespace ClassGraph

variable {g : ClassGraph}

/-- The fields of a class in order, with inheritance taken for granted. -/
noncomputable def fieldsInOrder (g : ClassGraph) (c : ClassId) : List FieldId :=
  g.ordered (g.collected c).eraseDups

/-- In an acyclic graph the fields in order are the collected ones, each once. -/
theorem Acyclic.fieldsInOrder_perm (hacyclic : g.Acyclic) (c : ClassId) :
    (g.fieldsInOrder c).Perm (g.collected c).eraseDups :=
  hacyclic.ordered_perm _

end ClassGraph

/-! ## The operation -/

variable {σ : Type} {g : ClassGraph} {t : Ty} {c : ClassId}

/-- Whatever the operation returns are the fields of the class in order. -/
theorem eq_fieldsInOrder_of_findFields (hacyclic : g.Acyclic) (hfirm : g.FirmSupertypes)
    (ht : t.definition? = some c) {limit : ℕ} {sink : Option SinkId} {w : World σ}
    {fs : List FieldId} (h : ((findFields g limit t sink).runIn w).1 = .ok fs) :
    fs = g.fieldsInOrder c := by
  rw [findFields, traced_outcome] at h
  simp only [ht] at h
  obtain ⟨collected, w₁, hcollected, hrest⟩ := Codegen.runIn_bind_eq_ok.1 (Prod.ext h rfl)
  obtain ⟨-, w₂, -, hsorted⟩ := Codegen.runIn_bind_eq_ok.1 hrest
  obtain ⟨hcollected, -⟩ := Codegen.runIn_ofSearch_eq_ok.1 hcollected
  obtain ⟨hsorted, -⟩ := Codegen.runIn_ofSearch_eq_ok.1 hsorted
  rw [ClassGraph.fieldsInOrder, ClassGraph.sortByLocation_eq_some hacyclic hfirm hsorted,
    ClassGraph.collectedFields_eq_some hacyclic hfirm hcollected]

/-- As soon as the searches end, the operation warns about the collected fields and returns the
fields in order, unless a warning fails. -/
theorem exists_findFields_run (hacyclic : g.Acyclic) (hfirm : g.FirmSupertypes)
    (ht : t.definition? = some c) :
    ∃ n, ∀ limit, n ≤ limit → g.collectedFields limit c = some (g.collected c) ∧
      ∀ (σ : Type) (w : World σ) (sink : Option SinkId),
        let warned := w.desk.warnUndefined sink ((g.collected c).map fun f => (g.field f).element)
        let run := (findFields g limit t sink).runIn w
        run.1 = warned.1.map (fun _ => g.fieldsInOrder c) ∧ run.2.desk = warned.2 := by
  obtain ⟨n, hn⟩ := hacyclic.exists_collectedFields hfirm c
  obtain ⟨n', hn'⟩ := hacyclic.exists_sortByLocation hfirm (g.collected c).eraseDups
  refine ⟨max n n', fun limit hlimit => ?_⟩
  obtain ⟨collected, hcollected⟩ := Option.isSome_iff_exists.1 (hn limit (by omega))
  obtain ⟨sorted, hsorted⟩ := Option.isSome_iff_exists.1 (hn' limit (by omega))
  have hfields : g.fieldsInOrder c = sorted :=
    (ClassGraph.sortByLocation_eq_some hacyclic hfirm hsorted).symm
  rw [ClassGraph.collectedFields_eq_some hacyclic hfirm hcollected] at hcollected
  refine ⟨hcollected, fun σ w sink => ?_⟩
  dsimp only
  rw [findFields, traced_outcome, desk_traced]
  simp only [ht, hcollected, Codegen.runIn_bind, Codegen.runIn_ofSearch_some,
    Codegen.runIn_warnUndefined, World.desk_enter]
  rcases w.desk.warnUndefined sink ((g.collected c).map fun f => (g.field f).element) with
    ⟨e | ⟨⟩, d⟩
  · exact ⟨rfl, rfl⟩
  · rw [hsorted, hfields]
    exact ⟨rfl, rfl⟩

/-- Without a sink the operation returns the fields of the class, within some limit. -/
theorem exists_findFields (hacyclic : g.Acyclic) (hfirm : g.FirmSupertypes)
    (ht : t.definition? = some c) :
    ∃ n, ∀ limit, n ≤ limit → ∀ (σ : Type) (w : World σ),
      ((findFields g limit t none).runIn w).1 = .ok (g.fieldsInOrder c) := by
  obtain ⟨n, hn⟩ := exists_findFields_run hacyclic hfirm ht
  exact ⟨n, fun limit hlimit σ w => ((hn limit hlimit).2 σ w none).1⟩

/-- Whether a list is what the operation finds for a class: without a sink it returns the list as
soon as the limit is high enough, and it never returns another one. -/
structure Finds (g : ClassGraph) (c : ClassId) (fs : List FieldId) : Prop where
  ends : ∀ t : Ty, t.definition? = some c →
    ∃ n, ∀ limit, n ≤ limit → ∀ (σ : Type) (w : World σ),
      ((findFields g limit t none).runIn w).1 = .ok fs
  only : ∀ t : Ty, t.definition? = some c → ∀ limit sink (σ : Type) (w : World σ) fs',
    ((findFields g limit t sink).runIn w).1 = .ok fs' → fs' = fs

/-- In an acyclic graph the operation finds the fields of a class in order. -/
theorem finds_fieldsInOrder (hacyclic : g.Acyclic) (hfirm : g.FirmSupertypes) (c : ClassId) :
    Finds g c (g.fieldsInOrder c) where
  ends _ ht := exists_findFields hacyclic hfirm ht
  only _ ht _ _ _ _ _ h := eq_fieldsInOrder_of_findFields hacyclic hfirm ht h

/-- The fields of a class are its own instance fields and those that ancestors pass down to it, each
once. -/
theorem findFields_exact (hacyclic : g.Acyclic)
    (hclasses : ∀ c, ∀ s ∈ (g.decl c).supertypes, s.isClass = true) (hbare : g.BareRoots)
    (ht : t.definition? = some c) :
    ∃ fs : List FieldId,
      (∃ n, ∀ limit, n ≤ limit → ∀ (σ : Type) (w : World σ),
        ((findFields g limit t none).runIn w).1 = .ok fs) ∧
      (∀ limit sink (σ : Type) (w : World σ) fs',
        ((findFields g limit t sink).runIn w).1 = .ok fs' → fs' = fs) ∧
      fs.Nodup ∧
      ∀ f, f ∈ fs ↔
        (g.field f).isStatic = false ∧ (f ∈ (g.decl c).fields ∨ ∃ a, g.PassedDown c a f) := by
  have hfirm := ClassGraph.firmSupertypes_of_isClass hclasses
  have hperm := hacyclic.fieldsInOrder_perm c
  refine ⟨g.fieldsInOrder c, exists_findFields hacyclic hfirm ht,
    fun limit sink σ w fs' h => eq_fieldsInOrder_of_findFields hacyclic hfirm ht h, ?_, fun f => ?_⟩
  · exact hperm.nodup_iff.2 (nodup_eraseDups _)
  · rw [hperm.mem_iff, List.mem_eraseDups, ClassGraph.mem_collected_iff hbare]

/-- A diamond: `A` declares `x` and `y`, `B` and `C` implement `A`, where `B` declares `x` anew and
`C` declares `w`, and `D extends B implements C` has a stored field `y` of its own. -/
def diamondGraph : ClassGraph :=
  let object : Option Ty := some (.cls ClassGraph.rootId)
  let property (name : String) (offset : Int) (owner : ClassId) : Field :=
    { Field.unknown with
      name := name, offset := offset, propertyBacked := true, owner := some owner }
  ⟨#[ClassGraph.rootDecl "Object",
    { ClassDecl.unknown with name := "A", superclass := object, fields := [0, 1] },
    { ClassDecl.unknown with
      name := "B", superclass := object, interfaces := [.cls 1], fields := [2] },
    { ClassDecl.unknown with
      name := "C", superclass := object, interfaces := [.cls 1], fields := [3] },
    { ClassDecl.unknown with
      name := "D", superclass := some (.cls 2), interfaces := [.cls 3], fields := [4] }],
    #[property "x" 10 1, property "y" 20 1, property "x" 5 2, property "w" 7 3,
      { property "y" 1 4 with propertyBacked := false }]⟩

/-- In the diamond the field `y` of `A` comes down to `D` once, whose own field `y` does not hide
it, while the `x` of `A` is hidden by that of `B`. -/
theorem findFields_diamond :
    ((diamondGraph.Acyclic ∧
        (∀ c, ∀ s ∈ (diamondGraph.decl c).supertypes, s.isClass = true)) ∧
      diamondGraph.BareRoots) ∧
    ((findFields diamondGraph 10 (.cls 4) none).runIn ⟨none, .empty, .standard, ()⟩).1 =
      .ok [1, 2, 3, 4] ∧
    ∀ f, f ∈ [1, 2, 3, 4] ↔
      (diamondGraph.field f).isStatic = false ∧
        (f ∈ (diamondGraph.decl 4).fields ∨ ∃ a, diamondGraph.PassedDown 4 a f) := by
  have hacyclic : diamondGraph.Acyclic := ClassGraph.acyclic_of_declared_before (by decide)
  have hclasses : ∀ c, ∀ s ∈ (diamondGraph.decl c).supertypes, s.isClass = true :=
    ClassGraph.forall_supertypes (by decide)
  have hbare : diamondGraph.BareRoots := ClassGraph.bareRoots_of_places (by decide)
  have hrun : ((findFields diamondGraph 10 (.cls 4) none).runIn
      ⟨none, .empty, .standard, ()⟩).1 = .ok [1, 2, 3, 4] := rfl
  obtain ⟨fs, -, hunique, -, hmem⟩ := findFields_exact hacyclic hclasses hbare (t := .cls 4) rfl
  refine ⟨⟨⟨hacyclic, hclasses⟩, hbare⟩, hrun, fun f => ?_⟩
  rw [hunique 10 none Unit _ _ hrun]
  exact hmem f

end ClassCode
