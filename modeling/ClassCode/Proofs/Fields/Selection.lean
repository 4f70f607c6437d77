import ClassCode.Proofs.Fields.Found

/-!
# Fields are selected one after another

The order of the fields of a class is that of a naive procedure on the collected fields
(`findFields_selection`): again and again, look through all fields that are left and whose
predecessors have been placed, and place the one with the lowest place in the source, of equal
places the one that was collected first.

`SelectionOrder` says this of every position of an order at once. There is one such order only
(`SelectionOrder.unique`), and what holds of it pairwise can be read off the moment at which the
earlier field of a pair is placed (`SelectionOrder.pairwise`).
-/

namespace ClassCode

namespace ClassGraph

/-! ## The naive procedure -/

/-- Whether a field of a list may come next when others have been placed: it has not been placed,
and all fields of the list that precede it have. -/
def Selectable (g : ClassGraph) (fs placed : List FieldId) (f : FieldId) : Prop :=
  f ∈ fs ∧ f ∉ placed ∧ ∀ a ∈ fs, g.Precedes a f → a ∈ placed

/-- Whether a field has a lower place in the source than another one, or the same place and stands
before it in a list. -/
def SourceBefore (g : ClassGraph) (fs : List FieldId) (a b : FieldId) : Prop :=
  (g.field a).sortOffset < (g.field b).sortOffset ∨
    (g.field a).sortOffset = (g.field b).sortOffset ∧ fs.idxOf a < fs.idxOf b

/-- Whether a list has the fields of another one in the order of selection: at every position stands
the first in the source of all fields that may come next. -/
structure SelectionOrder (g : ClassGraph) (fs order : List FieldId) : Prop where
  perm : order.Perm fs
  first : ∀ placed f rest, order = placed ++ f :: rest →
    g.Selectable fs placed f ∧
      ∀ f', g.Selectable fs placed f' → f' ≠ f → g.SourceBefore fs f f'

variable {g : ClassGraph} {fs order : List FieldId}

theorem SourceBefore.asymm {a b : FieldId} (h : g.SourceBefore fs a b) :
    ¬ g.SourceBefore fs b a := by
  rw [SourceBefore] at h ⊢
  omega

/-- There is only one order of selection. -/
theorem SelectionOrder.unique {order' : List FieldId} (h : g.SelectionOrder fs order)
    (h' : g.SelectionOrder fs order') : order = order' := by
  -- what comes after a common beginning is the same
  suffices hrest : ∀ placed rest rest', order = placed ++ rest → order' = placed ++ rest' →
      rest = rest' from hrest [] order order' rfl rfl
  intro placed rest
  induction rest generalizing placed with
  | nil =>
    intro rest' horder horder'
    have hlength := (h.perm.trans h'.perm.symm).length_eq
    rw [horder, horder', List.length_append, List.length_append] at hlength
    exact (List.length_eq_zero_iff.1 (Nat.add_left_cancel hlength).symm).symm
  | cons f rest ih =>
    intro rest' horder horder'
    cases rest' with
    | nil =>
      have hlength := (h.perm.trans h'.perm.symm).length_eq
      simp [horder, horder'] at hlength
    | cons f' rest' =>
      obtain ⟨hf, hfirst⟩ := h.first placed f rest horder
      obtain ⟨hf', hfirst'⟩ := h'.first placed f' rest' horder'
      obtain rfl : f = f' := by
        by_contra hne
        exact (hfirst f' hf' (Ne.symm hne)).asymm (hfirst' f hf hne)
      rw [ih (placed ++ [f]) rest' (by rw [horder, List.append_cons])
        (by rw [horder', List.append_cons])]

/-- What holds whenever one field is selected and another one is left holds of all fields in the
order of selection and those that come after them. -/
theorem SelectionOrder.pairwise (h : g.SelectionOrder fs order) (hfs : fs.Nodup)
    {R : FieldId → FieldId → Prop}
    (hR : ∀ placed a b, g.Selectable fs placed a →
      (∀ f, g.Selectable fs placed f → f ≠ a → g.SourceBefore fs a f) →
      b ∈ fs → b ∉ placed → b ≠ a → R a b) :
    order.Pairwise R := by
  suffices hrest : ∀ placed rest, order = placed ++ rest → rest.Pairwise R from
    hrest [] order rfl
  intro placed rest
  induction rest generalizing placed with
  | nil => exact fun _ => .nil
  | cons a rest ih =>
    intro horder
    refine List.pairwise_cons.2
      ⟨fun b hb => ?_, ih (placed ++ [a]) (by rw [horder, List.append_cons])⟩
    obtain ⟨ha, hfirst⟩ := h.first placed a rest horder
    have hnodup : (placed ++ a :: rest).Nodup := horder ▸ h.perm.nodup_iff.2 hfs
    obtain ⟨-, htail, hdisjoint⟩ := List.nodup_append'.1 hnodup
    refine hR placed a b ha hfirst (h.perm.mem_iff.1 (by simp [horder, hb])) (fun hp => ?_) ?_
    · exact hdisjoint hp (List.mem_cons_of_mem a hb)
    · rintro rfl
      exact (List.nodup_cons.1 htail).1 hb

/-- No field comes before one that precedes it. -/
theorem SelectionOrder.not_precedes (h : g.SelectionOrder fs order) (hfs : fs.Nodup) :
    order.Pairwise fun a b => ¬ g.Precedes b a :=
  h.pairwise hfs fun _ _ b ha _ hb hbp _ hba => hbp (ha.2.2 b hb hba)

/-- Fields of one class come in the order of their places in the source. -/
theorem SelectionOrder.sourceBefore (h : g.SelectionOrder fs order) (hfs : fs.Nodup) :
    order.Pairwise fun a b =>
      (g.field a).owner = (g.field b).owner → g.SourceBefore fs a b := by
  refine h.pairwise hfs fun placed a b ha hfirst hb hbp hne howner => ?_
  -- the same fields precede both of them, so the later one might have come next as well
  have hprecedes : ∀ x, g.Precedes x b → g.Precedes x a := by
    rintro x ⟨c, d, hc, hd, hinherits⟩
    exact ⟨c, d, hc, howner.trans hd, hinherits⟩
  exact hfirst b ⟨hb, hbp, fun x hx hxb => ha.2.2 x hx (hprecedes x hxb)⟩ hne

/-! ## Positions and fields -/

/-- A position is ready when the field there may come next. -/
theorem ready_iff_selectable (hfs : fs.Nodup) {positions : List ℕ} {i : ℕ} {f : FieldId}
    (hi : fs[i]? = some f) :
    Placement.Ready fs.length (positionsRelated g.Precedes fs) positions i ↔
      g.Selectable fs (positions.filterMap fun i => fs[i]?) f := by
  rw [Placement.Ready, Selectable, mem_filterMap_getElem? hfs hi]
  have hlt : i < fs.length := (List.getElem?_eq_some_iff.1 hi).1
  have hf : f ∈ fs := List.mem_of_getElem? hi
  constructor
  · rintro ⟨-, hp, hall⟩
    refine ⟨hf, hp, fun a ha haf => ?_⟩
    obtain ⟨k, hk⟩ := List.mem_iff_getElem?.1 ha
    have hkp := hall k (List.getElem?_eq_some_iff.1 hk).1
      (mem_positionsRelated.2 ⟨a, f, hk, hi, haf⟩)
    exact (mem_filterMap_getElem? hfs hk).2 hkp
  · rintro ⟨-, hp, hall⟩
    refine ⟨hlt, hp, fun k _ hki => ?_⟩
    obtain ⟨a, b, hk, hib, hab⟩ := mem_positionsRelated.1 hki
    obtain rfl : f = b := Option.some.inj (hi.symm.trans hib)
    exact (mem_filterMap_getElem? hfs hk).1 (hall a (List.mem_of_getElem? hk) hab)

/-- A position goes before another when the field there stands before the other in the source. -/
theorem goesFirst_iff_sourceBefore (hfs : fs.Nodup) {i j : ℕ} {a b : FieldId}
    (hi : fs[i]? = some a) (hj : fs[j]? = some b) :
    Placement.goesFirst (g.placeKey fs) i j = true ↔ g.SourceBefore fs a b := by
  simp only [Placement.goesFirst_iff, SourceBefore, placeKey, hi, hj, idxOf_of_getElem? hfs hi,
    idxOf_of_getElem? hfs hj, Option.map_some, Option.getD_some]

/-- In an acyclic graph putting fields in order selects them one after another. -/
theorem Acyclic.selectionOrder_ordered (hacyclic : g.Acyclic) (hfs : fs.Nodup) :
    g.SelectionOrder fs (g.ordered fs) where
  perm := hacyclic.ordered_perm fs
  first := by
    intro placed f rest horder
    -- before the position of `f` stand those that have been placed and some without a field
    obtain ⟨before, after, hpositions, hbefore, hafter⟩ := List.filterMap_eq_append_iff.1 horder
    obtain ⟨skipped, i, _, rfl, hskipped, hi, -⟩ := List.filterMap_eq_cons_iff.1 hafter
    have hplaced : (before ++ skipped).filterMap (fun i => fs[i]?) = placed := by
      rw [List.filterMap_append, hbefore, List.filterMap_eq_nil_iff.2 hskipped, List.append_nil]
    have hselection := Placement.selection_place (g.placeKey fs)
      (lt_length_of_mem_positionsRelated g.Precedes fs)
    rw [← List.append_assoc] at hpositions
    obtain ⟨hready, hfirst⟩ := hselection.first hpositions
    rw [List.nil_append] at hready hfirst
    refine ⟨hplaced ▸ (ready_iff_selectable hfs hi).1 hready, fun f' hf' hne => ?_⟩
    obtain ⟨j, hj⟩ := List.mem_iff_getElem?.1 hf'.1
    refine (goesFirst_iff_sourceBefore hfs hi hj).1 (hfirst j ?_ ?_)
    · exact (ready_iff_selectable hfs hj).2 (hplaced.symm ▸ hf')
    · rintro rfl
      exact hne (Option.some.inj (hj.symm.trans hi))

end ClassGraph

/-! ## The operation -/

variable {g : ClassGraph} {t : Ty} {c : ClassId}

/-- The fields of a class come in the order of selection on its collected fields. So none comes
before a field of a proper ancestor of its class, and the fields of one class come in the order of
their places in the source. -/
theorem findFields_selection (hacyclic : g.Acyclic)
    (hclasses : ∀ c, ∀ s ∈ (g.decl c).supertypes, s.isClass = true)
    (ht : t.definition? = some c) :
    ∃ fs : List FieldId,
      (∃ n, ∀ limit, n ≤ limit → ∀ (σ : Type) (w : World σ),
        ((findFields g limit t none).runIn w).1 = .ok fs) ∧
      (∀ limit sink (σ : Type) (w : World σ) fs',
        ((findFields g limit t sink).runIn w).1 = .ok fs' → fs' = fs) ∧
      (∀ order, g.SelectionOrder (g.collected c).eraseDups order ↔ order = fs) ∧
      (fs.Pairwise fun a b => ¬ g.Precedes b a) ∧
      fs.Pairwise fun a b =>
        (g.field a).owner = (g.field b).owner →
          g.SourceBefore (g.collected c).eraseDups a b := by
  have hfirm := ClassGraph.firmSupertypes_of_isClass hclasses
  have hnodup : (g.collected c).eraseDups.Nodup := nodup_eraseDups _
  have hselection : g.SelectionOrder (g.collected c).eraseDups (g.fieldsInOrder c) :=
    hacyclic.selectionOrder_ordered hnodup
  refine ⟨g.fieldsInOrder c, exists_findFields hacyclic hfirm ht,
    fun limit sink σ w fs' h => eq_fieldsInOrder_of_findFields hacyclic hfirm ht h,
    fun order => ⟨fun h => h.unique hselection, fun h => h ▸ hselection⟩,
    hselection.not_precedes hnodup, hselection.sourceBefore hnodup⟩

/-- `D extends B with M, N`, where `B extends A`, and every class has one field. The places of the
fields go against inheritance: `a` of `A` stands behind `b` of `B` and `n` of `N`, and `d` of `D`
before all others. -/
def mixinGraph : ClassGraph :=
  let object : Option Ty := some (.cls ClassGraph.rootId)
  let property (name : String) (offset : Int) (owner : ClassId) : Field :=
    { Field.unknown with
      name := name, offset := offset, propertyBacked := true, owner := some owner }
  ⟨#[ClassGraph.rootDecl "Object",
    { ClassDecl.unknown with name := "A", superclass := object, fields := [0] },
    { ClassDecl.unknown with name := "B", superclass := some (.cls 1), fields := [1] },
    { ClassDecl.unknown with name := "M", superclass := object, fields := [2] },
    { ClassDecl.unknown with name := "N", superclass := object, fields := [3] },
    { ClassDecl.unknown with
      name := "D", superclass := some (.cls 2), mixins := [.cls 3, .cls 4], fields := [4] }],
    #[property "a" 30 1, property "b" 10 2, property "m" 40 3, property "n" 20 4,
      property "d" (-1) 5]⟩

/-- Of `d`, `n`, `m`, `b` and `a`, as they are collected for `D`, first `n` and `a` are selected,
then `b`, which had to wait for `a`, then `m`, and `d` last. -/
theorem findFields_mixins :
    ((mixinGraph.Acyclic ∧ ∀ c, ∀ s ∈ (mixinGraph.decl c).supertypes, s.isClass = true) ∧
      (mixinGraph.collected 5).eraseDups = [4, 3, 2, 1, 0]) ∧
    ((findFields mixinGraph 10 (.cls 5) none).runIn ⟨none, .empty, .standard, ()⟩).1 =
      .ok [3, 0, 1, 2, 4] ∧
    ∀ order, mixinGraph.SelectionOrder [4, 3, 2, 1, 0] order ↔ order = [3, 0, 1, 2, 4] := by
  have hacyclic : mixinGraph.Acyclic := ClassGraph.acyclic_of_declared_before (by decide)
  have hclasses : ∀ c, ∀ s ∈ (mixinGraph.decl c).supertypes, s.isClass = true :=
    ClassGraph.forall_supertypes (by decide)
  have hcollected : (mixinGraph.collected 5).eraseDups = [4, 3, 2, 1, 0] := by
    have hsearch : mixinGraph.collectedFields 10 5 = some [4, 3, 2, 1, 0] := by decide
    rw [← ClassGraph.collectedFields_eq_some hacyclic
      (ClassGraph.firmSupertypes_of_isClass hclasses) hsearch]
    rfl
  have hrun : ((findFields mixinGraph 10 (.cls 5) none).runIn
      ⟨none, .empty, .standard, ()⟩).1 = .ok [3, 0, 1, 2, 4] := rfl
  obtain ⟨fs, -, hunique, hselection, -⟩ :=
    findFields_selection hacyclic hclasses (t := .cls 5) rfl
  rw [← hunique 10 none Unit _ _ hrun, hcollected] at hselection
  exact ⟨⟨⟨hacyclic, hclasses⟩, hcollected⟩, hrun, hselection⟩

end ClassCode
