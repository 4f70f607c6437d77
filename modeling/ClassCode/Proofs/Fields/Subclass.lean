import ClassCode.Proofs.Fields.Selection

/-!
# The fields of a subclass

A class with one supertype keeps the order of the fields of the class that this refers to: its own
fields come behind them, sorted by their places in the source, whatever these are
(`findFields_subclass`).

## Shape of the proof

The subclass inherits exactly what is collected for the class above it
(`Acyclic.inherited_eq_collected`). For that the fields of this class have to be read through
getters, and none of them may hide another that the class inherits: above its subclass, the class is
one more that may hide fields.

What is collected for the subclass has its own fields in front. That moves the positions which break
ties, but by the same distance for all inherited fields. The own fields wait for all of these, and
none of these waits for an own field, so an order of selection of the inherited fields goes on with
the own ones (`BelongsBehind.selectionOrder`).
-/

namespace ClassCode

open Relation

namespace ClassGraph

variable {g : ClassGraph}

/-! ## What a subclass inherits -/

/-- A class without overriders passes all its instance fields on, if they are property-backed. -/
theorem passedOn_nil {c : ClassId}
    (hbacked : ∀ f ∈ g.instanceFields c, (g.field f).propertyBacked = true) :
    g.passedOn c [] = g.instanceFields c := by
  rw [passedOn, List.filter_eq_self]
  intro f hf
  simp [hbacked f hf]

/-- One more overrider has no influence if it declares none of the names that are passed on. -/
theorem passedOn_cons {owner b : ClassId} {overriders : List ClassId}
    (h : ∀ f ∈ g.passedOn owner overriders, (g.field f).name ∉ g.instanceFieldNames b) :
    g.passedOn owner (b :: overriders) = g.passedOn owner overriders := by
  rw [passedOn, passedOn]
  refine List.filter_congr fun f hf => ?_
  by_cases hpassed : f ∈ g.passedOn owner overriders
  · simp [h f hpassed]
  · rw [passedOn, List.mem_filter, not_and, Bool.not_eq_true] at hpassed
    have hstays := hpassed hf
    rw [List.any_cons, Bool.not_or, Bool.and_left_comm, hstays, Bool.and_false]

open scoped Classical in
/-- A class with one supertype inherits what is collected for the class that this refers to. -/
theorem Acyclic.inherited_eq_collected (hacyclic : g.Acyclic) (hbare : g.BareRoots)
    {b d : ClassId} {s : Ty} (hd : (g.decl d).supertypes = [s]) (hs : s.definition? = some b)
    (hproper : (g.decl b).isRoot = false)
    (hbacked : ∀ f ∈ g.instanceFields b, (g.field f).propertyBacked = true)
    (hnames : ∀ f ∈ g.instanceFields b, ∀ f' ∈ g.inherited b,
      (g.field f).name ≠ (g.field f').name) :
    g.inherited d = g.collected b := by
  have habove : ∀ a ∈ g.ancestors b, g.Inherits b a := fun a ha =>
    ((mem_ancestors_iff hbare).1 ha).1
  -- the class itself has no overriders, and it is an overrider of everything above it
  have hfirst : (b :: g.ancestors b).filter (fun e => decide (g.Inherits e b)) = [] := by
    rw [List.filter_eq_nil_iff]
    intro e he
    rw [decide_eq_true_iff]
    rcases List.mem_cons.1 he with rfl | he
    · exact hacyclic e
    · exact fun heb => hacyclic b ((habove e he).trans heb)
  have hrest : ∀ a ∈ g.ancestors b,
      g.passedOn a ((b :: g.ancestors b).filter fun e => decide (g.Inherits e a)) =
        g.passedOn a ((g.ancestors b).filter fun e => decide (g.Inherits e a)) := by
    intro a ha
    rw [List.filter_cons, if_pos (decide_eq_true (habove a ha))]
    refine passedOn_cons fun f' hf' hname => ?_
    obtain ⟨f, hf, hstatic, heq⟩ := mem_instanceFieldNames.1 hname
    refine hnames f (mem_instanceFields.2 ⟨hf, hstatic⟩) f' ?_ heq
    exact List.mem_flatMap.2 ⟨a, ha, hf'⟩
  rw [inherited, hacyclic.ancestors_eq_cons hd hs hproper, List.flatMap_cons, hfirst,
    passedOn_nil hbacked, List.flatMap_congr hrest]
  rfl

/-! ## Own fields behind inherited ones -/

/-- Whether fields that stand in front of a list belong behind it: all fields of the list precede
them, and they precede none. -/
structure BelongsBehind (g : ClassGraph) (own rest : List FieldId) : Prop where
  nodup : (own ++ rest).Nodup
  waits : ∀ a ∈ rest, ∀ f ∈ own, g.Precedes a f
  last : ∀ a ∈ own, ∀ f ∈ own ++ rest, ¬ g.Precedes a f

section Append

variable {own own' rest order placed tail : List FieldId} {f : FieldId}

theorem sourceBefore_append_left {a b : FieldId} (ha : a ∈ own) (hb : b ∈ own) :
    g.SourceBefore (own ++ rest) a b ↔ g.SourceBefore own a b := by
  rw [SourceBefore, SourceBefore, List.idxOf_append_of_mem ha, List.idxOf_append_of_mem hb]

theorem sourceBefore_append_right {a b : FieldId} (ha : a ∉ own) (hb : b ∉ own) :
    g.SourceBefore (own ++ rest) a b ↔ g.SourceBefore rest a b := by
  rw [SourceBefore, SourceBefore, List.idxOf_append_of_notMem ha, List.idxOf_append_of_notMem hb,
    Nat.add_lt_add_iff_left]

/-- A field of the list may come next when it might do so without the fields in front. -/
theorem BelongsBehind.selectable_rest (h : g.BelongsBehind own rest) (hf : f ∈ rest) :
    g.Selectable (own ++ rest) placed f ↔ g.Selectable rest placed f := by
  constructor
  · rintro ⟨-, hnew, hall⟩
    exact ⟨hf, hnew, fun a ha => hall a (List.mem_append_right own ha)⟩
  · rintro ⟨-, hnew, hall⟩
    refine ⟨List.mem_append_right own hf, hnew, fun a ha haf => ?_⟩
    rcases List.mem_append.1 ha with ha | ha
    · exact absurd haf (h.last a ha f (List.mem_append_right own hf))
    · exact hall a ha haf

/-- A field in front may come next when the whole list has been placed. -/
theorem BelongsBehind.selectable_own (h : g.BelongsBehind own rest) (hf : f ∈ own) :
    g.Selectable (own ++ rest) placed f ↔ f ∉ placed ∧ ∀ a ∈ rest, a ∈ placed := by
  constructor
  · rintro ⟨-, hnew, hall⟩
    exact ⟨hnew, fun a ha => hall a (List.mem_append_right own ha) (h.waits a ha f hf)⟩
  · rintro ⟨hnew, hall⟩
    refine ⟨List.mem_append_left rest hf, hnew, fun a ha haf => ?_⟩
    rcases List.mem_append.1 ha with ha | ha
    · exact absurd haf (h.last a ha f (List.mem_append_left rest hf))
    · exact hall a ha

theorem BelongsBehind.disjoint (h : g.BelongsBehind own rest) : own.Disjoint rest :=
  (List.nodup_append'.1 h.nodup).2.2

/-- As long as fields of the list are left, the next one is selected without regard to the fields in
front. -/
theorem BelongsBehind.first_rest (h : g.BelongsBehind own rest)
    (horder : g.SelectionOrder rest order)
    (heq : order = placed ++ f :: tail) :
    g.Selectable (own ++ rest) placed f ∧
      ∀ f', g.Selectable (own ++ rest) placed f' → f' ≠ f → g.SourceBefore (own ++ rest) f f' := by
  obtain ⟨hf, hfirst⟩ := horder.first placed f tail heq
  refine ⟨(h.selectable_rest hf.1).2 hf, fun f' hf' hne => ?_⟩
  -- a field in front would have to wait for `f` itself
  have hrest : f' ∈ rest := by
    refine (List.mem_append.1 hf'.1).resolve_left fun hown => hf.2.1 ?_
    exact ((h.selectable_own hown).1 hf').2 f hf.1
  exact (sourceBefore_append_right (h.disjoint.symm hf.1) (h.disjoint.symm hrest)).2
    (hfirst f' ((h.selectable_rest hrest).1 hf') hne)

/-- When the whole list has been placed, the fields in front are selected in the order of their
places in the source. -/
theorem BelongsBehind.first_own (h : g.BelongsBehind own rest) (horder : order.Perm rest)
    (hperm : own'.Perm own) (hsorted : own'.Pairwise (g.SourceBefore own))
    (heq : own' = placed ++ f :: tail) :
    g.Selectable (own ++ rest) (order ++ placed) f ∧
      ∀ f', g.Selectable (own ++ rest) (order ++ placed) f' → f' ≠ f →
        g.SourceBefore (own ++ rest) f f' := by
  subst heq
  have hf : f ∈ own := hperm.mem_iff.1 (by simp)
  obtain ⟨-, hsorted, -⟩ := List.pairwise_append.1 hsorted
  have hbefore := (List.pairwise_cons.1 hsorted).1
  constructor
  · have hnodup : (placed ++ f :: tail).Nodup :=
      hperm.nodup_iff.2 (List.nodup_append'.1 h.nodup).1
    have hplaced : f ∉ placed := fun hp =>
      (List.nodup_append'.1 hnodup).2.2 hp (List.mem_cons_self ..)
    have hother : f ∉ order := fun ho => h.disjoint hf (horder.mem_iff.1 ho)
    refine (h.selectable_own hf).2 ⟨by simp [hplaced, hother], fun a ha => ?_⟩
    exact List.mem_append_left placed (horder.mem_iff.2 ha)
  · intro f' hf' hne
    obtain ⟨hmem, hnew, -⟩ := hf'
    rw [List.mem_append, not_or] at hnew
    have hown : f' ∈ own :=
      (List.mem_append.1 hmem).resolve_right fun hrest => hnew.1 (horder.mem_iff.2 hrest)
    have htail : f' ∈ tail := by
      have hleft := hperm.mem_iff.2 hown
      simpa [hnew.2, hne] using hleft
    exact (sourceBefore_append_left hf hown).2 (hbefore f' htail)

/-- An order of selection goes on with the fields that belong behind it, in the order of their
places in the source. -/
theorem BelongsBehind.selectionOrder (h : g.BelongsBehind own rest)
    (horder : g.SelectionOrder rest order) (hperm : own'.Perm own)
    (hsorted : own'.Pairwise (g.SourceBefore own)) :
    g.SelectionOrder (own ++ rest) (order ++ own') where
  perm := (horder.perm.append hperm).trans List.perm_append_comm
  first := by
    intro placed f tail heq
    rcases List.append_eq_append_iff.1 heq with ⟨placed, rfl, hown⟩ | ⟨tail', hrest, htail⟩
    · exact h.first_own horder.perm hperm hsorted hown
    · cases tail' with
      | nil =>
        -- the whole list has been placed, and no field in front has
        obtain rfl : order = placed := by simpa using hrest
        have hown : own' = [] ++ f :: tail := htail.symm
        have hfirst := h.first_own horder.perm hperm hsorted hown
        rwa [List.append_nil] at hfirst
      | cons f' tail' =>
        obtain ⟨rfl, -⟩ := List.cons.inj htail
        exact h.first_rest horder hrest

end Append

/-! ## Fields in order -/

/-- Fields sorted by their places in the source, where those of one place stay as they are. -/
def sortedByPlace (g : ClassGraph) (fs : List FieldId) : List FieldId :=
  fs.mergeSort fun a b => decide ((g.field a).sortOffset ≤ (g.field b).sortOffset)

theorem pairwise_sortedByPlace {fs : List FieldId} (hfs : fs.Nodup) :
    (g.sortedByPlace fs).Pairwise (g.SourceBefore fs) := by
  rw [sortedByPlace]
  refine List.Pairwise.imp ?_ (pairwise_mergeSort_stable
    (by simp only [decide_eq_true_iff]; omega)
    (by simp only [Bool.or_eq_true, decide_eq_true_iff]; omega) hfs)
  rintro a b ⟨hle, hties⟩
  simp only [decide_eq_true_iff] at hle hties
  rcases lt_or_eq_of_le hle with hlt | heq
  · exact .inl hlt
  · exact .inr ⟨heq, hties heq.ge⟩

/-- The fields of a class belong behind what is collected for a class that it extends. -/
theorem Acyclic.belongsBehind (hacyclic : g.Acyclic) (hbare : g.BareRoots)
    (honce : g.AttachedOnce) {b d : ClassId} (hext : g.Extends d b) :
    g.BelongsBehind (g.instanceFields d) (g.collected b).eraseDups := by
  have hrest : ∀ f ∈ (g.collected b).eraseDups,
      ∃ e, (g.field f).owner = some e ∧ g.Inherits d e := by
    intro f hf
    obtain ⟨e, he, hreach⟩ := honce.owner_collected hbare (List.mem_eraseDups.1 hf)
    exact ⟨e, he, TransGen.head' hext hreach⟩
  constructor
  case nodup =>
    refine (honce.nodup_instanceFields d).append (nodup_eraseDups _) fun f hown hf => ?_
    obtain ⟨e, he, hinherits⟩ := hrest f hf
    obtain rfl : d = e := Option.some.inj ((honce.owner_instanceFields hown).symm.trans he)
    exact hacyclic d hinherits
  case waits =>
    intro a ha f hf
    obtain ⟨e, he, hinherits⟩ := hrest a ha
    exact ⟨e, d, he, honce.owner_instanceFields hf, hinherits⟩
  case last =>
    rintro a ha f hf ⟨c, e, hc, he, hec⟩
    obtain rfl : d = c := Option.some.inj ((honce.owner_instanceFields ha).symm.trans hc)
    rcases List.mem_append.1 hf with hf | hf
    · obtain rfl : d = e := Option.some.inj ((honce.owner_instanceFields hf).symm.trans he)
      exact hacyclic d hec
    · obtain ⟨e', he', hinherits⟩ := hrest f hf
      obtain rfl : e = e' := Option.some.inj (he.symm.trans he')
      exact hacyclic d (hinherits.trans hec)

/-- The fields of a class with one supertype in order are those of the class that this refers to,
followed by its own. -/
theorem Acyclic.fieldsInOrder_eq_append (hacyclic : g.Acyclic) (hbare : g.BareRoots)
    (honce : g.AttachedOnce) {b d : ClassId} (hext : g.Extends d b)
    (hinherited : g.inherited d = g.collected b) :
    g.fieldsInOrder d = g.fieldsInOrder b ++ g.sortedByPlace (g.instanceFields d) := by
  have hbehind := hacyclic.belongsBehind hbare honce hext
  have hown := honce.nodup_instanceFields d
  have hcollected : (g.collected d).eraseDups =
      g.instanceFields d ++ (g.collected b).eraseDups := by
    have hdisjoint : (g.instanceFields d).Disjoint (g.collected b) := fun f hf hfb =>
      hbehind.disjoint hf (List.mem_eraseDups.2 hfb)
    rw [collected, hinherited, eraseDups_append_of_disjoint hdisjoint, eraseDups_of_nodup hown]
  have hselection : g.SelectionOrder (g.collected d).eraseDups
      (g.fieldsInOrder b ++ g.sortedByPlace (g.instanceFields d)) := by
    rw [hcollected]
    exact hbehind.selectionOrder (hacyclic.selectionOrder_ordered (nodup_eraseDups _))
      (List.mergeSort_perm _ _) (pairwise_sortedByPlace hown)
  exact (hacyclic.selectionOrder_ordered (nodup_eraseDups _)).unique hselection

end ClassGraph

/-! ## The operation -/

variable {g : ClassGraph}

/-- The fields of a class with one supertype begin with those of the class `b` that this refers to,
in the same order, and its own instance fields follow in the order of their places in the source,
whatever these places are: if the instance fields of `b` are property-backed and have other names
than the fields found for `b` that it does not declare. -/
theorem findFields_subclass (hacyclic : g.Acyclic)
    (hclasses : ∀ c, ∀ s ∈ (g.decl c).supertypes, s.isClass = true) (hbare : g.BareRoots)
    (honce : g.AttachedOnce) {b d : ClassId} {s : Ty} (hsuper : (g.decl d).supertypes = [s])
    (hs : s.definition? = some b) (hproper : (g.decl b).isRoot = false)
    (hbacked : ∀ f ∈ g.instanceFields b, (g.field f).propertyBacked = true) :
    ∃ fs : List FieldId, Finds g b fs ∧
      ((∀ f ∈ g.instanceFields b, ∀ f' ∈ fs, f' ∉ (g.decl b).fields →
          (g.field f).name ≠ (g.field f').name) →
        Finds g d (fs ++ g.sortedByPlace (g.instanceFields d))) := by
  have hfirm := ClassGraph.firmSupertypes_of_isClass hclasses
  refine ⟨g.fieldsInOrder b, finds_fieldsInOrder hacyclic hfirm b, fun hnames => ?_⟩
  have hinherited : g.inherited d = g.collected b := by
    refine hacyclic.inherited_eq_collected hbare hsuper hs hproper hbacked fun f hf f' hf' => ?_
    refine hnames f hf f' ?_ fun hdeclared => ?_
    · rw [(hacyclic.fieldsInOrder_perm b).mem_iff, List.mem_eraseDups]
      exact List.mem_append_right _ hf'
    · -- an inherited field belongs to a proper ancestor
      obtain ⟨a, ha, hinherits⟩ := honce.owner_inherited hbare hf'
      obtain rfl : b = a := Option.some.inj ((honce.owner b f' hdeclared).symm.trans ha)
      exact hacyclic b hinherits
  have hext : g.Extends d b := ⟨s, by simp [hsuper], hs⟩
  rw [← hacyclic.fieldsInOrder_eq_append hbare honce hext hinherited]
  exact finds_fieldsInOrder hacyclic hfirm d

/-- `D extends B<String>`, where `B<T> extends A<T>`, has three fields, all of them in the source
before `b` of `B`, which stands before `a` of `A`. The first of the three is behind the other two,
which stand at the same place, and one of these has the name `a`. -/
def towerGraph : ClassGraph :=
  let property (name : String) (offset : Int) (owner : ClassId) : Field :=
    { Field.unknown with
      name := name, offset := offset, propertyBacked := true, owner := some owner }
  ⟨#[ClassGraph.rootDecl "Object",
    { ClassDecl.unknown with
      name := "A", typeParams := [.param "T"], superclass := some (.cls ClassGraph.rootId),
      fields := [0] },
    { ClassDecl.unknown with
      name := "B", typeParams := [.param "T"], superclass := some (.inst 1 [.param "T"]),
      fields := [1] },
    { ClassDecl.unknown with
      name := "D", superclass := some (.inst 2 [.builtin .string "String"]), fields := [2, 3, 4] }],
    #[property "a" 50 1, property "b" 40 2, property "d" 10 3, property "a" 5 3, property "e" 5 3]⟩

/-- For `B` the fields `a` and `b` are found, and for `D` these two come first, too, followed by the
second `a`, by `e` and `d`. -/
theorem findFields_tower :
    (((towerGraph.Acyclic ∧ ∀ c, ∀ s ∈ (towerGraph.decl c).supertypes, s.isClass = true) ∧
      towerGraph.BareRoots) ∧ towerGraph.AttachedOnce) ∧
    (((towerGraph.decl 3).supertypes = [.inst 2 [.builtin .string "String"]] ∧
      (towerGraph.decl 2).isRoot = false) ∧
      ∀ f ∈ towerGraph.instanceFields 2, (towerGraph.field f).propertyBacked = true) ∧
    Finds towerGraph 2 [0, 1] ∧ Finds towerGraph 3 ([0, 1] ++ [3, 4, 2]) ∧
    towerGraph.sortedByPlace (towerGraph.instanceFields 3) = [3, 4, 2] := by
  have hacyclic : towerGraph.Acyclic := ClassGraph.acyclic_of_declared_before (by decide)
  have hclasses : ∀ c, ∀ s ∈ (towerGraph.decl c).supertypes, s.isClass = true :=
    ClassGraph.forall_supertypes (by decide)
  have hbare : towerGraph.BareRoots := ClassGraph.bareRoots_of_places (by decide)
  have honce : towerGraph.AttachedOnce :=
    ClassGraph.attachedOnce_of_places (by decide) (by decide)
  have hbacked : ∀ f ∈ towerGraph.instanceFields 2, (towerGraph.field f).propertyBacked = true := by
    decide
  have hrun : ((findFields towerGraph 10 (.cls 2) none).runIn ⟨none, .empty, .standard, ()⟩).1 =
      .ok [0, 1] := rfl
  have hrun' : ((findFields towerGraph 10 (.cls 3) none).runIn ⟨none, .empty, .standard, ()⟩).1 =
      .ok ([0, 1] ++ [3, 4, 2]) := rfl
  obtain ⟨fs, hb, hd⟩ :=
    findFields_subclass hacyclic hclasses hbare honce (b := 2) (d := 3) rfl rfl rfl hbacked
  obtain rfl : [0, 1] = fs := hb.only (.cls 2) rfl 10 none Unit _ _ hrun
  have hfound := hd (by decide)
  have hown : [3, 4, 2] = towerGraph.sortedByPlace (towerGraph.instanceFields 3) :=
    List.append_cancel_left (hfound.only (.cls 3) rfl 10 none Unit _ _ hrun')
  rw [← hown] at hfound
  exact ⟨⟨⟨⟨hacyclic, hclasses⟩, hbare⟩, honce⟩, ⟨⟨rfl, rfl⟩, hbacked⟩, hb, hfound, hown.symm⟩

end ClassCode
