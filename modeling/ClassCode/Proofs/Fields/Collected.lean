import ClassCode.Fields
import ClassCode.Proofs.Fields.Ancestors
import ClassCode.Proofs.Search
import ClassCode.Proofs.Supertypes

/-!
# Collected fields

The fields that are collected for a class are its own instance fields and those that ancestors pass
down to it (`mem_collected_iff`). An ancestor passes a field down unless a class in between declares
an instance field of the same name.

Whether a class stands in between is found out by a search with a limit. `inherited` and `collected`
are what the searches give when they end; in an acyclic graph they end within some limit.
-/

namespace ClassCode.ClassGraph

open scoped Classical in
/-- The fields that a class inherits from its ancestors, with inheritance taken for granted. -/
noncomputable def inherited (g : ClassGraph) (c : ClassId) : List FieldId :=
  (g.ancestors c).flatMap fun owner =>
    g.passedOn owner ((g.ancestors c).filter fun d => g.Inherits d owner)

/-- The own and inherited instance fields of a class, with inheritance taken for granted. -/
noncomputable def collected (g : ClassGraph) (c : ClassId) : List FieldId :=
  g.instanceFields c ++ g.inherited c

variable {g : ClassGraph}

/-! ## Results of the search -/

open scoped Classical in
/-- The answers of a checker are those of inheritance. -/
theorem isSuperOf_eq_decide (hacyclic : g.Acyclic) (hfirm : g.FirmSupertypes) {limit : ℕ}
    {c d : ClassId} {answer : Bool}
    (h : Checker.isSuperOf ⟨d⟩ g limit (.cls c) = some answer) :
    answer = decide (g.Inherits c d) := by
  rw [Bool.eq_iff_iff, decide_eq_true_iff]
  exact Checker.isSuperOf_eq_some hacyclic hfirm rfl h

theorem collectedFields_eq_some (hacyclic : g.Acyclic) (hfirm : g.FirmSupertypes) {limit : ℕ}
    {c : ClassId} {fs : List FieldId} (h : g.collectedFields limit c = some fs) :
    fs = g.collected c := by
  rw [collectedFields, Option.map_eq_some_iff] at h
  obtain ⟨fs', hfs', rfl⟩ := h
  rw [inheritedFields, Option.map_eq_some_iff] at hfs'
  obtain ⟨groups, hgroups, rfl⟩ := hfs'
  rw [collected, inherited, List.flatMap_def]
  congr 2
  refine Search.map?_eq_some (fun owner _ passed hpassed => ?_) hgroups
  obtain ⟨overriders, hoverriders, rfl⟩ := Option.map_eq_some_iff.1 hpassed
  rw [Search.filter?_eq_some (fun d _ _ => isSuperOf_eq_decide hacyclic hfirm) hoverriders]

/-- In an acyclic graph the fields of a class are collected within some limit. -/
theorem Acyclic.exists_collectedFields (hacyclic : g.Acyclic) (hfirm : g.FirmSupertypes)
    (c : ClassId) : ∃ n, ∀ limit, n ≤ limit → (g.collectedFields limit c).isSome = true := by
  obtain ⟨n, hn⟩ := Search.exists_limit (g.ancestors c) fun owner _ =>
    Search.exists_limit (g.ancestors c) fun d _ =>
      Checker.exists_isSuperOf hacyclic hfirm ⟨owner⟩ (.cls d)
  refine ⟨n, fun limit hlimit => ?_⟩
  rw [collectedFields, Option.isSome_map, inheritedFields, Option.isSome_map]
  refine Search.isSome_map? fun owner howner => ?_
  rw [Option.isSome_map]
  exact Search.isSome_filter? fun d hd => hn limit hlimit owner howner d hd

/-! ## What is collected -/

/-- How a field comes down to a class: it is one of the fields of an ancestor, read through a
getter, and no class in between declares an instance field of the same name. -/
structure PassedDown (g : ClassGraph) (c a : ClassId) (f : FieldId) : Prop where
  inherits : g.Inherits c a
  proper : (g.decl a).isRoot = false
  declared : f ∈ (g.decl a).fields
  backed : (g.field f).propertyBacked = true
  unhidden : ∀ b, g.Inherits c b → g.Inherits b a → ∀ f' ∈ (g.decl b).fields,
    (g.field f').isStatic = false → (g.field f').name ≠ (g.field f).name

theorem mem_instanceFields {c : ClassId} {f : FieldId} :
    f ∈ g.instanceFields c ↔ f ∈ (g.decl c).fields ∧ (g.field f).isStatic = false := by
  rw [instanceFields, List.mem_filter, Bool.not_eq_true']

theorem mem_instanceFieldNames {c : ClassId} {name : String} :
    name ∈ g.instanceFieldNames c ↔
      ∃ f ∈ (g.decl c).fields, (g.field f).isStatic = false ∧ (g.field f).name = name := by
  simp only [instanceFieldNames, List.mem_map, mem_instanceFields, and_assoc]

/-- A class passes on the property-backed instance fields whose names no overrider declares. -/
theorem mem_passedOn {owner : ClassId} {overriders : List ClassId} {f : FieldId} :
    f ∈ g.passedOn owner overriders ↔
      (f ∈ (g.decl owner).fields ∧ (g.field f).isStatic = false) ∧
        (g.field f).propertyBacked = true ∧
          ∀ d ∈ overriders, (g.field f).name ∉ g.instanceFieldNames d := by
  rw [passedOn, List.mem_filter, mem_instanceFields]
  simp only [Bool.and_eq_true, Bool.not_eq_true', List.any_eq_false, List.contains_iff_mem]

/-- The inherited fields of a class are those that come down to it. -/
theorem mem_inherited_iff (hbare : g.BareRoots) {c : ClassId} {f : FieldId} :
    f ∈ g.inherited c ↔ (g.field f).isStatic = false ∧ ∃ a, g.PassedDown c a f := by
  simp only [inherited, List.mem_flatMap, mem_passedOn, List.mem_filter, decide_eq_true_iff]
  constructor
  · rintro ⟨a, ha, ⟨hdeclared, hstatic⟩, hbacked, hhidden⟩
    obtain ⟨hinherits, hproper⟩ := (mem_ancestors_iff hbare).1 ha
    refine ⟨hstatic, a, hinherits, hproper, hdeclared, hbacked, fun b hcb hba f' hf' hs hname => ?_⟩
    -- a class that inherits from another is no root, so it is met as an ancestor
    have hb : (g.decl b).isRoot = false := by
      obtain ⟨d, hbd, -⟩ := Relation.TransGen.head'_iff.1 hba
      exact hbd.isRoot_eq_false hbare
    exact hhidden b ⟨(mem_ancestors_iff hbare).2 ⟨hcb, hb⟩, hba⟩
      (mem_instanceFieldNames.2 ⟨f', hf', hs, hname⟩)
  · rintro ⟨hstatic, a, h⟩
    refine ⟨a, (mem_ancestors_iff hbare).2 ⟨h.inherits, h.proper⟩, ⟨h.declared, hstatic⟩, h.backed,
      ?_⟩
    rintro b ⟨hb, hba⟩ hname
    obtain ⟨f', hf', hs, hname⟩ := mem_instanceFieldNames.1 hname
    exact h.unhidden b ((mem_ancestors_iff hbare).1 hb).1 hba f' hf' hs hname

/-- The collected fields of a class are its own instance fields and those that come down to it. -/
theorem mem_collected_iff (hbare : g.BareRoots) {c : ClassId} {f : FieldId} :
    f ∈ g.collected c ↔
      (g.field f).isStatic = false ∧ (f ∈ (g.decl c).fields ∨ ∃ a, g.PassedDown c a f) := by
  rw [collected, List.mem_append, mem_instanceFields, mem_inherited_iff hbare]
  tauto

/-! ## Owners -/

/-- Whether no field is attached to two classes or twice to one, so that the owner of a field is the
class that has it. -/
structure AttachedOnce (g : ClassGraph) : Prop where
  owner : ∀ c, ∀ f ∈ (g.decl c).fields, (g.field f).owner = some c
  nodup : ∀ c, (g.decl c).fields.Nodup

/-- Fields are attached once if that holds for those of all places in the graph. -/
theorem attachedOnce_of_places
    (howner : ∀ c < g.classes.size, ∀ f ∈ (g.decl c).fields, (g.field f).owner = some c)
    (hnodup : ∀ c < g.classes.size, (g.decl c).fields.Nodup) : g.AttachedOnce := by
  have hplace : ∀ c, c < g.classes.size ∨ (g.decl c).fields = [] := by
    intro c
    refine (lt_or_ge c g.classes.size).imp_right fun hc => ?_
    rw [decl_of_size_le hc]
    rfl
  constructor
  case owner =>
    intro c f hf
    rcases hplace c with hc | hc
    · exact howner c hc f hf
    · simp [hc] at hf
  case nodup =>
    intro c
    rcases hplace c with hc | hc
    · exact hnodup c hc
    · simp [hc]

theorem AttachedOnce.nodup_instanceFields (h : g.AttachedOnce) (c : ClassId) :
    (g.instanceFields c).Nodup := (h.nodup c).filter _

theorem AttachedOnce.owner_instanceFields (h : g.AttachedOnce) {c : ClassId} {f : FieldId}
    (hf : f ∈ g.instanceFields c) : (g.field f).owner = some c :=
  h.owner c f (mem_instanceFields.1 hf).1

/-- The fields that a class inherits belong to proper ancestors of it. -/
theorem AttachedOnce.owner_inherited (h : g.AttachedOnce) (hbare : g.BareRoots) {c : ClassId}
    {f : FieldId} (hf : f ∈ g.inherited c) :
    ∃ a, (g.field f).owner = some a ∧ g.Inherits c a := by
  obtain ⟨-, a, ha⟩ := (mem_inherited_iff hbare).1 hf
  exact ⟨a, h.owner a f ha.declared, ha.inherits⟩

/-- The fields that are collected for a class belong to it or to ancestors of it. -/
theorem AttachedOnce.owner_collected (h : g.AttachedOnce) (hbare : g.BareRoots) {c : ClassId}
    {f : FieldId} (hf : f ∈ g.collected c) :
    ∃ a, (g.field f).owner = some a ∧ Relation.ReflTransGen g.Extends c a := by
  rw [collected, List.mem_append] at hf
  rcases hf with hf | hf
  · exact ⟨c, h.owner_instanceFields hf, .refl⟩
  · obtain ⟨a, ha, hinherits⟩ := h.owner_inherited hbare hf
    exact ⟨a, ha, hinherits.to_reflTransGen⟩

/-- No field is collected twice. -/
theorem AttachedOnce.nodup_collected (h : g.AttachedOnce) (hacyclic : g.Acyclic)
    (hbare : g.BareRoots) (c : ClassId) : (g.collected c).Nodup := by
  classical
  have hinherited : (g.inherited c).Nodup := by
    refine List.nodup_flatMap.2 ⟨fun a _ => (h.nodup_instanceFields a).filter _, ?_⟩
    -- ancestors are met once, and no two of them have a field in common
    refine (nodup_ancestors g c).imp fun {a b} hab f hfa hfb => hab ?_
    have ha : (g.field f).owner = some a := h.owner a f (mem_passedOn.1 hfa).1.1
    have hb : (g.field f).owner = some b := h.owner b f (mem_passedOn.1 hfb).1.1
    exact Option.some.inj (ha.symm.trans hb)
  refine (h.nodup_instanceFields c).append hinherited fun f hown hf => ?_
  obtain ⟨a, ha, hinherits⟩ := h.owner_inherited hbare hf
  obtain rfl : c = a := Option.some.inj ((h.owner_instanceFields hown).symm.trans ha)
  exact hacyclic c hinherits

end ClassCode.ClassGraph
