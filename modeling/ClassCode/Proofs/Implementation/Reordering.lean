import ClassCode.Proofs.Implementation.Agreement

/-!
# Implementations and the order of declaration

The order in which a class lists its interfaces and its mixins decides which implementation is found
first, but not which ones there are (`implementations_reorder`): the types above a type are the same
in both graphs, and the implementations are those among them that are exactly the class. So where
there is one implementation at most, it is found whatever the order.
-/

namespace ClassCode

/-- Lists with the same members begin with the same type, if one of them has one member at most. -/
theorem Ty.SameMembers.head?_beq {as bs : List Ty} (h : Ty.SameMembers as bs)
    (hlength : as.length ≤ 1) : (as.head? == bs.head?) = true := by
  match as, bs, hlength with
  | [], bs, _ =>
    rw [h.eq_nil]
    rfl
  | [a], [], _ => cases h.symm.eq_nil
  | [a], b :: bs, _ =>
    -- the first member of the other list is a member of this one
    have hb := h b
    rw [List.contains_cons, List.contains_cons, BEq.rfl, Bool.true_or, List.contains_nil,
      Bool.or_false] at hb
    rw [List.head?_cons, List.head?_cons, Option.some_beq_some]
    exact BEq.symm hb

namespace ClassGraph

variable {g g' : ClassGraph}

/-- Whether two graphs declare the same inheritance, but for the order in which classes list their
interfaces and mixins. -/
structure Reorders (g g' : ClassGraph) : Prop where
  typeParams : ∀ c, (g.decl c).typeParams = (g'.decl c).typeParams
  superclass : ∀ c, (g.decl c).superclass = (g'.decl c).superclass
  interfaces : ∀ c, (g.decl c).interfaces.Perm (g'.decl c).interfaces
  mixins : ∀ c, (g.decl c).mixins.Perm (g'.decl c).mixins

/-- Two graphs with equally many places are reorderings if their declarations are. -/
theorem reorders_of_places (hsize : g.classes.size = g'.classes.size)
    (h : ∀ c < g.classes.size,
      ((g.decl c).typeParams = (g'.decl c).typeParams ∧
        (g.decl c).superclass = (g'.decl c).superclass) ∧
      (g.decl c).interfaces.Perm (g'.decl c).interfaces ∧
        (g.decl c).mixins.Perm (g'.decl c).mixins) :
    g.Reorders g' := by
  -- at a place that the graphs do not have they declare the same
  have hplace : ∀ c, c < g.classes.size ∨ g.decl c = g'.decl c := by
    intro c
    refine (Nat.lt_or_ge c g.classes.size).imp_right fun hc => ?_
    rw [decl_of_size_le hc, decl_of_size_le (hsize ▸ hc)]
  exact {
    typeParams := fun c => (hplace c).elim (fun hc => (h c hc).1.1) fun heq => heq ▸ rfl
    superclass := fun c => (hplace c).elim (fun hc => (h c hc).1.2) fun heq => heq ▸ rfl
    interfaces := fun c => (hplace c).elim (fun hc => (h c hc).2.1) fun heq => heq ▸ .refl _
    mixins := fun c => (hplace c).elim (fun hc => (h c hc).2.2) fun heq => heq ▸ .refl _ }

/-- The declared supertypes of a class are rearranged. -/
theorem Reorders.declared_perm (h : g.Reorders g') (c : ClassId) :
    (g.decl c).supertypes.Perm (g'.decl c).supertypes := by
  rw [ClassDecl.supertypes, ClassDecl.supertypes, h.superclass]
  exact ((List.Perm.refl _).append (h.interfaces c)).append (h.mixins c)

/-- The supertypes of a type are rearranged. -/
theorem Reorders.supertypes_perm (h : g.Reorders g') (t : Ty) :
    (g.supertypes t).Perm (g'.supertypes t) := by
  cases t with
  | cls c => exact h.declared_perm c
  | inst c args =>
    rw [supertypes_inst, supertypes_inst, assignment, assignment, h.typeParams]
    exact (h.declared_perm c).map _
  | _ => exact .nil

/-- The same types are above a type. -/
theorem Reorders.above_iff (h : g.Reorders g') {t s : Ty} : g.Above t s ↔ g'.Above t s := by
  have hstep : (fun t s => s ∈ g.supertypes t) = fun t s => s ∈ g'.supertypes t := by
    funext t s
    exact propext (h.supertypes_perm t).mem_iff
  rw [Above, Above, hstep]

theorem Reorders.acyclic (h : g.Reorders g') (hacyclic : g.Acyclic) : g'.Acyclic := by
  have hextends : g'.Extends = g.Extends := by
    funext c d
    exact propext (exists_congr fun s => and_congr_left fun _ => (h.declared_perm c).mem_iff.symm)
  rw [Acyclic, Inherits, hextends]
  exact hacyclic

theorem Reorders.firmSupertypes (h : g.Reorders g') (hfirm : g.FirmSupertypes) :
    g'.FirmSupertypes :=
  fun c s hs => hfirm c s ((h.declared_perm c).mem_iff.2 hs)

theorem Reorders.typeArgs_eq (h : g.Reorders g') (t : Ty) : g.typeArgs t = g'.typeArgs t := by
  cases t with
  | cls c => exact h.typeParams c
  | _ => rfl

end ClassGraph

namespace Checker

variable {g g' : ClassGraph} {k : Checker}

/-- A type has the same implementations in both graphs. -/
theorem Implements.reorder (h : g.Reorders g') {t : Ty} {all all' : List Ty}
    (hall : k.Implements g t all) (hall' : k.Implements g' t all') : Ty.SameMembers all all' := by
  refine Ty.sameMembers_of_contains (fun r hr => ?_) fun r hr => ?_
  · obtain ⟨habove, hexact⟩ := hall.matched r hr
    exact hall'.complete r (h.above_iff.1 habove) hexact
  · obtain ⟨habove, hexact⟩ := hall'.matched r hr
    exact hall.complete r (h.above_iff.2 habove) hexact

/-- Type arguments of implementations that are the same are the same. -/
theorem map_typeArgs_beq (h : g.Reorders g') {r r' : Option Ty} (hr : (r == r') = true) :
    (r.map g.typeArgs == r'.map g'.typeArgs) = true := by
  cases r <;> cases r'
  case none.none => rfl
  case some.some r r' =>
    rw [Option.map_some, Option.map_some, Option.some_beq_some, ← h.typeArgs_eq]
    exact g.typeArgs_beq hr
  all_goals cases hr

/-- In acyclic graphs that differ in the order of interfaces and mixins only, a type has the same
implementations of a class. So if there is one at most, the search for the first one finds the same
in both graphs, and the type arguments are the same. -/
theorem implementations_reorder (hacyclic : g.Acyclic) (hfirm : g.FirmSupertypes)
    (h : g.Reorders g') (k : Checker) (t : Ty) :
    ∃ (all all' : List Ty) (first first' : Option Ty) (args args' : Option (List Ty)),
      (Search.Settles (fun limit => k.implementations g limit t) all ∧
        Search.Settles (fun limit => k.implementations g' limit t) all') ∧
      (Search.Settles (fun limit => k.implementation? g limit t) first ∧
        Search.Settles (fun limit => k.implementation? g' limit t) first') ∧
      (Search.Settles (fun limit => k.typeArgumentsOf g limit t) args ∧
        Search.Settles (fun limit => k.typeArgumentsOf g' limit t) args') ∧
      Ty.SameMembers all all' ∧
      (all.length ≤ 1 → (first == first') = true ∧ (args == args') = true) := by
  obtain ⟨all, hall⟩ := exists_implements hacyclic hfirm k t
  obtain ⟨all', hall'⟩ :=
    exists_implements (h.acyclic hacyclic) (h.firmSupertypes hfirm) k t
  have hsame : Ty.SameMembers all all' := hall.reorder h hall'
  refine ⟨all, all', all.head?, all'.head?, all.head?.map g.typeArgs, all'.head?.map g'.typeArgs,
    ⟨hall.collected, hall'.collected⟩, ⟨hall.first, hall'.first⟩,
    ⟨hall.typeArguments, hall'.typeArguments⟩, hsame, fun hlength => ?_⟩
  have hfirst := hsame.head?_beq hlength
  exact ⟨hfirst, map_typeArgs_beq h hfirst⟩

/-- `Bottom` with the given interfaces, where `Left implements Ser<int>`. -/
def bottomGraph (interfaces : List Ty) : ClassGraph :=
  let object : Option Ty := some (.cls ClassGraph.rootId)
  ⟨#[ClassGraph.rootDecl "Object",
    { ClassDecl.unknown with name := "Ser", typeParams := [.param "T"], superclass := object },
    { ClassDecl.unknown with
      name := "Left", superclass := object, interfaces := [.inst 1 [.builtin .int "int"]] },
    { ClassDecl.unknown with
      name := "Bottom", superclass := object, interfaces := interfaces }], #[]⟩

/-- `Bottom implements Left, Ser<integer>`. -/
def leftFirstGraph : ClassGraph := bottomGraph [.cls 2, .inst 1 [.builtin .int "integer"]]

/-- `Bottom implements Ser<integer>, Left`. -/
def leftLastGraph : ClassGraph := bottomGraph [.inst 1 [.builtin .int "integer"], .cls 2]

/-- `Bottom` has one implementation of `Ser`, whether `Left` comes first or last. It is found under
different names of the builtin, but is the same. -/
theorem implementations_leftFirst :
    ((leftFirstGraph.Acyclic ∧ leftFirstGraph.FirmSupertypes) ∧
      leftFirstGraph.Reorders leftLastGraph) ∧
    ((⟨1⟩ : Checker).implementations leftFirstGraph 4 (.cls 3) =
        some [.inst 1 [.builtin .int "int"]] ∧
      (⟨1⟩ : Checker).implementations leftLastGraph 4 (.cls 3) =
        some [.inst 1 [.builtin .int "integer"]]) ∧
    Ty.SameMembers [.inst 1 [.builtin .int "int"]] [.inst 1 [.builtin .int "integer"]] ∧
    (some (Ty.inst 1 [.builtin .int "int"]) == some (.inst 1 [.builtin .int "integer"])) = true ∧
      (some [Ty.builtin .int "int"] == some [.builtin .int "integer"]) = true := by
  have hacyclic : leftFirstGraph.Acyclic := ClassGraph.acyclic_of_declared_before (by decide)
  have hfirm : leftFirstGraph.FirmSupertypes := ClassGraph.forall_supertypes (by decide)
  have hreorders : leftFirstGraph.Reorders leftLastGraph :=
    ClassGraph.reorders_of_places rfl (by decide)
  have hall : (⟨1⟩ : Checker).implementations leftFirstGraph 4 (.cls 3) =
      some [.inst 1 [.builtin .int "int"]] := by decide
  have hall' : (⟨1⟩ : Checker).implementations leftLastGraph 4 (.cls 3) =
      some [.inst 1 [.builtin .int "integer"]] := by decide
  obtain ⟨all, all', first, first', args, args', ⟨hsettles, hsettles'⟩, ⟨hfirst, hfirst'⟩,
    ⟨hargs, hargs'⟩, hsame, hone⟩ := implementations_reorder hacyclic hfirm hreorders ⟨1⟩ (.cls 3)
  rw [← hsettles.only 4 _ hall, ← hsettles'.only 4 _ hall'] at hsame
  rw [← hsettles.only 4 _ hall, ← hfirst.only 4 (some (.inst 1 [.builtin .int "int"])) (by decide),
    ← hfirst'.only 4 (some (.inst 1 [.builtin .int "integer"])) (by decide),
    ← hargs.only 4 (some [.builtin .int "int"]) (by decide),
    ← hargs'.only 4 (some [.builtin .int "integer"]) (by decide)] at hone
  exact ⟨⟨⟨hacyclic, hfirm⟩, hreorders⟩, ⟨hall, hall'⟩, hsame, hone (by decide)⟩

end Checker

end ClassCode
