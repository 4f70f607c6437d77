import ClassCode.Proofs.Fields.Found
import ClassCode.Proofs.Supertypes.Finite

/-!
# Fields of classes that inherit in circles

Classes may inherit from each other in circles. Their fields are still put in order, as long as only
finitely many types are above each class, but those that are ahead of each other in a circle are
left out, together with all that such a field is ahead of (`sortByLocation_circles`). No field of an
acyclic graph is.
-/

namespace ClassCode.ClassGraph

variable {g : ClassGraph} {fs : List FieldId}

open Relation

/-! ## Fields ahead of others -/

/-- Whether the class of a field is a proper ancestor of the class of another: not the same class,
and some type above the latter refers to it. -/
def Ahead (g : ClassGraph) (a b : FieldId) : Prop :=
  ∃ c d, (g.field a).owner = some c ∧ (g.field b).owner = some d ∧ c ≠ d ∧
    ∃ s, g.Above (.cls d) s ∧ s.definition? = some c

/-- Whether a field of a list is ahead of another one of it. -/
def AheadIn (g : ClassGraph) (fs : List FieldId) (a b : FieldId) : Prop :=
  a ∈ fs ∧ b ∈ fs ∧ g.Ahead a b

/-- Whether a field can be reached from a circle of fields that are ahead of each other. -/
def Entangled (g : ClassGraph) (fs : List FieldId) (f : FieldId) : Prop :=
  ∃ a, TransGen (g.AheadIn fs) a a ∧ ReflTransGen (g.AheadIn fs) a f

/-- On any graph an answer tells whether a field is ahead of another. -/
theorem precedes_iff {limit : ℕ} {a b : FieldId} {answer : Bool}
    (h : g.precedes limit a b = some answer) : answer = true ↔ g.Ahead a b := by
  unfold precedes at h
  split at h
  case h_1 c d hc hd =>
    have hiff : g.Ahead a b ↔ c ≠ d ∧ ∃ s, g.Above (.cls d) s ∧ s.definition? = some c := by
      simp [Ahead, hc, hd]
    rw [hiff]
    split at h
    case isTrue hcd =>
      cases h
      simp [hcd]
    case isFalse =>
      rw [Checker.isSuperOf_iff h]
      simp [Ty.definition?, eq_comm]
  case h_2 hnone =>
    cases h
    simp only [Bool.false_eq_true, false_iff]
    rintro ⟨c, d, hc, hd, -⟩
    exact hnone c d hc hd

/-- If only finitely many types are above the class of the second field, there is an answer within
some limit. -/
theorem exists_precedes_of_finiteAbove (a : FieldId) {b : FieldId}
    (h : ∀ d, (g.field b).owner = some d → g.FiniteAbove (.cls d)) :
    ∃ n, ∀ limit, n ≤ limit → (g.precedes limit a b).isSome = true := by
  unfold precedes
  split
  case h_1 c d _ hd =>
    obtain ⟨n, hn⟩ := Checker.exists_isSuperOf_of_finiteAbove (h d hd) ⟨c⟩
    refine ⟨n, fun limit hlimit => ?_⟩
    split
    · rfl
    · exact hn limit hlimit
  case h_2 => exact ⟨0, fun _ _ => rfl⟩

theorem stable_precedes (g : ClassGraph) (a b : FieldId) :
    Search.Stable fun limit => g.precedes limit a b := by
  unfold precedes
  split
  · split
    · exact fun _ _ _ _ h => h
    · exact Checker.stable_isSuperOf _ g _
  · exact fun _ _ _ _ h => h

/-- A larger limit does not change the order in which fields are put. -/
theorem stable_sortByLocation (g : ClassGraph) (fs : List FieldId) :
    Search.Stable fun limit => g.sortByLocation limit fs := by
  intro limit limit' hle result h
  obtain ⟨table, htable, rfl⟩ := Option.map_eq_some_iff.1 h
  refine Option.map_eq_some_iff.2 ⟨table, Search.map?_mono (fun a _ later hlater => ?_) htable, rfl⟩
  obtain ⟨entries, hentries, rfl⟩ := Option.map_eq_some_iff.1 hlater
  refine Option.map_eq_some_iff.2 ⟨entries, Search.filter?_mono (fun entry _ b hb => ?_) hentries,
    rfl⟩
  exact g.stable_precedes a entry.1 hle b hb

/-! ## From positions to fields -/

theorem blocks_iff {i j : ℕ} :
    Placement.Blocks fs.length (positionsRelated g.Ahead fs) i j ↔
      ∃ a b, fs[i]? = some a ∧ fs[j]? = some b ∧ g.Ahead a b := by
  unfold Placement.Blocks
  rw [mem_positionsRelated]
  constructor
  · exact And.right
  · rintro ⟨a, b, hi, hab⟩
    exact ⟨(List.getElem?_eq_some_iff.1 hi).1, a, b, hi, hab⟩

/-- Positions wait for each other in circles as the fields there are ahead of each other. -/
theorem exists_circle_iff (hfs : fs.Nodup) {j : ℕ} {f : FieldId} (hj : fs[j]? = some f) :
    (∃ i, TransGen (Placement.Blocks fs.length (positionsRelated g.Ahead fs)) i i ∧
        ReflTransGen (Placement.Blocks fs.length (positionsRelated g.Ahead fs)) i j) ↔
      g.Entangled fs f := by
  constructor
  · rintro ⟨i, hcircle, hreach⟩
    have hlift : ∀ i k, Placement.Blocks fs.length (positionsRelated g.Ahead fs) i k →
        g.AheadIn fs (fs[i]?.getD f) (fs[k]?.getD f) := by
      intro i k hik
      obtain ⟨a, b, hi, hk, hab⟩ := blocks_iff.1 hik
      rw [hi, hk]
      exact ⟨List.mem_of_getElem? hi, List.mem_of_getElem? hk, hab⟩
    have hf : f = fs[j]?.getD f := by rw [hj]; rfl
    refine ⟨fs[i]?.getD f, hcircle.lift (fun i => fs[i]?.getD f) hlift, ?_⟩
    nth_rewrite 2 [hf]
    exact hreach.lift (fun i => fs[i]?.getD f) hlift
  · rintro ⟨a, hcircle, hreach⟩
    have hlift : ∀ a b, g.AheadIn fs a b →
        Placement.Blocks fs.length (positionsRelated g.Ahead fs) (fs.idxOf a) (fs.idxOf b) := by
      rintro a b ⟨ha, hb, hab⟩
      exact blocks_iff.2 ⟨a, b, List.getElem?_idxOf ha, List.getElem?_idxOf hb, hab⟩
    exact ⟨fs.idxOf a, hcircle.lift fs.idxOf hlift,
      idxOf_of_getElem? hfs hj ▸ hreach.lift fs.idxOf hlift⟩

/-! ## What is left out -/

/-- Fields in order are fields of the list, none twice, and all of them but the entangled ones. -/
theorem mem_sortByLocation (hfs : fs.Nodup) {limit : ℕ} {result : List FieldId}
    (h : g.sortByLocation limit fs = some result) :
    result.Nodup ∧ result ⊆ fs ∧ ∀ f ∈ fs, f ∉ result ↔ g.Entangled fs f := by
  obtain rfl := sortByLocation_eq_place (fun _ _ _ => precedes_iff) h
  refine ⟨?_, fun f hf => ?_, fun f hf => ?_⟩
  · have hselection := Placement.selection_place (g.placeKey fs)
      (lt_length_of_mem_positionsRelated g.Ahead fs)
    refine hselection.nodup.1.filterMap fun i k f hi hk => ?_
    obtain ⟨hlt, -⟩ := List.getElem?_eq_some_iff.1 hi
    exact (List.getElem?_inj hlt hfs).1 (hi.trans hk.symm)
  · obtain ⟨i, -, hi⟩ := List.mem_filterMap.1 hf
    exact List.mem_of_getElem? hi
  · obtain ⟨j, hlt, hget⟩ := List.mem_iff_getElem.1 hf
    have hj : fs[j]? = some f := List.getElem?_eq_some_iff.2 ⟨hlt, hget⟩
    rw [mem_filterMap_getElem? hfs hj,
      Placement.mem_place_iff _ (lt_length_of_mem_positionsRelated _ fs), exists_circle_iff hfs hj]
    simp [hlt]

/-- If only finitely many types are above each class, distinct fields are put in order whether
classes inherit in circles or not: the search settles on some of the fields, none twice, and leaves
out exactly those that can be reached from a circle of fields that are ahead of each other. In an
acyclic graph it leaves out none. -/
theorem sortByLocation_circles (g : ClassGraph) {fs : List FieldId} (hfs : fs.Nodup) :
    ((∀ f ∈ fs, ∀ c, (g.field f).owner = some c → g.FiniteAbove (.cls c)) →
      ∃ result, Search.Settles (fun limit => g.sortByLocation limit fs) result ∧
        result.Nodup ∧ result ⊆ fs ∧ ∀ f ∈ fs, f ∉ result ↔ g.Entangled fs f) ∧
    (g.Acyclic → (∀ c, ∀ s ∈ (g.decl c).supertypes, s.isClass = true) →
      ∃ result, Search.Settles (fun limit => g.sortByLocation limit fs) result ∧
        result.Perm fs) := by
  constructor
  · intro hfinite
    obtain ⟨n, hn⟩ : ∃ n, ∀ limit, n ≤ limit → (g.sortByLocation limit fs).isSome = true :=
      exists_sortByLocation fun a _ b hb => exists_precedes_of_finiteAbove a (hfinite b hb)
    obtain ⟨result, hresult⟩ := Option.isSome_iff_exists.1 (hn n (Nat.le_refl n))
    exact ⟨result, (g.stable_sortByLocation fs).settles hresult, mem_sortByLocation hfs hresult⟩
  · intro hacyclic hclasses
    have hfirm := firmSupertypes_of_isClass hclasses
    obtain ⟨n, hn⟩ := hacyclic.exists_sortByLocation hfirm fs
    obtain ⟨result, hresult⟩ := Option.isSome_iff_exists.1 (hn n (Nat.le_refl n))
    refine ⟨result, (g.stable_sortByLocation fs).settles hresult, ?_⟩
    rw [sortByLocation_eq_some hacyclic hfirm hresult]
    exact hacyclic.ordered_perm fs

/-- Classes `A<T> extends B` and `B extends A<int>` in a circle, `C extends B` and `D` beside it,
each with a field of its own. -/
def circleGraph : ClassGraph :=
  let property (name : String) (owner : ClassId) : Field :=
    { Field.unknown with name := name, propertyBacked := true, owner := some owner }
  ⟨#[rootDecl "Object",
    { ClassDecl.unknown with
      name := "A", typeParams := [.param "T"], superclass := some (.cls 2), fields := [0] },
    { ClassDecl.unknown with
      name := "B", superclass := some (.inst 1 [.builtin .int "int"]), fields := [1] },
    { ClassDecl.unknown with name := "C", superclass := some (.cls 2), fields := [2] },
    { ClassDecl.unknown with name := "D", superclass := some (.cls rootId), fields := [3] }],
    #[property "a" 1, property "b" 2, property "c" 3, property "d" 4]⟩

/-- Of the fields of these four classes only the last one is not lost, as only finitely many types
are above each class; the fields of a diamond are put in order without loss. -/
theorem sortByLocation_circle :
    ([0, 1, 2, 3].Nodup ∧ ∀ f ∈ [0, 1, 2, 3], ∀ c, (circleGraph.field f).owner = some c →
      circleGraph.FiniteAbove (.cls c)) ∧
    (Search.Settles (fun limit => circleGraph.sortByLocation limit [0, 1, 2, 3]) [3] ∧
      ∀ f ∈ [0, 1, 2, 3], f ∉ [3] ↔ circleGraph.Entangled [0, 1, 2, 3] f) ∧
    ∃ result, Search.Settles (fun limit => diamondGraph.sortByLocation limit [4, 0, 1, 2, 3])
      result ∧ result.Perm [4, 0, 1, 2, 3] := by
  have hnodup : [0, 1, 2, 3].Nodup := by decide
  have hfinite : ∀ f ∈ [0, 1, 2, 3], ∀ c, (circleGraph.field f).owner = some c →
      circleGraph.FiniteAbove (.cls c) := by
    intro f hf c hc
    simp only [List.mem_cons, List.not_mem_nil, or_false] at hf
    rcases hf with rfl | rfl | rfl | rfl <;> cases hc <;>
      exact @finiteAbove_of_ancestry circleGraph 20 _ _ rfl
  obtain ⟨result, hsettles, -, -, hlost⟩ :=
    (circleGraph.sortByLocation_circles hnodup).1 hfinite
  obtain rfl : [3] = result := hsettles.only 20 [3] rfl
  refine ⟨⟨hnodup, hfinite⟩, ⟨hsettles, hlost⟩, ?_⟩
  exact (diamondGraph.sortByLocation_circles (by decide)).2
    (acyclic_of_declared_before (by decide)) (forall_supertypes (by decide))

end ClassCode.ClassGraph
