import ClassCode.Fields
import ClassCode.Proofs.Fields.Placement
import ClassCode.Proofs.Search
import ClassCode.Proofs.Supertypes

/-!
# Fields in order

Putting fields in order places their positions in the list, where a position comes after those of
the fields that precede its own. No fields of an acyclic graph precede each other in a circle, so
none is lost (`ordered_perm`).

Whether a field precedes another is found out by a search with a limit; `ordered` is the result when
the searches end, and in an acyclic graph they end within some limit.
-/

namespace ClassCode.ClassGraph

/-- Whether the class of a field is a proper ancestor of the class of another. -/
def Precedes (g : ClassGraph) (a b : FieldId) : Prop :=
  ∃ c d, (g.field a).owner = some c ∧ (g.field b).owner = some d ∧ g.Inherits d c

open scoped Classical in
/-- The positions in a list of the fields that are related to the field at a position. -/
noncomputable def positionsRelated (R : FieldId → FieldId → Prop) (fs : List FieldId) (i : ℕ) :
    List ℕ :=
  (fs.map fun a => (fs.zipIdx.filter fun entry => R a entry.1).map (·.2))[i]?.getD []

/-- The place in the source that counts for a position in a list. -/
def placeKey (g : ClassGraph) (fs : List FieldId) (i : ℕ) : ℤ :=
  ((fs[i]?.map g.field).getD Field.unknown).sortOffset

/-- Fields in order, with inheritance taken for granted. -/
noncomputable def ordered (g : ClassGraph) (fs : List FieldId) : List FieldId :=
  (Placement.place fs.length (g.placeKey fs) (positionsRelated g.Precedes fs)).filterMap
    fun i => fs[i]?

variable {g : ClassGraph}

/-! ## Results of the search -/

/-- If the answers are those of a relation, fields are put in order by placing their positions
according to it. -/
theorem sortByLocation_eq_place {R : FieldId → FieldId → Prop} {limit : ℕ}
    (hR : ∀ a b answer, g.precedes limit a b = some answer → (answer = true ↔ R a b))
    {fs fs' : List FieldId} (h : g.sortByLocation limit fs = some fs') :
    fs' = (Placement.place fs.length (g.placeKey fs) (positionsRelated R fs)).filterMap
      fun i => fs[i]? := by
  classical
  rw [sortByLocation, Option.map_eq_some_iff] at h
  obtain ⟨table, htable, rfl⟩ := h
  have htable' : table = fs.map fun a => (fs.zipIdx.filter fun entry => R a entry.1).map (·.2) := by
    refine Search.map?_eq_some (fun a _ positions hpositions => ?_) htable
    rw [followers, Option.map_eq_some_iff] at hpositions
    obtain ⟨entries, hentries, rfl⟩ := hpositions
    rw [Search.filter?_eq_some (fun entry _ answer hanswer => ?_) hentries]
    rw [Bool.eq_iff_iff, decide_eq_true_iff]
    exact hR a entry.1 answer hanswer
  rw [htable']
  rfl

/-- Fields are put in order within some limit if the search for each pair of them ends. -/
theorem exists_sortByLocation {fs : List FieldId}
    (h : ∀ a ∈ fs, ∀ b ∈ fs, ∃ n, ∀ limit, n ≤ limit → (g.precedes limit a b).isSome = true) :
    ∃ n, ∀ limit, n ≤ limit → (g.sortByLocation limit fs).isSome = true := by
  obtain ⟨n, hn⟩ := Search.exists_limit fs fun a ha =>
    Search.exists_limit fs.zipIdx fun entry hentry =>
      h a ha entry.1 (List.mem_of_getElem? (List.mem_zipIdx_iff_getElem?.1 hentry))
  refine ⟨n, fun limit hlimit => ?_⟩
  rw [sortByLocation, Option.isSome_map]
  refine Search.isSome_map? fun a ha => ?_
  rw [followers, Option.isSome_map]
  exact Search.isSome_filter? fun entry hentry => hn limit hlimit a ha entry hentry

/-- In an acyclic graph an answer tells whether a field precedes another. -/
theorem precedes_eq_some (hacyclic : g.Acyclic) (hfirm : g.FirmSupertypes) {limit : ℕ}
    {a b : FieldId} {answer : Bool} (h : g.precedes limit a b = some answer) :
    answer = true ↔ g.Precedes a b := by
  rw [precedes] at h
  split at h
  case h_1 c d hc hd =>
    have hiff : g.Precedes a b ↔ g.Inherits d c := by
      simp [Precedes, hc, hd]
    rw [hiff]
    split at h
    case isTrue hcd =>
      cases h
      simpa [hcd] using hacyclic d
    case isFalse => exact Checker.isSuperOf_eq_some hacyclic hfirm rfl h
  case h_2 hnone =>
    cases h
    simp only [Bool.false_eq_true, false_iff]
    rintro ⟨c, d, hc, hd, -⟩
    exact hnone c d hc hd

/-- In an acyclic graph there is an answer within some limit. -/
theorem Acyclic.exists_precedes (hacyclic : g.Acyclic) (hfirm : g.FirmSupertypes)
    (a b : FieldId) : ∃ n, ∀ limit, n ≤ limit → (g.precedes limit a b).isSome = true := by
  cases ha : (g.field a).owner with
  | none => exact ⟨0, fun limit _ => by simp [precedes, ha]⟩
  | some c =>
    cases hb : (g.field b).owner with
    | none => exact ⟨0, fun limit _ => by simp [precedes, ha, hb]⟩
    | some d =>
      obtain ⟨n, hn⟩ := Checker.exists_isSuperOf hacyclic hfirm ⟨c⟩ (.cls d)
      refine ⟨n, fun limit hlimit => ?_⟩
      simp only [precedes, ha, hb]
      split
      · rfl
      · exact hn limit hlimit

theorem sortByLocation_eq_some (hacyclic : g.Acyclic) (hfirm : g.FirmSupertypes) {limit : ℕ}
    {fs fs' : List FieldId} (h : g.sortByLocation limit fs = some fs') : fs' = g.ordered fs :=
  sortByLocation_eq_place (fun _ _ _ hanswer => precedes_eq_some hacyclic hfirm hanswer) h

/-- In an acyclic graph fields are put in order within some limit. -/
theorem Acyclic.exists_sortByLocation (hacyclic : g.Acyclic) (hfirm : g.FirmSupertypes)
    (fs : List FieldId) :
    ∃ n, ∀ limit, n ≤ limit → (g.sortByLocation limit fs).isSome = true :=
  ClassGraph.exists_sortByLocation fun a _ b _ => hacyclic.exists_precedes hfirm a b

/-! ## No field is lost -/

theorem mem_positionsRelated {R : FieldId → FieldId → Prop} {fs : List FieldId} {i j : ℕ} :
    j ∈ positionsRelated R fs i ↔ ∃ a b, fs[i]? = some a ∧ fs[j]? = some b ∧ R a b := by
  rw [positionsRelated, List.getElem?_map]
  cases hi : fs[i]? with
  | none => simp
  | some a =>
    simp only [Option.map_some, Option.getD_some, List.mem_map, List.mem_filter,
      decide_eq_true_iff, Prod.exists, List.mk_mem_zipIdx_iff_getElem?]
    constructor
    · rintro ⟨b, k, ⟨hk, hab⟩, rfl⟩
      exact ⟨a, b, rfl, hk, hab⟩
    · rintro ⟨a', b, ha, hj, hab⟩
      cases ha
      exact ⟨b, j, ⟨hj, hab⟩, rfl⟩

theorem lt_length_of_mem_positionsRelated (R : FieldId → FieldId → Prop) (fs : List FieldId)
    (i j : ℕ) (h : j ∈ positionsRelated R fs i) : j < fs.length := by
  obtain ⟨-, b, -, hj, -⟩ := mem_positionsRelated.1 h
  exact (List.getElem?_eq_some_iff.1 hj).1

/-- In an acyclic graph no positions come after each other in a circle. -/
theorem Acyclic.wellFounded_positions (hacyclic : g.Acyclic) (fs : List FieldId) :
    WellFounded fun i j => j ∈ positionsRelated g.Precedes fs i := by
  -- positions are compared through the classes that own the fields there
  let owner (i : ℕ) : ClassId := (fs[i]?.bind fun f => (g.field f).owner).getD rootId
  refine Subrelation.wf (fun {i j} hij => ?_) (InvImage.wf owner hacyclic.wellFounded.transGen)
  obtain ⟨a, b, hi, hj, c, d, hc, hd, hdc⟩ := mem_positionsRelated.1 hij
  have howners : owner i = c ∧ owner j = d := by simp [owner, hi, hj, hc, hd]
  rw [InvImage, howners.1, howners.2]
  exact Relation.transGen_swap.1 hdc

/-- In an acyclic graph putting fields in order rearranges them. -/
theorem Acyclic.ordered_perm (hacyclic : g.Acyclic) (fs : List FieldId) :
    (g.ordered fs).Perm fs := by
  have hperm := Placement.place_perm (g.placeKey fs) (lt_length_of_mem_positionsRelated _ fs)
    (hacyclic.wellFounded_positions fs)
  have hfields : (List.range fs.length).map (fun i => fs[i]?) = fs.map some :=
    List.ext_getElem (by simp) (by simp)
  refine (hperm.filterMap fun i => fs[i]?).trans (.of_eq ?_)
  calc (List.range fs.length).filterMap (fun i => fs[i]?)
      = ((List.range fs.length).map fun i => fs[i]?).filterMap id := by
        rw [List.filterMap_map]
        rfl
    _ = fs := by
        rw [hfields, List.filterMap_map]
        exact List.filterMap_some

end ClassCode.ClassGraph
