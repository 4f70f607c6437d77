import ClassCode.Proofs.Search
import ClassCode.Proofs.Supertypes

/-!
# The ancestry holds the types above

On every graph, whatever the search for the ancestry of a type finds is the type itself or above it,
and of everything above it the search finds a type that is the same (`contains_ancestry`). It may
leave out types that display otherwise, but since the supertypes of types that are the same are the
same (`supertypes_beq`), it misses nothing above them.
-/

namespace ClassCode.ClassGraph

/-! ## Supertypes and display names -/

/-- Instantiations with the same type arguments assign the same types. -/
theorem agree_assignment (g : ClassGraph) (c : ClassId) {as bs : List Ty}
    (h : (as == bs) = true) : (g.assignment c as).Agree (g.assignment c bs) :=
  (Assignment.agree_refl []).putAll_zip (g.decl c).typeParams h

/-- The supertypes of types that are the same are the same. -/
theorem supertypes_beq (g : ClassGraph) {s t : Ty} (h : (s == t) = true) :
    (g.supertypes s == g.supertypes t) = true := by
  induction s, t, h using Ty.beq_induct with
  | inst c as bs hargs =>
    rw [supertypes_inst, supertypes_inst]
    exact Ty.map_beq_map fun u _ => Ty.subst_beq (g.agree_assignment c hargs) BEq.rfl
  | _ => exact BEq.rfl

/-- The type arguments of types that are the same are the same. -/
theorem typeArgs_beq (g : ClassGraph) {s t : Ty} (h : (s == t) = true) :
    (g.typeArgs s == g.typeArgs t) = true := by
  induction s, t, h using Ty.beq_induct with
  | inst c as bs hargs => exact hargs
  | _ => exact BEq.rfl

variable {g : ClassGraph}

/-! ## More room -/

/-- More steps and more room do not change what a search finds. -/
theorem expand_mono {steps steps' room room' : ℕ} (hsteps : steps ≤ steps') (hroom : room ≤ room')
    {stack found result : List Ty} (h : g.expand steps room stack found = some result) :
    g.expand steps' room' stack found = some result := by
  induction steps generalizing steps' room room' stack found with
  | zero =>
    cases stack with
    | nil =>
      rw [expand] at h ⊢
      exact h
    | cons t stack => cases h
  | succ steps ih =>
    obtain ⟨steps', rfl⟩ : ∃ n, steps' = n + 1 := ⟨steps' - 1, by omega⟩
    cases stack with
    | nil =>
      rw [expand] at h ⊢
      exact h
    | cons t stack =>
      rw [expand] at h ⊢
      split at h
      · cases h
      · rw [if_neg (by omega)]
        exact ih (by omega) (by omega) h

theorem stable_ancestry (g : ClassGraph) (t : Ty) :
    Search.Stable fun limit => g.ancestry limit t :=
  fun _ _ hle _ h => expand_mono hle hle h

/-! ## What the ancestry holds -/

/-- Every type above a type is found, up to sameness. -/
theorem contains_ancestry {limit : ℕ} {t s : Ty} {found : List Ty}
    (h : g.ancestry limit t = some found) (hs : g.Above t s) : found.contains s = true := by
  have hend : g.Explores t [] found := (explores_start g t).expand h
  rw [List.contains_iff_exists_mem_beq]
  induction hs with
  | refl => exact ⟨t, hend.start, BEq.rfl⟩
  | @tail u s _ hs ih =>
    obtain ⟨u', hu', huu'⟩ := ih
    -- the supertype of the type found instead is found, up to sameness again
    obtain ⟨s', hs', hss'⟩ := Ty.exists_mem_beq (g.supertypes_beq huu') hs
    have hfound := (hend.closed u' hu').resolve_left (by simp) s' hs'
    obtain ⟨s'', hs'', hs's''⟩ := List.contains_iff_exists_mem_beq.1 hfound
    exact ⟨s'', hs'', BEq.trans hss' hs's''⟩

/-- Every type found is the type itself or above it. -/
theorem above_of_mem_ancestry {limit : ℕ} {t s : Ty} {found : List Ty}
    (h : g.ancestry limit t = some found) (hs : s ∈ found) : g.Above t s :=
  ((explores_start g t).expand h).above s hs

/-! ## What holds for all types above -/

/-- What holds of a type and passes on to supertypes holds of all types above. -/
theorem Above.forall {p : Ty → Prop} (hp : ∀ u, p u → ∀ s ∈ g.supertypes u, p s) {t s : Ty}
    (h : g.Above t s) (ht : p t) : p s := by
  induction h with
  | refl => exact ht
  | tail _ hs ih => exact hp _ ih _ hs

/-- In an acyclic graph no type above another refers to the same class. -/
theorem Above.eq_of_definition?_eq (hacyclic : g.Acyclic) (hfirm : g.FirmSupertypes) {t s : Ty}
    (h : g.Above t s) {c : ClassId} (ht : t.definition? = some c) (hs : s.definition? = some c) :
    s = t := by
  rcases h.cases_head with heq | ⟨u, hu, hus⟩
  · exact heq.symm
  · obtain ⟨d, hd, hreach⟩ := Above.inherits hfirm hus hs
    have hcd : g.Extends c d := (exists_supertype_iff hfirm ht d).1 ⟨u, hu, hd⟩
    exact absurd (Relation.TransGen.head' hcd hreach) (hacyclic c)

end ClassCode.ClassGraph
