import ClassCode.Proofs.Implementation.Instantiation
import ClassCode.Proofs.Supertypes.Above

/-!
# Searches for a class agree

In an acyclic graph there are three ways to look for a class above a type: the search that stops at
the first match, the one that collects all matches but does not go on above them, and the ancestry,
which holds everything. They see the same instantiations of the class (`implementations_agree`).

## Shape of the proof

Collecting goes through the types above with the list of matches found so far; `Gathers` says what
that adds to the list. Nothing is lost by stopping at a match, since in an acyclic graph no other
type above it refers to the same class, and of a match that is the same as an earlier one only the
display may be lost. The first match is the first one collected, as the search for it takes the same
way (`head?_collect`).
-/

namespace ClassCode

variable {g : ClassGraph}

/-! ## New members -/

theorem subset_insertNew (found : List Ty) (t : Ty) : found ⊆ insertNew found t := by
  rw [insertNew]
  split
  · exact List.Subset.refl found
  · exact List.subset_append_left found [t]

theorem mem_insertNew {found : List Ty} {t r : Ty} (h : r ∈ insertNew found t) :
    r ∈ found ∨ r = t := by
  rw [insertNew] at h
  split at h
  · exact .inl h
  · rwa [List.mem_append, List.mem_singleton] at h

theorem contains_insertNew (found : List Ty) (t : Ty) :
    (insertNew found t).contains t = true := by
  rw [insertNew]
  split
  · assumption
  · simp [List.contains_append]

theorem distinct_insertNew {found : List Ty} (h : Ty.Distinct found) (t : Ty) :
    Ty.Distinct (insertNew found t) := by
  rw [insertNew]
  split
  · exact h
  case isFalse hnew => exact h.concat hnew

/-- The first member stays, and to an empty list the new one becomes the first. -/
theorem head?_insertNew (found : List Ty) (t : Ty) :
    (insertNew found t).head? = found.head?.or (some t) := by
  rw [insertNew]
  cases found with
  | nil => rfl
  | cons r found => split <;> rfl

namespace ClassGraph

/-- Whether a type has one type argument for each type parameter of its class, if it is an
instantiation. -/
def Saturated (g : ClassGraph) : Ty → Prop
  | .inst d args => (g.decl d).typeParams.length = args.length
  | _ => True

instance (g : ClassGraph) : DecidablePred g.Saturated
  | .inst d args => inferInstanceAs (Decidable ((g.decl d).typeParams.length = args.length))
  | .builtin _ _ | .param _ | .boundedParam _ _ | .cls _ | .plain _ _ =>
    inferInstanceAs (Decidable True)

/-- Substitution keeps the number of type arguments. -/
theorem Saturated.subst {t : Ty} (h : g.Saturated t) (ht : t.isParam = false) (m : Assignment) :
    g.Saturated (t.subst m) := by
  cases t with
  | inst d args =>
    have hlength : (g.decl d).typeParams.length = args.length := h
    rw [Ty.subst, Saturated, Ty.substAll_eq_map, List.length_map, hlength]
  | param | boundedParam => cases ht
  | _ => trivial

/-- The supertypes of a type are saturated if all declared ones are. -/
theorem saturated_of_mem_supertypes (hfirm : g.FirmSupertypes)
    (hsaturated : ∀ c, ∀ s ∈ (g.decl c).supertypes, g.Saturated s) {t s : Ty}
    (hs : s ∈ g.supertypes t) : g.Saturated s := by
  cases t with
  | cls c => exact hsaturated c s hs
  | inst c args =>
    rw [supertypes_inst] at hs
    obtain ⟨u, hu, rfl⟩ := List.mem_map.1 hs
    exact (hsaturated c u hu).subst (hfirm c u hu) _
  | _ => cases hs

/-- A saturated type that refers to a class has as many type arguments as this has type
parameters. -/
theorem Saturated.length_typeArgs {t : Ty} (h : g.Saturated t) {c : ClassId}
    (ht : t.definition? = some c) : (g.typeArgs t).length = (g.decl c).typeParams.length := by
  cases t with
  | cls d =>
    cases ht
    rfl
  | inst d args =>
    cases ht
    exact Eq.symm h
  | _ => cases ht

end ClassGraph

namespace Checker

variable {k : Checker}

/-! ## Collecting -/

/-- What going through types makes of the matches found before: it keeps them, and of all matches
among the types and above them it adds those that are not there yet. -/
structure Gathers (k : Checker) (g : ClassGraph) (found ts all : List Ty) : Prop where
  distinct : Ty.Distinct found → Ty.Distinct all
  kept : found ⊆ all
  matched : ∀ r ∈ all, r ∈ found ∨ k.isExactly r = true ∧ ∃ t ∈ ts, g.Above t r
  complete : ∀ t ∈ ts, ∀ s, g.Above t s → k.isExactly s = true → all.contains s = true

theorem gathers_nil (k : Checker) (g : ClassGraph) (found : List Ty) :
    k.Gathers g found [] found where
  distinct := id
  kept := List.Subset.refl found
  matched := fun _ hr => .inl hr
  complete := by simp

/-- Going through types one after another adds up. -/
theorem Gathers.append {found mid all ts : List Ty} {t : Ty} (h : k.Gathers g found [t] mid)
    (h' : k.Gathers g mid ts all) : k.Gathers g found (t :: ts) all where
  distinct := fun hfound => h'.distinct (h.distinct hfound)
  kept := List.Subset.trans h.kept h'.kept
  matched := by
    intro r hr
    rcases h'.matched r hr with hr | ⟨hexact, s, hs, habove⟩
    · rcases h.matched r hr with hr | ⟨hexact, s, hs, habove⟩
      · exact .inl hr
      · exact .inr ⟨hexact, s, List.mem_cons.2 (.inl (List.mem_singleton.1 hs)), habove⟩
    · exact .inr ⟨hexact, s, List.mem_cons_of_mem t hs, habove⟩
  complete := by
    intro s hs r habove hexact
    rcases List.mem_cons.1 hs with rfl | hs
    · exact Ty.contains_of_subset h'.kept (h.complete s (by simp) r habove hexact)
    · exact h'.complete s hs r habove hexact

/-- A match is added itself, and there is no other one above it. -/
theorem gathers_insertNew (hacyclic : g.Acyclic) (hfirm : g.FirmSupertypes) {t : Ty}
    (ht : k.isExactly t = true) (found : List Ty) :
    k.Gathers g found [t] (insertNew found t) where
  distinct := fun hfound => distinct_insertNew hfound t
  kept := subset_insertNew found t
  matched := by
    intro r hr
    rcases mem_insertNew hr with hr | rfl
    · exact .inl hr
    · exact .inr ⟨ht, r, by simp, .refl⟩
  complete := by
    intro u hu s habove hs
    rw [List.mem_singleton.1 hu] at habove
    rw [habove.eq_of_definition?_eq hacyclic hfirm (isExactly_iff.1 ht) (isExactly_iff.1 hs)]
    exact contains_insertNew found t

/-- Of a type that is no match, the matches are those above it. -/
theorem Gathers.up {t : Ty} (ht : ¬ k.isExactly t = true) {found all : List Ty}
    (h : k.Gathers g found (g.searchOrder t) all) : k.Gathers g found [t] all where
  distinct := h.distinct
  kept := h.kept
  matched := by
    intro r hr
    rcases h.matched r hr with hr | ⟨hexact, s, hs, habove⟩
    · exact .inl hr
    · exact .inr ⟨hexact, t, by simp, habove.head (ClassGraph.mem_searchOrder.1 hs)⟩
  complete := by
    intro u hu s habove hs
    rw [List.mem_singleton.1 hu] at habove
    rcases habove.cases_head with rfl | ⟨v, hv, hvs⟩
    · exact absurd hs ht
    · exact h.complete v (ClassGraph.mem_searchOrder.2 hv) s hvs hs

/-- Going through types gathers their matches, if collecting those of one type does. -/
theorem foldl?_collect_spec {limit : ℕ}
    (hcollect : ∀ found t all, k.collect g limit found t = some all → k.Gathers g found [t] all)
    (ts : List Ty) {found all : List Ty}
    (h : Search.foldl? (k.collect g limit) found ts = some all) : k.Gathers g found ts all := by
  induction ts generalizing found with
  | nil =>
    cases h
    exact gathers_nil k g all
  | cons t ts ih =>
    rw [Search.foldl?] at h
    split at h
    case h_1 mid hmid => exact (hcollect found t mid hmid).append (ih h)
    case h_2 => cases h

/-- Collecting the matches of a type gathers them. -/
theorem collect_spec (hacyclic : g.Acyclic) (hfirm : g.FirmSupertypes) (limit : ℕ)
    (found : List Ty) (t : Ty) (all : List Ty) (h : k.collect g limit found t = some all) :
    k.Gathers g found [t] all := by
  induction limit generalizing found t all with
  | zero => cases h
  | succ limit ih =>
    rw [collect] at h
    split at h
    case isTrue ht =>
      cases h
      exact gathers_insertNew hacyclic hfirm ht found
    case isFalse ht => exact (foldl?_collect_spec ih (g.searchOrder t) h).up ht

/-- The first match among types is the first one that going through them adds. -/
theorem head?_foldl?_collect {limit : ℕ}
    (hcollect : ∀ found t all, k.collect g limit found t = some all →
      ∃ r, k.implementation? g limit t = some r ∧ all.head? = found.head?.or r)
    (ts : List Ty) {found all : List Ty}
    (h : Search.foldl? (k.collect g limit) found ts = some all) :
    ∃ r, Search.first? (k.implementation? g limit) ts = some r ∧
      all.head? = found.head?.or r := by
  induction ts generalizing found with
  | nil =>
    cases h
    exact ⟨none, rfl, by rw [Option.or_none]⟩
  | cons t ts ih =>
    rw [Search.foldl?] at h
    split at h
    case h_1 mid hmid =>
      obtain ⟨r, hr, hmidhead⟩ := hcollect found t mid hmid
      obtain ⟨r', hr', hhead⟩ := ih h
      rw [Search.first?, hr]
      cases r with
      | none =>
        rw [Option.or_none] at hmidhead
        exact ⟨r', hr', hmidhead ▸ hhead⟩
      | some b =>
        -- the search for the first match stops here, and what comes later does not become the first
        refine ⟨some b, rfl, ?_⟩
        rw [hhead, hmidhead, Option.or_assoc, Option.some_or]
    case h_2 => cases h

/-- The first match of a type is the first one that collecting adds. -/
theorem head?_collect (limit : ℕ) (found : List Ty) (t : Ty) (all : List Ty)
    (h : k.collect g limit found t = some all) :
    ∃ r, k.implementation? g limit t = some r ∧ all.head? = found.head?.or r := by
  induction limit generalizing found t all with
  | zero => cases h
  | succ limit ih =>
    rw [collect] at h
    rw [implementation?]
    split at h
    case isTrue ht =>
      cases h
      exact ⟨some t, by rw [if_pos ht], head?_insertNew found t⟩
    case isFalse ht =>
      rw [if_neg ht]
      exact head?_foldl?_collect ih (g.searchOrder t) h

/-! ## Larger limits -/

theorem stable_implementation? (k : Checker) (g : ClassGraph) (t : Ty) :
    Search.Stable fun limit => k.implementation? g limit t := by
  refine Search.stable_of_succ fun limit r h => ?_
  induction limit generalizing t r with
  | zero => cases h
  | succ limit ih =>
    rw [implementation?] at h ⊢
    split at h
    case isTrue ht => rwa [if_pos ht]
    case isFalse ht =>
      rw [if_neg ht]
      exact Search.first?_mono (fun s _ found hfound => ih s found hfound) h

theorem collect_succ {limit : ℕ} {found all : List Ty} {t : Ty}
    (h : k.collect g limit found t = some all) : k.collect g (limit + 1) found t = some all := by
  induction limit generalizing found t all with
  | zero => cases h
  | succ limit ih =>
    rw [collect] at h ⊢
    split at h
    case isTrue ht => rwa [if_pos ht]
    case isFalse ht =>
      rw [if_neg ht]
      exact Search.foldl?_mono (fun s _ found all hall => ih hall) h

theorem stable_implementations (k : Checker) (g : ClassGraph) (t : Ty) :
    Search.Stable fun limit => k.implementations g limit t :=
  Search.stable_of_succ fun _ _ h => collect_succ h

/-- If all ways up come to an end, so does collecting, whatever has been found before. -/
theorem exists_limit_collect (hgrounded : g.Grounded) (k : Checker) (t : Ty) :
    ∃ n, ∀ limit, n ≤ limit → ∀ found, (k.collect g limit found t).isSome = true := by
  induction t using hgrounded.induction with
  | _ t ih =>
    obtain ⟨n, hn⟩ := Search.exists_limit _ fun s hs =>
      ih s (ClassGraph.mem_searchOrder.1 hs)
    refine ⟨n + 1, fun limit hlimit found => ?_⟩
    obtain ⟨limit, rfl⟩ : ∃ l, limit = l + 1 := ⟨limit - 1, by omega⟩
    rw [collect]
    split
    · rfl
    · exact Search.isSome_foldl? (fun s hs found => hn limit (by omega) s hs found) found

/-! ## All implementations -/

/-- What a type's implementations of a class are. -/
structure Implements (k : Checker) (g : ClassGraph) (t : Ty) (all : List Ty) : Prop where
  /-- They are found by collecting. -/
  collected : Search.Settles (fun limit => k.implementations g limit t) all
  /-- The first one is found by the search for the first match. -/
  first : Search.Settles (fun limit => k.implementation? g limit t) all.head?
  distinct : Ty.Distinct all
  matched : ∀ r ∈ all, g.Above t r ∧ k.isExactly r = true
  complete : ∀ s, g.Above t s → k.isExactly s = true → all.contains s = true

/-- In an acyclic graph every type has its implementations. -/
theorem exists_implements (hacyclic : g.Acyclic) (hfirm : g.FirmSupertypes) (k : Checker)
    (t : Ty) : ∃ all, k.Implements g t all := by
  obtain ⟨n, hn⟩ := exists_limit_collect (hacyclic.supertypes_wellFounded hfirm) k t
  obtain ⟨all, hall⟩ := Option.isSome_iff_exists.1 (hn n (Nat.le_refl n) [])
  have hgathers := collect_spec hacyclic hfirm n [] t all hall
  obtain ⟨r, hr, hhead⟩ := head?_collect n [] t all hall
  refine ⟨all, (stable_implementations k g t).settles hall, ?_, hgathers.distinct .nil, ?_, ?_⟩
  · obtain rfl : all.head? = r := by rw [hhead, List.head?_nil, Option.none_or]
    exact (stable_implementation? k g t).settles hr
  · intro s hs
    obtain ⟨hexact, u, hu, habove⟩ := (hgathers.matched s hs).resolve_left (by simp)
    exact ⟨List.mem_singleton.1 hu ▸ habove, hexact⟩
  · exact fun s => hgathers.complete t (by simp) s

/-- The type arguments that are found are those of the first implementation. -/
theorem Implements.typeArguments {t : Ty} {all : List Ty} (h : k.Implements g t all) :
    Search.Settles (fun limit => k.typeArgumentsOf g limit t) (all.head?.map g.typeArgs) := by
  obtain ⟨n, hn⟩ := h.first.ends
  refine ((stable_implementation? k g t).map _).settles (n := n) ?_
  rw [hn n (Nat.le_refl n)]
  rfl

/-- The implementations are the members of the ancestry that are exactly the class. -/
theorem Implements.sameMembers {t : Ty} {all found : List Ty} (h : k.Implements g t all)
    {limit : ℕ} (hfound : g.ancestry limit t = some found) :
    Ty.SameMembers all (found.filter k.isExactly) := by
  refine Ty.sameMembers_of_contains (fun r hr => ?_) fun r hr => ?_
  · obtain ⟨habove, hexact⟩ := h.matched r hr
    obtain ⟨r', hr', hrr'⟩ := List.contains_iff_exists_mem_beq.1
      (ClassGraph.contains_ancestry hfound habove)
    have hexact' : k.isExactly r' = true := by
      rw [isExactly_iff] at hexact ⊢
      rw [← Ty.definition?_of_beq hrr', hexact]
    exact List.contains_iff_exists_mem_beq.2 ⟨r', List.mem_filter.2 ⟨hr', hexact'⟩, hrr'⟩
  · obtain ⟨hr, hexact⟩ := List.mem_filter.1 hr
    exact h.complete r (ClassGraph.above_of_mem_ancestry hfound hr) hexact

/-! ## Agreement -/

/-- Whether a value of a type is a value of the class depends on whether the ancestry of the type
has the class. -/
theorem settles_isAssignableFrom (k : Checker) {t : Ty} {n : ℕ} {found : List Ty}
    (hfound : g.ancestry n t = some found) :
    Search.Settles (fun limit => k.isAssignableFrom g limit t) (found.any k.isExactly) := by
  by_cases ht : k.isExactly t = true
  · have hany : found.any k.isExactly = true :=
      List.any_eq_true.2 ⟨t, ((g.explores_start t).expand hfound).start, ht⟩
    have hconst : (fun limit => k.isAssignableFrom g limit t) = fun _ => some true := by
      funext limit
      rw [isAssignableFrom, if_pos ht]
    rw [hconst, hany]
    exact ⟨⟨0, fun _ _ => rfl⟩, fun _ _ h => (Option.some.inj h).symm⟩
  · have hsearch : (fun limit => k.isAssignableFrom g limit t) =
        fun limit => (g.ancestry limit t).map fun found => found.any k.isExactly := by
      funext limit
      rw [isAssignableFrom, if_neg ht, isSuperOf, if_neg ht]
    rw [hsearch]
    exact ((g.stable_ancestry t).map _).settles (by rw [hfound, Option.map_some])

/-- In an acyclic graph all searches for a class above a type agree. The implementations that are
collected are, each once, the members of the ancestry that are exactly the class; the first of them
is what the search for the first match finds; and there are type arguments if and only if the type
can be assigned to the class, as many as the class has type parameters. -/
theorem implementations_agree (hacyclic : g.Acyclic) (hfirm : g.FirmSupertypes)
    (hsaturated : ∀ c, ∀ s ∈ (g.decl c).supertypes, g.Saturated s) {t : Ty}
    (ht : g.Saturated t) (k : Checker) :
    ∃ (all found : List Ty) (assignable : Bool) (arguments : Option (List Ty)),
      Search.Settles (fun limit => k.implementations g limit t) all ∧
      Search.Settles (fun limit => g.ancestry limit t) found ∧
      Search.Settles (fun limit => k.implementation? g limit t) all.head? ∧
      Search.Settles (fun limit => k.isAssignableFrom g limit t) assignable ∧
      Search.Settles (fun limit => k.typeArgumentsOf g limit t) arguments ∧
      Ty.Distinct all ∧
      Ty.SameMembers all (found.filter k.isExactly) ∧
      (arguments = none ↔ assignable = false) ∧
      ∀ args, arguments = some args →
        args.length = (g.decl k.definition).typeParams.length := by
  obtain ⟨all, hall⟩ := exists_implements hacyclic hfirm k t
  obtain ⟨n, hn⟩ := hacyclic.exists_ancestry hfirm t
  obtain ⟨found, hfound⟩ := Option.isSome_iff_exists.1 (hn n (Nat.le_refl n))
  have hsame := hall.sameMembers hfound
  refine ⟨all, found, found.any k.isExactly, all.head?.map g.typeArgs, hall.collected,
    (g.stable_ancestry t).settles hfound, hall.first, k.settles_isAssignableFrom hfound,
    hall.typeArguments, hall.distinct, hsame, ?_, fun args hargs => ?_⟩
  · rw [Option.map_eq_none_iff, List.head?_eq_none_iff, List.any_eq_false, hsame.eq_nil_iff,
      List.filter_eq_nil_iff]
  · obtain ⟨r, hr, rfl⟩ := Option.map_eq_some_iff.1 hargs
    obtain ⟨habove, hexact⟩ := hall.matched r (List.mem_of_mem_head? hr)
    have hr' : g.Saturated r := habove.forall
      (fun _ _ _ hs => ClassGraph.saturated_of_mem_supertypes hfirm hsaturated hs) ht
    exact hr'.length_typeArgs (isExactly_iff.1 hexact)

/-- A diamond that implements a generic class in two ways: `Left implements Ser<int>`,
`Right implements Ser<String>` and `Bottom extends Right implements Left, Ser<int>`, where `int`
goes by another name the second time. -/
def divergentGraph : ClassGraph :=
  let object : Option Ty := some (.cls ClassGraph.rootId)
  ⟨#[ClassGraph.rootDecl "Object",
    { ClassDecl.unknown with name := "Ser", typeParams := [.param "T"], superclass := object },
    { ClassDecl.unknown with
      name := "Left", superclass := object, interfaces := [.inst 1 [.builtin .int "int"]] },
    { ClassDecl.unknown with
      name := "Right", superclass := object, interfaces := [.inst 1 [.builtin .string "String"]] },
    { ClassDecl.unknown with
      name := "Bottom", superclass := some (.cls 3),
      interfaces := [.cls 2, .inst 1 [.builtin .int "integer"]] }], #[]⟩

/-- `Bottom` implements `Ser<int>` and `Ser<String>`. The ancestry has `Ser<int>` under the other
name, since it is met there first. -/
theorem implementations_divergent :
    (((divergentGraph.Acyclic ∧ divergentGraph.FirmSupertypes) ∧
        ∀ c, ∀ s ∈ (divergentGraph.decl c).supertypes, divergentGraph.Saturated s) ∧
      divergentGraph.Saturated (.cls 4)) ∧
    (⟨1⟩ : Checker).implementations divergentGraph 4 (.cls 4) =
      some [.inst 1 [.builtin .int "int"], .inst 1 [.builtin .string "String"]] ∧
    (⟨1⟩ : Checker).typeArgumentsOf divergentGraph 4 (.cls 4) =
      some (some [.builtin .int "int"]) ∧
    Ty.SameMembers [.inst 1 [.builtin .int "int"], .inst 1 [.builtin .string "String"]]
      [.inst 1 [.builtin .int "integer"], .inst 1 [.builtin .string "String"]] := by
  have hacyclic : divergentGraph.Acyclic := ClassGraph.acyclic_of_declared_before (by decide)
  have hfirm : divergentGraph.FirmSupertypes := ClassGraph.forall_supertypes (by decide)
  have hsaturated : ∀ c, ∀ s ∈ (divergentGraph.decl c).supertypes, divergentGraph.Saturated s :=
    ClassGraph.forall_supertypes (by decide)
  have ht : divergentGraph.Saturated (.cls 4) := by decide
  have hall : (⟨1⟩ : Checker).implementations divergentGraph 4 (.cls 4) =
      some [.inst 1 [.builtin .int "int"], .inst 1 [.builtin .string "String"]] := by decide
  have hfound : (divergentGraph.ancestry 10 (.cls 4)).map (List.filter (⟨1⟩ : Checker).isExactly) =
      some [.inst 1 [.builtin .int "integer"], .inst 1 [.builtin .string "String"]] := by decide
  obtain ⟨all, found, -, -, hsettles, hancestry, -, -, -, -, hsame, -⟩ :=
    implementations_agree hacyclic hfirm hsaturated ht ⟨1⟩
  obtain ⟨found', hfound', hfilter⟩ := Option.map_eq_some_iff.1 hfound
  rw [← hsettles.only 4 _ hall, ← hancestry.only 10 _ hfound', hfilter] at hsame
  exact ⟨⟨⟨⟨hacyclic, hfirm⟩, hsaturated⟩, ht⟩, hall, by decide, hsame⟩

end Checker

end ClassCode
