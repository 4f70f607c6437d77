import ClassCode.Proofs.Implementation.Agreement
import ClassCode.Proofs.Supertypes.Finite
import ClassCode.Proofs.Ty.Simultaneous

/-!
# Classes instantiated with their own type parameters

A class without type arguments is taken to be instantiated with its own type parameters. Searches
that start from it and from that instantiation find the same (`own_instantiation`).

The supertypes of the instantiation are made anew, with each type parameter put in place of itself.
They are the same as the declared ones (`supertypes_own`), though parameters that are the same may
change their display names, and parameters of other classes get new bounds. From there on the proof
does not care where types come from: searches from types that are the same find types that are the
same within every limit (`implementation?_beq`, `collect_beq`), and so does the way up
(`Above.beq`).
-/

namespace ClassCode

variable {g : ClassGraph}

open Relation

/-! ## Searches from types that are the same -/

namespace Ty

theorem append_beq_append {as bs cs ds : List Ty} (h : (as == bs) = true)
    (h' : (cs == ds) = true) : (as ++ cs == bs ++ ds) = true := by
  induction as, bs, h using beq_list_induct with
  | nil => exact h'
  | cons a b as bs hab _ ih =>
    rw [List.cons_append, List.cons_append, List.cons_beq_cons, hab, ih]
    rfl

theorem list_beq_symm {as bs : List Ty} (h : (as == bs) = true) : (bs == as) = true := by
  induction as, bs, h using beq_list_induct with
  | nil => rfl
  | cons a b as bs hab _ ih =>
    rw [List.cons_beq_cons, BEq.symm hab, ih]
    rfl

/-- Lists that are the same have the same members. -/
theorem sameMembers_of_beq {as bs : List Ty} (h : (as == bs) = true) : SameMembers as bs :=
  sameMembers_of_contains
    (fun _ ha => List.contains_iff_exists_mem_beq.2 (exists_mem_beq h ha))
    (fun _ hb => List.contains_iff_exists_mem_beq.2 (exists_mem_beq (list_beq_symm h) hb))

end Ty

theorem insertNew_beq {found found' : List Ty} (hfound : (found == found') = true) {s t : Ty}
    (h : (s == t) = true) : (insertNew found s == insertNew found' t) = true := by
  have hcontains : found.contains s = found'.contains t := by
    rw [Ty.sameMembers_of_beq hfound s, List.contains_congr h]
  rw [insertNew, insertNew, hcontains]
  split
  · exact hfound
  · refine Ty.append_beq_append hfound ?_
    rw [List.cons_beq_cons, h]
    rfl

namespace ClassGraph

/-- What is searched above types that are the same is the same. -/
theorem searchOrder_beq {s t : Ty} (h : (s == t) = true) :
    (g.searchOrder s == g.searchOrder t) = true := by
  induction s, t, h using Ty.beq_induct with
  | inst c as bs hargs =>
    rw [searchOrder_inst, searchOrder_inst]
    exact Ty.map_beq_map fun u _ => Ty.subst_beq (g.agree_assignment c hargs) BEq.rfl
  | _ => exact BEq.rfl

end ClassGraph

namespace Checker

variable {k : Checker}

theorem isExactly_of_beq (k : Checker) {s t : Ty} (h : (s == t) = true) :
    k.isExactly s = k.isExactly t := by
  rw [isExactly, isExactly, Ty.definition?_of_beq h]

/-- The first matches among types that are the same are the same, if those of each two are. -/
theorem first?_beq {limit : ℕ} {ss ts : List Ty} (h : (ss == ts) = true)
    (hsearch : ∀ s t, (s == t) = true →
      (k.implementation? g limit s == k.implementation? g limit t) = true) :
    (Search.first? (k.implementation? g limit) ss ==
      Search.first? (k.implementation? g limit) ts) = true := by
  induction ss, ts, h using Ty.beq_list_induct with
  | nil => rfl
  | cons s t ss ts hst _ ih =>
    have hhead := hsearch s t hst
    rw [Search.first?, Search.first?]
    generalize k.implementation? g limit s = found at hhead ⊢
    generalize k.implementation? g limit t = found' at hhead ⊢
    rcases found with _ | _ | r <;> rcases found' with _ | _ | r'
    case some.none.some.none => exact ih
    all_goals first | exact hhead | cases hhead

/-- The first matches of types that are the same are the same. -/
theorem implementation?_beq (k : Checker) (g : ClassGraph) (limit : ℕ) {s t : Ty}
    (h : (s == t) = true) :
    (k.implementation? g limit s == k.implementation? g limit t) = true := by
  induction limit generalizing s t with
  | zero => rfl
  | succ limit ih =>
    rw [implementation?, implementation?, k.isExactly_of_beq h]
    split
    · exact h
    · exact first?_beq (g.searchOrder_beq h) fun s t => ih

/-- Going through types that are the same adds matches that are the same, if collecting those of
each two does. -/
theorem foldl?_collect_beq {limit : ℕ} {ss ts : List Ty} (h : (ss == ts) = true)
    (hcollect : ∀ {found found' : List Ty}, (found == found') = true → ∀ {s t : Ty},
      (s == t) = true → (k.collect g limit found s == k.collect g limit found' t) = true)
    {found found' : List Ty} (hfound : (found == found') = true) :
    (Search.foldl? (k.collect g limit) found ss ==
      Search.foldl? (k.collect g limit) found' ts) = true := by
  induction ss, ts, h using Ty.beq_list_induct generalizing found found' with
  | nil => exact hfound
  | cons s t ss ts hst _ ih =>
    have hhead := hcollect hfound hst
    rw [Search.foldl?, Search.foldl?]
    generalize k.collect g limit found s = all at hhead ⊢
    generalize k.collect g limit found' t = all' at hhead ⊢
    cases all <;> cases all'
    case some.some => exact ih hhead
    all_goals first | exact hhead | cases hhead

/-- Collecting the matches of types that are the same adds matches that are the same. -/
theorem collect_beq (k : Checker) (g : ClassGraph) (limit : ℕ) {found found' : List Ty}
    (hfound : (found == found') = true) {s t : Ty} (h : (s == t) = true) :
    (k.collect g limit found s == k.collect g limit found' t) = true := by
  induction limit generalizing found found' s t with
  | zero => rfl
  | succ limit ih =>
    rw [collect, collect, k.isExactly_of_beq h]
    split
    · exact insertNew_beq hfound h
    · exact foldl?_collect_beq (g.searchOrder_beq h) ih hfound

end Checker

/-! ## The way up from types that are the same -/

namespace ClassGraph

/-- Above types that are the same are types that are the same. -/
theorem Above.beq {s t u : Ty} (h : g.Above s u) (hst : (s == t) = true) :
    ∃ v, g.Above t v ∧ (u == v) = true := by
  induction h with
  | refl => exact ⟨t, .refl, hst⟩
  | tail _ hu ih =>
    obtain ⟨v, hv, huv⟩ := ih
    obtain ⟨w, hw, huw⟩ := Ty.exists_mem_beq (g.supertypes_beq huv) hu
    exact ⟨w, hv.tail hw, huw⟩

/-- Where all ways up come to an end, no type is properly above itself, not even under other display
names. -/
theorem Grounded.beq_eq_false (h : g.Grounded) {t s u : Ty} (hs : s ∈ g.supertypes t)
    (hu : g.Above s u) : (u == t) = false := by
  induction t using h.induction generalizing s u with
  | _ t ih =>
    rw [Bool.eq_false_iff]
    intro hut
    -- the way from `t` to `u` goes on to a type that is the same as `s`
    obtain ⟨s', hs', hss'⟩ := Ty.exists_mem_beq (g.supertypes_beq (BEq.symm hut)) hs
    obtain ⟨v, hv, hvs'⟩ := TransGen.head'_iff.1 (TransGen.tail' hu hs')
    have hne := ih s hs hv hvs'
    rw [BEq.symm hss'] at hne
    cases hne

theorem Grounded.exists_settles_ancestry (h : g.Grounded) (t : Ty) :
    ∃ found, g.IsAncestry t found ∧ Search.Settles (fun limit => g.ancestry limit t) found := by
  obtain ⟨found, ⟨n, hfound⟩, hsettles⟩ :=
    (g.stable_ancestry t).exists_settles (h.exists_ancestry t)
  exact ⟨found, isAncestry_ancestry hfound, hsettles⟩

/-- Above types with the same supertypes are, apart from themselves, the same types. -/
theorem IsAncestry.contains_of_supertypes (hgrounded : g.Grounded) {s t : Ty}
    (h : (g.supertypes s == g.supertypes t) = true) {found found' : List Ty}
    (hfound : g.IsAncestry s found) (hfound' : g.IsAncestry t found') {r : Ty}
    (hr : r ∈ found.filter (· != s)) : (found'.filter (· != t)).contains r = true := by
  obtain ⟨hr, hrs⟩ := List.mem_filter.1 hr
  rcases (hfound.above r hr).cases_head with rfl | ⟨u, hu, hur⟩
  · rw [bne, BEq.rfl] at hrs
    cases hrs
  · obtain ⟨v, hv, huv⟩ := Ty.exists_mem_beq h hu
    obtain ⟨r', hvr', hrr'⟩ := Above.beq hur huv
    obtain ⟨r'', hr'', hr'r''⟩ :=
      List.contains_iff_exists_mem_beq.1 (hfound'.complete r' (hvr'.head hv))
    have hne : (r' == t) = false := hgrounded.beq_eq_false hv hvr'
    refine List.contains_iff_exists_mem_beq.2
      ⟨r'', List.mem_filter.2 ⟨hr'', ?_⟩, BEq.trans hrr' hr'r''⟩
    rw [bne, ← BEq.congr_left hr'r'', hne]
    rfl

/-! ## Type parameters put in place of themselves -/

/-- Instantiated with its own type parameters, a class assigns no other types to type parameters
than themselves. -/
theorem beq_of_get?_assignment_own {c : ClassId} {p u : Ty}
    (h : Keyed.get? (g.assignment c (g.decl c).typeParams) p = some u) : (u == p) = true := by
  rcases Keyed.exists_of_get?_putAll h with ⟨⟨q, r⟩, hpair, hkey, rfl⟩ | hnil
  · obtain ⟨i, hi, heq⟩ := List.mem_iff_getElem.1 hpair
    rw [List.getElem_zip, Prod.mk.injEq] at heq
    rwa [← heq.2, heq.1]
  · cases hnil

theorem map_subst_own (c : ClassId) (ts : List Ty) :
    (ts == ts.map (Ty.subst (g.assignment c (g.decl c).typeParams))) = true := by
  have hself : (ts.map (Ty.subst (g.assignment c (g.decl c).typeParams)) == ts.map id) = true :=
    Ty.map_beq_map fun t _ => Ty.subst_beq_self (fun _ _ _ => beq_of_get?_assignment_own) t
  rw [List.map_id] at hself
  exact Ty.list_beq_symm hself

theorem supertypes_own (g : ClassGraph) (c : ClassId) :
    (g.supertypes (.cls c) == g.supertypes (.inst c (g.decl c).typeParams)) = true := by
  rw [supertypes_inst]
  exact map_subst_own c _

theorem searchOrder_own (g : ClassGraph) (c : ClassId) :
    (g.searchOrder (.cls c) == g.searchOrder (.inst c (g.decl c).typeParams)) = true := by
  rw [searchOrder_inst]
  exact map_subst_own c _

end ClassGraph

namespace Checker

/-- The type arguments with which a class implements a checked one are those with which its
instantiation with its own type parameters does. -/
theorem typeArgumentsOf_own (k : Checker) (g : ClassGraph) (c : ClassId) (limit : ℕ) :
    (k.typeArgumentsOf g limit (.cls c) ==
      k.typeArgumentsOf g limit (.inst c (g.decl c).typeParams)) = true := by
  cases limit with
  | zero => rfl
  | succ limit =>
    have hexact : k.isExactly (.inst c (g.decl c).typeParams) = k.isExactly (.cls c) := rfl
    rw [typeArgumentsOf, typeArgumentsOf, implementation?, implementation?, hexact]
    split
    · exact BEq.rfl
    · have hfirst := first?_beq (g.searchOrder_own c) fun s t => k.implementation?_beq g limit
      generalize Search.first? (k.implementation? g limit) (g.searchOrder (.cls c)) = found
        at hfirst ⊢
      generalize Search.first? (k.implementation? g limit)
        (g.searchOrder (.inst c (g.decl c).typeParams)) = found' at hfirst ⊢
      rcases found with _ | _ | r <;> rcases found' with _ | _ | r'
      case some.some.some.some => exact g.typeArgs_beq hfirst
      all_goals exact hfirst

/-- A class and its instantiation with its own type parameters have the same implementations of
another class. -/
theorem implementations_own {k : Checker} {c : ClassId} (hk : k.definition ≠ c) (limit : ℕ) :
    (k.implementations g limit (.cls c) ==
      k.implementations g limit (.inst c (g.decl c).typeParams)) = true := by
  cases limit with
  | zero => rfl
  | succ limit =>
    have hinst : k.isExactly (.inst c (g.decl c).typeParams) = false := isExactly_cls_of_ne hk
    rw [implementations, implementations, collect, collect, isExactly_cls_of_ne hk, hinst]
    exact foldl?_collect_beq (g.searchOrder_own c) (k.collect_beq g limit) BEq.rfl

/-! ## The two are treated alike -/

/-- If all ways up come to an end, so do the searches for the implementations of a checked class and
those for the types above, and the same types are found above a class and above its instantiation
with its own type parameters. -/
theorem exists_searches_own (hgrounded : g.Grounded) (c : ClassId) :
    let raw : Ty := .cls c
    let own : Ty := .inst c (g.decl c).typeParams
    (∀ k : Checker, ∃ n, ∀ limit, n ≤ limit →
      (k.typeArgumentsOf g limit raw).isSome = true ∧
      (k.implementations g limit raw).isSome = true) ∧
    ∃ found found',
      Search.Settles (fun limit => g.ancestry limit raw) found ∧
      Search.Settles (fun limit => g.ancestry limit own) found' ∧
      Ty.SameMembers (found.filter (· != raw)) (found'.filter (· != own)) := by
  intro raw own
  refine ⟨fun k => ?_, ?_⟩
  · obtain ⟨n, hn⟩ := exists_limit_implementation? hgrounded k raw
    obtain ⟨n', hn'⟩ := exists_limit_collect hgrounded k raw
    refine ⟨max n n', fun limit hlimit => ⟨?_, hn' limit (by omega) []⟩⟩
    rw [typeArgumentsOf, Option.isSome_map]
    exact hn limit (by omega)
  · obtain ⟨found, hfound, hsettles⟩ :=
      ClassGraph.Grounded.exists_settles_ancestry hgrounded raw
    obtain ⟨found', hfound', hsettles'⟩ :=
      ClassGraph.Grounded.exists_settles_ancestry hgrounded own
    have hsupertypes := g.supertypes_own c
    exact ⟨found, found', hsettles, hsettles', Ty.sameMembers_of_contains
      (fun _ => hfound.contains_of_supertypes hgrounded hsupertypes hfound')
      (fun _ => hfound'.contains_of_supertypes hgrounded (Ty.list_beq_symm hsupertypes) hfound)⟩

/-- In an acyclic graph whose supertypes are classes and instantiations, the same types are found
above a class and above its instantiation with its own type parameters. -/
theorem sameMembers_own_of_acyclic (hacyclic : g.Acyclic) (hfirm : g.FirmSupertypes)
    (c : ClassId) :
    let raw : Ty := .cls c
    let own : Ty := .inst c (g.decl c).typeParams
    ∃ found found',
      Search.Settles (fun limit => g.ancestry limit raw) found ∧
      Search.Settles (fun limit => g.ancestry limit own) found' ∧
      Ty.SameMembers (found.filter (· != raw)) (found'.filter (· != own)) :=
  (exists_searches_own ((ClassGraph.grounded_iff_acyclic hfirm).2 hacyclic) c).2

/-- A class is treated as its instantiation with its own type parameters, whatever bounds these have
and whether or not one of them is declared twice. Within every limit both implement a checked class
with the same type arguments, and both have the same implementations of another class. If all ways
up come to an end, these searches do, too, and the same types are found above both. -/
theorem own_instantiation (g : ClassGraph) (c : ClassId) :
    let raw : Ty := .cls c
    let own : Ty := .inst c (g.decl c).typeParams
    g.instantiate raw (g.decl c).typeParams = .ok own ∧
    (∀ (k : Checker) limit,
      (k.typeArgumentsOf g limit raw == k.typeArgumentsOf g limit own) = true) ∧
    (∀ k : Checker, k.definition ≠ c → ∀ limit,
      (k.implementations g limit raw == k.implementations g limit own) = true) ∧
    (g.Grounded →
      (∀ k : Checker, ∃ n, ∀ limit, n ≤ limit →
        (k.typeArgumentsOf g limit raw).isSome = true ∧
        (k.implementations g limit raw).isSome = true) ∧
      ∃ found found',
        Search.Settles (fun limit => g.ancestry limit raw) found ∧
        Search.Settles (fun limit => g.ancestry limit own) found' ∧
        Ty.SameMembers (found.filter (· != raw)) (found'.filter (· != own))) := by
  intro raw own
  exact ⟨ClassGraph.instantiate_eq_ok.2 ⟨rfl, rfl⟩, fun k => k.typeArgumentsOf_own g c,
    fun k hk => implementations_own hk, fun hgrounded => exists_searches_own hgrounded c⟩

/-- A class with a type parameter that is declared twice, under two names of its bound, and with a
supertype that mentions it and a type parameter of another class:
`Twin<T extends num, T extends num> implements Pair<T, S extends Ser<T>>`. -/
def twinGraph : ClassGraph :=
  let object : Option Ty := some (.cls ClassGraph.rootId)
  let bounded (num : String) : Ty := .boundedParam "T" (.builtin .num num)
  ⟨#[ClassGraph.rootDecl "Object",
    { ClassDecl.unknown with name := "Ser", typeParams := [.param "T"], superclass := object },
    { ClassDecl.unknown with
      name := "Pair", typeParams := [.param "S", .param "T"], superclass := object },
    { ClassDecl.unknown with
      name := "Twin", typeParams := [bounded "num", bounded "number"], superclass := object,
      interfaces := [.inst 2 [bounded "num", .boundedParam "S" (.inst 1 [bounded "num"])]] }], #[]⟩

/-- `Twin` implements `Pair` with its own type parameter under the first name of the bound, its
instantiation with it under the other name, and this also in the bound of the foreign parameter. -/
theorem own_instantiation_twin :
    let bounded (num : String) : Ty := .boundedParam "T" (.builtin .num num)
    let own : Ty := .inst 3 [bounded "num", bounded "number"]
    let arguments (num : String) : List Ty :=
      [bounded num, .boundedParam "S" (.inst 1 [bounded num])]
    (twinGraph.Grounded ∧ (⟨2⟩ : Checker).definition ≠ 3) ∧
    (⟨2⟩ : Checker).typeArgumentsOf twinGraph 2 (.cls 3) = some (some (arguments "num")) ∧
    (⟨2⟩ : Checker).typeArgumentsOf twinGraph 2 own = some (some (arguments "number")) ∧
    (arguments "num" == arguments "number") = true ∧
    ((⟨2⟩ : Checker).implementations twinGraph 2 (.cls 3) ==
      (⟨2⟩ : Checker).implementations twinGraph 2 own) = true ∧
    Ty.SameMembers [.cls 0, .inst 2 (arguments "num")] [.cls 0, .inst 2 (arguments "number")] := by
  intro bounded own arguments
  have hacyclic : twinGraph.Acyclic := ClassGraph.acyclic_of_declared_before (by decide)
  have hfirm : twinGraph.FirmSupertypes := ClassGraph.forall_supertypes (by decide)
  have hgrounded : twinGraph.Grounded := hacyclic.supertypes_wellFounded hfirm
  have hraw : (⟨2⟩ : Checker).typeArgumentsOf twinGraph 2 (.cls 3) =
      some (some (arguments "num")) := by decide
  have hown : (⟨2⟩ : Checker).typeArgumentsOf twinGraph 2 own =
      some (some (arguments "number")) := by decide
  have hne : (⟨2⟩ : Checker).definition ≠ 3 := by decide
  obtain ⟨-, harguments, himplementations, hsearches⟩ := own_instantiation twinGraph 3
  have hsame : (some (some (arguments "num")) == some (some (arguments "number"))) = true := by
    rw [← hraw, ← hown]
    exact harguments ⟨2⟩ 2
  obtain ⟨-, found, found', hsettles, hsettles', hmembers⟩ := hsearches hgrounded
  have hfound : twinGraph.ancestry 10 (.cls 3) =
      some [.cls 3, .cls 0, .inst 2 (arguments "num")] := by decide
  have hfound' : twinGraph.ancestry 10 own =
      some [own, .cls 0, .inst 2 (arguments "number")] := by decide
  rw [← hsettles.only 10 _ hfound, ← hsettles'.only 10 _ hfound'] at hmembers
  exact ⟨⟨hgrounded, hne⟩, hraw, hown, hsame, himplementations ⟨2⟩ hne 2, hmembers⟩

end Checker

end ClassCode
