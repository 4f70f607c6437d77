import ClassCode.Fields
import ClassCode.Proofs.ClassGraph.Acyclic
import Mathlib.Data.List.Perm.Subperm

/-!
# Ancestors are inherited from

The walk over the declarations above a class meets each of them once, and it meets exactly those
that the class inherits from, apart from roots (`mem_ancestors_iff`). That needs roots to have no
supertypes of other kinds, since the walk does not go on above a root. Above a class that extends
one other class only, the walk is the one above that class (`Acyclic.ancestors_eq_cons`).

## Shape of the proof

A visit adds declarations to those that were seen before; `Visits` says which. Everything above a
declaration that a visit adds has been added at the end of the visit, or was seen before it
(`Visits.closed`). This does not hold for what was seen before: a walk that is on its way up has
seen declarations that it is not done with.

The walk is deep enough, since every declaration that it is on its way up from has been seen, and
there are no more declarations than places in the graph. For that reason a level more or less makes
no difference (`visit_succ`), and neither does a declaration seen before that the walk would not
meet (`visit_cons`).
-/

namespace ClassCode

open Relation

/-- The lookup order goes through all supertypes. -/
theorem ClassDecl.mem_lookupOrder {d : ClassDecl} {t : Ty} :
    t ∈ d.lookupOrder ↔ t ∈ d.supertypes := by
  simp only [lookupOrder, supertypes, List.mem_append, List.mem_reverse]
  tauto

/-- The lookup order goes through nothing else than the supertypes. -/
theorem ClassDecl.lookupOrder_eq_singleton {d : ClassDecl} {s : Ty} (h : d.supertypes = [s]) :
    d.lookupOrder = [s] := by
  have hperm : d.lookupOrder.Perm d.supertypes := by
    simp only [lookupOrder, supertypes, List.append_assoc]
    exact ((List.reverse_perm d.mixins).append_right _).trans
      (List.perm_append_comm.trans (.of_eq (List.append_assoc _ _ _)))
  exact List.perm_singleton.1 (hperm.trans (.of_eq h))

namespace ClassGraph

variable {g : ClassGraph}

/-! ## Seen declarations -/

/-- Whether declarations are seen once each and are none of the roots. -/
structure Seen (g : ClassGraph) (seen : List ClassId) : Prop where
  nodup : seen.Nodup
  proper : ∀ c ∈ seen, (g.decl c).isRoot = false

theorem seen_nil (g : ClassGraph) : g.Seen [] := ⟨.nil, by simp⟩

/-- Only places in the graph are seen, as all others read as roots. -/
theorem Seen.length_le {seen : List ClassId} (h : g.Seen seen) :
    seen.length ≤ g.classes.size := by
  have hsub : seen ⊆ List.range g.classes.size := by
    intro c hc
    rw [List.mem_range]
    by_contra hlt
    have hproper := h.proper c hc
    rw [decl_of_size_le (Nat.le_of_not_lt hlt)] at hproper
    cases hproper
  have hle := (List.subperm_of_subset h.nodup hsub).length_le
  rwa [List.length_range] at hle

theorem Seen.snoc {seen : List ClassId} (h : g.Seen seen) {c : ClassId}
    (hc : (g.decl c).isRoot = false) (hnew : c ∉ seen) : g.Seen (seen ++ [c]) where
  nodup := h.nodup.append (List.nodup_singleton c) (List.disjoint_singleton.2 hnew)
  proper := by
    intro d hd
    rcases List.mem_append.1 hd with hd | hd
    · exact h.proper d hd
    · exact List.mem_singleton.1 hd ▸ hc

/-! ## Visits -/

/-- What visiting types adds to the declarations seen before. -/
structure Visits (g : ClassGraph) (seen : List ClassId) (ts : List Ty) (news : List ClassId) :
    Prop where
  marked : g.Seen (seen ++ news)
  reached : ∀ d ∈ news, ∃ t ∈ ts, ∃ c, t.definition? = some c ∧ ReflTransGen g.Extends c d
  covers : ∀ t ∈ ts, ∀ c, t.definition? = some c → (g.decl c).isRoot = false → c ∈ seen ++ news
  closed : ∀ d ∈ news, ∀ e, g.Extends d e → (g.decl e).isRoot = false → e ∈ seen ++ news

/-- Nothing is added when there is nothing new. -/
theorem visits_nil {seen : List ClassId} (hseen : g.Seen seen) {ts : List Ty}
    (hcovers : ∀ t ∈ ts, ∀ c, t.definition? = some c → (g.decl c).isRoot = false → c ∈ seen) :
    g.Visits seen ts [] where
  marked := by rwa [List.append_nil]
  reached := by simp
  covers := by rwa [List.append_nil]
  closed := by simp

/-- Visits one after another add up. -/
theorem Visits.append {seen news news' : List ClassId} {t : Ty} {ts : List Ty}
    (h : g.Visits seen [t] news) (h' : g.Visits (seen ++ news) ts news') :
    g.Visits seen (t :: ts) (news ++ news') := by
  constructor
  case marked =>
    rw [← List.append_assoc]
    exact h'.marked
  case reached =>
    intro d hd
    rcases List.mem_append.1 hd with hd | hd
    · obtain ⟨s, hs, hreached⟩ := h.reached d hd
      exact ⟨s, List.mem_cons.2 (.inl (List.mem_singleton.1 hs)), hreached⟩
    · obtain ⟨s, hs, hreached⟩ := h'.reached d hd
      exact ⟨s, List.mem_cons_of_mem t hs, hreached⟩
  case covers =>
    intro s hs c hc hproper
    rw [← List.append_assoc]
    rcases List.mem_cons.1 hs with rfl | hs
    · exact List.mem_append_left _ (h.covers s (by simp) c hc hproper)
    · exact h'.covers s hs c hc hproper
  case closed =>
    intro d hd e he hproper
    rw [← List.append_assoc]
    rcases List.mem_append.1 hd with hd | hd
    · exact List.mem_append_left _ (h.closed d hd e he hproper)
    · exact h'.closed d hd e he hproper

/-- A declaration is added together with what visiting its supertypes adds. -/
theorem Visits.cons {seen news : List ClassId} {t : Ty} {c : ClassId}
    (hc : t.definition? = some c)
    (h : g.Visits (seen ++ [c]) (g.decl c).lookupOrder news) :
    g.Visits seen [t] (c :: news) := by
  constructor
  case marked =>
    rw [List.append_cons]
    exact h.marked
  case reached =>
    intro d hd
    refine ⟨t, by simp, c, hc, ?_⟩
    rcases List.mem_cons.1 hd with rfl | hd
    · exact .refl
    · obtain ⟨s, hs, e, he, hreach⟩ := h.reached d hd
      exact hreach.head ⟨s, ClassDecl.mem_lookupOrder.1 hs, he⟩
  case covers =>
    intro s hs e he _
    rw [List.mem_singleton.1 hs, hc, Option.some.injEq] at he
    simp [he]
  case closed =>
    intro d hd e he hproper
    rw [List.append_cons]
    rcases List.mem_cons.1 hd with rfl | hd
    · obtain ⟨s, hs, hse⟩ := he
      exact h.covers s (ClassDecl.mem_lookupOrder.2 hs) e hse hproper
    · exact h.closed d hd e he hproper

/-- Going through types visits them, if visiting one of them does. -/
theorem foldl_visit_spec {depth : ℕ}
    (hvisit : ∀ seen t, g.Seen seen → g.classes.size < depth + seen.length →
      ∃ news, g.visit depth seen t = seen ++ news ∧ g.Visits seen [t] news)
    (ts : List Ty) {seen : List ClassId} (hseen : g.Seen seen)
    (hdepth : g.classes.size < depth + seen.length) :
    ∃ news, ts.foldl (g.visit depth) seen = seen ++ news ∧ g.Visits seen ts news := by
  induction ts generalizing seen with
  | nil => exact ⟨[], by simp, visits_nil hseen (by simp)⟩
  | cons t ts ih =>
    obtain ⟨news, heq, hnews⟩ := hvisit seen t hseen hdepth
    obtain ⟨news', heq', hnews'⟩ := ih hnews.marked (by rw [List.length_append]; omega)
    refine ⟨news ++ news', ?_, hnews.append hnews'⟩
    rw [List.foldl_cons, heq, heq', List.append_assoc]

/-- A walk that is deep enough for the declarations not seen yet visits a type. -/
theorem visit_spec (depth : ℕ) (seen : List ClassId) (t : Ty) (hseen : g.Seen seen)
    (hdepth : g.classes.size < depth + seen.length) :
    ∃ news, g.visit depth seen t = seen ++ news ∧ g.Visits seen [t] news := by
  induction depth generalizing seen t with
  | zero =>
    -- more declarations would have been seen than there are
    have hle := hseen.length_le
    omega
  | succ depth ih =>
    have hstop : ∀ {c}, t.definition? = some c → ((g.decl c).isRoot || seen.contains c) = true →
        g.Visits seen [t] [] := by
      intro c hc h
      refine visits_nil hseen fun s hs d hd hproper => ?_
      rw [List.mem_singleton.1 hs, hc, Option.some.injEq] at hd
      rw [hd, hproper, Bool.false_or, List.contains_iff_mem] at h
      exact h
    rw [visit]
    split
    case h_1 hnone =>
      refine ⟨[], by simp, visits_nil hseen fun s hs c hc => ?_⟩
      rw [List.mem_singleton.1 hs, hnone] at hc
      cases hc
    case h_2 c hc =>
      split
      case isTrue h => exact ⟨[], by simp, hstop hc h⟩
      case isFalse h =>
        rw [Bool.not_eq_true, Bool.or_eq_false_iff] at h
        have hnew : c ∉ seen := by simpa using h.2
        obtain ⟨news, heq, hnews⟩ := foldl_visit_spec ih (g.decl c).lookupOrder
          (hseen.snoc h.1 hnew) (by rw [List.length_append, List.length_singleton]; omega)
        refine ⟨c :: news, ?_, hnews.cons hc⟩
        rw [heq, List.append_assoc, List.singleton_append]

/-! ## The whole walk -/

/-- The ancestors are what visiting the supertypes adds. -/
theorem visits_ancestors (g : ClassGraph) (c : ClassId) :
    g.Visits [] (g.decl c).lookupOrder (g.ancestors c) := by
  obtain ⟨news, heq, hnews⟩ := foldl_visit_spec (visit_spec (g.classes.size + 1))
    (g.decl c).lookupOrder (seen_nil g) (by simp)
  rw [ancestors, heq]
  exact hnews

/-- No ancestor is met twice. -/
theorem nodup_ancestors (g : ClassGraph) (c : ClassId) : (g.ancestors c).Nodup :=
  (visits_ancestors g c).marked.nodup

/-- Whether roots have no interfaces and mixins either. -/
def BareRoots (g : ClassGraph) : Prop :=
  ∀ c, (g.decl c).isRoot = true → (g.decl c).interfaces = [] ∧ (g.decl c).mixins = []

/-- Roots have no interfaces and mixins if that holds for those in the graph. -/
theorem bareRoots_of_places (h : ∀ c < g.classes.size, (g.decl c).isRoot = true →
    (g.decl c).interfaces = [] ∧ (g.decl c).mixins = []) : g.BareRoots := by
  intro c hroot
  by_cases hc : c < g.classes.size
  · exact h c hc hroot
  · rw [decl_of_size_le (Nat.le_of_not_lt hc)]
    exact ⟨rfl, rfl⟩

/-- What extends a class is no root. -/
theorem Extends.isRoot_eq_false (hbare : g.BareRoots) {c d : ClassId} (h : g.Extends c d) :
    (g.decl c).isRoot = false := by
  rw [← Bool.not_eq_true]
  intro hroot
  obtain ⟨s, hs, -⟩ := h
  obtain ⟨hinterfaces, hmixins⟩ := hbare c hroot
  have hsuper : (g.decl c).superclass = none := by simpa [ClassDecl.isRoot] using hroot
  simp [ClassDecl.supertypes, hsuper, hinterfaces, hmixins] at hs

/-- The ancestors of a class are the declarations that it inherits from, apart from roots. -/
theorem mem_ancestors_iff (hbare : g.BareRoots) {c d : ClassId} :
    d ∈ g.ancestors c ↔ g.Inherits c d ∧ (g.decl d).isRoot = false := by
  have h := visits_ancestors g c
  constructor
  · intro hd
    obtain ⟨s, hs, e, he, hreach⟩ := h.reached d hd
    refine ⟨?_, h.marked.proper d hd⟩
    exact TransGen.head' ⟨s, ClassDecl.mem_lookupOrder.1 hs, he⟩ hreach
  · rintro ⟨hinherits, hproper⟩
    induction hinherits with
    | single hcd =>
      obtain ⟨s, hs, hsd⟩ := hcd
      exact h.covers s (ClassDecl.mem_lookupOrder.2 hs) _ hsd hproper
    | tail _ hed ih =>
      -- the class before extends another one, so the walk has gone on above it
      exact h.closed _ (ih (hed.isRoot_eq_false hbare)) _ hed hproper

/-! ## Depth and what was seen before -/

/-- Going through types a level deeper makes no difference, if visiting one of them makes none. -/
theorem foldl_visit_succ {depth : ℕ}
    (hvisit : ∀ seen t, g.Seen seen → g.classes.size < depth + seen.length →
      g.visit (depth + 1) seen t = g.visit depth seen t)
    (ts : List Ty) {seen : List ClassId} (hseen : g.Seen seen)
    (hdepth : g.classes.size < depth + seen.length) :
    ts.foldl (g.visit (depth + 1)) seen = ts.foldl (g.visit depth) seen := by
  induction ts generalizing seen with
  | nil => rfl
  | cons t ts ih =>
    obtain ⟨news, heq, hnews⟩ := visit_spec depth seen t hseen hdepth
    rw [List.foldl_cons, List.foldl_cons, hvisit seen t hseen hdepth, heq]
    exact ih hnews.marked (by rw [List.length_append]; omega)

/-- A walk that is deep enough for the declarations not seen yet may be deeper. -/
theorem visit_succ (depth : ℕ) (seen : List ClassId) (t : Ty) (hseen : g.Seen seen)
    (hdepth : g.classes.size < depth + seen.length) :
    g.visit (depth + 1) seen t = g.visit depth seen t := by
  induction depth generalizing seen t with
  | zero =>
    have hle := hseen.length_le
    omega
  | succ depth ih =>
    rw [visit, visit]
    split
    case h_1 => rfl
    case h_2 c hc =>
      split
      case isTrue => rfl
      case isFalse h =>
        rw [Bool.not_eq_true, Bool.or_eq_false_iff] at h
        have hnew : c ∉ seen := by simpa using h.2
        exact foldl_visit_succ ih _ (hseen.snoc h.1 hnew)
          (by rw [List.length_append, List.length_singleton]; omega)

/-- Going through types adds the same if one more declaration was seen before that is not above any
of them, if visiting one of them does. -/
theorem foldl_visit_cons {depth : ℕ} {b : ClassId}
    (hvisit : ∀ seen t, (∀ c, t.definition? = some c → ¬ ReflTransGen g.Extends c b) →
      g.visit depth (b :: seen) t = b :: g.visit depth seen t)
    (ts : List Ty) (hts : ∀ t ∈ ts, ∀ c, t.definition? = some c → ¬ ReflTransGen g.Extends c b)
    (seen : List ClassId) :
    ts.foldl (g.visit depth) (b :: seen) = b :: ts.foldl (g.visit depth) seen := by
  induction ts generalizing seen with
  | nil => rfl
  | cons t ts ih =>
    rw [List.foldl_cons, List.foldl_cons, hvisit seen t (hts t (by simp))]
    exact ih (fun s hs => hts s (by simp [hs])) _

/-- A declaration that is not above a type has no influence on visiting the type. -/
theorem visit_cons (depth : ℕ) {b : ClassId} (seen : List ClassId) (t : Ty)
    (ht : ∀ c, t.definition? = some c → ¬ ReflTransGen g.Extends c b) :
    g.visit depth (b :: seen) t = b :: g.visit depth seen t := by
  induction depth generalizing seen t with
  | zero => rfl
  | succ depth ih =>
    rw [visit, visit]
    split
    case h_1 => rfl
    case h_2 c hc =>
      have hne : c ≠ b := fun h => ht c hc (h ▸ .refl)
      have hseen : (b :: seen).contains c = seen.contains c := by simp [hne]
      rw [hseen]
      split
      case isTrue => rfl
      case isFalse =>
        refine foldl_visit_cons ih _ (fun s hs e he hreach => ?_) _
        exact ht c hc (hreach.head ⟨s, ClassDecl.mem_lookupOrder.1 hs, he⟩)

/-- The ancestors of a class with one supertype are the class that this refers to and its
ancestors. -/
theorem Acyclic.ancestors_eq_cons (hacyclic : g.Acyclic) {b d : ClassId} {s : Ty}
    (hd : (g.decl d).supertypes = [s]) (hs : s.definition? = some b)
    (hproper : (g.decl b).isRoot = false) : g.ancestors d = b :: g.ancestors b := by
  have hvisit : g.ancestors d = g.visit (g.classes.size + 1) [] s := by
    rw [ancestors, ClassDecl.lookupOrder_eq_singleton hd]
    rfl
  have hseen : g.Seen [b] := (seen_nil g).snoc hproper (by simp)
  have habove : ∀ t ∈ (g.decl b).lookupOrder, ∀ c, t.definition? = some c →
      ¬ ReflTransGen g.Extends c b := by
    intro t ht c hc hreach
    exact hacyclic b (TransGen.head' ⟨t, ClassDecl.mem_lookupOrder.1 ht, hc⟩ hreach)
  calc g.ancestors d
      = (g.decl b).lookupOrder.foldl (g.visit g.classes.size) [b] := by
        rw [hvisit, visit, hs]
        simp [hproper]
    _ = (g.decl b).lookupOrder.foldl (g.visit (g.classes.size + 1)) [b] :=
        (foldl_visit_succ (visit_succ _) _ hseen (by simp)).symm
    _ = b :: g.ancestors b :=
        foldl_visit_cons (fun seen t => visit_cons _ seen t) _ habove []

end ClassGraph

end ClassCode
