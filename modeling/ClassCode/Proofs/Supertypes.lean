import ClassCode.Checker
import ClassCode.Proofs.ClassGraph.Acyclic
import ClassCode.Proofs.Ty.Same
import Mathlib.Algebra.Order.BigOperators.Group.List
import Mathlib.Algebra.Order.Group.Nat
import Mathlib.Algebra.GroupWithZero.Nat

/-!
# The ancestry is complete

The types that the search for the ancestry of a type finds refer to exactly the classes that the
class of the type inherits from, and to that class itself (`exists_mem_ancestry_iff`). So a checker
tells whether a class inherits from another whenever it answers (`Checker.isSuperOf_eq_some`).

## Shape of the proof

Between two steps every type found is above the first one, and unless it waits on the stack all its
supertypes have been found (`Explores`). Types that are the same are found only once, which is no
loss as they refer to the same class.

In an acyclic graph the search ends. What is left to do is bounded by the effort that the types on
the stack would take if none of their supertypes had been found before (`effort`); expanding a type
uses up its own part of that.
-/

namespace ClassCode.ClassGraph

variable {g : ClassGraph}

open Relation

/-! ## What is found -/

/-- Discovering adds some of the given types, and then all of them are found. -/
theorem discover_spec (stack found ts : List Ty) :
    ∃ news, news.Sublist ts ∧
      discover stack found ts = (news.reverse ++ stack, found ++ news) ∧
      ∀ t ∈ ts, (found ++ news).contains t = true := by
  induction ts generalizing stack found with
  | nil => exact ⟨[], .slnil, by simp [discover], by simp⟩
  | cons t ts ih =>
    rw [discover]
    split
    case isTrue ht =>
      obtain ⟨news, hsub, heq, hall⟩ := ih stack found
      refine ⟨news, hsub.cons t, heq, fun s hs => ?_⟩
      rcases List.mem_cons.1 hs with rfl | hs
      · rw [List.contains_append, ht, Bool.true_or]
      · exact hall s hs
    case isFalse ht =>
      obtain ⟨news, hsub, heq, hall⟩ := ih (t :: stack) (found ++ [t])
      refine ⟨t :: news, hsub.cons_cons t, by simp [heq], fun s hs => ?_⟩
      rw [← List.append_cons] at hall
      rcases List.mem_cons.1 hs with rfl | hs
      · simp [List.contains_append]
      · exact hall s hs

/-- Whether a type is another one or above it. -/
def Above (g : ClassGraph) : Ty → Ty → Prop := ReflTransGen fun t s => s ∈ g.supertypes t

/-- What holds between two steps of the search for the ancestry of a type. -/
structure Explores (g : ClassGraph) (t : Ty) (stack found : List Ty) : Prop where
  start : t ∈ found
  above : ∀ s ∈ found, g.Above t s
  waiting : ∀ s ∈ stack, s ∈ found
  closed : ∀ s ∈ found, s ∈ stack ∨ ∀ u ∈ g.supertypes s, found.contains u = true

/-- At the beginning nothing but the type itself is found. -/
theorem explores_start (g : ClassGraph) (t : Ty) : g.Explores t [t] [t] where
  start := by simp
  above := by
    intro s hs
    rw [List.mem_singleton.1 hs]
    exact .refl
  waiting := by simp
  closed := fun s hs => .inl hs

/-- Expanding the type on top of the stack goes on with the search. -/
theorem Explores.next {t s : Ty} {stack found news : List Ty}
    (h : g.Explores t (s :: stack) found) (hsub : news ⊆ g.supertypes s)
    (hall : ∀ u ∈ g.supertypes s, (found ++ news).contains u = true) :
    g.Explores t (news.reverse ++ stack) (found ++ news) where
  start := List.mem_append_left _ h.start
  above := by
    intro u hu
    rcases List.mem_append.1 hu with hu | hu
    · exact h.above u hu
    · exact (h.above s (h.waiting s (by simp))).tail (hsub hu)
  waiting := by
    intro u hu
    rcases List.mem_append.1 hu with hu | hu
    · exact List.mem_append_right _ (List.mem_reverse.1 hu)
    · exact List.mem_append_left _ (h.waiting u (by simp [hu]))
  closed := by
    intro u hu
    rcases List.mem_append.1 hu with hu | hu
    · rcases h.closed u hu with hstack | hclosed
      · -- the expanded type leaves the stack, and now its supertypes are found
        rcases List.mem_cons.1 hstack with rfl | hstack
        · exact .inr hall
        · exact .inl (List.mem_append_right _ hstack)
      · refine .inr fun v hv => ?_
        rw [List.contains_append, hclosed v hv, Bool.true_or]
    · exact .inl (List.mem_append_left _ (List.mem_reverse.2 hu))

/-- When the search ends nothing is left on the stack. -/
theorem Explores.expand {t : Ty} {steps room : ℕ} {stack found result : List Ty}
    (h : g.Explores t stack found) (hresult : g.expand steps room stack found = some result) :
    g.Explores t [] result := by
  induction steps generalizing room stack found with
  | zero =>
    cases stack with
    | nil =>
      rw [ClassGraph.expand, Option.some.injEq] at hresult
      exact hresult ▸ h
    | cons s stack => cases hresult
  | succ steps ih =>
    cases stack with
    | nil =>
      rw [ClassGraph.expand, Option.some.injEq] at hresult
      exact hresult ▸ h
    | cons s stack =>
      obtain ⟨news, hsub, heq, hall⟩ := discover_spec stack found (g.supertypes s)
      rw [ClassGraph.expand, heq] at hresult
      split at hresult
      · cases hresult
      · exact ih (h.next hsub.subset hall) hresult

/-- Types above a type refer to classes that its class inherits from, and to that class itself. -/
theorem Above.inherits (hfirm : g.FirmSupertypes) {t s : Ty} (h : g.Above t s) {d : ClassId}
    (hd : s.definition? = some d) :
    ∃ c, t.definition? = some c ∧ ReflTransGen g.Extends c d := by
  induction h generalizing d with
  | refl => exact ⟨d, hd, .refl⟩
  | @tail u s _ hs ih =>
    cases hu : u.definition? with
    | none =>
      rw [supertypes_of_definition?_eq_none hu] at hs
      cases hs
    | some e =>
      obtain ⟨c, hc, hce⟩ := ih hu
      exact ⟨c, hc, hce.tail ((exists_supertype_iff hfirm hu d).1 ⟨s, hs, hd⟩)⟩

/-- The ancestry of a type refers to its class and to all classes that this one inherits from. -/
theorem exists_mem_ancestry_iff (hfirm : g.FirmSupertypes) {limit : ℕ} {t : Ty} {found : List Ty}
    (h : g.ancestry limit t = some found) {c : ClassId} (hc : t.definition? = some c)
    (d : ClassId) :
    (∃ s ∈ found, s.definition? = some d) ↔ ReflTransGen g.Extends c d := by
  have hend : g.Explores t [] found := (explores_start g t).expand h
  constructor
  · rintro ⟨s, hs, hd⟩
    obtain ⟨c', hc', hreach⟩ := (hend.above s hs).inherits hfirm hd
    rw [hc, Option.some.injEq] at hc'
    exact hc' ▸ hreach
  · intro hreach
    induction hreach with
    | refl => exact ⟨t, hend.start, hc⟩
    | @tail e d _ hed ih =>
      obtain ⟨s, hs, he⟩ := ih
      obtain ⟨u, hu, hd⟩ := (exists_supertype_iff hfirm he d).2 hed
      -- the supertype is found up to sameness only
      have hfound := (hend.closed s hs).resolve_left (by simp) u hu
      obtain ⟨v, hv, huv⟩ := List.contains_iff_exists_mem_beq.1 hfound
      exact ⟨v, hv, (Ty.definition?_of_beq huv).symm.trans hd⟩

/-! ## The search ends -/

/-- What expanding a type takes, together with all types above it as often as they occur. -/
noncomputable def effort (g : ClassGraph) (hwf : WellFounded fun s t => s ∈ g.supertypes t) :
    Ty → ℕ :=
  hwf.fix fun t above => t.nesting + 1 + ((g.supertypes t).attach.map fun s => above s.1 s.2).sum

theorem effort_eq (hwf : WellFounded fun s t => s ∈ g.supertypes t) (t : Ty) :
    g.effort hwf t = t.nesting + 1 + ((g.supertypes t).map (g.effort hwf)).sum := by
  rw [effort, hwf.fix_eq, List.attach_map_val (f := fun s => hwf.fix _ s)]

/-- A search ends if it has as many steps and as much room as its stack takes. -/
theorem isSome_expand (hwf : WellFounded fun s t => s ∈ g.supertypes t) {steps room : ℕ}
    {stack found : List Ty} (hsteps : (stack.map (g.effort hwf)).sum ≤ steps)
    (hroom : (stack.map (g.effort hwf)).sum ≤ room) :
    (g.expand steps room stack found).isSome = true := by
  induction steps generalizing room stack found with
  | zero =>
    cases stack with
    | nil => rfl
    | cons t stack =>
      rw [List.map_cons, List.sum_cons, effort_eq] at hsteps
      omega
  | succ steps ih =>
    cases stack with
    | nil => rfl
    | cons t stack =>
      obtain ⟨news, hsub, heq, -⟩ := discover_spec stack found (g.supertypes t)
      have hnews : (news.map (g.effort hwf)).sum ≤ ((g.supertypes t).map (g.effort hwf)).sum :=
        (hsub.map _).sum_le_sum fun _ _ => Nat.zero_le _
      rw [List.map_cons, List.sum_cons, effort_eq] at hsteps hroom
      rw [expand, if_neg (by omega), heq]
      have hleft : ((news.reverse ++ stack).map (g.effort hwf)).sum =
          (news.map (g.effort hwf)).sum + (stack.map (g.effort hwf)).sum := by
        rw [List.map_append, List.sum_append, List.map_reverse, List.sum_reverse]
      apply ih
      · omega
      · omega

/-- If all ways up come to an end, the ancestry of a type is found within some limit. -/
theorem Grounded.exists_ancestry (h : g.Grounded) (t : Ty) :
    ∃ n, ∀ limit, n ≤ limit → (g.ancestry limit t).isSome = true := by
  refine ⟨g.effort h t, fun limit hlimit => ?_⟩
  have hsum : ([t].map (g.effort h)).sum = g.effort h t := by simp
  rw [ancestry]
  exact isSome_expand h (by omega) (by omega)

/-- In an acyclic graph the ancestry of a type is found within some limit. -/
theorem Acyclic.exists_ancestry (h : g.Acyclic) (hfirm : g.FirmSupertypes) (t : Ty) :
    ∃ n, ∀ limit, n ≤ limit → (g.ancestry limit t).isSome = true :=
  Grounded.exists_ancestry (h.supertypes_wellFounded hfirm) t

end ClassGraph

/-! ## Checking classes -/

namespace Checker

variable {g : ClassGraph}

theorem isExactly_iff {k : Checker} {t : Ty} :
    k.isExactly t = true ↔ t.definition? = some k.definition := by
  rw [isExactly, beq_iff_eq]

/-- In an acyclic graph an answer tells whether the class of a type inherits from the checked
one. -/
theorem isSuperOf_eq_some (h : g.Acyclic) (hfirm : g.FirmSupertypes) {limit : ℕ} {t : Ty}
    {c d : ClassId} (ht : t.definition? = some c) {answer : Bool}
    (hanswer : isSuperOf ⟨d⟩ g limit t = some answer) : answer = true ↔ g.Inherits c d := by
  rw [isSuperOf] at hanswer
  split at hanswer
  case isTrue hexact =>
    cases hanswer
    obtain rfl : c = d := Option.some.inj (ht.symm.trans (isExactly_iff.1 hexact))
    simpa using h c
  case isFalse hexact =>
    obtain ⟨found, hfound, rfl⟩ := Option.map_eq_some_iff.1 hanswer
    have hne : c ≠ d := by
      rintro rfl
      exact hexact (isExactly_iff.2 ht)
    have hall := g.exists_mem_ancestry_iff hfirm hfound ht d
    rw [List.any_eq_true]
    simp only [isExactly_iff]
    rw [hall, Relation.reflTransGen_iff_eq_or_transGen]
    exact or_iff_right hne.symm

/-- In an acyclic graph there is an answer within some limit. -/
theorem exists_isSuperOf (h : g.Acyclic) (hfirm : g.FirmSupertypes) (k : Checker) (t : Ty) :
    ∃ n, ∀ limit, n ≤ limit → (k.isSuperOf g limit t).isSome = true := by
  obtain ⟨n, hn⟩ := h.exists_ancestry hfirm t
  refine ⟨n, fun limit hlimit => ?_⟩
  rw [isSuperOf]
  split
  · rfl
  · rw [Option.isSome_map]
    exact hn limit hlimit

end Checker

end ClassCode
