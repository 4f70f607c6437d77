import ClassCode.Proofs.Supertypes.Above

/-!
# Finite ancestries

The search for the ancestry of a type ends on any graph, with inheritance in circles or without, if
only finitely many types are above the type (`FiniteAbove.exists_ancestry`); types that are the same
count as one. What it finds are the type itself and those above it, none twice
(`finiteAbove_iff_settles`), which tells what classes are above the type (`Checker.isSuperOf_iff`).

## Shape of the proof

Every type is put on the stack once at most, up to sameness, since it is then found. So what is left
to do is bounded by what expanding the types on the stack takes (`cost`) together with what
expanding the listed types above takes that are not found yet (`remaining`). Discovering a type
moves its share from the second sum to the first.
-/

namespace ClassCode

namespace ClassGraph

variable {g : ClassGraph}

/-- Whether all types above a type are the same as some of finitely many. -/
def FiniteAbove (g : ClassGraph) (t : Ty) : Prop :=
  ∃ ts : List Ty, ∀ s, g.Above t s → ts.contains s = true

/-! ## What is left to do -/

/-- What expanding types takes. -/
def cost (ts : List Ty) : ℕ := (ts.map fun t => t.nesting + 1).sum

/-- What expanding a type takes if it is not found yet. -/
def share (found : List Ty) (t : Ty) : ℕ := if found.contains t then 0 else t.nesting + 1

/-- What expanding those of the listed types takes that are not found yet. -/
def remaining (found ts : List Ty) : ℕ := (ts.map (share found)).sum

theorem contains_concat {found : List Ty} {t u : Ty} :
    (found ++ [t]).contains u = true ↔ found.contains u = true ∨ (u == t) = true := by
  rw [List.contains_append, Bool.or_eq_true]
  simp

theorem share_concat_le (found : List Ty) (t u : Ty) :
    share (found ++ [t]) u ≤ share found u := by
  unfold share
  by_cases hu : found.contains u = true
  · rw [if_pos (contains_concat.2 (.inl hu))]
    exact Nat.zero_le _
  · rw [if_neg hu]
    split
    · exact Nat.zero_le _
    · exact Nat.le_refl _

/-- A type that is found under one of its names takes nothing any more. -/
theorem share_concat_add_le {found : List Ty} {t u : Ty} (htu : (t == u) = true)
    (hnew : ¬ found.contains t = true) :
    share (found ++ [t]) u + (t.nesting + 1) ≤ share found u := by
  have hnew' : ¬ found.contains u = true := by
    intro hu
    obtain ⟨v, hv, huv⟩ := List.contains_iff_exists_mem_beq.1 hu
    exact hnew (List.contains_iff_exists_mem_beq.2 ⟨v, hv, BEq.trans htu huv⟩)
  unfold share
  rw [if_pos (contains_concat.2 (.inr (BEq.symm htu))), if_neg hnew', Ty.nesting_eq_of_beq htu]
  omega

/-- When a listed type is found, what expanding it takes remains no more. -/
theorem remaining_concat_add_le {found ts : List Ty} {t : Ty} (ht : ts.contains t = true)
    (hnew : ¬ found.contains t = true) :
    remaining (found ++ [t]) ts + (t.nesting + 1) ≤ remaining found ts := by
  induction ts with
  | nil => cases ht
  | cons u ts ih =>
    unfold remaining at ih ⊢
    rw [List.map_cons, List.map_cons, List.sum_cons, List.sum_cons]
    by_cases htu : (t == u) = true
    · have hhead := share_concat_add_le htu hnew
      have hrest : (ts.map (share (found ++ [t]))).sum ≤ (ts.map (share found)).sum :=
        List.sum_le_sum fun v _ => share_concat_le found t v
      omega
    · have hhead := share_concat_le found t u
      have hrest := ih (by simpa [htu] using ht)
      omega

/-- Discovering listed types does not add to what is left to do. -/
theorem cost_discover_le {ts us : List Ty} (hus : ∀ u ∈ us, ts.contains u = true)
    (stack found : List Ty) :
    cost (discover stack found us).1 + remaining (discover stack found us).2 ts ≤
      cost stack + remaining found ts := by
  induction us generalizing stack found with
  | nil => exact Nat.le_refl _
  | cons u us ih =>
    have hrest : ∀ v ∈ us, ts.contains v = true := fun v hv => hus v (List.mem_cons_of_mem u hv)
    unfold discover
    split
    · exact ih hrest stack found
    · next hnew =>
      have hmoved := remaining_concat_add_le (hus u List.mem_cons_self) hnew
      have hle := ih hrest (u :: stack) (found ++ [u])
      have hcost : cost (u :: stack) = u.nesting + 1 + cost stack := List.sum_cons
      omega

/-! ## The search ends -/

/-- A search ends if it has as many steps and as much room as is left to do. -/
theorem isSome_expand_of_listed {t : Ty} {ts : List Ty}
    (hts : ∀ s, g.Above t s → ts.contains s = true) {steps room : ℕ} {stack found : List Ty}
    (hstack : ∀ s ∈ stack, g.Above t s) (hsteps : cost stack + remaining found ts ≤ steps)
    (hroom : cost stack + remaining found ts ≤ room) :
    (g.expand steps room stack found).isSome = true := by
  induction steps generalizing room stack found with
  | zero =>
    cases stack with
    | nil => rfl
    | cons s stack =>
      have hcost : cost (s :: stack) = s.nesting + 1 + cost stack := List.sum_cons
      omega
  | succ steps ih =>
    cases stack with
    | nil => rfl
    | cons s stack =>
      have hcost : cost (s :: stack) = s.nesting + 1 + cost stack := List.sum_cons
      have hs : g.Above t s := hstack s List.mem_cons_self
      have habove : ∀ u ∈ g.supertypes s, g.Above t u := fun u hu => hs.tail hu
      have hle := cost_discover_le (fun u hu => hts u (habove u hu)) stack found
      obtain ⟨news, hsub, heq, -⟩ := discover_spec stack found (g.supertypes s)
      rw [expand, if_neg (by omega)]
      rw [heq] at hle ⊢
      dsimp only at hle
      refine ih (fun u hu => ?_) (by omega) (by omega)
      rcases List.mem_append.1 hu with hu | hu
      · exact habove u (hsub.subset (List.mem_reverse.1 hu))
      · exact hstack u (List.mem_cons_of_mem s hu)

/-- If only finitely many types are above a type, its ancestry is found within some limit. -/
theorem FiniteAbove.exists_ancestry {t : Ty} (h : g.FiniteAbove t) :
    ∃ n, ∀ limit, n ≤ limit → (g.ancestry limit t).isSome = true := by
  obtain ⟨ts, hts⟩ := h
  refine ⟨cost [t] + remaining [t] ts, fun limit hlimit => ?_⟩
  refine isSome_expand_of_listed hts (fun s hs => ?_) hlimit hlimit
  rw [List.mem_singleton.1 hs]
  exact .refl

/-- If the ancestry of a type is found, only finitely many types are above it. -/
theorem finiteAbove_of_ancestry {limit : ℕ} {t : Ty} {found : List Ty}
    (h : g.ancestry limit t = some found) : g.FiniteAbove t :=
  ⟨found, fun _ hs => contains_ancestry h hs⟩

/-! ## What is found -/

/-- Discovering adds no type that is the same as one found before. -/
theorem distinct_discover (stack : List Ty) {found : List Ty} (h : Ty.Distinct found)
    (ts : List Ty) : Ty.Distinct (discover stack found ts).2 := by
  induction ts generalizing stack found with
  | nil => exact h
  | cons t ts ih =>
    unfold discover
    split
    · exact ih stack h
    case isFalse hnew => exact ih (t :: stack) (h.concat hnew)

theorem distinct_expand {steps room : ℕ} {stack found result : List Ty} (h : Ty.Distinct found)
    (hresult : g.expand steps room stack found = some result) : Ty.Distinct result := by
  induction steps generalizing room stack found with
  | zero =>
    cases stack with
    | nil =>
      rw [expand, Option.some.injEq] at hresult
      exact hresult ▸ h
    | cons t stack => cases hresult
  | succ steps ih =>
    cases stack with
    | nil =>
      rw [expand, Option.some.injEq] at hresult
      exact hresult ▸ h
    | cons t stack =>
      rw [expand] at hresult
      split at hresult
      · cases hresult
      · exact ih (distinct_discover stack h (g.supertypes t)) hresult

/-- Whether types are exactly the type itself and those above it, none twice. Of types that are the
same there is one. -/
structure IsAncestry (g : ClassGraph) (t : Ty) (found : List Ty) : Prop where
  start : t ∈ found
  closed : ∀ s ∈ found, ∀ u ∈ g.supertypes s, found.contains u = true
  above : ∀ s ∈ found, g.Above t s
  complete : ∀ s, g.Above t s → found.contains s = true
  distinct : Ty.Distinct found

theorem isAncestry_ancestry {limit : ℕ} {t : Ty} {found : List Ty}
    (h : g.ancestry limit t = some found) : g.IsAncestry t found := by
  have hend : g.Explores t [] found := (explores_start g t).expand h
  exact {
    start := hend.start
    closed := fun s hs => (hend.closed s hs).resolve_left (by simp)
    above := hend.above
    complete := fun s => contains_ancestry h
    distinct := distinct_expand (List.pairwise_singleton _ t) h }

/-- On every graph the search for the ancestry of a type ends exactly if only finitely many types
are above the type. What it settles on are the type itself and the types above it, none twice. -/
theorem finiteAbove_iff_settles (g : ClassGraph) (t : Ty) :
    g.FiniteAbove t ↔ ∃ found, Search.Settles (fun limit => g.ancestry limit t) found ∧
      g.IsAncestry t found := by
  constructor
  · intro h
    obtain ⟨n, hn⟩ := h.exists_ancestry
    obtain ⟨found, hfound⟩ := Option.isSome_iff_exists.1 (hn n (Nat.le_refl n))
    exact ⟨found, (g.stable_ancestry t).settles hfound, isAncestry_ancestry hfound⟩
  · rintro ⟨found, hsettles, -⟩
    obtain ⟨n, hn⟩ := hsettles.ends
    exact finiteAbove_of_ancestry (hn n (Nat.le_refl n))

/-- `class Swap<S, T> extends Swap<T, S> implements Box<int>`, where `Box<T> extends Object`. -/
def swapGraph : ClassGraph :=
  ⟨#[rootDecl "Object",
    { ClassDecl.unknown with
      name := "Box", typeParams := [.param "T"], superclass := some (.cls rootId) },
    { ClassDecl.unknown with
      name := "Swap", typeParams := [.param "S", .param "T"],
      superclass := some (.inst 2 [.param "T", .param "S"]),
      interfaces := [.inst 1 [.builtin .int "int"]] }], #[]⟩

/-- Going up from `Swap<int, String>` leads back to it by way of `Swap<String, int>`. The supertypes
of `Swap<int, String>` are made anew each time, and are known again. -/
theorem ancestry_swap :
    let int : Ty := .builtin .int "int"
    let string : Ty := .builtin .string "String"
    let found : List Ty :=
      [.inst 2 [int, string], .inst 2 [string, int], .inst 1 [int], .cls rootId]
    swapGraph.FiniteAbove (.inst 2 [int, string]) ∧
      Search.Settles (fun limit => swapGraph.ancestry limit (.inst 2 [int, string])) found ∧
      swapGraph.IsAncestry (.inst 2 [int, string]) found := by
  intro int string found
  have hfound : swapGraph.ancestry 10 (.inst 2 [int, string]) = some found := by decide
  have hfinite : swapGraph.FiniteAbove (.inst 2 [int, string]) := finiteAbove_of_ancestry hfound
  obtain ⟨found', hsettles, hexact⟩ := (finiteAbove_iff_settles swapGraph _).1 hfinite
  obtain rfl : found = found' := hsettles.only 10 found hfound
  exact ⟨hfinite, hsettles, hexact⟩

end ClassGraph

/-! ## Checking classes -/

namespace Checker

variable {g : ClassGraph}

/-- An answer tells whether the class is another one than that of the type and above it. -/
theorem isSuperOf_iff {limit : ℕ} {k : Checker} {t : Ty} {answer : Bool}
    (h : k.isSuperOf g limit t = some answer) :
    answer = true ↔ t.definition? ≠ some k.definition ∧
      ∃ s, g.Above t s ∧ s.definition? = some k.definition := by
  unfold isSuperOf at h
  split at h
  case isTrue hexact =>
    cases h
    simp [isExactly_iff.1 hexact]
  case isFalse hexact =>
    obtain ⟨found, hfound, rfl⟩ := Option.map_eq_some_iff.1 h
    rw [isExactly_iff] at hexact
    rw [List.any_eq_true]
    constructor
    · rintro ⟨s, hs, hexact'⟩
      exact ⟨hexact, s, g.above_of_mem_ancestry hfound hs, isExactly_iff.1 hexact'⟩
    · rintro ⟨-, s, hs, hdef⟩
      -- the type above is found up to sameness, and then refers to the same class
      obtain ⟨s', hs', heq⟩ :=
        List.contains_iff_exists_mem_beq.1 (g.contains_ancestry hfound hs)
      exact ⟨s', hs', isExactly_iff.2 ((Ty.definition?_of_beq heq).symm.trans hdef)⟩

theorem stable_isSuperOf (k : Checker) (g : ClassGraph) (t : Ty) :
    Search.Stable fun limit => k.isSuperOf g limit t := by
  unfold isSuperOf
  split
  · exact fun _ _ _ _ h => h
  · exact (g.stable_ancestry t).map _

/-- If only finitely many types are above a type, there is an answer within some limit. -/
theorem exists_isSuperOf_of_finiteAbove {t : Ty} (h : g.FiniteAbove t) (k : Checker) :
    ∃ n, ∀ limit, n ≤ limit → (k.isSuperOf g limit t).isSome = true := by
  obtain ⟨n, hn⟩ := h.exists_ancestry
  refine ⟨n, fun limit hlimit => ?_⟩
  unfold isSuperOf
  split
  · rfl
  · rw [Option.isSome_map]
    exact hn limit hlimit

end Checker

end ClassCode
