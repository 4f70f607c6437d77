import ClassCode.Lists
import Mathlib.Data.Nat.Notation
import Mathlib.Data.Option.Basic

/-!
# Results of searches with a limit

A search over a list ends when it ends for every member, and then its result is the one that the
unlimited operation on lists would give.

A search is stable when a larger limit does not change its result. It then settles on one result, if
it has any (`Stable.settles`).
-/

namespace ClassCode.Search

variable {α β γ δ : Type}

/-! ## Limits -/

/-- Whether a search keeps its result when the limit grows. -/
def Stable (search : ℕ → Option α) : Prop :=
  ∀ ⦃limit limit' : ℕ⦄, limit ≤ limit' → ∀ a, search limit = some a → search limit' = some a

/-- Whether a search has a result: from some limit on that is what it answers, and below it answers
nothing else. -/
structure Settles (search : ℕ → Option α) (a : α) : Prop where
  ends : ∃ n, ∀ limit, n ≤ limit → search limit = some a
  only : ∀ limit b, search limit = some b → b = a

/-- A search is stable if one step more does not change its result. -/
theorem stable_of_succ {search : ℕ → Option α}
    (h : ∀ limit a, search limit = some a → search (limit + 1) = some a) : Stable search := by
  intro limit limit' hle a ha
  induction hle with
  | refl => exact ha
  | step _ ih => exact h _ a ih

theorem Stable.map {search : ℕ → Option α} (h : Stable search) (f : α → β) :
    Stable fun limit => (search limit).map f := by
  intro limit limit' hle b hb
  obtain ⟨a, ha, rfl⟩ := Option.map_eq_some_iff.1 hb
  exact Option.map_eq_some_iff.2 ⟨a, h hle a ha, rfl⟩

/-- What a stable search answers for some limit is its result. -/
theorem Stable.settles {search : ℕ → Option α} (h : Stable search) {n : ℕ} {a : α}
    (ha : search n = some a) : Settles search a where
  ends := ⟨n, fun _ hle => h hle a ha⟩
  only := by
    intro limit b hb
    have hb' := h (Nat.le_max_left limit n) b hb
    have ha' := h (Nat.le_max_right limit n) a ha
    exact Option.some.inj (hb'.symm.trans ha')

/-- A stable search that ends for all limits from some one on settles on a result. -/
theorem Stable.exists_settles {search : ℕ → Option α} (h : Stable search)
    (hends : ∃ n, ∀ limit, n ≤ limit → (search limit).isSome = true) :
    ∃ a, (∃ n, search n = some a) ∧ Settles search a := by
  obtain ⟨n, hn⟩ := hends
  obtain ⟨a, ha⟩ := Option.isSome_iff_exists.1 (hn n (Nat.le_refl n))
  exact ⟨a, ⟨n, ha⟩, h.settles ha⟩

/-- A search has one result at most. -/
theorem Settles.unique {search : ℕ → Option α} {a b : α} (h : Settles search a)
    (h' : Settles search b) : a = b := by
  obtain ⟨n, hn⟩ := h.ends
  exact h'.only n a (hn n (Nat.le_refl n))

/-- A limit that is large enough for every member of a list, if there is one for each. -/
theorem exists_limit {p : α → ℕ → Prop} (as : List α)
    (h : ∀ a ∈ as, ∃ n, ∀ limit, n ≤ limit → p a limit) :
    ∃ n, ∀ limit, n ≤ limit → ∀ a ∈ as, p a limit := by
  induction as with
  | nil => exact ⟨0, fun _ _ a ha => by cases ha⟩
  | cons a as ih =>
    obtain ⟨n, hn⟩ := h a (by simp)
    obtain ⟨n', hn'⟩ := ih fun b hb => h b (by simp [hb])
    refine ⟨max n n', fun limit hlimit b hb => ?_⟩
    rcases List.mem_cons.1 hb with rfl | hb
    · exact hn limit (by omega)
    · exact hn' limit (by omega) b hb

/-! ## First results -/

/-- A search for a first result ends if it ends for every alternative. -/
theorem isSome_first? {search : α → Option (Option β)} {as : List α}
    (h : ∀ a ∈ as, (search a).isSome = true) : (first? search as).isSome = true := by
  induction as with
  | nil => rfl
  | cons a as ih =>
    obtain ⟨found, hfound⟩ := Option.isSome_iff_exists.1 (h a (by simp))
    rw [first?, hfound]
    cases found with
    | none => exact ih fun b hb => h b (by simp [hb])
    | some b => rfl

/-- A first result is the result for one of the alternatives. -/
theorem exists_of_first? {search : α → Option (Option β)} {as : List α} {b : β}
    (h : first? search as = some (some b)) : ∃ a ∈ as, search a = some (some b) := by
  induction as with
  | nil => cases h
  | cons a as ih =>
    rw [first?] at h
    split at h
    · cases h
    · cases h
      exact ⟨a, by simp, ‹_›⟩
    · obtain ⟨a', ha', hb⟩ := ih h
      exact ⟨a', by simp [ha'], hb⟩

/-- When a change of the alternatives changes the result for each of them in the same way, it
changes the first result in that way. -/
theorem first?_map {search : α → Option (Option β)} {search' : γ → Option (Option δ)} (f : α → γ)
    (change : β → δ) {as : List α}
    (h : ∀ a ∈ as, search' (f a) = (search a).map (Option.map change)) :
    first? search' (as.map f) = (first? search as).map (Option.map change) := by
  induction as with
  | nil => rfl
  | cons a as ih =>
    rw [List.map_cons, first?, first?, h a (by simp)]
    rcases search a with _ | _ | b
    · rfl
    · exact ih fun b hb => h b (by simp [hb])
    · rfl

/-- A first result stays when the results for all alternatives do. -/
theorem first?_mono {search search' : α → Option (Option β)} {as : List α}
    (h : ∀ a ∈ as, ∀ found, search a = some found → search' a = some found) {found : Option β}
    (hfound : first? search as = some found) : first? search' as = some found := by
  induction as with
  | nil => exact hfound
  | cons a as ih =>
    rw [first?] at hfound ⊢
    split at hfound
    case h_1 => cases hfound
    case h_2 b hb =>
      rw [h a (by simp) (some b) hb]
      exact hfound
    case h_3 hnone =>
      rw [h a (by simp) none hnone]
      exact ih (fun b hb => h b (by simp [hb])) hfound

/-! ## Members that pass a test -/

/-- When the answers of a test are those of a property, the members that pass it are those with the
property. -/
theorem filter?_eq_some {test : α → Option Bool} {p : α → Bool} {as bs : List α}
    (h : ∀ a ∈ as, ∀ b, test a = some b → b = p a) (hbs : filter? test as = some bs) :
    bs = as.filter p := by
  induction as generalizing bs with
  | nil => exact (Option.some.inj hbs).symm
  | cons a as ih =>
    have hrest : ∀ cs, filter? test as = some cs → cs = as.filter p := fun cs hcs =>
      ih (fun b hb => h b (by simp [hb])) hcs
    rw [filter?] at hbs
    split at hbs
    case h_1 htest =>
      obtain ⟨cs, hcs, rfl⟩ := Option.map_eq_some_iff.1 hbs
      rw [List.filter_cons_of_pos (h a (by simp) _ htest).symm, hrest cs hcs]
    case h_2 htest =>
      have hp : ¬ p a = true := by simp [← h a (by simp) _ htest]
      rw [List.filter_cons_of_neg hp, hrest bs hbs]
    case h_3 => cases hbs

/-- Testing all members ends if it ends for each of them. -/
theorem isSome_filter? {test : α → Option Bool} {as : List α}
    (h : ∀ a ∈ as, (test a).isSome = true) : (filter? test as).isSome = true := by
  induction as with
  | nil => rfl
  | cons a as ih =>
    have hrest := ih fun b hb => h b (by simp [hb])
    obtain ⟨b, hb⟩ := Option.isSome_iff_exists.1 (h a (by simp))
    rw [filter?, hb]
    cases b with
    | false => exact hrest
    | true => rwa [Option.isSome_map]

/-- What a test finds stays when its answers for all members do. -/
theorem filter?_mono {test test' : α → Option Bool} {as : List α}
    (h : ∀ a ∈ as, ∀ b, test a = some b → test' a = some b) {bs : List α}
    (hbs : filter? test as = some bs) : filter? test' as = some bs := by
  induction as generalizing bs with
  | nil => exact hbs
  | cons a as ih =>
    have hrest : ∀ cs, filter? test as = some cs → filter? test' as = some cs := fun cs hcs =>
      ih (fun b hb => h b (by simp [hb])) hcs
    unfold filter? at hbs ⊢
    split at hbs
    case h_1 htest =>
      obtain ⟨cs, hcs, rfl⟩ := Option.map_eq_some_iff.1 hbs
      rw [h a (by simp) true htest, hrest cs hcs]
      rfl
    case h_2 htest =>
      rw [h a (by simp) false htest]
      exact hrest bs hbs
    case h_3 => cases hbs

/-! ## Results for every member -/

/-- When the results of a search are those of a function, they are the image of the list. -/
theorem map?_eq_some {search : α → Option β} {f : α → β} {as : List α} {bs : List β}
    (h : ∀ a ∈ as, ∀ b, search a = some b → b = f a) (hbs : map? search as = some bs) :
    bs = as.map f := by
  induction as generalizing bs with
  | nil => exact (Option.some.inj hbs).symm
  | cons a as ih =>
    rw [map?] at hbs
    split at hbs
    case h_1 b hb =>
      obtain ⟨cs, hcs, rfl⟩ := Option.map_eq_some_iff.1 hbs
      rw [List.map_cons, h a (by simp) b hb, ih (fun b hb => h b (by simp [hb])) hcs]
    case h_2 => cases hbs

/-- Searching for all members ends if it ends for each of them. -/
theorem isSome_map? {search : α → Option β} {as : List α}
    (h : ∀ a ∈ as, (search a).isSome = true) : (map? search as).isSome = true := by
  induction as with
  | nil => rfl
  | cons a as ih =>
    obtain ⟨b, hb⟩ := Option.isSome_iff_exists.1 (h a (by simp))
    rw [map?, hb]
    simpa using ih fun b hb => h b (by simp [hb])

/-- The results for all members stay when each of them does. -/
theorem map?_mono {search search' : α → Option β} {as : List α}
    (h : ∀ a ∈ as, ∀ b, search a = some b → search' a = some b) {bs : List β}
    (hbs : map? search as = some bs) : map? search' as = some bs := by
  induction as generalizing bs with
  | nil => exact hbs
  | cons a as ih =>
    unfold map? at hbs ⊢
    split at hbs
    case h_1 b hb =>
      obtain ⟨cs, hcs, rfl⟩ := Option.map_eq_some_iff.1 hbs
      rw [h a (by simp) b hb, ih (fun b hb => h b (by simp [hb])) hcs]
      rfl
    case h_2 => cases hbs

/-! ## Going through a list step by step -/

/-- Going through a list ends if every step ends. -/
theorem isSome_foldl? {step : β → α → Option β} {as : List α}
    (h : ∀ a ∈ as, ∀ b, (step b a).isSome = true) (b : β) : (foldl? step b as).isSome = true := by
  induction as generalizing b with
  | nil => rfl
  | cons a as ih =>
    obtain ⟨c, hc⟩ := Option.isSome_iff_exists.1 (h a (by simp) b)
    rw [foldl?, hc]
    exact ih (fun a' ha' => h a' (by simp [ha'])) c

/-- The result of going through a list stays when those of all steps do. -/
theorem foldl?_mono {step step' : β → α → Option β} {as : List α}
    (h : ∀ a ∈ as, ∀ b c, step b a = some c → step' b a = some c) {b c : β}
    (hc : foldl? step b as = some c) : foldl? step' b as = some c := by
  induction as generalizing b with
  | nil => exact hc
  | cons a as ih =>
    rw [foldl?] at hc ⊢
    split at hc
    case h_1 d hd =>
      rw [h a (by simp) b d hd]
      exact ih (fun a' ha' => h a' (by simp [ha'])) hc
    case h_2 => cases hc

end ClassCode.Search
