import ClassCode.Lists
import Mathlib.Data.List.Sort

/-!
# Sorted lists and lists without repetitions

Inserting into a list adds one member and keeps the list in order, and sorting rearranges a list so
that it is in order. Nothing occurs twice when repetitions are erased. A stable sort is in order
with regard to the former positions, too. In a list that is sorted by a key, members with smaller
keys are in front, and they come in the same order, however the list was arranged before, if no two
of them have equal keys (`Sorting.filter_sort_of_perm`).
-/

namespace ClassCode

section

variable {α : Type}

/-- A member of a list without repetitions is among those at some positions if its own position is
one of them. -/
theorem mem_filterMap_getElem? {as : List α} (has : as.Nodup) {positions : List ℕ} {i : ℕ}
    {a : α} (hi : as[i]? = some a) :
    a ∈ positions.filterMap (fun i => as[i]?) ↔ i ∈ positions := by
  rw [List.mem_filterMap]
  constructor
  · rintro ⟨k, hk, hka⟩
    obtain ⟨hlt, -⟩ := List.getElem?_eq_some_iff.1 hi
    rwa [(List.getElem?_inj hlt has).1 (hi.trans hka.symm)]
  · exact fun hp => ⟨i, hp, hi⟩

variable [BEq α] [LawfulBEq α]

/-- Nothing occurs twice when repetitions are erased. -/
theorem nodup_eraseDups (as : List α) : as.eraseDups.Nodup := by
  -- the tail loses the repetitions of the head first, so the induction is on the length
  induction h : as.length using Nat.strong_induction_on generalizing as with
  | _ size ih =>
    cases as with
    | nil => exact .nil
    | cons a as =>
      rw [List.eraseDups_cons, List.nodup_cons]
      refine ⟨by simp, ih _ ?_ _ rfl⟩
      rw [← h, List.length_cons]
      exact Nat.lt_succ_of_le (List.length_filter_le _ as)

/-- Erasing repetitions changes nothing if there are none. -/
theorem eraseDups_of_nodup {as : List α} (h : as.Nodup) : as.eraseDups = as := by
  induction as with
  | nil => rfl
  | cons a as ih =>
    obtain ⟨ha, has⟩ := List.nodup_cons.1 h
    have hothers : as.filter (fun b => !b == a) = as := by
      rw [List.filter_eq_self]
      intro b hb
      have hne : b ≠ a := fun heq => ha (heq ▸ hb)
      simpa using hne
    rw [List.eraseDups_cons, hothers, ih has]

/-- Repetitions in lists that have nothing in common can be erased apart. -/
theorem eraseDups_append_of_disjoint {as bs : List α} (h : as.Disjoint bs) :
    (as ++ bs).eraseDups = as.eraseDups ++ bs.eraseDups := by
  have hothers : bs.removeAll as = bs := by
    rw [List.removeAll, List.filter_eq_self]
    intro b hb
    simpa using fun ha => h ha hb
  rw [List.eraseDups_append, hothers]

/-- A repetition at the end is erased. -/
theorem eraseDups_concat (as : List α) (a : α) :
    (as ++ [a]).eraseDups = if as.contains a then as.eraseDups else as.eraseDups ++ [a] := by
  rw [List.eraseDups_append, List.removeAll, List.filter_singleton, List.elem_eq_contains]
  cases as.contains a <;> simp [List.eraseDups_cons]

/-- A member of a list without repetitions has no other index than its position. -/
theorem idxOf_of_getElem? {as : List α} (has : as.Nodup) {i : ℕ} {a : α}
    (hi : as[i]? = some a) : as.idxOf a = i := by
  obtain ⟨hlt, rfl⟩ := List.getElem?_eq_some_iff.1 hi
  exact has.idxOf_getElem i hlt

/-- Stable sorting leaves members that may stand either way round as they stood. -/
theorem pairwise_mergeSort_stable {le : α → α → Bool}
    (htrans : ∀ a b c, le a b = true → le b c = true → le a c = true)
    (htotal : ∀ a b, (le a b || le b a) = true) {as : List α} (has : as.Nodup) :
    (as.mergeSort le).Pairwise fun a b =>
      le a b = true ∧ (le b a = true → as.idxOf a < as.idxOf b) := by
  -- members are sorted together with their positions, which break ties
  have hsorted := List.pairwise_mergeSort (List.zipIdxLE_trans htrans)
    (List.zipIdxLE_total htotal) as.zipIdx
  have hperm := as.zipIdx.mergeSort_perm (List.zipIdxLE le)
  have hpositions : (as.zipIdx.mergeSort (List.zipIdxLE le)).Pairwise fun x y => x.2 ≠ y.2 := by
    rw [← List.pairwise_map (f := Prod.snd), ← List.nodup_iff_pairwise_ne,
      (hperm.map Prod.snd).nodup_iff, List.zipIdx_map_snd]
    exact List.nodup_range'
  have hindex : ∀ {a : α} {i : ℕ}, (a, i) ∈ as.zipIdx.mergeSort (List.zipIdxLE le) →
      as.idxOf a = i := by
    intro a i h
    exact idxOf_of_getElem? has (List.mk_mem_zipIdx_iff_getElem?.1 (hperm.mem_iff.1 h))
  rw [← List.mergeSort_zipIdx, List.pairwise_map]
  refine (hsorted.and hpositions).imp_of_mem ?_
  rintro ⟨a, i⟩ ⟨b, j⟩ ha hb ⟨hle, hne⟩
  rw [List.zipIdxLE] at hle
  rw [hindex ha, hindex hb]
  split at hle
  case isTrue hab =>
    refine ⟨hab, fun hba => ?_⟩
    rw [if_pos hba, decide_eq_true_iff] at hle
    exact lt_of_le_of_ne hle hne
  case isFalse => cases hle

end

namespace Sorting

variable {α : Type} {before : α → α → Bool}

/-- Inserting adds the inserted member. -/
theorem insert_perm (before : α → α → Bool) (a : α) (as : List α) :
    (insert before a as).Perm (a :: as) := by
  induction as with
  | nil => exact .refl _
  | cons b as ih =>
    rw [insert]
    split
    · exact .refl _
    · exact (ih.cons b).trans (.swap a b as)

theorem mem_insert {a b : α} {as : List α} : b ∈ insert before a as ↔ b = a ∨ b ∈ as := by
  rw [(insert_perm before a as).mem_iff, List.mem_cons]

/-- Inserting keeps a list in order, if the inserted member can be compared with all of it. -/
theorem pairwise_insert (htrans : ∀ a b c, before a b = true → before b c = true →
      before a c = true) {a : α} {as : List α} (has : as.Pairwise fun b c => before b c = true)
    (ha : ∀ b ∈ as, before a b = true ∨ before b a = true) :
    (insert before a as).Pairwise fun b c => before b c = true := by
  induction as with
  | nil => exact List.pairwise_singleton _ a
  | cons b as ih =>
    obtain ⟨hb, has⟩ := List.pairwise_cons.1 has
    rw [insert]
    split
    case isTrue hab =>
      refine List.pairwise_cons.2 ⟨fun c hc => ?_, List.pairwise_cons.2 ⟨hb, has⟩⟩
      rcases List.mem_cons.1 hc with rfl | hc
      · exact hab
      · exact htrans a b c hab (hb c hc)
    case isFalse hab =>
      refine List.pairwise_cons.2 ⟨fun c hc => ?_, ih has fun c hc => ha c (by simp [hc])⟩
      rcases mem_insert.1 hc with rfl | hc
      · exact (ha b (by simp)).resolve_left hab
      · exact hb c hc

/-- Sorting rearranges a list. -/
theorem sort_perm (before : α → α → Bool) (as : List α) : (sort before as).Perm as := by
  induction as with
  | nil => exact .refl _
  | cons a as ih => exact (insert_perm before a (sort before as)).trans (ih.cons a)

/-- A list without repetitions is sorted, if different members can always be compared. -/
theorem pairwise_sort (htrans : ∀ a b c, before a b = true → before b c = true →
      before a c = true) (htotal : ∀ a b, a ≠ b → before a b = true ∨ before b a = true)
    {as : List α} (has : as.Nodup) :
    (sort before as).Pairwise fun b c => before b c = true := by
  induction as with
  | nil => exact .nil
  | cons a as ih =>
    obtain ⟨ha, has⟩ := List.nodup_cons.1 has
    refine pairwise_insert htrans (ih has) fun b hb => htotal a b ?_
    rintro rfl
    exact ha ((sort_perm before as).mem_iff.1 hb)

/-! ### By key -/

variable {κ : Type} [LinearOrder κ] (key : α → κ)

/-- A list that is in order of a key has the members with smaller keys in front. -/
theorem eq_filter_append_filter {as : List α} (has : as.Pairwise fun a b => key a ≤ key b)
    (k : κ) : as = as.filter (key · < k) ++ as.filter (k ≤ key ·) := by
  induction as with
  | nil => rfl
  | cons a as ih =>
    obtain ⟨ha, has⟩ := List.pairwise_cons.1 has
    rcases lt_or_ge (key a) k with hlt | hle
    · rw [List.filter_cons_of_pos (by simpa using hlt),
        List.filter_cons_of_neg (by simpa using hlt), List.cons_append, ← ih has]
    · have hnone : as.filter (key · < k) = [] := by
        rw [List.filter_eq_nil_iff]
        intro b hb
        simpa using hle.trans (ha b hb)
      have hall : as.filter (k ≤ key ·) = as := by
        rw [List.filter_eq_self]
        intro b hb
        simpa using hle.trans (ha b hb)
      rw [List.filter_cons_of_neg (by simpa using hle),
        List.filter_cons_of_pos (by simpa using hle), hnone, hall, List.nil_append]

/-- In a list that is in order of a key, the first member behind those with smaller keys than a
member has the key of that member. -/
theorem exists_eq_filter_append_cons {as : List α} (has : as.Pairwise fun a b => key a ≤ key b)
    {a : α} (ha : a ∈ as) :
    ∃ b bs, b ∈ as ∧ key b = key a ∧ as = as.filter (key · < key a) ++ b :: bs := by
  have hsplit := eq_filter_append_filter key has (key a)
  have hmem : a ∈ as.filter (key a ≤ key ·) := List.mem_filter.2 ⟨ha, by simp⟩
  obtain ⟨b, bs, hcons⟩ := List.exists_cons_of_ne_nil (List.ne_nil_of_mem hmem)
  have hb : b ∈ as.filter (key a ≤ key ·) := hcons ▸ List.mem_cons_self
  have hrest := has.filter fun b => decide (key a ≤ key b)
  rw [hcons] at hsplit hmem hrest
  refine ⟨b, bs, (List.mem_filter.1 hb).1, le_antisymm ?_ (by simpa using (List.mem_filter.1 hb).2),
    hsplit⟩
  rcases List.mem_cons.1 hmem with rfl | hmem
  · exact le_rfl
  · exact (List.pairwise_cons.1 hrest).1 a hmem

variable {key} (hkey : ∀ a b, before a b = true ↔ key a ≤ key b)
include hkey

theorem pairwise_sort_key (as : List α) :
    (sort before as).Pairwise fun a b => key a ≤ key b := by
  have hsorted : (sort before as).Pairwise fun a b => before a b = true := by
    induction as with
    | nil => exact .nil
    | cons a as ih =>
      refine pairwise_insert (fun b c d hbc hcd => ?_) ih fun b _ => ?_
      · rw [hkey] at hbc hcd ⊢
        exact hbc.trans hcd
      · rw [hkey, hkey]
        exact le_total (key a) (key b)
  exact hsorted.imp fun hab => (hkey _ _).1 hab

/-- A member goes behind those with smaller keys, in front of those that came later. -/
theorem insert_eq_filter {as : List α} (has : as.Pairwise fun a b => key a ≤ key b) (a : α) :
    insert before a as = as.filter (key · < key a) ++ a :: as.filter (key a ≤ key ·) := by
  induction as with
  | nil => rfl
  | cons b as ih =>
    have hsplit := eq_filter_append_filter key has (key a)
    obtain ⟨hb, has⟩ := List.pairwise_cons.1 has
    rw [insert]
    split
    case isTrue hab =>
      rw [hkey] at hab
      have hnone : (b :: as).filter (key · < key a) = [] := by
        rw [List.filter_eq_nil_iff]
        intro c hc
        rcases List.mem_cons.1 hc with rfl | hc
        · simpa using hab
        · simpa using hab.trans (hb c hc)
      rw [hnone, List.nil_append] at hsplit
      rw [hnone, ← hsplit, List.nil_append]
    case isFalse hab =>
      rw [hkey, not_le] at hab
      rw [ih has, List.filter_cons_of_pos (by simpa using hab),
        List.filter_cons_of_neg (by simpa using hab), List.cons_append]

/-- Members that are told apart by their keys come in the same order, in whichever order they are
given. -/
theorem filter_sort_of_perm {as as' : List α} (h : as'.Perm as) {P : α → Bool}
    (hP : ∀ a ∈ as, ∀ b ∈ as, P a = true → P b = true → key a = key b → a = b) :
    (sort before as').filter P = (sort before as).filter P := by
  have hsorted := fun as : List α => (pairwise_sort_key hkey as).filter P
  have hperm : ((sort before as').filter P).Perm ((sort before as).filter P) :=
    ((sort_perm before as').trans (h.trans (sort_perm before as).symm)).filter P
  refine hperm.eq_of_pairwise (fun a b ha hb hab hba => ?_) (hsorted as') (hsorted as)
  obtain ⟨ha, hPa⟩ := List.mem_filter.1 ha
  obtain ⟨hb, hPb⟩ := List.mem_filter.1 hb
  exact hP a (h.mem_iff.1 ((sort_perm before as').mem_iff.1 ha)) b
    ((sort_perm before as).mem_iff.1 hb) hPa hPb (le_antisymm hab hba)

end Sorting

end ClassCode
