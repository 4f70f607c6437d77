import ClassCode.Fields
import ClassCode.Proofs.Sorting
import Mathlib.Data.Fintype.EquivFin
import Mathlib.Logic.Relation
import Mathlib.Order.WellFounded

/-!
# Placement is selection

Placing positions with counters gives the order of a naive procedure: again and again, select the
first of all positions that are ready, that is, whose predecessors have all been placed, until there
is none (`selection_place`).

The state between two steps is described by the positions placed so far alone (`Tracks`): the
counter of a position is the number of its predecessors that are not placed yet, and the ready list
holds the ready positions in order.

Since a selected position comes after all that it waits for, those are left out that are in a circle
of positions waiting for each other, or wait for such (`mem_place_iff`).
-/

namespace ClassCode.Placement

variable {key : ℕ → ℤ} {followers : ℕ → List ℕ} {size : ℕ}

/-! ## Order of ready positions -/

theorem goesFirst_iff {i j : ℕ} :
    goesFirst key i j = true ↔ key i < key j ∨ (key i = key j ∧ i < j) := by
  simp [goesFirst]

theorem goesFirst_trans (i j k : ℕ) (hij : goesFirst key i j = true)
    (hjk : goesFirst key j k = true) : goesFirst key i k = true := by
  rw [goesFirst_iff] at hij hjk ⊢
  omega

/-- Of two different positions one goes first. -/
theorem goesFirst_total (i j : ℕ) (h : i ≠ j) :
    goesFirst key i j = true ∨ goesFirst key j i = true := by
  rw [goesFirst_iff, goesFirst_iff]
  omega

/-! ## Selection -/

/-- How many times a position has to wait for one that is not placed yet. -/
def waits (size : ℕ) (followers : ℕ → List ℕ) (placed : List ℕ) (j : ℕ) : ℕ :=
  (((List.range size).filter fun i => !placed.contains i).flatMap followers).count j

/-- Whether a position is not placed yet and all its predecessors are. -/
def Ready (size : ℕ) (followers : ℕ → List ℕ) (placed : List ℕ) (j : ℕ) : Prop :=
  j < size ∧ j ∉ placed ∧ ∀ i < size, j ∈ followers i → i ∈ placed

/-- The orders in which positions can be selected after some have been placed: the next one is
ready and goes before all others that are, and the order ends when no position is ready. -/
inductive Selection (size : ℕ) (key : ℕ → ℤ) (followers : ℕ → List ℕ) : List ℕ → List ℕ → Prop
  | done {placed : List ℕ} (h : ∀ j, ¬ Ready size followers placed j) :
      Selection size key followers placed []
  | next {placed rest : List ℕ} {i : ℕ} (hi : Ready size followers placed i)
      (hfirst : ∀ j, Ready size followers placed j → j ≠ i → goesFirst key i j = true)
      (hrest : Selection size key followers (placed ++ [i]) rest) :
      Selection size key followers placed (i :: rest)

/-- A position is ready if it waits for none. -/
theorem ready_iff_waits {placed : List ℕ} {j : ℕ} :
    Ready size followers placed j ↔
      j < size ∧ j ∉ placed ∧ waits size followers placed j = 0 := by
  rw [Ready, waits, List.count_eq_zero, List.mem_flatMap]
  simp only [List.mem_filter, List.mem_range, List.contains_eq_mem, Bool.not_eq_true',
    decide_eq_false_iff_not]
  constructor
  · rintro ⟨hj, hp, h⟩
    refine ⟨hj, hp, ?_⟩
    rintro ⟨i, ⟨hi, hip⟩, hji⟩
    exact hip (h i hi hji)
  · rintro ⟨hj, hp, h⟩
    refine ⟨hj, hp, fun i hi hji => ?_⟩
    by_contra hip
    exact h ⟨i, ⟨hi, hip⟩, hji⟩

/-- Placing a position takes its followers off the count. -/
theorem waits_append {placed : List ℕ} {i : ℕ} (hi : i < size) (hp : i ∉ placed) (j : ℕ) :
    waits size followers placed j =
      waits size followers (placed ++ [i]) j + (followers i).count j := by
  have hsplit : ((List.range size).filter fun i => !placed.contains i).Perm
      (i :: (List.range size).filter fun k => !(placed ++ [i]).contains k) := by
    have hnodup : ((List.range size).filter fun k => !placed.contains k).Nodup :=
      List.nodup_range.filter _
    have hmem : i ∈ (List.range size).filter fun k => !placed.contains k := by
      simp [hi, hp]
    refine (List.perm_cons_erase hmem).trans (.cons i ?_)
    rw [hnodup.erase_eq_filter, List.filter_filter]
    refine List.Perm.of_eq (List.filter_congr fun k _ => ?_)
    by_cases hk : k = i <;> simp [hk]
  rw [waits, (hsplit.flatMap_right followers).count_eq, List.flatMap_cons, List.count_append,
    waits, Nat.add_comm]

/-! ## Counters -/

/-- What the counters and the ready list are while positions are still to be released, each as often
as it occurs: the counter of a position is what it will be in the end and its occurrences, and none
of these positions is ready yet. -/
structure Releasing (size : ℕ) (key : ℕ → ℤ) (count : ℕ → ℕ) (js pending ready : List ℕ) :
    Prop where
  length : pending.length = size
  counts : ∀ j < size, pending[j]? = some (count j + js.count j)
  sorted : ready.Pairwise fun i j => goesFirst key i j = true
  waiting : ∀ j ∈ ready, j ∉ js

section

variable {count : ℕ → ℕ} {js pending ready : List ℕ} {i : ℕ}

/-- Counting down for a position makes it ready if this is its last occurrence and its counter drops
to zero. -/
theorem Releasing.next (h : Releasing size key count (i :: js) pending ready) (hi : i < size) :
    let pending' := pending.modify i (· - 1)
    let ready' := if pending'[i]? = some 0 then Sorting.insert (goesFirst key) i ready else ready
    Releasing size key count js pending' ready' ∧
      ∀ j, j ∈ ready' ↔ j ∈ ready ∨ j = i ∧ count i = 0 ∧ i ∉ js := by
  intro pending' ready'
  have hcounts : ∀ j < size, pending'[j]? = some (count j + js.count j) := by
    intro j hj
    rw [List.getElem?_modify, h.counts j hj, List.count_cons]
    by_cases hij : i = j <;> simp [hij]
  have hlength : pending'.length = size := by rw [List.length_modify, h.length]
  have hwaiting : ∀ j ∈ ready, j ≠ i ∧ j ∉ js := by
    simpa only [List.mem_cons, not_or] using h.waiting
  have hzero : pending'[i]? = some 0 ↔ count i = 0 ∧ i ∉ js := by
    rw [hcounts i hi, Option.some.injEq, Nat.add_eq_zero_iff, List.count_eq_zero]
  by_cases hz : count i = 0 ∧ i ∉ js
  · have hready : ready' = Sorting.insert (goesFirst key) i ready := if_pos (hzero.2 hz)
    have hmem : ∀ j, j ∈ ready' ↔ j = i ∨ j ∈ ready := by
      intro j
      rw [hready, Sorting.mem_insert]
    refine ⟨⟨hlength, hcounts, ?_, fun j hj => ?_⟩, fun j => ?_⟩
    · rw [hready]
      exact Sorting.pairwise_insert goesFirst_trans h.sorted fun b hb =>
        goesFirst_total i b (hwaiting b hb).1.symm
    · rcases (hmem j).1 hj with rfl | hj
      · exact hz.2
      · exact (hwaiting j hj).2
    · rw [hmem, or_comm, and_iff_left hz]
  · have hready : ready' = ready := if_neg (hzero.not.2 hz)
    rw [hready]
    exact ⟨⟨hlength, hcounts, h.sorted, fun j hj => (hwaiting j hj).2⟩, fun j =>
      (or_iff_left fun hj => hz hj.2).symm⟩

/-- Releasing counts down by the number of occurrences; ready become those whose counter drops to
zero. -/
theorem Releasing.released (h : Releasing size key count js pending ready)
    (hbound : ∀ j ∈ js, j < size) :
    Releasing size key count [] (release key pending ready js).1
        (release key pending ready js).2 ∧
      ∀ j, j ∈ (release key pending ready js).2 ↔ j ∈ ready ∨ j ∈ js ∧ count j = 0 := by
  induction js generalizing pending ready with
  | nil => exact ⟨h, fun j => by simp [release]⟩
  | cons i js ih =>
    obtain ⟨hnext, hready⟩ := h.next (hbound i List.mem_cons_self)
    obtain ⟨hdone, hmem⟩ := ih hnext fun j hj => hbound j (List.mem_cons_of_mem i hj)
    refine ⟨hdone, fun j => ?_⟩
    rw [release, hmem, hready, List.mem_cons]
    by_cases hj : j = i
    · subst hj
      tauto
    · tauto

end

/-! ## The state between two steps -/

/-- What the counters and the ready list are when certain positions have been placed. -/
structure Tracks (size : ℕ) (key : ℕ → ℤ) (followers : ℕ → List ℕ)
    (placed pending ready : List ℕ) : Prop where
  length : pending.length = size
  counts : ∀ j < size, pending[j]? = some (waits size followers placed j)
  sorted : ready.Pairwise fun i j => goesFirst key i j = true
  mem_ready : ∀ j, j ∈ ready ↔ Ready size followers placed j
  nodup : placed.Nodup
  bounded : ∀ i ∈ placed, i < size
  settled : ∀ i ∈ placed, waits size followers placed i = 0

/-- At the beginning no position is placed. -/
theorem tracks_nil (size : ℕ) (key : ℕ → ℤ) (followers : ℕ → List ℕ) :
    Tracks size key followers [] (predecessorCounts size followers)
      (Sorting.sort (goesFirst key) ((List.range size).filter fun i =>
        (predecessorCounts size followers)[i]? = some 0)) := by
  have hcounts : ∀ j < size,
      (predecessorCounts size followers)[j]? = some (waits size followers [] j) := by
    intro j hj
    have hall : (List.range size).filter (fun i => !([] : List ℕ).contains i) = List.range size :=
      List.filter_eq_self.2 fun i _ => rfl
    rw [predecessorCounts, waits, hall, List.getElem?_map, List.getElem?_range hj]
    rfl
  refine ⟨by simp [predecessorCounts], hcounts, ?_, fun j => ?_, .nil, by simp, by simp⟩
  · exact Sorting.pairwise_sort goesFirst_trans goesFirst_total (List.nodup_range.filter _)
  · rw [(Sorting.sort_perm _ _).mem_iff, List.mem_filter, List.mem_range, ready_iff_waits]
    simp only [List.not_mem_nil, not_false_eq_true, true_and, decide_eq_true_eq]
    constructor
    · rintro ⟨hj, h⟩
      rw [hcounts j hj, Option.some.injEq] at h
      exact ⟨hj, h⟩
    · rintro ⟨hj, h⟩
      rw [hcounts j hj, h]
      exact ⟨hj, rfl⟩

/-- What waits for nothing does so still when another position has been placed, and is no follower
of that position. -/
theorem not_mem_followers_of_waits {placed : List ℕ} {i j : ℕ} (hi : i < size) (hp : i ∉ placed)
    (hj : waits size followers placed j = 0) :
    waits size followers (placed ++ [i]) j = 0 ∧ j ∉ followers i := by
  rw [waits_append hi hp, Nat.add_eq_zero_iff, List.count_eq_zero] at hj
  exact hj

/-- Ready after a step are the other positions that were ready before it, and the followers of the
placed one that wait for nothing else. -/
theorem ready_concat_iff (hbound : ∀ i, ∀ j ∈ followers i, j < size) {placed : List ℕ}
    (hsettled : ∀ k ∈ placed, waits size followers placed k = 0) {i j : ℕ}
    (hi : Ready size followers placed i) :
    Ready size followers (placed ++ [i]) j ↔ Ready size followers placed j ∧ j ≠ i ∨
      j ∈ followers i ∧ waits size followers (placed ++ [i]) j = 0 := by
  obtain ⟨his, hip, hiw⟩ := ready_iff_waits.1 hi
  rw [ready_iff_waits, ready_iff_waits, List.mem_append, List.mem_singleton, not_or]
  constructor
  · rintro ⟨hjs, ⟨hjp, hji⟩, hzero⟩
    by_cases hj : j ∈ followers i
    · exact .inr ⟨hj, hzero⟩
    · refine .inl ⟨⟨hjs, hjp, ?_⟩, hji⟩
      rw [waits_append his hip, hzero, List.count_eq_zero_of_not_mem hj]
  · rintro (⟨⟨hjs, hjp, hjw⟩, hji⟩ | ⟨hj, hzero⟩)
    · exact ⟨hjs, ⟨hjp, hji⟩, (not_mem_followers_of_waits his hip hjw).1⟩
    · -- a position that was waiting for `i` has not been placed, and is not `i` itself
      refine ⟨hbound i j hj, ⟨fun hjp => ?_, ?_⟩, hzero⟩
      · exact (not_mem_followers_of_waits his hip (hsettled j hjp)).2 hj
      · rintro rfl
        exact (not_mem_followers_of_waits his hip hiw).2 hj

/-- Placing the first ready position and releasing its followers keeps track. -/
theorem Tracks.next (hbound : ∀ i, ∀ j ∈ followers i, j < size) {placed pending ready : List ℕ}
    {i : ℕ} (h : Tracks size key followers placed pending (i :: ready)) :
    Tracks size key followers (placed ++ [i]) (release key pending ready (followers i)).1
      (release key pending ready (followers i)).2 := by
  have hi : Ready size followers placed i := (h.mem_ready i).1 List.mem_cons_self
  obtain ⟨his, hip, hiw⟩ := ready_iff_waits.1 hi
  obtain ⟨hfirst, hsorted⟩ := List.pairwise_cons.1 h.sorted
  have hready : ∀ j, j ∈ ready ↔ Ready size followers placed j ∧ j ≠ i := by
    intro j
    rw [← h.mem_ready, List.mem_cons]
    refine ⟨fun hj => ⟨.inr hj, ?_⟩, fun hj => hj.1.resolve_left hj.2⟩
    rintro rfl
    have hself := hfirst j hj
    rw [goesFirst_iff] at hself
    omega
  have hwaiting : ∀ j ∈ ready, j ∉ followers i := fun j hj =>
    (not_mem_followers_of_waits his hip (ready_iff_waits.1 ((hready j).1 hj).1).2.2).2
  have hreleasing : Releasing size key (waits size followers (placed ++ [i])) (followers i) pending
      ready :=
    ⟨h.length, fun j hj => by rw [h.counts j hj, waits_append his hip], hsorted, hwaiting⟩
  obtain ⟨hdone, hmem⟩ := hreleasing.released (hbound i)
  refine ⟨hdone.length, hdone.counts, hdone.sorted, fun j => ?_, ?_, ?_, ?_⟩
  · rw [hmem, hready, ready_concat_iff hbound h.settled hi]
  · exact h.nodup.append (List.nodup_singleton i) (List.disjoint_singleton.2 hip)
  · rw [List.forall_mem_append, List.forall_mem_singleton]
    exact ⟨h.bounded, his⟩
  · rw [List.forall_mem_append, List.forall_mem_singleton]
    exact ⟨fun j hj => (not_mem_followers_of_waits his hip (h.settled j hj)).1,
      (not_mem_followers_of_waits his hip hiw).1⟩

/-! ## The whole run -/

/-- When as many positions are placed as there are, none is ready. -/
theorem Tracks.not_ready {placed pending ready : List ℕ}
    (h : Tracks size key followers placed pending ready) (hall : size ≤ placed.length) (j : ℕ) :
    ¬ Ready size followers placed j := by
  rintro ⟨hj, hjp, -⟩
  have hsub : (j :: placed) ⊆ List.range size := by
    intro i hi
    rcases List.mem_cons.1 hi with rfl | hi
    · exact List.mem_range.2 hj
    · exact List.mem_range.2 (h.bounded i hi)
  have hnodup : (j :: placed).Nodup := List.nodup_cons.2 ⟨hjp, h.nodup⟩
  have hle := (List.subperm_of_subset hnodup hsub).length_le
  rw [List.length_cons, List.length_range] at hle
  omega

/-- From any state on, positions are placed in the order of selection. -/
theorem Tracks.selection (hbound : ∀ i, ∀ j ∈ followers i, j < size) (count : ℕ)
    {placed pending ready : List ℕ} (h : Tracks size key followers placed pending ready)
    (hcount : size ≤ placed.length + count) :
    Selection size key followers placed (placeFrom key followers count pending ready) := by
  induction count generalizing placed pending ready with
  | zero => exact .done (h.not_ready (by omega))
  | succ count ih =>
    cases ready with
    | nil => exact .done fun j hj => by cases (h.mem_ready j).2 hj
    | cons i ready =>
      rw [placeFrom]
      refine .next ((h.mem_ready i).1 (by simp)) (fun j hj hji => ?_) ?_
      · have hmem := (List.mem_cons.1 ((h.mem_ready j).2 hj)).resolve_left hji
        exact (List.pairwise_cons.1 h.sorted).1 j hmem
      · refine ih (h.next hbound) ?_
        rw [List.length_append, List.length_singleton]
        omega

/-- The order of placement is the order of selection. -/
theorem selection_place (key : ℕ → ℤ) (hbound : ∀ i, ∀ j ∈ followers i, j < size) :
    Selection size key followers [] (place size key followers) :=
  (tracks_nil size key followers).selection hbound size (by simp)

/-! ## What is selected -/

/-- A position is selected once at most, and only if it is below the size. -/
theorem Selection.nodup {placed order : List ℕ} (h : Selection size key followers placed order) :
    order.Nodup ∧ ∀ i ∈ order, i < size ∧ i ∉ placed := by
  induction h with
  | done => exact ⟨.nil, by simp⟩
  | @next placed rest i hi _ _ ih =>
    obtain ⟨hnodup, hmem⟩ := ih
    refine ⟨List.nodup_cons.2 ⟨fun h => (hmem i h).2 (by simp), hnodup⟩, fun j hj => ?_⟩
    rcases List.mem_cons.1 hj with rfl | hj
    · exact ⟨hi.1, hi.2.1⟩
    · exact ⟨(hmem j hj).1, fun hp => (hmem j hj).2 (by simp [hp])⟩

/-- Selection goes on until no position is ready. -/
theorem Selection.not_ready {placed order : List ℕ}
    (h : Selection size key followers placed order) (j : ℕ) :
    ¬ Ready size followers (placed ++ order) j := by
  induction h with
  | done h => simpa using h j
  | next _ _ _ ih => simpa using ih

/-- Every selected position is ready when those before it have been placed, and then it goes before
all others that are. -/
theorem Selection.first {placed order before rest : List ℕ} {i : ℕ}
    (h : Selection size key followers placed order) (horder : order = before ++ i :: rest) :
    Ready size followers (placed ++ before) i ∧
      ∀ j, Ready size followers (placed ++ before) j → j ≠ i → goesFirst key i j = true := by
  induction h generalizing before with
  | done => simp at horder
  | @next placed order' k hk hfirst _ ih =>
    cases before with
    | nil =>
      rw [List.nil_append, List.cons.injEq] at horder
      obtain ⟨rfl, -⟩ := horder
      rw [List.append_nil]
      exact ⟨hk, hfirst⟩
    | cons k' before =>
      rw [List.cons_append, List.cons.injEq] at horder
      obtain ⟨rfl, hrest⟩ := horder
      rw [List.append_cons]
      exact ih hrest

/-! ## What is left out -/

open Relation

/-- Whether a position has to wait for another one. -/
def Blocks (size : ℕ) (followers : ℕ → List ℕ) (i j : ℕ) : Prop := i < size ∧ j ∈ followers i

/-- What a selected position has to wait for is selected before it. -/
theorem Selection.idxOf_lt {order : List ℕ} (h : Selection size key followers [] order) {i j : ℕ}
    (hij : TransGen (Blocks size followers) i j) (hj : j ∈ order) :
    i ∈ order ∧ order.idxOf i < order.idxOf j := by
  have hstep : ∀ {i j}, Blocks size followers i j → j ∈ order →
      i ∈ order ∧ order.idxOf i < order.idxOf j := by
    rintro i j ⟨hi, hij⟩ hj
    obtain ⟨before, rest, horder, hnot⟩ := List.eq_append_cons_of_mem hj
    obtain ⟨⟨-, -, hall⟩, -⟩ := h.first horder
    have hbefore : i ∈ before := hall i hi hij
    rw [horder, List.idxOf_append_of_mem hbefore, List.idxOf_append_of_notMem hnot]
    exact ⟨List.mem_append_left _ hbefore,
      Nat.lt_add_right _ (List.idxOf_lt_length_iff.2 hbefore)⟩
  induction hij with
  | single hij => exact hstep hij hj
  | @tail k j _ hkj ih =>
    obtain ⟨hk, hlt⟩ := hstep hkj hj
    obtain ⟨hi, hlt'⟩ := ih hk
    exact ⟨hi, Nat.lt_trans hlt' hlt⟩

/-- If each of finitely many positions has a predecessor among them, going back from any of them
leads into a circle. -/
theorem exists_circle {R : ℕ → ℕ → Prop} (p : ℕ → Prop) (hbelow : ∀ i, p i → i < size)
    (hback : ∀ i, p i → ∃ k, p k ∧ R k i) {j : ℕ} (hj : p j) :
    ∃ i, TransGen R i i ∧ ReflTransGen R i j := by
  by_contra hcircle
  -- without a circle, going back from `j` is well-founded
  let above (i k : {i : Fin size // ReflTransGen R i.1 j}) : Prop := TransGen R i.1.1 k.1.1
  have : IsTrans _ above := ⟨fun i k l hik hkl => TransGen.trans hik hkl⟩
  have : Std.Irrefl above := ⟨fun i hi => hcircle ⟨i.1.1, hi, i.2⟩⟩
  have hwf : WellFounded above := Finite.wellFounded_of_trans_of_irrefl above
  have hnone : ∀ i : {i : Fin size // ReflTransGen R i.1 j}, ¬ p i.1.1 := by
    intro i
    induction i using hwf.induction with
    | _ i ih =>
      intro hi
      obtain ⟨k, hk, hki⟩ := hback i.1.1 hi
      exact ih ⟨⟨k, hbelow k hk⟩, .head hki i.2⟩ (.single hki) hk
  exact hnone ⟨⟨j, hbelow j hj⟩, .refl⟩ hj

/-- Left out are exactly the positions that wait for each other in a circle, and those that wait for
such. -/
theorem mem_place_iff (key : ℕ → ℤ) (hbound : ∀ i, ∀ j ∈ followers i, j < size) {j : ℕ} :
    j ∈ place size key followers ↔ j < size ∧
      ¬ ∃ i, TransGen (Blocks size followers) i i ∧ ReflTransGen (Blocks size followers) i j := by
  have hselection := selection_place key hbound
  constructor
  · intro hj
    refine ⟨(hselection.nodup.2 j hj).1, ?_⟩
    rintro ⟨i, hcircle, hreach⟩
    have hi : i ∈ place size key followers := by
      rcases reflTransGen_iff_eq_or_transGen.1 hreach with rfl | hreach
      · exact hj
      · exact (hselection.idxOf_lt hreach hj).1
    exact Nat.lt_irrefl _ (hselection.idxOf_lt hcircle hi).2
  · rintro ⟨hj, hcircle⟩
    by_contra hnot
    -- a position left out is not ready, so it waits for another one left out
    refine hcircle (exists_circle (fun i => i < size ∧ i ∉ place size key followers)
      (fun i hi => hi.1) (fun i hi => ?_) ⟨hj, hnot⟩)
    by_contra hnone
    refine hselection.not_ready i ⟨hi.1, hi.2, fun k hk hki => ?_⟩
    by_contra hkn
    exact hnone ⟨k, ⟨hk, hkn⟩, hk, hki⟩

/-- When no positions wait for each other in a circle, all are placed. -/
theorem place_perm (key : ℕ → ℤ) (hbound : ∀ i, ∀ j ∈ followers i, j < size)
    (hwf : WellFounded fun i j => j ∈ followers i) :
    (place size key followers).Perm (List.range size) := by
  have hcircle : ∀ i, ¬ TransGen (Blocks size followers) i i := by
    intro i hi
    have hfollows : TransGen (fun i j => j ∈ followers i) i i :=
      hi.lift id fun _ _ h => h.2
    exact hwf.transGen.irrefl.irrefl i hfollows
  rw [List.perm_ext_iff_of_nodup (selection_place key hbound).nodup.1 List.nodup_range]
  intro j
  rw [mem_place_iff key hbound, List.mem_range]
  exact and_iff_left fun ⟨i, hi, _⟩ => hcircle i hi

end ClassCode.Placement
