import ClassCode.Codegen
import ClassCode.Proofs.Json.RoundTrip
import ClassCode.Proofs.Sorting
import ClassCode.Proofs.Text
import Mathlib.Data.Set.Finite.Lemmas
import Mathlib.Data.String.Basic
import Mathlib.Algebra.BigOperators.Group.List.Basic

/-!
# Sets in traces

The members of a set are shown in the order of their texts, so that a trace does not depend on how
the set happens to be arranged. That order says nothing about members with equal texts. If the
members are strings and constants, these are a constant and the string that spells it, and they are
shown alike unless the string is cut (`Value.Doubled`). Up to the first such pair all arrangements
of a set have one text; behind the place where the string is cut two of them differ
(`Value.toList_shown`). So the text of a set depends on the arrangement if that place can be
seen, and only then (`Value.abridged_arrangements`).
-/

namespace ClassCode

variable {σ α : Type}

namespace Value

/-! ## Strings and constants -/

/-- The values that a trace shows in full, however long they are. -/
inductive IsConstant : Value → Prop
  | none : IsConstant .none
  | bool (b : Bool) : IsConstant (.bool b)
  | int (n : Int) : IsConstant (.int n)

/-- Whether a value is a constant or a string. -/
def IsPlain (v : Value) : Prop := v.IsConstant ∨ ∃ s, v = .str s

/-- Numbers are shown as they are written in JSON. -/
theorem toList_text_int (n : Int) : (Value.int n).text.toList = Json.writeNumber n := by
  have htext : (Value.int n).text = n.repr := rfl
  rw [htext]
  cases n with
  | ofNat m => rw [Int.repr, Nat.repr_eq_ofList_toDigits, String.toList_ofList, Json.writeNumber]
  | negSucc m =>
    have hminus : "-".toList = ['-'] := rfl
    rw [Int.repr, Nat.repr_eq_ofList_toDigits, String.toList_append, hminus, String.toList_ofList,
      Json.writeNumber]
    rfl

theorem not_mem_writeNumber (n : Int) : '.' ∉ Json.writeNumber n := by
  have hdigits : ∀ m : ℕ, '.' ∉ Nat.toDigits 10 m := by
    intro m hm
    have hdigit : Char.isDigit '.' = true := Nat.isDigit_of_mem_toDigits (by decide) (by decide) hm
    cases hdigit
  cases n with
  | ofNat m => exact hdigits m
  | negSucc m => exact List.not_mem_cons_of_ne_of_not_mem (by decide) (hdigits (m + 1))

namespace IsConstant

variable {v u : Value}

theorem abridged_eq (h : v.IsConstant) (limit : Int) : v.abridged limit = v.text := by
  cases h <;> rw [abridged] <;> rfl

theorem text_ne_nil (h : v.IsConstant) : v.text.toList ≠ [] := by
  cases h with
  | none => decide
  | bool b => cases b <;> decide
  | int n =>
    obtain ⟨c, cs, hcons, -⟩ := Json.exists_writeNumber_eq_cons n
    rw [toList_text_int, hcons]
    exact List.cons_ne_nil c cs

theorem not_mem_text (h : v.IsConstant) : '.' ∉ v.text.toList := by
  cases h with
  | none => decide
  | bool b => cases b <;> decide
  | int n =>
    rw [toList_text_int]
    exact not_mem_writeNumber n

/-- Constants are told apart by their texts. -/
theorem text_inj (hv : v.IsConstant) (hu : u.IsConstant) (h : v.text = u.text) : v = u := by
  have hint : ∀ (n : Int) (s : String), (Value.int n).text = s →
      s.toList.head?.any (fun c => c.isDigit || c == '-') = true := by
    rintro n s rfl
    obtain ⟨c, cs, hcons, hc⟩ := Json.exists_writeNumber_eq_cons n
    simpa [toList_text_int, hcons] using hc
  cases hv with
  | int n =>
    cases hu with
    | int m =>
      have hwritten : Json.writeNumber n = Json.writeNumber m := by
        rw [← toList_text_int, h, toList_text_int]
      have hnil : Json.NoDigitNext [] := by simp [Json.NoDigitNext]
      have hread := fun n => Json.readNumber?_writeNumber n hnil
      have hsame := (hread n).symm.trans (hwritten ▸ hread m)
      rw [Option.some.injEq, Prod.mk.injEq] at hsame
      rw [hsame.1]
    | none => exact absurd (hint n _ h) (by decide)
    | bool b => exact absurd (hint n _ h) (by cases b <;> decide)
  | none =>
    cases hu with
    | int m => exact absurd (hint m _ h.symm) (by decide)
    | none => rfl
    | bool b => exact absurd h (by cases b <;> decide)
  | bool b =>
    cases hu with
    | int m => exact absurd (hint m _ h.symm) (by cases b <;> decide)
    | none => exact absurd h (by cases b <;> decide)
    | bool c => cases b <;> cases c <;> first | rfl | exact absurd h (by decide)

end IsConstant

/-! ## Members that are shown -/

/-- The members of a set with what they are sorted by and what is shown of them, which is cut to a
length. -/
def keyed (limit : Int) (items : List Value) : List (String × String) :=
  items.map fun v => (v.text, v.abridged limit)

/-- What is shown of the members of a set, in order. -/
def shown (limit : Int) (items : List Value) : List String :=
  abridge 5 (inKeyOrder (keyed limit items))

theorem zip_abridgedAll (limit : Int) (items : List Value) :
    (items.map text).zip (abridgedAll limit items) = keyed limit items := by
  induction items with
  | nil => rw [abridgedAll]; rfl
  | cons v items ih => rw [abridgedAll, List.map_cons, List.zip_cons_cons, ih]; rfl

theorem abridged_set (limit : Int) (items : List Value) :
    abridged limit (.set items) = Text.clip limit (bracketed (shown (limit / 4) items)) := by
  rw [abridged, zip_abridgedAll]
  rfl

theorem abridged_fixedSet (limit : Int) (items : List Value) :
    abridged limit (.fixedSet items) = Text.clip limit (bracketed (shown (limit / 4) items)) := by
  rw [abridged, zip_abridgedAll]
  rfl

/-- An item is among those that are shown if few enough come before it. -/
theorem abridge_append_cons {count : ℕ} {front : List String} (h : front.length < count)
    (item : String) (rest : List String) :
    ∃ rest', abridge count (front ++ item :: rest) = front ++ item :: rest' := by
  rw [abridge]
  split
  · exact ⟨rest, rfl⟩
  · obtain ⟨n, hn⟩ : ∃ n, count - front.length = n + 1 := ⟨count - front.length - 1, by omega⟩
    rw [List.take_append, List.take_of_length_le h.le, hn, List.take_succ_cons, List.append_assoc]
    exact ⟨_, rfl⟩

/-- Only the first items and the number of all matter. -/
theorem abridge_congr {count : ℕ} {items items' : List String}
    (hlength : items.length = items'.length) (htake : items.take count = items'.take count) :
    abridge count items = abridge count items' := by
  rw [abridge, abridge, htake, hlength]
  split
  · rwa [List.take_of_length_le (by omega), List.take_of_length_le (by omega)] at htake
  · rfl

/-- What stands before an item, if other items come before it. -/
def leading (front : List String) : List Char :=
  '[' :: front.flatMap fun item => item.toList ++ [',', ' ']

theorem length_leading (front : List String) :
    (leading front).length = 1 + (front.map fun item => item.length + 2).sum := by
  have hitem : ∀ item : String, (item.toList ++ [',', ' ']).length = item.length + 2 := by
    intro item
    rw [List.length_append, String.length_toList]
    rfl
  rw [leading, List.length_cons, List.length_flatMap, Nat.add_comm]
  simp only [hitem]

theorem toList_commaSeparated (front : List String) (item : String) (rest : List String) :
    ∃ tail, (commaSeparated (front ++ item :: rest)).toList =
      front.flatMap (fun item => item.toList ++ [',', ' ']) ++ item.toList ++ tail := by
  have hsep : ", ".toList = [',', ' '] := rfl
  unfold commaSeparated
  induction front with
  | nil =>
    cases rest with
    | nil => exact ⟨[], by simp⟩
    | cons item' rest =>
      rw [List.nil_append, String.intercalate_cons_cons, String.append_assoc, String.toList_append]
      exact ⟨_, rfl⟩
  | cons first front ih =>
    obtain ⟨tail, htail⟩ := ih
    obtain ⟨second, others, hcons⟩ : ∃ second others, front ++ item :: rest = second :: others :=
      List.exists_cons_of_ne_nil (by simp)
    rw [hcons] at htail
    rw [List.cons_append, hcons, String.intercalate_cons_cons, String.toList_append,
      String.toList_append, htail, hsep, List.flatMap_cons]
    exact ⟨tail, by simp only [List.append_assoc]⟩

theorem toList_bracketed (front : List String) (item : String) (rest : List String) :
    ∃ tail, (bracketed (front ++ item :: rest)).toList = leading front ++ item.toList ++ tail := by
  have hopen : "[".toList = ['['] := rfl
  obtain ⟨tail, htail⟩ := toList_commaSeparated front item rest
  rw [bracketed, String.toList_append, String.toList_append, htail, hopen, leading]
  exact ⟨tail ++ "]".toList, by simp only [List.cons_append, List.nil_append, List.append_assoc]⟩

/-! ## Order -/

/-- The members of a set whose texts are smaller than a text. -/
def earlier (items : List Value) (key : String) : List Value :=
  items.filter fun u => u.text < key

/-- What is shown of the members whose texts are smaller than a text, in order. -/
def front (limit : Int) (items : List Value) (key : String) : List String :=
  ((Sorting.sort (fun a b => a.1 ≤ b.1) (keyed limit items)).filter (·.1 < key)).map (·.2)

theorem before_iff (a b : String × String) : decide (a.1 ≤ b.1) = true ↔ Prod.fst a ≤ Prod.fst b :=
  decide_eq_true_iff

theorem front_perm (limit : Int) (items : List Value) (key : String) :
    (front limit items key).Perm ((earlier items key).map (abridged limit)) := by
  have hfilter : (keyed limit items).filter (·.1 < key) = keyed limit (earlier items key) := by
    rw [keyed, List.filter_map]
    rfl
  have hperm := ((Sorting.sort_perm (fun a b => a.1 ≤ b.1) (keyed limit items)).filter
    (·.1 < key)).map (·.2)
  have hmap : (keyed limit (earlier items key)).map (·.2) =
      (earlier items key).map (abridged limit) := List.map_map
  rwa [hfilter, hmap] at hperm

theorem length_inKeyOrder (limit : Int) (items : List Value) :
    (inKeyOrder (keyed limit items)).length = items.length := by
  rw [inKeyOrder, List.length_map, (Sorting.sort_perm _ _).length_eq, keyed, List.length_map]

/-- A member that arrives first is shown behind those with smaller texts. -/
theorem inKeyOrder_cons (limit : Int) (v : Value) (items : List Value) :
    ∃ rest, inKeyOrder (keyed limit (v :: items)) =
      front limit items v.text ++ v.abridged limit :: rest := by
  have hsort := Sorting.insert_eq_filter before_iff
    (Sorting.pairwise_sort_key before_iff (keyed limit items)) (v.text, v.abridged limit)
  have hkeyed : keyed limit (v :: items) = (v.text, v.abridged limit) :: keyed limit items := rfl
  rw [inKeyOrder, hkeyed, Sorting.sort, List.foldr_cons, ← Sorting.sort, hsort, List.map_append,
    List.map_cons]
  exact ⟨_, rfl⟩

/-! ## Constants and the strings that spell them -/

/-- Whether a member of a set is a constant that a string in the set spells, and the string is cut
to a length. -/
structure Doubled (limit : Int) (items : List Value) (v : Value) : Prop where
  constant : v.IsConstant
  mem : v ∈ items
  mem_str : .str v.text ∈ items
  cut : Text.clip limit v.text ≠ v.text

/-- Whether a member of a set has the smallest text of all that are doubled. -/
structure FirstDoubled (limit : Int) (items : List Value) (v : Value) : Prop extends
    Doubled limit items v where
  first : ∀ u, Doubled limit items u → v.text ≤ u.text

theorem Doubled.exists_first {limit : Int} {items : List Value} {v : Value}
    (h : Doubled limit items v) : ∃ u, FirstDoubled limit items u := by
  obtain ⟨u, hu, hfirst⟩ := Set.exists_min_image {v | Doubled limit items v} text
    ((List.finite_toSet items).subset fun _ hv => hv.mem) ⟨v, h⟩
  exact ⟨u, hu, hfirst⟩

/-- The place in the text of a set at which a string that is cut differs from the constant that it
spells: behind an opening bracket, the members that come before both and what is left of the
string. -/
def divergence (limit : Int) (items : List Value) (v : Value) : ℕ :=
  1 + ((earlier items v.text).map fun u => (u.abridged limit).length + 2).sum +
    (Text.initial limit v.text.toList).length

section

variable {limit : Int} {items items' : List Value} {v : Value}

theorem keyed_perm (limit : Int) (hperm : items'.Perm items) :
    (keyed limit items').Perm (keyed limit items) :=
  hperm.map _

/-- Members with equal texts are shown alike, unless one of them is doubled. -/
theorem eq_of_mem_keyed (hplain : ∀ u ∈ items, u.IsPlain) {p q : String × String}
    (hp : p ∈ keyed limit items) (hq : q ∈ keyed limit items) (hkey : p.1 = q.1)
    (hnone : ∀ v, Doubled limit items v → v.text ≠ p.1) : p = q := by
  -- a constant and a string with its text are shown alike
  have hmixed : ∀ {u : Value} {s : String}, u ∈ items → .str s ∈ items → u.IsConstant →
      u.text = s → u.text = p.1 → u.abridged limit = Value.abridged limit (.str s) := by
    rintro u _ hu hs hconstant rfl hp
    rw [hconstant.abridged_eq, abridged]
    by_contra hcut
    exact hnone u ⟨hconstant, hu, hs, Ne.symm hcut⟩ hp
  obtain ⟨u, hu, rfl⟩ := List.mem_map.1 hp
  obtain ⟨w, hw, rfl⟩ := List.mem_map.1 hq
  refine Prod.ext hkey ?_
  rcases hplain u hu with hconst | ⟨s, rfl⟩ <;> rcases hplain w hw with hconst' | ⟨t, rfl⟩
  · rw [hconst.text_inj hconst' hkey]
  · exact hmixed hu hw hconst hkey rfl
  · exact (hmixed hw hu hconst' hkey.symm hkey.symm).symm
  · have heq : s = t := hkey
    rw [heq]

/-- Arrangements of a set show the same in front of the first doubled member. -/
theorem FirstDoubled.front_of_perm (hv : FirstDoubled limit items v)
    (hplain : ∀ u ∈ items, u.IsPlain) (hperm : items'.Perm items) :
    front limit items' v.text = front limit items v.text := by
  have hsorted := Sorting.filter_sort_of_perm before_iff (keyed_perm limit hperm)
    (P := fun p => decide (p.1 < v.text)) fun p hp q hq hlt _ hkey =>
      eq_of_mem_keyed hplain hp hq hkey fun u hu heq => by
        rw [decide_eq_true_iff, ← heq] at hlt
        exact absurd hlt (not_lt.2 (hv.first u hu))
  exact congrArg (List.map (·.2)) hsorted

/-- Arrangements of a set without doubled members show the same. -/
theorem inKeyOrder_of_perm (hplain : ∀ u ∈ items, u.IsPlain) (hperm : items'.Perm items)
    (hnone : ∀ v, ¬ Doubled limit items v) :
    inKeyOrder (keyed limit items') = inKeyOrder (keyed limit items) := by
  have hsorted := Sorting.filter_sort_of_perm before_iff (keyed_perm limit hperm)
    (P := fun _ => true) fun p hp q hq _ _ hkey =>
      eq_of_mem_keyed hplain hp hq hkey fun v hv => absurd hv (hnone v)
  rw [List.filter_true, List.filter_true] at hsorted
  exact congrArg (List.map (·.2)) hsorted

/-- Every arrangement of a set shows the first doubled member or its string behind the members with
smaller texts. -/
theorem FirstDoubled.exists_inKeyOrder_eq (hv : FirstDoubled limit items v)
    (hplain : ∀ u ∈ items, u.IsPlain) (hperm : items'.Perm items) :
    ∃ item rest, (item = v.text ∨ item = Text.clip limit v.text) ∧
      inKeyOrder (keyed limit items') = front limit items v.text ++ item :: rest := by
  have hmem : (v.text, v.abridged limit) ∈
      Sorting.sort (fun a b => a.1 ≤ b.1) (keyed limit items') :=
    (Sorting.sort_perm _ _).mem_iff.2 (List.mem_map_of_mem (hperm.mem_iff.2 hv.mem))
  obtain ⟨p, ps, hp, hkey, hsplit⟩ := Sorting.exists_eq_filter_append_cons Prod.fst
    (Sorting.pairwise_sort_key before_iff (keyed limit items')) hmem
  refine ⟨p.2, ps.map (·.2), ?_, ?_⟩
  · obtain ⟨u, hu, rfl⟩ := List.mem_map.1 ((Sorting.sort_perm _ _).mem_iff.1 hp)
    rcases hplain u (hperm.mem_iff.1 hu) with hconst | ⟨s, rfl⟩
    · exact .inl ((hconst.abridged_eq limit).trans hkey)
    · have hs : s = v.text := hkey
      rw [hs, abridged]
      exact .inr rfl
  · rw [inKeyOrder, hsplit, List.map_append, List.map_cons, ← hv.front_of_perm hplain hperm]
    rfl

/-- A set shows a doubled member or its string, whichever comes first, from the place on at which
they differ. -/
theorem toList_shown (hv : Doubled limit items v) {front rest : List String} {item : String}
    (hitem : item = v.text ∨ item = Text.clip limit v.text)
    (horder : inKeyOrder (keyed limit items') = front ++ item :: rest) (hfew : front.length < 5) :
    ∃ c tail, (bracketed (shown limit items')).toList =
        leading front ++ Text.initial limit v.text.toList ++ c :: tail ∧
      (c = '.' ↔ item ≠ v.text) := by
  obtain ⟨rest', hrest'⟩ := abridge_append_cons hfew item rest
  obtain ⟨tail, htail⟩ := toList_bracketed front item rest'
  have hlt := Text.lt_length_of_clip_ne hv.cut
  rw [shown, horder, hrest', htail]
  rcases hitem with rfl | rfl
  · obtain ⟨c, cs, hcons⟩ := Text.exists_initial_append hlt hv.constant.text_ne_nil
    refine ⟨c, cs ++ tail, ?_, ?_⟩
    · rw [List.append_assoc, List.append_assoc, ← List.cons_append, ← List.append_assoc _ (c :: cs),
        ← hcons]
    · have hc : c ≠ '.' := by
        rintro rfl
        exact hv.constant.not_mem_text (hcons ▸ List.mem_append_right _ List.mem_cons_self)
      simp [hc]
  · refine ⟨'.', '.' :: '.' :: tail, ?_, by simpa using hv.cut⟩
    rw [Text.toList_clip hlt]
    simp only [List.append_assoc, List.cons_append, List.nil_append]

theorem length_leading_of_perm {front : List String}
    (h : front.Perm ((earlier items v.text).map (abridged limit))) :
    (leading front ++ Text.initial limit v.text.toList).length = divergence limit items v := by
  rw [List.length_append, length_leading, (h.map _).sum_eq, List.map_map, divergence]
  rfl

/-- Any member can be made to come first of those with its text. -/
theorem exists_arrangement (limit : Int) {u : Value} (hu : u ∈ items) :
    ∃ items' front rest, items'.Perm items ∧
      inKeyOrder (keyed limit items') = front ++ u.abridged limit :: rest ∧
      front.Perm ((earlier items u.text).map (abridged limit)) := by
  obtain ⟨before, after, rfl⟩ := List.append_of_mem hu
  have hperm : (u :: (before ++ after)).Perm (before ++ u :: after) := List.perm_middle.symm
  obtain ⟨rest, hrest⟩ := inKeyOrder_cons limit u (before ++ after)
  have hearlier : earlier (u :: (before ++ after)) u.text = earlier (before ++ after) u.text :=
    List.filter_cons_of_neg (by simp)
  have hsame : (earlier (before ++ after) u.text).Perm (earlier (before ++ u :: after) u.text) :=
    hearlier ▸ hperm.filter _
  exact ⟨_, _, rest, hperm, hrest, (front_perm limit _ u.text).trans (hsame.map _)⟩

end

/-! ## Arrangements of a set -/

/-- Whether a set does not show which of its members are doubled: five members with smaller texts
come before them, or the text of the set is cut before the place at which they differ from their
strings. With a negative length, how much is cut depends on all of the text. -/
def Steady (limit : Int) (items : List Value) : Prop :=
  ∀ v, Doubled (limit / 4) items v → (earlier items v.text).length < 5 →
    0 ≤ limit ∧ limit ≤ divergence (limit / 4) items v

section

variable {limit : Int} {items items' : List Value} {v : Value}

/-- Arrangements of a set show the same if five members come before the first doubled one. -/
theorem FirstDoubled.shown_of_perm (hv : FirstDoubled limit items v)
    (hplain : ∀ u ∈ items, u.IsPlain) (hperm : items'.Perm items)
    (hmany : 5 ≤ (earlier items v.text).length) : shown limit items' = shown limit items := by
  have hlength : 5 ≤ (front limit items v.text).length := by
    rwa [(front_perm limit items v.text).length_eq, List.length_map]
  obtain ⟨item, rest, -, horder⟩ := hv.exists_inKeyOrder_eq hplain (.refl items)
  obtain ⟨item', rest', -, horder'⟩ := hv.exists_inKeyOrder_eq hplain hperm
  refine abridge_congr ?_ ?_
  · rw [length_inKeyOrder, length_inKeyOrder, hperm.length_eq]
  · rw [horder, horder', List.take_append_of_le_length hlength,
      List.take_append_of_le_length hlength]

/-- Arrangements of a set have the same text if the first doubled member is shown, but the text is
cut before it can be told from its string. -/
theorem FirstDoubled.clip_shown_of_perm (hv : FirstDoubled (limit / 4) items v)
    (hplain : ∀ u ∈ items, u.IsPlain) (hperm : items'.Perm items)
    (hfew : (earlier items v.text).length < 5) (h0 : 0 ≤ limit)
    (hdivergence : limit ≤ divergence (limit / 4) items v) :
    Text.clip limit (bracketed (shown (limit / 4) items')) =
      Text.clip limit (bracketed (shown (limit / 4) items)) := by
  have hfront := front_perm (limit / 4) items v.text
  have hlength : (front (limit / 4) items v.text).length < 5 := by
    rwa [hfront.length_eq, List.length_map]
  obtain ⟨item, rest, hitem, horder⟩ := hv.exists_inKeyOrder_eq hplain (.refl items)
  obtain ⟨item', rest', hitem', horder'⟩ := hv.exists_inKeyOrder_eq hplain hperm
  obtain ⟨c, tail, htail, -⟩ := toList_shown hv.toDoubled hitem horder hlength
  obtain ⟨c', tail', htail', -⟩ := toList_shown hv.toDoubled hitem' horder' hlength
  rw [← length_leading_of_perm hfront] at hdivergence
  exact Text.clip_congr h0 htail' htail hdivergence

theorem Steady.clip_shown (hsteady : Steady limit items) (hplain : ∀ v ∈ items, v.IsPlain)
    (hperm : items'.Perm items) :
    Text.clip limit (bracketed (shown (limit / 4) items')) =
      Text.clip limit (bracketed (shown (limit / 4) items)) := by
  by_cases hdoubled : ∃ v, Doubled (limit / 4) items v
  · obtain ⟨u, hu⟩ := hdoubled
    obtain ⟨v, hv⟩ := hu.exists_first
    rcases lt_or_ge (earlier items v.text).length 5 with hfew | hmany
    · obtain ⟨h0, hdivergence⟩ := hsteady v hv.toDoubled hfew
      exact hv.clip_shown_of_perm hplain hperm hfew h0 hdivergence
    · rw [hv.shown_of_perm hplain hperm hmany]
  · rw [shown, shown, inKeyOrder_of_perm hplain hperm (not_exists.1 hdoubled)]

/-- If a set is not steady, two arrangements of it can be told apart: one with a doubled member in
front of its string, and one with the string in front. -/
theorem exists_clip_shown_ne (h0 : 0 ≤ limit) (h : ¬ Steady limit items) :
    ∃ items', items'.Perm items ∧
      Text.clip limit (bracketed (shown (limit / 4) items')) ≠
        Text.clip limit (bracketed (shown (limit / 4) items)) := by
  unfold Steady at h
  push Not at h
  obtain ⟨v, hv, hfew, hdivergence⟩ := h
  obtain ⟨items₁, front₁, rest₁, hperm₁, horder₁, hfront₁⟩ :=
    exists_arrangement (limit / 4) hv.mem
  obtain ⟨items₂, front₂, rest₂, hperm₂, horder₂, hfront₂⟩ :=
    exists_arrangement (limit / 4) hv.mem_str
  rw [hv.constant.abridged_eq] at horder₁
  rw [abridged] at horder₂
  obtain ⟨c, tail₁, htail₁, hc⟩ := toList_shown hv (.inl rfl) horder₁
    (by rwa [hfront₁.length_eq, List.length_map])
  obtain ⟨d, tail₂, htail₂, hd⟩ := toList_shown hv (.inr rfl) horder₂
    (by rwa [hfront₂.length_eq, List.length_map])
  have hlength₁ := length_leading_of_perm hfront₁
  have hlength₂ := length_leading_of_perm hfront₂
  have hcd : c ≠ d := by
    rw [hd.2 hv.cut]
    exact fun hc' => hc.1 hc' rfl
  have hne := Text.clip_ne_clip htail₁ htail₂ (hlength₁.trans hlength₂.symm) hcd
    (hlength₁ ▸ hdivergence h0)
  by_contra hall
  push Not at hall
  exact hne ((hall items₁ hperm₁).trans (hall items₂ hperm₂).symm)

end

/-- The text of a set of strings and constants in a trace, and with it what is recorded when an
operation is called with the set, does not depend on the arrangement of the set, if it is steady. If
it is not, and the length to which the text is cut is not negative, the text depends on the
arrangement. -/
theorem abridged_arrangements {make : List Value → Value} (hmake : make = .set ∨ make = .fixedSet)
    {items : List Value} (hplain : ∀ v ∈ items, v.IsPlain) (limit : Int) :
    (Steady limit items → ∀ items', items'.Perm items →
      (make items').abridged limit = (make items).abridged limit ∧
      ∀ operation name before after (resultValue : α → Value) (body : Codegen σ α),
        traced operation (tracedArguments limit (before ++ (name, make items') :: after))
            resultValue body =
          traced operation (tracedArguments limit (before ++ (name, make items) :: after))
            resultValue body) ∧
    (0 ≤ limit → ¬ Steady limit items → ∃ items', items'.Perm items ∧
      (make items').abridged limit ≠ (make items).abridged limit) := by
  have htext : ∀ items, (make items).abridged limit =
      Text.clip limit (bracketed (shown (limit / 4) items)) := by
    rcases hmake with rfl | rfl
    · exact abridged_set limit
    · exact abridged_fixedSet limit
  refine ⟨fun hsteady items' hperm => ?_, fun h0 h => ?_⟩
  · have heq : (make items').abridged limit = (make items).abridged limit := by
      rw [htext, htext, hsteady.clip_shown hplain hperm]
    refine ⟨heq, fun operation name before after resultValue body => ?_⟩
    simp only [tracedArguments, List.map_append, List.map_cons, heq]
  · obtain ⟨items', hperm, hne⟩ := exists_clip_shown_ne h0 h
    exact ⟨items', hperm, by rwa [htext, htext]⟩

/-- A number of seven digits and the string that spells it. -/
def million : List Value := [.int 1000000, .str "1000000"]

theorem isPlain_million : ∀ v ∈ million, v.IsPlain := by
  intro v hv
  simp only [million, List.mem_cons, List.not_mem_nil, or_false] at hv
  rcases hv with rfl | rfl
  · exact .inl (.int _)
  · exact .inr ⟨_, rfl⟩

/-- A string of seven characters is not cut to a quarter of the standard length, so the set looks
the same either way round; to a quarter of twenty it is, which can be seen. -/
theorem abridged_arrangements_million :
    (∀ v ∈ million, v.IsPlain) ∧ Steady 200 million ∧ ¬ Steady 20 million ∧
    (Value.set million.reverse).abridged 200 = (Value.set million).abridged 200 ∧
    (Value.set million).abridged 200 = "[1000000, 1000000]" ∧
    ∃ items, items.Perm million ∧
      (Value.set items).abridged 20 ≠ (Value.set million).abridged 20 := by
  have hsteady : Steady 200 million := by
    intro v hv
    have hcut : ∀ u ∈ million, Text.clip (200 / 4) u.text = u.text := by decide
    exact absurd (hcut v hv.mem) hv.cut
  have hdoubled : Doubled (20 / 4) million (.int 1000000) :=
    ⟨.int _, .head _, .tail _ (.head _), by decide⟩
  have hunsteady : ¬ Steady 20 million := by
    intro h
    exact absurd (h _ hdoubled (by decide)).2 (by decide)
  obtain ⟨hsame, -⟩ := abridged_arrangements (σ := Unit) (α := Unit) (.inl rfl) isPlain_million 200
  obtain ⟨-, hdiffer⟩ := abridged_arrangements (σ := Unit) (α := Unit) (.inl rfl) isPlain_million 20
  exact ⟨isPlain_million, hsteady, hunsteady, (hsame hsteady _ (List.reverse_perm million)).1, rfl,
    hdiffer (by decide) hunsteady⟩

/-- A string of seven characters is cut to a quarter of twenty characters, but the number that it
spells is not, so whichever arrives first can be told from the text of the set. -/
theorem abridged_million_reverse :
    million.reverse.Perm million ∧ (∀ v ∈ million, v.IsPlain) ∧
    (Value.set million).abridged 20 = "[1000000, 10000...]" ∧
    (Value.set million.reverse).abridged 20 = "[10000..., 1000000]" :=
  ⟨List.reverse_perm million, isPlain_million, rfl, rfl⟩

end Value

end ClassCode
