import ClassCode.Text
import Mathlib.Data.Int.Basic
import Mathlib.Data.List.Basic
import Mathlib.Tactic.IntervalCases

/-!
# Reading texts back

Both alphabets write hexadecimal digits that `hexValue?` reads, so a number below `16 ^ width` is
read back from its `width` digits (`hexNumber?_hex`).

A text is divided into lines at its line breaks. Joining texts by line breaks can be undone by that
(`lines_intercalate`), if each of the texts is on one line.

A text that is longer than the limit loses at least one character when it is clipped
(`exists_initial_append`). Texts that differ somewhere look alike when they are clipped in front of
that place (`clip_congr`), and differ when they are clipped behind it (`clip_ne_clip`).
-/

namespace ClassCode.Text

/-! ## Hexadecimal digits -/

/-- A digit of either alphabet has the value it was written for. -/
theorem hexValue?_hexDigit (case : HexCase) {n : ℕ} (hn : n < 16) :
    hexValue? (hexDigit case n) = some n := by
  cases case <;> interval_cases n <;> rfl

/-- A fixed count of digits is read back as the number that they were written for, if that many
digits can hold it. -/
theorem hexNumber?_hex (case : HexCase) (width : ℕ) {n : ℕ} (hn : n < 16 ^ width) :
    hexNumber? (hex case width n) = some n := by
  induction width generalizing n with
  | zero =>
    have h0 : n = 0 := by omega
    subst h0
    rfl
  | succ width ih =>
    have hq : n / 16 < 16 ^ width := by
      rw [pow_succ] at hn
      omega
    have hr : n % 16 < 16 := Nat.mod_lt _ (by omega)
    have hhead : (hex case width (n / 16)).foldlM
        (fun n c => (hexValue? c).map (n * 16 + ·)) 0 = some (n / 16) := ih hq
    rw [hexNumber?, hex, List.foldlM_append, hhead]
    simp only [Option.bind_eq_bind, Option.bind_some, List.foldlM_cons, List.foldlM_nil,
      hexValue?_hexDigit case hr, Option.map_some]
    exact congrArg some (by omega)

/-! ## Lines -/

/-- The lines of a text, without the line breaks between them. -/
def lines (s : String) : List String := (s.toList.splitOn '\n').map String.ofList

/-- Whether a text has no line break. -/
def OneLine (s : String) : Prop := '\n' ∉ s.toList

instance (s : String) : Decidable (OneLine s) := inferInstanceAs (Decidable (_ ∉ _))

/-- A row of blanks. -/
def blanks (count : ℕ) : String := String.ofList (List.replicate count ' ')

theorem OneLine.append {s t : String} (hs : OneLine s) (ht : OneLine t) : OneLine (s ++ t) := by
  unfold OneLine at *
  simp [hs, ht]

theorem oneLine_blanks (count : ℕ) : OneLine (blanks count) := by
  unfold OneLine blanks
  simp

theorem OneLine.intercalate {sep : String} (hsep : OneLine sep) {ss : List String}
    (hss : ∀ s ∈ ss, OneLine s) : OneLine (sep.intercalate ss) := by
  induction ss with
  | nil => exact List.not_mem_nil
  | cons s ss ih =>
    obtain ⟨hs, hss⟩ := List.forall_mem_cons.1 hss
    cases ss with
    | nil => rwa [String.intercalate_singleton]
    | cons t ss =>
      rw [String.intercalate_cons_cons]
      exact (hs.append hsep).append (ih hss)

/-- Texts that are joined by line breaks are the lines of the joint text, if none of them has a line
break of its own. -/
theorem lines_intercalate {ls : List String} (h : ∀ l ∈ ls, OneLine l) (hne : ls ≠ []) :
    lines ("\n".intercalate ls) = ls := by
  have hbreaks : ∀ cs ∈ ls.map String.toList, '\n' ∉ cs := by
    rintro cs hcs
    obtain ⟨l, hl, rfl⟩ := List.mem_map.1 hcs
    exact h l hl
  have hsep : "\n".toList = ['\n'] := rfl
  rw [lines, String.toList_intercalate, hsep,
    List.splitOn_intercalate '\n' hbreaks (by simpa using hne), List.map_map]
  exact List.map_id'' (fun _ => String.ofList_toList) ls

/-! ## Clipped texts -/

variable {limit : Int} {s t : String}

theorem lt_length_of_clip_ne (h : clip limit s ≠ s) : limit < s.length := by
  by_contra hle
  exact h (if_neg hle)

theorem toList_clip (h : limit < s.length) :
    (clip limit s).toList = initial limit s.toList ++ ['.', '.', '.'] := by
  rw [clip, if_pos h, String.toList_append, String.toList_ofList]
  rfl

/-- At least one character is missing from a text that is clipped. -/
theorem exists_initial_append (h : limit < s.length) (hs : s.toList ≠ []) :
    ∃ c rest, s.toList = initial limit s.toList ++ c :: rest := by
  have hpos := List.length_pos_of_ne_nil hs
  rw [← String.length_toList] at h
  obtain ⟨count, hcount, hinitial⟩ :
      ∃ count, count < s.toList.length ∧ initial limit s.toList = s.toList.take count := by
    rw [initial]
    split
    · exact ⟨limit.toNat, by omega, rfl⟩
    · exact ⟨s.toList.length - limit.natAbs, by omega, rfl⟩
  refine ⟨s.toList[count], s.toList.drop (count + 1), ?_⟩
  rw [hinitial, List.getElem_cons_drop, List.take_append_drop]

/-- Texts are clipped to the same text if they begin alike up to the limit. -/
theorem clip_congr (h0 : 0 ≤ limit) {front x y : List Char} {c d : Char}
    (hs : s.toList = front ++ c :: x) (ht : t.toList = front ++ d :: y)
    (hfront : limit ≤ front.length) : clip limit s = clip limit t := by
  have hcut : ∀ {u : String} {e : Char} {z : List Char}, u.toList = front ++ e :: z →
      (clip limit u).toList = front.take limit.toNat ++ ['.', '.', '.'] := by
    intro u e z hu
    have hlt : limit < u.length := by
      rw [← String.length_toList, hu, List.length_append, List.length_cons]
      omega
    rw [toList_clip hlt, initial, if_pos h0, hu, List.take_append_of_le_length (by omega)]
  exact String.toList_injective ((hcut hs).trans (hcut ht).symm)

/-- What stands in front of the limit is not clipped. -/
theorem getElem?_toList_clip {i : ℕ} (hi : i < limit) {c : Char} (hc : s.toList[i]? = some c) :
    (clip limit s).toList[i]? = some c := by
  by_cases hlt : limit < s.length
  · have hinitial : (initial limit s.toList)[i]? = some c := by
      rw [initial, if_pos (by omega), List.getElem?_take_of_lt (by omega), hc]
    rw [toList_clip hlt, List.getElem?_append_left (List.getElem?_eq_some_iff.1 hinitial).1,
      hinitial]
  · rwa [clip, if_neg hlt]

/-- Texts that differ in front of the limit are clipped to different texts. -/
theorem clip_ne_clip {front front' x y : List Char} {c d : Char}
    (hs : s.toList = front ++ c :: x) (ht : t.toList = front' ++ d :: y)
    (hlength : front.length = front'.length) (hcd : c ≠ d) (hfront : front.length < limit) :
    clip limit s ≠ clip limit t := by
  intro heq
  have hc : (clip limit s).toList[front.length]? = some c :=
    getElem?_toList_clip hfront (by simp [hs])
  have hd : (clip limit t).toList[front.length]? = some d :=
    getElem?_toList_clip hfront (by simp [ht, hlength])
  rw [heq, hd] at hc
  exact hcd (Option.some.inj hc).symm

end ClassCode.Text
