import ClassCode.Json.Reader
import ClassCode.Proofs.Text
import Mathlib.Data.List.Basic

/-!
# Reading back JSON documents

A written document is read back as the value that it was written for (`read?_written`), and it is
written in ASCII (`isAscii_write`).

## Shape of the proof

Every part of a document is read back in front of whatever follows it, so the proof goes through a
value from left to right. Three facts hold it together: what is written for a value does not start
with a blank, so nothing of it is skipped between tokens; what follows a number in a document is no
digit (`NoDigitNext`); and every level of nesting takes up characters, so that the length of the
text is enough fuel.
-/

namespace ClassCode.Json

/-! ## Characters -/

/-- The letter of an escape sequence is read as the character that it was written for, and it does
not announce a number. -/
theorem unletter?_of_letter? {c l : Char} (h : letter? c = some l) :
    unletter? l = some c ∧ l ≠ 'u' := by
  fun_cases letter? c <;> simp only [letter?, Option.some.injEq, reduceCtorEq] at h <;>
    subst h <;> exact ⟨rfl, by decide⟩

/-- The code of a character is read as that character. -/
theorem charOf?_toNat (c : Char) : charOf? c.toNat = some c := by
  have hvalid : c.toNat.isValidChar := c.valid
  rw [charOf?, if_pos hvalid, Char.ofNat_toNat]

theorem toNat_lt (c : Char) : c.toNat < 0x110000 := by
  have hvalid : c.toNat.isValidChar := c.valid
  rw [Nat.isValidChar] at hvalid
  omega

/-- The first unit of a character above U+FFFF is not a character itself. -/
theorem charOf?_high {n : ℕ} (hlt : n < 0x110000) :
    charOf? (0xd800 + (n - 0x10000) / 0x400) = none := by
  rw [charOf?, if_neg]
  rw [Nat.isValidChar]
  omega

/-- The units of a character above U+FFFF stand for its code. -/
theorem joinPair?_units {n : ℕ} (hn : 0x10000 ≤ n) (hlt : n < 0x110000) :
    joinPair? (0xd800 + (n - 0x10000) / 0x400) (0xdc00 + (n - 0x10000) % 0x400) = some n := by
  rw [joinPair?, if_pos (by omega), Option.some.injEq]
  omega

/-- Four hexadecimal digits are read as the number that they were written for. -/
theorem exists_hex_four {n : ℕ} (hn : n < 0x10000) :
    ∃ a b c d, Text.hex .lower 4 n = [a, b, c, d] ∧ Text.hexNumber? [a, b, c, d] = some n :=
  ⟨_, _, _, _, rfl, Text.hexNumber?_hex .lower 4 hn⟩

/-- A unit that is the code of a character is read as that character. -/
theorem readChar?_unit {unit : ℕ} {c : Char} (hunit : unit < 0x10000) (hc : charOf? unit = some c)
    (rest : List Char) :
    readChar? ('\\' :: 'u' :: Text.hex .lower 4 unit ++ rest) = some (c, rest) := by
  obtain ⟨a, b, c', d, hhex, hnumber⟩ := exists_hex_four hunit
  simp [readChar?, hhex, hnumber, hc]

/-- Two units that only together stand for the code of a character are read as that character. -/
theorem readChar?_pair {high low code : ℕ} {c : Char} (hhigh : high < 0x10000)
    (hlow : low < 0x10000) (hnone : charOf? high = none) (hpair : joinPair? high low = some code)
    (hc : charOf? code = some c) (rest : List Char) :
    readChar? ('\\' :: 'u' :: Text.hex .lower 4 high ++
      '\\' :: 'u' :: Text.hex .lower 4 low ++ rest) = some (c, rest) := by
  obtain ⟨a, b, c', d, hhex, hnumber⟩ := exists_hex_four hhigh
  obtain ⟨e, f, g, h, hhex', hnumber'⟩ := exists_hex_four hlow
  simp [readChar?, hhex, hhex', hnumber, hnumber', hnone, hpair, hc]

/-- A character is read as a whole, whether it stands for itself or is escaped. -/
theorem readChar?_writeChar (c : Char) (rest : List Char) :
    readChar? (writeChar c ++ rest) = some (c, rest) := by
  rw [writeChar]
  split
  case h_1 l hl =>
    obtain ⟨hread, hu⟩ := unletter?_of_letter? hl
    simp [readChar?, hu, hread]
  case h_2 hl =>
    split
    case isTrue hplain =>
      have hb : c ≠ '\\' := by
        rintro rfl
        simp [letter?] at hl
      simp [readChar?, hb, hplain.1]
    case isFalse hplain =>
      rw [units]
      split
      case isTrue hlt =>
        rw [List.flatMap_singleton]
        exact readChar?_unit hlt (charOf?_toNat c) rest
      case isFalse hlt =>
        have hbound := toNat_lt c
        rw [List.flatMap_cons, List.flatMap_singleton]
        exact readChar?_pair (by omega) (by omega) (charOf?_high hbound)
          (joinPair?_units (Nat.le_of_not_lt hlt) hbound) (charOf?_toNat c) rest

/-- No character is written as something that starts with a quote. -/
theorem exists_writeChar_eq_cons (c : Char) : ∃ d ds, writeChar c = d :: ds ∧ d ≠ '"' := by
  rw [writeChar]
  split
  case h_1 l hl => exact ⟨'\\', [l], rfl, by decide⟩
  case h_2 hl =>
    split
    case isTrue =>
      refine ⟨c, [], rfl, ?_⟩
      rintro rfl
      simp [letter?] at hl
    case isFalse =>
      rw [units]
      split
      · exact ⟨'\\', _, rfl, by decide⟩
      · exact ⟨'\\', _, rfl, by decide⟩

/-! ## Strings -/

/-- What is written for the characters of a text is read as that text, up to the closing quote. -/
theorem readText?_flatMap (s rest : List Char) {fuel : ℕ} (hfuel : s.length < fuel) :
    readText? fuel (s.flatMap writeChar ++ '"' :: rest) = some (s, rest) := by
  induction s generalizing fuel with
  | nil =>
    obtain ⟨fuel, rfl⟩ := Nat.exists_eq_add_one_of_ne_zero (Nat.ne_of_gt hfuel)
    rfl
  | cons c s ih =>
    obtain ⟨fuel, rfl⟩ := Nat.exists_eq_add_one_of_ne_zero (Nat.ne_zero_of_lt hfuel)
    obtain ⟨d, ds, hc, hquote⟩ := exists_writeChar_eq_cons c
    have hread := readChar?_writeChar c (s.flatMap writeChar ++ '"' :: rest)
    rw [List.flatMap_cons, List.append_assoc]
    rw [hc, List.cons_append] at hread ⊢
    simp [readText?, hquote, hread, ih (Nat.lt_of_succ_lt_succ hfuel)]

theorem length_le_length_flatMap (s : List Char) : s.length ≤ (s.flatMap writeChar).length := by
  induction s with
  | nil => simp
  | cons c s ih =>
    obtain ⟨d, ds, hc, -⟩ := exists_writeChar_eq_cons c
    rw [List.flatMap_cons, hc, List.length_append, List.length_cons, List.length_cons]
    omega

theorem exists_writeString_eq_cons (s : String) : ∃ body, writeString s = '"' :: body :=
  ⟨_, rfl⟩

/-- A string is read back as its text. -/
theorem readString?_writeString (s : String) (rest : List Char) :
    readString? (writeString s ++ rest) = some (s, rest) := by
  have hlength := length_le_length_flatMap s.toList
  rw [writeString, List.append_assoc, List.singleton_append, List.cons_append, readString?,
    readText?_flatMap s.toList rest (by rw [List.length_append, List.length_cons]; omega)]
  simp

/-! ## Numbers -/

/-- Whether a text does not go on with a digit. -/
def NoDigitNext (rest : List Char) : Prop := ∀ c ∈ rest.head?, c.isDigit = false

/-- Decimal digits have no superfluous zero in front. -/
theorem toDigits_ne_zero_cons (n : ℕ) (d : Char) (ds : List Char) :
    Nat.toDigits 10 n ≠ '0' :: d :: ds := by
  induction n using Nat.strong_induction_on generalizing d ds with
  | _ n ih =>
    intro h
    rcases Nat.lt_or_ge n 10 with hlt | hle
    · rw [Nat.toDigits_of_lt_base hlt, List.cons.injEq] at h
      exact List.cons_ne_nil d ds h.2.symm
    · rw [Nat.toDigits_of_base_le (by decide) hle] at h
      rcases List.append_eq_cons_iff.1 h with ⟨hnil, -⟩ | ⟨front, hfront, -⟩
      · exact Nat.toDigits_ne_nil hnil
      · cases front with
        | cons e front => exact ih (n / 10) (by omega) e front hfront
        | nil =>
          -- all digits but the last one are a zero, though the number is not below ten
          have hvalue := congrArg (Nat.ofDigitChars 10 · 0) hfront
          simp only [Nat.ofDigitChars_ten_toDigits] at hvalue
          have hzero : Nat.ofDigitChars 10 ['0'] 0 = 0 := rfl
          omega

/-- Decimal digits are read as the number that they were written for. -/
theorem readDigits?_toDigits (n : ℕ) {rest : List Char} (hrest : NoDigitNext rest) :
    readDigits? (Nat.toDigits 10 n ++ rest) = some (n, rest) := by
  have hdigits : ∀ c ∈ Nat.toDigits 10 n, c.isDigit = true := fun c hc =>
    Nat.isDigit_of_mem_toDigits (by decide) (by decide) hc
  have hstop : rest.takeWhile Char.isDigit = [] ∧ rest.dropWhile Char.isDigit = rest := by
    cases rest with
    | nil => exact ⟨rfl, rfl⟩
    | cons c rest =>
      have hc : c.isDigit = false := hrest c rfl
      simp [hc]
  rw [readDigits?, List.takeWhile_append_of_pos hdigits, List.dropWhile_append_of_pos hdigits,
    hstop.1, hstop.2, List.append_nil]
  split
  case h_1 h => exact absurd h Nat.toDigits_ne_nil
  case h_2 d ds h => exact absurd h (toDigits_ne_zero_cons n d ds)
  case h_3 => rw [Nat.ofDigitChars_ten_toDigits]

/-- A number starts with a digit or a minus sign. -/
theorem exists_writeNumber_eq_cons (n : ℤ) :
    ∃ c s, writeNumber n = c :: s ∧ (c.isDigit = true ∨ c = '-') := by
  cases n with
  | ofNat n =>
    obtain ⟨c, s, hcons⟩ := List.exists_cons_of_ne_nil (Nat.toDigits_ne_nil (n := n) (b := 10))
    refine ⟨c, s, hcons, .inl (Nat.isDigit_of_mem_toDigits (b := 10) (n := n) ?_ ?_ ?_)⟩
    · decide
    · decide
    · rw [hcons]
      exact List.mem_cons_self
  | negSucc n => exact ⟨'-', _, rfl, .inr rfl⟩

/-- A number is read back, if what follows it is no digit. -/
theorem readNumber?_writeNumber (n : ℤ) {rest : List Char} (hrest : NoDigitNext rest) :
    readNumber? (writeNumber n ++ rest) = some (n, rest) := by
  cases n with
  | ofNat n =>
    have hminus : ∀ s, Nat.toDigits 10 n ++ rest ≠ '-' :: s := by
      intro s h
      obtain ⟨c, s', hcons⟩ := List.exists_cons_of_ne_nil (Nat.toDigits_ne_nil (n := n) (b := 10))
      have hdigit : c.isDigit = true :=
        Nat.isDigit_of_mem_toDigits (b := 10) (n := n) (by decide) (by decide) (by simp [hcons])
      rw [hcons, List.cons_append, List.cons.injEq] at h
      rw [h.1] at hdigit
      cases hdigit
    rw [writeNumber, readNumber?]
    · simp [readDigits?_toDigits n hrest]
    · exact hminus
  | negSucc n =>
    rw [writeNumber, List.cons_append, readNumber?, readDigits?_toDigits (n + 1) hrest]
    rfl

/-! ## Blanks -/

/-- Nothing is skipped in front of a character that is no blank. -/
theorem skipBlanks_cons {c : Char} (hc : isBlank c = false) (s : List Char) :
    skipBlanks (c :: s) = c :: s := by
  rw [skipBlanks, List.dropWhile_cons_of_neg (by simp [hc])]

/-- A line break and its indentation are skipped. -/
theorem skipBlanks_lineBreak (level : ℕ) (s : List Char) :
    skipBlanks (lineBreak level ++ s) = skipBlanks s := by
  refine List.dropWhile_append_of_pos fun c hc => ?_
  rcases List.mem_cons.1 hc with rfl | hc
  · rfl
  · rw [List.eq_of_mem_replicate hc]
    rfl

theorem length_lineBreak (level : ℕ) : (lineBreak level).length = 2 * level + 1 := by
  rw [lineBreak, List.length_cons, List.length_replicate]

theorem noDigitNext_cons {c : Char} (hc : c.isDigit = false) (s : List Char) :
    NoDigitNext (c :: s) := by
  rintro d hd
  obtain rfl : c = d := by simpa using hd
  exact hc

theorem noDigitNext_lineBreak (level : ℕ) (s : List Char) :
    NoDigitNext (lineBreak level ++ s) :=
  noDigitNext_cons rfl _

/-- What is written for a value starts with a character that is no blank and does not end an
array. -/
theorem exists_writeAt_eq_cons (level : ℕ) (j : Json) :
    ∃ c s, writeAt level j = c :: s ∧ isBlank c = false ∧ c ≠ ']' := by
  cases j with
  | null => exact ⟨'n', _, rfl, rfl, by decide⟩
  | bool b =>
    cases b with
    | true => exact ⟨'t', _, rfl, rfl, by decide⟩
    | false => exact ⟨'f', _, rfl, rfl, by decide⟩
  | num n =>
    obtain ⟨c, s, hcons, hc⟩ := exists_writeNumber_eq_cons n
    refine ⟨c, s, hcons, ?_, ?_⟩
    · rcases hc with hc | rfl
      · by_contra hblank
        simp only [isBlank, Bool.not_eq_false, Bool.or_eq_true, beq_iff_eq] at hblank
        rcases hblank with ((rfl | rfl) | rfl) | rfl <;> cases hc
      · rfl
    · rintro rfl
      rcases hc with hc | hc <;> cases hc
  | str s => exact ⟨'"', _, rfl, rfl, by decide⟩
  | arr items =>
    cases items with
    | nil => exact ⟨'[', _, rfl, rfl, by decide⟩
    | cons j js => exact ⟨'[', _, rfl, rfl, by decide⟩
  | obj members =>
    cases members with
    | nil => exact ⟨'{', _, rfl, rfl, by decide⟩
    | cons m ms => exact ⟨'{', _, rfl, rfl, by decide⟩

/-- The blank between a name and its value is skipped. -/
theorem skipBlanks_blank_writeAt (level : ℕ) (j : Json) (s : List Char) :
    skipBlanks (' ' :: (writeAt level j ++ s)) = writeAt level j ++ s := by
  obtain ⟨c, t, hcons, hblank, -⟩ := exists_writeAt_eq_cons level j
  change skipBlanks (writeAt level j ++ s) = _
  rw [hcons, List.cons_append, skipBlanks_cons hblank]

/-! ## Values -/

/-- A value that starts like a number is read as one. -/
theorem readValue?_number {c : Char} (hc : c.isDigit = true ∨ c = '-') (fuel : ℕ) (s : List Char) :
    readValue? (fuel + 1) (c :: s) =
      (readNumber? (c :: s)).map fun (n, rest) => (.num n, rest) := by
  rw [readValue?]
  all_goals
    rintro rest h
    obtain ⟨rfl, -⟩ := List.cons.inj h
    rcases hc with hc | hc <;> cases hc

mutual

/-- A value is read back, if it is not followed by a digit. -/
theorem readValue?_writeAt (level : ℕ) : ∀ (j : Json) (fuel : ℕ) (rest : List Char),
    (writeAt level j).length < fuel → NoDigitNext rest →
      readValue? fuel (writeAt level j ++ rest) = some (j, rest)
  | _, 0, _, hfuel, _ => absurd hfuel (Nat.not_lt_zero _)
  | .null, _ + 1, _, _, _ => rfl
  | .bool true, _ + 1, _, _, _ => rfl
  | .bool false, _ + 1, _, _, _ => rfl
  | .num n, fuel + 1, rest, _, hrest => by
    obtain ⟨c, s, hcons, hc⟩ := exists_writeNumber_eq_cons n
    have hread := readNumber?_writeNumber n hrest
    rw [writeAt]
    rw [hcons, List.cons_append] at hread ⊢
    rw [readValue?_number hc, hread]
    rfl
  | .str s, fuel + 1, rest, _, _ => by
    obtain ⟨body, hbody⟩ := exists_writeString_eq_cons s
    have hread := readString?_writeString s rest
    rw [writeAt]
    rw [hbody, List.cons_append] at hread ⊢
    rw [readValue?, hread]
    rfl
  | .arr [], _ + 1, _, _, _ => rfl
  | .arr (j :: js), fuel + 1, rest, hfuel, _ => by
    obtain ⟨c, s, hcons, hblank, hbracket⟩ := exists_writeAt_eq_cons (level + 1) j
    rw [writeAt] at hfuel ⊢
    simp only [List.length_cons, List.length_append, length_lineBreak] at hfuel
    have hread := readItems?_writeItems (level + 1) level j js fuel rest (by omega)
    simp only [List.cons_append, List.append_assoc, List.nil_append]
    rw [readValue?, skipBlanks_lineBreak]
    rw [hcons, List.cons_append] at hread ⊢
    rw [skipBlanks_cons hblank]
    simp [hbracket, hread]
  | .obj [], _ + 1, _, _, _ => rfl
  | .obj ((k, j) :: ms), fuel + 1, rest, hfuel, _ => by
    obtain ⟨body, hbody⟩ := exists_writeString_eq_cons k
    rw [writeAt] at hfuel ⊢
    simp only [List.length_cons, List.length_append, length_lineBreak] at hfuel
    have hread := readMembers?_writeMembers (level + 1) level k j ms fuel rest (by omega)
    simp only [List.cons_append, List.append_assoc, List.nil_append]
    rw [readValue?, skipBlanks_lineBreak]
    rw [hbody, List.cons_append] at hread ⊢
    rw [skipBlanks_cons rfl]
    simp [hread]
termination_by j => sizeOf j

/-- The items of an array are read back up to its closing bracket. -/
theorem readItems?_writeItems (level outer : ℕ) :
    ∀ (j : Json) (js : List Json) (fuel : ℕ) (rest : List Char),
      (writeAt level j).length + (writeItems level js).length + 1 < fuel →
        readItems? fuel (writeAt level j ++
          (writeItems level js ++ (lineBreak outer ++ ']' :: rest))) = some (j :: js, rest)
  | _, _, 0, _, hfuel => absurd hfuel (Nat.not_lt_zero _)
  | j, [], fuel + 1, rest, hfuel => by
    rw [readItems?, writeItems, List.nil_append,
      readValue?_writeAt level j fuel _ (by omega) (noDigitNext_lineBreak outer _)]
    simp [skipBlanks_lineBreak, skipBlanks_cons (c := ']') rfl]
  | j, j' :: js, fuel + 1, rest, hfuel => by
    obtain ⟨c, s, hcons, hblank, -⟩ := exists_writeAt_eq_cons level j'
    rw [writeItems] at hfuel ⊢
    simp only [List.length_cons, List.length_append, length_lineBreak] at hfuel
    have hread := readItems?_writeItems level outer j' js fuel rest (by omega)
    simp only [List.cons_append, List.append_assoc]
    rw [readItems?, readValue?_writeAt level j fuel _ (by omega) (noDigitNext_cons rfl _)]
    rw [hcons, List.cons_append] at hread ⊢
    simp [skipBlanks_cons (c := ',') rfl, skipBlanks_lineBreak, skipBlanks_cons hblank, hread]
termination_by j js => sizeOf j + sizeOf js

/-- The members of an object are read back up to its closing brace. -/
theorem readMembers?_writeMembers (level outer : ℕ) :
    ∀ (k : String) (j : Json) (ms : List (String × Json)) (fuel : ℕ) (rest : List Char),
      (writeAt level j).length + (writeMembers level ms).length + 1 < fuel →
        readMembers? fuel (writeString k ++ ':' :: ' ' :: (writeAt level j ++
          (writeMembers level ms ++ (lineBreak outer ++ '}' :: rest)))) =
          some ((k, j) :: ms, rest)
  | _, _, _, 0, _, hfuel => absurd hfuel (Nat.not_lt_zero _)
  | k, j, [], fuel + 1, rest, hfuel => by
    have hread := readValue?_writeAt level j fuel (lineBreak outer ++ '}' :: rest) (by omega)
      (noDigitNext_lineBreak outer _)
    rw [readMembers?, readString?_writeString, writeMembers, List.nil_append]
    simp [skipBlanks_cons (c := ':') rfl, skipBlanks_blank_writeAt, hread, skipBlanks_lineBreak,
      skipBlanks_cons (c := '}') rfl]
  | k, j, (k', j') :: ms, fuel + 1, rest, hfuel => by
    obtain ⟨body, hbody⟩ := exists_writeString_eq_cons k'
    rw [writeMembers] at hfuel ⊢
    simp only [List.length_cons, List.length_append, length_lineBreak] at hfuel
    have hread := readMembers?_writeMembers level outer k' j' ms fuel rest (by omega)
    have hvalue := fun s => readValue?_writeAt level j fuel (',' :: s) (by omega)
      (noDigitNext_cons rfl s)
    simp only [List.cons_append, List.append_assoc]
    rw [readMembers?, readString?_writeString]
    rw [hbody, List.cons_append] at hread ⊢
    simp [skipBlanks_cons (c := ':') rfl, skipBlanks_blank_writeAt, hvalue,
      skipBlanks_cons (c := ',') rfl, skipBlanks_lineBreak, skipBlanks_cons (c := '"') rfl, hread]
termination_by _ j ms => sizeOf j + sizeOf ms

end

/-- A document is read back as the value that it was written for. -/
theorem read?_written (j : Json) : read? (write j) = some j := by
  obtain ⟨c, s, hcons, hblank, -⟩ := exists_writeAt_eq_cons 0 j
  have hread := readValue?_writeAt 0 j (2 * (writeAt 0 j).length + 1) [] (by omega)
    (by simp [NoDigitNext])
  rw [List.append_nil] at hread
  have hskip : skipBlanks (writeAt 0 j) = writeAt 0 j := by rw [hcons, skipBlanks_cons hblank]
  rw [read?, write, String.toList_ofList, String.length_ofList, hskip, hread]
  rfl

/-! ## Plain text -/

/-- Whether all characters of a text are ASCII. -/
def IsAscii (s : List Char) : Prop := ∀ c ∈ s, c.toNat < 0x80

instance (s : List Char) : Decidable (IsAscii s) :=
  List.decidableBAll (fun c : Char => c.toNat < 0x80) s

theorem isAscii_nil : IsAscii [] := by simp [IsAscii]

theorem isAscii_cons {c : Char} {s : List Char} :
    IsAscii (c :: s) ↔ c.toNat < 0x80 ∧ IsAscii s :=
  List.forall_mem_cons

theorem isAscii_append {s t : List Char} : IsAscii (s ++ t) ↔ IsAscii s ∧ IsAscii t :=
  List.forall_mem_append

theorem isAscii_hex (case : Text.HexCase) (width n : ℕ) : IsAscii (Text.hex case width n) := by
  induction width generalizing n with
  | zero => exact isAscii_nil
  | succ width ih =>
    have hlt : n % 16 < 16 := Nat.mod_lt _ (by decide)
    have hdigit : (Text.hexDigit case (n % 16)).toNat < 0x80 := by
      generalize n % 16 = d at hlt
      cases case <;> interval_cases d <;> decide
    rw [Text.hex]
    exact isAscii_append.2 ⟨ih (n / 16), isAscii_cons.2 ⟨hdigit, isAscii_nil⟩⟩

/-- Every character is written in ASCII. -/
theorem isAscii_writeChar (c : Char) : IsAscii (writeChar c) := by
  rw [writeChar]
  split
  case h_1 l hl =>
    have hletter : l.toNat < 0x80 := by
      fun_cases letter? c <;> simp only [letter?, Option.some.injEq, reduceCtorEq] at hl <;>
        subst hl <;> decide
    exact isAscii_cons.2 ⟨by decide, isAscii_cons.2 ⟨hletter, isAscii_nil⟩⟩
  case h_2 =>
    split
    case isTrue hplain => exact isAscii_cons.2 ⟨by omega, isAscii_nil⟩
    case isFalse =>
      intro d hd
      obtain ⟨u, -, hd⟩ := List.mem_flatMap.1 hd
      exact isAscii_cons.2 ⟨by decide, isAscii_cons.2 ⟨by decide, isAscii_hex .lower 4 u⟩⟩ d hd

theorem isAscii_writeString (s : String) : IsAscii (writeString s) := by
  have hbody : IsAscii (s.toList.flatMap writeChar) := by
    intro d hd
    obtain ⟨c, -, hd⟩ := List.mem_flatMap.1 hd
    exact isAscii_writeChar c d hd
  rw [writeString, List.cons_append, isAscii_cons, isAscii_append]
  exact ⟨by decide, hbody, isAscii_cons.2 ⟨by decide, isAscii_nil⟩⟩

theorem isAscii_toDigits (n : ℕ) : IsAscii (Nat.toDigits 10 n) := by
  intro c hc
  have hdigit : c.isDigit = true := Nat.isDigit_of_mem_toDigits (by decide) (by decide) hc
  simp only [Char.isDigit, Bool.and_eq_true, decide_eq_true_eq, ge_iff_le,
    UInt32.le_iff_toNat_le] at hdigit
  have hle : c.toNat ≤ 57 := hdigit.2
  omega

theorem isAscii_writeNumber (n : ℤ) : IsAscii (writeNumber n) := by
  cases n with
  | ofNat n => exact isAscii_toDigits n
  | negSucc n => exact isAscii_cons.2 ⟨by decide, isAscii_toDigits (n + 1)⟩

theorem isAscii_lineBreak (level : ℕ) : IsAscii (lineBreak level) := by
  rw [lineBreak, isAscii_cons]
  refine ⟨by decide, fun c hc => ?_⟩
  rw [List.eq_of_mem_replicate hc]
  decide

mutual

/-- Every value is written in ASCII. -/
theorem isAscii_writeAt (level : ℕ) : ∀ j : Json, IsAscii (writeAt level j)
  | .null => by
    rw [writeAt]
    decide
  | .bool true => by
    rw [writeAt]
    decide
  | .bool false => by
    rw [writeAt]
    decide
  | .num n => isAscii_writeNumber n
  | .str s => isAscii_writeString s
  | .arr [] => by
    rw [writeAt]
    decide
  | .arr (j :: js) => by
    have hitem := isAscii_writeAt (level + 1) j
    have hitems := isAscii_writeItems (level + 1) js
    simp only [writeAt, isAscii_append, isAscii_cons]
    exact ⟨⟨⟨⟨⟨by decide, isAscii_lineBreak _⟩, hitem⟩, hitems⟩, isAscii_lineBreak _⟩, by decide,
      isAscii_nil⟩
  | .obj [] => by
    rw [writeAt]
    decide
  | .obj ((k, j) :: ms) => by
    have hvalue := isAscii_writeAt (level + 1) j
    have hmembers := isAscii_writeMembers (level + 1) ms
    simp only [writeAt, isAscii_append, isAscii_cons]
    exact ⟨⟨⟨⟨⟨⟨by decide, isAscii_lineBreak _⟩, isAscii_writeString k⟩, by decide, by decide,
      hvalue⟩, hmembers⟩, isAscii_lineBreak _⟩, by decide, isAscii_nil⟩

theorem isAscii_writeItems (level : ℕ) : ∀ js : List Json, IsAscii (writeItems level js)
  | [] => isAscii_nil
  | j :: js => by
    have hitem := isAscii_writeAt level j
    have hitems := isAscii_writeItems level js
    simp only [writeItems, isAscii_append, isAscii_cons]
    exact ⟨⟨⟨by decide, isAscii_lineBreak _⟩, hitem⟩, hitems⟩

theorem isAscii_writeMembers (level : ℕ) :
    ∀ ms : List (String × Json), IsAscii (writeMembers level ms)
  | [] => isAscii_nil
  | (k, j) :: ms => by
    have hvalue := isAscii_writeAt level j
    have hmembers := isAscii_writeMembers level ms
    simp only [writeMembers, isAscii_append, isAscii_cons]
    exact ⟨⟨⟨⟨by decide, isAscii_lineBreak _⟩, isAscii_writeString k⟩, by decide, by decide,
      hvalue⟩, hmembers⟩

end

/-- A document holds nothing but ASCII characters. -/
theorem isAscii_write (j : Json) : IsAscii (write j).toList := by
  rw [write, String.toList_ofList]
  exact isAscii_writeAt 0 j

end ClassCode.Json
