import ClassCode.Literal.Reader
import ClassCode.Proofs.Text
import Mathlib.Data.List.Basic

/-!
# Reading back string literals

A literal is read back as the text that it was written for, whatever follows it.

The body of a literal that is not raw is made of spellings, one for each character of the text:
`Spelling quote c u` says that the characters `u` stand for `c` between two `quote`s. A spelling is
read as a whole (`readEscaped_spelling`) and holds no control character (`Spelling.printable`), so
the proofs about a body are inductions over the text that look at one spelling at a time. What
remains is that `escapeChar`, alone or followed by `protect`, writes spellings. It does so only for
characters that the delimiters do not forbid, and that is what `form?` makes sure of
(`form?_eq_some`).
-/

namespace ClassCode.Literal

/-! ## Spellings -/

/-- The ways to write a character in a body that is not raw. -/
inductive Spelling (quote c : Char) : List Char → Prop
  /-- A letter behind a backslash. -/
  | letter (l : Char) (hx : l ≠ 'x') (hl : unletter? l = some c) : Spelling quote c ['\\', l]
  /-- The number of the character as two hexadecimal digits. -/
  | digits (high low : Char) (hn : Text.hexNumber? [high, low] = some c.toNat) :
      Spelling quote c ['\\', 'x', high, low]
  /-- The character itself. -/
  | plain (hq : c ≠ quote) (hp : isControl c = false) (hb : c ≠ '\\') (hd : c ≠ '$') :
      Spelling quote c [c]

/-- A spelling is read as the character that it stands for. -/
theorem readEscaped_spelling {quote c : Char} {u : List Char} (hu : Spelling quote c u)
    (rest : List Char) :
    readEscaped quote (u ++ rest) = (readEscaped quote rest).map (withHead c) := by
  cases hu with
  | letter l hx hl => simp [readEscaped, hx, hl]
  | digits high low hn => simp [readEscaped, hn]
  | plain hq hp hb hd => simp [readEscaped, hq, hp, hb, hd]

/-- A letter that an escape sequence can name is no control character. -/
theorem isControl_of_unletter? {l c : Char} (h : unletter? l = some c) : isControl l = false := by
  fun_cases unletter? l <;> first | rfl | simp [unletter?] at h

/-- A hexadecimal digit is no control character. -/
theorem isControl_of_hexValue? {c : Char} {n : ℕ} (h : Text.hexValue? c = some n) :
    isControl c = false := by
  have hrange : 0x30 ≤ c.toNat ∧ c.toNat < 0x7f := by
    unfold Text.hexValue? at h
    simp only [Char.le_def, UInt32.le_iff_toNat_le] at h
    change (if 0x30 ≤ c.toNat ∧ c.toNat ≤ 0x39 then _ else if 0x61 ≤ c.toNat ∧ c.toNat ≤ 0x66
      then _ else if 0x41 ≤ c.toNat ∧ c.toNat ≤ 0x46 then _ else _) = _ at h
    split_ifs at h <;> omega
  simp only [isControl, Bool.or_eq_false_iff, decide_eq_false_iff_not, beq_eq_false_iff_ne]
  omega

/-- A spelling holds no control character. -/
theorem Spelling.printable {quote c : Char} {u : List Char} (hu : Spelling quote c u) :
    ∀ d ∈ u, isControl d = false := by
  cases hu with
  | letter l hx hl => simp [isControl_of_unletter? hl, show isControl '\\' = false from rfl]
  | digits high low hn =>
    simp only [Text.hexNumber?, List.foldlM_cons, List.foldlM_nil, Option.bind_eq_bind,
      Option.bind_eq_some_iff, Option.map_eq_some_iff] at hn
    obtain ⟨_, ⟨a, ha, -⟩, _, ⟨b, hb, -⟩, -⟩ := hn
    simp [isControl_of_hexValue? ha, isControl_of_hexValue? hb,
      show isControl '\\' = false from rfl, show isControl 'x' = false from rfl]
  | plain hq hp hb hd => simpa using hp

/-- A body made of spellings is read as the text that they stand for, up to the closing quote. -/
theorem readEscaped_body {quote : Char} (spell : Char → List Char) {s : List Char}
    (hs : ∀ c ∈ s, Spelling quote c (spell c)) (hq : quote ≠ '\\') (rest : List Char) :
    readEscaped quote (s.flatMap spell ++ quote :: rest) = some (s, rest) := by
  induction s with
  | nil => simp [readEscaped, hq]
  | cons c s ih =>
    rw [List.flatMap_cons, List.append_assoc, readEscaped_spelling (hs c (by simp)),
      ih fun d hd => hs d (by simp [hd])]
    rfl

/-- A raw body is read as it stands, up to the closing quote. -/
theorem readRaw_body {quote : Char} {s : List Char} (hq : quote ∉ s)
    (hs : ∀ c ∈ s, isControl c = false) (rest : List Char) :
    readRaw quote (s ++ quote :: rest) = some (s, rest) := by
  induction s with
  | nil => simp [readRaw]
  | cons c s ih =>
    obtain ⟨hc, hq⟩ : quote ≠ c ∧ quote ∉ s := by simpa using hq
    rw [List.cons_append, readRaw, if_neg hc.symm, hs c (by simp),
      ih hq fun d hd => hs d (by simp [hd])]
    rfl

/-! ## What is written -/

/-- A character that has a letter is spelled with it. -/
theorem spelling_letter {quote c l : Char} (h : letter? c = some l) :
    Spelling quote c ['\\', l] := by
  fun_cases letter? c <;> simp only [letter?, Option.some.injEq, reduceCtorEq] at h <;>
    subst h <;> exact .letter _ (by decide) rfl

/-- A control character without a letter is spelled with its number. -/
theorem spelling_digits {quote c : Char} (h : isControl c = true) :
    Spelling quote c ('\\' :: 'x' :: Text.hex .upper 2 c.toNat) := by
  have hlt : c.toNat < 16 ^ 2 := by
    simp only [isControl, Bool.or_eq_true, decide_eq_true_eq, beq_iff_eq] at h
    omega
  exact .digits _ _ (Text.hexNumber?_hex .upper 2 hlt)

/-- An escaped character is spelled right if it is neither the closing quote nor a dollar sign. -/
theorem spelling_escapeChar {quote c : Char} (hq : c ≠ quote) (hd : c ≠ '$') :
    Spelling quote c (escapeChar c) := by
  unfold escapeChar
  split
  case h_1 l hl => exact spelling_letter hl
  case h_2 hl =>
    have hb : c ≠ '\\' := by
      rintro rfl
      simp [letter?] at hl
    split
    case isTrue hp => exact spelling_digits hp
    case isFalse hp => exact .plain hq (by simpa using hp) hb hd

/-- A sensitive character is not changed by `escapeChar`. -/
theorem escapeChar_of_isSensitive {c : Char} (h : isSensitive c = true) : escapeChar c = [c] := by
  simp only [isSensitive, Bool.or_eq_true, beq_iff_eq] at h
  rcases h with (rfl | rfl) | rfl <;> rfl

/-- No hexadecimal digit is sensitive. -/
theorem isSensitive_hexDigit (case : Text.HexCase) {n : ℕ} (hn : n < 16) :
    isSensitive (Text.hexDigit case n) = false := by
  cases case <;> interval_cases n <;> rfl

/-- Escaping a character that is not sensitive brings no sensitive one in. -/
theorem isSensitive_of_mem_escapeChar {c d : Char} (h : isSensitive c = false)
    (hd : d ∈ escapeChar c) : isSensitive d = false := by
  unfold escapeChar at hd
  split at hd
  case h_1 l hl =>
    -- the letter of an escape sequence is a letter or a backslash
    have hl' : isSensitive l = false := by
      fun_cases letter? c <;> simp only [letter?, Option.some.injEq, reduceCtorEq] at hl <;>
        subst hl <;> rfl
    simp only [List.mem_cons, List.not_mem_nil, or_false] at hd
    rcases hd with rfl | rfl
    · rfl
    · exact hl'
  case h_2 hl =>
    split at hd
    · have hhex : Text.hex .upper 2 c.toNat =
          [Text.hexDigit .upper (c.toNat / 16 % 16), Text.hexDigit .upper (c.toNat % 16)] := rfl
      rw [hhex] at hd
      simp only [List.mem_cons, List.not_mem_nil, or_false] at hd
      rcases hd with rfl | rfl | rfl | rfl
      · rfl
      · rfl
      · exact isSensitive_hexDigit .upper (Nat.mod_lt _ (by omega))
      · exact isSensitive_hexDigit .upper (Nat.mod_lt _ (by omega))
    · rw [List.mem_singleton.1 hd]
      exact h

/-- What a character is escaped to needs no protection unless the character is sensitive itself. -/
theorem flatMap_protect_escapeChar {c : Char} (h : isSensitive c = false) :
    (escapeChar c).flatMap protect = escapeChar c := by
  have hkeep : (escapeChar c).flatMap protect = (escapeChar c).flatMap fun d => [d] := by
    refine List.flatMap_congr fun d hd => ?_
    rw [protect, isSensitive_of_mem_escapeChar h hd]
    rfl
  rw [hkeep, List.flatMap_singleton']

/-- A protected character is spelled right between single quotes, whatever it is. -/
theorem spelling_protect (c : Char) : Spelling '\'' c ((escapeChar c).flatMap protect) := by
  by_cases h : isSensitive c = true
  · -- escaping leaves quotes and dollar signs to be protected
    rw [escapeChar_of_isSensitive h, List.flatMap_singleton, protect, if_pos h]
    simp only [isSensitive, Bool.or_eq_true, beq_iff_eq] at h
    rcases h with (rfl | rfl) | rfl <;> exact .letter _ (by decide) rfl
  · rw [flatMap_protect_escapeChar (by simpa using h)]
    refine spelling_escapeChar ?_ ?_ <;> rintro rfl <;> exact h rfl

/-! ## Choice of a form -/

/-- A form is chosen only if the text can stand between its delimiters: its quote does not occur;
raw, no character needs an escape sequence; otherwise there is no dollar sign. -/
theorem form?_eq_some {s : List Char} {f : Form} (h : form? s = some f) :
    isQuote f.quote = true ∧ f.quote ∉ s ∧
      if f.raw then ∀ c ∈ s, letter? c = none ∧ isControl c = false else '$' ∉ s := by
  simp only [form?, Bool.not_eq_true', List.contains_eq_mem] at h
  split_ifs at h <;> cases h <;> simp_all [isQuote]

/-! ## Round trip -/

/-- A text in which no character needs an escape sequence is its own body. -/
theorem flatMap_escapeChar {s : List Char}
    (hs : ∀ c ∈ s, letter? c = none ∧ isControl c = false) : s.flatMap escapeChar = s := by
  have hkeep : s.flatMap escapeChar = s.flatMap fun c => [c] := by
    refine List.flatMap_congr fun c hc => ?_
    obtain ⟨hl, hp⟩ := hs c hc
    simp [escapeChar, hl, hp]
  rw [hkeep, List.flatMap_singleton']

/-- The two ways in which a literal can be written: a raw body that stands for itself, or a body of
spellings. -/
theorem encode_cases (s : List Char) :
    (∃ quote, isQuote quote = true ∧ quote ∉ s ∧ (∀ c ∈ s, isControl c = false) ∧
      encode s = 'r' :: quote :: (s ++ [quote])) ∨
    (∃ quote spell, isQuote quote = true ∧ (∀ c ∈ s, Spelling quote c (spell c)) ∧
      encode s = quote :: (s.flatMap spell ++ [quote])) := by
  cases hf : form? s with
  | none =>
    -- no form fits, so the body is protected and stands between single quotes
    refine .inr ⟨'\'', fun c => (escapeChar c).flatMap protect, rfl,
      fun c _ => spelling_protect c, ?_⟩
    rw [encode, hf, List.flatMap_assoc]
    rfl
  | some f =>
    obtain ⟨hq, hs, hbody⟩ := form?_eq_some hf
    by_cases hr : f.raw = true
    · rw [if_pos hr] at hbody
      refine .inl ⟨f.quote, hq, hs, fun c hc => (hbody c hc).2, ?_⟩
      rw [encode, hf, flatMap_escapeChar hbody]
      simp [hr]
    · rw [if_neg hr] at hbody
      refine .inr ⟨f.quote, escapeChar, hq, fun c hc => spelling_escapeChar ?_ ?_, ?_⟩
      · exact fun h => hs (h ▸ hc)
      · exact fun h => hbody (h ▸ hc)
      · rw [encode, hf]
        simp [hr]

/-- The quotes that can delimit a literal. -/
theorem isQuote_iff {c : Char} : isQuote c = true ↔ c = '\'' ∨ c = '"' := by
  simp [isQuote]

/-- A literal is read back as its text, and reading ends where the literal ends. -/
theorem read?_encode (s rest : List Char) : read? (encode s ++ rest) = some (s, rest) := by
  obtain ⟨quote, hq, hs, hp, he⟩ | ⟨quote, spell, hq, hs, he⟩ := encode_cases s
  · have hread := readRaw_body hs hp rest
    rw [he]
    simpa [read?, hq] using hread
  · have hb : quote ≠ '\\' ∧ quote ≠ 'r' := by
      rcases isQuote_iff.1 hq with rfl | rfl <;> decide
    have hread := readEscaped_body spell hs hb.1 rest
    rw [he]
    simpa [read?, hq, hb.2] using hread

/-- A literal holds no control character. -/
theorem isControl_of_mem_encode (s : List Char) : ∀ c ∈ encode s, isControl c = false := by
  have hquote : ∀ {quote}, isQuote quote = true → isControl quote = false := by
    intro quote hq
    rcases isQuote_iff.1 hq with rfl | rfl <;> rfl
  obtain ⟨quote, hq, -, hp, he⟩ | ⟨quote, spell, hq, hs, he⟩ := encode_cases s
  · rw [he]
    intro c hc
    simp only [List.mem_cons, List.mem_append, List.not_mem_nil, or_false] at hc
    rcases hc with rfl | rfl | hc | rfl
    · rfl
    · exact hquote hq
    · exact hp c hc
    · exact hquote hq
  · rw [he]
    intro c hc
    simp only [List.mem_cons, List.mem_append, List.not_mem_nil, or_false] at hc
    rcases hc with rfl | hc | rfl
    · exact hquote hq
    · obtain ⟨d, hd, hc⟩ := List.mem_flatMap.1 hc
      exact (hs d hd).printable c hc
    · exact hquote hq

/-- Whatever follows it, the literal of a text is read as that text, up to its closing quote and no
further; and it stands on one line without control characters. -/
theorem read?_write (s : String) (rest : List Char) :
    read? ((write s).toList ++ rest) = some (s.toList, rest) ∧
      ∀ c ∈ (write s).toList, isControl c = false := by
  rw [write, String.toList_ofList]
  exact ⟨read?_encode s.toList rest, isControl_of_mem_encode s.toList⟩

end ClassCode.Literal
