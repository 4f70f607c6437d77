import ClassCode.Proofs.Literal.RoundTrip

/-!
# Which form a literal takes

Of the four forms a literal takes the first that can carry its text with no quote or dollar sign
escaped, and falls back on single quotes when there is none (`write_form`).

The form is chosen by nested tests on what occurs in the text. They come to the same as trying one
form after the other (`form?_eq_find?`): what keeps a form from carrying a text is said of each form
by itself (`Form.Carries`).

How the characters of a text are spelled is a relation (`Body`), with the protection of quotes and
dollar signs as a parameter. It says which characters become escape sequences, so it tells when a
body is the text itself (`Body.eq_iff`): any escape sequence makes it longer.
-/

namespace ClassCode.Literal

/-! ## What a form can carry -/

/-- Whether a character can only be written as an escape sequence, or in no way if the body is raw:
a backslash or a control character. -/
def NeedsEscape (c : Char) : Prop := c = '\\' ∨ isControl c = true

instance : DecidablePred NeedsEscape := fun c =>
  inferInstanceAs (Decidable (c = '\\' ∨ isControl c = true))

/-- Whether no character of a text needs an escape sequence. -/
def Plain (s : List Char) : Prop := ∀ c ∈ s, ¬ NeedsEscape c

instance : DecidablePred Plain := fun s =>
  inferInstanceAs (Decidable (∀ c ∈ s, ¬ NeedsEscape c))

/-- The four forms in order of preference. -/
def forms : List Form := [⟨false, '\''⟩, ⟨false, '"'⟩, ⟨true, '\''⟩, ⟨true, '"'⟩]

/-- Whether a form can carry a text with none of its quotes and dollar signs escaped. -/
structure Form.Carries (f : Form) (s : List Char) : Prop where
  quote : f.quote ∉ s
  dollar : f.raw = false → '$' ∉ s
  raw : f.raw = true → Plain s

theorem Form.carries_iff {f : Form} {s : List Char} :
    f.Carries s ↔ f.quote ∉ s ∧ (f.raw = false → '$' ∉ s) ∧ (f.raw = true → Plain s) :=
  ⟨fun h => ⟨h.quote, h.dollar, h.raw⟩, fun h => ⟨h.1, h.2.1, h.2.2⟩⟩

instance (f : Form) (s : List Char) : Decidable (f.Carries s) :=
  decidable_of_iff' _ Form.carries_iff

/-- The characters that are written as escape sequences are those that have a letter and control
characters. -/
theorem not_needsEscape_iff {c : Char} :
    ¬ NeedsEscape c ↔ letter? c = none ∧ isControl c = false := by
  have hletter : ∀ l, letter? c = some l → NeedsEscape c := by
    intro l hl
    fun_cases letter? c <;> first | exact .inl rfl | exact .inr rfl | simp [letter?] at hl
  constructor
  · intro h
    refine ⟨Option.eq_none_iff_forall_ne_some.2 fun l hl => h (hletter l hl), ?_⟩
    rw [← Bool.not_eq_true]
    exact fun hp => h (.inr hp)
  · rintro ⟨hl, hp⟩ (rfl | hp')
    · simp [letter?] at hl
    · rw [hp] at hp'
      cases hp'

/-- The form that is chosen is the first that can carry the text. -/
theorem form?_eq_find? (s : List Char) : form? s = forms.find? fun f => f.Carries s := by
  have hplain : (s.all fun c => (letter? c).isNone && !isControl c) = true ↔ Plain s := by
    simp [Plain, not_needsEscape_iff]
  by_cases hdollar : '$' ∈ s <;> by_cases hsingle : '\'' ∈ s <;> by_cases hdouble : '"' ∈ s <;>
    by_cases h : Plain s <;>
    simp [form?, forms, Form.carries_iff, hplain, hdollar, hsingle, hdouble, h]

/-! ## How a text is spelled -/

/-- Whether characters are an escape sequence that stands for a character, whatever the quotes. -/
structure IsEscape (c : Char) (u : List Char) : Prop where
  backslash : u.head? = some '\\'
  long : 2 ≤ u.length
  spelling : ∀ quote, Spelling quote c u

/-- How a character is written in a body: as an escape sequence if it needs one, behind exactly one
backslash if it is a quote or a dollar sign and these are guarded, and as it is otherwise. -/
inductive Written (guarded : Bool) (c : Char) : List Char → Prop
  | escape (u : List Char) (hc : NeedsEscape c) (hu : IsEscape c u) : Written guarded c u
  | guard (hg : guarded = true) (hc : isSensitive c = true) : Written guarded c ['\\', c]
  | plain (hc : ¬ NeedsEscape c) (hg : ¬ (guarded = true ∧ isSensitive c = true)) :
      Written guarded c [c]

/-- Whether a body is a text, written character by character. -/
inductive Body (guarded : Bool) : List Char → List Char → Prop
  | nil : Body guarded [] []
  | cons {c : Char} {u s body : List Char} (hu : Written guarded c u)
      (hbody : Body guarded s body) : Body guarded (c :: s) (u ++ body)

theorem isEscape_escapeChar {c : Char} (hc : NeedsEscape c) : IsEscape c (escapeChar c) := by
  unfold escapeChar
  split
  case h_1 l hl => exact ⟨rfl, Nat.le_refl 2, fun quote => spelling_letter hl⟩
  case h_2 hl =>
    have hp : isControl c = true := by
      by_contra hp
      exact not_needsEscape_iff.2 ⟨hl, by simpa using hp⟩ hc
    rw [if_pos hp]
    exact ⟨rfl, by simp, fun quote => spelling_digits hp⟩

theorem escapeChar_of_not_needsEscape {c : Char} (hc : ¬ NeedsEscape c) : escapeChar c = [c] := by
  obtain ⟨hl, hp⟩ := not_needsEscape_iff.1 hc
  simp [escapeChar, hl, hp]

theorem written_escapeChar (c : Char) : Written false c (escapeChar c) := by
  by_cases hc : NeedsEscape c
  · exact .escape _ hc (isEscape_escapeChar hc)
  · rw [escapeChar_of_not_needsEscape hc]
    exact .plain hc (by simp)

theorem written_protect (c : Char) : Written true c ((escapeChar c).flatMap protect) := by
  by_cases hs : isSensitive c = true
  · rw [escapeChar_of_isSensitive hs, List.flatMap_singleton, protect, if_pos hs]
    exact .guard rfl hs
  · rw [flatMap_protect_escapeChar (by simpa using hs)]
    by_cases hc : NeedsEscape c
    · exact .escape _ hc (isEscape_escapeChar hc)
    · rw [escapeChar_of_not_needsEscape hc]
      exact .plain hc fun h => hs h.2

/-- Writing every character makes a body. -/
theorem body_flatMap {guarded : Bool} {write : Char → List Char}
    (h : ∀ c, Written guarded c (write c)) (s : List Char) :
    Body guarded s (s.flatMap write) := by
  induction s with
  | nil => exact .nil
  | cons c s ih => exact .cons (h c) ih

/-! ## Bodies that are the text itself -/

theorem Written.length_pos {guarded : Bool} {c : Char} {u : List Char}
    (h : Written guarded c u) : 1 ≤ u.length := by
  cases h with
  | escape _ _ hu => exact Nat.le_of_lt hu.long
  | guard => simp
  | plain => simp

theorem Body.length_le {guarded : Bool} {s body : List Char} (h : Body guarded s body) :
    s.length ≤ body.length := by
  induction h with
  | nil => exact Nat.le_refl 0
  | cons hu _ ih =>
    have hpos := hu.length_pos
    rw [List.length_cons, List.length_append]
    omega

/-- A body is the text itself exactly if no character of the text is escaped. -/
theorem Body.eq_iff {guarded : Bool} {s body : List Char} (h : Body guarded s body) :
    body = s ↔ ∀ c ∈ s, ¬ NeedsEscape c ∧ ¬ (guarded = true ∧ isSensitive c = true) := by
  induction h with
  | nil => simp
  | @cons c u s body hu hbody ih =>
    rw [List.forall_mem_cons, ← ih]
    have hle := hbody.length_le
    have hlong : 2 ≤ u.length → u ++ body ≠ c :: s := by
      intro htwo heq
      have hlength := congrArg List.length heq
      rw [List.length_append, List.length_cons] at hlength
      omega
    cases hu with
    | escape _ hc hesc =>
      exact ⟨fun heq => absurd heq (hlong hesc.long), fun h => absurd hc h.1.1⟩
    | guard hg hc =>
      exact ⟨fun heq => absurd heq (hlong (Nat.le_refl 2)), fun h => absurd ⟨hg, hc⟩ h.1.2⟩
    | plain hc hg =>
      rw [List.singleton_append, List.cons_inj_right]
      exact ⟨fun heq => ⟨⟨hc, hg⟩, heq⟩, fun h => h.2⟩

/-- In a form that can carry the text only escape sequences keep the body from being the text, and a
text with both quotes has no such form. -/
theorem Form.Carries.body_eq_iff {f : Form} {s body : List Char} (hf : f ∈ forms)
    (h : f.Carries s) (hbody : Body false s body) :
    body = s ↔ Plain s ∧ ¬ ('\'' ∈ s ∧ '"' ∈ s) := by
  have hboth : ¬ ('\'' ∈ s ∧ '"' ∈ s) := by
    rintro ⟨hsingle, hdouble⟩
    have hquote : f.quote = '\'' ∨ f.quote = '"' := by
      simp only [forms, List.mem_cons, List.not_mem_nil, or_false] at hf
      rcases hf with rfl | rfl | rfl | rfl <;> simp
    rcases hquote with heq | heq
    · exact h.quote (heq ▸ hsingle)
    · exact h.quote (heq ▸ hdouble)
  rw [hbody.eq_iff, and_iff_left hboth]
  simp [Plain]

/-- If no form can carry the text, no body is the text: something has to be escaped. -/
theorem body_eq_iff_of_not_carries {s body : List Char} (h : ∀ f ∈ forms, ¬ f.Carries s)
    (hbody : Body true s body) : body = s ↔ Plain s ∧ ¬ ('\'' ∈ s ∧ '"' ∈ s) := by
  rw [hbody.eq_iff]
  constructor
  · intro hkeep
    have hsensitive : ∀ c, isSensitive c = true → c ∉ s := fun c hc hmem =>
      (hkeep c hmem).2 ⟨rfl, hc⟩
    -- without quotes and dollar signs single quotes would do
    refine absurd ⟨hsensitive '\'' rfl, fun _ => hsensitive '$' rfl, ?_⟩
      (h ⟨false, '\''⟩ (by decide))
    exact fun hraw => nomatch hraw
  · rintro ⟨hplain, hboth⟩
    -- one of the raw forms would do
    by_cases hsingle : '\'' ∈ s
    · refine absurd ⟨fun hdouble => hboth ⟨hsingle, hdouble⟩, ?_, fun _ => hplain⟩
        (h ⟨true, '"'⟩ (by decide))
      exact fun hraw => nomatch hraw
    · refine absurd ⟨hsingle, ?_, fun _ => hplain⟩ (h ⟨true, '\''⟩ (by decide))
      exact fun hraw => nomatch hraw

/-! ## The literal -/

/-- The literal for a text takes the first form that can carry it, and then only backslashes and
control characters are escaped. If no form can, it stands between single quotes, and every quote and
dollar sign has exactly one backslash put before it besides. So the body is the text itself exactly
if the text has neither a backslash nor a control character and does not have both quotes. -/
theorem write_form (s : String) :
    ∃ body,
      (match forms.find? fun f => f.Carries s.toList with
        | some f =>
          (write s).toList = (if f.raw then ['r'] else []) ++ f.quote :: body ++ [f.quote] ∧
            Body false s.toList body
        | none => (write s).toList = '\'' :: body ++ ['\''] ∧ Body true s.toList body) ∧
      (body = s.toList ↔
        Plain s.toList ∧ ¬ ('\'' ∈ s.toList ∧ '"' ∈ s.toList)) := by
  rw [write, String.toList_ofList, encode, form?_eq_find?]
  cases hform : forms.find? fun f => f.Carries s.toList with
  | some f =>
    have hcarries : f.Carries s.toList := by simpa using List.find?_some hform
    have hbody : Body false s.toList (s.toList.flatMap escapeChar) :=
      body_flatMap written_escapeChar s.toList
    exact ⟨_, ⟨rfl, hbody⟩, hcarries.body_eq_iff (List.mem_of_find?_eq_some hform) hbody⟩
  | none =>
    have hnone : ∀ f ∈ forms, ¬ f.Carries s.toList := by
      simpa using List.find?_eq_none.1 hform
    have hbody : Body true s.toList (s.toList.flatMap fun c => (escapeChar c).flatMap protect) :=
      body_flatMap written_protect s.toList
    refine ⟨_, ⟨?_, hbody⟩, body_eq_iff_of_not_carries hnone hbody⟩
    rw [← List.flatMap_assoc]

end ClassCode.Literal
