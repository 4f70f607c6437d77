import ClassCode.Text

/-!
# String literals of generated code

A text becomes a single-line string literal in the shortest form that is safe. There are four
forms, `'…'`, `"…"`, `r'…'` and `r"…"`. A raw body stands for itself; in the others a backslash
starts an escape sequence and a dollar sign starts an interpolation. When none of the four can hold
the text as it is, every quote and dollar sign in it is escaped between single quotes.
-/

namespace ClassCode.Literal

/-- The delimiters of a literal. -/
structure Form where
  /-- Whether the body is raw, written with a leading `r`. -/
  raw : Bool
  /-- The quote on either side of the body. -/
  quote : Char
  deriving Repr, DecidableEq

/-- Whether the character is a control character: below U+0020, or U+007F. -/
def isControl (c : Char) : Bool := c.toNat < 0x20 || c.toNat == 0x7f

/-- The letter that names a character in an escape sequence, for those that have one. -/
def letter? : Char → Option Char
  | '\x08' => some 'b'
  | '\t' => some 't'
  | '\n' => some 'n'
  | '\x0b' => some 'v'
  | '\x0c' => some 'f'
  | '\r' => some 'r'
  | '\\' => some '\\'
  | _ => none

/-- A character as it stands in a body that is not raw, its delimiters aside: backslashes and
control characters become escape sequences. -/
def escapeChar (c : Char) : List Char :=
  match letter? c with
  | some l => ['\\', l]
  | none => if isControl c then '\\' :: 'x' :: Text.hex .upper 2 c.toNat else [c]

/-- Whether the character means something special depending on the delimiters. -/
def isSensitive (c : Char) : Bool := c == '$' || c == '\'' || c == '"'

/-- A sensitive character behind a backslash, any other as it is. -/
def protect (c : Char) : List Char := if isSensitive c then ['\\', c] else [c]

/-- The first form, in the order `'…'`, `"…"`, `r'…'`, `r"…"`, that can hold the text without
escaping a quote or a dollar sign. -/
def form? (s : List Char) : Option Form :=
  let single := s.contains '\''
  let double := s.contains '"'
  let asIs := s.all fun c => (letter? c).isNone && !isControl c
  if !s.contains '$' then
    if !single then some ⟨false, '\''⟩
    else if !double then some ⟨false, '"'⟩
    else none
  else if asIs then
    if !single then some ⟨true, '\''⟩
    else if !double then some ⟨true, '"'⟩
    else none
  else none

/-- The literal for a text, as characters. -/
def encode (s : List Char) : List Char :=
  let body := s.flatMap escapeChar
  match form? s with
  | some f => (if f.raw then ['r'] else []) ++ f.quote :: body ++ [f.quote]
  | none => '\'' :: body.flatMap protect ++ ['\'']

/-- The literal for a text. -/
def write (s : String) : String := String.ofList (encode s.toList)

end ClassCode.Literal
