import ClassCode.Literal

/-!
# Reading string literals

A reader for one single-line literal at the start of a text. It returns the value that the literal
denotes together with the text behind it, and refuses control characters, unknown escape sequences
and interpolations.
-/

namespace ClassCode.Literal

/-- The character that a letter behind a backslash stands for. -/
def unletter? : Char → Option Char
  | 'b' => some '\x08'
  | 't' => some '\t'
  | 'n' => some '\n'
  | 'v' => some '\x0b'
  | 'f' => some '\x0c'
  | 'r' => some '\r'
  | '\\' => some '\\'
  | '\'' => some '\''
  | '"' => some '"'
  | '$' => some '$'
  | _ => none

/-- Puts a character in front of the value that was read. -/
def withHead (c : Char) (found : List Char × List Char) : List Char × List Char :=
  (c :: found.1, found.2)

/-- Reads a raw body up to and including its closing quote. -/
def readRaw (quote : Char) : List Char → Option (List Char × List Char)
  | [] => none
  | c :: rest =>
    if c = quote then some ([], rest)
    else if isControl c then none
    else (readRaw quote rest).map (withHead c)

/-- Reads a body with escape sequences up to and including its closing quote. -/
def readEscaped (quote : Char) : List Char → Option (List Char × List Char)
  | [] => none
  | '\\' :: 'x' :: high :: low :: rest =>
    match Text.hexNumber? [high, low] with
    | some n => (readEscaped quote rest).map (withHead (Char.ofNat n))
    | none => none
  | '\\' :: l :: rest =>
    match unletter? l with
    | some c => (readEscaped quote rest).map (withHead c)
    | none => none
  | c :: rest =>
    if c = quote then some ([], rest)
    else if isControl c || c == '\\' || c == '$' then none
    else (readEscaped quote rest).map (withHead c)

/-- Whether the character can delimit a literal. -/
def isQuote (c : Char) : Bool := c == '\'' || c == '"'

/-- Reads one literal and returns its value and the text behind it. -/
def read? : List Char → Option (List Char × List Char)
  | 'r' :: quote :: rest => if isQuote quote then readRaw quote rest else none
  | quote :: rest => if isQuote quote then readEscaped quote rest else none
  | [] => none

end ClassCode.Literal
