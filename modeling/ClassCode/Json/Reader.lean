import ClassCode.Json

/-!
# Reading JSON documents

A recursive descent reader over the characters of a document. It reads integers only, keeps the
order of members, joins surrogate pairs and refuses half of one. The depth of the descent is bounded
by the length of the text, since every level consumes at least one character.
-/

namespace ClassCode.Json

/-- Whether the character may stand between the tokens of a document. -/
def isBlank (c : Char) : Bool := c == ' ' || c == '\n' || c == '\t' || c == '\r'

/-- The text behind its leading blanks. -/
def skipBlanks (s : List Char) : List Char := s.dropWhile isBlank

/-- The character behind a backslash and a letter. -/
def unletter? : Char → Option Char
  | '"' => some '"'
  | '\\' => some '\\'
  | '/' => some '/'
  | 'b' => some '\x08'
  | 'f' => some '\x0c'
  | 'n' => some '\n'
  | 'r' => some '\r'
  | 't' => some '\t'
  | _ => none

/-- The character with the given code, unless the code is half of a surrogate pair. -/
def charOf? (n : Nat) : Option Char :=
  if n.isValidChar then some (Char.ofNat n) else none

/-- The code that a surrogate pair stands for. -/
def joinPair? (high low : Nat) : Option Nat :=
  if 0xd800 ≤ high ∧ high < 0xdc00 ∧ 0xdc00 ≤ low ∧ low < 0xe000 then
    some (0x10000 + (high - 0xd800) * 0x400 + (low - 0xdc00))
  else none

/-- Reads one character of a string, an escape sequence or a pair of them included. -/
def readChar? : List Char → Option (Char × List Char)
  | '\\' :: 'u' :: a :: b :: c :: d :: rest => do
    let unit ← Text.hexNumber? [a, b, c, d]
    match charOf? unit, rest with
    | some found, _ => some (found, rest)
    | none, '\\' :: 'u' :: e :: f :: g :: h :: rest' => do
      let low ← Text.hexNumber? [e, f, g, h]
      let code ← joinPair? unit low
      let found ← charOf? code
      some (found, rest')
    | none, _ => none
  | '\\' :: l :: rest => (unletter? l).map fun c => (c, rest)
  | c :: rest => if c.toNat < 0x20 || c == '\\' then none else some (c, rest)
  | [] => none

/-- Reads the rest of a string up to and including its closing quote, in at most `fuel`
characters. -/
def readText? : Nat → List Char → Option (List Char × List Char)
  | 0, _ => none
  | fuel + 1, s =>
    match s with
    | '"' :: rest => some ([], rest)
    | _ => do
      let (c, rest) ← readChar? s
      let (text, rest) ← readText? fuel rest
      some (c :: text, rest)

/-- Reads a string whose opening quote comes first. -/
def readString? : List Char → Option (String × List Char)
  | '"' :: rest => (readText? rest.length rest).map fun (text, rest) => (String.ofList text, rest)
  | _ => none

/-- Reads the digits of a number without superfluous zeros in front. -/
def readDigits? (s : List Char) : Option (Nat × List Char) :=
  match s.takeWhile Char.isDigit with
  | [] => none
  | '0' :: _ :: _ => none
  | digits => some (Nat.ofDigitChars 10 digits 0, s.dropWhile Char.isDigit)

/-- Reads an integer. -/
def readNumber? : List Char → Option (Int × List Char)
  | '-' :: rest => (readDigits? rest).map fun (n, rest) => (-(n : Int), rest)
  | s => (readDigits? s).map fun (n, rest) => ((n : Int), rest)

/-- The text behind a word, if it starts with that word. -/
def readWord? (word : String) (s : List Char) : Option (List Char) :=
  if word.toList.isPrefixOf s then some (s.drop word.length) else none

mutual

/-- Reads one value that starts with the first character. -/
def readValue? : Nat → List Char → Option (Json × List Char)
  | 0, _ => none
  | fuel + 1, s =>
    match s with
    | 'n' :: _ => (readWord? "null" s).map fun rest => (.null, rest)
    | 't' :: _ => (readWord? "true" s).map fun rest => (.bool true, rest)
    | 'f' :: _ => (readWord? "false" s).map fun rest => (.bool false, rest)
    | '"' :: _ => (readString? s).map fun (text, rest) => (.str text, rest)
    | '[' :: rest =>
      match skipBlanks rest with
      | ']' :: rest => some (.arr [], rest)
      | rest => do
        let (items, rest) ← readItems? fuel rest
        some (.arr items, rest)
    | '{' :: rest =>
      match skipBlanks rest with
      | '}' :: rest => some (.obj [], rest)
      | rest => do
        let (members, rest) ← readMembers? fuel rest
        some (.obj members, rest)
    | _ => (readNumber? s).map fun (n, rest) => (.num n, rest)

/-- Reads the items of an array up to and including its closing bracket. -/
def readItems? : Nat → List Char → Option (List Json × List Char)
  | 0, _ => none
  | fuel + 1, s => do
    let (item, rest) ← readValue? fuel s
    match skipBlanks rest with
    | ']' :: rest => some ([item], rest)
    | ',' :: rest => do
      let (items, rest) ← readItems? fuel (skipBlanks rest)
      some (item :: items, rest)
    | _ => none

/-- Reads the members of an object up to and including its closing brace. -/
def readMembers? : Nat → List Char → Option (List (String × Json) × List Char)
  | 0, _ => none
  | fuel + 1, s => do
    let (key, rest) ← readString? s
    match skipBlanks rest with
    | ':' :: rest => do
      let (value, rest) ← readValue? fuel (skipBlanks rest)
      match skipBlanks rest with
      | '}' :: rest => some ([(key, value)], rest)
      | ',' :: rest => do
        let (members, rest) ← readMembers? fuel (skipBlanks rest)
        some ((key, value) :: members, rest)
      | _ => none
    | _ => none

end

/-- Reads a document: one value with nothing but blanks around it. -/
def read? (s : String) : Option Json := do
  let (j, rest) ← readValue? (2 * s.length + 1) (skipBlanks s.toList)
  if (skipBlanks rest).isEmpty then some j else none

end ClassCode.Json
