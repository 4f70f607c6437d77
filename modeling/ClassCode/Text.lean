import ClassCode.Fault
import ClassCode.Text.Printable

/-!
# Texts

How texts are written: numbers in hexadecimal digits, texts in quotes with everything escaped that
would not show as itself, texts cut to a number of characters, and a character repeated a number of
times.
-/

namespace ClassCode.Text

/-! ## Hexadecimal digits -/

/-- The two alphabets of hexadecimal digits. -/
inductive HexCase where
  | lower
  | upper
  deriving Repr, DecidableEq

/-- The digit that stands for ten. -/
def HexCase.ten : HexCase → Char
  | .lower => 'a'
  | .upper => 'A'

/-- The digit for a value below sixteen. -/
def hexDigit (case : HexCase) (n : Nat) : Char :=
  if n < 10 then Char.ofNat ('0'.toNat + n) else Char.ofNat (case.ten.toNat + (n - 10))

/-- The lowest `width` hexadecimal digits of `n`, most significant first. -/
def hex (case : HexCase) : Nat → Nat → List Char
  | 0, _ => []
  | width + 1, n => hex case width (n / 16) ++ [hexDigit case (n % 16)]

/-- The value of a hexadecimal digit of either alphabet. -/
def hexValue? (c : Char) : Option Nat :=
  if '0' ≤ c ∧ c ≤ '9' then some (c.toNat - '0'.toNat)
  else if 'a' ≤ c ∧ c ≤ 'f' then some (c.toNat - 'a'.toNat + 10)
  else if 'A' ≤ c ∧ c ≤ 'F' then some (c.toNat - 'A'.toNat + 10)
  else none

/-- The number that a run of hexadecimal digits denotes. -/
def hexNumber? : List Char → Option Nat :=
  List.foldlM (fun n c => (hexValue? c).map (n * 16 + ·)) 0

/-! ## Quoted text -/

/-- The quote that a text is put in: a single one, unless the text has a single quote in it and no
double one. -/
def quoteFor (s : List Char) : Char := if s.contains '\'' && !s.contains '"' then '"' else '\''

/-- A character as it stands inside the given quotes. -/
def quotedChar (quote c : Char) : List Char :=
  if c = quote ∨ c = '\\' then ['\\', c]
  else if c = '\t' then ['\\', 't']
  else if c = '\n' then ['\\', 'n']
  else if c = '\r' then ['\\', 'r']
  else if isPrintable c then [c]
  else if c.toNat < 0x100 then '\\' :: 'x' :: hex .lower 2 c.toNat
  else if c.toNat < 0x10000 then '\\' :: 'u' :: hex .lower 4 c.toNat
  else '\\' :: 'U' :: hex .lower 8 c.toNat

/-- A text in quotes. -/
def quoted (s : String) : String :=
  let quote := quoteFor s.toList
  String.ofList (quote :: s.toList.flatMap (quotedChar quote) ++ [quote])

/-! ## Clipped text -/

/-- The first `limit` characters; with a negative limit, all but the last `-limit`. -/
def initial (limit : Int) (s : List Char) : List Char :=
  if 0 ≤ limit then s.take limit.toNat else s.take (s.length - limit.natAbs)

/-- A text that is longer than the limit, cut there and marked with three dots; any other as it
is. -/
def clip (limit : Int) (s : String) : String :=
  if limit < s.length then String.ofList (initial limit s.toList) ++ "..." else s

/-! ## Repeated characters -/

/-- The least number that is too large for a count, 2 to the power of 63; its negative is the least
count there is. -/
def countBound : Int := 9223372036854775808

/-- How much text there is room for, which depends on the machine: for one character at least, and
for no text whose length is too large for a count. -/
structure Capacity where
  /-- The least length that a text cannot have. -/
  bound : Int
  one_lt_bound : 1 < bound
  bound_le_countBound : bound ≤ countBound

/-- Room for texts of less than 2 to the power of 32 characters, where nothing else is known. -/
def Capacity.standard : Capacity := ⟨4294967296, by decide, by decide⟩

/-- A character written `count` times; not at all if the count is below zero. A text for which there
is no room is refused. -/
def repeated (capacity : Capacity) (c : Char) (count : Int) : Except Fault String :=
  if count < -countBound ∨ countBound ≤ count then .error .countOutOfRange
  else if capacity.bound ≤ count then .error .textTooLong
  else .ok (String.ofList (List.replicate count.toNat c))

end ClassCode.Text
