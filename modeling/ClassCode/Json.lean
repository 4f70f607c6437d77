import ClassCode.Lists
import ClassCode.Text

/-!
# JSON documents

The values that reports are made of: objects keep the order of their members, and all numbers are
integers. A document is written in ASCII, one member or item on a line, indented by two spaces for
every level.
-/

namespace ClassCode

/-- A JSON value with ordered members and integer numbers. -/
inductive Json where
  | null
  | bool (b : Bool)
  | num (n : Int)
  | str (s : String)
  | arr (items : List Json)
  | obj (members : List (String × Json))
  deriving Repr, Inhabited

namespace Json

/-! ## Equality -/

mutual

/-- Whether two values are equal, with all members in the same order. -/
def identical : Json → Json → Bool
  | .null, .null => true
  | .bool a, .bool b => a == b
  | .num m, .num n => m == n
  | .str s, .str t => s == t
  | .arr as, .arr bs => identicalItems as bs
  | .obj as, .obj bs => identicalMembers as bs
  | _, _ => false

/-- Whether two lists of values are equal. -/
def identicalItems : List Json → List Json → Bool
  | [], [] => true
  | a :: as, b :: bs => identical a b && identicalItems as bs
  | _, _ => false

/-- Whether two lists of members are equal. -/
def identicalMembers : List (String × Json) → List (String × Json) → Bool
  | [], [] => true
  | (k, a) :: as, (l, b) :: bs => k == l && identical a b && identicalMembers as bs
  | _, _ => false

end

mutual

theorem identical_iff : ∀ a b : Json, identical a b = true ↔ a = b
  | .null, b => by cases b <;> simp [identical]
  | .bool _, b => by cases b <;> simp [identical]
  | .num _, b => by cases b <;> simp [identical]
  | .str _, b => by cases b <;> simp [identical]
  | .arr as, b => by cases b <;> simp [identical, identicalItems_iff as]
  | .obj as, b => by cases b <;> simp [identical, identicalMembers_iff as]

theorem identicalItems_iff : ∀ as bs : List Json, identicalItems as bs = true ↔ as = bs
  | [], bs => by cases bs <;> simp [identicalItems]
  | a :: as, bs => by cases bs <;> simp [identicalItems, identical_iff a, identicalItems_iff as]

theorem identicalMembers_iff :
    ∀ as bs : List (String × Json), identicalMembers as bs = true ↔ as = bs
  | [], bs => by cases bs <;> simp [identicalMembers]
  | (k, a) :: as, bs => by
    cases bs with
    | nil => simp [identicalMembers]
    | cons b bs =>
      simp [identicalMembers, identical_iff a, identicalMembers_iff as, Prod.ext_iff]

end

instance : DecidableEq Json := fun a b => decidable_of_iff _ (identical_iff a b)

/-! ## Writing -/

/-- The sixteen-bit units of a character: one below U+10000, otherwise a surrogate pair. -/
def units (c : Char) : List Nat :=
  if c.toNat < 0x10000 then [c.toNat]
  else [0xd800 + (c.toNat - 0x10000) / 0x400, 0xdc00 + (c.toNat - 0x10000) % 0x400]

/-- The letter behind a backslash for the characters that have a short escape sequence. -/
def letter? : Char → Option Char
  | '"' => some '"'
  | '\\' => some '\\'
  | '\x08' => some 'b'
  | '\x0c' => some 'f'
  | '\n' => some 'n'
  | '\r' => some 'r'
  | '\t' => some 't'
  | _ => none

/-- A character inside a JSON string; only U+0020 to U+007E can stand for themselves. -/
def writeChar (c : Char) : List Char :=
  match letter? c with
  | some l => ['\\', l]
  | none =>
    if 0x20 ≤ c.toNat ∧ c.toNat < 0x7f then [c]
    else (units c).flatMap fun u => '\\' :: 'u' :: Text.hex .lower 4 u

/-- A text as a JSON string with its quotes. -/
def writeString (s : String) : List Char :=
  '"' :: s.toList.flatMap writeChar ++ ['"']

/-- An integer in decimal digits, however many it has. -/
def writeNumber : Int → List Char
  | .ofNat n => Nat.toDigits 10 n
  | .negSucc n => '-' :: Nat.toDigits 10 (n + 1)

/-- A line break and the indentation of the given level. -/
def lineBreak (level : Nat) : List Char := '\n' :: List.replicate (2 * level) ' '

mutual

/-- A value as it stands at an indentation level. -/
def writeAt (level : Nat) : Json → List Char
  | .null => "null".toList
  | .bool true => "true".toList
  | .bool false => "false".toList
  | .num n => writeNumber n
  | .str s => writeString s
  | .arr [] => ['[', ']']
  | .arr (j :: js) =>
    '[' :: lineBreak (level + 1) ++ writeAt (level + 1) j ++ writeItems (level + 1) js ++
      lineBreak level ++ [']']
  | .obj [] => ['{', '}']
  | .obj ((k, j) :: ms) =>
    '{' :: lineBreak (level + 1) ++ writeString k ++ ':' :: ' ' :: writeAt (level + 1) j ++
      writeMembers (level + 1) ms ++ lineBreak level ++ ['}']

/-- The items of an array behind the first, each on a line of its own. -/
def writeItems (level : Nat) : List Json → List Char
  | [] => []
  | j :: js => ',' :: lineBreak level ++ writeAt level j ++ writeItems level js

/-- The members of an object behind the first, each on a line of its own. -/
def writeMembers (level : Nat) : List (String × Json) → List Char
  | [] => []
  | (k, j) :: ms =>
    ',' :: lineBreak level ++ writeString k ++ ':' :: ' ' :: writeAt level j ++
      writeMembers level ms

end

/-- The text of a document. -/
def write (j : Json) : String := String.ofList (writeAt 0 j)

/-- The member of an object, if the value is an object that has it. -/
def get? (j : Json) (key : String) : Option Json :=
  match j with
  | .obj members => Keyed.get? members key
  | _ => none

end Json

end ClassCode
