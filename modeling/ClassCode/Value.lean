import ClassCode.ClassGraph
import ClassCode.Json

/-!
# Values in traces

The arguments and results of traced operations, and their texts. A value has a full text; a quoted
text, which is how it stands inside a collection; and an abridged text for traces, which is cut to
a length and shows the first few items of a collection only. The items of sets are shown in the
order of their full texts.
-/

namespace ClassCode

/-- An argument or a result of a traced operation. -/
inductive Value where
  | none
  | bool (b : Bool)
  | int (n : Int)
  | str (s : String)
  | list (items : List Value)
  | tuple (items : List Value)
  /-- A set, in the order in which its members arrived. -/
  | set (items : List Value)
  /-- A set that cannot be changed, in the order in which its members arrived. -/
  | fixedSet (items : List Value)
  | map (entries : List (String × Value))
  | function (name : String)
  /-- A type of the class model, with the name of its kind and its description. -/
  | type (type : Ty) (kind description : String)
  /-- Any other object, with the name of its kind and its description. -/
  | object (kind description : String)
  deriving Inhabited

namespace Value

/-- Whether the value stands for the lack of one. -/
def isNone : Value → Bool
  | .none => true
  | _ => false

/-! ## Sameness -/

/-- The number that a value counts as, if it does: truth counts as one, falsehood as zero. -/
def number? : Value → Option Int
  | .int n => some n
  | .bool b => some (if b then 1 else 0)
  | _ => Option.none

mutual

/-- Whether two values are the same member of a set. -/
def same : Value → Value → Bool
  | .none, .none => true
  | .str s, .str t => s == t
  | .tuple as, .tuple bs => sameAll as bs
  | .fixedSet as, .fixedSet bs => as.length == bs.length && within as bs
  | .type t _ _, .type u _ _ => t == u
  | a, b =>
    match number? a, number? b with
    | some m, some n => m == n
    | _, _ => false

/-- Whether two lists of values are the same, place by place. -/
def sameAll : List Value → List Value → Bool
  | [], [] => true
  | a :: as, b :: bs => same a b && sameAll as bs
  | _, _ => false

/-- Whether every value of the first list is in the second. -/
def within : List Value → List Value → Bool
  | [], _ => true
  | a :: as, bs => bs.any (same a) && within as bs

end

instance : BEq Value := ⟨same⟩

/-! ## Full texts -/

/-- The name of a value's kind. -/
def kind : Value → String
  | .none => "NoneType"
  | .bool _ => "bool"
  | .int _ => "int"
  | .str _ => "str"
  | .list _ => "list"
  | .tuple _ => "tuple"
  | .set _ => "set"
  | .fixedSet _ => "frozenset"
  | .map _ => "dict"
  | .function _ => "function"
  | .type _ kind _ => kind
  | .object kind _ => kind

/-- The fault of asking a value for what only values of other kinds have. -/
def lacks (v : Value) (member : String) : Fault := .unsuitable (some (v.kind, member))

/-- Texts separated by commas. -/
def commaSeparated (items : List String) : String := ", ".intercalate items

/-- Texts in square brackets. -/
def bracketed (items : List String) : String := "[" ++ commaSeparated items ++ "]"

/-- Texts in braces. -/
def braced (items : List String) : String := "\x7b" ++ commaSeparated items ++ "\x7d"

/-- Texts in parentheses; a single one is followed by a comma. -/
def parenthesised : List String → String
  | [item] => "(" ++ item ++ ",)"
  | items => "(" ++ commaSeparated items ++ ")"

mutual

/-- The text of a value inside a collection: strings are quoted. -/
def quoted : Value → String
  | .none => "None"
  | .bool b => if b then "True" else "False"
  | .int n => toString n
  | .str s => Text.quoted s
  | .list items => bracketed (quotedAll items)
  | .tuple items => parenthesised (quotedAll items)
  | .set items => if items.isEmpty then "set()" else braced (quotedAll items)
  | .fixedSet items =>
    if items.isEmpty then "frozenset()" else "frozenset(" ++ braced (quotedAll items) ++ ")"
  | .map entries => braced (quotedEntries entries)
  | .function name => "<function " ++ name ++ ">"
  | .type _ _ description => description
  | .object _ description => description

/-- The quoted texts of the values in a list. -/
def quotedAll : List Value → List String
  | [] => []
  | v :: vs => quoted v :: quotedAll vs

/-- The quoted texts of the entries of a map. -/
def quotedEntries : List (String × Value) → List String
  | [] => []
  | (k, v) :: entries => (Text.quoted k ++ ": " ++ quoted v) :: quotedEntries entries

end

/-- The full text of a value: a string as it is, anything else as inside a collection. Numbers are
written out however many digits they have. -/
def text : Value → String
  | .str s => s
  | v => quoted v

/-! ## Abridged texts -/

/-- The first `count` texts, with a note on how many more there are. -/
def abridge (count : Nat) (items : List String) : List String :=
  if items.length ≤ count then items
  else items.take count ++ ["... +" ++ toString (items.length - count) ++ " more"]

/-- Texts in the order of their keys; texts with equal keys stay as they come. -/
def inKeyOrder (keyed : List (String × String)) : List String :=
  (Sorting.sort (fun a b => a.1 ≤ b.1) keyed).map (·.2)

mutual

/-- The text of a value in a trace, cut to a length. Collections show five items, maps three, each
with a quarter of the length. -/
def abridged (limit : Int) : Value → String
  | .none => "None"
  | .bool b => if b then "True" else "False"
  | .int n => toString n
  | .str s => Text.clip limit s
  | .list items => Text.clip limit (bracketed (abridge 5 (abridgedAll (limit / 4) items)))
  | .tuple items => Text.clip limit (bracketed (abridge 5 (abridgedAll (limit / 4) items)))
  | .set items =>
    Text.clip limit (bracketed (abridge 5 (inKeyOrder
      ((items.map text).zip (abridgedAll (limit / 4) items)))))
  | .fixedSet items =>
    Text.clip limit (bracketed (abridge 5 (inKeyOrder
      ((items.map text).zip (abridgedAll (limit / 4) items)))))
  | .map entries => Text.clip limit (braced (abridge 3 (abridgedEntries (limit / 4) entries)))
  | .function name => name
  | .type _ _ description => Text.clip limit description
  | .object _ description => Text.clip limit description

/-- The abridged texts of the values in a list. -/
def abridgedAll (limit : Int) : List Value → List String
  | [] => []
  | v :: vs => abridged limit v :: abridgedAll limit vs

/-- The abridged texts of the entries of a map. -/
def abridgedEntries (limit : Int) : List (String × Value) → List String
  | [] => []
  | (k, v) :: entries => (k ++ ": " ++ abridged limit v) :: abridgedEntries limit entries

end

/-- What a trace notes about a result: the name of its kind, the size of a list, tuple or set, and
the first hundred characters of its full text. -/
def resultInfo : Value → List (String × Json)
  | .none => [("result", .str "None")]
  | v =>
    let size := match v with
      | .list items => [("result_size", Json.num items.length)]
      | .tuple items => [("result_size", Json.num items.length)]
      | .set items => [("result_size", Json.num items.length)]
      | _ => []
    ("result_type", .str v.kind) :: size ++
      [("result_value", .str (String.ofList (v.text.toList.take 100)))]

/-! ## Members -/

mutual

/-- The kind of the first part of a value that keeps it from being a member of a set, if there is
one. -/
def unhashable? : Value → Option String
  | .list _ => some "list"
  | .set _ => some "set"
  | .map _ => some "dict"
  | .tuple items => firstUnhashable? items
  | _ => Option.none

/-- The first such kind among values. -/
def firstUnhashable? : List Value → Option String
  | [] => Option.none
  | v :: vs => unhashable? v <|> firstUnhashable? vs

end

/-- What a value yields one by one: the items of a collection, the keys of a map, the characters of
a string. -/
def items : Value → Except Fault (List Value)
  | .str s => .ok (s.toList.map fun c => .str (String.ofList [c]))
  | .list items => .ok items
  | .tuple items => .ok items
  | .set items => .ok items
  | .fixedSet items => .ok items
  | .map entries => .ok (entries.map fun entry => .str entry.1)
  | v => .error (.badCall ("\x27" ++ v.kind ++ "\x27 object is not iterable"))

/-- What a value yields, if a set can hold it. -/
def members (v : Value) : Except Fault (List Value) := do
  let items ← v.items
  match firstUnhashable? items with
  | some kind => .error (.badCall ("unhashable type: \x27" ++ kind ++ "\x27"))
  | Option.none => .ok items

/-- The string that a value is, if it is one. -/
def string? : Value → Option String
  | .str s => some s
  | _ => Option.none

/-- The names among the members of a value. Other members are allowed but not the name of
anything. -/
def names (v : Value) : Except Fault (List String) :=
  v.members.map fun members => members.filterMap string?

/-- The members of a value, all of which have to be names. -/
def onlyNames (v : Value) : Except Fault (List String) := do
  let members ← v.members
  match members.find? fun member => member.string?.isNone with
  | some member => .error (.badCall ("expected str instance, " ++ member.kind ++ " found"))
  | Option.none => .ok (members.filterMap string?)

end Value

namespace ClassGraph

/-- A type as a value. -/
def typeValue (g : ClassGraph) (t : Ty) : Value := .type t (g.kindName t) (g.describe t)

/-- A field as a value. -/
def fieldValue (g : ClassGraph) (f : FieldId) : Value :=
  .object "FieldDescriptor" (g.fieldLabel (g.field f))

end ClassGraph

end ClassCode
