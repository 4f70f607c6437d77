import ClassCode.Value

/-!
# Layouts

How a constructor invocation is laid out. On several lines, every argument has a line of its own,
indented by a number of spaces.
-/

namespace ClassCode

/-- The layout of a constructor invocation. -/
structure Layout where
  multiline : Bool
  /-- The number of spaces before an argument on its own line. -/
  indent : Int
  /-- Whether the invocation starts with the keyword `new`. -/
  newKeyword : Bool
  deriving Repr, DecidableEq

namespace Layout

/-- The layout that is used when nothing else is asked for. -/
def standard : Layout := ⟨false, 6, false⟩

/-- The layout in words. -/
def describe (l : Layout) : String :=
  "InvocationLayout(multiline=" ++ (Value.bool l.multiline).text ++ ", indent=" ++
    (Value.int l.indent).text ++ ", new_keyword=" ++ (Value.bool l.newKeyword).text ++ ")"

/-- What stands before an argument on its own line. -/
def margin (l : Layout) (capacity : Text.Capacity) : Except Fault String :=
  Text.repeated capacity ' ' l.indent

/-- Arguments in parentheses behind the name of what is invoked. -/
def arrange (l : Layout) (capacity : Text.Capacity) (callee : String) (arguments : List String) :
    Except Fault String :=
  let head := (if l.newKeyword then "new " else "") ++ callee ++ "("
  if arguments.isEmpty then .ok (head ++ ")")
  else if l.multiline then
    (l.margin capacity).map fun margin =>
      head ++ "\n" ++ ",\n".intercalate (arguments.map (margin ++ ·)) ++ ")"
  else .ok (head ++ ", ".intercalate arguments ++ ")")

end Layout

end ClassCode
