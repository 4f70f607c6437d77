import ClassCode.Text

/-!
# Source spans

Where a declaration stands in its source file, and how diagnostics point at it.
-/

namespace ClassCode

/-- The location of a declaration. Lines and columns count from one. -/
structure Span where
  uri : String
  line : Int
  column : Int
  length : Int
  /-- The source line that holds the declaration. -/
  text : Option String
  deriving Repr, DecidableEq

namespace Span

/-- The location in the form that tools recognise. Its numbers are written out however many digits
they have. -/
def location (s : Span) : String :=
  s.uri ++ ":" ++ toString s.line ++ ":" ++ toString s.column

/-- A row of carets under the declaration; at least one, whatever its length. -/
def marker (s : Span) (capacity : Text.Capacity) : Except Fault String := do
  let blank ← Text.repeated capacity ' ' (s.column - 1)
  let carets ← Text.repeated capacity '^' (max s.length 1)
  pure (blank ++ carets)

/-- The source line with the declaration marked on the line below, if the text is known. -/
def highlight? (s : Span) (capacity : Text.Capacity := .standard) : Except Fault (Option String) :=
  match s.text with
  | none => .ok none
  | some text => (s.marker capacity).map fun marker => some (text ++ "\n" ++ marker)

end Span

end ClassCode
