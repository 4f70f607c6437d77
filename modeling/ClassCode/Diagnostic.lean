import ClassCode.Json
import ClassCode.Span
import ClassCode.Value

/-!
# Diagnostics

Messages about a class model, each with a severity and perhaps the place in the source that it is
about.
-/

namespace ClassCode

/-- How serious a diagnostic is. -/
inductive Severity where
  | info
  | warning
  | error
  deriving Repr, DecidableEq

namespace Severity

/-- The name of a severity. -/
def name : Severity → String
  | .info => "info"
  | .warning => "warning"
  | .error => "error"

/-- The severity that a value names. -/
def ofValue (v : Value) : Except Fault Severity :=
  match v with
  | .str "info" => .ok .info
  | .str "warning" => .ok .warning
  | .str "error" => .ok .error
  | _ => .error (.unknownSeverity v.quoted)

end Severity

/-- A message about the class model. -/
structure Diagnostic where
  severity : Severity
  message : String
  span : Option Span
  deriving Repr, DecidableEq

namespace Diagnostic

/-- The diagnostic on one line, with the location if it has one. -/
def line (d : Diagnostic) : String :=
  d.severity.name ++ ": " ++ d.message ++ (match d.span with
    | some s => " (" ++ s.location ++ ")"
    | none => "")

/-- A location as a JSON object. -/
def spanJson (s : Span) : Json :=
  .obj [("uri", .str s.uri), ("line", .num s.line), ("column", .num s.column),
    ("length", .num s.length), ("text", match s.text with
      | some text => .str text
      | none => .null)]

/-- The diagnostic as a JSON object. -/
def json (d : Diagnostic) : Json :=
  .obj [("severity", .str d.severity.name), ("message", .str d.message),
    ("span", match d.span with
      | some s => spanJson s
      | none => .null)]

end Diagnostic

/-- What a warning about a declaration needs to know of it. -/
structure Element where
  name : String
  type : Ty
  span : Option Span
  deriving Repr

/-- A field as an element to warn about. -/
def Field.element (f : Field) : Element := ⟨f.name, f.type, f.span⟩

/-- A parameter as an element to warn about. -/
def Parameter.element (p : Parameter) : Element := ⟨p.name, p.type, p.span⟩

namespace Element

/-- The first line of a warning about an undefined type. -/
def undefinedTypeMessage : String :=
  "This element has an undefined type. It may cause issues when generated code."

/-- The warning about an element of undefined type: its place in the source with the declaration
marked, or its name when the place is not known. -/
def undefinedTypeWarning (capacity : Text.Capacity) (e : Element) : Except Fault Diagnostic :=
  match e.span with
  | none => .ok ⟨.warning, undefinedTypeMessage ++ "\n" ++ e.name, none⟩
  | some s => (s.highlight? capacity).map fun highlight =>
    ⟨.warning, "\n".intercalate ([undefinedTypeMessage, s.location] ++ highlight.toList), some s⟩

/-- The warnings about the elements whose type could not be resolved, up to the first of them that
cannot be written, and the fault of that one, if any. -/
def undefinedTypeWarnings (capacity : Text.Capacity) :
    List Element → List Diagnostic × Except Fault Unit
  | [] => ([], .ok ())
  | e :: es =>
    if e.type.isUndefined then
      match e.undefinedTypeWarning capacity with
      | .ok warning =>
        let (warnings, outcome) := undefinedTypeWarnings capacity es
        (warning :: warnings, outcome)
      | .error fault => ([], .error fault)
    else undefinedTypeWarnings capacity es

end Element

end ClassCode
