/-!
# Faults

The causes for which an operation can fail. Each has a kind, the name under which reports and traces
show it, and a text. Most also have a message, which is a text of this library.

Not every fault is an error. A request to stop goes past whatever handles errors, tracers included.
-/

namespace ClassCode

/-- The kinds of fault that a caller's own function may raise. -/
inductive RaisedKind where
  | generation
  | construction
  | value
  | runtime
  /-- Any other error, by its name. -/
  | error (name : String)
  /-- A request to stop, by its name, which is no error: to exit, to heed an interrupt of the user
  or to close a generator. -/
  | stop (name : String)
  deriving Repr, DecidableEq

/-- The cause of a failure. -/
inductive Fault where
  /-- The class to construct has no constructor. -/
  | noConstructor (className : String)
  /-- A required constructor argument is not available, perhaps for a known reason. -/
  | missingArgument (className parameter : String) (reason : Option String)
  /-- A class was given more or fewer type arguments than it has type parameters. -/
  | argumentCount (expected : Nat) (declaration : String)
  /-- A type that is no class was used as one. -/
  | notAClass (description : String)
  /-- A bare type does not say whether it holds type variables. -/
  | undecidedVariables
  /-- A severity that does not exist, as quoted text. -/
  | unknownSeverity (quoted : String)
  /-- An operation was given something that lacks what it needs: the name of its kind and that of
  what it lacks, where they are known. -/
  | unsuitable (lack : Option (String × String) := none)
  /-- The arguments of a call do not fit, and a text that says why. -/
  | badCall (text : String := "")
  /-- A fault of a caller's function. -/
  | raised (kind : RaisedKind) (message : String)
  /-- A number is too large or too small to count with. -/
  | countOutOfRange
  /-- A text is longer than can be held. -/
  | textTooLong
  /-- A search has no end, or none within its limit. -/
  | endlessSearch
  deriving Repr, DecidableEq

/-- The name of a kind of raised fault. -/
def RaisedKind.name : RaisedKind → String
  | .generation => "SourceGenError"
  | .construction => "ConstructionError"
  | .value => "ValueError"
  | .runtime => "RuntimeError"
  | .error name => name
  | .stop name => name

/-- Whether a kind of raised fault is that of an error. -/
def RaisedKind.isError : RaisedKind → Bool
  | .stop _ => false
  | _ => true

namespace Fault

/-- The name of a fault's kind. -/
def kind : Fault → String
  | .noConstructor _ => "ConstructionError"
  | .missingArgument _ _ _ => "ConstructionError"
  | .argumentCount _ _ => "AssertionError"
  | .notAClass _ => "AssertionError"
  | .undecidedVariables => "NotImplementedError"
  | .unknownSeverity _ => "ValueError"
  | .unsuitable _ => "AttributeError"
  | .badCall _ => "TypeError"
  | .raised k _ => k.name
  | .countOutOfRange => "OverflowError"
  | .textTooLong => "MemoryError"
  | .endlessSearch => "RecursionError"

/-- Whether a fault is an error. All are, but for requests to stop. -/
def isError : Fault → Bool
  | .raised k _ => k.isError
  | _ => true

/-- The message of a fault, for those that have one. -/
def message? : Fault → Option String
  | .noConstructor className =>
    some ("The class \x60" ++ className ++ "\x60 has no default constructor.")
  | .missingArgument className parameter reason =>
    let sentence := "Cannot populate the required constructor argument: " ++ className ++ "." ++
      parameter ++ "."
    some (match reason with
      | some reason => sentence ++ " " ++ reason
      | none => sentence)
  | .argumentCount expected declaration =>
    some ("You should provide " ++ toString expected ++ " types for " ++ declaration)
  | .notAClass description => some (description ++ " is not a class declaration")
  | .undecidedVariables => some "You have to implement has_type_variables()"
  | .unknownSeverity quoted => some (quoted ++ " is not a valid Severity")
  | .unsuitable _ => none
  | .badCall _ => none
  | .raised _ message => some message
  | .countOutOfRange => none
  | .textTooLong => none
  | .endlessSearch => none

/-- The text of a fault: its message, or else what the language has to say of it. -/
def text (e : Fault) : String :=
  match e with
  | .unsuitable (some (kind, member)) =>
    "\x27" ++ kind ++ "\x27 object has no attribute \x27" ++ member ++ "\x27"
  | .badCall text => text
  | .countOutOfRange => "cannot fit \x27int\x27 into an index-sized integer"
  | .endlessSearch => "maximum recursion depth exceeded"
  | e => e.message?.getD ""

/-- The class that could not be constructed, where a fault names one. -/
def className? : Fault → Option String
  | .noConstructor className => some className
  | .missingArgument className _ _ => some className
  | _ => none

/-- The constructor parameter that could not be filled, where a fault names one. -/
def parameter? : Fault → Option String
  | .missingArgument _ parameter _ => some parameter
  | _ => none

/-- Whether the fault is that an instance cannot be constructed. -/
def isConstruction : Fault → Bool
  | .noConstructor _ => true
  | .missingArgument _ _ _ => true
  | .raised .construction _ => true
  | _ => false

end Fault

end ClassCode
