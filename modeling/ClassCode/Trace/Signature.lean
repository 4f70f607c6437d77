import ClassCode.Value

/-!
# Call signatures

Which arguments a call gives to which parameters. Arguments are passed by position or by name; a
parameter without an argument takes its default. Surplus arguments are gathered if the signature
has a place for them, and refused otherwise.
-/

namespace ClassCode

/-- The parameters of an operation. -/
structure Signature where
  /-- Parameters that take arguments by position or by name, with their defaults. -/
  positional : List (String × Option Value)
  /-- What gathers surplus arguments passed by position. -/
  rest : Option String
  /-- Parameters that take arguments by name only, with their defaults. -/
  namedOnly : List (String × Option Value)
  /-- What gathers surplus arguments passed by name. -/
  extra : Option String

namespace Signature

/-- The fault of a call without an argument for a parameter. -/
def missing (name : String) : Fault :=
  .badCall ("missing a required argument: " ++ Text.quoted name)

/-- Gives arguments by position to parameters and returns what is left over. An argument that is
passed by name, too, does not fit. -/
def bindPositional (named : List (String × Value)) :
    List (String × Option Value) → List Value → Except Fault (List (String × Value) × List Value)
  | [], arguments => .ok ([], arguments)
  | (name, default) :: parameters, [] => do
    let value ← match named.lookup name, default with
      | some value, _ => .ok value
      | none, some value => .ok value
      | none, none => .error (missing name)
    let (bound, left) ← bindPositional named parameters []
    .ok ((name, value) :: bound, left)
  | (name, _) :: parameters, argument :: arguments => do
    if (named.lookup name).isSome then
      .error (.badCall ("multiple values for argument " ++ Text.quoted name))
    let (bound, left) ← bindPositional named parameters arguments
    .ok ((name, argument) :: bound, left)

/-- Gives arguments by name to parameters. -/
def bindNamed (named : List (String × Value)) :
    List (String × Option Value) → Except Fault (List (String × Value))
  | [] => .ok []
  | (name, default) :: parameters => do
    let value ← match named.lookup name, default with
      | some value, _ => .ok value
      | none, some value => .ok value
      | none, none => .error (missing name)
    let bound ← bindNamed named parameters
    .ok ((name, value) :: bound)

/-- The names of the parameters that take arguments by name. -/
def names (s : Signature) : List String := (s.positional ++ s.namedOnly).map (·.1)

/-- The arguments of a call by parameter, in the order of the signature. -/
def bind (s : Signature) (arguments : List Value) (named : List (String × Value)) :
    Except Fault (List (String × Value)) := do
  let (first, left) ← bindPositional named s.positional arguments
  let rest ← match s.rest, left with
    | some name, left => .ok [(name, Value.tuple left)]
    | none, [] => .ok []
    | none, _ => .error (.badCall "too many positional arguments")
  let byName ← bindNamed named s.namedOnly
  let surplus := named.filter fun argument => !s.names.contains argument.1
  let extra ← match s.extra, surplus with
    | some name, surplus => .ok [(name, Value.map surplus)]
    | none, [] => .ok []
    | none, (name, _) :: _ =>
      .error (.badCall ("got an unexpected keyword argument " ++ Text.quoted name))
  .ok (first ++ rest ++ byName ++ extra)

end Signature

end ClassCode
