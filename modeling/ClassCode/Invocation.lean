import ClassCode.Codegen
import ClassCode.Literal

/-!
# Constructor invocations

Code that invokes the unnamed constructor of a class. Every constructor parameter whose name is
available gets an argument, written by a function of the caller; optional parameters that are not
available are left out, and a required one is a fault. Names that can be set on the instance and
that no argument sets are handed back.
-/

namespace ClassCode

/-- The arguments of a call, as code. -/
structure CallArguments where
  /-- The arguments that are passed by position. -/
  positional : List String
  /-- The arguments that are passed by name. -/
  named : List (String × String)
  deriving Repr, DecidableEq

/-- The arguments as they stand in the call: those by position first. -/
def CallArguments.texts (a : CallArguments) : List String :=
  a.positional ++ a.named.map fun argument => argument.1 ++ ": " ++ argument.2

/-- A written invocation and what is left to do about it. -/
structure Invocation where
  /-- The code of the invocation. -/
  content : String
  arguments : CallArguments
  /-- The names still to be set on the instance, none twice. -/
  toSet : List String
  /-- All names that are set by the constructor or afterwards, none twice. -/
  used : List String
  deriving Repr, DecidableEq

/-- A function that writes the argument for a parameter, given its name. -/
abbrev ArgumentWriter (σ : Type) : Type := String → Parameter → Codegen σ String

namespace Constructor

/-- The parameters that get an argument, in declaration order. A required parameter that is not
available is a fault, for which a reason may be known. -/
def consumed (className : String) (available : List String)
    (reasons : List (String × Option String)) : List Parameter → Except Fault (List Parameter)
  | [] => .ok []
  | p :: ps =>
    if available.contains p.name then (consumed className available reasons ps).map (p :: ·)
    else if p.required then
      .error (.missingArgument className p.name (reasons.lookup p.name).join)
    else consumed className available reasons ps

end Constructor

namespace Invocation

/-- An invocation in words: its code quoted, and the names to set in order. -/
def describe (i : Invocation) : String :=
  let names := Sorting.sort (fun a b => a ≤ b) i.toSet
  "ConstructorData(" ++ Text.quoted i.content ++ ", fields_to_set=" ++
    Value.bracketed (names.map Text.quoted) ++ ")"

/-- An invocation as the result of a traced operation. -/
def value (i : Invocation) : Value := .object "ConstructorData" i.content

/-- Writes the invocation of a constructor: arguments by position first, then those by name. Before
any argument is written, parameters of undefined type are warned about and the writeable names are
taken, if they can be; the arguments are arranged when all are written. -/
def write {σ : Type} (g : ClassGraph) (c : ClassId) (k : Constructor) (available : List String)
    (writeable : Except Fault (List String)) (reasons : List (String × Option String))
    (writer : ArgumentWriter σ) (sink : Option SinkId) (capacity : Text.Capacity)
    (layout : Layout) : Codegen σ Invocation := do
  let parameters ←
    Codegen.ofExcept (Constructor.consumed (g.className c) available reasons k.parameters)
  let positional := parameters.filter fun p => !p.named
  let named := parameters.filter fun p => p.named
  Codegen.warnUndefined sink ((positional ++ named).map Parameter.element)
  let writeable ← Codegen.ofExcept writeable
  let positionalTexts ← positional.mapM fun p => writer p.name p
  let namedTexts ← named.mapM fun p => (p.name, ·) <$> writer p.name p
  let arguments : CallArguments := ⟨positionalTexts, namedTexts⟩
  let callee := g.className c ++ g.typeParamList c false
  let content ← Codegen.ofExcept (layout.arrange capacity callee arguments.texts)
  let taken := (parameters.map (·.name)).eraseDups
  let toSet := writeable.eraseDups.filter fun name => !taken.contains name
  pure { content, arguments, toSet, used := taken ++ toSet }

end Invocation

end ClassCode
