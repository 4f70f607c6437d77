import ClassCode.Codegen
import ClassCode.Trace.Signature

/-!
# Probes

An operation for trying out a tracer: it has a parameter of every sort, does nothing with them, and
returns a given result or fails with a given fault. How it is traced can be chosen.
-/

namespace ClassCode

/-- How a probe is traced and what it does. -/
structure Probe where
  /-- The name that traces show; an empty one is as good as none. -/
  name : Option String
  /-- The parameters to trace, all of them if not given. -/
  capture : Option (List String)
  /-- The length to which traced arguments are cut. -/
  limit : Int
  /-- What the probe returns, or the fault with which it fails. -/
  outcome : Except Fault Value

namespace Probe

/-- The parameters of a probe. -/
def signature : Signature where
  positional := [("a", none), ("b", some .none)]
  rest := some "rest"
  namedOnly := [("flag", some (.bool true))]
  extra := some "extra"

/-- The length to which arguments are cut unless a probe asks for another. -/
def standardLimit : Int := 200

/-- The name of a probe in traces. -/
def title (p : Probe) : String :=
  match p.name with
  | none => "probe"
  | some name => if name.isEmpty then "probe" else name

/-- The arguments that are traced. -/
def captured (p : Probe) (bound : List (String × Value)) : List (String × Value) :=
  match p.capture with
  | none => bound
  | some names => bound.filter fun argument => names.contains argument.1

/-- The name under which a call passes the tracer. An argument of this name never reaches the
probe. -/
def tracerName : String := "tracer"

/-- Whether an argument by name passes something that is no tracer in its place. -/
def misplaced (argument : String × Value) : Bool :=
  argument.1 == tracerName && !argument.2.isNone

/-- The fault of a probe that is called with arguments that do not fit its parameters: one of these
has two arguments, or the first one has none. -/
def misfit (arguments : List Value) (named : List (String × Value)) : Fault :=
  let filled := (signature.positional.take arguments.length).map (·.1)
  match named.find? fun argument => filled.contains argument.1 with
  | some argument =>
    .badCall ("probe() got multiple values for argument " ++ Text.quoted argument.1)
  | none => .badCall "probe() missing 1 required positional argument: \x27a\x27"

/-- Calls a probe. A value in the place of a tracer is refused unless there is a tracer, which takes
that place. Arguments that do not fit the parameters are refused before anything is traced, but if
no parameter is to be traced only the probe itself finds that out. -/
def run {σ : Type} (p : Probe) (arguments : List Value) (named : List (String × Value)) :
    Codegen σ Value := do
  let w ← get
  if w.tracer.isNone then
    if let some argument := named.find? misplaced then throw (argument.2.lacks "enabled")
  let named := named.filter fun argument => argument.1 != tracerName
  match signature.bind arguments named with
  | .ok bound =>
    traced p.title (tracedArguments p.limit (p.captured bound)) id (Codegen.ofExcept p.outcome)
  | .error e =>
    if w.isTracing && p.capture != some [] then throw e
    else traced p.title [] id (throw (misfit arguments named))

end Probe

end ClassCode
