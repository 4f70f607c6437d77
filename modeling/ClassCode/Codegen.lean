import ClassCode.Desk
import ClassCode.Invocation.Layout
import ClassCode.Trace.Tracer
import ClassCode.Value

/-!
# Operations with effects

An operation of the library may fail, report diagnostics, call functions of its caller and be
traced. It runs in a world that holds the tracer, if there is one, the desk with sinks and loggers,
and whatever the caller's functions keep for themselves. What happened before a failure stays.
-/

namespace ClassCode

/-- What an operation can see and change. -/
structure World (σ : Type) where
  /-- The tracer that operations report to. -/
  tracer : Option Tracer
  desk : Desk
  /-- The layout of invocations that ask for none. -/
  layout : Layout
  /-- What the caller's functions keep. -/
  own : σ

/-- An operation with a result of type `α`. -/
abbrev Codegen (σ α : Type) : Type := ExceptT Fault (StateM (World σ)) α

variable {σ α : Type}

namespace World

/-- Whether operations are being traced. -/
def isTracing (w : World σ) : Bool := (w.tracer.map (·.enabled)).getD false

/-- Changes the tracer, if there is one. -/
def trace (w : World σ) (record : Tracer → Tracer) : World σ :=
  { w with tracer := w.tracer.map record }

end World

namespace Codegen

/-- Runs an operation in a world. -/
def runIn (operation : Codegen σ α) (w : World σ) : Except Fault α × World σ :=
  (ExceptT.run operation).run w

/-- Takes a result that may be a fault. -/
def ofExcept : Except Fault α → Codegen σ α
  | .ok a => pure a
  | .error e => throw e

/-- Takes the result of a search that may have run out of its limit. -/
def ofSearch : Option α → Codegen σ α
  | some a => pure a
  | none => throw .endlessSearch

/-- Warns about the elements whose type could not be resolved. -/
def warnUndefined (sink : Option SinkId) (elements : List Element) : Codegen σ Unit := fun w =>
  let (outcome, desk) := w.desk.warnUndefined sink elements
  (outcome, { w with desk := desk })

end Codegen

/-- Arguments as a trace shows them, cut to a length. -/
def tracedArguments (limit : Int) (arguments : List (String × Value)) : List (String × Json) :=
  arguments.map fun argument => (argument.1, .str (argument.2.abridged limit))

/-- Traces an operation: its call with the given arguments, and its result or the error with which
it fails. A fault that is no error passes by, and the call stays open. What is shown of a result is
written after the operation has ended, outside of what is watched for errors; a text of it can
always be written. Without a tracer that is switched on the operation runs as it is. -/
def traced (operation : String) (arguments : List (String × Json)) (resultValue : α → Value)
    (body : Codegen σ α) : Codegen σ α := fun w =>
  if w.isTracing then
    let (outcome, w) := body.runIn (w.trace fun t => t.call operation arguments)
    match outcome with
    | .ok a => (.ok a, w.trace fun t => t.result operation (resultValue a).resultInfo)
    | .error e => (.error e, if e.isError then w.trace fun t => t.failure operation e else w)
  else body.runIn w

end ClassCode
