import ClassCode.Json
import ClassCode.Fault

/-!
# Tracers

A tracer records the calls of operations with their arguments, results and faults. Calls are
numbered from one. Every call remembers the innermost call that was open when it was made, its
parent, so that the chain of calls that led to it can be found again. A closing event closes the
innermost open call. Every event has the time at which it was recorded. A tracer that is switched
off records nothing.
-/

namespace ClassCode

/-- What an event tells. The number zero stands for no call. -/
inductive TraceRecord where
  /-- An operation was called: the number of the call, that of its parent, and how many calls of the
  operation there were, this one included. -/
  | call (id parent count : Nat) (arguments : List (String × Json))
  /-- The call with the given number returned. -/
  | result (id : Nat) (info : List (String × Json))
  /-- The call with the given number failed. -/
  | failure (id : Nat) (kind message : String)

/-- A recorded event. -/
structure TraceEvent where
  operation : String
  record : TraceRecord
  /-- How many calls were open when the event was recorded. -/
  depth : Nat
  /-- What the clock showed when the event was recorded. -/
  time : Int

namespace TraceEvent

/-- The number of the call that the event is about. -/
def callId (e : TraceEvent) : Nat :=
  match e.record with
  | .call id _ _ _ => id
  | .result id _ => id
  | .failure id _ _ => id

/-- Whether the event opens a call. -/
def isCall (e : TraceEvent) : Bool :=
  match e.record with
  | .call _ _ _ _ => true
  | _ => false

/-- The number of the parent of a call, zero for other events. -/
def parentId (e : TraceEvent) : Nat :=
  match e.record with
  | .call _ parent _ _ => parent
  | _ => 0

/-- The name of the kind of event. -/
def kind (e : TraceEvent) : String :=
  match e.record with
  | .call _ _ _ _ => "call"
  | .result _ _ => "return"
  | .failure _ _ _ => "exception"

/-- The data of an event. The tracer's own members win over given ones of the same name, which keep
their place. -/
def data (e : TraceEvent) : List (String × Json) :=
  match e.record with
  | .call id parent count arguments =>
    Keyed.putAll arguments
      [("_call_id", .num id), ("_parent_call_id", .num parent), ("_call_count", .num count)]
  | .result id info => Keyed.put info "_call_id" (.num id)
  | .failure id kind message =>
    [("_call_id", .num id), ("exception_type", .str kind), ("exception_str", .str message)]

/-- The event as a JSON object. -/
def json (e : TraceEvent) : Json :=
  .obj [("method_name", .str e.operation), ("event_type", .str e.kind), ("data", .obj e.data),
    ("timestamp", .num e.time), ("call_depth", .num e.depth)]

end TraceEvent

/-- A recorder of calls. -/
structure Tracer where
  enabled : Bool
  /-- The recorded events, oldest first. -/
  events : List TraceEvent
  /-- How often each operation was called, in the order of first calls. -/
  stats : List (String × Nat)
  /-- The numbers of the open calls, innermost first. -/
  openCalls : List Nat
  /-- The number of the last call. -/
  lastId : Nat
  /-- What the clock showed when the tracer was made. -/
  start : Int
  /-- What the clock shows when an event is recorded, by the number of the events before it. -/
  clock : Nat → Int

namespace Tracer

/-- A tracer that has recorded nothing. The clock stands still unless it is said what it shows. -/
def new (enabled : Bool) (start : Int := 0) (clock : Nat → Int := fun _ => start) : Tracer :=
  ⟨enabled, [], [], [], 0, start, clock⟩

/-- The number of open calls. -/
def depth (t : Tracer) : Nat := t.openCalls.length

/-- How often an operation was called. -/
def countOf (t : Tracer) (operation : String) : Nat := (Keyed.get? t.stats operation).getD 0

/-- Switches the tracer on or off. -/
def setEnabled (t : Tracer) (enabled : Bool) : Tracer := { t with enabled := enabled }

/-- Adds an event at the current depth. -/
def append (t : Tracer) (operation : String) (record : TraceRecord) : Tracer :=
  { t with events := t.events ++ [⟨operation, record, t.depth, t.clock t.events.length⟩] }

/-- Records a call, which is open from then on. -/
def call (t : Tracer) (operation : String) (arguments : List (String × Json)) : Tracer :=
  if t.enabled then
    let id := t.lastId + 1
    let count := t.countOf operation + 1
    let t := { t with stats := Keyed.put t.stats operation count, lastId := id }
    let t := t.append operation (.call id (t.openCalls.headD 0) count arguments)
    { t with openCalls := id :: t.openCalls }
  else t

/-- Closes the innermost open call and records how it ended. -/
def close (t : Tracer) (operation : String) (record : Nat → TraceRecord) : Tracer :=
  if t.enabled then
    { t with openCalls := t.openCalls.tail }.append operation (record (t.openCalls.headD 0))
  else t

/-- Records that the innermost open call returned. -/
def result (t : Tracer) (operation : String) (info : List (String × Json)) : Tracer :=
  t.close operation fun id => .result id info

/-- Records that the innermost open call failed. -/
def failure (t : Tracer) (operation : String) (fault : Fault) : Tracer :=
  t.close operation fun id => .failure id fault.kind fault.text

/-- The recorded call with the given number. -/
def findCall? (t : Tracer) (id : Nat) : Option TraceEvent :=
  t.events.find? fun e => e.isCall && e.callId == id

/-- The calls that lead up to the call with the given number, innermost first. -/
def chainUp (t : Tracer) (id : Nat) : List TraceEvent :=
  match t.findCall? id with
  | none => []
  | some e => e :: if e.parentId < id then chainUp t e.parentId else []
termination_by id

/-- The calls that led to the call with the given number, outermost first, that call included. -/
def callChain (t : Tracer) (id : Nat) : List TraceEvent := (t.chainUp id).reverse

/-- All that was recorded up to a time, as a JSON document. -/
def report (t : Tracer) (now : Int := t.start) : String :=
  Json.write (.obj [("trace", .arr (t.events.map TraceEvent.json)),
    ("call_stats", .obj (t.stats.map fun entry => (entry.1, .num entry.2))),
    ("duration", .num (now - t.start)), ("total_entries", .num t.events.length)])

end Tracer

end ClassCode
