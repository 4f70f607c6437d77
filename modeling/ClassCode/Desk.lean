import ClassCode.Diagnostic

/-!
# Sinks and loggers

Where diagnostics go. A sink keeps the diagnostics reported to it while it is enabled, and also logs
them if it has a logger. A logger writes its lines to a stream, each behind its name, or keeps them
when it is quiet. The desk holds all sinks and loggers of a run, and knows for how much text there
is room; several sinks may share a logger.
-/

namespace ClassCode

/-- The place of a logger at its desk. -/
abbrev LoggerId := Nat

/-- The place of a sink at its desk. -/
abbrev SinkId := Nat

/-- A log. -/
structure Logger where
  name : String
  /-- Whether lines are written to the stream; otherwise they are kept. -/
  verbose : Bool
  /-- The lines kept so far. -/
  kept : List String
  /-- The text written to the stream so far. -/
  stream : String
  deriving Repr

/-- Logs a line. -/
def Logger.log (l : Logger) (line : String) : Logger :=
  if l.verbose then { l with stream := l.stream ++ "[" ++ l.name ++ "] " ++ line ++ "\n" }
  else { l with kept := l.kept ++ [line] }

/-- The line that opens a log. -/
def Logger.opening (l : Logger) : String := l.name ++ ": logging started"

/-- A collector of diagnostics. -/
structure Sink where
  enabled : Bool
  logger : Option LoggerId
  /-- The diagnostics since the sink was last cleared. -/
  records : List Diagnostic
  deriving Repr

namespace Sink

/-- The diagnostics that are warnings. -/
def warnings (s : Sink) : List Diagnostic := s.records.filter fun d => d.severity == .warning

/-- The diagnostics as a JSON document. -/
def report (s : Sink) : String := Json.write (.arr (s.records.map Diagnostic.json))

end Sink

/-- All sinks and loggers of a run. -/
structure Desk where
  loggers : Array Logger
  sinks : Array Sink
  /-- How long texts can be in this run. -/
  capacity : Text.Capacity

namespace Desk

/-- The desk without sinks and loggers. -/
def empty (capacity : Text.Capacity := .standard) : Desk := ⟨#[], #[], capacity⟩

/-- Adds a logger that has not logged anything and returns its place. -/
def addLogger (d : Desk) (name : String) (verbose : Bool) : LoggerId × Desk :=
  (d.loggers.size, { d with loggers := d.loggers.push ⟨name, verbose, [], ""⟩ })

/-- Adds a sink without records and returns its place. -/
def addSink (d : Desk) (enabled : Bool) (logger : Option LoggerId) : SinkId × Desk :=
  (d.sinks.size, { d with sinks := d.sinks.push ⟨enabled, logger, []⟩ })

/-- Logs a line. -/
def log (d : Desk) (l : LoggerId) (line : String) : Desk :=
  { d with loggers := d.loggers.modify l fun logger => logger.log line }

/-- Logs the line that opens a log. -/
def logOpening (d : Desk) (l : LoggerId) : Desk :=
  { d with loggers := d.loggers.modify l fun logger => logger.log logger.opening }

/-- Changes a sink. -/
def modifySink (d : Desk) (s : SinkId) (change : Sink → Sink) : Desk :=
  { d with sinks := d.sinks.modify s change }

/-- Switches a sink on or off. -/
def setEnabled (d : Desk) (s : SinkId) (enabled : Bool) : Desk :=
  d.modifySink s fun sink => { sink with enabled := enabled }

/-- Forgets the records of a sink. -/
def clear (d : Desk) (s : SinkId) : Desk := d.modifySink s fun sink => { sink with records := [] }

/-- Whether a sink is there and enabled. -/
def accepts (d : Desk) (s : SinkId) : Bool := (d.sinks[s]?.map (·.enabled)).getD false

/-- Reports a diagnostic to a sink, which keeps and logs it if it is enabled. -/
def report (d : Desk) (s : SinkId) (diagnostic : Diagnostic) : Desk :=
  match d.sinks[s]? with
  | some sink =>
    if sink.enabled then
      let d := d.modifySink s fun sink => { sink with records := sink.records ++ [diagnostic] }
      match sink.logger with
      | some l => d.log l diagnostic.line
      | none => d
    else d
  | none => d

/-- Reports diagnostics to a sink one after another. -/
def reportAll (d : Desk) (s : SinkId) (diagnostics : List Diagnostic) : Desk :=
  diagnostics.foldl (fun d diagnostic => d.report s diagnostic) d

/-- Warns about the elements whose type could not be resolved; without a sink nothing is done. A
warning that cannot be written is a fault and the last one; those before it stay reported. -/
def warnUndefined (d : Desk) (sink : Option SinkId) (elements : List Element) :
    Except Fault Unit × Desk :=
  match sink with
  | none => (.ok (), d)
  | some s =>
    let (warnings, outcome) := Element.undefinedTypeWarnings d.capacity elements
    (outcome, d.reportAll s warnings)

end Desk

end ClassCode
