import ClassCode.Desk
import ClassCode.Proofs.Json.RoundTrip
import ClassCode.Trace.Tracer

/-!
# Reports are lossless

From the report of a sink its records can be read back, and from the report of a tracer its events,
the counts of calls, the time that has passed and the number of events (`report_lossless`). The
readers here take a document apart member by member and accept no other members, so the reports have
nothing that they do not give back.

An event is read back as reports show it (`TraceEvent.entry`): the tracer's own members are among
its data, in the places that they have there.
-/

namespace ClassCode

/-! ## Records -/

/-- The severity of the given name. -/
def Severity.ofName? : String → Option Severity
  | "info" => some .info
  | "warning" => some .warning
  | "error" => some .error
  | _ => none

/-- The source line that a member of a location holds, if it holds one. -/
def Span.textOfJson? : Json → Option (Option String)
  | .null => some none
  | .str text => some (some text)
  | _ => none

/-- The location that a JSON object describes. -/
def Span.ofJson? : Json → Option Span
  | .obj [("uri", .str uri), ("line", .num line), ("column", .num column),
      ("length", .num length), ("text", text)] =>
    (textOfJson? text).map fun text => ⟨uri, line, column, length, text⟩
  | _ => none

/-- The location that a member of a record holds, if it holds one. -/
def Diagnostic.spanOfJson? : Json → Option (Option Span)
  | .null => some none
  | j => (Span.ofJson? j).map some

/-- The diagnostic that a JSON object describes. -/
def Diagnostic.ofJson? : Json → Option Diagnostic
  | .obj [("severity", .str severity), ("message", .str message), ("span", span)] => do
    let severity ← Severity.ofName? severity
    let span ← spanOfJson? span
    some ⟨severity, message, span⟩
  | _ => none

/-- The records that the report of a sink holds. -/
def readRecords? (report : String) : Option (List Diagnostic) := do
  match ← Json.read? report with
  | .arr items => items.mapM Diagnostic.ofJson?
  | _ => none

theorem Severity.ofName?_name (s : Severity) : ofName? s.name = some s := by
  cases s <;> rfl

theorem Span.ofJson?_spanJson (s : Span) : Span.ofJson? (Diagnostic.spanJson s) = some s := by
  obtain ⟨uri, line, column, length, text⟩ := s
  cases text <;> rfl

/-- A record is read back from its JSON object. -/
theorem Diagnostic.ofJson?_json (d : Diagnostic) : ofJson? d.json = some d := by
  obtain ⟨severity, message, span⟩ := d
  cases span with
  | none => simp [json, ofJson?, spanOfJson?, Severity.ofName?_name]
  | some s =>
    have hspan : spanOfJson? (spanJson s) = some (some s) := by
      rw [spanOfJson?, Span.ofJson?_spanJson]
      · rfl
      · simp [spanJson]
    simp [json, ofJson?, hspan, Severity.ofName?_name]

/-- What is read back one by one is read back as a list. -/
theorem mapM_map_eq_some {α β : Type} {write : α → β} {read? : β → Option α}
    (h : ∀ a, read? (write a) = some a) (as : List α) : (as.map write).mapM read? = some as := by
  induction as with
  | nil => rfl
  | cons a as ih => simp [h, ih]

/-- The records of a sink are read back from its report. -/
theorem readRecords?_report (s : Sink) : readRecords? s.report = some s.records := by
  rw [readRecords?, Sink.report, Json.read?_written]
  exact mapM_map_eq_some Diagnostic.ofJson?_json s.records

/-! ## Events -/

/-- An event as reports show it. -/
structure TraceEntry where
  operation : String
  kind : String
  data : List (String × Json)
  time : Int
  depth : Nat

/-- What reports show of an event. -/
def TraceEvent.entry (e : TraceEvent) : TraceEntry :=
  ⟨e.operation, e.kind, e.data, e.time, e.depth⟩

/-- The JSON object for an event as reports show it. -/
def TraceEntry.json (e : TraceEntry) : Json :=
  .obj [("method_name", .str e.operation), ("event_type", .str e.kind), ("data", .obj e.data),
    ("timestamp", .num e.time), ("call_depth", .num e.depth)]

/-- The event that a JSON object describes. -/
def TraceEntry.ofJson? : Json → Option TraceEntry
  | .obj [("method_name", .str operation), ("event_type", .str kind), ("data", .obj data),
      ("timestamp", .num time), ("call_depth", .num (.ofNat depth))] =>
    some ⟨operation, kind, data, time, depth⟩
  | _ => none

/-- The count of calls that a member of the statistics holds. -/
def countOfJson? : String × Json → Option (String × Nat)
  | (operation, .num (.ofNat count)) => some (operation, count)
  | _ => none

/-- What the report of a tracer tells. -/
structure TraceReport where
  entries : List TraceEntry
  /-- How often each operation was called. -/
  stats : List (String × Nat)
  /-- The time since the tracer was made. -/
  duration : Int
  /-- The number of events. -/
  total : Nat

/-- What a tracer reports at a time. -/
def Tracer.reported (t : Tracer) (now : Int) : TraceReport :=
  ⟨t.events.map TraceEvent.entry, t.stats, now - t.start, t.events.length⟩

/-- What the report of a tracer tells, read from its text. -/
def readTrace? (report : String) : Option TraceReport := do
  match ← Json.read? report with
  | .obj [("trace", .arr events), ("call_stats", .obj stats), ("duration", .num duration),
      ("total_entries", .num (.ofNat total))] => do
    let entries ← events.mapM TraceEntry.ofJson?
    let stats ← stats.mapM countOfJson?
    some ⟨entries, stats, duration, total⟩
  | _ => none

/-- Reports tell of an event only what they show of it. -/
theorem TraceEvent.map_json (events : List TraceEvent) :
    events.map TraceEvent.json = (events.map TraceEvent.entry).map TraceEntry.json := by
  rw [List.map_map]
  rfl

/-- What a tracer reports is read back from its report. -/
theorem readTrace?_report (t : Tracer) (now : Int) :
    readTrace? (t.report now) = some (t.reported now) := by
  have hstats : (t.stats.map fun entry => (entry.1, Json.num entry.2)).mapM countOfJson? =
      some t.stats := by
    apply mapM_map_eq_some
    intro entry
    rfl
  have hentries : (t.events.map TraceEvent.json).mapM TraceEntry.ofJson? =
      some (t.events.map TraceEvent.entry) := by
    rw [TraceEvent.map_json]
    apply mapM_map_eq_some
    intro e
    rfl
  rw [readTrace?, Tracer.report, Json.read?_written]
  change ((t.events.map TraceEvent.json).mapM TraceEntry.ofJson? >>= fun entries =>
    (t.stats.map fun entry => (entry.1, Json.num entry.2)).mapM countOfJson? >>= fun stats =>
      some (TraceReport.mk entries stats (now - t.start) t.events.length)) = some (t.reported now)
  rw [hentries, hstats]
  rfl

/-! ## Both reports -/

/-- Reports are lossless. A JSON reader finds the records in the report of a sink, in order and each
with its severity, its message and its location, if it has one; and in the report of a tracer it
finds the events in order, each with its data in order and the time at which it was recorded, the
counts of calls, the time that has passed and the number of events. The text of a report is ASCII.
Two sinks have the same report only if they have the same records, and two tracers only if their
events look the same, they counted the same calls and as much time has passed for both. -/
theorem report_lossless :
    (∀ s : Sink, Json.read? s.report = some (.arr (s.records.map Diagnostic.json)) ∧
      readRecords? s.report = some s.records ∧ Json.IsAscii s.report.toList) ∧
    (∀ (t : Tracer) (now : Int), readTrace? (t.report now) = some (t.reported now) ∧
      Json.IsAscii (t.report now).toList) ∧
    (∀ s s' : Sink, s.report = s'.report ↔ s.records = s'.records) ∧
    ∀ (t t' : Tracer) (now now' : Int), t.report now = t'.report now' ↔
      t.events.map TraceEvent.entry = t'.events.map TraceEvent.entry ∧ t.stats = t'.stats ∧
        now - t.start = now' - t'.start := by
  refine ⟨fun s => ⟨Json.read?_written _, readRecords?_report s, Json.isAscii_write _⟩,
    fun t now => ⟨readTrace?_report t now, Json.isAscii_write _⟩,
    fun s s' => ⟨fun h => ?_, fun h => ?_⟩, fun t t' now now' => ⟨fun h => ?_, fun h => ?_⟩⟩
  · have hread := readRecords?_report s
    rw [h, readRecords?_report, Option.some.injEq] at hread
    exact hread.symm
  · rw [Sink.report, Sink.report, h]
  · have hread := readTrace?_report t now
    rw [h, readTrace?_report, Option.some.injEq] at hread
    exact ⟨(congrArg TraceReport.entries hread).symm, (congrArg TraceReport.stats hread).symm,
      (congrArg TraceReport.duration hread).symm⟩
  · obtain ⟨hevents, hstats, hduration⟩ := h
    have hlength : t.events.length = t'.events.length := by
      simpa using congrArg List.length hevents
    rw [Tracer.report, Tracer.report, TraceEvent.map_json, TraceEvent.map_json, hevents, hstats,
      hduration, hlength]

end ClassCode
