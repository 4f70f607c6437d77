import ClassCode.Desk
import Mathlib.Data.List.DropRight
import Mathlib.Data.List.Induction
import Mathlib.Logic.Function.Basic

/-!
# The history of a desk

What happens at a desk leaves two copies of its history behind. Sinks keep the diagnostics that were
reported to them since they were last cleared; loggers keep what was logged directly and what was
reported to their sinks. What is reported to a sink that is switched off is in neither.

A sink after an action follows from that sink and the action alone, whatever happens to the others
(`sinks_perform`). A logger also needs to know which sinks are enabled and attached to it
(`loggers_perform`), so which sinks are enabled is followed from action to action (`history`).
-/

namespace ClassCode

namespace Element

/-- The warnings about the elements of undefined type that are reported: all of them, or those
before the first that cannot be written. -/
def reportable (capacity : Text.Capacity) (elements : List Element) : List Diagnostic :=
  (((elements.filter fun e => e.type.isUndefined).map (undefinedTypeWarning capacity)).takeWhile
    Except.isOk).filterMap Except.toOption

theorem undefinedTypeWarnings_fst (capacity : Text.Capacity) (elements : List Element) :
    (undefinedTypeWarnings capacity elements).1 = reportable capacity elements := by
  induction elements with
  | nil => rfl
  | cons e elements ih =>
    rw [undefinedTypeWarnings, reportable, List.filter_cons]
    cases e.type.isUndefined with
    | false => exact ih
    | true =>
      rw [if_pos rfl, if_pos rfl, List.map_cons, List.takeWhile_cons]
      cases e.undefinedTypeWarning capacity with
      | error fault => rfl
      | ok warning => exact congrArg (warning :: ·) ih

end Element

namespace Logger

/-- A logger that has logged the given lines: kept if it is quiet, and otherwise written to its
stream, each behind its name. -/
def written (name : String) (verbose : Bool) (lines : List String) : Logger :=
  if verbose then
    ⟨name, true, [], String.join (lines.map fun line => "[" ++ name ++ "] " ++ line ++ "\n")⟩
  else ⟨name, false, lines, ""⟩

@[simp] theorem name_written (name : String) (verbose : Bool) (lines : List String) :
    (written name verbose lines).name = name := by
  cases verbose <;> rfl

theorem log_written (name : String) (verbose : Bool) (lines : List String) (line : String) :
    (written name verbose lines).log line = written name verbose (lines ++ [line]) := by
  cases verbose with
  | false => rfl
  | true => simp [written, log, String.append_assoc]

theorem foldl_log_written (name : String) (verbose : Bool) (lines more : List String) :
    more.foldl log (written name verbose lines) = written name verbose (lines ++ more) := by
  induction more generalizing lines with
  | nil => rw [List.foldl_nil, List.append_nil]
  | cons line more ih =>
    rw [List.foldl_cons, log_written, ih, List.append_assoc, List.singleton_append]

end Logger

namespace Sink

/-- A sink to which diagnostics were reported: they are kept if it is enabled. -/
def taking (sink : Sink) (diagnostics : List Diagnostic) : Sink :=
  if sink.enabled then { sink with records := sink.records ++ diagnostics } else sink

@[simp] theorem taking_nil (sink : Sink) : sink.taking [] = sink := by
  simp [taking]

@[simp] theorem enabled_taking (sink : Sink) (diagnostics : List Diagnostic) :
    (sink.taking diagnostics).enabled = sink.enabled := by
  rw [taking]
  split <;> rfl

@[simp] theorem logger_taking (sink : Sink) (diagnostics : List Diagnostic) :
    (sink.taking diagnostics).logger = sink.logger := by
  rw [taking]
  split <;> rfl

theorem taking_taking (sink : Sink) (diagnostics more : List Diagnostic) :
    (sink.taking diagnostics).taking more = sink.taking (diagnostics ++ more) := by
  cases henabled : sink.enabled <;> simp [taking, henabled]

end Sink

namespace Desk

/-! ## Actions -/

/-- What can happen at a desk. -/
inductive Action where
  /-- A diagnostic is reported to a sink. -/
  | report (s : SinkId) (diagnostic : Diagnostic)
  /-- Elements of undefined type are warned about, if there is a sink. -/
  | warn (s : Option SinkId) (elements : List Element)
  /-- The records of a sink are forgotten. -/
  | clear (s : SinkId)
  /-- A sink is switched on or off. -/
  | switch (s : SinkId) (enabled : Bool)
  /-- A line is logged. -/
  | log (l : LoggerId) (line : String)
  /-- The line that opens a log is logged. -/
  | opening (l : LoggerId)

/-- The desk after an action. Of warnings only those that can be written are left. -/
def perform (d : Desk) : Action → Desk
  | .report s diagnostic => d.report s diagnostic
  | .warn s elements => (d.warnUndefined s elements).2
  | .clear s => d.clear s
  | .switch s enabled => d.setEnabled s enabled
  | .log l line => d.log l line
  | .opening l => d.logOpening l

/-- The desk after actions, one after another. -/
def run (d : Desk) (actions : List Action) : Desk := actions.foldl perform d

/-- A desk with room for texts, new loggers, given by name and verbosity, and new sinks, given by
whether they are enabled and their loggers. -/
def furnished (capacity : Text.Capacity) (loggers : List (String × Bool))
    (sinks : List (Bool × Option LoggerId)) : Desk :=
  sinks.foldl (fun d s => (d.addSink s.1 s.2).2)
    (loggers.foldl (fun d l => (d.addLogger l.1 l.2).2) (empty capacity))

/-! ## Histories -/

namespace Action

/-- The diagnostics that an action reports, each with the sink to which it is reported. -/
def reports (capacity : Text.Capacity) : Action → List (SinkId × Diagnostic)
  | .report s diagnostic => [diagnostic].map (s, ·)
  | .warn (some s) elements => (Element.reportable capacity elements).map (s, ·)
  | _ => []

/-- Whether an action clears a sink. -/
def clears (s : SinkId) : Action → Bool
  | .clear s' => s' == s
  | _ => false

/-- Which sinks are enabled after an action. -/
def switches (on : SinkId → Bool) : Action → SinkId → Bool
  | .switch s enabled => Function.update on s enabled
  | _ => on

end Action

/-- An action, the room for texts and which sinks are enabled when it happens. -/
structure Moment where
  action : Action
  capacity : Text.Capacity
  on : SinkId → Bool

namespace Moment

/-- The diagnostics that are reported to enabled sinks, each with its sink. -/
def accepted (m : Moment) : List (SinkId × Diagnostic) :=
  (m.action.reports m.capacity).filter fun report => m.on report.1

/-- The diagnostics that a sink takes in. -/
def taken (s : SinkId) (m : Moment) : List Diagnostic :=
  (m.accepted.filter fun report => report.1 == s).map (·.2)

/-- The lines that reach a logger of the given name: those that are logged directly, and those of
the diagnostics reported to an enabled sink that is attached to it. -/
def lines (attached : SinkId → Option LoggerId) (l : LoggerId) (name : String) (m : Moment) :
    List String :=
  match m.action with
  | .log l' line => if l' = l then [line] else []
  | .opening l' => if l' = l then [name ++ ": logging started"] else []
  | _ => (m.accepted.filter fun report => attached report.1 == some l).map (·.2.line)

end Moment

/-- The actions in the order in which they happen, each with the sinks that are enabled then. -/
def history (capacity : Text.Capacity) (on : SinkId → Bool) : List Action → List Moment
  | [] => []
  | action :: actions => ⟨action, capacity, on⟩ :: history capacity (action.switches on) actions

/-- Which sinks are enabled after actions. -/
def switched (on : SinkId → Bool) (actions : List Action) : SinkId → Bool :=
  actions.foldl (fun on action => action.switches on) on

/-! ## What a single action changes -/

variable (d : Desk)

theorem sinks_report (s' s : SinkId) (diagnostic : Diagnostic) :
    (d.report s' diagnostic).sinks[s]? =
      d.sinks[s]?.map fun sink => if s' = s then sink.taking [diagnostic] else sink := by
  rw [report]
  split
  case h_1 sink hsink =>
    split
    case isTrue henabled =>
      have hmodify : (d.modifySink s' fun sink =>
          { sink with records := sink.records ++ [diagnostic] }).sinks[s]? =
          d.sinks[s]?.map fun sink => if s' = s then sink.taking [diagnostic] else sink := by
        rw [modifySink, Array.getElem?_modify]
        by_cases hs : s' = s
        · simp [hs.symm, hsink, Sink.taking, henabled]
        · simp [hs]
      cases sink.logger <;> exact hmodify
    case isFalse henabled =>
      by_cases hs : s' = s
      · simp [hs.symm, hsink, Sink.taking, henabled]
      · simp [hs]
  case h_2 hnone =>
    by_cases hs : s' = s
    · rw [← hs, hnone, Option.map_none]
    · simp [hs]

theorem loggers_report (s : SinkId) (l : LoggerId) (diagnostic : Diagnostic) :
    (d.report s diagnostic).loggers[l]? = d.loggers[l]?.map fun logger =>
      if d.sinks[s]?.any (fun sink => sink.enabled && sink.logger == some l) then
        logger.log diagnostic.line
      else logger := by
  rw [report]
  split
  case h_1 sink hsink =>
    rw [hsink, Option.any_some]
    split
    case isTrue henabled =>
      cases hlogger : sink.logger with
      | none => simp [modifySink]
      | some l' =>
        dsimp only
        rw [log, modifySink, Array.getElem?_modify, henabled]
        by_cases hl : l' = l <;> simp [hl]
    case isFalse henabled => simp [henabled]
  case h_2 hnone => simp [hnone]

theorem sinks_reportAll (s' s : SinkId) (diagnostics : List Diagnostic) :
    (d.reportAll s' diagnostics).sinks[s]? =
      d.sinks[s]?.map fun sink => if s' = s then sink.taking diagnostics else sink := by
  induction diagnostics generalizing d with
  | nil => simp [reportAll]
  | cons diagnostic diagnostics ih =>
    have hstep : d.reportAll s' (diagnostic :: diagnostics) =
        (d.report s' diagnostic).reportAll s' diagnostics := rfl
    rw [hstep, ih, sinks_report, Option.map_map]
    congr 1
    funext sink
    by_cases hs : s' = s <;> simp [hs, Sink.taking_taking]

/-- Reports to a sink reach its logger if it is enabled. -/
theorem loggers_reportAll (s : SinkId) (l : LoggerId) (diagnostics : List Diagnostic) :
    (d.reportAll s diagnostics).loggers[l]? = d.loggers[l]?.map fun logger =>
      if d.sinks[s]?.any (fun sink => sink.enabled && sink.logger == some l) then
        (diagnostics.map Diagnostic.line).foldl Logger.log logger
      else logger := by
  induction diagnostics generalizing d with
  | nil => simp [reportAll]
  | cons diagnostic diagnostics ih =>
    have hstep : d.reportAll s (diagnostic :: diagnostics) =
        (d.report s diagnostic).reportAll s diagnostics := rfl
    -- a report changes neither whether the sink is enabled nor its logger
    have hsame : (d.report s diagnostic).sinks[s]?.any
        (fun sink => sink.enabled && sink.logger == some l) =
        d.sinks[s]?.any fun sink => sink.enabled && sink.logger == some l := by
      rw [sinks_report, Option.any_map]
      congr 1
      funext sink
      simp
    rw [hstep, ih, hsame, loggers_report, Option.map_map]
    congr 1
    funext logger
    by_cases h : d.sinks[s]?.any (fun sink => sink.enabled && sink.logger == some l) = true <;>
      simp [h]

/-- Whether the sinks of a desk are switched and attached to loggers in the given way. -/
structure Agrees (d : Desk) (on : SinkId → Bool) (attached : SinkId → Option LoggerId) : Prop where
  there : ∀ s sink, d.sinks[s]? = some sink → sink.enabled = on s ∧ sink.logger = attached s
  absent : ∀ s, d.sinks[s]? = none → attached s = none

variable {d} {capacity : Text.Capacity} {on : SinkId → Bool} {attached : SinkId → Option LoggerId}

theorem Agrees.any_eq (h : d.Agrees on attached) (s : SinkId) (l : LoggerId) :
    d.sinks[s]?.any (fun sink => sink.enabled && sink.logger == some l) =
      (on s && attached s == some l) := by
  cases hsink : d.sinks[s]? with
  | none => simp [h.absent s hsink]
  | some sink => rw [Option.any_some, (h.there s sink hsink).1, (h.there s sink hsink).2]

/-- Reports to one sink are accepted if it is enabled. -/
theorem accepted_eq {action : Action} {s : SinkId} {diagnostics : List Diagnostic}
    (h : action.reports capacity = diagnostics.map (s, ·)) :
    (Moment.mk action capacity on).accepted = if on s then diagnostics.map (s, ·) else [] := by
  rw [Moment.accepted, h, List.filter_map]
  cases hs : on s <;> simp [Function.comp_def, hs]

theorem taken_eq {action : Action} {s' : SinkId} {diagnostics : List Diagnostic}
    (h : action.reports capacity = diagnostics.map (s', ·)) (s : SinkId) :
    (Moment.mk action capacity on).taken s = if s' = s ∧ on s' = true then diagnostics else [] := by
  rw [Moment.taken, accepted_eq h]
  by_cases hs : s' = s <;> cases hon : on s' <;>
    simp [hs, List.filter_map, Function.comp_def]

theorem taken_of_reports_eq_nil {action : Action} (h : action.reports capacity = [])
    (s : SinkId) : (Moment.mk action capacity on).taken s = [] := by
  rw [Moment.taken, Moment.accepted, h]
  rfl

theorem Agrees.eq_mk (h : d.Agrees on attached) {s : SinkId} {sink : Sink}
    (hsink : d.sinks[s]? = some sink) : sink = ⟨on s, attached s, sink.records⟩ := by
  rw [← (h.there s sink hsink).1, ← (h.there s sink hsink).2]

/-- A sink after an action. -/
def Moment.sinkAfter (m : Moment) (s : SinkId) (sink : Sink) : Sink where
  enabled := m.action.switches m.on s
  logger := sink.logger
  records := if m.action.clears s then [] else sink.records ++ m.taken s

/-- An action that does nothing to sinks. -/
theorem Agrees.sinks_eq (h : d.Agrees on attached) {action : Action}
    (hreports : action.reports capacity = []) {s : SinkId}
    (hswitches : action.switches on s = on s) (hclears : action.clears s = false) :
    d.sinks[s]? = d.sinks[s]?.map ((Moment.mk action capacity on).sinkAfter s) := by
  cases hsink : d.sinks[s]? with
  | none => rfl
  | some sink =>
    rw [h.eq_mk hsink]
    simp [Moment.sinkAfter, hswitches, hclears, taken_of_reports_eq_nil hreports]

/-- An action that reports to a sink. -/
theorem Agrees.sinks_reportAll_eq (h : d.Agrees on attached) {action : Action} {s' : SinkId}
    {diagnostics : List Diagnostic}
    (hreports : action.reports capacity = diagnostics.map (s', ·))
    {s : SinkId} (hswitches : action.switches on s = on s) (hclears : action.clears s = false) :
    (d.reportAll s' diagnostics).sinks[s]? =
      d.sinks[s]?.map ((Moment.mk action capacity on).sinkAfter s) := by
  rw [sinks_reportAll]
  apply Option.map_congr
  intro sink hsink
  rw [h.eq_mk hsink, Moment.sinkAfter, hswitches, hclears, taken_eq hreports]
  by_cases hs : s' = s
  · subst hs
    cases on s' <;> simp [Sink.taking]
  · simp [hs]

/-- What an action does to a sink. -/
theorem sinks_perform (h : d.Agrees on attached) (action : Action) (s : SinkId) :
    (d.perform action).sinks[s]? =
      d.sinks[s]?.map ((Moment.mk action d.capacity on).sinkAfter s) := by
  cases action with
  | report s' diagnostic =>
    have hreports : (Action.report s' diagnostic).reports d.capacity =
        [diagnostic].map (s', ·) := rfl
    exact h.sinks_reportAll_eq hreports rfl rfl
  | warn s' elements =>
    cases s' with
    | none => exact h.sinks_eq rfl rfl rfl
    | some s' =>
      rw [perform, warnUndefined]
      exact h.sinks_reportAll_eq (by rw [Element.undefinedTypeWarnings_fst]; rfl) rfl rfl
  | clear s' =>
    rw [perform, clear, modifySink, Array.getElem?_modify]
    by_cases hs : s' = s
    · rw [if_pos hs]
      apply Option.map_congr
      intro sink hsink
      rw [h.eq_mk hsink]
      simp [Moment.sinkAfter, Action.switches, Action.clears, hs]
    · rw [if_neg hs]
      exact h.sinks_eq rfl rfl (by simpa [Action.clears] using hs)
  | switch s' enabled =>
    rw [perform, setEnabled, modifySink, Array.getElem?_modify]
    by_cases hs : s' = s
    · subst hs
      have hnone : (Action.switch s' enabled).reports d.capacity = [] := rfl
      rw [if_pos rfl]
      apply Option.map_congr
      intro sink _
      simp [Moment.sinkAfter, Action.switches, Action.clears, taken_of_reports_eq_nil hnone]
    · have hkept : (Action.switch s' enabled).switches on s = on s := by
        rw [Action.switches, Function.update_of_ne (Ne.symm hs)]
      rw [if_neg hs]
      exact h.sinks_eq rfl hkept rfl
  | log l line => exact h.sinks_eq rfl rfl rfl
  | opening l => exact h.sinks_eq rfl rfl rfl

/-- An action that reports to a sink, whose lines are those of what is accepted. -/
theorem Agrees.loggers_reportAll_eq (h : d.Agrees on attached) {action : Action} {s : SinkId}
    {diagnostics : List Diagnostic}
    (hreports : action.reports capacity = diagnostics.map (s, ·)) (l : LoggerId) :
    (d.reportAll s diagnostics).loggers[l]? = d.loggers[l]?.map fun logger =>
      (((Moment.mk action capacity on).accepted.filter fun report =>
        attached report.1 == some l).map (·.2.line)).foldl Logger.log logger := by
  rw [loggers_reportAll, h.any_eq, accepted_eq hreports]
  congr 1
  funext logger
  cases on s <;> cases hl : attached s == some l <;>
    simp [hl, List.filter_map, Function.comp_def]

/-- What an action does to a logger. -/
theorem loggers_perform (h : d.Agrees on attached) (action : Action) (l : LoggerId) :
    (d.perform action).loggers[l]? = d.loggers[l]?.map fun logger =>
      ((Moment.mk action d.capacity on).lines attached l logger.name).foldl Logger.log logger := by
  cases action with
  | report s diagnostic =>
    have hreports : (Action.report s diagnostic).reports d.capacity =
        [diagnostic].map (s, ·) := rfl
    exact h.loggers_reportAll_eq hreports l
  | warn s elements =>
    cases s with
    | none => simp [perform, warnUndefined, Moment.lines, Moment.accepted, Action.reports]
    | some s =>
      rw [perform, warnUndefined]
      exact h.loggers_reportAll_eq (by rw [Element.undefinedTypeWarnings_fst]; rfl) l
  | clear s =>
    simp [perform, clear, modifySink, Moment.lines, Moment.accepted, Action.reports]
  | switch s enabled =>
    simp [perform, setEnabled, modifySink, Moment.lines, Moment.accepted, Action.reports]
  | log l' line =>
    rw [perform, log, Array.getElem?_modify]
    by_cases hl : l' = l <;> simp [Moment.lines, hl]
  | opening l' =>
    rw [perform, logOpening, Array.getElem?_modify]
    by_cases hl : l' = l <;> simp [Moment.lines, hl, Logger.opening]

/-! ## Runs -/

theorem capacity_report (d : Desk) (s : SinkId) (diagnostic : Diagnostic) :
    (d.report s diagnostic).capacity = d.capacity := by
  rw [report]
  split
  · split
    · dsimp only
      split <;> rfl
    · rfl
  · rfl

theorem capacity_reportAll (d : Desk) (s : SinkId) (diagnostics : List Diagnostic) :
    (d.reportAll s diagnostics).capacity = d.capacity := by
  induction diagnostics generalizing d with
  | nil => rfl
  | cons diagnostic diagnostics ih => exact (ih _).trans (d.capacity_report s diagnostic)

/-- Warnings do not change how much room there is for texts. -/
theorem capacity_warnUndefined (d : Desk) (sink : Option SinkId) (elements : List Element) :
    (d.warnUndefined sink elements).2.capacity = d.capacity := by
  cases sink with
  | none => rfl
  | some s => exact d.capacity_reportAll s _

/-- There is as much room for texts after an action as before. -/
theorem capacity_perform (d : Desk) (action : Action) :
    (d.perform action).capacity = d.capacity := by
  cases action with
  | report s diagnostic => exact d.capacity_report s diagnostic
  | warn s elements => exact d.capacity_warnUndefined s elements
  | clear s => rfl
  | switch s enabled => rfl
  | log l line => rfl
  | opening l => rfl

theorem history_concat (capacity : Text.Capacity) (on : SinkId → Bool) (actions : List Action)
    (action : Action) :
    history capacity on (actions ++ [action]) =
      history capacity on actions ++ [⟨action, capacity, switched on actions⟩] := by
  induction actions generalizing on with
  | nil => rfl
  | cons first actions ih => rw [List.cons_append, history, ih, history, List.cons_append]; rfl

theorem switched_concat (on : SinkId → Bool) (actions : List Action) (action : Action) :
    switched on (actions ++ [action]) = action.switches (switched on actions) := by
  rw [switched, List.foldl_append]
  rfl

theorem run_concat (d : Desk) (actions : List Action) (action : Action) :
    d.run (actions ++ [action]) = (d.run actions).perform action := by
  rw [run, List.foldl_append]
  rfl

/-- The diagnostics that a sink took in since it was last cleared. -/
def takenSinceClear (s : SinkId) (moments : List Moment) : List Diagnostic :=
  (moments.rtakeWhile fun m => !m.action.clears s).flatMap (Moment.taken s)

theorem takenSinceClear_concat (s : SinkId) (moments : List Moment) (m : Moment) :
    takenSinceClear s (moments ++ [m]) =
      if m.action.clears s then [] else takenSinceClear s moments ++ m.taken s := by
  rw [takenSinceClear, List.rtakeWhile_concat]
  cases m.action.clears s <;> simp [takenSinceClear]

section

variable (capacity : Text.Capacity) (loggers : List (String × Bool))
  (sinks : List (Bool × Option LoggerId))

/-- Which of some new sinks are enabled. -/
def enabledAt (s : SinkId) : Bool := (sinks[s]?.map (·.1)).getD false

/-- The loggers of some new sinks. -/
def attachedAt (s : SinkId) : Option LoggerId := sinks[s]?.bind (·.2)

theorem foldl_addLogger (d : Desk) :
    loggers.foldl (fun d l => (d.addLogger l.1 l.2).2) d =
      { d with loggers := d.loggers ++ (loggers.map fun l => .mk l.1 l.2 [] "").toArray } := by
  induction loggers generalizing d with
  | nil => simp
  | cons first loggers ih =>
    rw [List.foldl_cons, ih]
    simp [addLogger]

theorem foldl_addSink (d : Desk) :
    sinks.foldl (fun d s => (d.addSink s.1 s.2).2) d =
      { d with sinks := d.sinks ++ (sinks.map fun s => .mk s.1 s.2 []).toArray } := by
  induction sinks generalizing d with
  | nil => simp
  | cons first sinks ih =>
    rw [List.foldl_cons, ih]
    simp [addSink]

theorem loggers_furnished (l : LoggerId) :
    (furnished capacity loggers sinks).loggers[l]? =
      loggers[l]?.map fun start => Logger.written start.1 start.2 [] := by
  have hnew : ∀ start : String × Bool,
      Logger.mk start.1 start.2 [] "" = Logger.written start.1 start.2 [] := by
    rintro ⟨name, _ | _⟩ <;> rfl
  simp [furnished, foldl_addLogger, foldl_addSink, empty, hnew]

theorem sinks_furnished (s : SinkId) :
    (furnished capacity loggers sinks).sinks[s]? =
      sinks[s]?.map fun start => ⟨start.1, start.2, []⟩ := by
  simp [furnished, foldl_addLogger, foldl_addSink, empty]

/-- What is left of the history of a desk: which sinks are enabled, what they keep and what was
logged. -/
structure Recounts (actions : List Action) (d : Desk) : Prop where
  room : d.capacity = capacity
  keeps (s : SinkId) : d.sinks[s]? = sinks[s]?.map fun start =>
    ⟨switched (enabledAt sinks) actions s, start.2,
      takenSinceClear s (history capacity (enabledAt sinks) actions)⟩
  logs (l : LoggerId) : d.loggers[l]? = loggers[l]?.map fun start =>
    Logger.written start.1 start.2
      ((history capacity (enabledAt sinks) actions).flatMap
        (Moment.lines (attachedAt sinks) l start.1))

variable {capacity loggers sinks}

theorem Recounts.agrees {actions : List Action} {d : Desk}
    (h : Recounts capacity loggers sinks actions d) :
    d.Agrees (switched (enabledAt sinks) actions) (attachedAt sinks) := by
  constructor
  case there =>
    intro s sink hsink
    rw [h.keeps, Option.map_eq_some_iff] at hsink
    obtain ⟨start, hstart, rfl⟩ := hsink
    simp [attachedAt, hstart]
  case absent =>
    intro s hnone
    rw [h.keeps, Option.map_eq_none_iff] at hnone
    rw [attachedAt, hnone, Option.bind_none]

theorem Recounts.perform {actions : List Action} {d : Desk}
    (h : Recounts capacity loggers sinks actions d) (action : Action) :
    Recounts capacity loggers sinks (actions ++ [action]) (d.perform action) := by
  constructor
  case room => rw [capacity_perform, h.room]
  case keeps =>
    intro s
    rw [sinks_perform h.agrees, h.room, h.keeps, Option.map_map, switched_concat, history_concat,
      takenSinceClear_concat]
    rfl
  case logs =>
    intro l
    rw [loggers_perform h.agrees, h.room, h.logs, Option.map_map, history_concat]
    congr 1
    funext start
    simp [Logger.foldl_log_written]

theorem recounts_furnished :
    Recounts capacity loggers sinks [] (furnished capacity loggers sinks) := by
  constructor
  case room =>
    rw [furnished, foldl_addSink, foldl_addLogger]
    rfl
  case keeps =>
    intro s
    rw [sinks_furnished]
    apply Option.map_congr
    intro start hstart
    have henabled : switched (enabledAt sinks) [] s = start.1 := by
      rw [switched, List.foldl_nil, enabledAt, hstart]
      rfl
    rw [henabled]
    rfl
  case logs => exact loggers_furnished capacity loggers sinks

theorem recounts_run (actions : List Action) :
    Recounts capacity loggers sinks actions ((furnished capacity loggers sinks).run actions) := by
  induction actions using List.reverseRecOn with
  | nil => exact recounts_furnished
  | append_singleton actions action ih =>
    rw [run_concat]
    exact ih.perform action

end

/-- Reports to a sink that is not enabled change nothing. -/
theorem reportAll_of_not_accepts {d : Desk} {s : SinkId} (h : d.accepts s = false)
    (diagnostics : List Diagnostic) : d.reportAll s diagnostics = d := by
  have hreport : ∀ diagnostic, d.report s diagnostic = d := by
    intro diagnostic
    rw [report]
    split
    case h_1 sink hsink =>
      have hoff : sink.enabled = false := by rwa [accepts, hsink] at h
      rw [hoff, if_neg Bool.false_ne_true]
    case h_2 => rfl
  induction diagnostics with
  | nil => rfl
  | cons diagnostic diagnostics ih =>
    rw [reportAll, List.foldl_cons, hreport]
    exact ih

/-- After any actions at a desk with new loggers and sinks, each sink keeps the diagnostics that it
took in since it was last cleared, and each logger has logged, in the order in which it happened,
what was logged directly and what was reported to the enabled sinks attached to it. Clearing or
switching a sink and reports to a sink that is not enabled leave all logs as they are. -/
theorem run_history (capacity : Text.Capacity) (loggers : List (String × Bool))
    (sinks : List (Bool × Option LoggerId)) (actions : List Action) :
    let d := (furnished capacity loggers sinks).run actions
    let moments := history capacity (enabledAt sinks) actions
    (∀ s : SinkId, d.sinks[s]? = sinks[s]?.map fun start =>
      Sink.mk (switched (enabledAt sinks) actions s) start.2 (takenSinceClear s moments)) ∧
    (∀ l : LoggerId, d.loggers[l]? = loggers[l]?.map fun start =>
      Logger.written start.1 start.2
        (moments.flatMap (Moment.lines (attachedAt sinks) l start.1))) ∧
    (∀ s, (d.perform (.clear s)).loggers = d.loggers) ∧
    (∀ s enabled, (d.perform (.switch s enabled)).loggers = d.loggers) ∧
    (∀ s, d.accepts s = false →
      (∀ diagnostic, d.perform (.report s diagnostic) = d) ∧
      ∀ elements, d.perform (.warn (some s) elements) = d) := by
  intro d moments
  have hrun : Recounts capacity loggers sinks actions d := recounts_run actions
  refine ⟨hrun.keeps, hrun.logs, fun _ => rfl, fun _ _ => rfl, fun s hs => ⟨?_, ?_⟩⟩
  · intro diagnostic
    exact reportAll_of_not_accepts hs [diagnostic]
  · intro elements
    exact reportAll_of_not_accepts hs _

example : (((furnished .standard [("gen", false)] [(true, some 0)]).run
    [.report 0 ⟨.info, "a", none⟩, .clear 0, .report 0 ⟨.warning, "b", none⟩, .switch 0 false,
      .report 0 ⟨.error, "c", none⟩]).loggers[0]?.map (·.kept)) =
    some ["info: a", "warning: b"] := by
  decide

end Desk

end ClassCode
