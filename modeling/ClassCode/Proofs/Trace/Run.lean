import ClassCode.Proofs.Trace.Log

/-!
# Runs of a tracer

What a tracer does one after another: it records calls and how they ended, in any order and number,
and is switched on and off. At all times the log of a new tracer is well bracketed, and its open
calls are the unclosed calls of its log (`consistent_run`); what an event that closes a call
carries, and at which depth it stands, follows from that.
-/

namespace ClassCode

namespace Tracer

open TraceEvent TraceLog

/-- What can happen to a tracer. -/
inductive Action where
  /-- An operation is called. -/
  | call (operation : String) (arguments : List (String × Json))
  /-- An operation returns. -/
  | result (operation : String) (info : List (String × Json))
  /-- An operation fails. -/
  | failure (operation : String) (fault : Fault)
  /-- The tracer is switched on or off. -/
  | switch (enabled : Bool)

/-- The tracer after an action. -/
def perform (t : Tracer) : Action → Tracer
  | .call operation arguments => t.call operation arguments
  | .result operation info => t.result operation info
  | .failure operation fault => t.failure operation fault
  | .switch enabled => t.setEnabled enabled

/-- The tracer after actions, one after another. -/
def run (t : Tracer) (actions : List Action) : Tracer := actions.foldl perform t

variable {t : Tracer}

/-! ## Single entries -/

/-- The entry that a tracer makes for a call. -/
def callEntry (t : Tracer) (operation : String) (arguments : List (String × Json)) : TraceEvent :=
  ⟨operation, .call (t.lastId + 1) (t.openCalls.headD 0) (t.countOf operation + 1) arguments,
    t.depth, t.clock t.events.length⟩

/-- The entry that a tracer makes for the end of a call. -/
def closeEntry (t : Tracer) (operation : String) (record : Nat → TraceRecord) : TraceEvent :=
  ⟨operation, record (t.openCalls.headD 0), t.depth - 1, t.clock t.events.length⟩

theorem call_of_enabled (h : t.enabled = true) (operation : String)
    (arguments : List (String × Json)) :
    t.call operation arguments =
      { t with
        events := t.events ++ [t.callEntry operation arguments]
        stats := Keyed.put t.stats operation (t.countOf operation + 1)
        openCalls := (t.lastId + 1) :: t.openCalls
        lastId := t.lastId + 1 } := by
  rw [call, if_pos h]
  rfl

theorem close_of_enabled (h : t.enabled = true) (operation : String) (record : Nat → TraceRecord) :
    t.close operation record =
      { t with
        events := t.events ++ [t.closeEntry operation record]
        openCalls := t.openCalls.tail } := by
  rw [close, if_pos h, append, closeEntry, depth, depth, List.length_tail]

theorem call_of_disabled (h : t.enabled = false) (operation : String)
    (arguments : List (String × Json)) : t.call operation arguments = t := by
  rw [call, h]
  rfl

theorem close_of_disabled (h : t.enabled = false) (operation : String)
    (record : Nat → TraceRecord) : t.close operation record = t := by
  rw [close, h]
  rfl

/-- While a tracer is switched off, nothing but its switch can change. -/
theorem perform_of_disabled (h : t.enabled = false) (action : Action) :
    t.perform action = { t with enabled := (t.perform action).enabled } := by
  cases action with
  | call operation arguments => rw [perform, call_of_disabled h]
  | result operation info => rw [perform, result, close_of_disabled h]
  | failure operation fault => rw [perform, failure, close_of_disabled h]
  | switch enabled => rfl

/-! ## All entries -/

/-- Whether the counters and the open calls of a tracer are those that its log tells of. -/
structure Consistent (t : Tracer) : Prop where
  log : WellBracketed t.events
  openCalls : t.openCalls = ((unclosed t.events).map callId).reverse
  lastId : t.lastId = (calls t.events).length

namespace Consistent

theorem headD_openCalls (h : t.Consistent) : t.openCalls.headD 0 = innermost t.events := by
  rw [h.openCalls, List.headD_eq_head?_getD, List.head?_reverse, List.getLast?_map]
  rfl

theorem depth_eq (h : t.Consistent) : t.depth = (unclosed t.events).length := by
  rw [depth, h.openCalls, List.length_reverse, List.length_map]

/-- A call is recorded with the next number, under the innermost open call. -/
theorem call (h : t.Consistent) (operation : String) (arguments : List (String × Json)) :
    (t.call operation arguments).Consistent := by
  by_cases ht : t.enabled = true
  · have hcall : (t.callEntry operation arguments).isCall = true := rfl
    have hid : (t.callEntry operation arguments).callId = (calls t.events).length + 1 := by
      rw [← h.lastId]
      rfl
    rw [call_of_enabled ht]
    constructor
    case log => exact .call h.log hcall hid h.headD_openCalls h.depth_eq
    case openCalls =>
      rw [h.log.unclosed_concat_call hcall hid, h.openCalls, List.map_append, List.reverse_append]
      rfl
    case lastId =>
      rw [calls_call hcall, h.lastId, List.length_append]
      rfl
  · rwa [call_of_disabled (by simpa using ht)]

/-- An entry that closes a call closes the innermost open one. -/
theorem close (h : t.Consistent) (operation : String) (record : Nat → TraceRecord)
    (hclose : (t.closeEntry operation record).isCall = false)
    (hid : (t.closeEntry operation record).callId = t.openCalls.headD 0) :
    (t.close operation record).Consistent := by
  by_cases ht : t.enabled = true
  · rw [h.headD_openCalls] at hid
    rw [close_of_enabled ht]
    constructor
    case log =>
      refine .close h.log hclose hid ?_
      rw [← h.depth_eq]
      rfl
    case openCalls =>
      rw [h.log.unclosed_concat_close hclose hid, h.openCalls, List.tail_reverse,
        List.map_dropLast]
    case lastId =>
      rw [calls_close hclose]
      exact h.lastId
  · rwa [close_of_disabled (by simpa using ht)]

theorem perform (h : t.Consistent) (action : Action) : (t.perform action).Consistent := by
  cases action with
  | call operation arguments => exact h.call operation arguments
  | result operation info => exact h.close operation (fun id => .result id info) rfl rfl
  | failure operation fault => exact h.close operation (fun id => .failure id _ _) rfl rfl
  | switch enabled => exact ⟨h.log, h.openCalls, h.lastId⟩

theorem run (h : t.Consistent) (actions : List Action) : (t.run actions).Consistent := by
  induction actions generalizing t with
  | nil => exact h
  | cons action actions ih => exact ih (h.perform action)

end Consistent

theorem consistent_new (enabled : Bool) (start : Int) (clock : Nat → Int) :
    (new enabled start clock).Consistent :=
  ⟨.nil, rfl, rfl⟩

/-- The counters and the open calls of a tracer that was new once are those that its log tells
of. -/
theorem consistent_run (enabled : Bool) (start : Int) (clock : Nat → Int) (actions : List Action) :
    ((new enabled start clock).run actions).Consistent :=
  (consistent_new enabled start clock).run actions

/-- Whatever happens to a new tracer, an event that closes a call carries the number and has the
depth of the call that was recorded last among those not closed before, and otherwise carries zero
and has depth zero. No call is closed twice, the depth of the tracer is the number of calls that are
not closed, and while it is switched off nothing but its switch changes. -/
theorem run_brackets (enabled : Bool) (start : Int) (clock : Nat → Int) (actions : List Action) :
    let t := (new enabled start clock).run actions
    (∀ before x after, t.events = before ++ x :: after → x.isCall = false →
      match (unclosed before).getLast? with
      | some c =>
        Keyed.get? c.data "_call_id" = some (.num c.callId) ∧
          Keyed.get? x.data "_call_id" = some (.num c.callId) ∧ x.depth = c.depth
      | none => Keyed.get? x.data "_call_id" = some (.num 0) ∧ x.depth = 0) ∧
    (∀ c ∈ t.events, c.isCall = true →
      1 ≤ c.callId ∧ (t.events.filter fun x => x.closes c).length ≤ 1) ∧
    t.depth = (unclosed t.events).length ∧
    ∀ action, t.enabled = false →
      t.perform action = { t with enabled := (t.perform action).enabled } := by
  intro t
  have ht : t.Consistent := consistent_run enabled start clock actions
  refine ⟨?_, fun c hc hcall => ⟨ht.log.one_le_callId hc hcall,
    ht.log.length_filter_closes_le c hc hcall⟩, ht.depth_eq, fun action h =>
    perform_of_disabled h action⟩
  intro before x after hevents hclose
  have hlog : WellBracketed (before ++ x :: after) := hevents ▸ ht.log
  have hdepth := hlog.depth_close hclose
  have hid := (hlog.upTo.of_concat.2.2 hclose).1
  rw [innermost] at hid
  rw [x.get?_data_callId, hid, hdepth]
  cases (unclosed before).getLast? with
  | none => exact ⟨rfl, rfl⟩
  | some c => exact ⟨c.get?_data_callId, rfl, rfl⟩

/-- Two calls of which the inner one fails, and a return too many. -/
example :
    ((new true).run [.call "outer" [], .call "inner" [("_call_id", .num 7)],
      .failure "inner" (.raised .value "boom"), .result "outer" [],
      .result "late" []]).events.map (fun e => (e.callId, e.depth)) =
      [(1, 0), (2, 1), (2, 1), (1, 0), (0, 0)] := by
  decide

end Tracer

end ClassCode
