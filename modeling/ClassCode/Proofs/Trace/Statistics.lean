import ClassCode.Proofs.Sorting
import ClassCode.Proofs.Trace.Run

/-!
# Statistics of calls

The statistics of a tracer are those of its log: the operations that were called, in the order of
their first calls, each with the number of its calls (`TraceLog.tally`). Every call shows how many
calls of its operation there were when it was made (`TraceLog.Ranked`). Both are kept by whatever
happens to a tracer (`tallied_run`), and together with the brackets of the log they say what the
tracer's own members in the data of a call are (`run_statistics`).
-/

namespace ClassCode

namespace TraceEvent

/-- How many calls of its operation a call counts, itself included; zero for other events. -/
def callCount (e : TraceEvent) : Nat :=
  match e.record with
  | .call _ _ count _ => count
  | _ => 0

/-- The data of a call show its count, whatever data it was given. -/
theorem get?_data_callCount {e : TraceEvent} (h : e.isCall = true) :
    Keyed.get? e.data "_call_count" = some (.num e.callCount) := by
  obtain ⟨operation, record, depth⟩ := e
  cases record with
  | call id parent count arguments => simp [data, callCount, Keyed.putAll, Keyed.get?_put]
  | result id info => cases h
  | failure id kind message => cases h

end TraceEvent

namespace TraceLog

open TraceEvent

variable {log : List TraceEvent} {e x : TraceEvent}

/-- The calls of an operation. -/
def callsOf (operation : String) (log : List TraceEvent) : List TraceEvent :=
  (calls log).filter fun e => e.operation == operation

/-- The operations that were called, in the order of their first calls. -/
def operations (log : List TraceEvent) : List String := ((calls log).map (·.operation)).eraseDups

/-- The statistics that a log tells of. -/
def tally (log : List TraceEvent) : List (String × Nat) :=
  Keyed.tabulate (fun operation => (callsOf operation log).length) (operations log)

/-- Whether every call of a log counts the calls of its operation up to itself. -/
def Ranked (log : List TraceEvent) : Prop :=
  ∀ before e after, log = before ++ e :: after → e.isCall = true →
    e.callCount = (callsOf e.operation before).length + 1

theorem contains_operations (log : List TraceEvent) (operation : String) :
    (operations log).contains operation = !(callsOf operation log).isEmpty := by
  rw [Bool.eq_iff_iff, List.contains_iff_mem, operations, List.mem_eraseDups, Bool.not_eq_true',
    ← Bool.not_eq_true, List.isEmpty_iff, callsOf, List.filter_eq_nil_iff]
  simp

/-- In the statistics each operation has the number of its calls, and those without calls are not
there. -/
theorem get?_tally (log : List TraceEvent) (operation : String) :
    (Keyed.get? (tally log) operation).getD 0 = (callsOf operation log).length := by
  rw [tally, Keyed.get?_tabulate, contains_operations]
  cases callsOf operation log <;> rfl

theorem callsOf_call (h : e.isCall = true) (operation : String) :
    callsOf operation (log ++ [e]) =
      if e.operation == operation then callsOf operation log ++ [e]
      else callsOf operation log := by
  rw [callsOf, calls_call h, List.filter_append, List.filter_singleton]
  cases e.operation == operation <;> simp [callsOf]

/-- A call is counted for its operation, which is a new one if it was not called before. -/
theorem tally_call (h : e.isCall = true) :
    tally (log ++ [e]) =
      Keyed.put (tally log) e.operation ((callsOf e.operation log).length + 1) := by
  have hown : (callsOf e.operation (log ++ [e])).length = (callsOf e.operation log).length + 1 := by
    rw [callsOf_call h, if_pos (beq_self_eq_true _), List.length_append]
    rfl
  have hothers : ∀ operation, operation ≠ e.operation →
      (callsOf operation (log ++ [e])).length = (callsOf operation log).length := by
    intro operation hne
    rw [callsOf_call h, if_neg (by simpa using hne.symm)]
  have hoperations : operations (log ++ [e]) = if (operations log).contains e.operation
      then operations log else operations log ++ [e.operation] := by
    have hcontains : (operations log).contains e.operation =
        ((calls log).map (·.operation)).contains e.operation := by
      rw [Bool.eq_iff_iff, List.contains_iff_mem, List.contains_iff_mem, operations,
        List.mem_eraseDups]
    rw [hcontains, operations, calls_call h, List.map_append, List.map_singleton, eraseDups_concat]
    rfl
  rw [← hown, tally, hoperations]
  exact (Keyed.put_tabulate hothers (nodup_eraseDups _)).symm

/-- An event that is no call is not counted. -/
theorem tally_close (h : x.isCall = false) : tally (log ++ [x]) = tally log := by
  unfold tally operations callsOf
  rw [calls_close h]

theorem Ranked.concat (h : Ranked log) (he : e.isCall = true →
    e.callCount = (callsOf e.operation log).length + 1) : Ranked (log ++ [e]) := by
  intro before c after heq hcall
  rcases List.eq_nil_or_concat' after with rfl | ⟨after, x, rfl⟩
  · obtain ⟨rfl, hlast⟩ := List.append_inj' heq rfl
    obtain rfl := List.singleton_inj.1 hlast
    exact he hcall
  · rw [← List.cons_append, ← List.append_assoc] at heq
    exact h before c after (List.append_inj' heq rfl).1 hcall

end TraceLog

namespace Tracer

open TraceEvent TraceLog

variable {t : Tracer}

/-- Whether the statistics of a tracer, and the counts that its calls show, are those of its log. -/
structure Tallied (t : Tracer) : Prop where
  stats : t.stats = tally t.events
  ranked : Ranked t.events

namespace Tallied

theorem countOf_eq (h : t.Tallied) (operation : String) :
    t.countOf operation = (callsOf operation t.events).length := by
  rw [countOf, h.stats, get?_tally]

theorem call (h : t.Tallied) (operation : String) (arguments : List (String × Json)) :
    (t.call operation arguments).Tallied := by
  by_cases ht : t.enabled = true
  · have hcall : (t.callEntry operation arguments).isCall = true := rfl
    rw [call_of_enabled ht]
    constructor
    case stats =>
      rw [tally_call hcall, ← h.stats, h.countOf_eq]
      rfl
    case ranked => exact h.ranked.concat fun _ => congrArg (· + 1) (h.countOf_eq operation)
  · rwa [call_of_disabled (by simpa using ht)]

theorem close (h : t.Tallied) (operation : String) (record : Nat → TraceRecord)
    (hclose : (t.closeEntry operation record).isCall = false) :
    (t.close operation record).Tallied := by
  by_cases ht : t.enabled = true
  · rw [close_of_enabled ht]
    constructor
    case stats => rw [tally_close hclose, ← h.stats]
    case ranked => exact h.ranked.concat fun hcall => by simp [hclose] at hcall
  · rwa [close_of_disabled (by simpa using ht)]

theorem perform (h : t.Tallied) (action : Action) : (t.perform action).Tallied := by
  cases action with
  | call operation arguments => exact h.call operation arguments
  | result operation info => exact h.close operation (fun id => .result id info) rfl
  | failure operation fault => exact h.close operation (fun id => .failure id _ _) rfl
  | switch enabled => exact ⟨h.stats, h.ranked⟩

theorem run (h : t.Tallied) (actions : List Action) : (t.run actions).Tallied := by
  induction actions generalizing t with
  | nil => exact h
  | cons action actions ih => exact ih (h.perform action)

end Tallied

theorem tallied_new (enabled : Bool) (start : Int) (clock : Nat → Int) :
    (new enabled start clock).Tallied where
  stats := rfl
  ranked := by simp [Ranked, new]

/-- The statistics of a tracer that was new once are those of its log. -/
theorem tallied_run (enabled : Bool) (start : Int) (clock : Nat → Int) (actions : List Action) :
    ((new enabled start clock).run actions).Tallied :=
  (tallied_new enabled start clock).run actions

/-- Whatever happens to a new tracer and whatever data it is given, the data of its calls show the
numbers 1, 2, 3 and so on. Its statistics are the operations that were called, each once and in the
order of first calls, with the numbers of their calls. The data of a call show its rank among the
calls of its operation and, as its parent, zero or the number of an earlier call that was not
closed by then. -/
theorem run_statistics (enabled : Bool) (start : Int) (clock : Nat → Int)
    (actions : List Action) :
    let t := (new enabled start clock).run actions
    (calls t.events).map (fun e => Keyed.get? e.data "_call_id") =
      (List.range' 1 (calls t.events).length).map (fun id : ℕ => some (Json.num id)) ∧
    t.stats = ((calls t.events).map (·.operation)).eraseDups.map (fun operation =>
      (operation, (callsOf operation t.events).length)) ∧
    ∀ before e after, t.events = before ++ e :: after → e.isCall = true →
      Keyed.get? e.data "_call_count" =
        some (.num ((callsOf e.operation before).length + 1 : ℕ)) ∧
      ∃ parent : ℕ, Keyed.get? e.data "_parent_call_id" = some (.num parent) ∧
        (parent = 0 ∨ ∃ c ∈ before, c.isCall = true ∧
          Keyed.get? c.data "_call_id" = some (.num parent) ∧
          ∀ x ∈ before, x.closes c = false) := by
  intro t
  have ht : t.Consistent := consistent_run enabled start clock actions
  have htallied : t.Tallied := tallied_run enabled start clock actions
  refine ⟨?_, htallied.stats, fun before e after hevents hcall => ?_⟩
  · rw [← ht.log.map_callId_calls, List.map_map]
    exact List.map_congr_left fun e _ => e.get?_data_callId
  · have hlog : WellBracketed (before ++ e :: after) := hevents ▸ ht.log
    rw [get?_data_callCount hcall, htallied.ranked before e after hevents hcall]
    refine ⟨rfl, e.parentId, get?_data_parentId hcall, ?_⟩
    rw [(hlog.upTo.of_concat.2.1 hcall).2.1, innermost]
    cases hlast : (unclosed before).getLast? with
    | none => exact .inl rfl
    | some c =>
      obtain ⟨hc, hccall, hopen⟩ := mem_unclosed.1 (List.mem_of_getLast? hlast)
      exact .inr ⟨c, hc, hccall, c.get?_data_callId, hopen⟩

/-- A call that is made while the tracer is off is not counted, and given data do not replace what
the tracer shows. -/
example :
    let t := (new true).run [.call "b" [("_call_count", .num 9)], .result "b" [], .call "a" [],
      .switch false, .call "a" [], .switch true, .call "b" []]
    t.stats = [("b", 2), ("a", 1)] ∧
      (calls t.events).map (fun e => Keyed.get? e.data "_call_count") =
        [some (.num 1), some (.num 1), some (.num 2)] :=
  ⟨rfl, rfl⟩

end Tracer

end ClassCode
