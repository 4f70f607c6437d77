import ClassCode.Proofs.Keyed
import ClassCode.Trace.Tracer
import Mathlib.Data.List.Basic
import Mathlib.Data.List.Induction
import Mathlib.Data.List.Nodup

/-!
# Logs of calls

What can be said of a list of trace events alone. An event that is no call closes the call whose
number it carries; the calls of a log that no event closes are its unclosed ones.

In a well bracketed log every call has the next number, the innermost unclosed call as its parent
and as its depth the number of unclosed calls, and every other event closes the innermost unclosed
call, if there is one. All that follows is by induction on how such a log grows, event by event.
-/

namespace ClassCode

namespace TraceEvent

/-- Whether an event closes a call. -/
def closes (x e : TraceEvent) : Bool := !x.isCall && x.callId == e.callId

/-- The data of an event show its number, whatever data it was given. -/
theorem get?_data_callId (e : TraceEvent) :
    Keyed.get? e.data "_call_id" = some (.num e.callId) := by
  obtain ⟨operation, record, depth, time⟩ := e
  cases record with
  | call id parent count arguments => simp [data, callId, Keyed.putAll, Keyed.get?_put]
  | result id info => simp [data, callId, Keyed.get?_put]
  | failure id kind message => rfl

/-- The data of a call show the number of its parent, whatever data it was given. -/
theorem get?_data_parentId {e : TraceEvent} (h : e.isCall = true) :
    Keyed.get? e.data "_parent_call_id" = some (.num e.parentId) := by
  obtain ⟨operation, record, depth, time⟩ := e
  cases record with
  | call id parent count arguments => simp [data, parentId, Keyed.putAll, Keyed.get?_put]
  | result id info => cases h
  | failure id kind message => cases h

theorem closes_of_isCall {x e : TraceEvent} (h : x.isCall = true) : x.closes e = false := by
  simp [closes, h]

end TraceEvent

namespace TraceLog

open TraceEvent

variable {log : List TraceEvent} {e x c : TraceEvent}

/-- The calls of a log. -/
def calls (log : List TraceEvent) : List TraceEvent := log.filter fun e => e.isCall

/-- The calls of a log that no event of it closes, in the order in which they were recorded. -/
def unclosed (log : List TraceEvent) : List TraceEvent :=
  log.filter fun e => e.isCall && !log.any fun x => x.closes e

/-- The number of the unclosed call that was recorded last, zero if there is none. -/
def innermost (log : List TraceEvent) : Nat := ((unclosed log).getLast?.map callId).getD 0

/-- Whether a log tells of calls that are closed in the reverse of the order in which they were
made. -/
inductive WellBracketed : List TraceEvent → Prop
  | nil : WellBracketed []
  | call {log : List TraceEvent} {e : TraceEvent} (h : WellBracketed log) (hcall : e.isCall = true)
      (hid : e.callId = (calls log).length + 1) (hparent : e.parentId = innermost log)
      (hdepth : e.depth = (unclosed log).length) : WellBracketed (log ++ [e])
  | close {log : List TraceEvent} {x : TraceEvent} (h : WellBracketed log)
      (hclose : x.isCall = false) (hid : x.callId = innermost log)
      (hdepth : x.depth = (unclosed log).length - 1) : WellBracketed (log ++ [x])

/-! ## Calls and unclosed calls -/

theorem mem_unclosed : e ∈ unclosed log ↔ e ∈ log ∧ e.isCall = true ∧
    ∀ x ∈ log, x.closes e = false := by
  simp [unclosed]

theorem filter_closes_eq_nil (h : e ∈ unclosed log) : (log.filter fun x => x.closes e) = [] :=
  List.filter_eq_nil_iff.2 fun x hx => by simp [(mem_unclosed.1 h).2.2 x hx]

theorem unclosed_sublist : (unclosed log).Sublist (calls log) := by
  have h : unclosed log = (calls log).filter fun e => !log.any fun x => x.closes e := by
    rw [calls, List.filter_filter, unclosed]
    simp only [Bool.and_comm]
  rw [h]
  exact List.filter_sublist

theorem calls_call (h : e.isCall = true) : calls (log ++ [e]) = calls log ++ [e] := by
  simp [calls, h]

theorem calls_close (h : x.isCall = false) : calls (log ++ [x]) = calls log := by
  simp [calls, h]

/-- A number that is carried by no event of a log is not that of a closed call. -/
theorem unclosed_call (hcall : e.isCall = true) (hnew : ∀ x ∈ log, x.callId ≠ e.callId) :
    unclosed (log ++ [e]) = unclosed log ++ [e] := by
  have hself : (log ++ [e]).any (fun x => x.closes e) = false := by
    rw [List.any_eq_false]
    intro x hx
    rcases List.mem_append.1 hx with hx | hx
    · simp [closes, hnew x hx]
    · rw [List.mem_singleton.1 hx, closes_of_isCall hcall]
      exact Bool.false_ne_true
  have hothers : ∀ c, (log ++ [e]).any (fun x => x.closes c) = log.any fun x => x.closes c := by
    intro c
    simp [closes_of_isCall hcall]
  rw [unclosed, List.filter_append, List.filter_singleton, hself, hcall]
  simp only [hothers]
  rfl

theorem unclosed_close (hclose : x.isCall = false) :
    unclosed (log ++ [x]) = (unclosed log).filter fun c => !x.closes c := by
  rw [unclosed, List.filter_append, List.filter_singleton, hclose, unclosed, List.filter_filter,
    Bool.false_and, cond_false, List.append_nil]
  apply List.filter_congr
  intro c _
  rw [List.any_append, List.any_cons, List.any_nil, Bool.or_false, Bool.not_or, ← Bool.and_assoc]
  exact Bool.and_comm _ _

/-! ## Well bracketed logs -/

namespace WellBracketed

/-- The innermost unclosed call has a number that is no larger than those of all events. -/
theorem innermost_le {n : Nat} (h : ∀ x ∈ log, x.callId ≤ n) : innermost log ≤ n := by
  rw [innermost]
  cases hlast : (unclosed log).getLast? with
  | none => exact Nat.zero_le n
  | some c => exact h c (mem_unclosed.1 (List.mem_of_getLast? hlast)).1

/-- No event of a well bracketed log carries a number larger than the number of calls. -/
theorem callId_le (h : WellBracketed log) : ∀ x ∈ log, x.callId ≤ (calls log).length := by
  induction h with
  | nil => simp
  | @call log e h hcall hid hparent hdepth ih =>
    rw [calls_call hcall, List.length_append, List.length_singleton]
    intro x hx
    rcases List.mem_append.1 hx with hx | hx
    · exact Nat.le_succ_of_le (ih x hx)
    · rw [List.mem_singleton.1 hx]
      exact Nat.le_of_eq hid
  | @close log x h hclose hid hdepth ih =>
    rw [calls_close hclose]
    intro y hy
    rcases List.mem_append.1 hy with hy | hy
    · exact ih y hy
    · rw [List.mem_singleton.1 hy, hid]
      exact innermost_le ih

/-- The calls of a well bracketed log are numbered from one. -/
theorem map_callId_calls (h : WellBracketed log) :
    (calls log).map callId = List.range' 1 (calls log).length := by
  induction h with
  | nil => rfl
  | @call log e h hcall hid hparent hdepth ih =>
    rw [calls_call hcall, List.map_append, ih, List.length_append]
    simp [List.range'_1_concat, hid, Nat.add_comm 1]
  | @close log x h hclose hid hdepth ih =>
    rw [calls_close hclose]
    exact ih

theorem pairwise_calls (h : WellBracketed log) :
    (calls log).Pairwise fun a b => a.callId < b.callId := by
  rw [← List.pairwise_map (R := (· < ·)), h.map_callId_calls]
  exact List.pairwise_lt_range'

theorem pairwise_unclosed (h : WellBracketed log) :
    (unclosed log).Pairwise fun a b => a.callId < b.callId :=
  h.pairwise_calls.sublist unclosed_sublist

theorem one_le_callId (h : WellBracketed log) (he : e ∈ log) (hcall : e.isCall = true) :
    1 ≤ e.callId := by
  have hmem : e.callId ∈ (calls log).map callId :=
    List.mem_map_of_mem (List.mem_filter.2 ⟨he, hcall⟩)
  rw [h.map_callId_calls, List.mem_range'] at hmem
  omega

/-- Two calls of a well bracketed log with the same number are the same. -/
theorem eq_of_callId_eq (h : WellBracketed log) (hc : c ∈ log) (hccall : c.isCall = true)
    (he : e ∈ log) (hecall : e.isCall = true) (hid : c.callId = e.callId) : c = e := by
  have hnodup : ((calls log).map callId).Nodup := by
    rw [h.map_callId_calls]
    exact List.nodup_range'
  exact List.inj_on_of_nodup_map hnodup (List.mem_filter.2 ⟨hc, hccall⟩)
    (List.mem_filter.2 ⟨he, hecall⟩) hid

/-- A call that gets the next number is not closed. -/
theorem unclosed_concat_call (h : WellBracketed log) (hcall : e.isCall = true)
    (hid : e.callId = (calls log).length + 1) : unclosed (log ++ [e]) = unclosed log ++ [e] := by
  apply unclosed_call hcall
  intro x hx heq
  have := h.callId_le x hx
  omega

/-- An event that closes the innermost unclosed call leaves the others unclosed. -/
theorem unclosed_concat_close (h : WellBracketed log) (hclose : x.isCall = false)
    (hid : x.callId = innermost log) : unclosed (log ++ [x]) = (unclosed log).dropLast := by
  rw [unclosed_close hclose]
  rw [innermost] at hid
  rcases List.eq_nil_or_concat' (unclosed log) with hnil | ⟨os, c, hos⟩
  · rw [hnil]
    rfl
  · have hlt : ∀ o ∈ os, o.callId < c.callId := by
      have hpairwise := h.pairwise_unclosed
      rw [hos, List.pairwise_append] at hpairwise
      exact fun o ho => hpairwise.2.2 o ho c (by simp)
    rw [hos, List.getLast?_concat, Option.map_some, Option.getD_some] at hid
    have hkept : os.filter (fun c => !x.closes c) = os := by
      rw [List.filter_eq_self]
      intro o ho
      have hne : x.callId ≠ o.callId := by
        have := hlt o ho
        omega
      simp [closes, hne]
    have hdropped : x.closes c = true := by
      simpa [closes, hclose] using hid
    simp [hos, hkept, hdropped]

/-- The unclosed calls of a well bracketed log have the depths 0, 1, 2 and so on. -/
theorem map_depth_unclosed (h : WellBracketed log) :
    (unclosed log).map depth = List.range (unclosed log).length := by
  induction h with
  | nil => rfl
  | @call log e h hcall hid hparent hdepth ih =>
    rw [h.unclosed_concat_call hcall hid]
    simp [ih, hdepth, List.range_succ]
  | @close log x h hclose hid hdepth ih =>
    rw [h.unclosed_concat_close hclose hid, List.length_dropLast, List.map_dropLast, ih]
    cases (unclosed log).length with
    | zero => rfl
    | succ n => simp [List.range_succ]

/-- A call with the number of the innermost unclosed call is that call. -/
theorem getLast?_unclosed (h : WellBracketed log) (hc : c ∈ log) (hcall : c.isCall = true)
    (hid : c.callId = innermost log) : (unclosed log).getLast? = some c := by
  rw [innermost] at hid
  cases hlast : (unclosed log).getLast? with
  | none =>
    have hpos := h.one_le_callId hc hcall
    rw [hlast, Option.map_none, Option.getD_none] at hid
    omega
  | some o =>
    obtain ⟨ho, hocall, -⟩ := mem_unclosed.1 (List.mem_of_getLast? hlast)
    rw [hlast, Option.map_some, Option.getD_some] at hid
    rw [h.eq_of_callId_eq ho hocall hc hcall hid.symm]

/-- No call of a well bracketed log is closed twice. -/
theorem length_filter_closes_le (h : WellBracketed log) :
    ∀ c ∈ log, c.isCall = true → (log.filter fun x => x.closes c).length ≤ 1 := by
  induction h with
  | nil => simp
  | @call log e h hcall hid hparent hdepth ih =>
    intro c hc hccall
    rcases List.mem_append.1 hc with hc | hc
    · rw [List.filter_append, List.filter_singleton, closes_of_isCall hcall, cond_false,
        List.append_nil]
      exact ih c hc hccall
    · -- the new call is not closed yet
      have hnew : c ∈ unclosed (log ++ [e]) := by
        rw [h.unclosed_concat_call hcall hid]
        exact List.mem_append_right _ hc
      rw [filter_closes_eq_nil hnew]
      exact Nat.zero_le 1
  | @close log x h hclose hid hdepth ih =>
    intro c hc hccall
    have hc : c ∈ log := by
      rcases List.mem_append.1 hc with hc | hc
      · exact hc
      · rw [List.mem_singleton.1 hc, hclose] at hccall
        cases hccall
    rw [List.filter_append, List.length_append, List.filter_singleton]
    cases hcloses : x.closes c with
    | false => simpa using ih c hc hccall
    | true =>
      -- the call that is closed now was unclosed before
      have hinnermost : c.callId = innermost log := by
        rw [closes, hclose, Bool.not_false, Bool.true_and, beq_iff_eq] at hcloses
        rw [← hcloses, hid]
      have hopen := List.mem_of_getLast? (h.getLast?_unclosed hc hccall hinnermost)
      rw [filter_closes_eq_nil hopen]
      exact Nat.le_refl 1

/-! ## Moments of a well bracketed log -/

/-- How the last event of a well bracketed log came to be there. -/
theorem of_concat (h : WellBracketed (log ++ [e])) : WellBracketed log ∧
    (e.isCall = true → e.callId = (calls log).length + 1 ∧ e.parentId = innermost log ∧
      e.depth = (unclosed log).length) ∧
    (e.isCall = false → e.callId = innermost log ∧ e.depth = (unclosed log).length - 1) := by
  generalize hlog : log ++ [e] = log' at h
  cases h with
  | nil => simp at hlog
  | @call log₁ e₁ h hcall hid hparent hdepth =>
    obtain ⟨rfl, he⟩ := List.append_inj' hlog rfl
    obtain rfl := List.singleton_inj.1 he
    exact ⟨h, fun _ => ⟨hid, hparent, hdepth⟩, fun hfalse => by simp [hcall] at hfalse⟩
  | @close log₁ e₁ h hclose hid hdepth =>
    obtain ⟨rfl, he⟩ := List.append_inj' hlog rfl
    obtain rfl := List.singleton_inj.1 he
    exact ⟨h, fun htrue => by simp [hclose] at htrue, fun _ => ⟨hid, hdepth⟩⟩

/-- A log was well bracketed at all times before. -/
theorem before {after : List TraceEvent} (h : WellBracketed (log ++ after)) :
    WellBracketed log := by
  induction after using List.reverseRecOn with
  | nil => rwa [List.append_nil] at h
  | append_singleton after e ih =>
    rw [← List.append_assoc] at h
    exact ih h.of_concat.1

/-- A log was well bracketed when an event was recorded. -/
theorem upTo {after : List TraceEvent} (h : WellBracketed (log ++ e :: after)) :
    WellBracketed (log ++ [e]) := by
  rw [List.append_cons] at h
  exact h.before

/-- The parent of a call has a lower number. -/
theorem parentId_lt (h : WellBracketed log) (he : e ∈ log) (hcall : e.isCall = true) :
    e.parentId < e.callId := by
  obtain ⟨before, after, rfl⟩ := List.append_of_mem he
  obtain ⟨hbefore, hnew, -⟩ := h.upTo.of_concat
  obtain ⟨hid, hparent, -⟩ := hnew hcall
  have hle := innermost_le hbefore.callId_le
  omega

/-- An event that closes a call has the depth of that call, and one that closes none has depth
zero. -/
theorem depth_close {after : List TraceEvent} (h : WellBracketed (log ++ x :: after))
    (hclose : x.isCall = false) :
    x.depth = ((unclosed log).getLast?.map depth).getD 0 := by
  obtain ⟨hlog, -, hx⟩ := h.upTo.of_concat
  rw [(hx hclose).2, ← List.getLast?_map, hlog.map_depth_unclosed, List.getLast?_range]
  cases (unclosed log).length with
  | zero => rfl
  | succ n => simp

end WellBracketed

end TraceLog

end ClassCode
