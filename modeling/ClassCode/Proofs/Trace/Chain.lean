import ClassCode.Proofs.Trace.Run

/-!
# Call chains

The chain of calls that led to a call is put together from the log when it is asked for, by going
from parent to parent. It consists of the calls that were open when the call was recorded, although
these may have been closed since.

The search for the chain ends as every parent has a lower number than its child. What it finds is
what was unclosed because the calls below an unclosed one stay as they are
(`WellBracketed.unclosed_prefix`).
-/

namespace ClassCode

namespace TraceLog

open TraceEvent

variable {log : List TraceEvent} {e c : TraceEvent}

/-- The chains that are found by going from parent to parent, as the data of the calls in a log show
them, starting at the call with a given number and ending where no call has the number. -/
inductive Climb (log : List TraceEvent) : Nat → List TraceEvent → Prop
  | stop {id : Nat}
      (h : ∀ e ∈ log, e.isCall = true → Keyed.get? e.data "_call_id" ≠ some (.num id)) :
      Climb log id []
  | step {id parent : Nat} {e : TraceEvent} {chain : List TraceEvent} (he : e ∈ log)
      (hcall : e.isCall = true) (hid : Keyed.get? e.data "_call_id" = some (.num id))
      (hparent : Keyed.get? e.data "_parent_call_id" = some (.num parent))
      (h : Climb log parent chain) : Climb log id (chain ++ [e])

/-! ## The calls below an unclosed call -/

namespace WellBracketed

/-- The calls that were unclosed when a call was recorded are still unclosed while that call is. -/
theorem unclosed_prefix {after : List TraceEvent} (h : WellBracketed (log ++ e :: after))
    (he : e ∈ unclosed (log ++ e :: after)) :
    unclosed log ++ [e] <+: unclosed (log ++ e :: after) := by
  induction after using List.reverseRecOn with
  | nil =>
    obtain ⟨hlog, hcall, -⟩ := h.of_concat
    have hecall := (mem_unclosed.1 he).2.1
    have hunclosed := hlog.unclosed_concat_call hecall (hcall hecall).1
    exact ⟨[], by rw [List.append_nil, hunclosed]⟩
  | append_singleton after x ih =>
    rw [← List.cons_append, ← List.append_assoc] at h he ⊢
    obtain ⟨hbefore, hcall, hclose⟩ := h.of_concat
    cases hx : x.isCall with
    | true =>
      -- a call leaves everything unclosed
      rw [hbefore.unclosed_concat_call hx (hcall hx).1] at he ⊢
      have hlt : e.callId < x.callId := by
        have hle := hbefore.callId_le e (by simp)
        have hid := (hcall hx).1
        omega
      have he' : e ∈ unclosed (log ++ e :: after) := by
        rcases List.mem_append.1 he with he | he
        · exact he
        · rw [List.mem_singleton.1 he] at hlt
          exact absurd hlt (Nat.lt_irrefl _)
      exact (ih hbefore he').trans (List.prefix_append _ _)
    | false =>
      -- the innermost call that is closed is not among those up to `e`, as `e` is still unclosed
      rw [hbefore.unclosed_concat_close hx (hclose hx).1] at he ⊢
      obtain ⟨inner, hinner⟩ := ih hbefore (List.dropLast_subset _ he)
      rcases List.eq_nil_or_concat' inner with rfl | ⟨inner, o, rfl⟩
      · have hpairwise := hbefore.pairwise_unclosed
        rw [← hinner, List.append_nil, List.dropLast_concat] at he
        rw [← hinner, List.append_nil, List.pairwise_append] at hpairwise
        exact absurd (hpairwise.2.2 e he e (by simp)) (Nat.lt_irrefl _)
      · rw [← hinner, ← List.append_assoc, List.dropLast_concat]
        exact List.prefix_append _ _

/-- The calls that were unclosed when the innermost unclosed call was recorded are all others that
are unclosed. -/
theorem unclosed_eq_of_getLast? {after : List TraceEvent} (h : WellBracketed (log ++ e :: after))
    (he : (unclosed (log ++ e :: after)).getLast? = some e) :
    unclosed (log ++ e :: after) = unclosed log ++ [e] := by
  obtain ⟨inner, hinner⟩ := h.unclosed_prefix (List.mem_of_getLast? he)
  rcases List.eq_nil_or_concat' inner with rfl | ⟨inner, o, rfl⟩
  · rw [← hinner, List.append_nil]
  · have hpairwise := h.pairwise_unclosed
    rw [← hinner, ← List.append_assoc, List.getLast?_concat] at he
    rw [← hinner, List.pairwise_append] at hpairwise
    have hlt := hpairwise.2.2 e (by simp) o (by simp)
    rw [Option.some.inj he] at hlt
    exact absurd hlt (Nat.lt_irrefl _)

end WellBracketed

end TraceLog

/-! ## Finding the chain -/

namespace Tracer

open TraceEvent TraceLog

variable {t : Tracer} {id : Nat} {e : TraceEvent}

/-- A number that no call carries leads to no call. -/
theorem findCall?_eq_none (h : ∀ e ∈ t.events, e.isCall = true → e.callId ≠ id) :
    t.findCall? id = none := by
  rw [findCall?, List.find?_eq_none]
  intro e he hfound
  rw [Bool.and_eq_true, beq_iff_eq] at hfound
  exact h e he hfound.1 hfound.2

/-- The number of a call leads to that call. -/
theorem Consistent.findCall?_eq (h : t.Consistent) (he : e ∈ t.events) (hcall : e.isCall = true) :
    t.findCall? e.callId = some e := by
  cases hfound : t.findCall? e.callId with
  | none =>
    rw [findCall?, List.find?_eq_none] at hfound
    simpa [hcall] using hfound e he
  | some c =>
    have hc := List.find?_some hfound
    rw [Bool.and_eq_true, beq_iff_eq] at hc
    rw [h.log.eq_of_callId_eq (List.mem_of_find?_eq_some hfound) hc.1 he hcall hc.2]

/-- Without a call of the given number the chain is empty. -/
theorem callChain_eq_nil (h : t.findCall? id = none) : t.callChain id = [] := by
  rw [callChain, chainUp, h]
  rfl

/-- The chain of a call is that of its parent, followed by the call. -/
theorem Consistent.callChain_eq (h : t.Consistent) (he : e ∈ t.events) (hcall : e.isCall = true) :
    t.callChain e.callId = t.callChain e.parentId ++ [e] := by
  have hup : t.chainUp e.callId = e :: t.chainUp e.parentId := by
    rw [chainUp, h.findCall?_eq he hcall]
    exact congrArg (e :: ·) (if_pos (h.log.parentId_lt he hcall))
  rw [callChain, hup, List.reverse_cons]
  rfl

/-- The chain of a call consists of the calls that were unclosed when it was recorded and that call
itself. -/
theorem Consistent.callChain_eq_unclosed (h : t.Consistent) {before after : List TraceEvent}
    (hevents : t.events = before ++ e :: after) (hcall : e.isCall = true) :
    t.callChain e.callId = unclosed before ++ [e] := by
  induction hid : e.callId using Nat.strongRecOn generalizing before e after with
  | ind id ih =>
    have hlog : WellBracketed (before ++ e :: after) := hevents ▸ h.log
    have he : e ∈ t.events := by
      rw [hevents]
      simp
    have hparent := (hlog.upTo.of_concat.2.1 hcall).2.1
    rw [← hid, h.callChain_eq he hcall, hparent, innermost]
    cases hlast : (unclosed before).getLast? with
    | none =>
      have hzero : ∀ c ∈ t.events, c.isCall = true → c.callId ≠ 0 := fun c hc hccall =>
        Nat.one_le_iff_ne_zero.1 (h.log.one_le_callId hc hccall)
      rw [Option.map_none, Option.getD_none, callChain_eq_nil (findCall?_eq_none hzero),
        List.getLast?_eq_none_iff.1 hlast]
    | some p =>
      -- the chain of the parent is that of the innermost call that was unclosed
      obtain ⟨hp, hpcall, -⟩ := mem_unclosed.1 (List.mem_of_getLast? hlast)
      obtain ⟨first, between, rfl⟩ := List.append_of_mem hp
      have hlt : p.callId < id := by
        rw [← hid, ← show e.parentId = p.callId by rw [hparent, innermost, hlast]; rfl]
        exact h.log.parentId_lt he hcall
      have hsplit : t.events = first ++ p :: (between ++ e :: after) := by
        rw [hevents, List.append_assoc, List.cons_append]
      have hchain : t.callChain p.callId = unclosed first ++ [p] :=
        ih p.callId hlt hsplit hpcall rfl
      rw [Option.map_some, Option.getD_some, hchain, hlog.before.unclosed_eq_of_getLast? hlast]

/-- Going from parent to parent ends, and the chain is what it finds. -/
theorem Consistent.climb_iff (h : t.Consistent) {chain : List TraceEvent} :
    Climb t.events id chain ↔ chain = t.callChain id := by
  constructor
  · intro hclimb
    induction hclimb with
    | stop hnone =>
      refine (callChain_eq_nil (findCall?_eq_none fun e he hcall hid => hnone e he hcall ?_)).symm
      rw [e.get?_data_callId, hid]
    | @step id parent e chain he hcall hid hparent hclimb ih =>
      rw [e.get?_data_callId, Option.some.injEq, Json.num.injEq, Int.ofNat_inj] at hid
      rw [get?_data_parentId hcall, Option.some.injEq, Json.num.injEq, Int.ofNat_inj] at hparent
      rw [← hid, h.callChain_eq he hcall, hparent, ih]
  · rintro rfl
    induction id using Nat.strongRecOn with
    | ind id ih =>
      by_cases hid : ∃ e ∈ t.events, e.isCall = true ∧ e.callId = id
      · obtain ⟨e, he, hcall, rfl⟩ := hid
        rw [h.callChain_eq he hcall]
        exact .step he hcall e.get?_data_callId (get?_data_parentId hcall)
          (ih e.parentId (h.log.parentId_lt he hcall))
      · push Not at hid
        rw [callChain_eq_nil (findCall?_eq_none hid)]
        refine .stop fun e he hcall heq => hid e he hcall ?_
        rw [e.get?_data_callId, Option.some.injEq, Json.num.injEq, Int.ofNat_inj] at heq
        exact heq

/-! ## Chains at any time of a run -/

/-- An action adds an entry to the log, which for a call is the entry that the tracer makes for it,
or leaves the log as it is. -/
theorem events_perform (t : Tracer) (action : Action) :
    (t.perform action).events = t.events ∨
      ∃ e, (t.perform action).events = t.events ++ [e] ∧ t.enabled = true ∧
        (e.isCall = true → ∃ operation arguments, action = .call operation arguments) := by
  by_cases ht : t.enabled = true
  · cases action with
    | call operation arguments =>
      rw [perform, call_of_enabled ht]
      exact .inr ⟨_, rfl, ht, fun _ => ⟨operation, arguments, rfl⟩⟩
    | result operation info =>
      rw [perform, result, close_of_enabled ht]
      exact .inr ⟨_, rfl, ht, fun h => Bool.noConfusion h⟩
    | failure operation fault =>
      rw [perform, failure, close_of_enabled ht]
      exact .inr ⟨_, rfl, ht, fun h => Bool.noConfusion h⟩
    | switch enabled => exact .inl rfl
  · rw [perform_of_disabled (by simpa using ht)]
    exact .inl rfl

theorem run_concat (t : Tracer) (actions : List Action) (action : Action) :
    t.run (actions ++ [action]) = (t.run actions).perform action := by
  rw [run, List.foldl_append]
  rfl

/-- A call of the log was recorded by a call during the run, when the log was what stands before
it. -/
theorem exists_moment {actions : List Action} (enabled : Bool) (start : Int) (clock : Nat → Int)
    {before after : List TraceEvent}
    (hevents : ((new enabled start clock).run actions).events = before ++ e :: after)
    (hcall : e.isCall = true) :
    ∃ first operation arguments rest, actions = first ++ .call operation arguments :: rest ∧
      ((new enabled start clock).run first).enabled = true ∧
        ((new enabled start clock).run first).events = before := by
  induction actions using List.reverseRecOn generalizing after with
  | nil =>
    rw [show ((new enabled start clock).run []).events = [] from rfl] at hevents
    simp at hevents
  | append_singleton actions action ih =>
    rw [run_concat] at hevents
    rcases events_perform ((new enabled start clock).run actions) action with
      heq | ⟨e', heq, henabled, hcalled⟩
    · obtain ⟨first, operation, arguments, rest, rfl, hfirst⟩ := ih (heq ▸ hevents)
      exact ⟨first, operation, arguments, rest ++ [action], by simp, hfirst⟩
    · rw [heq] at hevents
      rcases List.eq_nil_or_concat' after with rfl | ⟨after, x, rfl⟩
      · -- the call is the entry that was made last
        obtain ⟨hbefore, he⟩ := List.append_inj' hevents rfl
        obtain ⟨operation, arguments, rfl⟩ := hcalled (by rwa [List.singleton_inj.1 he])
        exact ⟨actions, operation, arguments, [], rfl, henabled, hbefore⟩
      · rw [← List.cons_append, ← List.append_assoc] at hevents
        obtain ⟨first, operation, arguments, rest, rfl, hfirst⟩ :=
          ih (List.append_inj' hevents rfl).1
        exact ⟨first, operation, arguments, rest ++ [action], by simp, hfirst⟩

/-- At all times of a tracer that was new once, the search for a call chain ends with the chain. It
is empty when no call has the number; otherwise it consists of the calls that were open when the
call with the number was recorded, outermost first, and that call itself. There is one call more
in it than the depth of the call tells, and its numbers increase. -/
theorem callChain_run (enabled : Bool) (start : Int) (clock : Nat → Int) (actions : List Action)
    (id : Nat) :
    let t := (new enabled start clock).run actions
    (∀ chain, Climb t.events id chain ↔ chain = t.callChain id) ∧
    ((∀ e ∈ t.events, e.isCall = true → e.callId ≠ id) → t.callChain id = []) ∧
    ∀ before e after, t.events = before ++ e :: after → e.isCall = true → e.callId = id →
      t.callChain id = unclosed before ++ [e] ∧
      (t.callChain id).length = e.depth + 1 ∧
      (t.callChain id).Pairwise (fun a b => a.callId < b.callId) ∧
      ∃ first operation arguments rest, actions = first ++ .call operation arguments :: rest ∧
        ((new enabled start clock).run first).enabled = true ∧
        ((new enabled start clock).run first).events = before ∧
        ((new enabled start clock).run first).openCalls.reverse = (unclosed before).map callId := by
  intro t
  have ht : t.Consistent := consistent_run enabled start clock actions
  refine ⟨fun chain => ht.climb_iff, fun hnone => callChain_eq_nil (findCall?_eq_none hnone), ?_⟩
  rintro before e after hevents hcall rfl
  have hlog : WellBracketed (before ++ e :: after) := hevents ▸ ht.log
  obtain ⟨hbefore, hnew, -⟩ := hlog.upTo.of_concat
  obtain ⟨hid, -, hdepth⟩ := hnew hcall
  have hchain := ht.callChain_eq_unclosed hevents hcall
  have hincreasing := hlog.upTo.pairwise_unclosed
  rw [hbefore.unclosed_concat_call hcall hid] at hincreasing
  refine ⟨hchain, ?_, hchain ▸ hincreasing, ?_⟩
  · rw [hchain, List.length_append, hdepth, List.length_singleton]
  · obtain ⟨first, operation, arguments, rest, hactions, henabled, hfirst⟩ :=
      exists_moment enabled start clock hevents hcall
    refine ⟨first, operation, arguments, rest, hactions, henabled, hfirst, ?_⟩
    rw [(consistent_run enabled start clock first).openCalls, List.reverse_reverse, hfirst]

/-- The chain of a call that was made after an inner call had failed. -/
example :
    (((new true).run [.call "outer" [("_parent_call_id", .num 5)], .call "inner" [],
      .failure "inner" (.raised .value "boom"), .call "late" [("_call_id", .num 1)],
      .result "late" [], .result "outer" []]).callChain 3).map (fun e => (e.operation, e.callId)) =
      [("outer", 1), ("late", 3)] := by
  cbv

end Tracer

end ClassCode
