import ClassCode.Proofs.Invocation.Calls
import ClassCode.Proofs.Trace.Run
import ClassCode.Proofs.Trace.Transparency

/-!
# When an invocation is refused

A constructor can only be invoked if there is one and all its required parameters are available.
Otherwise the first missing one is to blame (`Refusal`), and this is found out before anything else
is done: no warning is written and the writer of arguments is not called
(`Refusal.runIn_writeInvocation`). Apart from refusals, the library has no fault of its own that
says that an instance cannot be constructed; only the writer can raise one
(`refusal_or_raised`).
-/

namespace ClassCode

variable {σ α : Type}

open Constructor

/-! ## The first missing parameter -/

namespace Constructor

/-- Whether a parameter is the first in declaration order that is required and not available. -/
def IsFirstMissing (available : List String) (ps : List Parameter) (p : Parameter) : Prop :=
  ∃ before after, ps = before ++ p :: after ∧
    (∀ q ∈ before, q.required = true → q.name ∈ available) ∧
    p.required = true ∧ p.name ∉ available

theorem isFirstMissing_iff {available : List String} {ps : List Parameter} {p : Parameter} :
    IsFirstMissing available ps p ↔ missing? available ps = some p := by
  rw [missing?, List.find?_eq_some_iff_append]
  constructor
  · rintro ⟨before, after, rfl, hbefore, hrequired, havailable⟩
    refine ⟨by simp [hrequired, havailable], before, after, rfl, fun q hq => ?_⟩
    have h := hbefore q hq
    cases hq' : q.required with
    | true => simpa using h hq'
    | false => rfl
  · rintro ⟨hp, before, after, rfl, hbefore⟩
    obtain ⟨hrequired, havailable⟩ : p.required = true ∧ p.name ∉ available := by simpa using hp
    refine ⟨before, after, rfl, fun q hq hq' => ?_, hrequired, havailable⟩
    have h := hbefore q hq
    simpa [hq'] using h

/-- Some parameter is the first missing one if any is missing. -/
theorem exists_isFirstMissing_iff {available : List String} {ps : List Parameter} :
    (∃ p, IsFirstMissing available ps p) ↔
      ∃ p ∈ ps, p.required = true ∧ p.name ∉ available := by
  simp only [isFirstMissing_iff, missing?]
  rw [← Option.isSome_iff_exists, List.find?_isSome]
  simp

/-- The sentence that a required parameter cannot be populated. -/
def missingSentence (className parameter : String) : String :=
  "Cannot populate the required constructor argument: " ++ className ++ "." ++ parameter ++ "."

end Constructor

/-! ## What is no collection of names -/

namespace Value

theorem eq_badCall_of_members {v : Value} {e : Fault} (h : v.members = .error e) :
    ∃ text, e = .badCall text := by
  cases hitems : v.items with
  | error e' =>
    rw [members, hitems] at h
    cases h
    cases v <;> cases hitems <;> exact ⟨_, rfl⟩
  | ok items =>
    simp only [members, hitems, bind, Except.bind] at h
    split at h <;> cases h
    exact ⟨_, rfl⟩

theorem eq_badCall_of_names {v : Value} {e : Fault} (h : v.names = .error e) :
    ∃ text, e = .badCall text :=
  eq_badCall_of_members (eq_error_of_map h)

theorem eq_badCall_of_onlyNames {v : Value} {e : Fault} (h : v.onlyNames = .error e) :
    ∃ text, e = .badCall text := by
  cases hmembers : v.members with
  | error e' =>
    rw [onlyNames, hmembers] at h
    cases h
    exact eq_badCall_of_members hmembers
  | ok members =>
    simp only [onlyNames, hmembers, bind, Except.bind] at h
    split at h <;> cases h
    exact ⟨_, rfl⟩

end Value

/-! ## Refusals -/

/-- The faults with which an invocation of the constructor of a class is refused: there is no
constructor, or a parameter is missing, perhaps for a reason. -/
inductive Refusal (g : ClassGraph) (c : ClassId) (available : Value)
    (reasons : List (String × Option String)) : Fault → Prop
  | noConstructor (hc : (g.decl c).constructor? = none) :
      Refusal g c available reasons (.noConstructor (g.className c))
  | missing {k : Constructor} {names : List String} {p : Parameter}
      (hk : (g.decl c).constructor? = some k) (hnames : available.names = .ok names)
      (hp : IsFirstMissing names k.parameters p) :
      Refusal g c available reasons
        (.missingArgument (g.className c) p.name (reasons.lookup p.name).join)

theorem World.trace_trace (w : World σ) (f f' : Tracer → Tracer) :
    (w.trace f).trace f' = w.trace fun t => f' (f t) := by
  unfold World.trace
  simp only [Option.map_map]
  rfl

/-- A traced operation whose body fails with an error at once leaves nothing but the record of
this. -/
theorem runIn_traced_of_refused {operation : String} {arguments : List (String × Json)}
    {resultValue : α → Value} {body : Codegen σ α} {e : Fault} (he : e.isError = true)
    (h : ∀ w, body.runIn w = (.error e, w)) (w : World σ) :
    (traced operation arguments resultValue body).runIn w =
      (.error e, w.trace fun t => (t.call operation arguments).failure operation e) := by
  cases hw : w.isTracing with
  | true =>
    rw [Codegen.runIn_traced_of_isTracing hw, h]
    simp only [Codegen.isStop, he, Bool.not_true, Bool.false_eq_true, if_false, World.trace_trace]
    rfl
  | false =>
    rw [Codegen.runIn_traced_of_not_isTracing hw, h]
    obtain ⟨tracer, desk, layout, own⟩ := w
    cases tracer with
    | none => rfl
    | some t =>
      have ht : t.enabled = false := hw
      simp only [World.trace, Option.map_some, Tracer.call_of_disabled ht, Tracer.failure,
        Tracer.close_of_disabled ht]

namespace Refusal

variable {g : ClassGraph} {c : ClassId} {available : Value}
  {reasons : List (String × Option String)} {e : Fault}

/-- An invocation can be refused if there is no constructor or a required parameter of it is not
available. -/
theorem exists_iff :
    (∃ e, Refusal g c available reasons e) ↔ (g.decl c).constructor? = none ∨
      ∃ k names, (g.decl c).constructor? = some k ∧ available.names = .ok names ∧
        ∃ p ∈ k.parameters, p.required = true ∧ p.name ∉ names := by
  constructor
  · rintro ⟨_, hc | ⟨hk, hnames, hp⟩⟩
    · exact .inl hc
    · exact .inr ⟨_, _, hk, hnames, exists_isFirstMissing_iff.1 ⟨_, hp⟩⟩
  · rintro (hc | ⟨k, names, hk, hnames, hmissing⟩)
    · exact ⟨_, .noConstructor hc⟩
    · obtain ⟨p, hp⟩ := exists_isFirstMissing_iff.2 hmissing
      exact ⟨_, .missing hk hnames hp⟩

theorem isError (h : Refusal g c available reasons e) : e.isError = true := by
  cases h <;> rfl

end Refusal

/-! ## The operation -/

/-- What the operation that writes invocations tells the tracer about its arguments. -/
def invocationArguments (g : ClassGraph) (t : Ty) (available writeable : Value) :
    List (String × Json) :=
  tracedArguments argumentLimit
    [("class_type", g.typeValue t), ("available_ctor_params", available),
      ("writeable_fields", writeable)]

section

variable {g : ClassGraph} {t : Ty} {c : ClassId} {available writeable : Value}
  {reasons : List (String × Option String)} {writer : ArgumentWriter σ} {sink : Option SinkId}
  {layout : Option Layout} {e : Fault}

theorem Refusal.runIn_writeInvocation (ht : t.definition? = some c)
    (h : Refusal g c available reasons e) (w : World σ) :
    (writeInvocation g t available writeable reasons writer sink layout).runIn w =
      (.error e, w.trace fun tracer =>
        (tracer.call "write_constructor_invocation"
          (invocationArguments g t available writeable)).failure "write_constructor_invocation"
          e) := by
  refine runIn_traced_of_refused h.isError (fun w => ?_) w
  cases h with
  | noConstructor hc =>
    simp only [ht, hc]
    rfl
  | missing hk hnames hp =>
    simp only [ht, hk, hnames, Codegen.runIn_bind, Codegen.runIn_get, Codegen.runIn_ofExcept]
    exact Invocation.runIn_write_of_missing (isFirstMissing_iff.1 hp) _ _ _ _ _ _ w

/-- An invocation comes to nothing if what is given for the available names has no members. -/
theorem runIn_writeInvocation_of_no_names (ht : t.definition? = some c) {k : Constructor}
    (hk : (g.decl c).constructor? = some k) (hnames : available.names = .error e) (w : World σ) :
    (writeInvocation g t available writeable reasons writer sink layout).runIn w =
      (.error e, w.trace fun tracer =>
        (tracer.call "write_constructor_invocation"
          (invocationArguments g t available writeable)).failure "write_constructor_invocation"
          e) := by
  have he : e.isError = true := by
    obtain ⟨text, rfl⟩ := Value.eq_badCall_of_names hnames
    rfl
  refine runIn_traced_of_refused he (fun w => ?_) w
  simp only [ht, hk, hnames, Codegen.runIn_bind, Codegen.runIn_get, Codegen.runIn_ofExcept]

/-- An invocation comes to nothing, whichever layout is asked for, or there is a constructor of
which no parameter is missing. -/
theorem writeInvocation_cases (ht : t.definition? = some c) (available writeable : Value)
    (reasons : List (String × Option String)) (writer : ArgumentWriter σ) (sink : Option SinkId)
    (w : World σ) :
    (∃ e w', ∀ layout,
      (writeInvocation g t available writeable reasons writer sink layout).runIn w =
        (.error e, w')) ∨
    ∃ k names, (g.decl c).constructor? = some k ∧ available.names = .ok names ∧
      ∀ p ∈ k.parameters, p.required = true → p.name ∈ names := by
  by_cases hrefused : ∃ e, Refusal g c available reasons e
  · obtain ⟨e, he⟩ := hrefused
    exact .inl ⟨e, _, fun _ => he.runIn_writeInvocation ht w⟩
  rw [Refusal.exists_iff] at hrefused
  push Not at hrefused
  obtain ⟨hk, hrequired⟩ := hrefused
  obtain ⟨k, hk⟩ := Option.ne_none_iff_exists'.1 hk
  cases hnames : available.names with
  | error e => exact .inl ⟨e, _, fun _ => runIn_writeInvocation_of_no_names ht hk hnames w⟩
  | ok names => exact .inr ⟨k, names, hk, rfl, hrequired k names hk hnames⟩

/-- An instance cannot be constructed if the invocation is refused, or if a call of the writer says
so. What has no members, or members that are no names, is another matter. -/
theorem refusal_or_raised (ht : t.definition? = some c) (w : World σ)
    (herror : ((writeInvocation g t available writeable reasons writer sink layout).runIn w).1 =
      .error e) (hkind : e.isConstruction = true) :
    Refusal g c available reasons e ∨
      ∃ k names, (g.decl c).constructor? = some k ∧ available.names = .ok names ∧
        Invocation.RaisedByWriter k names writer sink
          (w.enter "write_constructor_invocation" (invocationArguments g t available writeable))
          e := by
  cases hk : (g.decl c).constructor? with
  | none =>
    have hrefusal : Refusal g c available reasons (.noConstructor (g.className c)) :=
      .noConstructor hk
    rw [hrefusal.runIn_writeInvocation ht] at herror
    cases herror
    exact .inl hrefusal
  | some k =>
    rw [Invocation.writeInvocation_outcome ht hk] at herror
    cases hnames : available.names with
    | error e' =>
      rw [hnames] at herror
      cases herror
      obtain ⟨text, rfl⟩ := Value.eq_badCall_of_names hnames
      cases hkind
    | ok names =>
      rw [hnames] at herror
      cases hmissing : missing? names k.parameters with
      | some p =>
        rw [Except.bind, Invocation.runIn_write_of_missing hmissing] at herror
        cases herror
        exact .inl (.missing hk hnames (isFirstMissing_iff.2 hmissing))
      | none =>
        rcases Invocation.isTooLarge_or_raised hmissing herror with htoo | hwriteable | hraised
        · rw [htoo.not_isConstruction] at hkind
          cases hkind
        · obtain ⟨text, rfl⟩ := Value.eq_badCall_of_onlyNames hwriteable
          cases hkind
        · exact .inr ⟨k, names, rfl, rfl, hraised⟩

end

/-- An invocation is refused exactly if the class has no constructor or a required parameter of its
constructor is not available. Then the tracer learns of the call and of its failure, and nothing
else is changed or asked of the writer, whichever it is. No other fault than a refusal says that an
instance cannot be constructed, unless the writer raises it. The fault names the class and, where
parameters are missing, the first of them with the reason that is known for it, if any. -/
theorem writeInvocation_refusal {g : ClassGraph} {t : Ty} {c : ClassId}
    (available writeable : Value) (reasons : List (String × Option String))
    (writer : ArgumentWriter σ) (sink : Option SinkId) (layout : Option Layout) (w : World σ)
    (ht : t.definition? = some c) :
    ((∃ e, Refusal g c available reasons e) ↔ (g.decl c).constructor? = none ∨
      ∃ k names, (g.decl c).constructor? = some k ∧ available.names = .ok names ∧
        ∃ p ∈ k.parameters, p.required = true ∧ p.name ∉ names) ∧
    (∀ e, Refusal g c available reasons e →
      e.kind = "ConstructionError" ∧ e.className? = some (g.className c) ∧
      (writeInvocation g t available writeable reasons writer sink layout).runIn w =
        (.error e, w.trace fun tracer =>
          (tracer.call "write_constructor_invocation"
            (invocationArguments g t available writeable)).failure "write_constructor_invocation"
            e)) ∧
    (∀ e, ((writeInvocation g t available writeable reasons writer sink layout).runIn w).1 =
        .error e → e.isConstruction = true →
      Refusal g c available reasons e ∨
        ∃ k names, (g.decl c).constructor? = some k ∧ available.names = .ok names ∧
          Invocation.RaisedByWriter k names writer sink
            (w.enter "write_constructor_invocation" (invocationArguments g t available writeable))
            e) ∧
    ∀ k names p, (g.decl c).constructor? = some k → available.names = .ok names →
      IsFirstMissing names k.parameters p →
      ∃ e, Refusal g c available reasons e ∧ e.parameter? = some p.name ∧
        (∀ reason, reasons.lookup p.name = some (some reason) →
          e.message? = some (missingSentence (g.className c) p.name ++ " " ++ reason)) ∧
        ((∀ reason, reasons.lookup p.name ≠ some (some reason)) →
          e.message? = some (missingSentence (g.className c) p.name)) := by
  refine ⟨Refusal.exists_iff, fun e he => ⟨?_, ?_, he.runIn_writeInvocation ht w⟩,
    fun e => refusal_or_raised ht w,
    fun k names p hk hnames hp => ⟨_, .missing hk hnames hp, rfl, ?_, ?_⟩⟩
  · cases he <;> rfl
  · cases he <;> rfl
  · intro reason hreason
    rw [hreason]
    rfl
  · intro hreason
    have hnone : (reasons.lookup p.name).join = none := by
      rcases hlookup : reasons.lookup p.name with _ | _ | reason
      · rfl
      · rfl
      · exact absurd hlookup (hreason reason)
    rw [hnone]
    rfl

/-- Four parameters: the first one is of undefined type, the second one optional and the third one
passed by name. -/
def mixedParameters : List Parameter :=
  [⟨"a", .builtin .undefined "A", false, true, none⟩,
    ⟨"b", .builtin .int "int", false, false, none⟩,
    ⟨"c", .builtin .int "int", true, true, none⟩, ⟨"d", .builtin .int "int", false, true, none⟩]

/-- A graph with one class beside the root, whose constructor has the given parameters. -/
def constructorGraph (name : String) (ps : List Parameter) : ClassGraph :=
  (ClassGraph.initial.declare
    { ClassDecl.unknown with
      name := name, superclass := some (.cls ClassGraph.rootId), constructor? := some ⟨ps⟩ }).2

/-- A graph with a class `M` whose constructor has these four parameters. -/
def mixedGraph : ClassGraph := constructorGraph "M" mixedParameters

/-- Reasons why the last two of the four parameters are not available. -/
def mixedReasons : List (String × Option String) :=
  [("d", some "It is late."), ("c", some "It is private.")]

/-- A world with a tracer and a sink in which no parameter has been asked for. -/
def watched : World (List (String × Parameter)) :=
  ⟨some (Tracer.new true), (Desk.empty.addSink true none).2, .standard, []⟩

/-- With only the first of the four parameters available, it is the third that is missing. There is
neither a warning about the first nor a call for it. -/
theorem refusal_of_third :
    (Ty.cls 1).definition? = some 1 ∧
    ∃ e, Refusal mixedGraph 1 (.list [.str "a"]) mixedReasons e ∧
      e.message? = some
        "Cannot populate the required constructor argument: M.c. It is private." ∧
      ((writeInvocation mixedGraph (.cls 1) (.list [.str "a"]) (.list []) mixedReasons
          (ArgumentWriter.recording ArgumentWriter.fromJson) (some 0) none).runIn watched) =
        (.error e, watched.trace fun tracer => (tracer.call "write_constructor_invocation"
          (invocationArguments mixedGraph (.cls 1) (.list [.str "a"]) (.list []))).failure
            "write_constructor_invocation" e) := by
  have hp : IsFirstMissing ["a"] mixedParameters ⟨"c", .builtin .int "int", true, true, none⟩ :=
    isFirstMissing_iff.2 rfl
  obtain ⟨-, hrun, -, hmessage⟩ :=
    writeInvocation_refusal (g := mixedGraph) (t := .cls 1) (c := 1) (.list [.str "a"])
      (.list []) mixedReasons (ArgumentWriter.recording ArgumentWriter.fromJson) (some 0) none
      watched rfl
  obtain ⟨e, he, -, hreason, -⟩ := hmessage ⟨mixedParameters⟩ ["a"] _ rfl rfl hp
  exact ⟨rfl, e, he, hreason "It is private." rfl, (hrun e he).2.2⟩

end ClassCode
