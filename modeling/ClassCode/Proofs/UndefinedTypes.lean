import ClassCode.Proofs.Fields.Found
import ClassCode.Proofs.Invocation.Fulfilment

/-!
# Operations that warn about undefined types

Finding the fields of a class warns about the fields of undefined type that it returns, and writing
an invocation about the parameters of undefined type for which it writes arguments, before it asks
for the first of them (`undefinedTypes_warned`). Fields are warned about as they are collected,
before repetitions are dropped and the fields are put in order. Where every field is attached once
nothing is collected twice, so there is one warning for each such field of the result.

Apart from the warnings the sink has no influence, and on the writer of arguments only if that looks
at the desk (`Codegen.IgnoresDesk`). But a warning that cannot be written ends the operation, and
even a sink that keeps nothing is enough for that (`findFields_hindered`).
-/

namespace ClassCode

variable {σ α : Type}

open Constructor

/-! ## Operations and the desk -/

/-- The world with another desk. -/
def World.withDesk (w : World σ) (desk : Desk) : World σ := { w with desk := desk }

namespace Codegen

/-- Whether an operation leaves the desk as it is. -/
def KeepsDesk (x : Codegen σ α) : Prop := ∀ w, (x.runIn w).2.desk = w.desk

/-- Whether nothing but the desk depends on the desk in which an operation is run, as long as there
is room for the same texts. -/
def IgnoresDesk (x : Codegen σ α) : Prop :=
  ∀ w desk, desk.capacity = w.desk.capacity → ∃ desk',
    desk'.capacity = (x.runIn w).2.desk.capacity ∧
      x.runIn (w.withDesk desk) = ((x.runIn w).1, (x.runIn w).2.withDesk desk')

end Codegen

/-- Calls that leave the desk as it is do so one after another. -/
theorem Asks.desk_eq {writer : ArgumentWriter σ} (h : ∀ name p, (writer name p).KeepsDesk)
    {w w' : World σ} {made : List Parameter} {answers : Except Fault (List String)}
    (hasks : Asks writer w made answers w') : w'.desk = w.desk := by
  induction hasks with
  | done => rfl
  | @answered w w₁ w₂ p ps text answers hcall _ ih =>
    have hkept := h p.name p w
    rw [hcall] at hkept
    exact ih.trans hkept
  | @failed w w₁ p e hcall =>
    have hkept := h p.name p w
    rw [hcall] at hkept
    exact hkept

namespace Invocation

theorem ignoresDesk_textsFor {writer : ArgumentWriter σ}
    (h : ∀ name p, (writer name p).IgnoresDesk) (ps : List Parameter) :
    (textsFor writer ps).IgnoresDesk := by
  induction ps with
  | nil => exact fun w desk hcapacity => ⟨desk, hcapacity, rfl⟩
  | cons p ps ih =>
    intro w desk hcapacity
    obtain ⟨desk₁, hcapacity₁, hcall⟩ := h p.name p w desk hcapacity
    rw [runIn_textsFor_cons, runIn_textsFor_cons, hcall]
    rcases hrun : (writer p.name p).runIn w with ⟨e | text, w₁⟩
    · rw [hrun] at hcapacity₁
      exact ⟨desk₁, hcapacity₁, rfl⟩
    · rw [hrun] at hcapacity₁
      obtain ⟨desk₂, hcapacity₂, hrest⟩ := ih w₁ desk₁ hcapacity₁
      dsimp only
      rw [hrest]
      exact ⟨desk₂, hcapacity₂, rfl⟩

/-- If no warning fails, the outcome of an invocation is the same for every sink. -/
theorem write_outcome_eq {g : ClassGraph} {c : ClassId} {k : Constructor} {available : List String}
    (hmissing : missing? available k.parameters = none)
    (writeable : Except Fault (List String)) (reasons : List (String × Option String))
    {writer : ArgumentWriter σ} (hwriter : ∀ name p, (writer name p).IgnoresDesk)
    (capacity : Text.Capacity) (layout : Layout) {w : World σ}
    (hwarned : ∀ sink, (w.desk.warnUndefined sink
      ((callOrder (selected available k.parameters)).map Parameter.element)).1 = .ok ())
    (sink sink' : Option SinkId) :
    ((write g c k available writeable reasons writer sink capacity layout).runIn w).1 =
      ((write g c k available writeable reasons writer sink' capacity layout).runIn w).1 := by
  have hplain : ∀ sink,
      ((write g c k available writeable reasons writer sink capacity layout).runIn w).1 =
        writeable.bind fun fields =>
          ((textsFor writer (callOrder (selected available k.parameters))).runIn w).1.bind
            fun texts => (layout.arrange capacity (g.className c ++ g.typeParamList c false)
              (argumentsFor (selected available k.parameters) texts).texts).map
                (assemble (selected available k.parameters) fields texts) := by
    intro sink
    have hok := hwarned sink
    rw [runIn_write hmissing, Codegen.runIn_warnUndefined, hok]
    cases writeable with
    | error e => rfl
    | ok fields => ?_
    generalize selected available k.parameters = ps
    obtain ⟨desk', -, htexts⟩ := ignoresDesk_textsFor hwriter (callOrder ps) w
      (w.desk.warnUndefined sink ((callOrder ps).map Parameter.element)).2
      (w.desk.capacity_warnUndefined sink _)
    rw [World.withDesk] at htexts
    simp only [htexts]
    rcases (textsFor writer (callOrder ps)).runIn w with ⟨e | texts, w₁⟩ <;> rfl
  rw [hplain sink, hplain sink']

end Invocation

section

variable {g : ClassGraph} {t : Ty} {c : ClassId} {k : Constructor} {available : Value}
  {names : List String} {writer : ArgumentWriter σ}

/-- After the warnings, what an invocation of which nothing is missing does at the desk are the
calls of the writer. -/
theorem writeInvocation_warns (ht : t.definition? = some c) (hk : (g.decl c).constructor? = some k)
    (havailable : available.names = .ok names)
    (hrequired : ∀ p ∈ k.parameters, p.required = true → p.name ∈ names)
    (writeable : Value) (reasons : List (String × Option String)) (writer : ArgumentWriter σ)
    (sink : Option SinkId) (layout : Option Layout) (w : World σ) :
    let asked := callOrder (selected names k.parameters)
    let warned := w.desk.warnUndefined sink (asked.map Parameter.element)
    let start := w.enter "write_constructor_invocation"
      (invocationArguments g t available writeable)
    let run := (writeInvocation g t available writeable reasons writer sink layout).runIn w
    (∀ e, warned.1 = .error e → run.1 = .error e ∧ run.2.desk = warned.2) ∧
    (warned.1 = .ok () → ∃ made answers w', made <+: asked ∧
      Asks writer (start.withDesk warned.2) made answers w' ∧ run.2.desk = w'.desk ∧
        ∀ e, answers = .error e → run.1 = .error e) := by
  intro asked warned start run
  obtain ⟨hrun, hworld⟩ :=
    writeInvocation_run ht hk havailable writeable reasons writer sink layout w
  have hdesk := congrArg World.desk hworld
  have hmissing := missing?_eq_none.2 hrequired
  have hwarn : (Codegen.warnUndefined sink (asked.map Parameter.element)).runIn start =
      (warned.1, start.withDesk warned.2) := by
    rw [Codegen.runIn_warnUndefined, World.desk_enter]
    rfl
  refine ⟨fun e he => ?_, fun hok => ?_⟩
  · rw [he] at hwarn
    rw [Invocation.runIn_write hmissing, hwarn] at hrun hdesk
    exact ⟨hrun, hdesk⟩
  · rw [hok] at hwarn
    cases hwriteable : writeable.onlyNames with
    | error e =>
      -- what can be written is asked for next, so no call of the writer is made
      rw [hwriteable, Invocation.runIn_write hmissing, hwarn] at hdesk
      exact ⟨[], .ok [], _, List.nil_prefix, .done _, hdesk, fun e he => by cases he⟩
    | ok fields =>
      rw [hwriteable] at hrun hdesk
      obtain ⟨made, answers, hprefix, hasks, herror, -⟩ :=
        Invocation.write_calls hmissing fields reasons writer sink w.desk.capacity
          (layout.getD w.layout) (g := g) (c := c) hwarn
      exact ⟨made, answers, _, hprefix, hasks, hdesk, fun e he => hrun.trans (herror e he)⟩

/-- A writer that leaves the desk as it is leaves it with the warnings, also when it fails. -/
theorem desk_writeInvocation (ht : t.definition? = some c)
    (hk : (g.decl c).constructor? = some k) (havailable : available.names = .ok names)
    (hrequired : ∀ p ∈ k.parameters, p.required = true → p.name ∈ names)
    (hwriter : ∀ name p, (writer name p).KeepsDesk) (writeable : Value)
    (reasons : List (String × Option String)) (sink : Option SinkId) (layout : Option Layout)
    (w : World σ) :
    ((writeInvocation g t available writeable reasons writer sink layout).runIn w).2.desk =
      (w.desk.warnUndefined sink
        ((callOrder (selected names k.parameters)).map Parameter.element)).2 := by
  obtain ⟨herror, hok⟩ :=
    writeInvocation_warns ht hk havailable hrequired writeable reasons writer sink layout w
  cases hwarned : (w.desk.warnUndefined sink
      ((callOrder (selected names k.parameters)).map Parameter.element)).1 with
  | error e => exact (herror e hwarned).2
  | ok =>
    obtain ⟨made, answers, w', -, hasks, hdesk, -⟩ := hok hwarned
    exact hdesk.trans (hasks.desk_eq hwriter)

/-- If no warning fails, the outcome is the same for every sink. -/
theorem writeInvocation_outcome_eq (ht : t.definition? = some c)
    (hk : (g.decl c).constructor? = some k) (havailable : available.names = .ok names)
    (hrequired : ∀ p ∈ k.parameters, p.required = true → p.name ∈ names)
    (hwriter : ∀ name p, (writer name p).IgnoresDesk) (writeable : Value)
    (reasons : List (String × Option String)) (layout : Option Layout) {w : World σ}
    (hwarned : ∀ sink, (w.desk.warnUndefined sink
      ((callOrder (selected names k.parameters)).map Parameter.element)).1 = .ok ())
    (sink sink' : Option SinkId) :
    ((writeInvocation g t available writeable reasons writer sink layout).runIn w).1 =
      ((writeInvocation g t available writeable reasons writer sink' layout).runIn w).1 := by
  rw [Invocation.writeInvocation_outcome ht hk, Invocation.writeInvocation_outcome ht hk,
    havailable]
  refine Invocation.write_outcome_eq (missing?_eq_none.2 hrequired) writeable.onlyNames reasons
    hwriter w.desk.capacity (layout.getD w.layout) (fun sink => ?_) sink sink'
  rw [World.desk_enter]
  exact hwarned sink

end

/-! ## Both operations -/

/-- The fields of a class are found with a warning about each of them whose type is undefined, in
the order in which they are collected, and about no others. An invocation of which nothing is
missing is written with a warning about each available parameter of undefined type, in call order,
and these are at the desk before the writer is called; so they are there as well when it fails. The
sink adds them to its records if it is enabled, and apart from that it does not matter which sink it
is. All this holds if the warnings can be written. The first that cannot be written ends the
operation, unless there is no sink at all. -/
theorem undefinedTypes_warned {g : ClassGraph} {t : Ty} {c : ClassId} (hacyclic : g.Acyclic)
    (hclasses : ∀ c, ∀ s ∈ (g.decl c).supertypes, s.isClass = true) (hbare : g.BareRoots)
    (honce : g.AttachedOnce) (ht : t.definition? = some c) :
    (∃ (n : ℕ) (all fs : List FieldId), all.Nodup ∧ fs.Perm all ∧
      ∀ limit, n ≤ limit → g.collectedFields limit c = some all ∧
        ∀ (w : World σ) (sink : Option SinkId),
          let run := (findFields g limit t sink).runIn w
          ∃ outcome,
            w.desk.Warns sink (Element.due (all.map fun f => (g.field f).element)) outcome
              run.2.desk ∧
            run.1 = outcome.map fun _ => fs) ∧
    ∀ (k : Constructor) (available writeable : Value) (names : List String)
      (reasons : List (String × Option String)) (writer : ArgumentWriter σ)
      (layout : Option Layout) (w : World σ),
      (g.decl c).constructor? = some k → available.names = .ok names →
      (∀ p ∈ k.parameters, p.required = true → p.name ∈ names) →
      let asked := callOrder (selected names k.parameters)
      let due := Element.due (asked.map Parameter.element)
      let start := w.enter "write_constructor_invocation"
        (invocationArguments g t available writeable)
      let run (sink : Option SinkId) :=
        (writeInvocation g t available writeable reasons writer sink layout).runIn w
      (∀ sink, ∃ outcome d, w.desk.Warns sink due outcome d ∧
        (∀ e, outcome = .error e → (run sink).1 = .error e ∧ (run sink).2.desk = d) ∧
        (outcome = .ok () → ∃ made answers w', made <+: asked ∧
          Asks writer (start.withDesk d) made answers w' ∧ (run sink).2.desk = w'.desk ∧
            ∀ e, answers = .error e → (run sink).1 = .error e) ∧
        ((∀ name p, (writer name p).KeepsDesk) → (run sink).2.desk = d)) ∧
      ((∀ name p, (writer name p).IgnoresDesk) → (∀ e ∈ due, e.Writable w.desk.capacity) →
        ∀ sink sink', (run sink).1 = (run sink').1) := by
  refine ⟨?_, fun k available writeable names reasons writer layout w hk havailable
    hrequired => ?_⟩
  · have hfirm := ClassGraph.firmSupertypes_of_isClass hclasses
    have hnodup := honce.nodup_collected hacyclic hbare c
    have hperm := hacyclic.fieldsInOrder_perm c
    rw [eraseDups_of_nodup hnodup] at hperm
    obtain ⟨n, hn⟩ := exists_findFields_run hacyclic hfirm ht
    refine ⟨n, g.collected c, g.fieldsInOrder c, hnodup, hperm, fun limit hlimit => ?_⟩
    obtain ⟨hcollected, hrun⟩ := hn limit hlimit
    refine ⟨hcollected, fun w sink => ?_⟩
    obtain ⟨houtcome, hdesk⟩ := hrun σ w sink
    refine ⟨_, ?_, houtcome⟩
    rw [hdesk]
    exact w.desk.warns_warnUndefined sink _
  · intro asked due start run
    refine ⟨fun sink => ?_, fun hwriter hwritable sink sink' => ?_⟩
    · obtain ⟨herror, hok⟩ :=
        writeInvocation_warns ht hk havailable hrequired writeable reasons writer sink layout w
      exact ⟨_, _, w.desk.warns_warnUndefined sink _, herror, hok, fun hwriter =>
        desk_writeInvocation ht hk havailable hrequired hwriter writeable reasons sink layout w⟩
    · refine writeInvocation_outcome_eq ht hk havailable hrequired hwriter writeable reasons layout
        (fun sink => ?_) sink sink'
      exact ((w.desk.warns_warnUndefined sink _).complete hwritable).1

/-- A type that could not be resolved. -/
def undefinedType : Ty := .builtin .undefined "undefined"

/-- A stored field of undefined type. -/
def undefinedField (name : String) (owner : ClassId) : Field :=
  { Field.unknown with name := name, type := undefinedType, owner := some owner }

/-- An optional parameter of undefined type. -/
def undefinedParameter (name : String) (named : Bool) : Parameter :=
  ⟨name, undefinedType, named, false, none⟩

/-- A graph where all types are undefined: `Base` has a property-backed field `x`, of which the
place in the source is known, and a stored field `y`; `Sub extends Base` has a field `z`, a static
one, and a constructor with a named and two positional parameters. -/
def undefinedGraph : ClassGraph :=
  let object : Option Ty := some (.cls ClassGraph.rootId)
  ⟨#[ClassGraph.rootDecl "Object",
    { ClassDecl.unknown with name := "Base", superclass := object, fields := [0, 1] },
    { ClassDecl.unknown with
      name := "Sub", superclass := some (.cls 1), fields := [2, 3],
      constructor? := some ⟨[undefinedParameter "a" true, undefinedParameter "b" false,
        undefinedParameter "c" false]⟩ }],
    #[{ undefinedField "x" 1 with
        propertyBacked := true, span := some ⟨"u", 1, 7, 1, some "var x;"⟩ },
      undefinedField "y" 1, undefinedField "z" 2, { undefinedField "s" 2 with isStatic := true }]⟩

/-- A world with one sink, which has one record. -/
def worldWithSink (enabled : Bool) : World Unit :=
  ⟨none, ⟨#[], #[⟨enabled, none, [⟨.info, "before", none⟩]⟩], .standard⟩, .standard, ()⟩

theorem undefinedGraph_wellFormed :
    ((undefinedGraph.Acyclic ∧ ∀ c, ∀ s ∈ (undefinedGraph.decl c).supertypes, s.isClass = true) ∧
      undefinedGraph.BareRoots) ∧ undefinedGraph.AttachedOnce :=
  ⟨⟨⟨ClassGraph.acyclic_of_declared_before (by decide), ClassGraph.forall_supertypes (by decide)⟩,
    ClassGraph.bareRoots_of_places (by decide)⟩,
    ClassGraph.attachedOnce_of_places (by decide) (by decide)⟩

/-- The fields of `Sub` are collected with those of `Base` behind its own, whatever the limit. -/
theorem eq_of_collectedFields_sub {limit : ℕ} {all : List FieldId}
    (h : undefinedGraph.collectedFields limit 2 = some all) : all = [2, 0] := by
  obtain ⟨⟨⟨hacyclic, hclasses⟩, -⟩, -⟩ := undefinedGraph_wellFormed
  have hfirm := ClassGraph.firmSupertypes_of_isClass hclasses
  have hcollected : undefinedGraph.collectedFields 10 2 = some [2, 0] := by decide
  rw [ClassGraph.collectedFields_eq_some hacyclic hfirm h,
    ← ClassGraph.collectedFields_eq_some hacyclic hfirm hcollected]

/-- Warnings about two elements, both of which can be written. -/
theorem Desk.Warns.pair {d d' : Desk} {sink : Option SinkId} {e e' : Element}
    {outcome : Except Fault Unit} (h : d.Warns sink [e, e'] outcome d')
    (hwritable : ∀ x ∈ [e, e'], x.Writable d.capacity) :
    outcome = .ok () ∧ ∃ warning warning', e.IsWarning d.capacity warning ∧
      e'.IsWarning d.capacity warning' ∧ d.Takes sink [warning, warning'] d' := by
  obtain ⟨houtcome, warnings, hwarnings, htakes⟩ := h.complete hwritable
  obtain ⟨warning, rest, hwarning, hrest, rfl⟩ := List.forall₂_cons_left_iff.1 hwarnings
  obtain ⟨warning', rest', hwarning', hnil, rfl⟩ := List.forall₂_cons_left_iff.1 hrest
  obtain rfl := List.forall₂_nil_left_iff.1 hnil
  exact ⟨houtcome, warning, warning', hwarning, hwarning', htakes⟩

/-- For `Sub` the sink gets a warning about `z` and one about `x`. When an invocation of it with `a`
and `b` fails in the first call of the writer, as it does without a sink, the sink gets one about
`b` and one about `a`. -/
theorem undefinedTypes_warned_sub :
    let w := worldWithSink true
    let kept (warnings : List Diagnostic) : Sink :=
      ⟨true, none, ⟨.info, "before", none⟩ :: warnings⟩
    let invoke (sink : Option SinkId) :=
      (writeInvocation undefinedGraph (.cls 2) (.list [.str "a", .str "b"]) (.list []) []
        (ArgumentWriter.fromTable []) sink none).runIn w
    (((undefinedGraph.Acyclic ∧
        ∀ c, ∀ s ∈ (undefinedGraph.decl c).supertypes, s.isClass = true) ∧
      undefinedGraph.BareRoots) ∧ undefinedGraph.AttachedOnce) ∧
    (∃ (limit : ℕ) (fs : List FieldId) (x z : Diagnostic),
      let find := (findFields undefinedGraph limit (.cls 2) (some 0)).runIn w
      find.1 = .ok fs ∧ fs.Perm [2, 0] ∧ (undefinedGraph.field 2).element.IsWarning .standard z ∧
        (undefinedGraph.field 0).element.IsWarning .standard x ∧
        find.2.desk.sinks[0]? = some (kept [z, x])) ∧
    (invoke none).1 = .error (.raised .generation "no value for b") ∧
    ∃ a b : Diagnostic, (invoke (some 0)).1 = (invoke none).1 ∧
      (undefinedParameter "b" false).element.IsWarning .standard b ∧
      (undefinedParameter "a" true).element.IsWarning .standard a ∧
      (invoke (some 0)).2.desk.sinks[0]? = some (kept [b, a]) := by
  intro w kept invoke
  obtain ⟨⟨⟨hacyclic, hclasses⟩, hbare⟩, honce⟩ := undefinedGraph_wellFormed
  obtain ⟨⟨n, all, fs, -, hperm, hfields⟩, hinvocation⟩ :=
    undefinedTypes_warned (σ := Unit) hacyclic hclasses hbare honce (t := .cls 2) rfl
  refine ⟨undefinedGraph_wellFormed, ⟨n, fs, ?_⟩, rfl, ?_⟩
  · obtain ⟨hall, hwarns⟩ := hfields n (Nat.le_refl n)
    obtain rfl := eq_of_collectedFields_sub hall
    obtain ⟨outcome, hdesk, hrun⟩ := hwarns w (some 0)
    have hwritable : ∀ e ∈ [(undefinedGraph.field 2).element, (undefinedGraph.field 0).element],
        e.Writable .standard :=
      List.forall_mem_cons.2 ⟨⟨_, rfl⟩, List.forall_mem_singleton.2 ⟨_, rfl⟩⟩
    obtain ⟨rfl, z, x, hz, hx, htakes⟩ := Desk.Warns.pair hdesk hwritable
    exact ⟨x, z, hrun, hperm, hz, hx, htakes.sinks 0⟩
  · have hwritable : ∀ e ∈ [(undefinedParameter "b" false).element,
        (undefinedParameter "a" true).element], e.Writable .standard :=
      List.forall_mem_cons.2 ⟨⟨_, rfl⟩, List.forall_mem_singleton.2 ⟨_, rfl⟩⟩
    obtain ⟨hsinks, houtcome⟩ := hinvocation _ (.list [.str "a", .str "b"]) (.list []) _ []
      (ArgumentWriter.fromTable []) none w rfl rfl (by decide)
    obtain ⟨outcome, d, hdesk, -, -, hkept⟩ := hsinks (some 0)
    obtain ⟨rfl, b, a, hb, ha, htakes⟩ := Desk.Warns.pair hdesk hwritable
    refine ⟨a, b, houtcome (fun _ _ _ desk hcapacity => ⟨desk, hcapacity, rfl⟩) hwritable (some 0)
      none, hb, ha, ?_⟩
    rw [hkept fun _ _ _ => rfl]
    exact htakes.sinks 0

/-- `A` has a field of undefined type, in a source line that reaches farther than a text can. -/
def farGraph : ClassGraph :=
  ⟨#[ClassGraph.rootDecl "Object",
    { ClassDecl.unknown with
      name := "A", superclass := some (.cls ClassGraph.rootId), fields := [0] }],
    #[{ undefinedField "x" 1 with span := some ⟨"a", 1, 9223372036854775809, 1, some "x"⟩ }]⟩

/-- Without a sink the field of `A` is found. With a sink that is switched off this fails, as the
warning cannot be written that the sink would not keep. -/
theorem findFields_hindered :
    ((((farGraph.Acyclic ∧ ∀ c, ∀ s ∈ (farGraph.decl c).supertypes, s.isClass = true) ∧
      farGraph.BareRoots) ∧ farGraph.AttachedOnce) ∧
      (worldWithSink false).desk.accepts 0 = false) ∧
    ((findFields farGraph 10 (.cls 1) none).runIn (worldWithSink false)).1 = .ok [0] ∧
    ((findFields farGraph 10 (.cls 1) (some 0)).runIn (worldWithSink false)).1 =
      .error .countOutOfRange := by
  refine ⟨⟨⟨⟨⟨ClassGraph.acyclic_of_declared_before (by decide),
    ClassGraph.forall_supertypes (by decide)⟩, ClassGraph.bareRoots_of_places (by decide)⟩,
    ClassGraph.attachedOnce_of_places (by decide) (by decide)⟩, rfl⟩, rfl, rfl⟩

end ClassCode
