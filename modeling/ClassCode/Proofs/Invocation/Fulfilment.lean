import ClassCode.Proofs.Invocation.Refusal
import ClassCode.Proofs.Sorting
import ClassCode.Proofs.Trace.Operations

/-!
# What becomes of an invocation of which nothing is missing

The writer is called once for each available parameter, in call order, until a call fails, and what
it returned stands in the code in that order. Which names are available and which can be written
matters only as far as membership goes, and so does their order (`Invocation.Alike`). Both are
parts of `writeInvocation_fulfilment`.
-/

namespace ClassCode

variable {σ α : Type}

open Constructor

theorem Constructor.missing?_eq_none {available : List String} {ps : List Parameter} :
    missing? available ps = none ↔ ∀ p ∈ ps, p.required = true → p.name ∈ available := by
  rw [missing?, List.find?_eq_none]
  simp

/-! ## Rendered arguments -/

/-- The arguments of parameters as they stand in a call, each behind the name of its parameter if it
is passed by name. -/
def rendered (asked : List Parameter) (texts : List String) : List String :=
  List.zipWith (fun p text => if p.named then p.name ++ ": " ++ text else text) asked texts

theorem rendered_of_positional {ps : List Parameter} (hps : ∀ p ∈ ps, p.named = false)
    {texts : List String} (hlength : texts.length = ps.length) : rendered ps texts = texts := by
  induction ps generalizing texts with
  | nil => exact (List.length_eq_zero_iff.1 hlength).symm
  | cons p ps ih =>
    obtain ⟨text, texts, rfl⟩ := List.exists_cons_of_length_eq_add_one hlength
    unfold rendered at ih ⊢
    rw [List.zipWith_cons_cons, hps p List.mem_cons_self,
      ih (fun q hq => hps q (List.mem_cons_of_mem p hq)) (by simpa using hlength)]
    rfl

theorem rendered_of_named {ps : List Parameter} (hps : ∀ p ∈ ps, p.named = true)
    (texts : List String) :
    rendered ps texts =
      ((ps.map (·.name)).zip texts).map fun argument => argument.1 ++ ": " ++ argument.2 := by
  induction ps generalizing texts with
  | nil => rfl
  | cons p ps ih =>
    cases texts with
    | nil => rfl
    | cons text texts =>
      unfold rendered at ih ⊢
      rw [List.zipWith_cons_cons, hps p List.mem_cons_self,
        ih fun q hq => hps q (List.mem_cons_of_mem p hq)]
      rfl

/-- The arguments in a call are the texts in call order, those passed by name behind their names. -/
theorem texts_argumentsFor {ps : List Parameter} {texts : List String}
    (hlength : texts.length = (callOrder ps).length) :
    (Invocation.argumentsFor ps texts).texts = rendered (callOrder ps) texts := by
  have hposition : (texts.take (positional ps).length).length = (positional ps).length := by
    rw [List.length_take, hlength, callOrder, List.length_append]
    omega
  have hsplit : rendered (callOrder ps) texts =
      rendered (positional ps) (texts.take (positional ps).length) ++
        rendered (named ps) (texts.drop (positional ps).length) := by
    unfold rendered callOrder
    rw [← List.zipWith_append hposition.symm, List.take_append_drop]
  have hnamed : ∀ p ∈ named ps, p.named = true := by
    intro p hp
    exact (List.mem_filter.1 hp).2
  rw [hsplit, rendered_of_positional (fun p hp => (mem_positional.1 hp).2) hposition,
    rendered_of_named hnamed]
  rfl

theorem Asks.length_texts {writer : ArgumentWriter σ} {w w' : World σ} {made : List Parameter}
    {answers : Except Fault (List String)} (h : Asks writer w made answers w')
    {texts : List String} (htexts : answers = .ok texts) : texts.length = made.length := by
  induction h generalizing texts with
  | done => cases htexts; rfl
  | @answered w w₁ w₂ p ps text answers hcall hrest ih =>
    cases answers with
    | error e => cases htexts
    | ok rest =>
      cases htexts
      rw [List.length_cons, List.length_cons, ih rfl]
  | failed => cases htexts

/-! ## The names of an invocation -/

/-- What an invocation is like whose arguments have been written for parameters. -/
structure Invocation.Fulfils (i : Invocation) (asked : List Parameter)
    (writeable texts : List String) : Prop where
  arguments : i.arguments.texts = rendered asked texts
  /-- To be set are the names that can be written and that no parameter has. -/
  mem_toSet (name : String) : name ∈ i.toSet ↔ name ∈ writeable ∧ ∀ p ∈ asked, p.name ≠ name
  nodup_toSet : i.toSet.Nodup
  /-- Used are the names of the parameters and those that can be written. -/
  mem_used (name : String) : name ∈ i.used ↔ (∃ p ∈ asked, p.name = name) ∨ name ∈ writeable
  nodup_used : i.used.Nodup

/-- Whether two invocations differ at most in the order of names. -/
structure Invocation.Alike (i j : Invocation) : Prop where
  content : i.content = j.content
  arguments : i.arguments = j.arguments
  toSet : i.toSet.Perm j.toSet
  used : i.used.Perm j.used

/-- Whether two outcomes are the same fault, or invocations that differ at most in the order of
names. -/
inductive AlikeOutcome : Except Fault Invocation → Except Fault Invocation → Prop
  | error (e : Fault) : AlikeOutcome (.error e) (.error e)
  | ok {i j : Invocation} (h : i.Alike j) : AlikeOutcome (.ok i) (.ok j)

namespace Invocation

theorem fulfils_assemble {ps : List Parameter} {texts : List String} (writeable : List String)
    (content : String) (hlength : texts.length = (callOrder ps).length) :
    (assemble ps writeable texts content).Fulfils (callOrder ps) writeable texts := by
  have htaken (name : String) : name ∈ (ps.map (·.name)).eraseDups ↔
      ∃ p ∈ callOrder ps, p.name = name := by
    simp [(callOrder_perm ps).mem_iff]
  have htoSet (name : String) : name ∈ (assemble ps writeable texts content).toSet ↔
      name ∈ writeable ∧ ∀ p ∈ callOrder ps, p.name ≠ name := by
    simp [assemble, (callOrder_perm ps).mem_iff]
  have hnodup : (assemble ps writeable texts content).toSet.Nodup :=
    (nodup_eraseDups writeable).filter _
  refine ⟨texts_argumentsFor hlength, htoSet, hnodup, fun name => ?_, ?_⟩
  · change name ∈ _ ++ (assemble ps writeable texts content).toSet ↔ _
    rw [List.mem_append, htaken, htoSet]
    by_cases hname : ∃ p ∈ callOrder ps, p.name = name
    · simp [hname]
    · simp only [hname, false_or, and_iff_left_iff_imp]
      intro _ p hp heq
      exact hname ⟨p, hp, heq⟩
  · refine List.Nodup.append (nodup_eraseDups _) hnodup fun name hname hset => ?_
    obtain ⟨p, hp, heq⟩ := (htaken name).1 hname
    exact ((htoSet name).1 hset).2 p hp heq

/-- Only which names can be written matters to an invocation. -/
theorem alike_assemble {ps : List Parameter} {writeable writeable' : List String}
    (h : ∀ name, name ∈ writeable' ↔ name ∈ writeable) (texts : List String) (content : String) :
    (assemble ps writeable' texts content).Alike (assemble ps writeable texts content) := by
  have hperm : writeable'.eraseDups.Perm writeable.eraseDups := by
    refine (List.perm_ext_iff_of_nodup (nodup_eraseDups _) (nodup_eraseDups _)).2 fun name => ?_
    rw [List.mem_eraseDups, List.mem_eraseDups, h]
  exact ⟨rfl, rfl, hperm.filter _, (hperm.filter _).append_left _⟩

/-- After the warnings, an invocation of which nothing is missing goes as its calls go. -/
theorem write_calls {g : ClassGraph} {c : ClassId} {k : Constructor} {available : List String}
    (hmissing : missing? available k.parameters = none) (fields : List String)
    (reasons : List (String × Option String)) (writer : ArgumentWriter σ) (sink : Option SinkId)
    (capacity : Text.Capacity) (layout : Layout) {w w₀ : World σ}
    (hwarn : (Codegen.warnUndefined sink
      ((callOrder (selected available k.parameters)).map Parameter.element)).runIn w =
        (.ok (), w₀)) :
    let asked := callOrder (selected available k.parameters)
    let run := (write g c k available (.ok fields) reasons writer sink capacity layout).runIn w
    ∃ made answers, made <+: asked ∧ Asks writer w₀ made answers run.2 ∧
      (∀ e, answers = .error e → run.1 = .error e) ∧
      ∀ texts, answers = .ok texts → made = asked ∧ texts.length = asked.length ∧
        run.1 =
          (layout.arrange capacity (g.className c ++ g.typeParamList c false)
            (rendered asked texts)).map
            (assemble (selected available k.parameters) fields texts) := by
  dsimp only
  rw [runIn_write hmissing, hwarn]
  generalize selected available k.parameters = ps
  obtain ⟨made, hprefix, hasks, hall⟩ := asks_textsFor writer (callOrder ps) w₀
  dsimp only
  generalize (textsFor writer (callOrder ps)).runIn w₀ = answered at hasks hall
  obtain ⟨answers, w₁⟩ := answered
  cases answers with
  | error e =>
    refine ⟨made, .error e, hprefix, hasks, fun e' he => ?_, fun texts htexts => ?_⟩
    · cases he
      rfl
    · cases htexts
  | ok texts =>
    obtain rfl := hall texts rfl
    have hlength : texts.length = (callOrder ps).length := hasks.length_texts rfl
    refine ⟨_, .ok texts, hprefix, hasks, fun e he => ?_, fun texts' htexts => ?_⟩
    · cases he
    · cases htexts
      rw [← texts_argumentsFor hlength]
      exact ⟨rfl, hlength, rfl⟩

/-- Invocations of the same available parameters, in the same world, go alike. -/
theorem write_alike {g : ClassGraph} {c : ClassId} {k : Constructor}
    {available available' fields fields' : List String}
    (hmissing : missing? available k.parameters = none)
    (havailable : ∀ p ∈ k.parameters, p.name ∈ available' ↔ p.name ∈ available)
    (hfields : ∀ name, name ∈ fields' ↔ name ∈ fields)
    (reasons : List (String × Option String)) (writer : ArgumentWriter σ) (sink : Option SinkId)
    (capacity : Text.Capacity) (layout : Layout) (w : World σ) :
    let run := (write g c k available (.ok fields) reasons writer sink capacity layout).runIn w
    let run' := (write g c k available' (.ok fields') reasons writer sink capacity layout).runIn w
    AlikeOutcome run'.1 run.1 ∧ run'.2 = run.2 := by
  have hcontains : ∀ p ∈ k.parameters, available'.contains p.name = available.contains p.name := by
    intro p hp
    simp [havailable p hp]
  have hselected : selected available' k.parameters = selected available k.parameters :=
    List.filter_congr hcontains
  have hmissing' : missing? available' k.parameters = none := by
    rw [missing?_eq_none] at hmissing ⊢
    exact fun p hp hrequired => (havailable p hp).2 (hmissing p hp hrequired)
  dsimp only
  rw [runIn_write hmissing, runIn_write hmissing', hselected]
  generalize selected available k.parameters = ps
  rcases (Codegen.warnUndefined sink ((callOrder ps).map Parameter.element)).runIn w with
    ⟨e | ⟨⟩, w₀⟩
  · exact ⟨.error e, rfl⟩
  dsimp only
  rcases (textsFor writer (callOrder ps)).runIn w₀ with ⟨e | texts, w₁⟩
  · exact ⟨.error e, rfl⟩
  dsimp only
  cases layout.arrange capacity (g.className c ++ g.typeParamList c false)
      (argumentsFor ps texts).texts with
  | error e => exact ⟨.error e, rfl⟩
  | ok content => exact ⟨.ok (alike_assemble hfields texts content), rfl⟩

end Invocation

/-! ## The operation -/

/-- A traced operation leaves the world that its body leaves once the call is recorded, apart from
the tracer. -/
theorem untraced_traced (operation : String) (arguments : List (String × Json))
    (resultValue : α → Value) (body : Codegen σ α) (w : World σ) :
    ((traced operation arguments resultValue body).runIn w).2.untraced =
      (body.runIn (w.enter operation arguments)).2.untraced := by
  unfold World.enter
  cases hw : w.isTracing with
  | true =>
    rw [Codegen.runIn_traced_of_isTracing hw]
    dsimp only
    split <;> rfl
  | false =>
    rw [Codegen.runIn_traced_of_not_isTracing hw]
    rfl

section

variable {g : ClassGraph} {t : Ty} {c : ClassId} {k : Constructor}

theorem writeInvocation_run (ht : t.definition? = some c)
    (hk : (g.decl c).constructor? = some k) {available : Value} {names : List String}
    (havailable : available.names = .ok names) (writeable : Value)
    (reasons : List (String × Option String)) (writer : ArgumentWriter σ) (sink : Option SinkId)
    (layout : Option Layout) (w : World σ) :
    let run := (writeInvocation g t available writeable reasons writer sink layout).runIn w
    let inner := (Invocation.write g c k names writeable.onlyNames reasons writer sink
      w.desk.capacity (layout.getD w.layout)).runIn (w.enter "write_constructor_invocation"
        (invocationArguments g t available writeable))
    run.1 = inner.1 ∧ run.2.untraced = inner.2.untraced := by
  constructor
  · rw [Invocation.writeInvocation_outcome ht hk, havailable]
    rfl
  · rw [writeInvocation, untraced_traced]
    simp only [ht, hk, Codegen.runIn_bind, Codegen.runIn_get, Codegen.runIn_ofExcept, havailable,
      World.layout_enter, World.desk_enter]
    rfl

/-- An invocation does the same with and without a tracer if the writer does not look at it. -/
theorem writeInvocation_untraced {called : String → Prop} {writer : ArgumentWriter σ}
    (hwriter : ∀ name p, Codegen.TracesOnly called (writer name p)) (available writeable : Value)
    (reasons : List (String × Option String)) (sink : Option SinkId) (layout : Option Layout)
    (w : World σ) :
    Prod.map id World.untraced
        ((writeInvocation g t available writeable reasons writer sink layout).runIn w) =
      (writeInvocation g t available writeable reasons writer sink layout).runIn w.untraced := by
  obtain ⟨arguments, resultValue, body, hbody, heq⟩ := TracedOperation.exists_body
    (.invocation hwriter g t available writeable reasons sink layout)
  rw [heq]
  exact hbody.faithful.transparent_traced _ arguments resultValue w

/-- Invocations of the same available parameters go alike if nothing is traced or the writer does
not look at the tracer, which is told of all names. -/
theorem writeInvocation_alike (ht : t.definition? = some c)
    (hk : (g.decl c).constructor? = some k) {available available' writeable writeable' : Value}
    {names names' fields fields' : List String} (havailable : available.names = .ok names)
    (havailable' : available'.names = .ok names') (hwriteable : writeable.onlyNames = .ok fields)
    (hwriteable' : writeable'.onlyNames = .ok fields')
    (hrequired : ∀ p ∈ k.parameters, p.required = true → p.name ∈ names)
    (hnames : ∀ p ∈ k.parameters, p.name ∈ names' ↔ p.name ∈ names)
    (hfields : ∀ name, name ∈ fields' ↔ name ∈ fields)
    (reasons : List (String × Option String)) {writer : ArgumentWriter σ} (sink : Option SinkId)
    (layout : Option Layout) (w : World σ)
    (hblind : w.isTracing = false ∨
      ∃ called, ∀ name p, Codegen.TracesOnly called (writer name p)) :
    let run := (writeInvocation g t available writeable reasons writer sink layout).runIn w
    let run' := (writeInvocation g t available' writeable' reasons writer sink layout).runIn w
    AlikeOutcome run'.1 run.1 ∧ run'.2.untraced = run.2.untraced := by
  have hplain : ∀ w : World σ, w.isTracing = false →
      let run := (writeInvocation g t available writeable reasons writer sink layout).runIn w
      let run' := (writeInvocation g t available' writeable' reasons writer sink layout).runIn w
      AlikeOutcome run'.1 run.1 ∧ run'.2.untraced = run.2.untraced := by
    intro w hw run run'
    have henter : ∀ arguments, w.enter "write_constructor_invocation" arguments = w := by
      intro arguments
      rw [World.enter, hw]
      rfl
    obtain ⟨hrun, hworld⟩ :=
      writeInvocation_run ht hk havailable writeable reasons writer sink layout w
    obtain ⟨hrun', hworld'⟩ :=
      writeInvocation_run ht hk havailable' writeable' reasons writer sink layout w
    rw [henter, hwriteable] at hrun hworld
    rw [henter, hwriteable'] at hrun' hworld'
    obtain ⟨houtcome, hleft⟩ := Invocation.write_alike (g := g) (c := c)
      (missing?_eq_none.2 hrequired) hnames hfields reasons writer sink w.desk.capacity
      (layout.getD w.layout) w
    unfold run run'
    rw [hrun, hrun', hworld, hworld']
    exact ⟨houtcome, congrArg World.untraced hleft⟩
  rcases hblind with hw | ⟨called, hwriter⟩
  · exact hplain w hw
  · have halike := hplain w.untraced rfl
    rw [← writeInvocation_untraced hwriter available writeable,
      ← writeInvocation_untraced hwriter available' writeable'] at halike
    exact halike

end

/-- If what is given for the names is a collection of names, and no required parameter is missing,
the writer is asked for the available parameters, each under its own name, in call order. The first
call that fails is the last one and its fault is the outcome. If all calls succeed, the arguments
are arranged as they are rendered, the names to set are those that can be written and belong to no
asked parameter, and these and the names of the asked parameters are the used ones. Without a sink
nothing comes before the calls; with one, a warning that is too long ends the operation before them.
Nothing depends on how the names were given, if only the same parameters are available and the same
names can be written, as long as the writer does not look at the trace of this. -/
theorem writeInvocation_fulfilment {g : ClassGraph} {t : Ty} {c : ClassId} {k : Constructor}
    (available writeable : Value) {names fields : List String}
    (reasons : List (String × Option String)) (writer : ArgumentWriter σ) (sink : Option SinkId)
    (layout : Option Layout) (w : World σ) (ht : t.definition? = some c)
    (hk : (g.decl c).constructor? = some k) (havailable : available.names = .ok names)
    (hwriteable : writeable.onlyNames = .ok fields)
    (hrequired : ∀ p ∈ k.parameters, p.required = true → p.name ∈ names) :
    let asked := callOrder (selected names k.parameters)
    let run := (writeInvocation g t available writeable reasons writer sink layout).runIn w
    let start := w.enter "write_constructor_invocation"
      (invocationArguments g t available writeable)
    let warned := (Codegen.warnUndefined sink (asked.map Parameter.element)).runIn start
    (sink = none → warned = (.ok (), start)) ∧
    (∀ e, warned.1 = .error e →
      e.IsTooLarge ∧ run.1 = .error e ∧ run.2.untraced = warned.2.untraced) ∧
    (warned.1 = .ok () → ∃ made answers w', made <+: asked ∧
      Asks writer warned.2 made answers w' ∧ run.2.untraced = w'.untraced ∧
      (∀ e, answers = .error e → run.1 = .error e) ∧
      ∀ texts, answers = .ok texts → made = asked ∧
        run.1.map Invocation.content =
          (layout.getD w.layout).arrange w.desk.capacity
            (g.className c ++ g.typeParamList c false) (rendered asked texts) ∧
        ∀ i, run.1 = .ok i → i.Fulfils asked fields texts) ∧
    ∀ (available' writeable' : Value) (names' fields' : List String),
      available'.names = .ok names' → writeable'.onlyNames = .ok fields' →
      (∀ p ∈ k.parameters, p.name ∈ names' ↔ p.name ∈ names) →
      (∀ name, name ∈ fields' ↔ name ∈ fields) →
      (w.isTracing = false ∨ ∃ called, ∀ name p, Codegen.TracesOnly called (writer name p)) →
      let run' := (writeInvocation g t available' writeable' reasons writer sink layout).runIn w
      AlikeOutcome run'.1 run.1 ∧ run'.2.untraced = run.2.untraced := by
  intro asked run start warned
  obtain ⟨hrun, hworld⟩ :=
    writeInvocation_run ht hk havailable writeable reasons writer sink layout w
  rw [hwriteable] at hrun hworld
  have hmissing := missing?_eq_none.2 hrequired
  refine ⟨?_, fun e he => ?_, fun hok => ?_,
    fun available' writeable' names' fields' havailable' hwriteable' hnames hfields hblind =>
      writeInvocation_alike ht hk havailable havailable' hwriteable hwriteable' hrequired hnames
        hfields reasons sink layout w hblind⟩
  · rintro rfl
    rfl
  · have hwarned : warned = (.error e, warned.2) := Prod.ext he rfl
    unfold warned start asked at hwarned
    rw [Invocation.runIn_write hmissing, hwarned] at hrun hworld
    exact ⟨Desk.isTooLarge_of_warnUndefined he, hrun, hworld⟩
  · obtain ⟨made, answers, hprefix, hasks, herror, hanswered⟩ :=
      Invocation.write_calls hmissing fields reasons writer sink w.desk.capacity
        (layout.getD w.layout) (g := g) (c := c)
        (show warned = (.ok (), warned.2) from Prod.ext hok rfl)
    refine ⟨made, answers, _, hprefix, hasks, hworld, fun e he => hrun.trans (herror e he),
      fun texts htexts => ?_⟩
    obtain ⟨hmade, hlength, hresult⟩ := hanswered texts htexts
    have hcontent : run.1 = _ := hrun.trans hresult
    refine ⟨hmade, ?_, fun i hi => ?_⟩
    · rw [hcontent]
      generalize Layout.arrange _ _ _ _ = arranged
      cases arranged <;> rfl
    · rw [hcontent] at hi
      generalize Layout.arrange _ _ _ _ = arranged at hi
      cases arranged with
      | error e => cases hi
      | ok content =>
        cases hi
        exact Invocation.fulfils_assemble _ content hlength

/-- Four parameters, of which one passed by name and one passed by position share their name. -/
def sharedParameters : List Parameter :=
  [⟨"k", .builtin .int "int", true, true, none⟩, ⟨"a", .builtin .int "int", false, true, none⟩,
    ⟨"k", .builtin .int "int", false, false, none⟩, ⟨"z", .builtin .int "int", true, false, none⟩]

/-- A graph with a class `S` whose constructor has these four parameters. -/
def sharedGraph : ClassGraph := constructorGraph "S" sharedParameters

/-- Takes arguments from a table with two entries and keeps note of the calls. -/
def sharedWriter : ArgumentWriter (List (String × Parameter)) :=
  .recording (.fromTable [("a", "1"), ("k", "2")])

/-- What becomes of an invocation of `S`. -/
def sharedRun (available writeable : List Value) :
    Except Fault Invocation × World (List (String × Parameter)) :=
  (writeInvocation sharedGraph (.cls 1) (.list available) (.list writeable) [] sharedWriter none
    none).runIn ⟨none, .empty, .standard, []⟩

/-- Parameters that share a name are both asked for, the one passed by position first, and the name
is not to be set any more. Repetitions and order of the given names do not matter. -/
theorem fulfilment_of_shared_name :
    (∀ p ∈ sharedParameters, p.required = true → p.name ∈ ["a", "k"]) ∧
    ∃ i texts w', sharedRun [.str "a", .str "k"] [.str "k", .str "f"] =
        (.ok i, ⟨none, .empty, .standard,
          (callOrder (selected ["a", "k"] sharedParameters)).map fun p => (p.name, p)⟩) ∧
      i.content = "S(1, 2, k: 2)" ∧ i.toSet = ["f"] ∧
      Asks sharedWriter ⟨none, .empty, .standard, []⟩
        (callOrder (selected ["a", "k"] sharedParameters)) (.ok texts) w' ∧
      i.Fulfils (callOrder (selected ["a", "k"] sharedParameters)) ["k", "f"] texts ∧
      AlikeOutcome (sharedRun [.str "k", .str "a", .str "a"] [.str "f", .str "k", .str "f"]).1
        (.ok i) := by
  have hrequired : ∀ p ∈ sharedParameters, p.required = true → p.name ∈ ["a", "k"] := by decide
  obtain ⟨-, -, hcalls, halike⟩ := writeInvocation_fulfilment (g := sharedGraph) (t := .cls 1)
    (k := ⟨sharedParameters⟩) (.list [.str "a", .str "k"]) (.list [.str "k", .str "f"]) []
    sharedWriter none none ⟨none, .empty, .standard, []⟩ rfl rfl rfl rfl hrequired
  obtain ⟨made, answers, w', -, hasks, -, herror, hanswered⟩ := hcalls rfl
  cases answers with
  | error e => cases herror e rfl
  | ok texts =>
    obtain ⟨rfl, -, hfulfils⟩ := hanswered texts rfl
    refine ⟨hrequired, _, texts, w', rfl, rfl, rfl, hasks, hfulfils _ rfl, ?_⟩
    refine (halike (.list [.str "k", .str "a", .str "a"]) (.list [.str "f", .str "k", .str "f"])
      _ _ rfl rfl (by decide) (fun name => ?_) (.inl rfl)).1
    change name ∈ ["f", "k", "f"] ↔ name ∈ ["k", "f"]
    simp only [List.mem_cons, List.not_mem_nil, or_false]
    tauto

end ClassCode
