import ClassCode.Proofs.Desk.Warnings
import ClassCode.Proofs.Invocation.Write

/-!
# How the writer of arguments is called

The calls that the caller's function gets while an invocation is written, one after another
(`Asks`), and what becomes of an invocation of which nothing is missing (`runIn_write`): warnings
come first, then the calls in call order up to the first that fails, and the arrangement of all
arguments comes last, so that only this depends on the layout (`write_cases`). Besides the calls
only a text that is too long can fail, or what was given for the names that can be written
(`isTooLarge_or_raised`).
-/

namespace ClassCode

variable {σ : Type}

open Constructor

/-! ## Calls one after another -/

/-- The calls of a writer for parameters, each under the parameter's own name and in the world that
the call before it left: `Asks writer w made outcome w'` says that the calls for `made`, and no
others, lead from `w` to `w'`. They return the texts of the outcome, unless the last of them fails
with its fault. -/
inductive Asks (writer : ArgumentWriter σ) :
    World σ → List Parameter → Except Fault (List String) → World σ → Prop
  | done (w : World σ) : Asks writer w [] (.ok []) w
  | answered {w w₁ w₂ : World σ} {p : Parameter} {ps : List Parameter} {text : String}
      {outcome : Except Fault (List String)}
      (hcall : (writer p.name p).runIn w = (.ok text, w₁)) (hrest : Asks writer w₁ ps outcome w₂) :
      Asks writer w (p :: ps) (outcome.map (text :: ·)) w₂
  | failed {w w₁ : World σ} {p : Parameter} {e : Fault}
      (hcall : (writer p.name p).runIn w = (.error e, w₁)) : Asks writer w [p] (.error e) w₁

namespace Invocation

theorem runIn_textsFor_cons (writer : ArgumentWriter σ) (p : Parameter) (ps : List Parameter)
    (w : World σ) :
    (textsFor writer (p :: ps)).runIn w = match (writer p.name p).runIn w with
      | (.ok text, w₁) =>
        let r := (textsFor writer ps).runIn w₁
        (r.1.map (text :: ·), r.2)
      | (.error e, w₁) => (.error e, w₁) := by
  rw [textsFor, List.mapM_cons, Codegen.runIn_bind]
  rcases (writer p.name p).runIn w with ⟨e | text, w₁⟩
  · rfl
  · simp only [Codegen.runIn_bind]
    rw [← textsFor]
    rcases (textsFor writer ps).runIn w₁ with ⟨e | texts, w₂⟩ <;> rfl

/-- Texts are asked for in order: all of them, or those up to the first call that fails. -/
theorem asks_textsFor (writer : ArgumentWriter σ) (ps : List Parameter) (w : World σ) :
    ∃ made, made <+: ps ∧
      Asks writer w made ((textsFor writer ps).runIn w).1 ((textsFor writer ps).runIn w).2 ∧
      ∀ texts, ((textsFor writer ps).runIn w).1 = .ok texts → made = ps := by
  induction ps generalizing w with
  | nil => exact ⟨[], List.nil_prefix, .done w, fun _ _ => rfl⟩
  | cons p ps ih =>
    rw [runIn_textsFor_cons]
    rcases hcall : (writer p.name p).runIn w with ⟨e | text, w₁⟩
    · exact ⟨[p], List.prefix_append [p] ps, .failed hcall, fun texts h => by cases h⟩
    · obtain ⟨made, hprefix, hasks, hall⟩ := ih w₁
      refine ⟨p :: made, (List.prefix_cons_inj p).2 hprefix, .answered hcall hasks, ?_⟩
      intro texts htexts
      obtain ⟨rest, hrest⟩ : ∃ rest, ((textsFor writer ps).runIn w₁).1 = .ok rest := by
        cases hr : ((textsFor writer ps).runIn w₁).1 with
        | error e => simp [hr, Except.map] at htexts
        | ok rest => exact ⟨rest, rfl⟩
      rw [hall rest hrest]

/-- Asking for two lists of texts, one after the other, is asking for both as one list. -/
theorem textsFor_append (writer : ArgumentWriter σ) (ps qs : List Parameter) :
    textsFor writer (ps ++ qs) = (do
      let texts ← textsFor writer ps
      let rest ← textsFor writer qs
      pure (texts ++ rest)) :=
  List.mapM_append

end Invocation

/-! ## Arrangements that are too long -/

/-- Arguments cannot be arranged if the margin of their lines cannot be written. -/
theorem Layout.isTooLarge_of_arrange {l : Layout} {capacity : Text.Capacity} {callee : String}
    {arguments : List String} {e : Fault} (h : l.arrange capacity callee arguments = .error e) :
    e.IsTooLarge := by
  unfold Layout.arrange at h
  extract_lets head at h
  split at h
  · cases h
  · split at h
    · exact Text.isTooLarge_of_repeated (eq_error_of_map h)
    · cases h

namespace Invocation

/-! ## The written invocation -/

/-- The arguments for parameters, whose texts are given in call order. -/
def argumentsFor (ps : List Parameter) (texts : List String) : CallArguments :=
  ⟨texts.take (positional ps).length,
    ((named ps).map (·.name)).zip (texts.drop (positional ps).length)⟩

/-- The invocation that is put together when all arguments have been written for the consumed
parameters and arranged. -/
def assemble (ps : List Parameter) (writeable texts : List String) (content : String) :
    Invocation :=
  let taken := (ps.map (·.name)).eraseDups
  let toSet := writeable.eraseDups.filter fun name => !taken.contains name
  ⟨content, argumentsFor ps texts, toSet, taken ++ toSet⟩

/-- An invocation of which a parameter is missing comes to nothing before anything else is done. -/
theorem runIn_write_of_missing {g : ClassGraph} {c : ClassId} {k : Constructor}
    {available : List String} {p : Parameter} (hmissing : missing? available k.parameters = some p)
    (writeable : Except Fault (List String)) (reasons : List (String × Option String))
    (writer : ArgumentWriter σ) (sink : Option SinkId) (capacity : Text.Capacity) (layout : Layout)
    (w : World σ) :
    (write g c k available writeable reasons writer sink capacity layout).runIn w =
      (.error (.missingArgument (g.className c) p.name (reasons.lookup p.name).join), w) := by
  rw [write, consumed_eq, hmissing, Codegen.runIn_bind]
  rfl

/-- If nothing is missing, both lists of texts are asked for between warnings and arrangement. -/
theorem write_eq {g : ClassGraph} {c : ClassId} {k : Constructor} {available : List String}
    (hmissing : missing? available k.parameters = none)
    (writeable : Except Fault (List String)) (reasons : List (String × Option String))
    (writer : ArgumentWriter σ) (sink : Option SinkId) (capacity : Text.Capacity)
    (layout : Layout) :
    write g c k available writeable reasons writer sink capacity layout = (do
      let ps := selected available k.parameters
      Codegen.warnUndefined sink ((callOrder ps).map Parameter.element)
      let writeable ← Codegen.ofExcept writeable
      let byPosition ← textsFor writer (positional ps)
      let byName ← textsFor writer (named ps)
      let arguments : CallArguments := ⟨byPosition, ((named ps).map (·.name)).zip byName⟩
      let content ← Codegen.ofExcept
        (layout.arrange capacity (g.className c ++ g.typeParamList c false) arguments.texts)
      let taken := (ps.map (·.name)).eraseDups
      let toSet := writeable.eraseDups.filter fun name => !taken.contains name
      pure ⟨content, arguments, toSet, taken ++ toSet⟩) := by
  rw [write, consumed_eq, hmissing]
  change (pure (selected available k.parameters) >>= _) = _
  rw [pure_bind]
  simp only [Codegen.mapM_labelled]
  simp only [map_eq_pure_bind, bind_assoc, pure_bind]
  rfl

/-- What becomes of an invocation of which nothing is missing. A warning that cannot be written ends
it before any call, and so do writeable names that are none; after that the first call that fails
does, and last of all an arrangement that fails. -/
theorem runIn_write {g : ClassGraph} {c : ClassId} {k : Constructor} {available : List String}
    (hmissing : missing? available k.parameters = none)
    (writeable : Except Fault (List String)) (reasons : List (String × Option String))
    (writer : ArgumentWriter σ) (sink : Option SinkId) (capacity : Text.Capacity) (layout : Layout)
    (w : World σ) :
    let ps := selected available k.parameters
    (write g c k available writeable reasons writer sink capacity layout).runIn w =
      match (Codegen.warnUndefined sink ((callOrder ps).map Parameter.element)).runIn w with
      | (.error e, w₀) => (.error e, w₀)
      | (.ok (), w₀) =>
        match writeable with
        | .error e => (.error e, w₀)
        | .ok writeable =>
          match (textsFor writer (callOrder ps)).runIn w₀ with
          | (.error e, w₁) => (.error e, w₁)
          | (.ok texts, w₁) =>
            ((layout.arrange capacity (g.className c ++ g.typeParamList c false)
              (argumentsFor ps texts).texts).map (assemble ps writeable texts), w₁) := by
  rw [write_eq hmissing]
  generalize selected available k.parameters = ps
  simp only [Codegen.runIn_bind]
  rcases (Codegen.warnUndefined sink ((callOrder ps).map Parameter.element)).runIn w with
    ⟨e | ⟨⟩, w₀⟩
  · rfl
  cases writeable with
  | error e => rfl
  | ok writeable => ?_
  simp only [Codegen.runIn_ofExcept, callOrder, textsFor_append, Codegen.runIn_bind]
  rcases hpos : (textsFor writer (positional ps)).runIn w₀ with ⟨e | byPosition, w₁⟩
  · rfl
  dsimp only
  rcases (textsFor writer (named ps)).runIn w₁ with ⟨e | byName, w₂⟩
  · rfl
  have harguments : argumentsFor ps (byPosition ++ byName) =
      ⟨byPosition, ((named ps).map (·.name)).zip byName⟩ := by
    have hlength : byPosition.length = (positional ps).length :=
      Codegen.length_of_runIn_mapM hpos
    rw [argumentsFor, ← hlength, List.take_left, List.drop_left]
  simp only [Codegen.runIn_pure, harguments]
  cases layout.arrange capacity (g.className c ++ g.typeParamList c false)
    (CallArguments.texts ⟨byPosition, ((named ps).map (·.name)).zip byName⟩) with
  | error e => rfl
  | ok content =>
    simp only [Except.map, assemble, harguments]

/-- How the invocation of a constructor with consumed parameters comes to nothing before its
arguments are arranged, and the world that is left then: a warning cannot be written, the writable
names are none, or a call of the writer fails. -/
inductive Stops (ps : List Parameter) (writeable : Except Fault (List String))
    (writer : ArgumentWriter σ) (sink : Option SinkId) (w : World σ) (e : Fault) : World σ → Prop
  | warning {w₀ : World σ}
      (hwarn : (Codegen.warnUndefined sink ((callOrder ps).map Parameter.element)).runIn w =
        (.error e, w₀)) : Stops ps writeable writer sink w e w₀
  | names {w₀ : World σ}
      (hwarn : (Codegen.warnUndefined sink ((callOrder ps).map Parameter.element)).runIn w =
        (.ok (), w₀)) (hwriteable : writeable = .error e) : Stops ps writeable writer sink w e w₀
  | call {w₀ w₁ : World σ}
      (hwarn : (Codegen.warnUndefined sink ((callOrder ps).map Parameter.element)).runIn w =
        (.ok (), w₀))
      (htexts : (textsFor writer (callOrder ps)).runIn w₀ = (.error e, w₁)) :
      Stops ps writeable writer sink w e w₁

/-- An invocation of which nothing is missing comes to nothing before its arguments are arranged,
whichever layout is asked for, or it goes as their arrangement goes. -/
theorem write_cases {g : ClassGraph} {c : ClassId} {k : Constructor} {available : List String}
    (hmissing : missing? available k.parameters = none)
    (writeable : Except Fault (List String)) (reasons : List (String × Option String))
    (writer : ArgumentWriter σ) (sink : Option SinkId) (capacity : Text.Capacity) (w : World σ) :
    let ps := selected available k.parameters
    (∃ e w', Stops ps writeable writer sink w e w' ∧ ∀ layout,
      (write g c k available writeable reasons writer sink capacity layout).runIn w =
        (.error e, w')) ∨
    ∃ fields w₀ w₁ texts, writeable = .ok fields ∧
      (Codegen.warnUndefined sink ((callOrder ps).map Parameter.element)).runIn w = (.ok (), w₀) ∧
      (textsFor writer (callOrder ps)).runIn w₀ = (.ok texts, w₁) ∧
      ∀ layout, (write g c k available writeable reasons writer sink capacity layout).runIn w =
        ((layout.arrange capacity (g.className c ++ g.typeParamList c false)
          (argumentsFor ps texts).texts).map (assemble ps fields texts), w₁) := by
  intro ps
  rcases hwarn : (Codegen.warnUndefined sink ((callOrder ps).map Parameter.element)).runIn w with
    ⟨e | ⟨⟩, w₀⟩
  · exact .inl ⟨e, w₀, .warning hwarn, fun _ => by rw [runIn_write hmissing, hwarn]⟩
  cases writeable with
  | error e => exact .inl ⟨e, w₀, .names hwarn rfl, fun _ => by rw [runIn_write hmissing, hwarn]⟩
  | ok fields => ?_
  rcases htexts : (textsFor writer (callOrder ps)).runIn w₀ with ⟨e | texts, w₁⟩
  · refine .inl ⟨e, w₁, .call hwarn htexts, fun _ => ?_⟩
    simp only [runIn_write hmissing, ps, hwarn, htexts]
  · refine .inr ⟨fields, w₀, w₁, texts, rfl, rfl, htexts, fun _ => ?_⟩
    simp only [runIn_write hmissing, ps, hwarn, htexts]

/-- A constructor invocation that was written: warnings came first, then the writer was asked for
the texts in call order, and these became the arguments. -/
theorem write_eq_ok {g : ClassGraph} {c : ClassId} {k : Constructor} {available : List String}
    {writeable : Except Fault (List String)} {reasons : List (String × Option String)}
    {writer : ArgumentWriter σ} {sink : Option SinkId} {capacity : Text.Capacity} {layout : Layout}
    {i : Invocation} {w w' : World σ}
    (h : (write g c k available writeable reasons writer sink capacity layout).runIn w =
      (.ok i, w')) :
    ∃ byPosition byName w₀,
      (Codegen.warnUndefined sink
        ((callOrder (selected available k.parameters)).map Parameter.element)).runIn w =
          (.ok (), w₀) ∧
      (textsFor writer (callOrder (selected available k.parameters))).runIn w₀ =
        (.ok (byPosition ++ byName), w') ∧
      byPosition.length = (positional (selected available k.parameters)).length ∧
      byName.length = (named (selected available k.parameters)).length ∧
      i.arguments = ⟨byPosition,
        ((named (selected available k.parameters)).map (·.name)).zip byName⟩ ∧
      layout.arrange capacity (g.className c ++ g.typeParamList c false) i.arguments.texts =
        .ok i.content := by
  cases hmissing : missing? available k.parameters with
  | some p =>
    rw [runIn_write_of_missing hmissing] at h
    cases h
  | none => ?_
  obtain ⟨e, w₁, -, hfailed⟩ | ⟨fields, w₀, w₁, texts, -, hwarn, htexts, hwritten⟩ :=
    write_cases (g := g) (c := c) hmissing writeable reasons writer sink capacity w
  · rw [hfailed] at h
    cases h
  rw [hwritten, Prod.mk.injEq] at h
  obtain ⟨h, rfl⟩ := h
  generalize selected available k.parameters = ps at h hwarn htexts ⊢
  cases harranged : layout.arrange capacity (g.className c ++ g.typeParamList c false)
      (argumentsFor ps texts).texts with
  | error e =>
    rw [harranged] at h
    cases h
  | ok content => ?_
  rw [harranged] at h
  cases h
  have hlength : texts.length = (positional ps).length + (named ps).length := by
    rw [← List.length_append]
    exact Codegen.length_of_runIn_mapM htexts
  refine ⟨texts.take (positional ps).length, texts.drop (positional ps).length, w₀, hwarn, ?_, ?_,
    ?_, rfl, harranged⟩
  · rw [List.take_append_drop, htexts]
  · rw [List.length_take]
    omega
  · rw [List.length_drop]
    omega

/-- Whether some call of the writer for a constructor raises a fault, after the warnings and the
calls that come before it. -/
def RaisedByWriter (k : Constructor) (available : List String) (writer : ArgumentWriter σ)
    (sink : Option SinkId) (w : World σ) (e : Fault) : Prop :=
  ∃ made w₀ w₁, made <+: callOrder (selected available k.parameters) ∧
    (Codegen.warnUndefined sink
      ((callOrder (selected available k.parameters)).map Parameter.element)).runIn w =
        (.ok (), w₀) ∧
    Asks writer w₀ made (.error e) w₁

/-- An invocation of which nothing is missing fails only for texts that are too long, because no
names were given for those that can be written, or with the fault of a call. -/
theorem isTooLarge_or_raised {g : ClassGraph} {c : ClassId} {k : Constructor}
    {available : List String} {writeable : Except Fault (List String)}
    {reasons : List (String × Option String)} {writer : ArgumentWriter σ} {sink : Option SinkId}
    {capacity : Text.Capacity} {layout : Layout} {w : World σ} {e : Fault}
    (hmissing : missing? available k.parameters = none)
    (h : ((write g c k available writeable reasons writer sink capacity layout).runIn w).1 =
      .error e) :
    e.IsTooLarge ∨ writeable = .error e ∨ RaisedByWriter k available writer sink w e := by
  obtain ⟨e', w', hstops, hfailed⟩ | ⟨fields, w₀, w₁, texts, -, -, -, hwritten⟩ :=
    write_cases (g := g) (c := c) hmissing writeable reasons writer sink capacity w
  · rw [hfailed] at h
    cases h
    cases hstops with
    | warning hwarn => exact .inl (Desk.isTooLarge_of_warnUndefined (congrArg Prod.fst hwarn))
    | names _ hwriteable => exact .inr (.inl hwriteable)
    | @call w₀ _ hwarn htexts =>
      obtain ⟨made, hprefix, hasks, -⟩ :=
        asks_textsFor writer (callOrder (selected available k.parameters)) w₀
      rw [htexts] at hasks
      exact .inr (.inr ⟨made, w₀, _, hprefix, hwarn, hasks⟩)
  · rw [hwritten] at h
    exact .inl (Layout.isTooLarge_of_arrange (eq_error_of_map h))

end Invocation

end ClassCode
