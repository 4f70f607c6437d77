import ClassCode.Proofs.Invocation.Calls
import Mathlib.Data.List.Nodup

/-!
# How a constructor receives its arguments

A written invocation, read as a call: the first argument passed by position goes to the first
parameter passed by position, and so on, and an argument passed by name goes to the parameter of
that name. Every parameter receives the text that was written for it exactly when no parameter
passed by position is left out in front of one that is not (`receivedBy_eq_iff`), since an argument
behind a gap goes to the parameter in the gap.
-/

namespace ClassCode

variable {σ : Type}

open Constructor

/-! ## Reading a call -/

/-- What parameters receive from arguments passed by name and arguments passed by position. -/
def received (byName : List (String × String)) : List String → List Parameter → List (Option String)
  | _, [] => []
  | byPosition, p :: ps =>
    if p.named then byName.lookup p.name :: received byName byPosition ps
    else byPosition.head? :: received byName byPosition.tail ps

/-- What the parameters of a constructor receive from the arguments of a call, one by one. -/
def CallArguments.receivedBy (a : CallArguments) (ps : List Parameter) : List (Option String) :=
  received a.named a.positional ps

/-- Whether a parameter passed by position is left out only if all behind it are. -/
def Constructor.LeavesNoGap (available : List String) (ps : List Parameter) : Prop :=
  positional (selected available ps) <+: positional ps

/-- Arguments go where they belong exactly when there is no gap, if those passed by position are the
values of the available parameters and those passed by name find theirs. -/
theorem received_eq_map_iff {available : List String} {byName : List (String × String)}
    {value : Parameter → Option String} {ps : List Parameter} {byPosition : List String}
    (hposition : byPosition.map some = (positional (selected available ps)).map value)
    (hname : ∀ p ∈ ps, p.named = true → byName.lookup p.name = value p)
    (hnone : ∀ p ∈ ps, p.name ∉ available → value p = none) :
    received byName byPosition ps = ps.map value ↔ LeavesNoGap available ps := by
  induction ps generalizing byPosition with
  | nil => simp [received, LeavesNoGap, positional, selected]
  | cons p ps ih =>
    unfold LeavesNoGap at ih ⊢
    have hname' : ∀ q ∈ ps, q.named = true → byName.lookup q.name = value q :=
      fun q hq => hname q (List.mem_cons_of_mem p hq)
    have hnone' : ∀ q ∈ ps, q.name ∉ available → value q = none :=
      fun q hq => hnone q (List.mem_cons_of_mem p hq)
    by_cases hp : p.named = true
    · -- a parameter passed by name leaves the arguments passed by position alone
      have hskip : positional (selected available (p :: ps)) =
          positional (selected available ps) := by
        rw [selected_cons]
        split
        · exact positional_cons_of_named hp _
        · rfl
      rw [hskip] at hposition
      rw [received, if_pos hp, List.map_cons, hname p (by simp) hp, hskip,
        positional_cons_of_named hp, List.cons_eq_cons]
      simpa using ih hposition hname' hnone'
    · rw [received, if_neg hp, List.map_cons, positional_cons_of_not_named hp, List.cons_eq_cons]
      by_cases ha : p.name ∈ available
      · rw [selected_cons, if_pos ha, positional_cons_of_not_named hp] at hposition ⊢
        obtain ⟨text, rest, rfl, htext, hrest⟩ := List.map_eq_cons_iff.1 hposition
        rw [List.prefix_cons_inj, List.head?_cons, List.tail_cons, htext]
        simpa using ih hrest hname' hnone'
      · -- what follows the gap would be received by `p`, so nothing may follow it
        rw [selected_cons, if_neg ha] at hposition ⊢
        rw [hnone p (by simp) ha]
        cases byPosition with
        | nil =>
          have hempty : positional (selected available ps) = [] := by
            simpa using hposition.symm
          have hrest := (ih hposition hname' hnone').2 (hempty ▸ List.nil_prefix)
          simp [hempty, hrest]
        | cons text rest =>
          obtain ⟨q, qs, hq, -, -⟩ := List.map_eq_cons_iff.1 hposition.symm
          have hmem : q ∈ positional (selected available ps) := by rw [hq]; simp
          have hqa : q.name ∈ available := (mem_selected.1 (mem_positional.1 hmem).1).2
          rw [hq, List.cons_prefix_cons]
          constructor
          · rintro ⟨h, -⟩
            cases h
          · rintro ⟨rfl, -⟩
            exact absurd hqa ha

/-! ## The texts of parameters -/

/-- The text that was returned for a parameter, if its text was asked for. -/
def textOf (asked : List Parameter) (texts : List String) (p : Parameter) : Option String :=
  ((asked.map (·.name)).zip texts).lookup p.name

/-- A key that is not among those of the pairs has no value. -/
theorem lookup_zip_eq_none {keys : List String} {texts : List String} {key : String}
    (h : key ∉ keys) : (keys.zip texts).lookup key = none := by
  rw [List.lookup_eq_none_iff]
  intro entry hentry
  have hkey : entry.1 ∈ keys := (List.of_mem_zip hentry).1
  simpa using fun heq : key = entry.1 => h (heq ▸ hkey)

/-- Looking distinct keys up gives the values in order. -/
theorem map_lookup_zip {keys : List String} (texts : List String) (hkeys : keys.Nodup)
    (hlength : texts.length = keys.length) :
    keys.map (fun key => (keys.zip texts).lookup key) = texts.map some := by
  induction keys generalizing texts with
  | nil =>
    obtain rfl : texts = [] := List.length_eq_zero_iff.1 hlength
    rfl
  | cons key keys ih =>
    obtain ⟨text, texts, rfl⟩ := List.exists_cons_of_length_eq_add_one hlength
    obtain ⟨hkey, hkeys⟩ := List.nodup_cons.1 hkeys
    have hrest : keys.map (fun k => ((key, text) :: keys.zip texts).lookup k) =
        keys.map (fun k => (keys.zip texts).lookup k) := by
      refine List.map_congr_left fun k hk => ?_
      have hne : (k == key) = false := by
        simpa using fun heq : k = key => hkey (heq ▸ hk)
      rw [List.lookup_cons, hne]
    rw [List.zip_cons_cons, List.map_cons, List.lookup_cons_self, hrest, List.map_cons,
      ih texts hkeys (by simpa using hlength)]

/-- Call order only rearranges parameters. -/
theorem callOrder_perm (ps : List Parameter) : (callOrder ps).Perm ps := by
  have h := List.filter_append_perm (fun p : Parameter => !p.named) ps
  simpa [callOrder, positional, named] using h

/-- Distinct parameters are asked for under distinct names. -/
theorem nodup_names_callOrder (available : List String) {ps : List Parameter}
    (h : (ps.map (·.name)).Nodup) :
    ((callOrder (selected available ps)).map (·.name)).Nodup := by
  have hsub : ((selected available ps).map (·.name)).Sublist (ps.map (·.name)) :=
    (List.filter_sublist).map _
  exact ((callOrder_perm _).map _).nodup_iff.2 (h.sublist hsub)

/-- A text was asked for exactly if the name of the parameter is available. -/
theorem textOf_isSome {available : List String} {ps : List Parameter} {texts : List String}
    (hlength : texts.length = (callOrder (selected available ps)).length) {p : Parameter}
    (hp : p ∈ ps) :
    (textOf (callOrder (selected available ps)) texts p).isSome = true ↔ p.name ∈ available := by
  constructor
  · intro h
    by_contra ha
    rw [textOf, lookup_zip_eq_none] at h
    · cases h
    · simp only [List.mem_map, (callOrder_perm _).mem_iff, mem_selected]
      rintro ⟨q, ⟨-, hq⟩, heq⟩
      exact ha (heq ▸ hq)
  · intro ha
    have hmem : p ∈ callOrder (selected available ps) :=
      (callOrder_perm _).mem_iff.2 (mem_selected.2 ⟨hp, ha⟩)
    obtain ⟨n, hn, rfl⟩ := List.mem_iff_getElem.1 hmem
    rw [textOf, List.lookup_isSome_iff]
    refine ⟨((callOrder (selected available ps))[n].name, texts[n]), ?_, by simp⟩
    exact List.mem_iff_getElem.2 ⟨n, by simpa [hlength] using hn, by simp⟩

/-! ## Calls without gaps -/

/-- Arguments made from the texts of the available parameters go to these parameters exactly when
there is no gap. -/
theorem receivedBy_eq_iff {available : List String} {ps : List Parameter}
    {byPosition byName : List String} (hnodup : (ps.map (·.name)).Nodup)
    (hposition : byPosition.length = (positional (selected available ps)).length)
    (hname : byName.length = (named (selected available ps)).length) :
    CallArguments.receivedBy
        ⟨byPosition, ((named (selected available ps)).map (·.name)).zip byName⟩ ps =
        ps.map (textOf (callOrder (selected available ps)) (byPosition ++ byName)) ↔
      LeavesNoGap available ps := by
  have hsplit : ((callOrder (selected available ps)).map (·.name)).zip (byPosition ++ byName) =
      ((positional (selected available ps)).map (·.name)).zip byPosition ++
        ((named (selected available ps)).map (·.name)).zip byName := by
    rw [callOrder, List.map_append, List.zip_append (by rw [List.length_map, hposition])]
  apply received_eq_map_iff
  · -- looking all asked names up gives all texts; the first part of both is what is wanted
    have hall := map_lookup_zip (byPosition ++ byName)
      (nodup_names_callOrder available hnodup) (by simp [callOrder, hposition, hname])
    have hboth : (positional (selected available ps)).map
          (textOf (callOrder (selected available ps)) (byPosition ++ byName)) ++
        (named (selected available ps)).map
          (textOf (callOrder (selected available ps)) (byPosition ++ byName)) =
        byPosition.map some ++ byName.map some := by
      rw [← List.map_append, ← List.map_append, ← hall, List.map_map]
      rfl
    exact (List.append_inj_left hboth (by simp [hposition])).symm
  · intro p hp hnamed
    have hother : p.name ∉ (positional (selected available ps)).map (·.name) := by
      intro h
      obtain ⟨q, hq, heq⟩ := List.mem_map.1 h
      obtain ⟨hq, hqpos⟩ := mem_positional.1 hq
      obtain rfl := List.inj_on_of_nodup_map hnodup (mem_selected.1 hq).1 hp heq
      rw [hnamed] at hqpos
      cases hqpos
    rw [textOf, hsplit, List.lookup_append, lookup_zip_eq_none hother, Option.none_or]
  · intro p hp ha
    have hlength : (byPosition ++ byName).length =
        (callOrder (selected available ps)).length := by simp [callOrder, hposition, hname]
    rw [← Option.not_isSome_iff_eq_none, textOf_isSome hlength hp]
    exact ha

/-- When an invocation of a constructor with distinct parameter names is written, the writer has
been asked for the texts of exactly the available parameters, and the arguments that stand in the
code, read as a call, give every parameter its text and the others nothing, exactly if no parameter
passed by position is left out in front of one that is not. -/
theorem writeInvocation_received_iff {g : ClassGraph} {t : Ty} {c : ClassId} {k : Constructor}
    (available writeable : Value) (reasons : List (String × Option String))
    (writer : ArgumentWriter σ) (sink : Option SinkId) (layout : Option Layout) {i : Invocation}
    (w : World σ) (ht : t.definition? = some c) (hk : (g.decl c).constructor? = some k)
    (hnodup : (k.parameters.map (·.name)).Nodup)
    (h : ((writeInvocation g t available writeable reasons writer sink layout).runIn w).1 =
      .ok i) :
    ∃ names, available.names = .ok names ∧
    let asked := callOrder (selected names k.parameters)
    ∃ texts w₀ w₁,
      (Codegen.warnUndefined sink (asked.map Parameter.element)).runIn
        (w.enter "write_constructor_invocation" (tracedArguments argumentLimit
          [("class_type", g.typeValue t), ("available_ctor_params", available),
            ("writeable_fields", writeable)])) = (.ok (), w₀) ∧
      (Invocation.textsFor writer asked).runIn w₀ = (.ok texts, w₁) ∧
      (layout.getD w.layout).arrange w.desk.capacity (g.className c ++ g.typeParamList c false)
        i.arguments.texts = .ok i.content ∧
      (∀ p ∈ k.parameters, (textOf asked texts p).isSome = true ↔ p.name ∈ names) ∧
      (i.arguments.receivedBy k.parameters = k.parameters.map (textOf asked texts) ↔
        LeavesNoGap names k.parameters) := by
  rw [Invocation.writeInvocation_outcome ht hk] at h
  cases hnames : available.names with
  | error e =>
    rw [hnames] at h
    cases h
  | ok names => ?_
  rw [hnames] at h
  refine ⟨names, rfl, ?_⟩
  intro asked
  obtain ⟨byPosition, byName, w₀, hwarn, htexts, hposition, hname, hargs, hcontent⟩ :=
    Invocation.write_eq_ok (Prod.ext h rfl)
  refine ⟨byPosition ++ byName, w₀, _, hwarn, htexts, hcontent, fun p hp => ?_, ?_⟩
  · exact textOf_isSome (by simp [callOrder, hposition, hname]) hp
  · rw [hargs]
    exact receivedBy_eq_iff hnodup hposition hname

/-- Two optional parameters that are passed by position. -/
def optionalPair : List Parameter :=
  [⟨"a", .builtin .int "int", false, false, none⟩, ⟨"b", .builtin .int "int", false, false, none⟩]

/-- A graph with a class `P` whose constructor has these two parameters. -/
def optionalPairGraph : ClassGraph :=
  (ClassGraph.initial.declare
    { ClassDecl.unknown with
      name := "P", superclass := some (.cls ClassGraph.rootId),
      constructor? := some ⟨optionalPair⟩ }).2

/-- The outcome of writing an invocation of `P`, where every argument is the name of its
parameter. -/
def optionalPairOutcome (available : List Value) : Except Fault Invocation :=
  ((writeInvocation optionalPairGraph (.cls 1) (.list available) (.list []) []
    ArgumentWriter.byName none none).runIn ⟨none, .empty, .standard, ()⟩).1

/-- With the first of two parameters available, it receives its text and the other one nothing. -/
theorem received_first_of_pair :
    ((optionalPair.map (·.name)).Nodup ∧
      optionalPairOutcome [.str "a"] = .ok ⟨"P(a)", ⟨["a"], []⟩, [], ["a"]⟩) ∧
    ∃ texts w₀ w₁,
      (Invocation.textsFor (σ := Unit) ArgumentWriter.byName
        (callOrder (selected ["a"] optionalPair))).runIn w₀ = (.ok texts, w₁) ∧
      (CallArguments.receivedBy ⟨["a"], []⟩ optionalPair =
          optionalPair.map (textOf (callOrder (selected ["a"] optionalPair)) texts) ↔
        LeavesNoGap ["a"] optionalPair) := by
  refine ⟨⟨by decide, rfl⟩, ?_⟩
  obtain ⟨names, hnames, texts, w₀, w₁, -, htexts, -, -, hiff⟩ :=
    writeInvocation_received_iff (g := optionalPairGraph) (t := .cls 1) (k := ⟨optionalPair⟩)
      (i := ⟨"P(a)", ⟨["a"], []⟩, [], ["a"]⟩) (.list [.str "a"]) (.list []) []
      ArgumentWriter.byName none none ⟨none, .empty, .standard, ()⟩ rfl rfl (by decide) rfl
  cases hnames
  exact ⟨texts, w₀, w₁, htexts, hiff⟩

/-- With only the second of two parameters available, the first one receives its text. -/
theorem first_of_pair_receives_second :
    ∃ i, optionalPairOutcome [.str "b"] = .ok i ∧ i.content = "P(b)" ∧
      i.arguments.receivedBy optionalPair = [some "b", none] ∧
      optionalPair.map (textOf (callOrder (selected ["b"] optionalPair)) ["b"]) =
        [none, some "b"] :=
  ⟨_, rfl, rfl, rfl, rfl⟩

end ClassCode
