import ClassCode.Proofs.Invocation.Fulfilment
import ClassCode.Proofs.Text

/-!
# Layouts change white space only

An invocation that is written on several lines and one that is written on a single line come about
in the same way, up to the arrangement of the arguments (`Invocation.write_layouts`). Arguments that
are arranged on several lines stand behind the same opening as on a single line, with the same
commas and the same closing bracket (`Layout.punctuated`), but behind line breaks and blanks
instead of one blank (`Layout.arrange_layouts`). The number of blanks can be one that no row of
blanks has; then the arrangement on several lines fails, which is the only case in which one layout
fails and the other does not (`writeInvocation_layouts`).
-/

namespace ClassCode

variable {σ : Type}

open Constructor Text

/-! ## Arrangements -/

namespace Layout

variable {capacity : Text.Capacity}

/-- What an invocation begins with, up to its first argument. -/
def opening (l : Layout) (callee : String) : String :=
  (if l.newKeyword then "new " else "") ++ callee ++ "("

/-- Arguments with what follows them: commas, and the closing bracket after the last one. -/
def punctuated : List String → List String
  | [] => []
  | [a] => [a ++ ")"]
  | a :: b :: rest => (a ++ ",") :: punctuated (b :: rest)

theorem length_punctuated (arguments : List String) :
    (punctuated arguments).length = arguments.length := by
  induction arguments using punctuated.induct with
  | case1 => rfl
  | case2 a => rfl
  | case3 a b rest ih => rw [punctuated, List.length_cons, ih]; rfl

/-- What stands before arguments stands before them with what follows them, too. -/
theorem punctuated_map_append (margin : String) (arguments : List String) :
    punctuated (arguments.map (margin ++ ·)) = (punctuated arguments).map (margin ++ ·) := by
  induction arguments using punctuated.induct with
  | case1 => rfl
  | case2 a => simp [punctuated, String.append_assoc]
  | case3 a b rest ih =>
    rw [List.map_cons] at ih
    rw [List.map_cons, List.map_cons, punctuated, ih, punctuated, List.map_cons,
      String.append_assoc]

/-- Between arguments there are commas and whatever is between them with what follows them. -/
theorem intercalate_punctuated (sep : String) {arguments : List String} (hne : arguments ≠ []) :
    sep.intercalate (punctuated arguments) = ("," ++ sep).intercalate arguments ++ ")" := by
  induction arguments using punctuated.induct with
  | case1 => exact absurd rfl hne
  | case2 a => rw [punctuated, String.intercalate_singleton, String.intercalate_singleton]
  | case3 a b rest ih =>
    have hrest := ih (List.cons_ne_nil b rest)
    obtain ⟨c, cs, hcs⟩ : ∃ c cs, punctuated (b :: rest) = c :: cs :=
      List.exists_cons_of_length_eq_add_one (length_punctuated (b :: rest))
    rw [hcs] at hrest
    rw [punctuated, hcs, String.intercalate_cons_cons, hrest, String.intercalate_cons_cons]
    simp only [String.append_assoc]

theorem oneLine_punctuated {arguments : List String} (h : ∀ a ∈ arguments, OneLine a) :
    ∀ a ∈ punctuated arguments, OneLine a := by
  induction arguments using punctuated.induct with
  | case1 => exact h
  | case2 a =>
    simp only [punctuated, List.mem_singleton, forall_eq] at h ⊢
    exact h.append (by decide)
  | case3 a b rest ih =>
    obtain ⟨ha, hrest⟩ := List.forall_mem_cons.1 h
    exact List.forall_mem_cons.2 ⟨ha.append (by decide), ih hrest⟩

theorem arrange_nil (l : Layout) (capacity : Text.Capacity) (callee : String) :
    l.arrange capacity callee [] = .ok (l.opening callee ++ ")") := rfl

theorem arrange_single {l : Layout} (hl : l.multiline = false) (callee : String)
    {arguments : List String} (hne : arguments ≠ []) :
    l.arrange capacity callee arguments =
      .ok (l.opening callee ++ " ".intercalate (punctuated arguments)) := by
  have hsep : "," ++ " " = ", " := rfl
  rw [arrange, if_neg (by simpa using hne), if_neg (by simp [hl]),
    intercalate_punctuated " " hne, hsep, opening, ← String.append_assoc]

theorem arrange_multiline {l : Layout} (hl : l.multiline = true) (callee : String)
    {arguments : List String} (hne : arguments ≠ []) :
    l.arrange capacity callee arguments = (l.margin capacity).map fun margin =>
      "\n".intercalate (l.opening callee :: (punctuated arguments).map (margin ++ ·)) := by
  have hmap : ∀ margin : String, arguments.map (margin ++ ·) ≠ [] := by simpa using hne
  have hsep : "," ++ "\n" = ",\n" := rfl
  rw [arrange, if_neg (by simpa using hne), if_pos hl]
  congr 1
  funext margin
  obtain ⟨c, cs, hcs⟩ : ∃ c cs, punctuated (arguments.map (margin ++ ·)) = c :: cs :=
    List.exists_cons_of_ne_nil fun hnil => hmap margin <| List.length_eq_zero_iff.1 <| by
      rw [← length_punctuated, hnil]
      rfl
  rw [← punctuated_map_append, hcs, String.intercalate_cons_cons, ← hcs,
    intercalate_punctuated "\n" (hmap margin), hsep, opening]
  simp only [String.append_assoc]

/-- Whether the lines of an arrangement can be indented: the number of blanks is one that can be
counted with and that a text can have. -/
def Indentable (l : Layout) (capacity : Text.Capacity) : Prop :=
  -countBound ≤ l.indent ∧ l.indent < capacity.bound

instance (l : Layout) (capacity : Text.Capacity) : Decidable (l.Indentable capacity) :=
  inferInstanceAs (Decidable (_ ∧ _))

theorem indentable_iff {l : Layout} :
    l.Indentable capacity ↔ ∃ margin, l.margin capacity = .ok margin :=
  exists_repeated_iff.symm

theorem margin_eq {l : Layout} (h : l.Indentable capacity) :
    l.margin capacity = .ok (blanks l.indent.toNat) := by
  obtain ⟨margin, hmargin⟩ := indentable_iff.1 h
  rw [hmargin]
  rw [Layout.margin, repeated] at hmargin
  split at hmargin
  · cases hmargin
  · split at hmargin
    · cases hmargin
    · exact hmargin.symm

end Layout

/-- Whether a text on several lines differs in white space only from a text on a single line: each
of its lines but the first is indented by a number of blanks, and when these are taken away and the
lines are joined, with a blank between them but for the first, they are the other text. The first
line ends in an opening bracket. -/
def Text.Unfolded (indent count : ℕ) (content content' : String) : Prop :=
  ∃ head rest, rest.length = count ∧
    lines content = (head ++ "(") :: rest.map (blanks indent ++ ·) ∧
    content' = head ++ "(" ++ " ".intercalate rest

namespace Layout

variable {l l' : Layout}

/-- Arguments that are arranged on a single line can be arranged on several lines as well, unless
these cannot be indented. It changes nothing if there are no arguments, and only white space if all
texts are on one line. -/
theorem arrange_layouts (hmulti : l.multiline = true) (hsingle : l'.multiline = false)
    (hkeyword : l.newKeyword = l'.newKeyword) (capacity : Text.Capacity) (callee : String)
    (arguments : List String) :
    ∃ content', l'.arrange capacity callee arguments = .ok content' ∧
      (arguments = [] → l.arrange capacity callee arguments = .ok content') ∧
      (arguments ≠ [] → ¬ l.Indentable capacity →
        ∃ e, e.IsTooLarge ∧ l.arrange capacity callee arguments = .error e) ∧
      (arguments ≠ [] → l.Indentable capacity → ∃ content,
        l.arrange capacity callee arguments = .ok content ∧
        (OneLine callee → (∀ a ∈ arguments, OneLine a) →
          Unfolded l.indent.toNat arguments.length content content')) := by
  have hopening : l'.opening callee = l.opening callee := by
    rw [opening, opening, hkeyword]
  by_cases hne : arguments = []
  · subst hne
    refine ⟨_, l'.arrange_nil capacity callee, fun _ => ?_, fun h => absurd rfl h,
      fun h => absurd rfl h⟩
    rw [arrange_nil, hopening]
  refine ⟨_, arrange_single hsingle callee hne, fun h => absurd h hne, fun _ hindent => ?_,
    fun _ hindent => ?_⟩
  · cases hmargin : l.margin capacity with
    | error e =>
      refine ⟨e, isTooLarge_of_repeated hmargin, ?_⟩
      rw [arrange_multiline hmulti callee hne, hmargin]
      rfl
    | ok margin => exact absurd (indentable_iff.2 ⟨margin, hmargin⟩) hindent
  · refine ⟨"\n".intercalate (l.opening callee ::
      (punctuated arguments).map (blanks l.indent.toNat ++ ·)), ?_, fun hcallee harguments => ?_⟩
    · rw [arrange_multiline hmulti callee hne, margin_eq hindent]
      rfl
    · refine ⟨(if l.newKeyword then "new " else "") ++ callee, punctuated arguments,
        length_punctuated arguments, lines_intercalate ?_ (List.cons_ne_nil _ _), ?_⟩
      · have hkeyword : OneLine (if l.newKeyword then "new " else "") := by
          split <;> decide
        refine List.forall_mem_cons.2 ⟨(hkeyword.append hcallee).append (by decide), ?_⟩
        intro line hline
        obtain ⟨a, ha, rfl⟩ := List.mem_map.1 hline
        exact (oneLine_blanks _).append (oneLine_punctuated harguments a ha)
      · rw [hopening]
        rfl

end Layout

/-! ## Names on one line -/

theorem oneLine_rendered {asked : List Parameter} {texts : List String}
    (hasked : ∀ p ∈ asked, OneLine p.name) (htexts : ∀ text ∈ texts, OneLine text) :
    ∀ a ∈ rendered asked texts, OneLine a := by
  induction asked generalizing texts with
  | nil => simp [rendered]
  | cons p asked ih =>
    cases texts with
    | nil => simp [rendered]
    | cons text texts =>
      obtain ⟨hp, hasked⟩ := List.forall_mem_cons.1 hasked
      obtain ⟨htext, htexts⟩ := List.forall_mem_cons.1 htexts
      refine List.forall_mem_cons.2 ⟨?_, ih hasked htexts⟩
      dsimp only
      split
      · exact (hp.append (by decide)).append htext
      · exact htext

/-- Whether the names of a class, of its type parameters and of its constructor's parameters are on
one line. -/
structure ClassGraph.OneLineNames (g : ClassGraph) (c : ClassId) : Prop where
  name : OneLine (g.className c)
  typeParams : ∀ p ∈ (g.decl c).typeParams, OneLine (g.simpleName p)
  parameters : ∀ k, (g.decl c).constructor? = some k → ∀ p ∈ k.parameters, OneLine p.name

theorem ClassGraph.OneLineNames.callee {g : ClassGraph} {c : ClassId} (h : g.OneLineNames c) :
    OneLine (g.className c ++ g.typeParamList c false) := by
  refine h.name.append ?_
  unfold typeParamList
  split
  · decide
  · refine ((show OneLine "<" by decide).append (.intercalate (by decide) ?_)).append (by decide)
    intro s hs
    obtain ⟨p, hp, rfl⟩ := List.mem_map.1 hs
    exact h.typeParams p hp

/-! ## Invocations -/

namespace Invocation

/-- Whether an invocation on several lines is an invocation on a single line up to white space. -/
structure Unfolds (indent : ℕ) (texts : List String) (i i' : Invocation) : Prop where
  toSet : i.toSet = i'.toSet
  used : i.used = i'.used
  arguments : i.arguments = i'.arguments
  /-- Without arguments there is nothing to stand on lines of their own. -/
  content_of_nil : texts = [] → i.content = i'.content
  content : texts ≠ [] → (∀ text ∈ texts, OneLine text) →
    Unfolded indent texts.length i.content i'.content

/-- Invocations of the same texts, one arranged on several lines and the other on a single line. -/
theorem map_assemble_layouts {l l' : Layout} (hmulti : l.multiline = true)
    (hsingle : l'.multiline = false) (hkeyword : l.newKeyword = l'.newKeyword)
    (capacity : Text.Capacity) {callee : String} (hcallee : OneLine callee) (ps : List Parameter)
    (fields : List String) {asked : List Parameter} (hasked : ∀ p ∈ asked, OneLine p.name)
    {texts : List String} (hlength : texts.length = asked.length) :
    let outcome (l : Layout) :=
      (l.arrange capacity callee (rendered asked texts)).map (assemble ps fields texts)
    ∃ i', outcome l' = .ok i' ∧
      (texts = [] ∨ l.Indentable capacity →
        ∃ i, outcome l = .ok i ∧ i.Unfolds l.indent.toNat texts i') ∧
      (texts ≠ [] → ¬ l.Indentable capacity → ∃ e, e.IsTooLarge ∧ outcome l = .error e) := by
  intro outcome
  have hcount : (rendered asked texts).length = texts.length := by
    rw [rendered, List.length_zipWith, hlength, Nat.min_self]
  have hnil : rendered asked texts = [] ↔ texts = [] := by
    rw [← List.length_eq_zero_iff, hcount, List.length_eq_zero_iff]
  obtain ⟨content', hcontent', hempty, hunindented, hindented⟩ :=
    Layout.arrange_layouts hmulti hsingle hkeyword capacity callee (rendered asked texts)
  refine ⟨assemble ps fields texts content', by simp only [outcome, hcontent']; rfl,
    fun hindent => ?_, fun hne hindent => ?_⟩
  · by_cases htexts : texts = []
    · refine ⟨assemble ps fields texts content', ?_, rfl, rfl, rfl, fun _ => rfl,
        fun hne => absurd htexts hne⟩
      simp only [outcome, hempty (hnil.2 htexts)]
      rfl
    · obtain ⟨content, hcontent, hunfolded⟩ :=
        hindented (mt hnil.1 htexts) (hindent.resolve_left htexts)
      refine ⟨assemble ps fields texts content, by simp only [outcome, hcontent]; rfl,
        rfl, rfl, rfl, fun h => absurd h htexts, fun _ hall => ?_⟩
      rw [← hcount]
      exact hunfolded hcallee (oneLine_rendered hasked hall)
  · obtain ⟨e, he, herror⟩ := hunindented (mt hnil.1 hne) hindent
    exact ⟨e, he, by simp only [outcome, herror]; rfl⟩

/-- Which layout is asked for makes no difference until the arguments are arranged. -/
theorem write_layouts {g : ClassGraph} {c : ClassId} {k : Constructor} {available : List String}
    (hmissing : missing? available k.parameters = none)
    (writeable : Except Fault (List String)) (reasons : List (String × Option String))
    (writer : ArgumentWriter σ) (sink : Option SinkId) (capacity : Text.Capacity) (w : World σ) :
    let ps := selected available k.parameters
    (∃ e w', ∀ layout,
      (write g c k available writeable reasons writer sink capacity layout).runIn w =
        (.error e, w')) ∨
    ∃ fields w₀ w₁ texts, writeable = .ok fields ∧
      (Codegen.warnUndefined sink ((callOrder ps).map Parameter.element)).runIn w = (.ok (), w₀) ∧
      Asks writer w₀ (callOrder ps) (.ok texts) w₁ ∧
      ∀ layout, (write g c k available writeable reasons writer sink capacity layout).runIn w =
        ((layout.arrange capacity (g.className c ++ g.typeParamList c false)
          (rendered (callOrder ps) texts)).map (assemble ps fields texts), w₁) := by
  intro ps
  obtain ⟨e, w', -, hfailed⟩ | ⟨fields, w₀, w₁, texts, hfields, hwarn, htexts, hwritten⟩ :=
    write_cases (g := g) (c := c) hmissing writeable reasons writer sink capacity w
  · exact .inl ⟨e, w', hfailed⟩
  · obtain ⟨made, -, hasks, hall⟩ := asks_textsFor writer (callOrder ps) w₀
    rw [htexts] at hasks hall
    obtain rfl := hall texts rfl
    refine .inr ⟨fields, w₀, w₁, texts, hfields, hwarn, hasks, fun layout => ?_⟩
    rw [hwritten, texts_argumentsFor (hasks.length_texts rfl)]

end Invocation

/-- A layout on several lines does what a layout on a single line does, but for white space. Either
both fail with the same fault, or the same names are to be set and used, after the same warnings and
calls and with the same arguments. Then the texts of the two invocations are equal if there are no
arguments. Otherwise the text on several lines is that on a single line with line breaks and blanks
instead of one blank before each argument, if neither names nor arguments have line breaks of their
own, and provided that lines can be indented by so many blanks; if they cannot, this is the fault
with which the layout on several lines fails. -/
theorem writeInvocation_layouts {g : ClassGraph} {t : Ty} {c : ClassId}
    (available writeable : Value) (reasons : List (String × Option String))
    (writer : ArgumentWriter σ) (sink : Option SinkId) {w : World σ}
    (layout layout' : Option Layout) (ht : t.definition? = some c) (hnames : g.OneLineNames c)
    (hmulti : (layout.getD w.layout).multiline = true)
    (hsingle : (layout'.getD w.layout).multiline = false)
    (hkeyword : (layout.getD w.layout).newKeyword = (layout'.getD w.layout).newKeyword) :
    let run := (writeInvocation g t available writeable reasons writer sink layout).runIn w
    let run' := (writeInvocation g t available writeable reasons writer sink layout').runIn w
    let Indentable := (layout.getD w.layout).Indentable w.desk.capacity
    run.2.untraced = run'.2.untraced ∧
    ((∃ e, run.1 = .error e ∧ run'.1 = .error e) ∨
      ∃ k names w₀ w₁ texts i', (g.decl c).constructor? = some k ∧ available.names = .ok names ∧
        (Codegen.warnUndefined sink
          ((callOrder (selected names k.parameters)).map Parameter.element)).runIn
            (w.enter "write_constructor_invocation"
              (invocationArguments g t available writeable)) = (.ok (), w₀) ∧
        Asks writer w₀ (callOrder (selected names k.parameters)) (.ok texts) w₁ ∧
        w₁.untraced = run.2.untraced ∧ run'.1 = .ok i' ∧
        (texts = [] ∨ Indentable → ∃ i, run.1 = .ok i ∧
          i.Unfolds (layout.getD w.layout).indent.toNat texts i') ∧
        (texts ≠ [] → ¬ Indentable → ∃ e, e.IsTooLarge ∧ run.1 = .error e)) := by
  intro run run' Indentable
  rcases writeInvocation_cases ht available writeable reasons writer sink w with
    ⟨e, w', hfailed⟩ | ⟨k, names, hk, hlist, hrequired⟩
  · unfold run run'
    rw [hfailed, hfailed]
    exact ⟨rfl, .inl ⟨e, rfl, rfl⟩⟩
  obtain ⟨hrun, hworld⟩ :=
    writeInvocation_run ht hk hlist writeable reasons writer sink layout w
  obtain ⟨hrun', hworld'⟩ :=
    writeInvocation_run ht hk hlist writeable reasons writer sink layout' w
  rcases Invocation.write_layouts (g := g) (c := c) (missing?_eq_none.2 hrequired)
      writeable.onlyNames reasons writer sink w.desk.capacity
      (w.enter "write_constructor_invocation" (invocationArguments g t available writeable)) with
    ⟨e, w', hfailed⟩ | ⟨fields, w₀, w₁, texts, -, hwarn, hasks, hwritten⟩
  · rw [hfailed] at hrun hworld hrun' hworld'
    exact ⟨hworld.trans hworld'.symm, .inl ⟨e, hrun, hrun'⟩⟩
  rw [hwritten] at hrun hworld hrun' hworld'
  have hasked : ∀ p ∈ callOrder (selected names k.parameters), OneLine p.name := by
    intro p hp
    exact hnames.parameters k hk p (mem_selected.1 ((callOrder_perm _).mem_iff.1 hp)).1
  obtain ⟨i', hi', hindented, hunindented⟩ := Invocation.map_assemble_layouts hmulti hsingle
    hkeyword w.desk.capacity hnames.callee (selected names k.parameters) fields hasked
    (hasks.length_texts rfl)
  refine ⟨hworld.trans hworld'.symm, .inr ⟨k, names, w₀, w₁, texts, i', hk, hlist, hwarn, hasks,
    hworld.symm, hrun'.trans hi', fun hindent => ?_, fun hne hindent => ?_⟩⟩
  · obtain ⟨i, hi, hunfolds⟩ := hindented hindent
    exact ⟨i, hrun.trans hi, hunfolds⟩
  · obtain ⟨e, he, herror⟩ := hunindented hne hindent
    exact ⟨e, he, hrun.trans herror⟩

/-- A layout on several lines that are indented by less than no blanks. -/
def outdented : Layout := ⟨true, -4, true⟩

/-- What becomes of an invocation of `S` under a layout. -/
def sharedRunUnder (layout : Layout) :
    Except Fault Invocation × World (List (String × Parameter)) :=
  (writeInvocation sharedGraph (.cls 1) (.list [.str "a", .str "k"]) (.list [.str "f"]) []
    sharedWriter none (some layout)).runIn ⟨none, .empty, .standard, []⟩

theorem oneLineNames_shared : sharedGraph.OneLineNames 1 :=
  ⟨by decide, by decide, fun k hk => by cases hk; decide⟩

/-- Lines that are indented by less than no blanks are not indented. -/
theorem layouts_of_shared_name :
    sharedGraph.OneLineNames 1 ∧ outdented.Indentable .standard ∧
    ∃ i i' texts, (sharedRunUnder outdented).1 = .ok i ∧
      (sharedRunUnder ⟨false, 6, true⟩).1 = .ok i' ∧ texts.length = 3 ∧ i.Unfolds 0 texts i' ∧
      i.content = "new S(\n1,\n2,\nk: 2)" ∧ i'.content = "new S(1, 2, k: 2)" := by
  have hindent : outdented.Indentable .standard := by decide
  obtain ⟨-, ⟨e, he, -⟩ |
      ⟨k, names, w₀, w₁, texts, i', hk, hlist, -, hasks, -, hi', hunfolds, -⟩⟩ :=
    writeInvocation_layouts (g := sharedGraph) (t := .cls 1) (c := 1) (.list [.str "a", .str "k"])
      (.list [.str "f"]) [] sharedWriter none (w := ⟨none, .empty, .standard, []⟩)
      (some outdented) (some ⟨false, 6, true⟩) rfl oneLineNames_shared rfl rfl rfl
  · cases he
  · obtain ⟨i, hi, hunfolds⟩ := hunfolds (.inr hindent)
    cases hk
    cases hlist
    refine ⟨oneLineNames_shared, hindent, i, i', texts, hi, hi', hasks.length_texts rfl, hunfolds,
      ?_, ?_⟩
    · cases hi
      rfl
    · cases hi'
      rfl

/-- A number of blanks that cannot be counted with makes only the layout on several lines fail. -/
theorem layouts_of_uncountable_indent :
    sharedGraph.OneLineNames 1 ∧ (∃ i', (sharedRunUnder ⟨false, 6, false⟩).1 = .ok i') ∧
    (sharedRunUnder ⟨true, -1000000000000000000000000000000, false⟩).1 = .error .countOutOfRange :=
  ⟨oneLineNames_shared, ⟨_, rfl⟩, rfl⟩

end ClassCode
