import ClassCode.Proofs.Desk.History
import Mathlib.Data.List.Forall2

/-!
# Warnings about undefined types

What an operation leaves at a desk that warns about elements of undefined type (`Desk.Warns`). If
all warnings that are due can be written, each of them is reported to the sink, in the order of the
elements. The first that cannot be written ends the operation, even if the sink would not have kept
it, as a warning is written before it is reported.

A warning can be written unless the row of carets below its source line is too long, or what stands
before it (`Element.writable_iff`).
-/

namespace ClassCode

/-! ## Texts that are too long -/

/-- Whether a fault says that a character was to be repeated too often. -/
def Fault.IsTooLarge (e : Fault) : Prop := e = .countOutOfRange ∨ e = .textTooLong

theorem Fault.IsTooLarge.not_isConstruction {e : Fault} (h : e.IsTooLarge) :
    e.isConstruction = false := by
  rcases h with rfl | rfl <;> rfl

/-- A result that is only changed fails as it did before. -/
theorem eq_error_of_map {α β : Type} {r : Except Fault α} {f : α → β} {e : Fault}
    (h : r.map f = .error e) : r = .error e := by
  cases r with
  | error e' =>
    cases h
    rfl
  | ok a => cases h

variable {capacity : Text.Capacity}

theorem Text.isTooLarge_of_repeated {c : Char} {count : Int} {e : Fault}
    (h : Text.repeated capacity c count = .error e) : e.IsTooLarge := by
  unfold Text.repeated at h
  split at h
  · cases h
    exact .inl rfl
  · split at h
    · cases h
      exact .inr rfl
    · cases h

theorem Text.exists_repeated_iff {c : Char} {count : Int} :
    (∃ text, Text.repeated capacity c count = .ok text) ↔
      -Text.countBound ≤ count ∧ count < capacity.bound := by
  have hbounds := capacity.bound_le_countBound
  unfold Text.repeated
  split
  · simp only [reduceCtorEq, exists_false, false_iff]
    omega
  · split
    · simp only [reduceCtorEq, exists_false, false_iff]
      omega
    · simp only [Except.ok.injEq, exists_eq', true_iff]
      omega

/-- The row of carets may be too long, or what stands before it. -/
theorem Span.isTooLarge_of_marker {s : Span} {e : Fault} (h : s.marker capacity = .error e) :
    e.IsTooLarge := by
  rw [Span.marker] at h
  cases hblank : Text.repeated capacity ' ' (s.column - 1) with
  | error e' =>
    rw [hblank] at h
    cases h
    exact Text.isTooLarge_of_repeated hblank
  | ok blank =>
    rw [hblank] at h
    exact Text.isTooLarge_of_repeated (eq_error_of_map h)

/-- A declaration can be marked unless it stands too far to the right or is too long. -/
theorem Span.exists_marker_iff {s : Span} :
    (∃ marker, s.marker capacity = .ok marker) ↔ (-Text.countBound ≤ s.column - 1 ∧
      s.column - 1 < capacity.bound) ∧ s.length < capacity.bound := by
  have hcount : -Text.countBound ≤ 1 := by decide
  have hone := capacity.one_lt_bound
  have hlength : (∃ text, Text.repeated capacity '^' (max s.length 1) = .ok text) ↔
      s.length < capacity.bound := by
    rw [Text.exists_repeated_iff]
    omega
  rw [← Text.exists_repeated_iff (c := ' '), ← hlength, Span.marker]
  cases Text.repeated capacity ' ' (s.column - 1) <;>
    cases Text.repeated capacity '^' (max s.length 1) <;>
    simp [bind, Except.bind, pure, Except.pure]

/-! ## Warnings that are due -/

namespace Element

variable {e : Element} {es : List Element}

/-- A warning cannot be written if its marker cannot. -/
theorem isTooLarge_of_warning {fault : Fault} (h : e.undefinedTypeWarning capacity = .error fault) :
    fault.IsTooLarge := by
  unfold undefinedTypeWarning at h
  split at h
  · cases h
  · have hhighlight := eq_error_of_map h
    unfold Span.highlight? at hhighlight
    split at hhighlight
    · cases hhighlight
    · exact Span.isTooLarge_of_marker (eq_error_of_map hhighlight)

theorem isTooLarge_of_warnings {fault : Fault}
    (h : (undefinedTypeWarnings capacity es).2 = .error fault) : fault.IsTooLarge := by
  induction es with
  | nil => cases h
  | cons e es ih =>
    unfold undefinedTypeWarnings at h
    split at h
    · cases hwarning : e.undefinedTypeWarning capacity with
      | error fault' =>
        rw [hwarning] at h
        cases h
        exact isTooLarge_of_warning hwarning
      | ok warning =>
        rw [hwarning] at h
        exact ih h
    · exact ih h

/-- The elements of undefined type, about which a warning is due. -/
def due (es : List Element) : List Element := es.filter fun e => e.type.isUndefined

/-- Whether there is room for the warning about an element. -/
def Writable (capacity : Text.Capacity) (e : Element) : Prop :=
  ∃ d, e.undefinedTypeWarning capacity = .ok d

/-- The warning about an element can be written unless its place in the source is known together
with the source line, and cannot be marked there. -/
theorem writable_iff : e.Writable capacity ↔ ∀ s, e.span = some s → s.text.isSome = true →
    (-Text.countBound ≤ s.column - 1 ∧ s.column - 1 < capacity.bound) ∧
      s.length < capacity.bound := by
  simp only [← Span.exists_marker_iff]
  unfold Writable undefinedTypeWarning
  cases e.span with
  | none => simp
  | some s =>
    simp only [Option.some.injEq, forall_eq', Span.highlight?]
    cases s.text with
    | none => simp [Except.map]
    | some text => cases s.marker capacity <;> simp [Except.map]

/-- Whether a diagnostic is the warning about an element. -/
structure IsWarning (capacity : Text.Capacity) (e : Element) (d : Diagnostic) : Prop where
  severity : d.severity = .warning
  span : d.span = e.span
  written : e.undefinedTypeWarning capacity = .ok d

theorem isWarning_of_eq_ok {d : Diagnostic} (h : e.undefinedTypeWarning capacity = .ok d) :
    e.IsWarning capacity d := by
  have hfields : d.severity = .warning ∧ d.span = e.span := by
    unfold undefinedTypeWarning at h
    split at h
    case h_1 hspan =>
      cases h
      exact ⟨rfl, hspan.symm⟩
    case h_2 s hspan =>
      cases hhighlight : s.highlight? capacity with
      | error fault =>
        rw [hhighlight] at h
        cases h
      | ok highlight =>
        rw [hhighlight] at h
        cases h
        exact ⟨rfl, hspan.symm⟩
  exact ⟨hfields.1, hfields.2, h⟩

theorem undefinedTypeWarnings_due (capacity : Text.Capacity) (es : List Element) :
    undefinedTypeWarnings capacity (due es) = undefinedTypeWarnings capacity es := by
  induction es with
  | nil => rfl
  | cons e es ih =>
    unfold due at ih ⊢
    rw [List.filter_cons]
    cases he : e.type.isUndefined with
    | false =>
      rw [if_neg Bool.false_ne_true, ih, undefinedTypeWarnings, he]
      rfl
    | true => rw [if_pos rfl, undefinedTypeWarnings, undefinedTypeWarnings, ih]

/-- Warnings that can be written come before those about the elements that follow. -/
theorem undefinedTypeWarnings_append {before : List Element}
    (hundefined : ∀ e ∈ before, e.type.isUndefined = true)
    (hbefore : ∀ e ∈ before, e.Writable capacity) (es : List Element) :
    ∃ warnings, List.Forall₂ (IsWarning capacity) before warnings ∧
      undefinedTypeWarnings capacity (before ++ es) =
        (warnings ++ (undefinedTypeWarnings capacity es).1,
          (undefinedTypeWarnings capacity es).2) := by
  induction before with
  | nil => exact ⟨[], .nil, rfl⟩
  | cons e before ih =>
    rw [List.forall_mem_cons] at hundefined hbefore
    obtain ⟨warning, hwarning⟩ := hbefore.1
    obtain ⟨warnings, hwarnings, hrest⟩ := ih hundefined.2 hbefore.2
    refine ⟨warning :: warnings, .cons (isWarning_of_eq_ok hwarning) hwarnings, ?_⟩
    rw [List.cons_append, undefinedTypeWarnings, if_pos hundefined.1, hwarning, hrest]
    rfl

theorem undefinedTypeWarnings_of_writable (h : ∀ e ∈ due es, e.Writable capacity) :
    ∃ warnings, List.Forall₂ (IsWarning capacity) (due es) warnings ∧
      undefinedTypeWarnings capacity es = (warnings, .ok ()) := by
  have hundefined : ∀ e ∈ due es, e.type.isUndefined = true := fun e he =>
    (List.mem_filter.1 he).2
  obtain ⟨warnings, hwarnings, heq⟩ := undefinedTypeWarnings_append hundefined h []
  refine ⟨warnings, hwarnings, ?_⟩
  rw [← undefinedTypeWarnings_due, ← List.append_nil (due es), heq, undefinedTypeWarnings,
    List.append_nil]

/-- The first warning that cannot be written is the last one. -/
theorem undefinedTypeWarnings_of_not_writable {before after : List Element} {fault : Fault}
    (hdue : due es = before ++ e :: after) (hbefore : ∀ e ∈ before, e.Writable capacity)
    (he : e.undefinedTypeWarning capacity = .error fault) :
    ∃ warnings, List.Forall₂ (IsWarning capacity) before warnings ∧
      undefinedTypeWarnings capacity es = (warnings, .error fault) := by
  have hundefined : ∀ x ∈ before ++ e :: after, x.type.isUndefined = true := by
    rw [← hdue]
    exact fun x hx => (List.mem_filter.1 hx).2
  obtain ⟨warnings, hwarnings, heq⟩ := undefinedTypeWarnings_append
    (fun x hx => hundefined x (List.mem_append_left _ hx)) hbefore (e :: after)
  refine ⟨warnings, hwarnings, ?_⟩
  rw [← undefinedTypeWarnings_due, hdue, heq, undefinedTypeWarnings,
    if_pos (hundefined e (by simp)), he, List.append_nil]

end Element

/-! ## The desk -/

namespace Desk

/-- What a desk becomes when diagnostics are reported to a sink, if there is one. An enabled sink
adds them to its records, and any other stays as it is. -/
structure Takes (d : Desk) (sink : Option SinkId) (diagnostics : List Diagnostic) (d' : Desk) :
    Prop where
  sinks : ∀ s, d'.sinks[s]? =
    d.sinks[s]?.map fun k => if sink = some s then k.taking diagnostics else k
  /-- Without a sink, or with one that is switched off, nothing is changed. -/
  silent : (∀ s, sink = some s → d.accepts s = false) → d' = d

theorem takes_none (d : Desk) (diagnostics : List Diagnostic) : d.Takes none diagnostics d where
  sinks := by simp
  silent := fun _ => rfl

theorem takes_reportAll (d : Desk) (s : SinkId) (diagnostics : List Diagnostic) :
    d.Takes (some s) diagnostics (d.reportAll s diagnostics) where
  sinks := by
    intro s'
    rw [sinks_reportAll]
    simp
  silent := fun h => reportAll_of_not_accepts (h s rfl) diagnostics

/-- What becomes of a desk, and of an operation, when warnings are due. -/
structure Warns (d : Desk) (sink : Option SinkId) (due : List Element)
    (outcome : Except Fault Unit) (d' : Desk) : Prop where
  /-- Without a sink nothing is written. -/
  absent : sink = none → outcome = .ok () ∧ d' = d
  /-- There is one warning for each element. -/
  complete : (∀ e ∈ due, e.Writable d.capacity) → outcome = .ok () ∧
    ∃ warnings, List.Forall₂ (Element.IsWarning d.capacity) due warnings ∧
      d.Takes sink warnings d'
  /-- A warning that cannot be written ends the operation, even if the sink is switched off. -/
  cut : ∀ s before e after fault, sink = some s → due = before ++ e :: after →
    (∀ x ∈ before, x.Writable d.capacity) →
    e.undefinedTypeWarning d.capacity = .error fault →
      outcome = .error fault ∧ fault.IsTooLarge ∧
        ∃ warnings, List.Forall₂ (Element.IsWarning d.capacity) before warnings ∧
          d.Takes sink warnings d'

theorem warns_warnUndefined (d : Desk) (sink : Option SinkId) (es : List Element) :
    d.Warns sink (Element.due es) (d.warnUndefined sink es).1 (d.warnUndefined sink es).2 := by
  constructor
  case absent =>
    rintro rfl
    exact ⟨rfl, rfl⟩
  case complete =>
    intro h
    obtain ⟨warnings, hwarnings, heq⟩ := Element.undefinedTypeWarnings_of_writable h
    cases sink with
    | none => exact ⟨rfl, warnings, hwarnings, d.takes_none warnings⟩
    | some s =>
      rw [warnUndefined, heq]
      exact ⟨rfl, warnings, hwarnings, d.takes_reportAll s warnings⟩
  case cut =>
    rintro s before e after fault rfl hdue hbefore he
    obtain ⟨warnings, hwarnings, heq⟩ :=
      Element.undefinedTypeWarnings_of_not_writable hdue hbefore he
    rw [warnUndefined, heq]
    exact ⟨rfl, Element.isTooLarge_of_warning he, warnings, hwarnings,
      d.takes_reportAll s warnings⟩

/-- Warnings end an operation only if one of them cannot be written. -/
theorem isTooLarge_of_warnUndefined {d : Desk} {sink : Option SinkId} {es : List Element}
    {fault : Fault} (h : (d.warnUndefined sink es).1 = .error fault) : fault.IsTooLarge := by
  cases sink with
  | none => cases h
  | some s => exact Element.isTooLarge_of_warnings h

end Desk

end ClassCode
