import ClassCode.Codegen
import Mathlib.Logic.Basic

/-!
# Running operations

What an operation does in a world, taken apart along its parts: a sequence runs its second part in
the world that the first one left, unless that failed, and a traced operation runs its body between
two entries of the tracer.
-/

namespace ClassCode

variable {σ α β : Type}

namespace Codegen

@[simp] theorem runIn_pure (a : α) (w : World σ) :
    (pure a : Codegen σ α).runIn w = (.ok a, w) := rfl

@[simp] theorem runIn_throw (e : Fault) (w : World σ) :
    (throw e : Codegen σ α).runIn w = (.error e, w) := rfl

@[simp] theorem runIn_get (w : World σ) : (get : Codegen σ (World σ)).runIn w = (.ok w, w) := rfl

@[simp] theorem runIn_ofExcept (r : Except Fault α) (w : World σ) :
    (ofExcept r : Codegen σ α).runIn w = (r, w) := by
  cases r <;> rfl

@[simp] theorem runIn_ofSearch_some (a : α) (w : World σ) :
    (ofSearch (some a) : Codegen σ α).runIn w = (.ok a, w) := rfl

/-- A search that ran out of its limit has no result. -/
theorem runIn_ofSearch_eq_ok {r : Option α} {a : α} {w w' : World σ} :
    (ofSearch r : Codegen σ α).runIn w = (.ok a, w') ↔ r = some a ∧ w = w' := by
  cases r with
  | none => simp [ofSearch]
  | some b => simp

@[simp] theorem runIn_warnUndefined (sink : Option SinkId) (elements : List Element)
    (w : World σ) :
    (warnUndefined sink elements : Codegen σ Unit).runIn w =
      ((w.desk.warnUndefined sink elements).1,
        { w with desk := (w.desk.warnUndefined sink elements).2 }) := rfl

/-- A sequence of two operations, the second of which is run only if the first one succeeds. -/
theorem runIn_bind (x : Codegen σ α) (f : α → Codegen σ β) (w : World σ) :
    (x >>= f).runIn w = match x.runIn w with
      | (.ok a, w₁) => (f a).runIn w₁
      | (.error e, w₁) => (.error e, w₁) := by
  rcases h : x.runIn w with ⟨e | a, w₁⟩ <;>
    simp only [runIn, ExceptT.run_bind, StateT.run_bind] at h ⊢ <;>
    rw [h] <;> rfl

/-- A sequence succeeds when both parts do, the second one in the world that the first one left. -/
theorem runIn_bind_eq_ok {x : Codegen σ α} {f : α → Codegen σ β} {w w' : World σ} {b : β} :
    (x >>= f).runIn w = (.ok b, w') ↔
      ∃ a w₁, x.runIn w = (.ok a, w₁) ∧ (f a).runIn w₁ = (.ok b, w') := by
  rw [runIn_bind]
  rcases x.runIn w with ⟨e | a, w₁⟩
  · simp
  · constructor
    · intro h
      exact ⟨a, w₁, rfl, h⟩
    · rintro ⟨a', w₁', h, hf⟩
      cases h
      exact hf

/-- Asking for results one after another succeeds when asking for the first and for the others
does. -/
theorem runIn_mapM_cons_eq_ok {f : α → Codegen σ β} {a : α} {as : List α} {bs : List β}
    {w w' : World σ} :
    ((a :: as).mapM f).runIn w = (.ok bs, w') ↔
      ∃ b bs' w₁, (f a).runIn w = (.ok b, w₁) ∧ (as.mapM f).runIn w₁ = (.ok bs', w') ∧
        bs = b :: bs' := by
  rw [List.mapM_cons, runIn_bind_eq_ok]
  simp only [runIn_bind_eq_ok, runIn_pure, Prod.mk.injEq, Except.ok.injEq]
  constructor
  · rintro ⟨b, w₁, hb, bs', w₂, hbs, rfl, rfl⟩
    exact ⟨b, bs', w₁, hb, hbs, rfl⟩
  · rintro ⟨b, bs', w₁, hb, hbs, rfl⟩
    exact ⟨b, w₁, hb, bs', w', hbs, rfl, rfl⟩

/-- There is one result for each thing asked for. -/
theorem length_of_runIn_mapM {f : α → Codegen σ β} {as : List α} {bs : List β} {w w' : World σ}
    (h : (as.mapM f).runIn w = (.ok bs, w')) : bs.length = as.length := by
  induction as generalizing bs w with
  | nil =>
    rw [List.mapM_nil, runIn_pure] at h
    cases h
    rfl
  | cons a as ih =>
    obtain ⟨b, bs', w₁, -, hbs, rfl⟩ := runIn_mapM_cons_eq_ok.1 h
    rw [List.length_cons, List.length_cons, ih hbs]

/-- Results that are labelled when they arrive are the labels together with the results. -/
theorem mapM_labelled (label : α → String) (f : α → Codegen σ β) (as : List α) :
    (as.mapM fun a => (label a, ·) <$> f a) = ((as.map label).zip ·) <$> as.mapM f := by
  induction as with
  | nil => simp
  | cons a as ih => simp [ih]

end Codegen

/-! ## Tracing -/

/-- The world in which the body of a traced operation runs: its call is recorded. -/
def World.enter (w : World σ) (operation : String) (arguments : List (String × Json)) : World σ :=
  if w.isTracing then w.trace fun t => t.call operation arguments else w

theorem World.layout_enter (w : World σ) (operation : String) (arguments : List (String × Json)) :
    (w.enter operation arguments).layout = w.layout := by
  unfold World.enter
  split <;> rfl

theorem World.desk_enter (w : World σ) (operation : String) (arguments : List (String × Json)) :
    (w.enter operation arguments).desk = w.desk := by
  unfold World.enter
  split <;> rfl

theorem traced_run (operation : String) (arguments : List (String × Json))
    (resultValue : α → Value) (body : Codegen σ α) (w : World σ) :
    let run := (traced operation arguments resultValue body).runIn w
    let inner := body.runIn (w.enter operation arguments)
    run.1 = inner.1 ∧ run.2.desk = inner.2.desk := by
  change (traced operation arguments resultValue body w).1 = _ ∧
    (traced operation arguments resultValue body w).2.desk = _
  rw [traced, World.enter]
  by_cases hw : w.isTracing = true
  · simp only [hw, if_true]
    rcases body.runIn (w.trace fun t => t.call operation arguments) with ⟨e | a, w₁⟩
    · dsimp only
      split <;> exact ⟨rfl, rfl⟩
    · exact ⟨rfl, rfl⟩
  · simp only [hw]
    exact ⟨rfl, rfl⟩

/-- Tracing does not change the outcome of an operation, apart from its body finding the call
recorded. -/
theorem traced_outcome (operation : String) (arguments : List (String × Json))
    (resultValue : α → Value) (body : Codegen σ α) (w : World σ) :
    ((traced operation arguments resultValue body).runIn w).1 =
      (body.runIn (w.enter operation arguments)).1 :=
  (traced_run operation arguments resultValue body w).1

/-- Tracing does not change what an operation does at the desk. -/
theorem desk_traced (operation : String) (arguments : List (String × Json))
    (resultValue : α → Value) (body : Codegen σ α) (w : World σ) :
    ((traced operation arguments resultValue body).runIn w).2.desk =
      (body.runIn (w.enter operation arguments)).2.desk :=
  (traced_run operation arguments resultValue body w).2

end ClassCode
