import ClassCode.Operations
import ClassCode.Proofs.Codegen
import ClassCode.Proofs.Trace.Segments
import ClassCode.Trace.Probe

/-!
# Tracing is transparent

An operation that uses the tracer only by calling traced operations (`TracesOnly`) does the same
with and without a tracer (`TracesOnly.faithful`, by induction on how such an operation is put
together).

All that a tracer gains from such an operation are calls, one after another, of which the ends are
recorded, but for those with a fault that is no error. How many these are is counted along the run
(`Interrupted`), and the tracer gains accordingly (`Interrupted.records`, by induction on the
count).
-/

namespace ClassCode

variable {σ α β : Type} {called : String → Prop}

namespace World

/-- The world with another tracer, or without one. -/
def withTracer (w : World σ) (tracer : Option Tracer) : World σ := { w with tracer := tracer }

/-- The world without a tracer. -/
def untraced (w : World σ) : World σ := w.withTracer none

end World

namespace Codegen

theorem runIn_tryCatch (x : Codegen σ α) (handle : Fault → Codegen σ α) (w : World σ) :
    (tryCatch x handle).runIn w = match x.runIn w with
      | (.ok a, w₁) => (.ok a, w₁)
      | (.error e, w₁) => (handle e).runIn w₁ := by
  change (ExceptT.run (ExceptT.tryCatch x handle)).run w = _
  rw [ExceptT.tryCatch, ExceptT.run_mk, StateT.run_bind]
  rcases h : x.runIn w with ⟨e | a, w₁⟩ <;>
    rw [runIn, ExceptT.run] at h <;>
    rw [h] <;> rfl

/-! ## Operations that use the tracer for traced operations only -/

/-- Whether an operation neither looks at the tracer nor changes it. -/
def Blind (x : Codegen σ α) : Prop :=
  ∀ w tracer, x.runIn (w.withTracer tracer) =
    Prod.map id (fun w' => w'.withTracer tracer) (x.runIn w)

/-- Whether an operation uses the tracer only by calling traced operations with certain names. -/
inductive TracesOnly (called : String → Prop) : {α : Type} → Codegen σ α → Prop
  | blind {α : Type} {x : Codegen σ α} (h : Blind x) : TracesOnly called x
  | bind {α β : Type} {x : Codegen σ α} {f : α → Codegen σ β} (hx : TracesOnly called x)
      (hf : ∀ a, TracesOnly called (f a)) : TracesOnly called (x >>= f)
  | rescue {α : Type} {x : Codegen σ α} {handle : Fault → Codegen σ α} (hx : TracesOnly called x)
      (hhandle : ∀ e, TracesOnly called (handle e)) : TracesOnly called (tryCatch x handle)
  | traced {α : Type} {operation : String} {arguments : List (String × Json)}
      {resultValue : α → Value} {body : Codegen σ α} (hcalled : called operation)
      (hbody : TracesOnly called body) :
      TracesOnly called (traced operation arguments resultValue body)

/-- Whether an outcome is a fault that is no error. -/
def isStop (outcome : Except Fault α) : Bool :=
  match outcome with
  | .ok _ => false
  | .error e => !e.isError

/-- Whether an operation that is run in a world uses the tracer only by calling traced operations
with certain names, of which so many, at whatever depth, end with a fault that is no error. -/
inductive Interrupted (called : String → Prop) :
    {α : Type} → Codegen σ α → World σ → (count : Nat) → Prop
  | blind {α : Type} {x : Codegen σ α} (h : Blind x) (w : World σ) : Interrupted called x w 0
  | bind_ok {α β : Type} {x : Codegen σ α} {f : α → Codegen σ β} {w w₁ : World σ} {a : α}
      {m n : Nat} (hx : Interrupted called x w m) (hrun : x.runIn w = (.ok a, w₁))
      (hf : Interrupted called (f a) w₁ n) : Interrupted called (x >>= f) w (m + n)
  | bind_error {α β : Type} {x : Codegen σ α} {f : α → Codegen σ β} {w w₁ : World σ} {e : Fault}
      {m : Nat} (hx : Interrupted called x w m) (hrun : x.runIn w = (.error e, w₁)) :
      Interrupted called (x >>= f) w m
  | rescue_ok {α : Type} {x : Codegen σ α} {handle : Fault → Codegen σ α} {w w₁ : World σ} {a : α}
      {m : Nat} (hx : Interrupted called x w m) (hrun : x.runIn w = (.ok a, w₁)) :
      Interrupted called (tryCatch x handle) w m
  | rescue_error {α : Type} {x : Codegen σ α} {handle : Fault → Codegen σ α} {w w₁ : World σ}
      {e : Fault} {m n : Nat} (hx : Interrupted called x w m) (hrun : x.runIn w = (.error e, w₁))
      (hhandle : Interrupted called (handle e) w₁ n) :
      Interrupted called (tryCatch x handle) w (m + n)
  | traced {α : Type} {operation : String} {arguments : List (String × Json)}
      {resultValue : α → Value} {body : Codegen σ α} {w : World σ} {m : Nat}
      (hcalled : called operation)
      (hbody : Interrupted called body (w.enter operation arguments) m) :
      Interrupted called (traced operation arguments resultValue body) w
        (m + (isStop (body.runIn (w.enter operation arguments)).1).toNat)

/-! ## Traced operations -/

/-- What the event that closes a call tells, according to the outcome. -/
def closingRecord (resultValue : α → Value) (outcome : Except Fault α) (id : Nat) : TraceRecord :=
  match outcome with
  | .ok a => .result id (resultValue a).resultInfo
  | .error e => .failure id e.kind e.text

/-- The kind of the event that closes a call, according to the outcome. -/
def closingKind (outcome : Except Fault α) : String :=
  match outcome with
  | .ok _ => "return"
  | .error _ => "exception"

variable {body : Codegen σ α} {operation : String} {arguments : List (String × Json)}
  {resultValue : α → Value}

theorem closes_closeEntry (t : Tracer) (operation : String) (resultValue : α → Value)
    (outcome : Except Fault α) :
    Closes (t.closeEntry operation (closingRecord resultValue outcome)) operation
      (t.openCalls.headD 0) (t.depth - 1) := by
  cases outcome <;> exact ⟨rfl, rfl, rfl, rfl⟩

theorem kind_closeEntry (t : Tracer) (operation : String) (resultValue : α → Value)
    (outcome : Except Fault α) :
    (t.closeEntry operation (closingRecord resultValue outcome)).kind = closingKind outcome := by
  cases outcome <;> rfl

theorem runIn_traced_of_isTracing {w : World σ} (h : w.isTracing = true) (operation : String)
    (arguments : List (String × Json)) (resultValue : α → Value) (body : Codegen σ α) :
    (traced operation arguments resultValue body).runIn w =
      let r := body.runIn (w.trace fun t => t.call operation arguments)
      (r.1, if isStop r.1 then r.2
        else r.2.trace fun t => t.close operation (closingRecord resultValue r.1)) := by
  change traced operation arguments resultValue body w = _
  rw [traced, if_pos h]
  rcases body.runIn (w.trace fun t => t.call operation arguments) with ⟨e | a, w₁⟩
  · cases he : e.isError <;> simp only [isStop, he] <;> rfl
  · rfl

theorem runIn_traced_of_not_isTracing {w : World σ} (h : w.isTracing = false) (operation : String)
    (arguments : List (String × Json)) (resultValue : α → Value) (body : Codegen σ α) :
    (traced operation arguments resultValue body).runIn w = body.runIn w := by
  change traced operation arguments resultValue body w = _
  rw [traced, h]
  rfl

theorem isTracing_eq {w : World σ} {t : Tracer} (hw : w.tracer = some t) :
    w.isTracing = t.enabled := by
  rw [World.isTracing, hw]
  rfl

/-! ## What is recorded -/

/-- Whether a tracer gains nothing but calls from an operation that is run in a world, and the ends
of so many of these are not recorded. -/
def Records (called : String → Prop) (x : Codegen σ α) (w : World σ) (count : ℕ) : Prop :=
  ∀ t, w.tracer = some t → ∃ t', (x.runIn w).2.tracer = some t' ∧ t.Grows called count t'

/-- An operation that does not touch the tracer leaves it as it is. -/
theorem Blind.tracer_eq {x : Codegen σ α} (h : Blind x) (w : World σ) :
    (x.runIn w).2.tracer = w.tracer :=
  congrArg (fun r => r.2.tracer) (h w w.tracer)

section

variable {m : ℕ} {w : World σ} {t : Tracer}

/-- A tracer that is switched off gains nothing from a traced operation. -/
theorem Records.tracer_traced_of_disabled
    (hbody : Records called body (w.enter operation arguments) m) (hw : w.tracer = some t)
    (ht : t.enabled = false) (resultValue : α → Value) :
    ((traced operation arguments resultValue body).runIn w).2.tracer = some t := by
  have htracing : w.isTracing = false := (isTracing_eq hw).trans ht
  have henter : w.enter operation arguments = w := if_neg (by simp [htracing])
  rw [henter] at hbody
  obtain ⟨t', ht', hgrows⟩ := hbody t hw
  rw [runIn_traced_of_not_isTracing htracing, ht', hgrows.disabled ht]

/-- A traced operation with a body that gains a tracer nothing but calls gains it a call. The call
stays open, with all that stayed open during it, if the outcome is a fault that is no error.
Otherwise its end is recorded. -/
theorem Records.exists_call (hbody : Records called body (w.enter operation arguments) m)
    (hw : w.tracer = some t) (ht : t.enabled = true) (resultValue : α → Value) :
    ∃ t₁, (t.call operation arguments).Grows called m t₁ ∧
      ((traced operation arguments resultValue body).runIn w).2.tracer =
        some (if isStop (body.runIn (w.enter operation arguments)).1 then t₁
          else t₁.close operation
            (closingRecord resultValue (body.runIn (w.enter operation arguments)).1)) := by
  have htracing : w.isTracing = true := (isTracing_eq hw).trans ht
  have henter : w.enter operation arguments = w.trace fun t => t.call operation arguments :=
    if_pos htracing
  rw [henter] at hbody ⊢
  obtain ⟨t₁, ht₁, hgrows⟩ := hbody (t.call operation arguments) (by rw [World.trace, hw]; rfl)
  refine ⟨t₁, hgrows, ?_⟩
  rw [runIn_traced_of_isTracing htracing]
  dsimp only
  split
  · exact ht₁
  · rw [World.trace, ht₁]
    rfl

/-- What a tracer that is switched on gains from a traced operation, of which the body gains it
calls. If the ends of all of them are recorded, the operation's own included, this is a well
bracketed call. If the operation's own is not, the tracer gains nothing after what it gains from the
body. -/
theorem Records.gains_traced (hbody : Records called body (w.enter operation arguments) m)
    (hw : w.tracer = some t) (ht : t.enabled = true) (resultValue : α → Value) :
    let outcome := (body.runIn (w.enter operation arguments)).1
    ∃ t' opening gained,
      ((traced operation arguments resultValue body).runIn w).2.tracer = some t' ∧
      t.GainsTrail called operation (m + (isStop outcome).toNat) t' opening gained ∧
      (m + (isStop outcome).toNat = 0 → ∃ inner closing,
        t.GainsCall called operation (closingKind outcome) t' opening closing inner) ∧
      (isStop outcome = true → Trail called ((t.lastId + 1) :: t.openCalls) (t.lastId + 1) gained
        m t'.openCalls t'.lastId) := by
  obtain ⟨t₁, hgrows, htracer⟩ := hbody.exists_call hw ht resultValue
  dsimp only
  generalize (body.runIn (w.enter operation arguments)).1 = outcome at htracer ⊢
  cases hstop : isStop outcome with
  | true =>
    rw [hstop] at htracer
    obtain ⟨gained, hgains, htrail⟩ := hgrows.gainsTrail_of_stayed ht
    exact ⟨t₁, _, gained, htracer, hgains, fun h => absurd h (Nat.succ_ne_zero m),
      fun _ => htrail⟩
  | false =>
    rw [hstop] at htracer
    obtain ⟨inner, hgains, hgainsCall⟩ := hgrows.gainsTrail_of_ended ht
      (closes_closeEntry t₁ operation resultValue outcome)
    rw [kind_closeEntry] at hgainsCall
    exact ⟨_, _, _, htracer, hgains, fun h => ⟨inner, _, hgainsCall h⟩, fun h => by cases h⟩

/-- An operation that goes on, in the world that another one left, gains what both of them gain. -/
theorem Records.followed {x : Codegen σ α} {y z : Codegen σ β} {w₁ : World σ} {n : ℕ}
    {outcome : Except Fault α} (h : Records called x w m) (hrun : x.runIn w = (outcome, w₁))
    (h' : Records called y w₁ n) (hz : z.runIn w = y.runIn w₁) : Records called z w (m + n) := by
  intro t hw
  obtain ⟨t₁, ht₁, hfirst⟩ := h t hw
  rw [hrun] at ht₁
  obtain ⟨t₂, ht₂, hsecond⟩ := h' t₁ ht₁
  rw [hz]
  exact ⟨t₂, ht₂, hfirst.trans hsecond⟩

/-- An operation gains what another one gains that leaves the same world. -/
theorem Records.of_world_eq {x : Codegen σ α} {y : Codegen σ β} (h : Records called x w m)
    (hy : (y.runIn w).2 = (x.runIn w).2) : Records called y w m := by
  intro t hw
  rw [hy]
  exact h t hw

/-- The ends that are not recorded are those with a fault that is no error. -/
theorem Interrupted.records {x : Codegen σ α} (h : Interrupted called x w m) :
    Records called x w m := by
  induction h with
  | blind h w => exact fun t hw => ⟨t, (h.tracer_eq w).trans hw, .refl called t⟩
  | bind_ok _ hrun _ ih ih' => exact ih.followed hrun ih' (by rw [runIn_bind, hrun])
  | bind_error _ hrun ih => exact ih.of_world_eq (by rw [runIn_bind, hrun])
  | rescue_ok _ hrun ih => exact ih.of_world_eq (by rw [runIn_tryCatch, hrun])
  | rescue_error _ hrun _ ih ih' => exact ih.followed hrun ih' (by rw [runIn_tryCatch, hrun])
  | @traced _ operation arguments resultValue body w m hcalled _ ih =>
    intro t hw
    cases ht : t.enabled with
    | false => exact ⟨t, ih.tracer_traced_of_disabled hw ht resultValue, .of_disabled ht _ _⟩
    | true =>
      obtain ⟨t₁, hgrows, htracer⟩ := ih.exists_call hw ht resultValue
      refine ⟨_, htracer, ?_⟩
      cases isStop (body.runIn (w.enter operation arguments)).1 with
      | true => exact hgrows.stayed ht hcalled
      | false => exact hgrows.ended ht hcalled (closes_closeEntry _ _ _ _)

/-- While something is traced, the number of interrupted operations can be told from the calls that
stay open. -/
theorem Interrupted.unique {x : Codegen σ α} {n : ℕ} (h : Interrupted called x w m)
    (h' : Interrupted called x w n) (hw : w.tracer = some t) (ht : t.enabled = true) : m = n := by
  obtain ⟨t', ht', hgrows⟩ := h.records t hw
  obtain ⟨t'', ht'', hgrows'⟩ := h'.records t hw
  obtain rfl : t' = t'' := Option.some.inj (ht'.symm.trans ht'')
  obtain ⟨_, _, htrail⟩ := hgrows.trail ht
  obtain ⟨_, _, htrail'⟩ := hgrows'.trail ht
  obtain ⟨stayed, hopen, rfl⟩ := htrail.exists_stayed
  obtain ⟨stayed', hopen', rfl⟩ := htrail'.exists_stayed
  rw [List.append_cancel_right (hopen.symm.trans hopen')]

/-- More operations may be called. -/
theorem Interrupted.mono {called' : String → Prop}
    (hcalled : ∀ operation, called operation → called' operation) {x : Codegen σ α} {w : World σ}
    {m : Nat} (h : Interrupted called x w m) : Interrupted called' x w m := by
  induction h with
  | blind h w => exact .blind h w
  | bind_ok _ hrun _ ih ih' => exact .bind_ok ih hrun ih'
  | bind_error _ hrun ih => exact .bind_error ih hrun
  | rescue_ok _ hrun ih => exact .rescue_ok ih hrun
  | rescue_error _ hrun _ ih ih' => exact .rescue_error ih hrun ih'
  | traced h _ ih => exact .traced (hcalled _ h) ih

/-- Where nothing is called nothing is interrupted. -/
theorem Interrupted.eq_zero {x : Codegen σ α} {w : World σ} {m : Nat}
    (h : Interrupted called x w m) (hcalled : ∀ operation, ¬ called operation) : m = 0 := by
  induction h with
  | blind => rfl
  | bind_ok _ _ _ ih ih' => rw [ih, ih']
  | bind_error _ _ ih => exact ih
  | rescue_ok _ _ ih => exact ih
  | rescue_error _ _ _ ih ih' => rw [ih, ih']
  | traced h => exact absurd h (hcalled _)

end

/-! ## Transparency -/

/-- Whether an operation does the same with and without a tracer, and the operations that it calls
and that are interrupted can be counted in every world. -/
structure Faithful (called : String → Prop) (x : Codegen σ α) : Prop where
  transparent (w : World σ) : Prod.map id World.untraced (x.runIn w) = x.runIn w.untraced
  exists_count (w : World σ) : ∃ count, Interrupted called x w count

theorem Blind.faithful {x : Codegen σ α} (h : Blind x) : Faithful called x where
  transparent w := (h w none).symm
  exists_count w := ⟨0, .blind h w⟩

theorem Faithful.bind {x : Codegen σ α} {f : α → Codegen σ β} (hx : Faithful called x)
    (hf : ∀ a, Faithful called (f a)) : Faithful called (x >>= f) where
  transparent w := by
    rw [runIn_bind, runIn_bind, ← hx.transparent w]
    rcases x.runIn w with ⟨e | a, w₁⟩
    · rfl
    · exact (hf a).transparent w₁
  exists_count w := by
    obtain ⟨m, hm⟩ := hx.exists_count w
    rcases hrun : x.runIn w with ⟨e | a, w₁⟩
    · exact ⟨m, .bind_error hm hrun⟩
    · obtain ⟨n, hn⟩ := (hf a).exists_count w₁
      exact ⟨m + n, .bind_ok hm hrun hn⟩

theorem Faithful.rescue {x : Codegen σ α} {handle : Fault → Codegen σ α}
    (hx : Faithful called x) (hhandle : ∀ e, Faithful called (handle e)) :
    Faithful called (tryCatch x handle) where
  transparent w := by
    rw [runIn_tryCatch, runIn_tryCatch, ← hx.transparent w]
    rcases x.runIn w with ⟨e | a, w₁⟩
    · exact (hhandle e).transparent w₁
    · rfl
  exists_count w := by
    obtain ⟨m, hm⟩ := hx.exists_count w
    rcases hrun : x.runIn w with ⟨e | a, w₁⟩
    · obtain ⟨n, hn⟩ := (hhandle e).exists_count w₁
      exact ⟨m + n, .rescue_error hm hrun hn⟩
    · exact ⟨m, .rescue_ok hm hrun⟩

/-- A traced operation does the same with and without a tracer if its body does. -/
theorem Faithful.transparent_traced (hbody : Faithful called body) (operation : String)
    (arguments : List (String × Json)) (resultValue : α → Value) (w : World σ) :
    Prod.map id World.untraced ((traced operation arguments resultValue body).runIn w) =
      (traced operation arguments resultValue body).runIn w.untraced := by
  have huntraced : w.untraced.isTracing = false := rfl
  rw [runIn_traced_of_not_isTracing huntraced]
  cases hw : w.isTracing with
  | false =>
    rw [runIn_traced_of_not_isTracing hw]
    exact hbody.transparent w
  | true =>
    rw [runIn_traced_of_isTracing hw]
    refine Eq.trans ?_ (hbody.transparent (w.trace fun t => t.call operation arguments))
    dsimp only
    split <;> rfl

theorem Faithful.traced (hbody : Faithful called body) (hcalled : called operation)
    (arguments : List (String × Json)) (resultValue : α → Value) :
    Faithful called (traced operation arguments resultValue body) where
  transparent w := hbody.transparent_traced operation arguments resultValue w
  exists_count w := by
    obtain ⟨m, hm⟩ := hbody.exists_count (w.enter operation arguments)
    exact ⟨_, .traced hcalled hm⟩

/-- An operation that uses the tracer only by calling traced operations does the same with and
without a tracer. -/
theorem TracesOnly.faithful {x : Codegen σ α} (h : TracesOnly called x) : Faithful called x := by
  induction h with
  | blind h => exact h.faithful
  | bind _ _ hx hf => exact hx.bind hf
  | rescue _ _ hx hhandle => exact hx.rescue hhandle
  | traced hcalled _ hbody => exact hbody.traced hcalled _ _

/-! ## Parts of operations -/

theorem TracesOnly.pure (a : α) : TracesOnly called (pure a : Codegen σ α) :=
  .blind fun _ _ => rfl

theorem TracesOnly.throw (e : Fault) : TracesOnly called (throw e : Codegen σ α) :=
  .blind fun _ _ => rfl

theorem TracesOnly.ofExcept (r : Except Fault α) :
    TracesOnly called (ofExcept r : Codegen σ α) := by
  cases r with
  | error e => exact .throw e
  | ok a => exact .pure a

theorem TracesOnly.ofSearch (r : Option α) : TracesOnly called (ofSearch r : Codegen σ α) := by
  cases r with
  | none => exact .throw .endlessSearch
  | some a => exact .pure a

theorem TracesOnly.warnUndefined (sink : Option SinkId) (elements : List Element) :
    TracesOnly called (warnUndefined sink elements : Codegen σ Unit) :=
  .blind fun _ _ => rfl

theorem TracesOnly.map {x : Codegen σ α} (h : TracesOnly called x) (f : α → β) :
    TracesOnly called (f <$> x) := by
  rw [map_eq_pure_bind]
  exact .bind h fun a => .pure (f a)

theorem TracesOnly.mapM {f : α → Codegen σ β} (h : ∀ a, TracesOnly called (f a)) (as : List α) :
    TracesOnly called (as.mapM f) := by
  induction as with
  | nil =>
    rw [List.mapM_nil]
    exact .pure []
  | cons a as ih =>
    rw [List.mapM_cons]
    exact .bind (h a) fun b => .bind ih fun bs => .pure (b :: bs)

/-- Asking for the room for texts and for the standard layout does not touch the tracer. -/
theorem TracesOnly.bind_get {f : Text.Capacity → Layout → Codegen σ α}
    (h : ∀ capacity layout, TracesOnly called (f capacity layout)) :
    TracesOnly called (get >>= fun w => f w.desk.capacity w.layout) := by
  have hget : (get >>= fun w => f w.desk.capacity w.layout) =
      ((fun w => (.ok (w.desk.capacity, w.layout), w) : Codegen σ (Text.Capacity × Layout)) >>=
        fun found => f found.1 found.2) := rfl
  rw [hget]
  exact .bind (.blind fun _ _ => rfl) fun found => h found.1 found.2

end Codegen

end ClassCode
