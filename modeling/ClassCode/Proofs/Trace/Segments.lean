import ClassCode.Proofs.Trace.Run

/-!
# Segments of a log

A traced call leaves a segment in the log: it starts with the call and ends with an event that
closes it, and in between are the segments of the calls made in the meantime. Numbers go on from
segment to segment, and what is opened is closed.

So it is unless a call ends without an event that closes it. Then it stays open, and as an event
closes the innermost open call only, so do all the calls around it (`Trail`). From calls of which
none ends in this way a log gains segments (`Trail.segments`); each one that does leaves one call
more open (`Trail.exists_stayed`).
-/

namespace ClassCode

/-- Whether an event records a call of an operation, which has the given number, parent and
depth. -/
structure Opens (e : TraceEvent) (operation : String) (id parent depth : Nat) : Prop where
  isCall : e.isCall = true
  operation : e.operation = operation
  callId : e.callId = id
  parentId : e.parentId = parent
  depth : e.depth = depth

/-- Whether an event of an operation closes a call, which has the given number and depth. -/
structure Closes (x : TraceEvent) (operation : String) (id depth : Nat) : Prop where
  isCall : x.isCall = false
  operation : x.operation = operation
  callId : x.callId = id
  depth : x.depth = depth

/-- Whether two events are the opening and the closing one of a call of an operation, which has the
given number, parent and depth. -/
structure Brackets (opening closing : TraceEvent) (operation : String) (id parent depth : Nat) :
    Prop where
  opens : Opens opening operation id parent depth
  closes : Closes closing operation id depth

/-- The segments of calls made one after another at the given depth under the given parent: the
first of them has the number after `last`, and `last'` is the last number in them. Only operations
with certain names are called. -/
inductive Segments (called : String → Prop) :
    (parent depth last : Nat) → List TraceEvent → (last' : Nat) → Prop
  | nil {parent depth last : Nat} : Segments called parent depth last [] last
  | cons {parent depth last last' last'' : Nat} {operation : String} {opening closing : TraceEvent}
      {inner rest : List TraceEvent} (hcalled : called operation)
      (hbrackets : Brackets opening closing operation (last + 1) parent depth)
      (hinner : Segments called (last + 1) (depth + 1) (last + 1) inner last')
      (hrest : Segments called parent depth last' rest last'') :
      Segments called parent depth last (opening :: inner ++ closing :: rest) last''

/-- Where nothing is called no events are gained. -/
theorem Segments.eq_nil {called : String → Prop} {parent depth last last' : Nat}
    {gained : List TraceEvent} (h : Segments called parent depth last gained last')
    (hcalled : ∀ operation, ¬ called operation) : gained = [] := by
  cases h with
  | nil => rfl
  | cons hcall _ _ _ => exact absurd hcall (hcalled _)

/-- What calls that are made one after another add to a log. The open calls, innermost first, become
`opened'` from `opened`, and the last number `last'` from `last`. What is recorded at the end of a
call closes the innermost open call, whichever that is. The count is that of the calls of which the
end is not recorded. -/
inductive Trail (called : String → Prop) :
    (opened : List Nat) → (last : Nat) → List TraceEvent → (count : Nat) → (opened' : List Nat) →
      (last' : Nat) → Prop
  | nil {opened : List Nat} {last : Nat} : Trail called opened last [] 0 opened last
  | ended {opened opened₁ opened₂ : List Nat} {last last₁ last₂ m n : Nat} {operation : String}
      {opening closing : TraceEvent} {inner rest : List TraceEvent} (hcalled : called operation)
      (hopening : Opens opening operation (last + 1) (opened.headD 0) opened.length)
      (hinner : Trail called ((last + 1) :: opened) (last + 1) inner m opened₁ last₁)
      (hclosing : Closes closing operation (opened₁.headD 0) (opened₁.length - 1))
      (hrest : Trail called opened₁.tail last₁ rest n opened₂ last₂) :
      Trail called opened last (opening :: inner ++ closing :: rest) (m + n) opened₂ last₂
  | stayed {opened opened₁ opened₂ : List Nat} {last last₁ last₂ m n : Nat} {operation : String}
      {opening : TraceEvent} {inner rest : List TraceEvent} (hcalled : called operation)
      (hopening : Opens opening operation (last + 1) (opened.headD 0) opened.length)
      (hinner : Trail called ((last + 1) :: opened) (last + 1) inner m opened₁ last₁)
      (hrest : Trail called opened₁ last₁ rest n opened₂ last₂) :
      Trail called opened last (opening :: inner ++ rest) (m + 1 + n) opened₂ last₂

namespace Trail

variable {called : String → Prop} {opened opened' opened'' : List Nat}
  {last last' last'' m n : Nat} {gained gained' : List TraceEvent}

theorem append (h : Trail called opened last gained m opened' last')
    (h' : Trail called opened' last' gained' n opened'' last'') :
    Trail called opened last (gained ++ gained') (m + n) opened'' last'' := by
  induction h with
  | nil => rwa [Nat.zero_add]
  | ended hcalled hopening hinner hclosing _ _ ih =>
    rw [List.append_assoc, List.cons_append, Nat.add_assoc]
    exact .ended hcalled hopening hinner hclosing (ih h')
  | stayed hcalled hopening hinner _ _ ih =>
    rw [List.append_assoc, Nat.add_assoc]
    exact .stayed hcalled hopening hinner (ih h')

/-- More operations may be called. -/
theorem mono {called' : String → Prop} (hcalled : ∀ operation, called operation → called' operation)
    (h : Trail called opened last gained m opened' last') :
    Trail called' opened last gained m opened' last' := by
  induction h with
  | nil => exact .nil
  | ended h hopening _ hclosing _ ih ih' => exact .ended (hcalled _ h) hopening ih hclosing ih'
  | stayed h hopening _ _ ih ih' => exact .stayed (hcalled _ h) hopening ih ih'

/-- As many calls stay open as there are calls of which the end is not recorded. -/
theorem exists_stayed (h : Trail called opened last gained m opened' last') :
    ∃ stayed, opened' = stayed ++ opened ∧ stayed.length = m := by
  induction h with
  | nil => exact ⟨[], rfl, rfl⟩
  | @ended _ _ _ last _ _ _ _ _ _ _ _ _ _ _ _ _ _ ih ih' =>
    obtain ⟨inner, rfl, rfl⟩ := ih
    obtain ⟨rest, rfl, rfl⟩ := ih'
    cases inner with
    | nil => exact ⟨rest, rfl, (Nat.zero_add _).symm⟩
    | cons id inner => exact ⟨rest ++ (inner ++ [last + 1]), by simp, by simp; omega⟩
  | @stayed _ _ _ last _ _ _ _ _ _ _ _ _ _ _ _ ih ih' =>
    obtain ⟨inner, rfl, rfl⟩ := ih
    obtain ⟨rest, rfl, rfl⟩ := ih'
    exact ⟨rest ++ (inner ++ [last + 1]), by simp, by simp; omega⟩

/-- If the ends of all calls are recorded, the calls leave segments and no call stays open. -/
theorem segments (h : Trail called opened last gained m opened' last') (hm : m = 0) :
    opened' = opened ∧ Segments called (opened.headD 0) opened.length last gained last' := by
  induction h with
  | nil => exact ⟨rfl, .nil⟩
  | ended hcalled hopening _ hclosing _ ih ih' =>
    obtain ⟨hm, hn⟩ := Nat.add_eq_zero_iff.1 hm
    obtain ⟨rfl, hinner⟩ := ih hm
    obtain ⟨rfl, hrest⟩ := ih' hn
    exact ⟨rfl, .cons hcalled ⟨hopening, hclosing⟩ hinner hrest⟩
  | stayed => omega

end Trail

namespace Tracer

variable {called : String → Prop} {m n : Nat} {t t' t'' : Tracer}

/-- Whether a tracer became another one by calls of certain operations, of which `count` ended
without being closed. A tracer that is switched off stays as it is. -/
structure Grows (called : String → Prop) (count : Nat) (t t' : Tracer) : Prop where
  disabled : t.enabled = false → t' = t
  enabled : t'.enabled = t.enabled
  trail : t.enabled = true → ∃ gained, t'.events = t.events ++ gained ∧
    Trail called t.openCalls t.lastId gained count t'.openCalls t'.lastId

namespace Grows

theorem refl (called : String → Prop) (t : Tracer) : Grows called 0 t t :=
  ⟨fun _ => rfl, rfl, fun _ => ⟨[], (List.append_nil _).symm, .nil⟩⟩

theorem of_disabled (ht : t.enabled = false) (called : String → Prop) (count : Nat) :
    Grows called count t t :=
  ⟨fun _ => rfl, rfl, fun h => by simp [ht] at h⟩

theorem trans (h : Grows called m t t') (h' : Grows called n t' t'') :
    Grows called (m + n) t t'' := by
  constructor
  case disabled =>
    intro hoff
    rw [h'.disabled (h.enabled.trans hoff), h.disabled hoff]
  case enabled => rw [h'.enabled, h.enabled]
  case trail =>
    intro hon
    obtain ⟨gained, hevents, htrail⟩ := h.trail hon
    obtain ⟨gained', hevents', htrail'⟩ := h'.trail (h.enabled.trans hon)
    exact ⟨gained ++ gained', by rw [hevents', hevents, List.append_assoc], htrail.append htrail'⟩

end Grows

/-! ## A single call -/

/-- What a tracer that is switched on gains from a call of an operation: the call, the segments of
the calls made in the meantime, and an event of the given kind that closes it. -/
structure GainsCall (called : String → Prop) (operation kind : String) (t t' : Tracer)
    (opening closing : TraceEvent) (inner : List TraceEvent) : Prop where
  events : t'.events = t.events ++ (opening :: inner ++ [closing])
  brackets : Brackets opening closing operation (t.lastId + 1) (t.openCalls.headD 0) t.depth
  kind : closing.kind = kind
  segments : Segments called (t.lastId + 1) (t.depth + 1) (t.lastId + 1) inner t'.lastId
  openCalls : t'.openCalls = t.openCalls
  enabled : t'.enabled = t.enabled

/-- What a tracer that is switched on gains from a call of an operation and from the calls made in
the meantime, if the ends of so many of them all are not recorded. The call itself stays open unless
there is none of these. -/
structure GainsTrail (called : String → Prop) (operation : String) (count : Nat) (t t' : Tracer)
    (opening : TraceEvent) (gained : List TraceEvent) : Prop where
  events : t'.events = t.events ++ opening :: gained
  opens : Opens opening operation (t.lastId + 1) (t.openCalls.headD 0) t.depth
  trail : Trail (fun other => other = operation ∨ called other) t.openCalls t.lastId
    (opening :: gained) count t'.openCalls t'.lastId
  openCalls : count ≠ 0 → ∃ stayed, t'.openCalls = stayed ++ (t.lastId + 1) :: t.openCalls ∧
    stayed.length + 1 = count
  enabled : t'.enabled = t.enabled

/-- The open calls are the same as before exactly if the ends of all calls are recorded. -/
theorem GainsTrail.openCalls_eq_iff {operation : String} {count : Nat} {opening : TraceEvent}
    {gained : List TraceEvent} (h : GainsTrail called operation count t t' opening gained) :
    t'.openCalls = t.openCalls ↔ count = 0 := by
  obtain ⟨stayed, hopen, hlength⟩ := h.trail.exists_stayed
  rw [hopen, List.append_left_eq_self, ← hlength, List.length_eq_zero_iff]

variable {operation : String} {arguments : List (String × Json)} {record : Nat → TraceRecord}

theorem opens_callEntry (t : Tracer) (operation : String) (arguments : List (String × Json)) :
    Opens (t.callEntry operation arguments) operation (t.lastId + 1) (t.openCalls.headD 0)
      t.depth :=
  ⟨rfl, rfl, rfl, rfl, rfl⟩

/-- What is added while a call is open. -/
theorem Grows.exists_inner (ht : t.enabled = true)
    (h : Grows called m (t.call operation arguments) t') :
    t'.enabled = true ∧ ∃ inner,
      t'.events = t.events ++ t.callEntry operation arguments :: inner ∧
      Trail called ((t.lastId + 1) :: t.openCalls) (t.lastId + 1) inner m t'.openCalls
        t'.lastId := by
  rw [call_of_enabled ht] at h
  obtain ⟨inner, hevents, htrail⟩ := h.trail ht
  exact ⟨h.enabled.trans ht, inner, by rw [hevents]; simp, htrail⟩

/-- A call of which the end is not recorded. -/
theorem Grows.stayed (ht : t.enabled = true) (hcalled : called operation)
    (h : Grows called m (t.call operation arguments) t') : Grows called (m + 1) t t' := by
  obtain ⟨ht', inner, hevents, htrail⟩ := h.exists_inner ht
  refine ⟨fun hoff => by simp [hoff] at ht, ht'.trans ht.symm, fun _ => ⟨_, hevents, ?_⟩⟩
  have hstayed := Trail.stayed hcalled (t.opens_callEntry operation arguments) htrail .nil
  rwa [List.append_nil] at hstayed

/-- A call of which the end is recorded. -/
theorem Grows.ended (ht : t.enabled = true) (hcalled : called operation)
    (h : Grows called m (t.call operation arguments) t')
    (hclosing : Closes (t'.closeEntry operation record) operation (t'.openCalls.headD 0)
      (t'.depth - 1)) :
    Grows called m t (t'.close operation record) := by
  obtain ⟨ht', inner, hevents, htrail⟩ := h.exists_inner ht
  rw [close_of_enabled ht']
  refine ⟨fun hoff => by simp [hoff] at ht, ht'.trans ht.symm, fun _ =>
    ⟨t.callEntry operation arguments :: inner ++ [t'.closeEntry operation record], ?_, ?_⟩⟩
  · rw [hevents]
    simp
  · exact .ended hcalled (t.opens_callEntry operation arguments) htrail hclosing .nil

/-- A call of which the end is not recorded, with what is added in the meantime. -/
theorem Grows.gainsTrail_of_stayed (ht : t.enabled = true)
    (h : Grows called m (t.call operation arguments) t') :
    ∃ gained, GainsTrail called operation (m + 1) t t' (t.callEntry operation arguments) gained ∧
      Trail called ((t.lastId + 1) :: t.openCalls) (t.lastId + 1) gained m t'.openCalls
        t'.lastId := by
  obtain ⟨ht', inner, hevents, htrail⟩ := h.exists_inner ht
  have hopens := t.opens_callEntry operation arguments
  have hinner : Trail (fun other => other = operation ∨ called other) _ _ _ _ _ _ :=
    htrail.mono fun _ => .inr
  have hwhole := hinner.stayed (.inl rfl) hopens .nil
  rw [List.append_nil] at hwhole
  obtain ⟨stayed, hopen, hlength⟩ := htrail.exists_stayed
  exact ⟨inner, ⟨hevents, hopens, hwhole, fun _ => ⟨stayed, hopen, by rw [hlength]⟩,
    ht'.trans ht.symm⟩, htrail⟩

/-- A call of which the end is recorded. What is recorded closes the call itself if nothing that was
called in the meantime stayed open. -/
theorem Grows.gainsTrail_of_ended (ht : t.enabled = true)
    (h : Grows called m (t.call operation arguments) t')
    (hclosing : Closes (t'.closeEntry operation record) operation (t'.openCalls.headD 0)
      (t'.depth - 1)) :
    ∃ inner, GainsTrail called operation m t (t'.close operation record)
      (t.callEntry operation arguments) (inner ++ [t'.closeEntry operation record]) ∧
      (m = 0 → GainsCall called operation (t'.closeEntry operation record).kind t
        (t'.close operation record) (t.callEntry operation arguments)
        (t'.closeEntry operation record) inner) := by
  obtain ⟨ht', inner, hevents, htrail⟩ := h.exists_inner ht
  have hopens := t.opens_callEntry operation arguments
  have hinner : Trail (fun other => other = operation ∨ called other) _ _ _ _ _ _ :=
    htrail.mono fun _ => .inr
  have hwhole := hinner.ended (.inl rfl) hopens hclosing .nil
  rw [close_of_enabled ht']
  have hadded : t'.events ++ [t'.closeEntry operation record] =
      t.events ++ (t.callEntry operation arguments :: inner ++
        [t'.closeEntry operation record]) := by
    rw [hevents]
    simp
  refine ⟨inner, ⟨hadded, hopens, hwhole, fun hm => ?_, ht'.trans ht.symm⟩, fun hm => ?_⟩
  · -- the innermost of the calls that stayed open is closed in place of the call itself
    obtain ⟨stayed, hopen, rfl⟩ := htrail.exists_stayed
    have hstayed : stayed ≠ [] := List.ne_nil_of_length_pos (Nat.pos_of_ne_zero hm)
    obtain ⟨id, rest, rfl⟩ := List.exists_cons_of_ne_nil hstayed
    exact ⟨rest, congrArg List.tail hopen, rfl⟩
  · obtain ⟨hopen, hsegments⟩ := htrail.segments hm
    rw [depth, hopen] at hclosing
    exact ⟨hadded, ⟨hopens, hclosing⟩, rfl, hsegments, congrArg List.tail hopen,
      ht'.trans ht.symm⟩

end Tracer

end ClassCode
