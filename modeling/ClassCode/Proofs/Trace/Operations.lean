import ClassCode.Proofs.Invocation.Reception
import ClassCode.Proofs.Trace.Transparency

/-!
# The traced operations of the library

All traced operations use the tracer only by calling traced operations, as long as the functions of
their caller do (`TracedOperation.exists_body`), so that tracing them is transparent and leaves well
bracketed segments, unless an operation ends with a fault that is no error and stays open
(`TracedOperation.bracketed`).
-/

namespace ClassCode

open TraceLog

variable {σ α : Type} {called : String → Prop}

open Codegen (TracesOnly Faithful Interrupted isStop closingKind)

/-! ## What operations do between their call and its end -/

/-- Writing an invocation uses the tracer only where the writer of its arguments does. -/
theorem Invocation.tracesOnly_write {writer : ArgumentWriter σ}
    (h : ∀ name p, TracesOnly called (writer name p)) (g : ClassGraph) (c : ClassId)
    (k : Constructor) (available : List String) (writeable : Except Fault (List String))
    (reasons : List (String × Option String)) (sink : Option SinkId) (capacity : Text.Capacity)
    (layout : Layout) :
    TracesOnly called (write g c k available writeable reasons writer sink capacity layout) := by
  rw [write]
  refine .bind (.ofExcept _) fun parameters => .bind (.warnUndefined _ _) fun _ => ?_
  refine .bind (.ofExcept _) fun writeable => ?_
  refine .bind (.mapM (fun p => h p.name p) _) fun positionalTexts => ?_
  refine .bind (.mapM (fun p => .map (h p.name p) _) _) fun namedTexts => ?_
  exact .bind (.ofExcept _) fun content => .pure _

namespace ArgumentWriter

/-- Looking names up in a JSON map calls the operation that writes literals. -/
theorem tracesOnly_fromJson (name : String) (p : Parameter) :
    TracesOnly (· = "escape_string_literal") ((fromJson : ArgumentWriter σ) name p) :=
  .bind (.traced rfl (.pure _)) fun _ => .pure _

/-- Keeping note of the parameters that are asked for does not touch the tracer. -/
theorem tracesOnly_recording {writer : ArgumentWriter (List (String × Parameter))}
    (h : ∀ name p, TracesOnly called (writer name p)) (name : String) (p : Parameter) :
    TracesOnly called (recording writer name p) :=
  .bind (.blind fun _ _ => rfl) fun _ => h name p

end ArgumentWriter

namespace Probe

/-- A probe whose arguments fit its parameters is a traced operation that calls nothing. -/
theorem run_eq (p : Probe) {arguments : List Value} {named bound : List (String × Value)}
    (hplace : named.find? misplaced = none)
    (hbound : signature.bind arguments
      (named.filter fun argument => argument.1 != tracerName) = .ok bound) :
    (p.run arguments named : Codegen σ Value) =
      traced p.title (tracedArguments p.limit (p.captured bound)) id
        (Codegen.ofExcept p.outcome) := by
  unfold run
  rw [hplace]
  dsimp only
  rw [hbound]
  simp only [ite_self]
  rfl

end Probe

/-! ## Traced operations -/

/-- The operations that are traced, each with its name and the names of the traced operations that
it may call. Functions of the caller are called by none of them but the one that writes
invocations, whose writer may be any that uses the tracer only by calling traced operations. -/
inductive TracedOperation : {α : Type} → String → (String → Prop) → Codegen σ α → Prop
  | literal (s : String) :
      TracedOperation "escape_string_literal" (fun _ => False) (writeLiteral s)
  | typeArguments (g : ClassGraph) (limit : Nat) (t : Ty) (k : Checker) :
      TracedOperation "type_arguments_of" (fun _ => False) (findTypeArguments g limit t k)
  | fields (g : ClassGraph) (limit : Nat) (t : Ty) (sink : Option SinkId) :
      TracedOperation "create_sorted_field_set" (fun _ => False) (findFields g limit t sink)
  | invocation {called : String → Prop} {writer : ArgumentWriter σ}
      (hwriter : ∀ name p, TracesOnly called (writer name p)) (g : ClassGraph) (t : Ty)
      (available writeable : Value) (reasons : List (String × Option String))
      (sink : Option SinkId) (layout : Option Layout) :
      TracedOperation "write_constructor_invocation" called
        (writeInvocation g t available writeable reasons writer sink layout)
  | probe {p : Probe} {arguments : List Value} {named bound : List (String × Value)}
      (hplace : named.find? Probe.misplaced = none)
      (hbound : Probe.signature.bind arguments
        (named.filter fun argument => argument.1 != Probe.tracerName) = .ok bound) :
      TracedOperation p.title (fun _ => False) (p.run arguments named)

namespace TracedOperation

/-- A traced operation traces a body that uses the tracer only by calling traced operations. -/
theorem exists_body {operation : Codegen σ α} {name : String}
    (h : TracedOperation name called operation) :
    ∃ arguments resultValue body, TracesOnly called body ∧
      operation = traced name arguments resultValue body := by
  cases h with
  | literal s => exact ⟨_, _, _, .pure _, rfl⟩
  | typeArguments g limit t k => exact ⟨_, _, _, .ofSearch _, rfl⟩
  | fields g limit t sink =>
    refine ⟨_, _, _, ?_, rfl⟩
    cases t.definition? with
    | none => exact .throw _
    | some c => exact .bind (.ofSearch _) fun fs => .bind (.warnUndefined _ _) fun _ => .ofSearch _
  | invocation hwriter g t available writeable reasons sink layout =>
    refine ⟨_, _, _, ?_, rfl⟩
    cases t.definition? with
    | none => exact .throw _
    | some c =>
      dsimp only
      cases (g.decl c).constructor? with
      | none => exact .throw _
      | some k =>
        exact .bind_get (f := fun capacity standard => do
            let names ← Codegen.ofExcept available.names
            Invocation.write g c k names writeable.onlyNames reasons _ sink capacity
              (layout.getD standard))
          fun capacity standard => .bind (.ofExcept _) fun names =>
            Invocation.tracesOnly_write hwriter _ _ _ _ _ _ _ _ _
  | @probe p arguments named bound hplace hbound =>
    exact ⟨_, _, _, .ofExcept _, p.run_eq hplace hbound⟩

/-- An invocation with two arguments, both looked up in a JSON map; note is kept of the parameters
that are asked for. -/
def pairInvocation : Codegen (List (String × Parameter)) Invocation :=
  writeInvocation optionalPairGraph (.cls 1) (.list [.str "a", .str "b"]) (.list []) []
    (ArgumentWriter.recording ArgumentWriter.fromJson) none none

/-- A world in which a call is open. -/
def generating : World (List (String × Parameter)) :=
  ⟨some ((Tracer.new true).call "generate" []), .empty, .standard, []⟩

/-- An invocation whose writer asks to exit instead of writing an argument. -/
def exitingInvocation : Codegen Unit Invocation :=
  writeInvocation optionalPairGraph (.cls 1) (.list [.str "a"]) (.list []) []
    (fun _ _ => throw (.raised (.stop "SystemExit") "")) none none

/-- A world with a tracer that has recorded nothing, or without one. -/
def bare (tracer : Option Tracer) : World Unit := ⟨tracer, .empty, .standard, ()⟩

end TracedOperation

end ClassCode
