import ClassCode.Operations
import ClassCode.Proofs.Codegen

/-!
# The parameters of an invocation

`Constructor.consumed` is a filter with a check in front. The consumed parameters are written in
call order: those passed by position first, then those passed by name, each group in declaration
order.
-/

namespace ClassCode

variable {σ : Type}

namespace Constructor

/-! ## Consumed parameters -/

/-- The parameters whose names are available. -/
def selected (available : List String) (ps : List Parameter) : List Parameter :=
  ps.filter fun p => available.contains p.name

/-- The first required parameter whose name is not available. -/
def missing? (available : List String) (ps : List Parameter) : Option Parameter :=
  ps.find? fun p => p.required && !available.contains p.name

/-- The parameters that are passed by position. -/
def positional (ps : List Parameter) : List Parameter := ps.filter fun p => !p.named

/-- The parameters that are passed by name. -/
def named (ps : List Parameter) : List Parameter := ps.filter fun p => p.named

/-- Parameters in the order in which their arguments are written. -/
def callOrder (ps : List Parameter) : List Parameter := positional ps ++ named ps

theorem mem_selected {available : List String} {ps : List Parameter} {p : Parameter} :
    p ∈ selected available ps ↔ p ∈ ps ∧ p.name ∈ available := by
  simp [selected]

theorem mem_positional {ps : List Parameter} {p : Parameter} :
    p ∈ positional ps ↔ p ∈ ps ∧ p.named = false := by
  simp [positional]

theorem selected_cons (available : List String) (p : Parameter) (ps : List Parameter) :
    selected available (p :: ps) =
      if p.name ∈ available then p :: selected available ps else selected available ps := by
  simp [selected, List.filter_cons]

theorem positional_cons_of_named {p : Parameter} (hp : p.named = true) (ps : List Parameter) :
    positional (p :: ps) = positional ps := by
  simp [positional, hp]

theorem positional_cons_of_not_named {p : Parameter} (hp : ¬ p.named = true)
    (ps : List Parameter) : positional (p :: ps) = p :: positional ps := by
  simp [positional, hp]

/-- The first missing parameter is reported; when none is missing, the parameters whose names are
available are consumed. -/
theorem consumed_eq (className : String) (available : List String)
    (reasons : List (String × Option String)) (ps : List Parameter) :
    consumed className available reasons ps = match missing? available ps with
      | some p => .error (.missingArgument className p.name (reasons.lookup p.name).join)
      | none => .ok (selected available ps) := by
  induction ps with
  | nil => rfl
  | cons p ps ih =>
    rw [consumed, ih, missing?, missing?, selected, selected, List.find?_cons, List.filter_cons]
    cases ha : available.contains p.name with
    | true =>
      simp only [if_true, Bool.not_true, Bool.and_false]
      cases ps.find? fun p => p.required && !available.contains p.name <;> rfl
    | false => cases p.required <;> rfl

end Constructor

/-! ## The written invocation -/

namespace Invocation

open Constructor

/-- The texts of the arguments of parameters, asked for one after another. -/
def textsFor (writer : ArgumentWriter σ) (ps : List Parameter) : Codegen σ (List String) :=
  ps.mapM fun p => writer p.name p

/-- The operation that writes an invocation is `write` for the constructor of the class, in the
world in which its call has been recorded, if there are names that are available. -/
theorem writeInvocation_outcome {g : ClassGraph} {t : Ty} {c : ClassId} {k : Constructor}
    (ht : t.definition? = some c) (hk : (g.decl c).constructor? = some k)
    (available writeable : Value) (reasons : List (String × Option String))
    (writer : ArgumentWriter σ) (sink : Option SinkId) (layout : Option Layout) (w : World σ) :
    ((writeInvocation g t available writeable reasons writer sink layout).runIn w).1 =
      available.names.bind fun names =>
        ((write g c k names writeable.onlyNames reasons writer sink w.desk.capacity
          (layout.getD w.layout)).runIn (w.enter "write_constructor_invocation"
            (tracedArguments argumentLimit [("class_type", g.typeValue t),
              ("available_ctor_params", available), ("writeable_fields", writeable)]))).1 := by
  rw [writeInvocation, traced_outcome]
  simp only [ht, hk]
  rw [Codegen.runIn_bind, Codegen.runIn_get]
  simp only [World.layout_enter, World.desk_enter, Codegen.runIn_bind, Codegen.runIn_ofExcept]
  cases available.names <;> rfl

end Invocation

end ClassCode
