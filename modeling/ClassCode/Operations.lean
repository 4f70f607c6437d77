import ClassCode.Fields
import ClassCode.Invocation

/-!
# Traced operations

The operations that code generators call, each traced under its name with the arguments that matter.
-/

namespace ClassCode

variable {σ : Type}

/-- The length to which the arguments of the library's operations are cut in traces. -/
def argumentLimit : Int := 200

/-- Writes a text as a string literal. -/
def writeLiteral (s : String) : Codegen σ String :=
  traced "escape_string_literal" (tracedArguments argumentLimit [("value", .str s)]) .str
    (pure (Literal.write s))

/-- The type arguments with which a type implements the class of a checker. -/
def findTypeArguments (g : ClassGraph) (limit : Nat) (t : Ty) (k : Checker) :
    Codegen σ (Option (List Ty)) :=
  traced "type_arguments_of"
    (tracedArguments argumentLimit
      [("t", g.typeValue t), ("checker", .object "TypeChecker" (k.describe g))])
    (fun found => match found with
      | none => .none
      | some args => .list (args.map g.typeValue))
    (Codegen.ofSearch (k.typeArgumentsOf g limit t))

/-- The fields of a class in order. Fields of undefined type are warned about, as they are found. -/
def findFields (g : ClassGraph) (limit : Nat) (t : Ty) (sink : Option SinkId) :
    Codegen σ (List FieldId) :=
  traced "create_sorted_field_set" (tracedArguments argumentLimit [("class_type", g.typeValue t)])
    (fun fs => .list (fs.map g.fieldValue)) do
    match t.definition? with
    | none => throw (Value.none.lacks "fields")
    | some c =>
      let fs ← Codegen.ofSearch (g.collectedFields limit c)
      Codegen.warnUndefined sink (fs.map fun f => (g.field f).element)
      Codegen.ofSearch (g.sortByLocation limit fs.eraseDups)

/-- Writes an invocation of the constructor of a class. The layout of the world applies if none is
given. -/
def writeInvocation (g : ClassGraph) (t : Ty) (available writeable : Value)
    (reasons : List (String × Option String)) (writer : ArgumentWriter σ) (sink : Option SinkId)
    (layout : Option Layout) : Codegen σ Invocation :=
  traced "write_constructor_invocation"
    (tracedArguments argumentLimit
      [("class_type", g.typeValue t), ("available_ctor_params", available),
        ("writeable_fields", writeable)])
    Invocation.value do
    match t.definition? with
    | none => throw (Value.none.lacks "name")
    | some c =>
      match (g.decl c).constructor? with
      | none => throw (.noConstructor (g.className c))
      | some k =>
        let w ← get
        let names ← Codegen.ofExcept available.names
        Invocation.write g c k names writeable.onlyNames reasons writer sink w.desk.capacity
          (layout.getD w.layout)

namespace ArgumentWriter

/-- Every argument is the name of its parameter. -/
def byName : ArgumentWriter σ := fun name _ => pure name

/-- Every argument is looked up in a JSON map under the name of its parameter. -/
def fromJson : ArgumentWriter σ := fun name _ => do
  let key ← writeLiteral name
  pure ("json[" ++ key ++ "]")

/-- Every argument is the name of its parameter cast to its type. -/
def cast (g : ClassGraph) : ArgumentWriter σ := fun name p => pure (name ++ " as " ++ g.name p.type)

/-- Arguments are taken from a table; a name that is not in it is a fault. -/
def fromTable (table : List (String × String)) : ArgumentWriter σ := fun name _ =>
  match Keyed.get? table name with
  | some text => pure text
  | none => throw (.raised .generation ("no value for " ++ name))

/-- Keeps note of every parameter for which an argument is asked. -/
def recording (writer : ArgumentWriter (List (String × Parameter))) :
    ArgumentWriter (List (String × Parameter)) := fun name p => do
  modify fun w => { w with own := w.own ++ [(name, p)] }
  writer name p

end ArgumentWriter

end ClassCode
