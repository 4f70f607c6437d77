import ClassCode.Fault
import ClassCode.Span
import ClassCode.Ty

/-!
# Class graphs

A class graph holds the declarations of a program: its classes with their supertypes and
constructors, and their fields. Declarations refer to each other by their places in the graph, so
inheritance may run in circles; nothing here assumes that it does not. A place that the graph does
not have reads as a class without a name and without supertypes.
-/

namespace ClassCode

/-- The place of a field in its graph. Two fields are the same only if their places are. -/
abbrev FieldId := Nat

/-- A parameter of a constructor. -/
structure Parameter where
  name : String
  type : Ty
  /-- Whether arguments are passed by name and not by position. -/
  named : Bool
  required : Bool
  span : Option Span
  deriving Repr

/-- The unnamed constructor of a class. -/
structure Constructor where
  parameters : List Parameter
  deriving Repr

/-- A field of a class, or one that is not attached to a class yet. -/
structure Field where
  name : String
  type : Ty
  /-- The position of the field's name in its source file. -/
  offset : Int
  isStatic : Bool
  /-- Whether the field is read through a getter. -/
  propertyBacked : Bool
  /-- The position of the getter if it is declared apart from the field. -/
  getterOffset : Option Int
  span : Option Span
  /-- The class that the field was attached to last. -/
  owner : Option ClassId
  deriving Repr

/-- A class, an interface, a mixin or an enum. -/
structure ClassDecl where
  name : String
  typeParams : List Ty
  superclass : Option Ty
  interfaces : List Ty
  mixins : List Ty
  fields : List FieldId
  constructor? : Option Constructor
  isEnum : Bool
  /-- Whether the class was declared as a universal root. -/
  declaredRoot : Bool
  deriving Repr

/-- A class of which nothing is known. -/
def ClassDecl.unknown : ClassDecl := ⟨"", [], none, [], [], [], none, false, false⟩

/-- A field of which nothing is known. -/
def Field.unknown : Field := ⟨"", .plain 0 "", 0, false, false, none, none, none⟩

/-- The supertypes that a class declares: superclass, interfaces, mixins. -/
def ClassDecl.supertypes (d : ClassDecl) : List Ty :=
  d.superclass.toList ++ d.interfaces ++ d.mixins

/-- Whether a class has no superclass, as only a universal root should. -/
def ClassDecl.isRoot (d : ClassDecl) : Bool := d.superclass.isNone

/-- The position that orders a field among its neighbours: that of its getter if it is read through
one that stands elsewhere. -/
def Field.sortOffset (f : Field) : Int :=
  match f.getterOffset with
  | some o => if f.propertyBacked && o != f.offset then o else f.offset
  | none => f.offset

/-- The declarations of a program. -/
structure ClassGraph where
  classes : Array ClassDecl
  fieldDecls : Array Field

namespace ClassGraph

/-- The place of the root class that every graph starts with. -/
def rootId : ClassId := 0

/-- A universal root: no supertypes, no fields, and a constructor without parameters. -/
def rootDecl (name : String) : ClassDecl :=
  { ClassDecl.unknown with name := name, constructor? := some ⟨[]⟩, declaredRoot := true }

/-- The graph that holds nothing but the root `Object`. -/
def initial : ClassGraph := ⟨#[rootDecl "Object"], #[]⟩

/-! ## Looking up -/

/-- The declaration at a place. -/
def decl (g : ClassGraph) (c : ClassId) : ClassDecl := g.classes[c]?.getD ClassDecl.unknown

/-- The field at a place. -/
def field (g : ClassGraph) (f : FieldId) : Field := g.fieldDecls[f]?.getD Field.unknown

/-- The name of the class at a place. -/
def className (g : ClassGraph) (c : ClassId) : String := (g.decl c).name

/-- The assignment of an instantiation: its arguments for the type parameters of its class. -/
def assignment (g : ClassGraph) (c : ClassId) (args : List Ty) : Assignment :=
  Assignment.ofPairs ((g.decl c).typeParams.zip args)

/-- The superclass of a type; that of an instantiation has the type arguments put in place. -/
def superclass? (g : ClassGraph) : Ty → Option Ty
  | .cls c => (g.decl c).superclass
  | .inst c args => (g.decl c).superclass.map (Ty.subst (g.assignment c args))
  | _ => none

/-- The interfaces of a type in declaration order. -/
def interfaces (g : ClassGraph) : Ty → List Ty
  | .cls c => (g.decl c).interfaces
  | .inst c args => (g.decl c).interfaces.map (Ty.subst (g.assignment c args))
  | _ => []

/-- The mixins of a type in declaration order. -/
def mixins (g : ClassGraph) : Ty → List Ty
  | .cls c => (g.decl c).mixins
  | .inst c args => (g.decl c).mixins.map (Ty.subst (g.assignment c args))
  | _ => []

/-- The direct supertypes of a type: superclass, interfaces, mixins. -/
def supertypes (g : ClassGraph) (t : Ty) : List Ty :=
  (g.superclass? t).toList ++ g.interfaces t ++ g.mixins t

/-- The type parameters of a type's class. -/
def typeParams (g : ClassGraph) (t : Ty) : List Ty :=
  match t.definition? with
  | some c => (g.decl c).typeParams
  | none => []

/-- The type arguments of a class type. A class without arguments is instantiated with its own type
parameters. -/
def typeArgs (g : ClassGraph) : Ty → List Ty
  | .cls c => (g.decl c).typeParams
  | .inst _ args => args
  | _ => []

/-- Whether the type is an enum or an instantiation of one. -/
def isEnum (g : ClassGraph) (t : Ty) : Bool :=
  match t.definition? with
  | some c => (g.decl c).isEnum
  | none => false

/-- Whether the type is a class without superclass. An instantiation never is a root. -/
def isRoot (g : ClassGraph) : Ty → Bool
  | .cls c => (g.decl c).isRoot
  | _ => false

mutual

/-- Whether a type variable occurs in a type. A class without arguments counts as open when it has
type parameters; a bare type cannot tell. -/
def hasVariables (g : ClassGraph) : Ty → Except Fault Bool
  | .builtin _ _ => .ok false
  | .param _ => .ok true
  | .boundedParam _ _ => .ok true
  | .cls c => .ok !(g.decl c).typeParams.isEmpty
  | .inst _ args => hasVariablesAny g args
  | .plain _ _ => .error .undecidedVariables

/-- Whether a type variable occurs in one of the types; the first that has one decides. -/
def hasVariablesAny (g : ClassGraph) : List Ty → Except Fault Bool
  | [] => .ok false
  | t :: ts =>
    match hasVariables g t with
    | .ok true => .ok true
    | .ok false => hasVariablesAny g ts
    | .error e => .error e

end

/-! ## Names and descriptions -/

/-- The name under which code refers to a type. -/
def name (g : ClassGraph) (t : Ty) : String := t.nameWith g.className

/-- The name of a type without its arguments. -/
def simpleName (g : ClassGraph) (t : Ty) : String := t.simpleNameWith g.className

/-- The description of a class: its name, type parameters and superclass. A class that occurs
among type parameters is described in turn, at most `depth` classes deep. -/
def describeClass (g : ClassGraph) : Nat → ClassId → String
  | 0, c => g.className c
  | depth + 1, c =>
    let d := g.decl c
    let params := d.typeParams.map (Ty.describeWith g.className (describeClass g depth))
    d.name ++ (if params.isEmpty then "" else "<" ++ ", ".intercalate params ++ ">") ++
      (match d.superclass with
        | some s => " extends " ++ g.name s
        | none => "")

/-- The description of a type, as diagnostics and traces show it. -/
def describe (g : ClassGraph) (t : Ty) : String :=
  t.describeWith g.className (g.describeClass (g.classes.size + 1))

/-- A field as a declaration: its name and type. -/
def describeField (g : ClassGraph) (f : Field) : String :=
  (if f.isStatic then "static " else "") ++ f.name ++ ": " ++ g.name f.type

/-- A field as a member of its class. -/
def fieldLabel (g : ClassGraph) (f : Field) : String :=
  "FieldDescriptor(" ++ (match f.owner with
    | some c => g.className c
    | none => "?") ++ "." ++ f.name ++ ")"

/-- A parameter as a declaration: in braces when named, in brackets when it is positional and
optional. -/
def describeParameter (g : ClassGraph) (p : Parameter) : String :=
  let text := g.name p.type ++ " " ++ p.name
  if p.named then "\x7b" ++ (if p.required then "required " else "") ++ text ++ "\x7d"
  else if p.required then text
  else "[" ++ text ++ "]"

/-- A parameter as a value. -/
def parameterLabel (g : ClassGraph) (p : Parameter) : String :=
  "ParameterDescriptor(" ++ g.describeParameter p ++ ")"

/-- A constructor as a declaration of the class with the given name. -/
def describeConstructor (g : ClassGraph) (className : String) (k : Constructor) : String :=
  className ++ "(" ++ ", ".intercalate (k.parameters.map g.describeParameter) ++ ")"

/-! ## Building -/

/-- Adds a class and returns its place. -/
def declare (g : ClassGraph) (d : ClassDecl) : ClassId × ClassGraph :=
  (g.classes.size, { g with classes := g.classes.push d })

/-- Adds a field that is not attached to a class yet and returns its place. -/
def declareField (g : ClassGraph) (f : Field) : FieldId × ClassGraph :=
  (g.fieldDecls.size, { g with fieldDecls := g.fieldDecls.push f })

/-- Changes the declaration at a place. -/
def modifyDecl (g : ClassGraph) (c : ClassId) (change : ClassDecl → ClassDecl) : ClassGraph :=
  { g with classes := g.classes.modify c change }

/-- Attaches a field to a class, which becomes its owner. -/
def attach (g : ClassGraph) (c : ClassId) (f : FieldId) : ClassGraph :=
  let g := g.modifyDecl c fun d => { d with fields := d.fields ++ [f] }
  { g with fieldDecls := g.fieldDecls.modify f fun field => { field with owner := some c } }

/-- Attaches fields to a class one after another. -/
def attachAll (g : ClassGraph) (c : ClassId) (fs : List FieldId) : ClassGraph :=
  fs.foldl (fun g f => g.attach c f) g

/-- Gives a class a constructor. -/
def setConstructor (g : ClassGraph) (c : ClassId) (k : Constructor) : ClassGraph :=
  g.modifyDecl c fun d => { d with constructor? := some k }

/-- Replaces the superclass of a class; without one it becomes a root. -/
def setSuperclass (g : ClassGraph) (c : ClassId) (s : Option Ty) : ClassGraph :=
  g.modifyDecl c fun d => { d with superclass := s }

/-- Appends interfaces and mixins to those of a class. -/
def addSupertypes (g : ClassGraph) (c : ClassId) (interfaces mixins : List Ty) : ClassGraph :=
  g.modifyDecl c fun d =>
    { d with interfaces := d.interfaces ++ interfaces, mixins := d.mixins ++ mixins }

/-- The name of a type's kind. -/
def kindName (g : ClassGraph) : Ty → String
  | .builtin kind _ => kind.kindName
  | .param _ => "TypeParameter"
  | .boundedParam _ _ => "TypeParameter"
  | .cls c => if (g.decl c).declaredRoot then "ObjectType" else "ClassType"
  | .inst _ _ => "ParameterizedType"
  | .plain _ _ => "Type"

/-- The fault of asking a type for what only types of other kinds have. -/
def lacks (g : ClassGraph) (t : Ty) (member : String) : Fault :=
  .unsuitable (some (g.kindName t, member))

/-- The instantiation of a class with type arguments, one for each of its type parameters. -/
def instantiate (g : ClassGraph) (t : Ty) (args : List Ty) : Except Fault Ty :=
  match t with
  | .cls c =>
    if (g.decl c).typeParams.length = args.length then .ok (.inst c args)
    else .error (.argumentCount (g.decl c).typeParams.length (g.describe t))
  | _ => .error (g.lacks t "new")

/-- The type arguments of an instantiation by type parameter. -/
def assignments (g : ClassGraph) (t : Ty) : Except Fault Assignment :=
  match t with
  | .inst c args => .ok (g.assignment c args)
  | _ => .error (g.lacks t "get_type_variable_assignments")

/-- The type parameters of a class in angle brackets, with their bounds or by name only; nothing if
it has none. -/
def typeParamList (g : ClassGraph) (c : ClassId) (withBounds : Bool) : String :=
  match (g.decl c).typeParams with
  | [] => ""
  | params =>
    "<" ++ ", ".intercalate (params.map (if withBounds then g.describe else g.simpleName)) ++ ">"

/-- The type parameters of the class of a type, if it is told how to write them. -/
def genericArguments (g : ClassGraph) (t : Ty) (withBounds : Option Bool) : Except Fault String :=
  match withBounds, t.definition? with
  | none, _ => .ok ""
  | some withBounds, some c => .ok (g.typeParamList c withBounds)
  | some _, none => .error (g.lacks t "type_parameters")

end ClassGraph

end ClassCode
