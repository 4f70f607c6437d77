import ClassCode.Lists
import Std.Data.HashSet

/-!
# Types of a class model

A type is a builtin of the target language, a type parameter with or without a bound, a declared
class, an instantiation of a declared class, or a type that is only known by its name. Classes are
named by their place in a `ClassGraph`, so a type is a finite tree even where classes refer to each
other in circles.

Two types are the same, written `==`, when they stand for the same thing: builtins of one kind are
the same under any display name, type parameters by name and bound, classes and bare types by
identity, instantiations by class and arguments.
-/

namespace ClassCode

/-- The place of a class declaration in its graph. -/
abbrev ClassId := Nat

/-- The kinds of builtin types of the target language. -/
inductive Builtin where
  | int
  | double
  | num
  | bool
  | string
  | null
  | dynamic
  | undefined
  deriving Repr, DecidableEq, Hashable

/-- The name of a kind of builtin. -/
def Builtin.kindName : Builtin → String
  | .int => "IntType"
  | .double => "DoubleType"
  | .num => "NumType"
  | .bool => "BoolType"
  | .string => "StringType"
  | .null => "NullType"
  | .dynamic => "DynamicType"
  | .undefined => "UndefinedType"

/-- A type of the class model. -/
inductive Ty where
  /-- A type that the target language provides, under a display name. -/
  | builtin (kind : Builtin) (name : String)
  /-- A type parameter without a bound. -/
  | param (name : String)
  /-- A type parameter that stands for subtypes of its bound only. -/
  | boundedParam (name : String) (bound : Ty)
  /-- A declared class without type arguments. -/
  | cls (id : ClassId)
  /-- A declared class with type arguments. -/
  | inst (id : ClassId) (args : List Ty)
  /-- A bare type of which only the name is known; `id` tells two of the same name apart. -/
  | plain (id : Nat) (name : String)
  deriving Repr, Inhabited

namespace Ty

/-- What holds of a type whenever it holds of its bound or its type arguments holds of every
type. -/
@[elab_as_elim]
theorem induct {motive : Ty → Prop} (builtin : ∀ kind name, motive (.builtin kind name))
    (param : ∀ name, motive (.param name))
    (boundedParam : ∀ name bound, motive bound → motive (.boundedParam name bound))
    (cls : ∀ id, motive (.cls id))
    (inst : ∀ id args, (∀ a ∈ args, motive a) → motive (.inst id args))
    (plain : ∀ id name, motive (.plain id name)) (t : Ty) : motive t :=
  @Ty.rec motive (fun ts => ∀ t ∈ ts, motive t) builtin param boundedParam cls inst plain
    (fun _ h => nomatch h) (fun _ _ ht hts => List.forall_mem_cons.2 ⟨ht, hts⟩) t

/-! ## Sameness -/

mutual

/-- Whether two types stand for the same thing. -/
def same : Ty → Ty → Bool
  | .builtin k _, .builtin l _ => k == l
  | .param m, .param n => m == n
  | .boundedParam m a, .boundedParam n b => m == n && same a b
  | .cls c, .cls d => c == d
  | .inst c as, .inst d bs => c == d && sameAll as bs
  | .plain i _, .plain j _ => i == j
  | _, _ => false

/-- Whether two lists of types are the same, place by place. -/
def sameAll : List Ty → List Ty → Bool
  | [], [] => true
  | a :: as, b :: bs => same a b && sameAll as bs
  | _, _ => false

end

instance : BEq Ty := ⟨same⟩

/-! ## Hash codes -/

/-- What the hash codes of types are made of. The code of an instantiation is made of its class and
the codes of its type arguments. -/
structure Hashing (H : Type) where
  builtin : Builtin → H
  param : String → H
  cls : ClassId → H
  inst : ClassId → List H → H
  plain : Nat → H

mutual

/-- The hash code of a type. Display names and bounds do not go into it. -/
def hashWith {H : Type} (h : Hashing H) : Ty → H
  | .builtin k _ => h.builtin k
  | .param n => h.param n
  | .boundedParam n _ => h.param n
  | .cls c => h.cls c
  | .inst c args => h.inst c (hashesWith h args)
  | .plain i _ => h.plain i

/-- The hash codes of the types in a list. -/
def hashesWith {H : Type} (h : Hashing H) : List Ty → List H
  | [] => []
  | t :: ts => hashWith h t :: hashesWith h ts

end

/-- Hash codes that are numbers, mixed from those of the parts. -/
def Hashing.mixed : Hashing UInt64 where
  builtin k := mixHash 2 (hash k)
  param n := mixHash 3 (hash n)
  cls c := mixHash 7 (hash c)
  inst c codes := codes.foldl mixHash (mixHash 11 (hash c))
  plain i := mixHash 13 (hash i)

instance : Hashable Ty := ⟨hashWith .mixed⟩

/-- How many different types there are in a list. -/
def distinctCount (ts : List Ty) : Nat := (Std.HashSet.ofList ts).size

/-! ## Equality

Equal types are the same, but the same type may be written in ways that are not equal, since
builtins may have different display names.
-/

mutual

/-- Whether two types are equal, display names included. -/
def identical : Ty → Ty → Bool
  | .builtin k m, .builtin l n => k == l && m == n
  | .param m, .param n => m == n
  | .boundedParam m a, .boundedParam n b => m == n && identical a b
  | .cls c, .cls d => c == d
  | .inst c as, .inst d bs => c == d && identicalAll as bs
  | .plain i m, .plain j n => i == j && m == n
  | _, _ => false

/-- Whether two lists of types are equal. -/
def identicalAll : List Ty → List Ty → Bool
  | [], [] => true
  | a :: as, b :: bs => identical a b && identicalAll as bs
  | _, _ => false

end

mutual

theorem identical_iff : ∀ a b : Ty, identical a b = true ↔ a = b
  | .builtin _ _, b => by cases b <;> simp [identical]
  | .param _, b => by cases b <;> simp [identical]
  | .boundedParam _ a, b => by cases b <;> simp [identical, identical_iff a]
  | .cls _, b => by cases b <;> simp [identical]
  | .inst _ as, b => by cases b <;> simp [identical, identicalAll_iff as]
  | .plain _ _, b => by cases b <;> simp [identical]

theorem identicalAll_iff : ∀ as bs : List Ty, identicalAll as bs = true ↔ as = bs
  | [], bs => by cases bs <;> simp [identicalAll]
  | a :: as, bs => by cases bs <;> simp [identicalAll, identical_iff a, identicalAll_iff as]

end

instance : DecidableEq Ty := fun a b => decidable_of_iff _ (identical_iff a b)

/-! ## Kinds of types -/

/-- The class declaration that a type refers to, if any. -/
def definition? : Ty → Option ClassId
  | .cls c => some c
  | .inst c _ => some c
  | _ => none

/-- Whether the type is a class or an instantiation of one. -/
def isClass (t : Ty) : Bool := t.definition?.isSome

/-- Whether the type is a type parameter. -/
def isParam : Ty → Bool
  | .param _ => true
  | .boundedParam _ _ => true
  | _ => false

/-- Whether the type is an instantiation. -/
def isInst : Ty → Bool
  | .inst _ _ => true
  | _ => false

/-- Whether the type could not be resolved when the model was built. -/
def isUndefined : Ty → Bool
  | .builtin .undefined _ => true
  | _ => false

/-! ## Nesting -/

mutual

/-- How deep a type is nested: a type inside the arguments or the bound of another is one deeper. -/
def nesting : Ty → Nat
  | .boundedParam _ b => nesting b + 1
  | .inst _ args => nestingAll args + 1
  | _ => 0

/-- How deep the types in a list are nested. -/
def nestingAll : List Ty → Nat
  | [] => 0
  | t :: ts => max (nesting t) (nestingAll ts)

end

/-! ## Names -/

mutual

/-- The name under which code refers to a type, given the names of the classes. -/
def nameWith (className : ClassId → String) : Ty → String
  | .builtin _ n => n
  | .param n => n
  | .boundedParam n _ => n
  | .cls c => className c
  | .inst c args => className c ++ "<" ++ ", ".intercalate (namesWith className args) ++ ">"
  | .plain _ n => n

/-- The names of the types in a list. -/
def namesWith (className : ClassId → String) : List Ty → List String
  | [] => []
  | t :: ts => nameWith className t :: namesWith className ts

end

mutual

/-- The description of a type, given the names and the descriptions of the classes. -/
def describeWith (className describeClass : ClassId → String) : Ty → String
  | .builtin _ n => n ++ "(builtin)"
  | .param n => n
  | .boundedParam n b => n ++ " extends " ++ nameWith className b
  | .cls c => describeClass c
  | .inst c args =>
    className c ++ "<" ++ ", ".intercalate (describeAllWith className describeClass args) ++ ">"
  | .plain _ n => n

/-- The descriptions of the types in a list. -/
def describeAllWith (className describeClass : ClassId → String) : List Ty → List String
  | [] => []
  | t :: ts =>
    describeWith className describeClass t :: describeAllWith className describeClass ts

end

/-- The name of a type without its arguments. -/
def simpleNameWith (className : ClassId → String) : Ty → String
  | .inst c _ => className c
  | t => nameWith className t

end Ty

/-! ## Substitution

An assignment gives types to type parameters, and substitution puts them in place, all at once: what
was put in place is not rewritten again. A parameter is looked up as a whole, name and bound; only
when the assignment does not have it, its bound is rewritten.
-/

/-- Types assigned to type parameters, in order of arrival. -/
abbrev Assignment := List (Ty × Ty)

namespace Assignment

/-- The assignment that pairs denote: of equal keys the first stays, with the last value. -/
def ofPairs (pairs : List (Ty × Ty)) : Assignment := Keyed.putAll [] pairs

end Assignment

namespace Ty

mutual

/-- The type with the parameters that the assignment has replaced. -/
def subst (m : Assignment) : Ty → Ty
  | .builtin k n => .builtin k n
  | .param n => (Keyed.get? m (.param n)).getD (.param n)
  | .boundedParam n b =>
    match Keyed.get? m (.boundedParam n b) with
    | some t => t
    | none => .boundedParam n (subst m b)
  | .cls c => .cls c
  | .inst c args => .inst c (substAll m args)
  | .plain i n => .plain i n

/-- The types of a list with the parameters that the assignment has replaced. -/
def substAll (m : Assignment) : List Ty → List Ty
  | [] => []
  | t :: ts => subst m t :: substAll m ts

end

end Ty

end ClassCode
