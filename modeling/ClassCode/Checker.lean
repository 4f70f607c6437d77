import ClassCode.ClassGraph
import ClassCode.Lists

/-!
# Checking types against a class

A checker stands for a class declaration. It matches the class itself and every instantiation of it,
tells which types inherit from it, and finds out with which type arguments they implement it.

All types that can be reached from a type through supertypes are found with an explicit stack. Since
instantiations may grow on the way up, the ancestry of a type can be infinite; the search therefore
takes a limit, and answers `none` when that is not enough. The limit holds for the number of types
that are expanded and for how deep they are nested, all together, so that a search among types that
grow without end is short.

Implementations are looked for in interfaces before mixins and in both before the superclass, each
along its whole ancestry. This search follows declarations upwards and answers `none` when it would
have to go more than `limit` levels deep.
-/

namespace ClassCode

namespace ClassGraph

/-! ## The ancestry of a type -/

/-- Adds the types that are not in `found` yet to the end of it and to the top of the stack. -/
def discover (stack found : List Ty) : List Ty → List Ty × List Ty
  | [] => (stack, found)
  | t :: ts =>
    if found.contains t then discover stack found ts
    else discover (t :: stack) (found ++ [t]) ts

/-- Expands the types on the stack until it is empty: at most `steps` of them, which together are
not nested deeper than `room`. -/
def expand (g : ClassGraph) : Nat → Nat → List Ty → List Ty → Option (List Ty)
  | _, _, [], found => some found
  | 0, _, _ :: _, _ => none
  | steps + 1, room, t :: stack, found =>
    if room < t.nesting then none
    else
      let (stack, found) := discover stack found (g.supertypes t)
      expand g steps (room - t.nesting) stack found

/-- The type itself and all types above it, none twice, in the order in which they are found. Of
types that are the same the one found first is kept. -/
def ancestry (g : ClassGraph) (limit : Nat) (t : Ty) : Option (List Ty) :=
  expand g limit limit [t] [t]

/-- The supertypes of a type in the order in which implementations are looked for. -/
def searchOrder (g : ClassGraph) (t : Ty) : List Ty :=
  g.interfaces t ++ g.mixins t ++ (g.superclass? t).toList

end ClassGraph

/-! ## Checkers -/

/-- A class declaration that types are tested against. -/
structure Checker where
  definition : ClassId
  deriving Repr, DecidableEq

namespace Checker

/-- The checker for the class that a type refers to. -/
def ofTy (g : ClassGraph) (t : Ty) : Except Fault Checker :=
  match t.definition? with
  | some c => .ok ⟨c⟩
  | none => .error (.notAClass (g.describe t))

/-- Whether a type is the class or an instantiation of it. -/
def isExactly (k : Checker) (t : Ty) : Bool := t.definition? == some k.definition

/-- Whether the class is a proper ancestor of a type, found within a limit. -/
def isSuperOf (k : Checker) (g : ClassGraph) (limit : Nat) (t : Ty) : Option Bool :=
  if k.isExactly t then some false
  else (g.ancestry limit t).map fun found => found.any k.isExactly

/-- Whether a value of the type is a value of the class, found within a limit. -/
def isAssignableFrom (k : Checker) (g : ClassGraph) (limit : Nat) (t : Ty) : Option Bool :=
  if k.isExactly t then some true else k.isSuperOf g limit t

/-- The checker as traces show it. -/
def describe (k : Checker) (g : ClassGraph) : String :=
  "TypeChecker(" ++ g.className k.definition ++ ")"

end Checker

/-! ## Implementations -/

/-- Adds a type unless the list has the same one already. -/
def insertNew (found : List Ty) (t : Ty) : List Ty :=
  if found.contains t then found else found ++ [t]

namespace Checker

/-- The first type in the ancestry of a type that is exactly the checked class. -/
def implementation? (k : Checker) (g : ClassGraph) : Nat → Ty → Option (Option Ty)
  | 0, _ => none
  | limit + 1, t =>
    if k.isExactly t then some (some t)
    else Search.first? (implementation? k g limit) (g.searchOrder t)

/-- Adds to `found` every type in the ancestry of a type that is exactly the checked class and not
there yet. The search does not go on above a match. -/
def collect (k : Checker) (g : ClassGraph) : Nat → List Ty → Ty → Option (List Ty)
  | 0, _, _ => none
  | limit + 1, found, t =>
    if k.isExactly t then some (insertNew found t)
    else Search.foldl? (collect k g limit) found (g.searchOrder t)

/-- All types in the ancestry of a type that are exactly the checked class, none twice, in the order
in which `implementation?` meets them. -/
def implementations (k : Checker) (g : ClassGraph) (limit : Nat) (t : Ty) : Option (List Ty) :=
  k.collect g limit [] t

/-- The type arguments with which a type implements the checked class: none when it does not, an
empty list when the class is not generic. -/
def typeArgumentsOf (k : Checker) (g : ClassGraph) (limit : Nat) (t : Ty) :
    Option (Option (List Ty)) :=
  (k.implementation? g limit t).map fun found => found.map g.typeArgs

end Checker

end ClassCode
