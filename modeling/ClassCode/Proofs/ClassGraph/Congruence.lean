import ClassCode.Proofs.Supertypes.Above

/-!
# Sameness is a congruence

Sameness of types is an equivalence, and a set of types counts types that are the same once. Types
that are the same have equal hash codes, are the same after substitution, have the same supertypes
and definition, and hold type variables or not alike (`beq_congruence`). Only their display names
can tell them apart.

What is computed from a type by recursion, without its display names, is proved to be equal by
induction on two types that are the same (`Ty.beq_induct`).
-/

namespace ClassCode

namespace Ty

/-! ## Hash codes -/

theorem hashesWith_eq_map {H : Type} (h : Hashing H) (ts : List Ty) :
    hashesWith h ts = ts.map (hashWith h) := by
  induction ts with
  | nil => rfl
  | cons t ts ih => rw [hashesWith, ih, List.map_cons]

/-- Types that are the same have equal hash codes, whatever these are made of. -/
theorem hashWith_eq_of_beq {H : Type} (h : Hashing H) {a b : Ty} (hab : (a == b) = true) :
    hashWith h a = hashWith h b := by
  induction a, b, hab using beq_induct with
  | inst c as bs hargs ih =>
    rw [hashWith, hashWith, hashesWith_eq_map, hashesWith_eq_map, map_eq_map_of_beq ih hargs]
  | _ => rfl

instance : LawfulHashable Ty := ⟨fun _ _ h => hashWith_eq_of_beq .mixed h⟩

/-- A set of two types has one member exactly when they are the same. -/
theorem distinctCount_pair (a b : Ty) : distinctCount [a, b] = 1 ↔ (a == b) = true := by
  have hset : Std.HashSet.ofList [a, b] = ((∅ : Std.HashSet Ty).insert a).insert b := by
    rw [Std.HashSet.ofList_cons, Std.HashSet.insertMany_cons, Std.HashSet.insertMany_nil]
  have hone : ((∅ : Std.HashSet Ty).insert a).size = 1 := by
    rw [Std.HashSet.size_insert, if_neg Std.HashSet.not_mem_empty, Std.HashSet.size_empty]
  have hmem : b ∈ (∅ : Std.HashSet Ty).insert a ↔ (a == b) = true := by
    rw [Std.HashSet.mem_insert]
    exact or_iff_left Std.HashSet.not_mem_empty
  rw [distinctCount, hset, Std.HashSet.size_insert, hone]
  split
  case isTrue h => simpa using hmem.1 h
  case isFalse h => simpa using fun hab => h (hmem.2 hab)

end Ty

namespace ClassGraph

/-! ## Type variables -/

/-- Whether a type variable occurs in one of the types depends on what is said of each of them. -/
theorem hasVariablesAny_congr {g : ClassGraph} {ts us : List Ty}
    (h : ts.map g.hasVariables = us.map g.hasVariables) :
    g.hasVariablesAny ts = g.hasVariablesAny us := by
  induction ts generalizing us with
  | nil =>
    cases us with
    | nil => rfl
    | cons u us => cases h
  | cons t ts ih =>
    cases us with
    | nil => cases h
    | cons u us =>
      rw [List.map_cons, List.map_cons, List.cons.injEq] at h
      rw [hasVariablesAny, hasVariablesAny, h.1, ih h.2]

/-- Of types that are the same it is told alike whether a type variable occurs in them, if it can be
told at all. -/
theorem hasVariables_eq_of_beq (g : ClassGraph) {a b : Ty} (hab : (a == b) = true) :
    g.hasVariables a = g.hasVariables b := by
  induction a, b, hab using Ty.beq_induct with
  | inst c as bs hargs ih =>
    rw [hasVariables, hasVariables, hasVariablesAny_congr (Ty.map_eq_map_of_beq ih hargs)]
  | _ => rfl

/-! ## Congruence -/

/-- What two types have in common that cannot be told apart but by their display names. -/
structure Alike (g : ClassGraph) (a b : Ty) : Prop where
  hashed : ∀ (H : Type) (h : Ty.Hashing H), a.hashWith h = b.hashWith h
  substituted : ∀ m n : Assignment, m.Agree n → (a.subst m == b.subst n) = true
  supertypes : (g.supertypes a == g.supertypes b) = true
  definition : a.definition? = b.definition?
  hasVariables : g.hasVariables a = g.hasVariables b

/-- Sameness of types is an equivalence, which a set of types goes by. Types that are the same are
alike: they have equal hash codes, assignments that agree make them types that are the same, their
supertypes are the same, place by place, and they refer to the same class and hold type variables
alike. Still their names and descriptions may differ. -/
theorem beq_congruence (g : ClassGraph) :
    Equivalence (fun a b : Ty => (a == b) = true) ∧
    (∀ a b : Ty, Ty.distinctCount [a, b] = 1 ↔ (a == b) = true) ∧
    (∀ a b : Ty, (a == b) = true → g.Alike a b) ∧
    ∃ a b : Ty, (a == b) = true ∧ g.name a ≠ g.name b ∧ g.describe a ≠ g.describe b := by
  refine ⟨⟨fun a => BEq.rfl, BEq.symm, BEq.trans⟩, Ty.distinctCount_pair, fun a b hab => ?_, ?_⟩
  · exact {
      hashed := fun H h => Ty.hashWith_eq_of_beq h hab
      substituted := fun m n hmn => Ty.subst_beq hmn hab
      supertypes := g.supertypes_beq hab
      definition := Ty.definition?_of_beq hab
      hasVariables := g.hasVariables_eq_of_beq hab }
  · refine ⟨.builtin .int "int", .builtin .int "integer", rfl, ?_, ?_⟩
    · change "int" ≠ "integer"
      decide
    · change "int" ++ "(builtin)" ≠ "integer" ++ "(builtin)"
      decide

/-- `class Pair<S, T> implements Ser<T>`. -/
def pairGraph : ClassGraph :=
  let object : Option Ty := some (.cls rootId)
  ⟨#[rootDecl "Object",
    { ClassDecl.unknown with name := "Ser", typeParams := [.param "T"], superclass := object },
    { ClassDecl.unknown with
      name := "Pair", typeParams := [.param "S", .param "T"], superclass := object,
      interfaces := [.inst 1 [.param "T"]] }], #[]⟩

/-- `Pair<S, int>` is the same under another name of `int`. So is what comes of it when `String` is
put in place of `S`, under one name or another, and so is the `Ser<int>` that it implements; a set
of the two has one member. -/
theorem beq_pair :
    let named (int : String) : Ty := .inst 2 [.param "S", .builtin .int int]
    let filled (string : String) : Assignment := [(.param "S", .builtin .string string)]
    ((named "int" == named "integer") = true ∧ (filled "String").Agree (filled "text")) ∧
      Ty.distinctCount [named "int", named "integer"] = 1 ∧
      ((named "int").subst (filled "String") == (named "integer").subst (filled "text")) = true ∧
      ([.cls rootId, .inst 1 [.builtin .int "int"]] ==
        pairGraph.supertypes (named "integer")) = true ∧
      pairGraph.hasVariables (named "integer") = .ok true := by
  intro named filled
  obtain ⟨-, hcount, halike, -⟩ := beq_congruence pairGraph
  have hsame : (named "int" == named "integer") = true := by decide
  have hagree : (filled "String").Agree (filled "text") :=
    (Assignment.agree_refl []).put (.param "S") rfl
  have hpair : pairGraph.Alike (named "int") (named "integer") := halike _ _ hsame
  exact ⟨⟨hsame, hagree⟩, (hcount _ _).2 hsame, hpair.substituted _ _ hagree, hpair.supertypes,
    hpair.hasVariables.symm⟩

end ClassGraph

end ClassCode
