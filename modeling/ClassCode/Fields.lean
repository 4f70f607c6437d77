import ClassCode.Checker

/-!
# The fields of a class

The instance fields that code for a class has to deal with: its own, and the property-backed ones it
inherits, unless a class in between declares a field of the same name. A field comes after all
fields of the ancestors of its class; apart from that, fields come in the order of their places in
the source.
-/

namespace ClassCode

/-! ## Ancestors

The declarations that a class inherits from, in the order in which members are looked up in them:
the last mixin first, then the superclass with its own ancestors, then the interfaces. Universal
roots are left out. The walk marks a declaration before it goes on to its supertypes, so it visits
each once and ends on every graph, also where inheritance runs in circles.
-/

/-- The supertypes of a class in lookup order. -/
def ClassDecl.lookupOrder (d : ClassDecl) : List Ty :=
  d.mixins.reverse ++ d.superclass.toList ++ d.interfaces

namespace ClassGraph

/-- Adds to `seen` the declaration of a type and those that it inherits from, as far as they are not
there yet. The walk is at most `depth` declarations deep. -/
def visit (g : ClassGraph) : Nat → List ClassId → Ty → List ClassId
  | 0, seen, _ => seen
  | depth + 1, seen, t =>
    match t.definition? with
    | none => seen
    | some c =>
      if (g.decl c).isRoot || seen.contains c then seen
      else (g.decl c).lookupOrder.foldl (visit g depth) (seen ++ [c])

/-- The declarations that a class inherits from, in lookup order and without universal roots. A walk
that is deeper than the number of classes would meet one of them twice. -/
def ancestors (g : ClassGraph) (c : ClassId) : List ClassId :=
  (g.decl c).lookupOrder.foldl (g.visit (g.classes.size + 1)) []

end ClassGraph

/-! ## Placement

Puts positions in order when some have to come before others: whenever several may come next, the
one with the lowest key goes first, and of equal keys the lowest position. For every position a
counter says how many that must precede it are not placed yet; a position becomes ready when its
counter drops to zero. Positions that wait for each other in a circle, and all that wait for them,
are left out.
-/

namespace Placement

/-- Whether a position goes before another when both are ready. -/
def goesFirst (key : Nat → Int) (i j : Nat) : Bool := key i < key j || (key i == key j && i < j)

/-- Counts down for positions of which one predecessor has been placed, and makes those ready that
wait for no other. -/
def release (key : Nat → Int) (pending ready : List Nat) : List Nat → List Nat × List Nat
  | [] => (pending, ready)
  | j :: rest =>
    let pending := pending.modify j (· - 1)
    let ready := if pending[j]? = some 0 then Sorting.insert (goesFirst key) j ready else ready
    release key pending ready rest

/-- Places ready positions one after another, at most `count` of them. -/
def placeFrom (key : Nat → Int) (followers : Nat → List Nat) :
    Nat → List Nat → List Nat → List Nat
  | 0, _, _ => []
  | _ + 1, _, [] => []
  | count + 1, pending, i :: ready =>
    let (pending, ready) := release key pending ready (followers i)
    i :: placeFrom key followers count pending ready

/-- How many times a position has to wait for another, for all positions below `size`. -/
def predecessorCounts (size : Nat) (followers : Nat → List Nat) : List Nat :=
  let waiting := (List.range size).flatMap followers
  (List.range size).map fun j => waiting.count j

/-- The positions below `size` in order, where `followers i` are those that must come after `i`. -/
def place (size : Nat) (key : Nat → Int) (followers : Nat → List Nat) : List Nat :=
  let pending := predecessorCounts size followers
  let ready := (List.range size).filter fun i => pending[i]? = some 0
  placeFrom key followers size pending (Sorting.sort (goesFirst key) ready)

end Placement

/-! ## Fields -/

namespace ClassGraph

/-- The fields that a class declares and that are not static. -/
def instanceFields (g : ClassGraph) (c : ClassId) : List FieldId :=
  (g.decl c).fields.filter fun f => !(g.field f).isStatic

/-- The names of the instance fields that a class declares. -/
def instanceFieldNames (g : ClassGraph) (c : ClassId) : List String :=
  (g.instanceFields c).map fun f => (g.field f).name

/-- The fields of a class that its subtypes inherit, given the subtypes that may hide them. -/
def passedOn (g : ClassGraph) (owner : ClassId) (overriders : List ClassId) : List FieldId :=
  (g.instanceFields owner).filter fun f =>
    (g.field f).propertyBacked &&
      !overriders.any fun d => (g.instanceFieldNames d).contains (g.field f).name

/-- The fields that a class inherits from its ancestors, in lookup order. -/
def inheritedFields (g : ClassGraph) (limit : Nat) (c : ClassId) : Option (List FieldId) :=
  let ancestors := g.ancestors c
  let fromOwner (owner : ClassId) : Option (List FieldId) :=
    (Search.filter? (fun d => Checker.isSuperOf ⟨owner⟩ g limit (.cls d)) ancestors).map
      (g.passedOn owner)
  (Search.map? fromOwner ancestors).map List.flatten

/-- The own and inherited instance fields of a class, as they are found. -/
def collectedFields (g : ClassGraph) (limit : Nat) (c : ClassId) : Option (List FieldId) :=
  (g.inheritedFields limit c).map (g.instanceFields c ++ ·)

/-- Whether the class of one field is a proper ancestor of the class of another. -/
def precedes (g : ClassGraph) (limit : Nat) (a b : FieldId) : Option Bool :=
  match (g.field a).owner, (g.field b).owner with
  | some c, some d => if c = d then some false else Checker.isSuperOf ⟨c⟩ g limit (.cls d)
  | _, _ => some false

/-- The positions in a list of the fields that have to come after a field. -/
def followers (g : ClassGraph) (limit : Nat) (fs : List FieldId) (a : FieldId) :
    Option (List Nat) :=
  (Search.filter? (fun entry => g.precedes limit a entry.1) fs.zipIdx).map (List.map (·.2))

/-- Puts fields in order: those of ancestors first, otherwise by place in the source. -/
def sortByLocation (g : ClassGraph) (limit : Nat) (fs : List FieldId) : Option (List FieldId) :=
  (Search.map? (g.followers limit fs) fs).map fun table =>
    let key (i : Nat) : Int := ((fs[i]?.map g.field).getD Field.unknown).sortOffset
    (Placement.place fs.length key fun i => table[i]?.getD []).filterMap fun i => fs[i]?

end ClassGraph

end ClassCode
