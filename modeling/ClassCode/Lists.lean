/-!
# Lists

What this library does with lists: entries by key, insertion into lists that are in order, and
searches that may run out of a limit.
-/

namespace ClassCode

/-!
## Entries in order of arrival

Association lists that remember the order in which their keys first arrived. Writing to a key that
is present keeps the key and its place and replaces the value; a new key goes to the end.
-/

namespace Keyed

variable {κ α : Type} [BEq κ]

/-- Writes a value under a key. -/
def put : List (κ × α) → κ → α → List (κ × α)
  | [], key, value => [(key, value)]
  | entry :: rest, key, value =>
    if entry.1 == key then (entry.1, value) :: rest else entry :: put rest key value

/-- The value under a key, if there is one. -/
def get? (entries : List (κ × α)) (key : κ) : Option α :=
  (entries.find? fun entry => entry.1 == key).map (·.2)

/-- Writes pairs one after another, starting from given entries. -/
def putAll (entries pairs : List (κ × α)) : List (κ × α) :=
  pairs.foldl (fun entries pair => put entries pair.1 pair.2) entries

end Keyed

/-!
## Sorting

Insertion into lists that are in order. Members that neither goes before the other of keep the order
in which they come.
-/

namespace Sorting

variable {α : Type}

/-- Puts a member in front of the first one that it may go before. -/
def insert (before : α → α → Bool) (a : α) : List α → List α
  | [] => [a]
  | b :: rest => if before a b then a :: b :: rest else b :: insert before a rest

/-- The members of a list in order, where `before a b` says that `a` may stand before `b`. -/
def sort (before : α → α → Bool) (as : List α) : List α := as.foldr (insert before) []

end Sorting

/-!
## Searches with a limit

Operations on lists whose steps may each run out of a limit, answering `none`. The operation as a
whole then runs out of it, too, unless it has found its result before that step.
-/

namespace Search

variable {α β : Type}

/-- The first result among alternatives. -/
def first? (search : α → Option (Option β)) : List α → Option (Option β)
  | [] => some none
  | a :: rest =>
    match search a with
    | none => none
    | some (some b) => some (some b)
    | some none => first? search rest

/-- The members that pass a test. -/
def filter? (test : α → Option Bool) : List α → Option (List α)
  | [] => some []
  | a :: rest =>
    match test a with
    | some true => (filter? test rest).map (a :: ·)
    | some false => filter? test rest
    | none => none

/-- The results of a search for every member. -/
def map? (search : α → Option β) : List α → Option (List β)
  | [] => some []
  | a :: rest =>
    match search a with
    | some b => (map? search rest).map (b :: ·)
    | none => none

/-- The result of going through a list step by step. -/
def foldl? (step : β → α → Option β) (b : β) : List α → Option β
  | [] => some b
  | a :: rest =>
    match step b a with
    | some b => foldl? step b rest
    | none => none

end Search

end ClassCode
