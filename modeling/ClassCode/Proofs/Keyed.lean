import ClassCode.Lists

/-!
# Looking up entries

Writing under a key changes what is found under that key and under no other, and writing commutes
with a change of all values.
-/

namespace ClassCode.Keyed

variable {κ α β : Type} [BEq κ]

/-- Entries with a function applied to every value. -/
def mapValues (f : α → β) (entries : List (κ × α)) : List (κ × β) :=
  entries.map fun entry => (entry.1, f entry.2)

theorem get?_cons (entry : κ × α) (entries : List (κ × α)) (key : κ) :
    get? (entry :: entries) key = if entry.1 == key then some entry.2 else get? entries key := by
  rw [get?, List.find?_cons]
  cases entry.1 == key <;> rfl

theorem get?_mapValues (f : α → β) (entries : List (κ × α)) (key : κ) :
    get? (mapValues f entries) key = (get? entries key).map f := by
  induction entries with
  | nil => rfl
  | cons entry entries ih =>
    have hcons : mapValues f (entry :: entries) = (entry.1, f entry.2) :: mapValues f entries := rfl
    rw [hcons, get?_cons, get?_cons, ih]
    split <;> rfl

/-- Under keys that are the same the same is found. -/
theorem get?_congr [EquivBEq κ] (entries : List (κ × α)) {key key' : κ}
    (h : (key == key') = true) : get? entries key = get? entries key' := by
  induction entries with
  | nil => rfl
  | cons entry entries ih => rw [get?_cons, get?_cons, ih, BEq.congr_right h]

theorem put_mapValues (f : α → β) (entries : List (κ × α)) (key : κ) (a : α) :
    put (mapValues f entries) key (f a) = mapValues f (put entries key a) := by
  induction entries with
  | nil => rfl
  | cons entry entries ih =>
    have hcons : mapValues f (entry :: entries) = (entry.1, f entry.2) :: mapValues f entries := rfl
    rw [hcons, put, put, ih]
    split <;> rfl

theorem putAll_mapValues (f : α → β) (entries pairs : List (κ × α)) :
    putAll (mapValues f entries) (mapValues f pairs) = mapValues f (putAll entries pairs) := by
  induction pairs generalizing entries with
  | nil => rfl
  | cons pair pairs ih =>
    have hstep : putAll (mapValues f entries) (mapValues f (pair :: pairs)) =
        putAll (put (mapValues f entries) pair.1 (f pair.2)) (mapValues f pairs) := rfl
    rw [hstep, put_mapValues, ih]
    rfl

/-- Writing puts a value under the written key and leaves what is found under others. -/
theorem get?_put [EquivBEq κ] (entries : List (κ × α)) (key key' : κ) (a : α) :
    get? (put entries key a) key' = if key == key' then some a else get? entries key' := by
  induction entries with
  | nil => rw [put, get?_cons]
  | cons entry entries ih =>
    rw [put]
    split
    case isTrue h =>
      -- the entry keeps its own key, which is the same as the written one
      rw [get?_cons, get?_cons, BEq.congr_left h]
      split <;> rfl
    case isFalse h =>
      rw [get?_cons, get?_cons, ih]
      split
      · rename_i hentry
        have hkey : ¬ (key == key') = true := fun hkey =>
          h (BEq.trans hentry (BEq.symm hkey))
        rw [if_neg hkey]
      · rfl

/-- A key is found after writing if it is the written one or was found before. -/
theorem isSome_get?_put [EquivBEq κ] (entries : List (κ × α)) (key key' : κ) (a : α) :
    (get? (put entries key a) key').isSome = ((key == key') || (get? entries key').isSome) := by
  rw [get?_put]
  cases key == key' <;> rfl

/-- A key is found after writing pairs if it is one of theirs or was found before. -/
theorem isSome_get?_putAll [EquivBEq κ] (entries pairs : List (κ × α)) (key : κ) :
    (get? (putAll entries pairs) key).isSome =
      (pairs.any (fun pair => pair.1 == key) || (get? entries key).isSome) := by
  induction pairs generalizing entries with
  | nil => rfl
  | cons pair pairs ih =>
    have hstep : putAll entries (pair :: pairs) = putAll (put entries pair.1 pair.2) pairs := rfl
    rw [hstep, ih, isSome_get?_put, List.any_cons]
    cases pair.1 == key <;> simp

/-- What is found after writing pairs is the value of one of them with this key, or was found
before. -/
theorem exists_of_get?_putAll [EquivBEq κ] {entries pairs : List (κ × α)} {key : κ} {a : α}
    (h : get? (putAll entries pairs) key = some a) :
    (∃ pair ∈ pairs, (pair.1 == key) = true ∧ pair.2 = a) ∨ get? entries key = some a := by
  induction pairs generalizing entries with
  | nil => exact .inr h
  | cons pair pairs ih =>
    have hstep : putAll entries (pair :: pairs) = putAll (put entries pair.1 pair.2) pairs := rfl
    rw [hstep] at h
    rcases ih h with ⟨pair', hpair', hkey, ha⟩ | hfound
    · exact .inl ⟨pair', List.mem_cons_of_mem pair hpair', hkey, ha⟩
    · rw [get?_put] at hfound
      split at hfound
      case isTrue hkey => exact .inl ⟨pair, List.mem_cons_self, hkey, Option.some.inj hfound⟩
      case isFalse => exact .inr hfound

/-! ## Tables -/

/-- Entries for given keys, whose values are those of a function. -/
def tabulate (f : κ → α) (keys : List κ) : List (κ × α) := keys.map fun key => (key, f key)

/-- In a table the value of the function is found under each of its keys, and nothing else. -/
theorem get?_tabulate [LawfulBEq κ] (f : κ → α) (keys : List κ) (key : κ) :
    get? (tabulate f keys) key = if keys.contains key then some (f key) else none := by
  induction keys with
  | nil => rfl
  | cons k keys ih =>
    have hcons : tabulate f (k :: keys) = (k, f k) :: tabulate f keys := rfl
    rw [hcons, get?_cons, ih, List.contains_cons, BEq.comm (a := key)]
    by_cases hk : k = key
    · simp [hk]
    · simp [hk]

/-- Writing the value of a function that is the same at all other keys makes a table of that
function. A new key goes to the end. -/
theorem put_tabulate [LawfulBEq κ] {f g : κ → α} {key : κ} (h : ∀ k, k ≠ key → g k = f k)
    {keys : List κ} (hkeys : keys.Nodup) :
    put (tabulate f keys) key (g key) =
      tabulate g (if keys.contains key then keys else keys ++ [key]) := by
  induction keys with
  | nil => rfl
  | cons k keys ih =>
    obtain ⟨hk, hkeys⟩ := List.nodup_cons.1 hkeys
    have hcons : tabulate f (k :: keys) = (k, f k) :: tabulate f keys := rfl
    rw [hcons, put, List.contains_cons, BEq.comm (a := key)]
    by_cases heq : k = key
    · subst heq
      have hrest : tabulate f keys = tabulate g keys :=
        List.map_congr_left fun k' hk' => by rw [h k' (fun heq => hk (heq ▸ hk'))]
      rw [beq_self_eq_true, if_pos rfl, hrest, Bool.true_or, if_pos rfl]
      rfl
    · rw [if_neg (by simpa using heq), ih hkeys, beq_false_of_ne heq, Bool.false_or, ← h k heq]
      split <;> rfl

end ClassCode.Keyed
