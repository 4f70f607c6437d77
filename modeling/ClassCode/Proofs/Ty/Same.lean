import ClassCode.Ty

/-!
# Sameness of types

Types are the same, written `==`, when they differ in display names at most. This is an
equivalence, and one can do induction on two types that are the same, which have one shape
(`beq_induct`). So they refer to the same class and are nested equally deep.
-/

namespace ClassCode.Ty

theorem beq_eq_same (a b : Ty) : (a == b) = same a b := rfl

mutual

theorem same_refl : ∀ a : Ty, same a a = true
  | .builtin _ _ => by simp [same]
  | .param _ => by simp [same]
  | .boundedParam _ a => by simp [same, same_refl a]
  | .cls _ => by simp [same]
  | .inst _ as => by simp [same, sameAll_refl as]
  | .plain _ _ => by simp [same]

theorem sameAll_refl : ∀ as : List Ty, sameAll as as = true
  | [] => rfl
  | a :: as => by simp [sameAll, same_refl a, sameAll_refl as]

end

mutual

theorem same_symm : ∀ {a b : Ty}, same a b = true → same b a = true
  | .builtin _ _, b, h => by cases b <;> simp_all [same]
  | .param _, b, h => by cases b <;> simp_all [same]
  | .boundedParam _ a, b, h => by
    cases b <;> simp only [same, Bool.and_eq_true, beq_iff_eq, reduceCtorEq] at h ⊢
    exact ⟨h.1.symm, same_symm h.2⟩
  | .cls _, b, h => by cases b <;> simp_all [same]
  | .inst _ as, b, h => by
    cases b <;> simp only [same, Bool.and_eq_true, beq_iff_eq, reduceCtorEq] at h ⊢
    exact ⟨h.1.symm, sameAll_symm h.2⟩
  | .plain _ _, b, h => by cases b <;> simp_all [same]

theorem sameAll_symm : ∀ {as bs : List Ty}, sameAll as bs = true → sameAll bs as = true
  | [], bs, h => by cases bs <;> simp_all [sameAll]
  | a :: as, bs, h => by
    cases bs <;> simp only [sameAll, Bool.and_eq_true, reduceCtorEq] at h ⊢
    exact ⟨same_symm h.1, sameAll_symm h.2⟩

end

mutual

theorem same_trans : ∀ {a b c : Ty}, same a b = true → same b c = true → same a c = true
  | .builtin _ _, b, c, h, h' => by cases b <;> cases c <;> simp_all [same]
  | .param _, b, c, h, h' => by cases b <;> cases c <;> simp_all [same]
  | .boundedParam _ a, b, c, h, h' => by
    cases b <;> cases c <;>
      simp only [same, Bool.and_eq_true, beq_iff_eq, reduceCtorEq] at h h' ⊢
    exact ⟨h.1.trans h'.1, same_trans h.2 h'.2⟩
  | .cls _, b, c, h, h' => by cases b <;> cases c <;> simp_all [same]
  | .inst _ as, b, c, h, h' => by
    cases b <;> cases c <;>
      simp only [same, Bool.and_eq_true, beq_iff_eq, reduceCtorEq] at h h' ⊢
    exact ⟨h.1.trans h'.1, sameAll_trans h.2 h'.2⟩
  | .plain _ _, b, c, h, h' => by cases b <;> cases c <;> simp_all [same]

theorem sameAll_trans : ∀ {as bs cs : List Ty},
    sameAll as bs = true → sameAll bs cs = true → sameAll as cs = true
  | [], bs, cs, h, h' => by cases bs <;> cases cs <;> simp_all [sameAll]
  | a :: as, bs, cs, h, h' => by
    cases bs <;> cases cs <;> simp only [sameAll, Bool.and_eq_true, reduceCtorEq] at h h' ⊢
    exact ⟨same_trans h.1 h'.1, sameAll_trans h.2 h'.2⟩

end

instance : EquivBEq Ty where
  rfl := same_refl _
  symm := same_symm
  trans := same_trans

/-! ## Induction on sameness -/

theorem boundedParam_beq (n : String) {a b : Ty} (h : (a == b) = true) :
    (Ty.boundedParam n a == .boundedParam n b) = true := by
  rw [beq_eq_same, same, Bool.and_eq_true]
  exact ⟨BEq.rfl, h⟩

theorem beq_eq_sameAll (as bs : List Ty) : (as == bs) = sameAll as bs := by
  induction as generalizing bs with
  | nil => cases bs <;> rfl
  | cons a as ih =>
    cases bs with
    | nil => rfl
    | cons b bs => rw [List.cons_beq_cons, ih, sameAll, beq_eq_same]

theorem inst_beq (c : ClassId) {as bs : List Ty} (h : (as == bs) = true) :
    (Ty.inst c as == .inst c bs) = true := by
  rw [beq_eq_same, same, Bool.and_eq_true, ← beq_eq_sameAll]
  exact ⟨BEq.rfl, h⟩

/-- Types that are the same have the same shape: they are builtins of one kind, one type parameter
or one class, type parameters of one name with bounds that are the same, instantiations of one class
with type arguments that are the same, or one bare type. -/
@[elab_as_elim]
theorem beq_induct {motive : ∀ a b : Ty, (a == b) = true → Prop}
    (builtin : ∀ k m n h, motive (.builtin k m) (.builtin k n) h)
    (param : ∀ n h, motive (.param n) (.param n) h)
    (boundedParam : ∀ n a b (h : (a == b) = true), motive a b h →
      motive (.boundedParam n a) (.boundedParam n b) (boundedParam_beq n h))
    (cls : ∀ c h, motive (.cls c) (.cls c) h)
    (inst : ∀ c as bs (h : (as == bs) = true), (∀ a ∈ as, ∀ b h, motive a b h) →
      motive (.inst c as) (.inst c bs) (inst_beq c h))
    (plain : ∀ i m n h, motive (.plain i m) (.plain i n) h) (a b : Ty) (h : (a == b) = true) :
    motive a b h := by
  have hsame : same a b = true := h
  induction a using induct generalizing b with
  | builtin k m =>
    cases b with
    | builtin l n =>
      rw [same, beq_iff_eq] at hsame
      subst hsame
      exact builtin k m n h
    | _ => cases h
  | param m =>
    cases b with
    | param n =>
      rw [same, beq_iff_eq] at hsame
      subst hsame
      exact param m h
    | _ => cases h
  | boundedParam m a ih =>
    cases b with
    | boundedParam n b =>
      rw [same, Bool.and_eq_true, beq_iff_eq] at hsame
      obtain ⟨rfl, hbound⟩ := hsame
      exact boundedParam m a b hbound (ih b hbound hbound)
    | _ => cases h
  | cls c =>
    cases b with
    | cls d =>
      rw [same, beq_iff_eq] at hsame
      subst hsame
      exact cls c h
    | _ => cases h
  | inst c as ih =>
    cases b with
    | inst d bs =>
      rw [same, Bool.and_eq_true, beq_iff_eq, ← beq_eq_sameAll] at hsame
      obtain ⟨rfl, hargs⟩ := hsame
      exact inst c as bs hargs fun a ha b hab => ih a ha b hab hab
    | _ => cases h
  | plain i m =>
    cases b with
    | plain j n =>
      rw [same, beq_iff_eq] at hsame
      subst hsame
      exact plain i m n h
    | _ => cases h

/-! ## Lists of types -/

/-- Lists that are the same can be gone through together. -/
@[elab_as_elim]
theorem beq_list_induct {motive : ∀ as bs : List Ty, (as == bs) = true → Prop}
    (nil : motive [] [] rfl)
    (cons : ∀ a b as bs (h : (a == b) = true) (hs : (as == bs) = true), motive as bs hs →
      motive (a :: as) (b :: bs) (by rw [List.cons_beq_cons, h, hs]; rfl))
    (as bs : List Ty) (h : (as == bs) = true) : motive as bs h := by
  induction as generalizing bs with
  | nil =>
    cases bs with
    | nil => exact nil
    | cons b bs => cases h
  | cons a as ih =>
    cases bs with
    | nil => cases h
    | cons b bs =>
      have hboth := h
      rw [List.cons_beq_cons, Bool.and_eq_true] at hboth
      exact cons a b as bs hboth.1 hboth.2 (ih bs hboth.2)

/-- Every member of a list has the same one in a list that is the same. -/
theorem exists_mem_beq {as bs : List Ty} (h : (as == bs) = true) {a : Ty} (ha : a ∈ as) :
    ∃ b ∈ bs, (a == b) = true := by
  induction as, bs, h using beq_list_induct with
  | nil => cases ha
  | cons c d as bs h hs ih =>
    rcases List.mem_cons.1 ha with rfl | ha
    · exact ⟨d, by simp, h⟩
    · obtain ⟨b, hb, hab⟩ := ih ha
      exact ⟨b, by simp [hb], hab⟩

/-- Functions that give the same types for the members of a list give lists that are the same. -/
theorem map_beq_map {f f' : Ty → Ty} {ts : List Ty} (h : ∀ t ∈ ts, (f t == f' t) = true) :
    (ts.map f == ts.map f') = true := by
  induction ts with
  | nil => rfl
  | cons t ts ih =>
    rw [List.map_cons, List.map_cons, List.cons_beq_cons, Bool.and_eq_true]
    exact ⟨h t List.mem_cons_self, ih fun u hu => h u (List.mem_cons_of_mem t hu)⟩

/-- A function that does not tell types apart that are the same gives equal lists for lists that
are the same. -/
theorem map_eq_map_of_beq {α : Type} {f : Ty → α} {as bs : List Ty}
    (h : ∀ a ∈ as, ∀ b, (a == b) = true → f a = f b) (hab : (as == bs) = true) :
    as.map f = bs.map f := by
  induction as, bs, hab using beq_list_induct with
  | nil => rfl
  | cons a b as bs hab _ ih =>
    rw [List.map_cons, List.map_cons, h a List.mem_cons_self b hab,
      ih fun c hc => h c (List.mem_cons_of_mem a hc)]

/-- Functions that give the same types for types that are the same give lists that are the same for
lists that are the same. -/
theorem map_beq_map_of_beq {f f' : Ty → Ty} {as bs : List Ty}
    (h : ∀ a ∈ as, ∀ b, (a == b) = true → (f a == f' b) = true) (hab : (as == bs) = true) :
    (as.map f == bs.map f') = true := by
  induction as, bs, hab using beq_list_induct with
  | nil => rfl
  | cons a b as bs hab _ ih =>
    rw [List.map_cons, List.map_cons, List.cons_beq_cons, Bool.and_eq_true]
    exact ⟨h a List.mem_cons_self b hab, ih fun c hc => h c (List.mem_cons_of_mem a hc)⟩

/-! ## What types that are the same have in common -/

/-- Types that are the same refer to the same class. -/
theorem definition?_of_beq {a b : Ty} (h : (a == b) = true) : a.definition? = b.definition? := by
  induction a, b, h using beq_induct with
  | _ => rfl

theorem nestingAll_congr {as bs : List Ty} (h : as.map nesting = bs.map nesting) :
    nestingAll as = nestingAll bs := by
  have hmax : ∀ ts, nestingAll ts = (ts.map nesting).foldr max 0 := by
    intro ts
    induction ts with
    | nil => rfl
    | cons t ts ih => rw [nestingAll, ih, List.map_cons, List.foldr_cons]
  rw [hmax, hmax, h]

/-- Types that are the same are nested equally deep. -/
theorem nesting_eq_of_beq {a b : Ty} (h : (a == b) = true) : a.nesting = b.nesting := by
  induction a, b, h using beq_induct with
  | boundedParam n a b _ ih => rw [nesting, nesting, ih]
  | inst c as bs hargs ih => rw [nesting, nesting, nestingAll_congr (map_eq_map_of_beq ih hargs)]
  | _ => rfl

/-! ## Members -/

/-- Whether two lists have the same types as members, in any order and number. -/
def SameMembers (as bs : List Ty) : Prop := ∀ t : Ty, as.contains t = bs.contains t

/-- Two lists have the same members if each has the members of the other. -/
theorem sameMembers_of_contains {as bs : List Ty} (h : ∀ a ∈ as, bs.contains a = true)
    (h' : ∀ b ∈ bs, as.contains b = true) : SameMembers as bs := by
  have hle : ∀ {cs ds : List Ty}, (∀ c ∈ cs, ds.contains c = true) → ∀ t,
      cs.contains t = true → ds.contains t = true := by
    intro cs ds hcs t ht
    obtain ⟨c, hc, htc⟩ := List.contains_iff_exists_mem_beq.1 ht
    obtain ⟨d, hd, hcd⟩ := List.contains_iff_exists_mem_beq.1 (hcs c hc)
    exact List.contains_iff_exists_mem_beq.2 ⟨d, hd, BEq.trans htc hcd⟩
  intro t
  rw [Bool.eq_iff_iff]
  exact ⟨hle h t, hle h' t⟩

theorem SameMembers.symm {as bs : List Ty} (h : SameMembers as bs) : SameMembers bs as :=
  fun t => (h t).symm

/-- A list with the same members as the empty one is empty. -/
theorem SameMembers.eq_nil {bs : List Ty} (h : SameMembers [] bs) : bs = [] := by
  refine List.eq_nil_iff_forall_not_mem.2 fun b hb => ?_
  have hcontains := h b
  rw [List.contains_nil, eq_comm, ← Bool.not_eq_true] at hcontains
  exact hcontains (List.contains_iff_exists_mem_beq.2 ⟨b, hb, BEq.rfl⟩)

theorem SameMembers.eq_nil_iff {as bs : List Ty} (h : SameMembers as bs) :
    as = [] ↔ bs = [] := by
  constructor
  · rintro rfl
    exact h.eq_nil
  · rintro rfl
    exact h.symm.eq_nil

/-- Whether no two members of a list are the same. -/
def Distinct (ts : List Ty) : Prop := ts.Pairwise fun a b => (a == b) = false

/-- A type that a list does not have may be added to it. -/
theorem Distinct.concat {ts : List Ty} (h : Distinct ts) {t : Ty}
    (hnew : ¬ ts.contains t = true) : Distinct (ts ++ [t]) := by
  refine List.pairwise_append.2 ⟨h, List.pairwise_singleton _ t, fun r hr s hs => ?_⟩
  rw [List.mem_singleton.1 hs, ← Bool.not_eq_true]
  exact fun hrt => hnew (List.contains_iff_exists_mem_beq.2 ⟨r, hr, BEq.symm hrt⟩)

theorem contains_of_subset {as bs : List Ty} (h : as ⊆ bs) {t : Ty} (ht : as.contains t = true) :
    bs.contains t = true := by
  rw [List.contains_iff_exists_mem_beq] at ht ⊢
  obtain ⟨a, ha, hta⟩ := ht
  exact ⟨a, h ha, hta⟩

end ClassCode.Ty
