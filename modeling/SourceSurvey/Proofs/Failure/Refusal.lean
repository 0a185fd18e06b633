/-!
# Operations that may be refused

An operation gives a value or an error. Main statements: a sequence of operations gives a value
exactly when each of them does, and so does a traversal of a list.
-/

namespace SourceSurvey

/-! ## Sequences -/

section Sequence

variable {α β ε δ : Type} {x : Except ε α} {f : α → Except ε β}

/-- A sequence succeeds when both of its steps do. -/
theorem bind_eq_ok_iff {b : β} : x >>= f = .ok b ↔ ∃ a, x = .ok a ∧ f a = .ok b := by
  cases x with
  | error e => exact iff_of_false nofun (by rintro ⟨a, h, -⟩; cases h)
  | ok a =>
    constructor
    · intro h
      exact ⟨a, rfl, h⟩
    · rintro ⟨a', h, hf⟩
      cases h
      exact hf

theorem exists_bind_eq_ok_iff :
    (∃ b, x >>= f = .ok b) ↔ ∃ a, x = .ok a ∧ ∃ b, f a = .ok b := by
  constructor
  · rintro ⟨b, h⟩
    obtain ⟨a, ha, hb⟩ := bind_eq_ok_iff.mp h
    exact ⟨a, ha, b, hb⟩
  · rintro ⟨a, ha, b, hb⟩
    exact ⟨b, bind_eq_ok_iff.mpr ⟨a, ha, hb⟩⟩

/-- What is only wrapped up is never refused. -/
theorem exists_pure_eq_ok (a : α) : ∃ b, (pure a : Except ε α) = .ok b :=
  ⟨a, rfl⟩

/-- The wording of an error does not decide whether there is one. -/
theorem mapError_eq_ok_iff {g : ε → δ} {a : α} : x.mapError g = .ok a ↔ x = .ok a := by
  cases x with
  | error e => exact iff_of_false nofun nofun
  | ok b =>
    constructor
    · rintro ⟨⟩
      rfl
    · rintro ⟨⟩
      rfl

/-- A function on a result succeeds when there is one. -/
theorem map_eq_ok_iff {g : α → β} {b : β} : x.map g = .ok b ↔ ∃ a, x = .ok a ∧ g a = b := by
  cases x with
  | error e => exact iff_of_false nofun (by rintro ⟨a, h, -⟩; cases h)
  | ok a =>
    constructor
    · intro h
      cases h
      exact ⟨a, rfl, rfl⟩
    · rintro ⟨a', h, rfl⟩
      cases h
      rfl

end Sequence

/-! ## Traversals -/

section Traversal

variable {α β ε : Type} {f : α → Except ε β}

/-- A step over a list succeeds when it does on each element, in their order. -/
theorem mapM_eq_ok_iff {as : List α} {bs : List β} :
    as.mapM f = .ok bs ↔ as.map f = bs.map .ok := by
  induction as generalizing bs with
  | nil =>
    rw [List.mapM_nil, List.map_nil]
    cases bs with
    | nil => exact iff_of_true rfl rfl
    | cons b bs => exact iff_of_false nofun nofun
  | cons a as ih =>
    rw [List.mapM_cons, List.map_cons]
    cases ha : f a with
    | error e =>
      refine iff_of_false nofun fun h => ?_
      cases bs with
      | nil => cases h
      | cons b bs => cases (List.cons.inj h).1
    | ok b =>
      cases hrest : as.mapM f with
      | error e =>
        refine iff_of_false nofun fun h => ?_
        cases bs with
        | nil => cases h
        | cons b bs =>
          rw [ih.mpr (List.cons.inj h).2] at hrest
          cases hrest
      | ok cs =>
        rw [ih.mp hrest]
        show Except.ok (b :: cs) = Except.ok bs ↔ (b :: cs).map Except.ok = bs.map Except.ok
        rw [Except.ok.injEq]
        exact (List.map_inj_right fun _ _ => Except.ok.inj).symm

/-- What a traversal gives is what its members give. -/
theorem mem_iff_of_mapM {as : List α} {bs : List β} {b : β} (h : as.mapM f = .ok bs) :
    b ∈ bs ↔ ∃ a ∈ as, f a = .ok b := by
  have hsame : .ok b ∈ as.map f ↔ .ok b ∈ bs.map (Except.ok : β → Except ε β) := by
    rw [mapM_eq_ok_iff.mp h]
  simp only [List.mem_map, Except.ok.injEq, exists_eq_right] at hsame
  exact hsame.symm

theorem exists_of_mem_mapM {as : List α} {bs : List β} {b : β} (h : as.mapM f = .ok bs)
    (hb : b ∈ bs) : ∃ a ∈ as, f a = .ok b :=
  (mem_iff_of_mapM h).mp hb

/-- Operations that do the same on all members are traversed alike. -/
theorem mapM_congr_left {g : α → Except ε β} {as : List α} (h : ∀ a ∈ as, f a = g a) :
    as.mapM f = as.mapM g := by
  induction as with
  | nil => rfl
  | cons a as ih =>
    obtain ⟨hhead, htail⟩ := List.forall_mem_cons.mp h
    rw [List.mapM_cons, List.mapM_cons, hhead, ih htail]

/-- A traversal is refused only because one of its members is. -/
theorem exists_of_mapM_eq_error {as : List α} {e : ε} (h : as.mapM f = .error e) :
    ∃ a ∈ as, f a = .error e := by
  induction as with
  | nil => cases h
  | cons a as ih =>
    rw [List.mapM_cons] at h
    cases ha : f a with
    | error e' =>
      rw [ha] at h
      cases h
      exact ⟨a, List.mem_cons_self, ha⟩
    | ok b =>
      rw [ha] at h
      cases hrest : as.mapM f with
      | error e' =>
        rw [hrest] at h
        cases h
        obtain ⟨a', ha', hfail⟩ := ih hrest
        exact ⟨a', List.mem_cons_of_mem a ha', hfail⟩
      | ok bs =>
        rw [hrest] at h
        cases h

/-- A step over a list has results when it has one on each element. -/
theorem exists_mapM_eq_ok_iff {as : List α} :
    (∃ bs, as.mapM f = .ok bs) ↔ ∀ a ∈ as, ∃ b, f a = .ok b := by
  constructor
  · rintro ⟨bs, h⟩ a ha
    have hmem : f a ∈ bs.map .ok := by
      rw [← mapM_eq_ok_iff.mp h]
      exact List.mem_map_of_mem ha
    obtain ⟨b, -, hb⟩ := List.mem_map.mp hmem
    exact ⟨b, hb.symm⟩
  · intro h
    cases hall : as.mapM f with
    | ok bs => exact ⟨bs, rfl⟩
    | error e =>
      obtain ⟨a, ha, hfail⟩ := exists_of_mapM_eq_error hall
      obtain ⟨b, hb⟩ := h a ha
      rw [hfail] at hb
      cases hb

/-- A traversal gives members of a property exactly when each of its members gives one. -/
theorem exists_mapM_and_iff {P : β → Prop} {as : List α} :
    (∃ bs, as.mapM f = .ok bs ∧ ∀ b ∈ bs, P b) ↔ ∀ a ∈ as, ∃ b, f a = .ok b ∧ P b := by
  constructor
  · rintro ⟨bs, h, hP⟩ a ha
    obtain ⟨b, hb⟩ := exists_mapM_eq_ok_iff.mp ⟨bs, h⟩ a ha
    exact ⟨b, hb, hP b ((mem_iff_of_mapM h).mpr ⟨a, ha, hb⟩)⟩
  · intro h
    obtain ⟨bs, hbs⟩ := exists_mapM_eq_ok_iff.mpr fun a ha => (h a ha).imp fun _ hb => hb.1
    refine ⟨bs, hbs, fun b hb => ?_⟩
    obtain ⟨a, ha, hab⟩ := exists_of_mem_mapM hbs hb
    obtain ⟨b', hab', hP⟩ := h a ha
    rw [hab, Except.ok.injEq] at hab'
    exact hab' ▸ hP

theorem exists_filterAuxM_eq_ok_iff {p : α → Except ε Bool} {as : List α} (found : List α) :
    (∃ bs, List.filterAuxM p as found = .ok bs) ↔ ∀ a ∈ as, ∃ b, p a = .ok b := by
  induction as generalizing found with
  | nil => exact iff_of_true (exists_pure_eq_ok found) nofun
  | cons a as ih =>
    rw [List.filterAuxM, exists_bind_eq_ok_iff, List.forall_mem_cons]
    simp only [ih, exists_and_right]

/-- A traversal that picks members out is refused only because the test of one of them is. -/
theorem exists_filterM_eq_ok_iff {p : α → Except ε Bool} {as : List α} :
    (∃ bs, as.filterM p = .ok bs) ↔ ∀ a ∈ as, ∃ b, p a = .ok b := by
  rw [List.filterM, exists_bind_eq_ok_iff, ← exists_filterAuxM_eq_ok_iff []]
  simp only [exists_pure_eq_ok, and_true]

end Traversal

end SourceSurvey
