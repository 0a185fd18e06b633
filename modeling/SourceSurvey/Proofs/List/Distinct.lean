import SourceSurvey.Extract.Statement
import Mathlib.Data.List.Induction
import Mathlib.Data.List.Nodup

/-!
# Lists without repetitions

What is left of a list when of all members with one key only the first stays. Main statements: no
two members that are left have one key, each is the first one of its key, and of two lists joined
the second one adds what is new.
-/

namespace SourceSurvey

/-! ## Members themselves -/

/-- Added to the different ones among some values, a value goes to their end unless it is there. -/
theorem eraseDups_concat {α : Type} [BEq α] [LawfulBEq α] (as : List α) (a : α) :
    (as ++ [a]).eraseDups = if a ∈ as then as.eraseDups else as.eraseDups ++ [a] := by
  rw [List.eraseDups_append, List.removeAll, List.filter_singleton]
  by_cases ha : a ∈ as
  · rw [if_pos ha, List.elem_eq_mem, decide_eq_true ha]
    exact List.append_nil _
  · rw [if_neg ha, List.elem_eq_mem, decide_eq_false ha]
    rfl

theorem nodup_eraseDups {α : Type} [BEq α] [LawfulBEq α] (as : List α) : as.eraseDups.Nodup := by
  induction as using List.reverseRecOn with
  | nil => exact List.nodup_nil
  | append_singleton as a ih =>
    rw [eraseDups_concat]
    split
    · exact ih
    · next hnew =>
      rw [← List.concat_eq_append]
      exact ih.concat (List.mem_eraseDups.not.mpr hnew)

/-! ## Members by a key -/

namespace Extract

/-- No two members that are left have one key. -/
theorem nodup_map_distinctBy {α β : Type} [BEq β] [LawfulBEq β] (key : α → β) (as : List α) :
    ((distinctBy key as).map key).Nodup := by
  induction as with
  | nil => simp [distinctBy]
  | cons a as ih =>
    simp only [distinctBy, List.map_cons, List.nodup_cons]
    constructor
    · intro hmem
      obtain ⟨b, hb, hkey⟩ := List.mem_map.mp hmem
      have hother := (List.mem_filter.mp hb).2
      simp [hkey] at hother
    · exact ih.sublist (List.filter_sublist.map key)

theorem mem_map_distinctBy {α β : Type} [BEq β] [LawfulBEq β] {key : α → β} {as : List α} {k : β} :
    k ∈ (distinctBy key as).map key ↔ k ∈ as.map key := by
  induction as with
  | nil => rfl
  | cons a as ih =>
    have hrest : (∃ b ∈ distinctBy key as, key b = k) ↔ ∃ b ∈ as, key b = k := by
      simpa only [List.mem_map] using ih
    simp only [distinctBy, List.map_cons, List.mem_cons, List.mem_map, List.mem_filter]
    constructor
    · rintro (rfl | ⟨b, ⟨hb, -⟩, rfl⟩)
      · exact Or.inl rfl
      · exact Or.inr (hrest.mp ⟨b, hb, rfl⟩)
    · rintro (rfl | hmem)
      · exact Or.inl rfl
      · by_cases hfirst : k = key a
        · exact Or.inl hfirst
        · obtain ⟨b, hb, rfl⟩ := hrest.mpr hmem
          exact Or.inr ⟨b, ⟨hb, by simpa using hfirst⟩, rfl⟩

/-- A member that is left is the first one of its key. -/
theorem exists_append_of_mem_distinctBy {α β : Type} [BEq β] [LawfulBEq β] {key : α → β}
    {as : List α} {a : α} (h : a ∈ distinctBy key as) :
    ∃ before after, as = before ++ a :: after ∧ key a ∉ before.map key := by
  induction as with
  | nil => cases h
  | cons first as ih =>
    rcases List.mem_cons.mp h with rfl | hrest
    · exact ⟨[], as, rfl, List.not_mem_nil⟩
    · obtain ⟨hmem, hkey⟩ := List.mem_filter.mp hrest
      obtain ⟨before, after, rfl, hbefore⟩ := ih hmem
      refine ⟨first :: before, after, rfl, ?_⟩
      rw [List.map_cons, List.mem_cons, not_or]
      exact ⟨by simpa using hkey, hbefore⟩

/-- Of a second list those members are left whose key the first one does not have. -/
theorem distinctBy_append {α β : Type} [BEq β] [LawfulBEq β] (key : α → β) (as bs : List α) :
    distinctBy key (as ++ bs) =
      distinctBy key as ++ (distinctBy key bs).filter fun b => !(as.map key).contains (key b) := by
  induction as with
  | nil => simp [distinctBy]
  | cons a as ih =>
    rw [List.cons_append, distinctBy, ih, distinctBy, List.filter_append, List.filter_filter,
      List.cons_append]
    congr 2
    refine List.filter_congr fun b _ => ?_
    rw [List.map_cons, List.contains_cons, Bool.not_or]

/-- Parts of a list may be left out if what they yield has a key that was yielded before. -/
theorem distinctBy_flatMap_filter {α β γ : Type} [BEq β] [LawfulBEq β] (key : α → β)
    (yields : γ → List α) (keep : γ → Bool) {cs : List γ}
    (h : ∀ before c after, cs = before ++ c :: after → keep c = false →
      ∀ a ∈ yields c, ∃ d ∈ before, key a ∈ (yields d).map key) :
    distinctBy key (cs.flatMap yields) = distinctBy key ((cs.filter keep).flatMap yields) := by
  -- what is left out depends on what comes before, so the induction takes parts from the end of a
  -- front
  suffices hfront : ∀ front back, cs = front ++ back → distinctBy key (front.flatMap yields) =
      distinctBy key ((front.filter keep).flatMap yields) from
    hfront cs [] (List.append_nil cs).symm
  intro front
  induction front using List.reverseRecOn with
  | nil => exact fun _ _ => rfl
  | append_singleton front c ih =>
    intro back hcs
    rw [List.append_assoc, List.singleton_append] at hcs
    have ih := ih (c :: back) hcs
    have hkeys : ∀ k, k ∈ (front.flatMap yields).map key ↔
        k ∈ ((front.filter keep).flatMap yields).map key := fun k => by
      rw [← mem_map_distinctBy, ih, mem_map_distinctBy]
    rw [List.filter_append, List.flatMap_append, List.flatMap_append, distinctBy_append, ih,
      List.flatMap_singleton]
    cases hkeep : keep c with
    | true =>
      rw [List.filter_cons_of_pos hkeep, List.filter_nil, List.flatMap_singleton, distinctBy_append]
      refine congrArg _ (List.filter_congr fun b _ => ?_)
      rw [Bool.eq_iff_iff]
      simp only [Bool.not_eq_true', List.contains_eq_mem, decide_eq_false_iff_not, hkeys]
    | false =>
      have hneg : ¬ keep c = true := by rw [hkeep]; exact Bool.false_ne_true
      rw [List.filter_cons_of_neg hneg, List.filter_nil, List.flatMap_nil, List.append_nil,
        List.append_right_eq_self, List.filter_eq_nil_iff]
      intro b hb
      obtain ⟨a, ha, hkey⟩ := List.mem_map.mp (mem_map_distinctBy.mp (List.mem_map_of_mem hb))
      -- a part that is left out yields nothing new
      obtain ⟨d, hd, hyielded⟩ := h front c back hcs hkeep a ha
      obtain ⟨a', ha', hkey'⟩ := List.mem_map.mp hyielded
      have hseen : key b ∈ (front.flatMap yields).map key :=
        List.mem_map.mpr ⟨a', List.mem_flatMap.mpr ⟨d, hd, ha'⟩, hkey'.trans hkey⟩
      rw [List.contains_iff_mem.mpr hseen]
      exact Bool.false_ne_true

theorem nodup_distinct (names : List String) : (distinct names).Nodup := by
  have h := nodup_map_distinctBy id names
  rwa [List.map_id] at h

theorem mem_of_mem_distinct {name : String} {names : List String} (h : name ∈ distinct names) :
    name ∈ names := by
  induction names with
  | nil => exact h
  | cons first names ih =>
    rcases List.mem_cons.mp h with rfl | hrest
    · exact List.mem_cons_self
    · exact List.mem_cons_of_mem first (ih (List.mem_filter.mp hrest).1)

end Extract

end SourceSurvey
