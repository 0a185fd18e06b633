import SourceSurvey.Text.LetterCase

/-!
# Lower case around a separator

The lower case of a character depends on what stands around it only for a capital sigma, and no
further than to the ends of its word. Main statements: the parts of a text between slashes have their
lower case each for itself, and no slash comes about by lower case.
-/

namespace SourceSurvey.Text

variable {c : Char} {text : List Char}

/-- A character that words end at and that is its own lower case. -/
structure SeparatesWords (c : Char) : Prop where
  isMet : inRanges Table.caseIgnorable c.toNat = false
  isUncased : inRanges Table.cased c.toNat = false
  lower : lowerChar c = [c]

theorem separatesWords_slash : SeparatesWords '/' :=
  ⟨by decide +kernel, by decide +kernel, by decide⟩

theorem SeparatesWords.ne_sigma (h : SeparatesWords c) : (c.toNat == 0x3A3) = false := by
  rw [beq_eq_false_iff_ne]
  intro hsigma
  have hcased : inRanges Table.cased 0x3A3 = true := by decide +kernel
  rw [← hsigma, h.isUncased] at hcased
  cases hcased

/-- Nothing is met past the end of a word. -/
theorem meetsCased_append_cons (h : SeparatesWords c) (front rest : List Char) :
    meetsCased (front ++ c :: rest) = meetsCased front := by
  have hmet : (c :: rest).find? (fun d => !inRanges Table.caseIgnorable d.toNat) = some c :=
    List.find?_cons_of_pos (by rw [h.isMet]; rfl)
  unfold meetsCased
  rw [List.find?_append, hmet]
  cases front.find? fun d => !inRanges Table.caseIgnorable d.toNat with
  | none => exact h.isUncased
  | some d => rfl

theorem meetsCased_cons (c : Char) (rest : List Char) : meetsCased (c :: rest) =
    if inRanges Table.caseIgnorable c.toNat then meetsCased rest
    else inRanges Table.cased c.toNat := by
  unfold meetsCased
  rw [List.find?_cons]
  cases inRanges Table.caseIgnorable c.toNat <;> rfl

/-- What stands before a text changes its lower case only by what is met there. -/
theorem lowerAfter_congr {before before' : List Char}
    (h : meetsCased before = meetsCased before') (text : List Char) :
    lowerAfter before text = lowerAfter before' text := by
  induction text generalizing before before' with
  | nil => rfl
  | cons c cs ih =>
    have hnext : meetsCased (c :: before) = meetsCased (c :: before') := by
      rw [meetsCased_cons, meetsCased_cons, h]
    rw [lowerAfter, lowerAfter, h, ih hnext]

/-- What stands before a separator is lowered on its own. -/
theorem lowerAfter_append_cons (h : SeparatesWords c) (before front rest : List Char) :
    lowerAfter before (front ++ c :: rest) = lowerAfter before front ++ c :: lower rest := by
  induction front generalizing before with
  | nil =>
    -- past the separator nothing of the front is met, as at the start of a text
    have hend : meetsCased (c :: before) = meetsCased [] := meetsCased_append_cons h [] before
    show lowerAfter before (c :: rest) = c :: lower rest
    rw [lowerAfter, h.ne_sigma, if_neg Bool.false_ne_true, h.lower, lowerAfter_congr hend]
    rfl
  | cons d ds ih =>
    rw [List.cons_append, lowerAfter, lowerAfter, meetsCased_append_cons h, ih, List.append_assoc]

/-- Two texts with a separator between them are lowered one by one. -/
theorem lower_append_cons (h : SeparatesWords c) (front rest : List Char) :
    lower (front ++ c :: rest) = lower front ++ c :: lower rest :=
  lowerAfter_append_cons h [] front rest

/-- Each character of a text in lower case comes from one of the text. -/
theorem exists_of_mem_lowerAfter {before : List Char} (h : c ∈ lowerAfter before text) :
    ∃ d ∈ text, c ∈ lowerChar d ∨ c = Char.ofNat 0x3C2 ∨ c = Char.ofNat 0x3C3 := by
  induction text generalizing before with
  | nil => cases h
  | cons d ds ih =>
    rw [lowerAfter] at h
    rcases List.mem_append.mp h with hhere | hrest
    · refine ⟨d, List.mem_cons_self, ?_⟩
      split at hhere
      · split at hhere
        · exact .inr (.inl (List.mem_singleton.mp hhere))
        · exact .inr (.inr (List.mem_singleton.mp hhere))
      · exact .inl hhere
    · obtain ⟨e, he, hc⟩ := ih hrest
      exact ⟨e, List.mem_cons_of_mem d he, hc⟩

theorem slash_lt_lowerShifts : ∀ e ∈ Table.lowerShifts, (47 : Int) < e.1 + e.2.2.2 := by
  decide +kernel

/-- What is beyond ASCII stays beyond the slash in lower case. -/
theorem slash_lt_shiftOf {code : Nat} (h : 128 ≤ code) :
    (47 : Int) < code + shiftOf Table.lowerShifts code := by
  unfold shiftOf
  split
  · next first last step shift hfound =>
    have hmeets := List.find?_some hfound
    have hentry := slash_lt_lowerShifts _ (List.mem_of_find?_eq_some hfound)
    simp only [Bool.and_eq_true, decide_eq_true_eq] at hmeets hentry
    omega
  · omega

theorem shifted_ne_slash (h : 128 ≤ c.toNat) : shifted Table.lowerShifts c ≠ '/' := by
  intro hslash
  have hbeyond := slash_lt_shiftOf h
  by_cases hvalid : (c.toNat + shiftOf Table.lowerShifts c.toNat).toNat.isValidChar
  · rw [shifted, Char.ofNat, dif_pos hvalid] at hslash
    have hcode : (c.toNat + shiftOf Table.lowerShifts c.toNat).toNat = 47 :=
      congrArg Char.toNat hslash
    omega
  · rw [shifted, Char.ofNat, dif_neg hvalid] at hslash
    exact absurd hslash (by decide)

/-- Only a slash becomes one when it is lowered. -/
theorem eq_slash_of_mem_lowerChar (h : '/' ∈ lowerChar c) : c = '/' := by
  have hascii : ∀ n < 128, (Char.ofNat n).toLower = '/' → n = 47 := by decide
  unfold lowerChar at h
  split at h
  · next hsmall =>
    have hlower : (Char.ofNat c.toNat).toLower = '/' := by
      rw [Char.ofNat_toNat]
      exact (List.mem_singleton.mp h).symm
    rw [← Char.ofNat_toNat c, hascii c.toNat hsmall hlower]
  · next hlarge =>
    split at h
    · exact absurd h (by decide)
    · exact absurd (List.mem_singleton.mp h).symm (shifted_ne_slash (Nat.le_of_not_lt hlarge))

/-- No slash comes about by lower case. -/
theorem slash_mem_of_mem_lower (h : '/' ∈ lower text) : '/' ∈ text := by
  obtain ⟨d, hd, hlower | hsigma | hsigma⟩ := exists_of_mem_lowerAfter h
  · rwa [← eq_slash_of_mem_lowerChar hlower]
  · cases hsigma
  · cases hsigma

end SourceSurvey.Text
