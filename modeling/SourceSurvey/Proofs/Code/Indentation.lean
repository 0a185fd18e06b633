import SourceSurvey.Code.Span
import Mathlib.Order.Bounds.Basic

/-!
# Bodies by indentation

The body of a header line is the longest run of lines below it that are all deeper than the header,
blank ones aside, and that does not end with a blank one. Main statement: `indentedEnd?` is the last
line of that run, and a body whose header is a line of another body ends inside that one.
-/

namespace SourceSurvey

/-! ## Extents -/

section Extent

variable {base : Nat} {lines : List Line}

theorem indentedExtent_le_length (base : Nat) (lines : List Line) :
    indentedExtent base lines ≤ lines.length := by
  induction lines with
  | nil => exact Nat.le_refl 0
  | cons line lines ih =>
    rw [indentedExtent, List.length_cons]
    split
    · split <;> omega
    · split <;> omega

/-- The lines of a body that are not blank are deeper than its header. -/
theorem lt_indentWidth_of_lt_indentedExtent {k : Nat} (hk : k < indentedExtent base lines)
    {line : Line} (hline : lines[k]? = some line) (hfilled : Text.isBlank line = false) :
    base < Text.indentWidth line := by
  induction lines generalizing k with
  | nil => cases hline
  | cons first lines ih =>
    rw [indentedExtent] at hk
    -- blank lines count only once a filled one follows, hence the case of its own
    by_cases hblank : Text.isBlank first = true
    · rw [if_pos hblank] at hk
      cases k with
      | zero =>
        rw [List.getElem?_cons_zero, Option.some_inj] at hline
        rw [hline, hfilled] at hblank
        cases hblank
      | succ k =>
        rw [List.getElem?_cons_succ] at hline
        refine ih ?_ hline
        split at hk <;> omega
    · rw [if_neg hblank] at hk
      by_cases hdeep : Text.indentWidth first ≤ base
      · rw [if_pos hdeep] at hk
        omega
      · rw [if_neg hdeep] at hk
        cases k with
        | zero =>
          rw [List.getElem?_cons_zero, Option.some_inj] at hline
          rw [← hline]
          omega
        | succ k =>
          rw [List.getElem?_cons_succ] at hline
          exact ih (by omega) hline

/-- The last line of a body is not blank. -/
theorem isBlank_eq_false_of_indentedExtent_eq_succ {n : Nat}
    (h : indentedExtent base lines = n + 1) {line : Line} (hline : lines[n]? = some line) :
    Text.isBlank line = false := by
  induction lines generalizing n with
  | nil => cases hline
  | cons first lines ih =>
    rw [indentedExtent] at h
    by_cases hblank : Text.isBlank first = true
    · rw [if_pos hblank] at h
      cases hextent : indentedExtent base lines with
      | zero => simp [hextent] at h
      -- the extent counts a blank line only because lines of the body follow it
      | succ m =>
        simp only [hextent] at h
        obtain rfl : n = m + 1 := by omega
        rw [List.getElem?_cons_succ] at hline
        exact ih hextent hline
    · rw [if_neg hblank] at h
      by_cases hdeep : Text.indentWidth first ≤ base
      · rw [if_pos hdeep] at h
        omega
      · rw [if_neg hdeep] at h
        cases n with
        | zero =>
          rw [List.getElem?_cons_zero, Option.some_inj] at hline
          rw [← hline]
          simpa using hblank
        | succ n =>
          rw [List.getElem?_cons_succ] at hline
          exact ih (by omega) hline

/-- A body takes in every line that is not blank up to which all are deep enough. -/
theorem lt_indentedExtent {n : Nat} {last : Line} (hlast : lines[n]? = some last)
    (hfilled : Text.isBlank last = false)
    (hdeep : ∀ k ≤ n, ∀ line, lines[k]? = some line → Text.isBlank line = false →
      base < Text.indentWidth line) :
    n < indentedExtent base lines := by
  induction lines generalizing n with
  | nil => cases hlast
  | cons first lines ih =>
    rw [indentedExtent]
    cases n with
    | zero =>
      rw [List.getElem?_cons_zero, Option.some_inj] at hlast
      have hwidth := hdeep 0 (Nat.le_refl 0) first rfl (by rw [hlast, hfilled])
      rw [if_neg (by simp [hlast, hfilled]), if_neg (by omega)]
      omega
    | succ n =>
      rw [List.getElem?_cons_succ] at hlast
      have hrest : n < indentedExtent base lines :=
        ih hlast fun k hk line hline => hdeep (k + 1) (by omega) line hline
      by_cases hblank : Text.isBlank first = true
      · rw [if_pos hblank]
        split <;> omega
      · have hwidth := hdeep 0 (Nat.zero_le _) first rfl (by simpa using hblank)
        rw [if_neg hblank, if_neg (by omega)]
        omega

end Extent

/-! ## Ends -/

/-- The body of the header line may end on the line with the index `last`. -/
structure EndsIndentedBody (lines : List Line) (header : Nat) (isLine : header < lines.length)
    (last : Nat) : Prop where
  header_le : header ≤ last
  last_lt : last < lines.length
  deeper : ∀ i, header < i → (hi : i ≤ last) → Text.isBlank lines[i] = false →
    Text.indentWidth lines[header] < Text.indentWidth lines[i]
  filled : last = header ∨ Text.isBlank lines[last] = false

section Ends

variable {lines : List Line} {header : Nat}

/-- A body ends as many lines below its header as it extends over. -/
theorem indentedEnd?_eq_some (hheader : header < lines.length) :
    indentedEnd? lines header (header + 1) =
      some (header + indentedExtent (Text.indentWidth lines[header]) (lines.drop (header + 1))) := by
  rw [indentedEnd?, List.getElem?_eq_getElem hheader, Option.map_some]
  dsimp only
  congr 1
  split <;> omega

/-- The extent of a body ends the body. -/
theorem endsIndentedBody_indentedExtent (hheader : header < lines.length) :
    EndsIndentedBody lines header hheader
      (header + indentedExtent (Text.indentWidth lines[header]) (lines.drop (header + 1))) := by
  have hlong := indentedExtent_le_length (Text.indentWidth lines[header]) (lines.drop (header + 1))
  rw [List.length_drop] at hlong
  refine ⟨Nat.le_add_right _ _, by omega, fun i hi hle hfilled => ?_, ?_⟩
  · have hline : (lines.drop (header + 1))[i - (header + 1)]? = some lines[i] := by
      rw [List.getElem?_drop, List.getElem?_eq_some_iff]
      exact ⟨by omega, by congr 1; omega⟩
    exact lt_indentWidth_of_lt_indentedExtent (by omega) hline hfilled
  · rcases Nat.eq_zero_or_pos
      (indentedExtent (Text.indentWidth lines[header]) (lines.drop (header + 1))) with hzero | hpos
    · exact .inl (by omega)
    · refine .inr (isBlank_eq_false_of_indentedExtent_eq_succ
        (Nat.sub_add_cancel hpos).symm ?_)
      rw [List.getElem?_drop, List.getElem?_eq_some_iff]
      exact ⟨by omega, by congr 1; omega⟩

namespace EndsIndentedBody

/-- No body ends below its extent. -/
theorem le_indentedExtent {hheader : header < lines.length} {last : Nat}
    (h : EndsIndentedBody lines header hheader last) :
    last ≤ header +
      indentedExtent (Text.indentWidth lines[header]) (lines.drop (header + 1)) := by
  obtain ⟨hle, hlt, hdeep, hlast⟩ := h
  rcases hlast with rfl | hfilled
  · exact Nat.le_add_right _ _
  by_cases hempty : last = header
  · omega
  have hin : (lines.drop (header + 1))[last - (header + 1)]? = some lines[last] := by
    rw [List.getElem?_drop, List.getElem?_eq_some_iff]
    exact ⟨by omega, by congr 1; omega⟩
  have hextent : last - (header + 1) <
      indentedExtent (Text.indentWidth lines[header]) (lines.drop (header + 1)) := by
    refine lt_indentedExtent hin hfilled fun k hk line hline hnot => ?_
    rw [List.getElem?_drop, List.getElem?_eq_some_iff] at hline
    obtain ⟨hkin, rfl⟩ := hline
    exact hdeep (header + 1 + k) (by omega) (by omega) hnot
  omega

/-- A body whose header is a line of another body continues that one. -/
theorem of_nested {inner last innerLast : Nat} {hheader : header < lines.length}
    {hinner : inner < lines.length} (houter : EndsIndentedBody lines header hheader last)
    (hbelow : header < inner) (hle : inner ≤ last) (hfilled : Text.isBlank lines[inner] = false)
    (h : EndsIndentedBody lines inner hinner innerLast) :
    EndsIndentedBody lines header hheader innerLast := by
  have hdeep := houter.deeper inner hbelow hle hfilled
  refine ⟨hbelow.le.trans h.header_le, h.last_lt, fun i hi hiLast hiFilled => ?_, .inr ?_⟩
  · by_cases hwithin : i ≤ last
    · exact houter.deeper i hi hwithin hiFilled
    · exact hdeep.trans (h.deeper i (by omega) hiLast hiFilled)
  · obtain ⟨-, -, -, hinnerLast⟩ := h
    rcases hinnerLast with rfl | hlast
    · exact hfilled
    · exact hlast

end EndsIndentedBody

/-- The extent is the last line that can end the body. -/
theorem isGreatest_indentedExtent (hheader : header < lines.length) :
    IsGreatest {last | EndsIndentedBody lines header hheader last}
      (header + indentedExtent (Text.indentWidth lines[header]) (lines.drop (header + 1))) :=
  ⟨endsIndentedBody_indentedExtent hheader, fun _ h => h.le_indentedExtent⟩

/-- The body of a line reaches as far as its lines are deeper, and the bodies of its own lines do not
reach further. -/
theorem indentedEnd?_maximal_and_nested (hheader : header < lines.length) :
    ∃ last, indentedEnd? lines header (header + 1) = some last ∧
      IsGreatest {last | EndsIndentedBody lines header hheader last} last ∧
      ∀ inner, header < inner → (hinner : inner < lines.length) → inner ≤ last →
        Text.isBlank lines[inner] = false →
        ∃ innerLast, indentedEnd? lines inner (inner + 1) = some innerLast ∧ innerLast ≤ last := by
  refine ⟨_, indentedEnd?_eq_some hheader, isGreatest_indentedExtent hheader, ?_⟩
  intro inner hbelow hinner hle hfilled
  refine ⟨_, indentedEnd?_eq_some hinner, ?_⟩
  -- what ends the inner body may end the outer one, which is the longest
  have hends := (endsIndentedBody_indentedExtent hheader).of_nested hbelow hle hfilled
    (endsIndentedBody_indentedExtent hinner)
  exact hends.le_indentedExtent

/-- A function in a function, with a blank line in either body and one behind both. -/
def indentedTwice : List Line :=
  ["def f():", "", "    def g():", "        a", "", "        b", "", "x"].map String.toList

theorem indentedEnd?_maximal_and_nested_twice :
    0 < indentedTwice.length ∧ indentedEnd? indentedTwice 0 1 = some 5 ∧
      IsGreatest {last | EndsIndentedBody indentedTwice 0 (by decide) last} 5 ∧
      ∃ innerLast, indentedEnd? indentedTwice 2 3 = some innerLast ∧ innerLast ≤ 5 := by
  have hend : indentedEnd? indentedTwice 0 1 = some 5 := by decide
  obtain ⟨last, hlast, hgreatest, hnested⟩ :=
    indentedEnd?_maximal_and_nested (show 0 < indentedTwice.length by decide)
  obtain rfl : 5 = last := Option.some_inj.mp (hend.symm.trans hlast)
  exact ⟨by decide, hend, hgreatest, hnested 2 (by decide) (by decide) (by decide) (by decide)⟩

end Ends

end SourceSurvey
