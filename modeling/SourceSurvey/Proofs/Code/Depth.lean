import SourceSurvey.Proofs.Place.Number
import Mathlib.Order.Bounds.Basic

/-!
# Brace depths as a reflected walk

Line by line the surplus of opening over closing braces walks up and down. The depth at the start of
a line follows that walk, but is held at zero where the walk would take it below. Main statement: the
depth is the distance of the walk from the lowest point that it has come to, so a closing brace too
many lowers that point and nothing else.
-/

namespace SourceSurvey

/-- Opening less closing braces of the first lines, as many as given. -/
def braceSurplus (lines : List Line) (count : Nat) : Int :=
  (openBraces (lines.take count).flatten : Int) - closeBraces (lines.take count).flatten

/-- The surpluses before a line and at its start. -/
def surplusesUpTo (lines : List Line) (index : Nat) : Set Int :=
  {surplus | ∃ count ≤ index, braceSurplus lines count = surplus}

section Depth

variable {lines : List Line} {index : Nat}

theorem braceSurplus_zero (lines : List Line) : braceSurplus lines 0 = 0 := rfl

theorem braceSurplus_succ (h : index < lines.length) :
    braceSurplus lines (index + 1) =
      braceSurplus lines index + openBraces lines[index] - closeBraces lines[index] := by
  have hlines : lines.take (index + 1) = lines.take index ++ [lines[index]] := by
    rw [List.take_append_getElem]
  unfold braceSurplus openBraces closeBraces
  rw [hlines, List.flatten_append, List.flatten_singleton, List.count_append, List.count_append]
  omega

theorem length_depthsOfLines (lines : List Line) : (depthsOfLines lines).length = lines.length :=
  length_depthsOfLinesFrom 0 lines

/-- The walk goes on from a line as it would from there with the depth that it has come to. -/
theorem drop_depthsOfLinesFrom {start depth : Nat}
    (hdepth : (depthsOfLinesFrom start lines)[index]? = some depth) :
    (depthsOfLinesFrom start lines).drop index = depthsOfLinesFrom depth (lines.drop index) := by
  induction lines generalizing start index with
  | nil => cases hdepth
  | cons line lines ih =>
    cases index with
    | zero =>
      rw [depthsOfLinesFrom, List.getElem?_cons_zero, Option.some_inj] at hdepth
      rw [hdepth]
      rfl
    | succ index =>
      rw [depthsOfLinesFrom, List.getElem?_cons_succ] at hdepth
      exact ih hdepth

/-- One step of the walk: a line adds its opening braces and takes its closing ones, down to zero.
-/
theorem getElem?_depthsOfLines_succ {depth : Nat}
    (hdepth : (depthsOfLines lines)[index]? = some depth) (hnext : index + 1 < lines.length) :
    (depthsOfLines lines)[index + 1]? =
      some (depth + openBraces lines[index] - closeBraces lines[index]) := by
  have htwo : lines.drop index = lines[index] :: lines[index + 1] :: lines.drop (index + 2) := by
    rw [List.drop_eq_getElem_cons (Nat.lt_of_succ_lt hnext), List.drop_eq_getElem_cons hnext]
  have hdrop := drop_depthsOfLinesFrom hdepth
  rw [htwo] at hdrop
  rw [← List.getElem?_drop, depthsOfLines, hdrop]
  rfl

/-- The lowest point of the walk up to a line lies as far below its end as the depth says. -/
theorem exists_isLeast_surplusesUpTo (h : index < lines.length) :
    ∃ depth least, (depthsOfLines lines)[index]? = some depth ∧
      IsLeast (surplusesUpTo lines index) least ∧
      (depth : Int) = braceSurplus lines index - least := by
  induction index with
  | zero =>
    refine ⟨0, 0, ?_, ⟨⟨0, Nat.le_refl 0, braceSurplus_zero lines⟩, ?_⟩, rfl⟩
    · obtain ⟨line, lines, rfl⟩ := List.exists_cons_of_length_pos h
      rfl
    · rintro _ ⟨count, hcount, rfl⟩
      rw [Nat.le_zero.mp hcount]
      exact Int.le_refl 0
  | succ index ih =>
    obtain ⟨depth, least, hdepth, ⟨⟨count, hcount, hleast⟩, hlower⟩, hdistance⟩ :=
      ih (Nat.lt_of_succ_lt h)
    have hstep := braceSurplus_succ (Nat.lt_of_succ_lt h)
    have hup : ∀ surplus ∈ surplusesUpTo lines (index + 1),
        surplus = braceSurplus lines (index + 1) ∨ least ≤ surplus := by
      rintro _ ⟨other, hother, rfl⟩
      rcases Nat.le_or_eq_of_le_succ hother with hother | rfl
      · exact .inr (hlower ⟨other, hother, rfl⟩)
      · exact .inl rfl
    have hnext := getElem?_depthsOfLines_succ hdepth h
    -- either the walk goes to a new lowest point and the depth to zero, or the lowest point stays
    by_cases hnew : braceSurplus lines (index + 1) ≤ least
    · refine ⟨_, braceSurplus lines (index + 1), hnext,
        ⟨⟨index + 1, Nat.le_refl _, rfl⟩, fun surplus hsurplus => ?_⟩, by omega⟩
      have := hup surplus hsurplus
      omega
    · refine ⟨_, least, hnext, ⟨⟨count, by omega, hleast⟩, fun surplus hsurplus => ?_⟩, by omega⟩
      have := hup surplus hsurplus
      omega

/-- The line stands outside all braces: no line before it has a lower surplus. -/
def OutsideBraces (lines : List Line) (index : Nat) : Prop :=
  index < lines.length ∧ ∀ count ≤ index, braceSurplus lines index ≤ braceSurplus lines count

/-- Outside all braces the depth is zero, and only there. -/
theorem depthsOfLines_eq_zero_iff :
    (depthsOfLines lines)[index]? = some 0 ↔ OutsideBraces lines index := by
  constructor
  · intro hzero
    have h : index < lines.length := by
      rw [← length_depthsOfLines]
      exact (List.getElem?_eq_some_iff.mp hzero).1
    obtain ⟨depth, least, hdepth, hleast, hdistance⟩ := exists_isLeast_surplusesUpTo h
    obtain rfl : 0 = depth := Option.some_inj.mp (hzero.symm.trans hdepth)
    refine ⟨h, fun count hcount => ?_⟩
    have := hleast.2 ⟨count, hcount, rfl⟩
    omega
  · rintro ⟨h, hlowest⟩
    obtain ⟨depth, least, hdepth, ⟨⟨count, hcount, hleast⟩, -⟩, hdistance⟩ :=
      exists_isLeast_surplusesUpTo h
    have := hlowest count hcount
    obtain rfl : depth = 0 := by omega
    exact hdepth

/-- From a line outside all braces on, the depths are those of the lines from there on. -/
theorem drop_depthsOfLines (h : OutsideBraces lines index) :
    (depthsOfLines lines).drop index = depthsOfLines (lines.drop index) :=
  drop_depthsOfLinesFrom (depthsOfLines_eq_zero_iff.mpr h)

end Depth

end SourceSurvey
