import SourceSurvey.Proofs.Code.Depth
import SourceSurvey.Proofs.Extract.Line
import SourceSurvey.Proofs.Finding.Constant
import SourceSurvey.Proofs.Place.Append

/-!
# Declarations outside all braces

Scripts and PHP files are read at places with their brace depth, and what is to stand outside all
braces is sought at depth zero only. Main statement: functions, `use` imports and constants declared
with `const` stand on lines where the walk of the brace depth is at its lowest point so far.
-/

namespace SourceSurvey

open Extract Pattern

/-- The line of a file with this number stands outside all braces of the stripped copy. -/
def StandsOutside (style : CommentRules) (lines : List Line) (number : Nat) : Prop :=
  ∃ index, number = index + 1 ∧ OutsideBraces (style.strip lines) index

section Places

variable {style : CommentRules} {lines : List Line}

/-- The depth that a place comes with is that of its line in the stripped copy. -/
theorem Extract.depth_of_mem_placesWithDepths {depth : Nat} {p : Place}
    (h : (depth, p) ∈ placesWithDepths (places (sourceLines style lines))) :
    ∃ index, p.number = index + 1 ∧ (style.strip lines)[index]? = some p.code ∧
      (depthsOfLines (style.strip lines))[index]? = some depth := by
  have hcode : (places (sourceLines style lines)).map Place.code = style.strip lines := by
    rw [map_code_places, map_code_sourceLines]
  obtain ⟨index, hpair⟩ := List.mem_iff_getElem?.mp h
  rw [placesWithDepths, hcode, List.getElem?_zip_eq_some] at hpair
  obtain ⟨hdepth, hplace⟩ := hpair
  refine ⟨index, ?_, ?_, hdepth⟩
  · have hnumber : (lineNumbers (sourceLines style lines).length)[index]? = some p.number := by
      rw [← map_number_places, List.getElem?_map, hplace]
      rfl
    obtain ⟨hindex, hnumber⟩ := List.getElem?_eq_some_iff.mp hnumber
    simp only [lineNumbers, List.getElem_range'] at hnumber
    omega
  · rw [← hcode, List.getElem?_map, hplace]
    rfl

/-- A place at depth zero stands outside braces. -/
theorem Extract.standsOutside_of_mem_placesWithDepths {p : Place}
    (h : (0, p) ∈ placesWithDepths (places (sourceLines style lines))) :
    StandsOutside style lines p.number := by
  obtain ⟨index, hnumber, -, hdepth⟩ := depth_of_mem_placesWithDepths h
  exact ⟨index, hnumber, depthsOfLines_eq_zero_iff.mp hdepth⟩

end Places

/-! ## Files -/

namespace Extract.JavaScript

/-- The functions of a script stand outside braces. -/
theorem standsOutside_routines (lines : List Line) :
    ∀ r ∈ (extract lines).routines, StandsOutside .slash lines r.line := by
  intro r hr
  obtain ⟨⟨depth, p⟩, hp, hfound⟩ := List.mem_filterMap.mp hr
  obtain ⟨rfl, hfound⟩ := Option.ite_none_right_eq_some.mp hfound
  rw [topLevelFunction?_line hfound]
  exact standsOutside_of_mem_placesWithDepths hp

/-- On a line that begins at depth zero stands what is read at its place, and nothing else. -/
theorem filter_topLevelFunctions {above : List SourceLine} (here : SourceLine)
    (below : List SourceLine) (hdepth : depthAfter 0 (above.map (·.code)) = 0) :
    (topLevelFunctions (places (above ++ here :: below))).filter (·.line == above.length + 1) =
      (topLevelFunction? ⟨above.reverse, here, below⟩).toList := by
  obtain ⟨first, rest, hsplit, hfirst, hrest⟩ := exists_placesWithDepths_append here below hdepth
  -- what is read carries the number of its place, and the other places have other numbers
  let read (pair : Nat × Place) := if pair.1 = 0 then topLevelFunction? pair.2 else none
  have hnone : ∀ {pairs : List (Nat × Place)},
      (∀ pair ∈ pairs, pair.2.number ≠ above.length + 1) →
      (pairs.filterMap read).filter (·.line == above.length + 1) = [] := by
    intro pairs hpairs
    rw [List.filter_eq_nil_iff]
    intro r hr
    obtain ⟨pair, hpair, hfound⟩ := List.mem_filterMap.mp hr
    obtain ⟨-, hfound⟩ := Option.ite_none_right_eq_some.mp hfound
    rw [topLevelFunction?_line hfound]
    simpa using hpairs pair hpair
  have hread : topLevelFunctions (places (above ++ here :: below)) =
      (placesWithDepths (places (above ++ here :: below))).filterMap read := rfl
  have hhere : read (0, ⟨above.reverse, here, below⟩) =
      topLevelFunction? ⟨above.reverse, here, below⟩ := if_pos rfl
  rw [hread, hsplit, List.filterMap_append, List.filter_append, hnone hfirst, List.nil_append,
    List.filterMap_cons, hhere]
  cases hfound : topLevelFunction? ⟨above.reverse, here, below⟩ with
  | none => exact hnone hrest
  | some r =>
    have hline : (r.line == above.length + 1) = true := by
      rw [topLevelFunction?_line hfound, Place.number, List.length_reverse]
      exact beq_self_eq_true _
    show List.filter (·.line == above.length + 1) (r :: _) = [r]
    rw [List.filter_cons, if_pos hline]
    exact congrArg (r :: ·) (hnone hrest)

/-- The constants of a script are declared on lines outside braces. -/
theorem exists_declaresConst_globals (lines : List Line) :
    ∀ g ∈ (extract lines).globals, ∃ index code,
      (CommentRules.slash.strip lines)[index]? = some code ∧
      OutsideBraces (CommentRules.slash.strip lines) index ∧ DeclaresConst g.name.toList code := by
  intro g hg
  obtain ⟨⟨depth, p⟩, hp, hfound⟩ := List.mem_filterMap.mp (distinctBy_subset _ _ hg)
  obtain ⟨rfl, hfound⟩ := Option.ite_none_right_eq_some.mp hfound
  obtain ⟨index, -, hcode, hdepth⟩ := depth_of_mem_placesWithDepths hp
  exact ⟨index, p.code, hcode, depthsOfLines_eq_zero_iff.mp hdepth,
    JavaScript.declaresConst_of_constantAt? hfound⟩

end Extract.JavaScript

namespace Extract.Php

/-- The functions of a PHP file stand outside braces. -/
theorem standsOutside_routines (lines : List Line) :
    ∀ r ∈ (extract lines).routines, StandsOutside .slashAndHash lines r.line := by
  intro r hr
  obtain ⟨⟨depth, p⟩, hp, hfound⟩ := List.mem_filterMap.mp hr
  obtain ⟨rfl, hfound⟩ := Option.ite_none_right_eq_some.mp hfound
  obtain ⟨bound, -, rfl⟩ := Option.map_eq_some_iff.mp hfound
  exact standsOutside_of_mem_placesWithDepths hp

/-- What binds names is a `use` at depth zero; an included file binds none. -/
theorem depth_eq_zero_of_importsAt {depth : Nat} {p : Place} :
    ∀ i ∈ (importsAt (depth, p)).1, i.isFrom = true → depth = 0 := by
  intro i hi hfrom
  unfold importsAt at hi
  dsimp only at hi
  split at hi
  · next hopens =>
    rw [Bool.and_eq_true, beq_iff_eq] at hopens
    exact hopens.2
  · split at hi
    · split at hi
      · rw [List.mem_singleton.mp hi] at hfrom
        cases hfrom
      · cases hi
    · cases hi

/-- The `use` statements of a PHP file stand outside braces. -/
theorem standsOutside_imports (lines : List Line) :
    ∀ i ∈ (extract lines).imports, i.isFrom = true →
      StandsOutside .slashAndHash lines i.line := by
  intro i hi hfrom
  -- a statement that takes further lines is counted at the line on which it begins
  obtain ⟨⟨depth, p⟩, hp, hfound⟩ :=
    List.mem_flatMap.mp ((readStatements_sublist importsAt 0 _).subset hi)
  obtain rfl := depth_eq_zero_of_importsAt i hfound hfrom
  rw [(importsAt_standsAt (0, p) i hfound).line_eq]
  exact standsOutside_of_mem_placesWithDepths hp

end Extract.Php

/-- The depth at the start of a line is the surplus of opening braces there less the least surplus so
far. It is zero where the surplus is at its least, and from there on the lines before have no part in
it. The functions of scripts and PHP files, the `use` imports and the constants of a script stand on
such lines of the stripped copy. -/
theorem depthsOfLines_reflected_and_declarations_outside (lines : List Line) :
    (depthsOfLines lines).length = lines.length ∧
    (∀ index < lines.length, ∃ depth least, (depthsOfLines lines)[index]? = some depth ∧
      IsLeast (surplusesUpTo lines index) least ∧
      (depth : Int) = braceSurplus lines index - least) ∧
    (∀ index, (depthsOfLines lines)[index]? = some 0 ↔ OutsideBraces lines index) ∧
    (∀ index, OutsideBraces lines index →
      (depthsOfLines lines).drop index = depthsOfLines (lines.drop index)) ∧
    (∀ r ∈ (Extract.JavaScript.extract lines).routines, StandsOutside .slash lines r.line) ∧
    (∀ g ∈ (Extract.JavaScript.extract lines).globals, ∃ index code,
      (CommentRules.slash.strip lines)[index]? = some code ∧
      OutsideBraces (CommentRules.slash.strip lines) index ∧ DeclaresConst g.name.toList code) ∧
    (∀ r ∈ (Extract.Php.extract lines).routines, StandsOutside .slashAndHash lines r.line) ∧
    ∀ i ∈ (Extract.Php.extract lines).imports, i.isFrom = true →
      StandsOutside .slashAndHash lines i.line :=
  ⟨length_depthsOfLines lines, fun _ => exists_isLeast_surplusesUpTo,
    fun _ => depthsOfLines_eq_zero_iff, fun _ => drop_depthsOfLines,
    Extract.JavaScript.standsOutside_routines lines,
    Extract.JavaScript.exists_declaresConst_globals lines,
    Extract.Php.standsOutside_routines lines, Extract.Php.standsOutside_imports lines⟩

/-- Lines that are read as a script and as PHP: a brace too many, a class with a `use` of its own, and
behind it an import over two lines, a function with another one in its body, and a constant. -/
def strayBrace : List Line :=
  ["\x7d", "class A \x7b", "  use T;", "\x7d", "use B\\C,", "  D;",
    "function f() \x7b", "  function g() \x7b \x7d", "\x7d", "const N = 1;"].map String.toList

theorem depthsOfLines_reflected_and_declarations_outside_strayBrace :
    2 < strayBrace.length ∧ (depthsOfLines strayBrace)[2]? = some 1 ∧
      braceSurplus strayBrace 2 = 0 ∧ IsLeast (surplusesUpTo strayBrace 2) (-1) ∧
      OutsideBraces strayBrace 4 ∧
      (depthsOfLines strayBrace).drop 4 = depthsOfLines (strayBrace.drop 4) ∧
      (∃ r ∈ (Extract.JavaScript.extract strayBrace).routines, r.line = 7) ∧
      StandsOutside .slash strayBrace 7 ∧
      (∃ i ∈ (Extract.Php.extract strayBrace).imports, i.isFrom = true ∧ i.line = 5) ∧
      StandsOutside .slashAndHash strayBrace 5 := by
  obtain ⟨-, hwalk, hzero, hdrop, hroutines, -, -, himports⟩ :=
    depthsOfLines_reflected_and_declarations_outside strayBrace
  have hinside : (depthsOfLines strayBrace)[2]? = some 1 := by decide +kernel
  have hsurplus : braceSurplus strayBrace 2 = 0 := by decide +kernel
  have houtside : OutsideBraces strayBrace 4 := (hzero 4).mp (by decide +kernel)
  have hroutine : ∃ r ∈ (Extract.JavaScript.extract strayBrace).routines, r.line = 7 := by
    decide +kernel
  have himport : ∃ i ∈ (Extract.Php.extract strayBrace).imports, i.isFrom = true ∧ i.line = 5 := by
    decide +kernel
  refine ⟨by decide, hinside, hsurplus, ?_, houtside, hdrop 4 houtside, hroutine, ?_, himport, ?_⟩
  · obtain ⟨depth, least, hdepth, hleast, hdistance⟩ := hwalk 2 (by decide)
    obtain rfl : 1 = depth := Option.some_inj.mp (hinside.symm.trans hdepth)
    obtain rfl : least = -1 := by omega
    exact hleast
  · obtain ⟨r, hr, hline⟩ := hroutine
    exact hline ▸ hroutines r hr
  · obtain ⟨i, hi, hfrom, hline⟩ := himport
    exact hline ▸ himports i hi hfrom

end SourceSurvey
