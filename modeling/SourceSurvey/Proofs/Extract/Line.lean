import SourceSurvey.Extract.Css
import SourceSurvey.Extract.Html
import SourceSurvey.Extract.Php
import SourceSurvey.Extract.Python
import SourceSurvey.Proofs.Extract.Section
import Mathlib.Data.List.Basic

/-!
# Lines of what is extracted

An extractor gives what it finds at a place the number of that place, and a statement that takes
further lines ends inside the file. Main statement: what a file declares is well placed, for each of
the five extractors.
-/

namespace SourceSurvey

/-! ## Well-placed declarations -/

/-- The import begins at the place and ends there or on a later line of the file. -/
structure ImportStatement.StandsAt (i : ImportStatement) (p : Place) : Prop where
  line_eq : i.line = p.number
  line_le : i.line ≤ i.endLine
  endLine_le : i.endLine ≤ p.fileLength

/-- An import that takes some of the lines below a place stands at the place. -/
theorem ImportStatement.standsAt_spanning {p : Place} {taken : Nat} (h : taken ≤ p.below.length)
    (module : String) (names : List String) (isFrom : Bool) :
    (spanning module names isFrom p.number (p.number + taken)).StandsAt p := by
  have hadd := p.number_add_below
  have hmax : max p.number (p.number + taken) = p.number + taken :=
    Nat.max_eq_right (Nat.le_add_right _ _)
  refine ⟨rfl, ?_, ?_⟩
  · exact Nat.le_max_left _ _
  · show max p.number (p.number + taken) ≤ p.fileLength
    omega

/-- What a file of so many lines declares has the numbers of its lines, in their order. -/
structure Extraction.WellPlaced (e : Extraction) (total : Nat) : Prop where
  imports_within : ∀ i ∈ e.imports, 1 ≤ i.line ∧ i.line ≤ i.endLine ∧ i.endLine ≤ total
  imports_ordered : (e.imports.map (·.line)).Pairwise (· ≤ ·)
  types_sublist : (e.types.map (·.line)).Sublist (lineNumbers total)
  methods_sublist : ∀ t ∈ e.types, (t.methods.map (·.line)).Sublist (lineNumbers total)
  routines_sublist : (e.routines.map (·.line)).Sublist (lineNumbers total)
  riskPoints_sublist : e.riskPoints.Sublist (lineNumbers total)

/-- Functions and methods alike stand on lines of the file. -/
theorem Extraction.WellPlaced.routine_or_method_mem {e : Extraction} {total : Nat}
    (h : e.WellPlaced total) :
    ∀ c ∈ e.routines ++ e.types.flatMap (·.methods), c.line ∈ lineNumbers total := by
  intro c hc
  rcases List.mem_append.mp hc with hc | hc
  · exact h.routines_sublist.subset (List.mem_map_of_mem hc)
  · obtain ⟨t, ht, hct⟩ := List.mem_flatMap.mp hc
    exact (h.methods_sublist t ht).subset (List.mem_map_of_mem hct)

namespace Extract

section Places

variable {α : Type} {as : List α} {place : α → Place} {style : CommentRules} {lines : List Line}

/-- The places of a file are numbered as its lines are. -/
theorem map_number_of_map_eq_places (h : as.map place = places (sourceLines style lines)) :
    (as.map fun a => (place a).number) = lineNumbers lines.length := by
  rw [← length_sourceLines style lines, ← map_number_places, ← h, List.map_map]
  rfl

/-- What is found at most once at each place keeps the order of the lines. -/
theorem map_line_filterMap_sublist {β : Type} {find : α → Option β} {line : β → Nat}
    (hplaces : as.map place = places (sourceLines style lines))
    (h : ∀ a b, find a = some b → line b = (place a).number) :
    ((as.filterMap find).map line).Sublist (lineNumbers lines.length) := by
  rw [← map_number_of_map_eq_places hplaces]
  exact map_filterMap_sublist fun a _ => h a

/-- Imports that stand at the places where they are read are within the file. -/
theorem imports_within {read : α → List ImportStatement} {found : List ImportStatement}
    (hplaces : as.map place = places (sourceLines style lines))
    (hfound : found.Sublist (as.flatMap read)) (h : ∀ a, ∀ i ∈ read a, i.StandsAt (place a)) :
    ∀ i ∈ found, 1 ≤ i.line ∧ i.line ≤ i.endLine ∧ i.endLine ≤ lines.length := by
  intro i hi
  obtain ⟨a, ha, hia⟩ := List.mem_flatMap.mp (hfound.subset hi)
  have hstands := h a i hia
  have hmem : place a ∈ places (sourceLines style lines) := by
    rw [← hplaces]
    exact List.mem_map_of_mem ha
  have hlength : (place a).fileLength = lines.length := by
    rw [Place.fileLength_of_mem_places hmem, length_sourceLines]
  refine ⟨?_, hstands.line_le, ?_⟩
  · rw [hstands.line_eq]
    exact (mem_lineNumbers.mp (place a).number_mem_lineNumbers).1
  · rw [← hlength]
    exact hstands.endLine_le

/-- Imports that are read place by place stand in the order of the file. -/
theorem imports_ordered {read : α → List ImportStatement} {found : List ImportStatement}
    (hplaces : as.map place = places (sourceLines style lines))
    (hfound : found.Sublist (as.flatMap read)) (h : ∀ a, ∀ i ∈ read a, i.StandsAt (place a)) :
    (found.map (·.line)).Pairwise (· ≤ ·) := by
  refine List.Pairwise.sublist (hfound.map _) ?_
  -- one line may hold several imports
  refine pairwise_map_flatMap (fun a _ i hi => (h a i hi).line_eq) ?_
  rw [map_number_of_map_eq_places hplaces]
  exact pairwise_lineNumbers _

/-- The lines that a pattern matches are some lines of the file, in their order. -/
theorem linesMatching_sublist (p : Pattern Unit) (style : CommentRules) (lines : List Line) :
    (linesMatching p (places (sourceLines style lines))).Sublist (lineNumbers lines.length) := by
  rw [← length_sourceLines style lines, ← map_number_places]
  exact List.filter_sublist.map Place.number

/-- Methods that stand on lines of the file of their type keep the order of the lines. -/
theorem methods_sublist {find : Place → Option TypeDeclaration}
    (h : ∀ p t, find p = some t → (t.methods.map (·.line)).Sublist (lineNumbers p.fileLength)) :
    ∀ t ∈ (places (sourceLines style lines)).filterMap find,
      (t.methods.map (·.line)).Sublist (lineNumbers lines.length) := by
  intro t ht
  obtain ⟨p, hp, ht⟩ := List.mem_filterMap.mp ht
  rw [← length_sourceLines style lines, ← Place.fileLength_of_mem_places hp]
  exact h p t ht

/-- Methods that stand on the lines of a brace body where they are found keep their order. -/
theorem membersOfBody_methods_sublist {assignedSlots : Line → List Slot} {p : Place}
    (membersAt : Int → Place → Option Routine × List Slot)
    (h : ∀ depth q c, (membersAt depth q).1 = some c → c.line = q.number) :
    (((membersOfBody assignedSlots membersAt p).filterMap (·.1)).map (·.line)).Sublist
      (lineNumbers p.fileLength) := by
  have hnumbers := map_number_bodyWithDepths_tail_sublist p
  unfold membersOfBody
  cases hbody : bodyWithDepths p with
  | nil => exact List.nil_sublist _
  | cons header body =>
    rw [hbody, List.drop_succ_cons, List.drop_zero] at hnumbers
    dsimp only
    rw [List.filterMap_cons_none rfl, List.filterMap_map]
    exact (map_filterMap_sublist fun q _ c hc => h q.1 q.2 c hc).trans hnumbers

end Places

/-! ## Statements over several lines -/

/-- A statement goes on over lines that there are. -/
theorem extendWhile_taken_le (goesOn : List Char → Bool) (extend : List Char → Line → List Char)
    (text : List Char) (lines : List Line) :
    (extendWhile goesOn extend text lines).2 ≤ lines.length := by
  induction lines generalizing text with
  | nil => exact Nat.le_refl 0
  | cons line lines ih =>
    unfold extendWhile
    split
    · exact Nat.succ_le_succ (ih (extend text line))
    · exact Nat.zero_le _

/-- A brace list goes on over lines that there are. -/
theorem JavaScript.listExtent_le (code : Line) (lines : List Line) :
    listExtent code lines ≤ lines.length := by
  induction lines generalizing code with
  | nil => exact Nat.le_refl 0
  | cons line lines ih =>
    unfold listExtent
    split
    · exact Nat.zero_le _
    · exact Nat.succ_le_succ (ih line)

/-! ## The five extractors -/

namespace Python

theorem importsAt_standsAt (p : Place) : ∀ i ∈ (importsAt p).1, i.StandsAt p := by
  have hbelow : (p.below.map (·.code)).length = p.below.length := List.length_map _
  intro i hi
  unfold importsAt at hi
  dsimp only at hi
  split at hi
  · rw [List.mem_singleton] at hi
    subst hi
    refine ImportStatement.standsAt_spanning ?_ _ _ _
    rw [← hbelow]
    -- the text of an import goes on over lines below its place only
    exact extendWhile_taken_le _ _ _ _
  · split at hi
    · obtain ⟨entry, -, hentry⟩ := List.mem_filterMap.mp hi
      obtain ⟨module, -, rfl⟩ := Option.map_eq_some_iff.mp hentry
      refine ImportStatement.standsAt_spanning ?_ _ _ _
      rw [← hbelow]
      exact extendWhile_taken_le _ _ _ _
    · cases hi

theorem methodAt?_line {baseline : Nat} {p : Place} {c : Routine}
    (h : methodAt? baseline p = some c) : c.line = p.number := by
  unfold methodAt? at h
  split at h
  · split at h
    · cases h
      rfl
    · cases h
  · cases h

theorem topLevelFunction?_line {p : Place} {c : Routine} (h : topLevelFunction? p = some c) :
    c.line = p.number := by
  unfold topLevelFunction? at h
  split at h
  · cases h
    rfl
  · cases h

theorem classAt?_line {p : Place} {t : TypeDeclaration} (h : classAt? p = some t) :
    t.line = p.number := by
  unfold classAt? at h
  split at h
  · cases h
  · cases h
    rfl

/-- The methods of a class stand on lines of its body. -/
theorem classAt?_methods {p : Place} {t : TypeDeclaration} (h : classAt? p = some t) :
    (t.methods.map (·.line)).Sublist (lineNumbers p.fileLength) := by
  unfold classAt? at h
  split at h
  · cases h
  · cases h
    dsimp only
    cases baseline? p.indentedBody with
    | none => exact List.nil_sublist _
    | some baseline =>
      exact (map_filterMap_sublist fun _ _ _ => methodAt?_line).trans
        p.map_number_indentedBody_sublist

/-- What a file declares has the numbers of its lines. -/
theorem wellPlaced_extract (lines : List Line) : (extract lines).WellPlaced lines.length := by
  have hplaces : (places (sourceLines .hash lines)).map id = places (sourceLines .hash lines) :=
    List.map_id _
  have himports := readStatements_sublist importsAt 0 (places (sourceLines .hash lines))
  refine ⟨?_, ?_, ?_, ?_, ?_, ?_⟩
  · exact imports_within hplaces himports importsAt_standsAt
  · exact imports_ordered hplaces himports importsAt_standsAt
  · exact map_line_filterMap_sublist hplaces fun _ _ => classAt?_line
  · exact methods_sublist fun _ _ => classAt?_methods
  · exact map_line_filterMap_sublist hplaces fun _ _ => topLevelFunction?_line
  · exact linesMatching_sublist _ _ _

end Python

namespace JavaScript

theorem importsAt_standsAt (p : Place) : ∀ i ∈ (importsAt p).1, i.StandsAt p := by
  have hbelow : (p.below.map (·.code)).length = p.below.length := List.length_map _
  intro i hi
  unfold importsAt at hi
  dsimp only at hi
  split at hi
  · cases hi
  · dsimp only at hi
    split at hi
    · rw [List.mem_singleton] at hi
      subst hi
      refine ImportStatement.standsAt_spanning ?_ _ _ _
      -- only a list in braces that is still open takes further lines
      split
      · rw [← hbelow]
        exact listExtent_le _ _
      · exact Nat.zero_le _
    · split at hi
      · rw [List.mem_singleton] at hi
        subst hi
        exact ImportStatement.standsAt_spanning (Nat.zero_le _) _ _ _
      · split at hi
        · rw [List.mem_singleton] at hi
          subst hi
          exact ImportStatement.standsAt_spanning (Nat.zero_le _) _ _ _
        · cases hi

theorem topLevelFunction?_line {p : Place} {c : Routine} (h : topLevelFunction? p = some c) :
    c.line = p.number := by
  unfold topLevelFunction? at h
  dsimp only at h
  split at h
  · cases h
    rfl
  · split at h
    · cases h
      rfl
    · split at h
      · obtain ⟨-, h⟩ := Option.ite_none_right_eq_some.mp h
        cases h
        rfl
      · cases h
    · cases h

theorem member?_line {p : Place} {c : Routine} (h : member? p = some c) : c.line = p.number := by
  unfold member? at h
  dsimp only at h
  split at h
  · cases h
    rfl
  · cases h
    rfl
  · split at h
    · cases h
    · split at h
      · cases h
      · cases h
        rfl

theorem membersAt_line {depth : Int} {p : Place} {c : Routine}
    (h : (membersAt depth p).1 = some c) : c.line = p.number := by
  unfold membersAt at h
  dsimp only at h
  split at h
  · split at h
    · next hmember =>
      cases h
      exact member?_line hmember
    · cases h
  · cases h

theorem classAt?_line {p : Place} {t : TypeDeclaration} (h : classAt? p = some t) :
    t.line = p.number := by
  unfold classAt? at h
  dsimp only at h
  split at h
  · cases h
  · cases h
    rfl

/-- The methods of a class stand on lines of its body. -/
theorem classAt?_methods {p : Place} {t : TypeDeclaration} (h : classAt? p = some t) :
    (t.methods.map (·.line)).Sublist (lineNumbers p.fileLength) := by
  unfold classAt? at h
  dsimp only at h
  split at h
  · cases h
  · cases h
    dsimp only
    exact membersOfBody_methods_sublist membersAt fun _ _ _ => membersAt_line

/-- The functions of a script stand on some of its lines, in their order. -/
theorem topLevelFunctions_sublist (style : CommentRules) (lines : List Line) :
    ((topLevelFunctions (places (sourceLines style lines))).map (·.line)).Sublist
      (lineNumbers lines.length) := by
  refine map_line_filterMap_sublist (map_snd_placesWithDepths _) fun q c h => ?_
  obtain ⟨-, h⟩ := Option.ite_none_right_eq_some.mp h
  exact topLevelFunction?_line h

/-- What a file declares has the numbers of its lines. -/
theorem wellPlaced_extract (lines : List Line) : (extract lines).WellPlaced lines.length := by
  have hplaces : (places (sourceLines .slash lines)).map id = places (sourceLines .slash lines) :=
    List.map_id _
  have himports := readStatements_sublist importsAt 0 (places (sourceLines .slash lines))
  refine ⟨?_, ?_, ?_, ?_, ?_, ?_⟩
  · exact imports_within hplaces himports importsAt_standsAt
  · exact imports_ordered hplaces himports importsAt_standsAt
  · exact map_line_filterMap_sublist hplaces fun _ _ => classAt?_line
  · exact methods_sublist fun _ _ => classAt?_methods
  · exact topLevelFunctions_sublist _ _
  · exact linesMatching_sublist _ _ _

end JavaScript

namespace Php

theorem importsAt_standsAt (q : Nat × Place) : ∀ i ∈ (importsAt q).1, i.StandsAt q.2 := by
  obtain ⟨depth, p⟩ := q
  have hbelow : (p.below.map (·.code)).length = p.below.length := List.length_map _
  intro i hi
  unfold importsAt at hi
  dsimp only at hi
  split at hi
  · obtain ⟨pair, -, rfl⟩ := List.mem_map.mp hi
    refine ImportStatement.standsAt_spanning ?_ _ _ _
    rw [← hbelow]
    exact extendWhile_taken_le _ _ _ _
  · split at hi
    · split at hi
      · rw [List.mem_singleton] at hi
        subst hi
        exact ImportStatement.standsAt_spanning (Nat.zero_le _) _ _ _
      · cases hi
    · cases hi

theorem membersAt_line {depth : Int} {p : Place} {c : Routine}
    (h : (membersAt depth p).1 = some c) : c.line = p.number := by
  unfold membersAt at h
  dsimp only at h
  split at h
  · split at h
    · cases h
      rfl
    · cases h
  · cases h

theorem typeAt?_line {p : Place} {t : TypeDeclaration} (h : typeAt? p = some t) :
    t.line = p.number := by
  unfold typeAt? at h
  dsimp only at h
  split at h
  · cases h
  · cases h
    rfl

/-- The methods of a type stand on lines of its body. -/
theorem typeAt?_methods {p : Place} {t : TypeDeclaration} (h : typeAt? p = some t) :
    (t.methods.map (·.line)).Sublist (lineNumbers p.fileLength) := by
  unfold typeAt? at h
  dsimp only at h
  split at h
  · cases h
  · cases h
    dsimp only
    exact membersOfBody_methods_sublist membersAt fun _ _ _ => membersAt_line

/-- What a file declares has the numbers of its lines. -/
theorem wellPlaced_extract (lines : List Line) : (extract lines).WellPlaced lines.length := by
  have hplaces : (places (sourceLines .slashAndHash lines)).map id =
      places (sourceLines .slashAndHash lines) := List.map_id _
  have hdeep := map_snd_placesWithDepths (places (sourceLines .slashAndHash lines))
  have himports := readStatements_sublist importsAt 0
    (placesWithDepths (places (sourceLines .slashAndHash lines)))
  refine ⟨?_, ?_, ?_, ?_, ?_, ?_⟩
  · exact imports_within hdeep himports importsAt_standsAt
  · exact imports_ordered hdeep himports importsAt_standsAt
  · exact map_line_filterMap_sublist hplaces fun _ _ => typeAt?_line
  · exact methods_sublist fun _ _ => typeAt?_methods
  · refine map_line_filterMap_sublist hdeep fun q c h => ?_
    obtain ⟨-, h⟩ := Option.ite_none_right_eq_some.mp h
    obtain ⟨bound, -, rfl⟩ := Option.map_eq_some_iff.mp h
    rfl
  · exact linesMatching_sublist _ _ _

end Php

namespace Css

theorem importAt?_standsAt (p : Place) : ∀ i ∈ (importAt? p).toList, i.StandsAt p := by
  intro i hi
  rw [Option.mem_toList] at hi
  obtain ⟨-, hi⟩ := Option.ite_none_right_eq_some.mp hi
  obtain ⟨f, -, rfl⟩ := Option.map_eq_some_iff.mp hi
  exact ImportStatement.standsAt_spanning (Nat.zero_le _) _ _ _

/-- What a file declares has the numbers of its lines. -/
theorem wellPlaced_extract (lines : List Line) : (extract lines).WellPlaced lines.length := by
  have hplaces : (places (sourceLines .stylesheet lines)).map id =
      places (sourceLines .stylesheet lines) := List.map_id _
  have himports : (extract lines).imports.Sublist
      ((places (sourceLines .stylesheet lines)).flatMap fun p => (importAt? p).toList) := by
    rw [← List.filterMap_eq_flatMap_toList]
    exact List.Sublist.refl _
  refine ⟨?_, ?_, ?_, ?_, ?_, ?_⟩
  · exact imports_within hplaces himports importAt?_standsAt
  · exact imports_ordered hplaces himports importAt?_standsAt
  · refine map_line_filterMap_sublist hplaces fun p t h => ?_
    obtain ⟨selector, -, rfl⟩ := Option.map_eq_some_iff.mp h
    rfl
  · refine methods_sublist fun p t h => ?_
    obtain ⟨selector, -, rfl⟩ := Option.map_eq_some_iff.mp h
    exact List.nil_sublist _
  · exact List.nil_sublist _
  · exact List.nil_sublist _

end Css

namespace Html

theorem importsAt_standsAt (p : Place) : ∀ i ∈ importsAt p, i.StandsAt p := by
  have hlinked : ∀ kind target, (linked p kind target).StandsAt p := fun _ _ =>
    ImportStatement.standsAt_spanning (Nat.zero_le _) _ _ _
  intro i hi
  unfold importsAt at hi
  rw [List.mem_append, List.mem_append, Option.mem_toList, Option.mem_toList,
    Option.mem_toList] at hi
  rcases hi with (hi | hi) | hi
  · obtain ⟨f, -, rfl⟩ := Option.map_eq_some_iff.mp hi
    exact hlinked _ _
  · obtain ⟨f, -, hi⟩ := Option.bind_eq_some_iff.mp hi
    obtain ⟨-, hi⟩ := Option.ite_none_right_eq_some.mp hi
    cases hi
    exact hlinked _ _
  · obtain ⟨f, -, rfl⟩ := Option.map_eq_some_iff.mp hi
    exact hlinked _ _

theorem sectionAt?_placed {p : Place} {t : TypeDeclaration} (h : sectionAt? p = .ok (some t)) :
    t.line = p.number ∧ t.methods = [] := by
  unfold sectionAt? at h
  split at h
  · cases h
  · next written text hmatch =>
    cases hname : sectionName (Text.lower written) (attributes text) with
    | error e =>
      dsimp only at h
      rw [hname] at h
      cases h
    | ok name =>
      dsimp only at h
      rw [hname] at h
      cases h
      exact ⟨rfl, rfl⟩

/-- Every line of a page has a line of script, perhaps an empty one. -/
theorem length_inlineScriptsFrom (inScript : Bool) (lines : List Line) :
    (inlineScriptsFrom inScript lines).length = lines.length := by
  induction lines generalizing inScript with
  | nil => rfl
  | cons line lines ih => rw [inlineScriptsFrom, List.length_cons, ih, List.length_cons]

/-- The section at a place, if it is read. -/
def section? (p : Place) : Option TypeDeclaration :=
  (sectionAt? p).toOption.join

theorem section?_placed {p : Place} {t : TypeDeclaration} (h : section? p = some t) :
    t.line = p.number ∧ t.methods = [] := by
  unfold section? at h
  cases hread : sectionAt? p with
  | error e =>
    rw [hread] at h
    cases h
  | ok t? =>
    rw [hread] at h
    change t? = some t at h
    exact sectionAt?_placed (hread.trans (congrArg Except.ok h))

/-- When all places of a page are read, its sections are those read place by place. -/
theorem filterMap_id_of_mapM_eq_ok {ps : List Place} {sections : List (Option TypeDeclaration)}
    (h : ps.mapM sectionAt? = .ok sections) : sections.filterMap id = ps.filterMap section? := by
  have hread : ps.filterMap section? =
      (ps.map sectionAt?).filterMap fun result => result.toOption.join := by
    rw [List.filterMap_map]
    rfl
  rw [hread, mapM_eq_ok_iff.mp h, List.filterMap_map]
  rfl

/-- What a page declares has the numbers of its lines. -/
theorem wellPlaced_extract {lines : List Line} {found : Extraction}
    (h : extract lines = .ok found) : found.WellPlaced lines.length := by
  unfold extract at h
  dsimp only at h
  cases hall : (places (sourceLines .markup lines)).mapM sectionAt? with
  | error e =>
    rw [hall] at h
    cases h
  | ok sections =>
    rw [hall] at h
    cases h
    have hplaces : (places (sourceLines .markup lines)).map id =
        places (sourceLines .markup lines) := List.map_id _
    have hsections := filterMap_id_of_mapM_eq_ok hall
    -- the script of a page has one line for each line of the page
    have hscripts : (inlineScripts ((places (sourceLines .markup lines)).map (·.code))).length =
        lines.length := by
      rw [inlineScripts, length_inlineScriptsFrom, List.length_map, places, length_placesFrom,
        length_sourceLines]
    refine ⟨?_, ?_, ?_, ?_, ?_, ?_⟩
    · exact imports_within hplaces (List.Sublist.refl _) importsAt_standsAt
    · exact imports_ordered hplaces (List.Sublist.refl _) importsAt_standsAt
    · rw [hsections]
      exact map_line_filterMap_sublist hplaces fun _ _ ht => (section?_placed ht).1
    · rw [hsections]
      refine methods_sublist fun p t ht => ?_
      rw [(section?_placed ht).2]
      exact List.nil_sublist _
    · rw [← hscripts]
      exact JavaScript.topLevelFunctions_sublist _ _
    · rw [← hscripts]
      exact linesMatching_sublist _ _ _

end Html

end Extract

end SourceSurvey
