import SourceSurvey.Extract.BraceLanguage

/-!
# Numbers of places

The places of a file are numbered from one without gaps, and so are the places below a place. What
an extractor finds at the places of a file in their order has therefore numbers that increase and
lie in the file; `lineNumbers` are the numbers that they are taken from.
-/

namespace SourceSurvey

/-! ## Lines of stripped copies -/

/-- Stripping keeps the number of lines, in whatever region they begin. -/
theorem CommentRules.length_stripLines (style : CommentRules) (region : Region)
    (lines : List Line) : (style.stripLines region lines).length = lines.length := by
  induction lines generalizing region with
  | nil => rfl
  | cons line lines ih =>
    rw [stripLines, List.length_cons, List.length_cons, ih]

/-- A stripped copy has one line for each line of the file. -/
theorem CommentRules.length_strip (style : CommentRules) (lines : List Line) :
    (style.strip lines).length = lines.length :=
  style.length_stripLines .code lines

/-- Every line has a stripped copy. -/
theorem CommentRules.length_zip_strip (style : CommentRules) (lines : List Line) :
    (lines.zip (style.strip lines)).length = lines.length := by
  rw [List.length_zip, style.length_strip, Nat.min_self]

/-- A file has as many lines as its text. -/
theorem length_sourceLines (style : CommentRules) (lines : List Line) :
    (sourceLines style lines).length = lines.length := by
  rw [sourceLines, List.length_zipWith, style.length_strip, Nat.min_self]

/-- Lines with copies are the lines themselves as they are written. -/
theorem map_raw_zipWith {lines codes : List Line} (h : lines.length ≤ codes.length) :
    (List.zipWith SourceLine.mk lines codes).map (·.raw) = lines := by
  rw [List.map_zipWith, ← List.map_uncurry_zip_eq_zipWith]
  exact List.map_fst_zip h

/-- Lines with copies are the copies themselves as code. -/
theorem map_code_zipWith {lines codes : List Line} (h : codes.length ≤ lines.length) :
    (List.zipWith SourceLine.mk lines codes).map (·.code) = codes := by
  rw [List.map_zipWith, ← List.map_uncurry_zip_eq_zipWith]
  exact List.map_snd_zip h

/-- The code of a file is its text, stripped. -/
theorem map_code_sourceLines (style : CommentRules) (lines : List Line) :
    (sourceLines style lines).map (·.code) = style.strip lines :=
  map_code_zipWith (Nat.le_of_eq (style.length_strip lines))

/-! ## Places -/

/-- Every line has its place. -/
theorem map_here_placesFrom (above lines : List SourceLine) :
    (placesFrom above lines).map Place.here = lines := by
  induction lines generalizing above with
  | nil => rfl
  | cons line lines ih => rw [placesFrom, List.map_cons, ih]

/-- The code at the places of a file is the code of its lines. -/
theorem map_code_places (lines : List SourceLine) :
    (places lines).map Place.code = lines.map (·.code) := by
  have hhere := congrArg (List.map (·.code)) (map_here_placesFrom [] lines)
  rw [List.map_map] at hhere
  exact hhere

/-- The numbers of the lines of a file with so many lines. -/
def lineNumbers (total : Nat) : List Nat :=
  List.range' 1 total

/-- A line number lies between the first line and the last one. -/
theorem mem_lineNumbers {total n : Nat} : n ∈ lineNumbers total ↔ 1 ≤ n ∧ n ≤ total := by
  rw [lineNumbers, List.mem_range'_1]
  omega

/-- Line numbers increase. -/
theorem pairwise_lineNumbers (total : Nat) : (lineNumbers total).Pairwise (· < ·) :=
  List.pairwise_lt_range'

/-- Places below some lines are numbered from there on. -/
theorem map_number_placesFrom (above lines : List SourceLine) :
    (placesFrom above lines).map Place.number = List.range' (above.length + 1) lines.length := by
  induction lines generalizing above with
  | nil => rfl
  | cons line lines ih =>
    rw [placesFrom, List.map_cons, ih, List.length_cons, List.length_cons, List.range'_succ]
    rfl

/-- The places of a file are numbered as its lines are. -/
theorem map_number_places (lines : List SourceLine) :
    (places lines).map Place.number = lineNumbers lines.length :=
  map_number_placesFrom [] lines

/-- There are as many places as lines. -/
theorem length_placesFrom (above lines : List SourceLine) :
    (placesFrom above lines).length = lines.length := by
  rw [← List.length_map Place.number, map_number_placesFrom, List.length_range']

namespace Place

/-- How many lines the file of a place has. -/
def fileLength (p : Place) : Nat :=
  p.above.length + 1 + p.below.length

theorem number_add_below (p : Place) : p.number + p.below.length = p.fileLength := rfl

/-- Every place has the lines above and the lines given in its file. -/
theorem fileLength_of_mem_placesFrom {above lines : List SourceLine} {p : Place}
    (h : p ∈ placesFrom above lines) : p.fileLength = above.length + lines.length := by
  induction lines generalizing above with
  | nil => cases h
  | cons line lines ih =>
    rw [placesFrom, List.mem_cons] at h
    rcases h with rfl | h
    · show above.length + 1 + lines.length = above.length + (line :: lines).length
      rw [List.length_cons]
      omega
    -- going down a line moves it from below to above
    · have hlength := ih h
      rw [List.length_cons] at hlength ⊢
      omega

/-- The file of a place has as many lines as were given. -/
theorem fileLength_of_mem_places {lines : List SourceLine} {p : Place} (h : p ∈ places lines) :
    p.fileLength = lines.length := by
  rw [fileLength_of_mem_placesFrom h, List.length_nil, Nat.zero_add]

/-- A place has the number of a line of its file. -/
theorem number_mem_lineNumbers (p : Place) : p.number ∈ lineNumbers p.fileLength := by
  have hpos : 1 ≤ p.number := Nat.le_add_left 1 p.above.length
  have hadd := p.number_add_below
  rw [mem_lineNumbers]
  omega

/-- The numbers of the places below are the numbers of the file that come after. -/
theorem map_number_following_sublist (p : Place) :
    (p.following.map number).Sublist (lineNumbers p.fileLength) := by
  have hsplit : lineNumbers p.fileLength =
      List.range' 1 (p.above.length + 1) ++ List.range' (p.above.length + 2) p.below.length := by
    rw [lineNumbers, fileLength, ← List.range'_append_1]
    congr 2
    omega
  rw [following, map_number_placesFrom, List.length_cons, hsplit]
  exact List.sublist_append_right _ _

/-- The lines of an indented body are some lines of the file, in their order. -/
theorem map_number_indentedBody_sublist (p : Place) :
    (p.indentedBody.map number).Sublist (lineNumbers p.fileLength) := by
  have hbody : p.indentedBody.Sublist p.following :=
    (List.take_sublist _ _).trans (List.drop_sublist _ _)
  exact (hbody.map number).trans p.map_number_following_sublist

end Place

/-! ## Places with brace depths -/

/-- Every line has its depth. -/
theorem length_depthsOfLinesFrom (depth : Nat) (lines : List Line) :
    (depthsOfLinesFrom depth lines).length = lines.length := by
  induction lines generalizing depth with
  | nil => rfl
  | cons line lines ih => rw [depthsOfLinesFrom, List.length_cons, List.length_cons, ih]

namespace Extract

/-- Without their depths the places are those that were given. -/
theorem map_snd_placesWithDepths (ps : List Place) :
    (placesWithDepths ps).map Prod.snd = ps := by
  refine List.map_snd_zip (Nat.le_of_eq ?_)
  rw [depthsOfLines, length_depthsOfLinesFrom, List.length_map]

/-- The same from any depth on. -/
theorem map_snd_withDepths (depth : Int) (ps : List Place) :
    (withDepths depth ps).map Prod.snd = ps := by
  induction ps generalizing depth with
  | nil => rfl
  | cons p ps ih => rw [withDepths, List.map_cons, ih]

/-- The places of a type body after the header lie below it. -/
theorem map_number_bodyWithDepths_tail_sublist (p : Place) :
    (((bodyWithDepths p).drop 1).map fun q => q.2.number).Sublist (lineNumbers p.fileLength) := by
  have hplaces : ((bodyWithDepths p).drop 1).map Prod.snd = p.following.take p.braceExtent := by
    rw [List.map_drop, bodyWithDepths, map_snd_withDepths, List.drop_succ_cons, List.drop_zero]
  have hnumbers : (((bodyWithDepths p).drop 1).map fun q => q.2.number) =
      (p.following.take p.braceExtent).map Place.number := by
    rw [← hplaces, List.map_map]
    rfl
  rw [hnumbers]
  exact ((List.take_sublist _ _).map Place.number).trans p.map_number_following_sublist

end Extract

/-! ## What is found at places in order -/

section Found

variable {α β : Type} {key : α → Nat} {line : β → Nat} {as : List α}

/-- What one member of a list yields at most once keeps the order of the list. -/
theorem map_filterMap_sublist {find : α → Option β}
    (h : ∀ a ∈ as, ∀ b, find a = some b → line b = key a) :
    ((as.filterMap find).map line).Sublist (as.map key) := by
  induction as with
  | nil => exact List.Sublist.slnil
  | cons a as ih =>
    have htail := ih fun a' ha' => h a' (List.mem_cons_of_mem a ha')
    rw [List.map_cons]
    cases hfind : find a with
    | none =>
      rw [List.filterMap_cons_none hfind]
      exact htail.cons (key a)
    | some b =>
      rw [List.filterMap_cons_some hfind, List.map_cons, h a List.mem_cons_self b hfind]
      exact htail.cons_cons (key a)

/-- What the members of an increasing list yield has numbers that do not decrease. -/
theorem pairwise_map_flatMap {find : α → List β} (h : ∀ a ∈ as, ∀ b ∈ find a, line b = key a)
    (hkey : (as.map key).Pairwise (· < ·)) :
    ((as.flatMap find).map line).Pairwise (· ≤ ·) := by
  rw [List.pairwise_map, List.pairwise_flatMap]
  refine ⟨fun a ha => ?_, ?_⟩
  -- what one member yields has one number, so the order is not strict
  · refine List.pairwise_iff_forall_sublist.mpr fun {b c} hbc => ?_
    have hb := h a ha b (hbc.subset List.mem_cons_self)
    have hc := h a ha c (hbc.subset (List.mem_cons_of_mem b List.mem_cons_self))
    exact Nat.le_of_eq (hb.trans hc.symm)
  · rw [List.pairwise_map] at hkey
    refine hkey.imp_of_mem fun {a a'} ha ha' hlt b hb c hc => ?_
    rw [h a ha b hb, h a' ha' c hc]
    exact Nat.le_of_lt hlt

/-- What is found at a place has its number among those of the places. -/
theorem mem_map_of_mem_flatMap {find : α → List β} (h : ∀ a ∈ as, ∀ b ∈ find a, line b = key a)
    {b : β} (hb : b ∈ as.flatMap find) : line b ∈ as.map key := by
  obtain ⟨a, ha, hba⟩ := List.mem_flatMap.mp hb
  rw [h a ha b hba]
  exact List.mem_map_of_mem ha

end Found

namespace Extract

/-- The statements read are among those that a reader would find at every place. -/
theorem readStatements_sublist {α β : Type} (read : α → List β × Nat) (skip : Nat)
    (as : List α) : (readStatements read skip as).Sublist (as.flatMap fun a => (read a).1) := by
  induction as generalizing skip with
  | nil =>
    cases skip <;> exact List.Sublist.slnil
  | cons a as ih =>
    rw [List.flatMap_cons]
    cases skip with
    | zero => exact (List.Sublist.refl _).append (ih _)
    -- lines that belong to the statement before yield nothing of their own
    | succ skip => exact (ih skip).trans (List.sublist_append_right _ _)

end Extract

end SourceSurvey
