import SourceSurvey.Extract.BraceLanguage
import SourceSurvey.Proofs.Code.Header
import SourceSurvey.Proofs.Place.Number

/-!
# Lines around a part of a file

A file is read from the top: what stands below a line has no part in its stripped copy nor in the
lines above its place. The places of the first lines of a file are therefore those of these lines
alone, with more lines below each. A blank line put before a file moves every place of the file down
by one line, and a place that is moved down reads as before. A blank line put behind a file adds one
place to it: at the others a header takes the lines that it took before, and a brace body that runs to
the end of the file takes the blank line too, which is all that changes there.
-/

namespace SourceSurvey

/-! ## Lines -/

/-- What the line behind some lines begins in. -/
def CommentRules.regionAfter (style : CommentRules) (region : Region) (lines : List Line) :
    Region :=
  lines.foldl (fun region line => carried (style.stripLine region line).2) region

/-- Stripping goes on below in the region that the lines above end in. -/
theorem CommentRules.stripLines_append (style : CommentRules) (region : Region)
    (lines more : List Line) :
    style.stripLines region (lines ++ more) =
      style.stripLines region lines ++
        style.stripLines (style.regionAfter region lines) more := by
  induction lines generalizing region with
  | nil => rfl
  | cons line lines ih => exact congrArg ((style.stripLine region line).1 :: ·) (ih _)

/-- The lines of a file under more lines are the same lines, with the others stripped in turn. -/
theorem sourceLines_append_eq (style : CommentRules) (lines more : List Line) :
    sourceLines style (lines ++ more) = sourceLines style lines ++
      List.zipWith SourceLine.mk more
        (style.stripLines (style.regionAfter .code lines) more) := by
  rw [sourceLines, CommentRules.strip, style.stripLines_append]
  exact List.zipWith_append (style.length_stripLines .code lines).symm

/-- The lines of a file with their stripped copies do not depend on those that follow. -/
theorem sourceLines_append (style : CommentRules) (lines more : List Line) :
    ∃ rest, sourceLines style (lines ++ more) = sourceLines style lines ++ rest :=
  ⟨_, sourceLines_append_eq style lines more⟩

/-! ## Places -/

namespace Place

/-- The place with more lines at the bottom of its file. -/
def overLines (more : List SourceLine) (p : Place) : Place :=
  { p with below := p.below ++ more }

@[simp] theorem code_overLines (more : List SourceLine) (p : Place) :
    (p.overLines more).code = p.code := rfl

@[simp] theorem number_overLines (more : List SourceLine) (p : Place) :
    (p.overLines more).number = p.number := rfl

@[simp] theorem below_overLines (more : List SourceLine) (p : Place) :
    (p.overLines more).below = p.below ++ more := rfl

/-- The code from a place on has the place itself and the lines below it. -/
theorem length_codeFromHere (p : Place) : p.codeFromHere.length = p.below.length + 1 := by
  rw [codeFromHere, List.length_cons, List.length_map]

/-- Over more lines the code from a place on ends in theirs. -/
theorem codeFromHere_overLines (more : List SourceLine) (p : Place) :
    (p.overLines more).codeFromHere = p.codeFromHere ++ more.map (·.code) := by
  rw [codeFromHere, codeFromHere, overLines, List.map_append]
  rfl

end Place

/-- The places of lines over others come first, and the others lie under all of them. -/
theorem placesFrom_append (above lines more : List SourceLine) :
    placesFrom above (lines ++ more) =
      (placesFrom above lines).map (Place.overLines more) ++
        placesFrom (lines.reverse ++ above) more := by
  induction lines generalizing above with
  | nil => rfl
  | cons line lines ih =>
    rw [List.cons_append, placesFrom, placesFrom, ih, List.map_cons, List.reverse_cons,
      List.append_assoc]
    rfl

/-- Behind the places of some lines stand those of the lines below them. -/
theorem drop_placesFrom (above lines more : List SourceLine) :
    (placesFrom above (lines ++ more)).drop lines.length =
      placesFrom (lines.reverse ++ above) more := by
  rw [placesFrom_append]
  exact List.drop_left' (by rw [List.length_map, length_placesFrom])

/-- Below a place over more lines come its own places, then theirs. -/
theorem Place.following_overLines (more : List SourceLine) (p : Place) :
    (p.overLines more).following =
      p.following.map (Place.overLines more) ++
        placesFrom (p.below.reverse ++ p.here :: p.above) more :=
  placesFrom_append (p.here :: p.above) p.below more

/-- A place in the first lines of a file is a place of these lines alone, over the others. -/
theorem exists_overLines_of_mem_places {lines more : List SourceLine} {p : Place}
    (h : p ∈ places (lines ++ more)) (hnumber : p.number ≤ lines.length) :
    ∃ q ∈ places lines, q.overLines more = p := by
  rw [places, placesFrom_append, List.append_nil] at h
  rcases List.mem_append.mp h with hfirst | hmore
  · exact List.mem_map.mp hfirst
  · have hmem := List.mem_map_of_mem (f := Place.number) hmore
    rw [map_number_placesFrom, List.mem_range'_1, List.length_reverse] at hmem
    omega

/-- A place of a file is one of a longer file, over the lines that were added. -/
theorem overLines_mem_places {lines : List SourceLine} {p : Place} (h : p ∈ places lines)
    (more : List SourceLine) : p.overLines more ∈ places (lines ++ more) := by
  rw [places, placesFrom_append]
  exact List.mem_append_left _ (List.mem_map_of_mem h)

/-- The places below a place are places of its file. -/
theorem following_subset {above lines : List SourceLine} {p : Place}
    (h : p ∈ placesFrom above lines) : p.following ⊆ placesFrom above lines := by
  induction lines generalizing above with
  | nil => simp [placesFrom] at h
  | cons line lines ih =>
    rw [placesFrom] at h ⊢
    rcases List.mem_cons.mp h with rfl | hrest
    · exact List.subset_cons_self _ _
    · exact List.Subset.trans (ih hrest) (List.subset_cons_self _ _)

/-! ## Lines by their numbers -/

/-- A place splits the lines that it is a place of. -/
theorem drop_of_mem_placesFrom {above lines : List SourceLine} {p : Place}
    (h : p ∈ placesFrom above lines) :
    ∃ n, p.above.length = above.length + n ∧ lines.drop n = p.here :: p.below := by
  induction lines generalizing above with
  | nil => cases h
  | cons line lines ih =>
    rw [placesFrom] at h
    rcases List.mem_cons.mp h with rfl | hrest
    · exact ⟨0, rfl, rfl⟩
    · obtain ⟨n, hn, hdrop⟩ := ih hrest
      refine ⟨n + 1, ?_, hdrop⟩
      rw [hn, List.length_cons]
      omega

/-- The line of a place is the one at its number. -/
theorem getElem?_of_mem_placesFrom {above lines : List SourceLine} {p : Place}
    (h : p ∈ placesFrom above lines) :
    ∃ n, p.number = above.length + n + 1 ∧ lines[n]? = some p.here := by
  obtain ⟨n, habove, hdrop⟩ := drop_of_mem_placesFrom h
  refine ⟨n, by rw [Place.number, habove], ?_⟩
  rw [← List.head?_drop, hdrop]
  rfl

/-- A place has the lines of the file from its number on. -/
theorem drop_of_mem_places {lines : List SourceLine} {p : Place} (h : p ∈ places lines) :
    lines.drop (p.number - 1) = p.here :: p.below := by
  obtain ⟨n, hn, hdrop⟩ := drop_of_mem_placesFrom h
  have hnumber : p.number - 1 = n := by
    rw [Place.number, hn, List.length_nil]
    omega
  rw [hnumber, hdrop]

/-- The stripped lines from a place on are those of the file from its number on. -/
theorem codeFromHere_eq_drop {style : CommentRules} {lines : List Line} {p : Place}
    (h : p ∈ places (sourceLines style lines)) :
    p.codeFromHere = (style.strip lines).drop (p.number - 1) := by
  rw [← map_code_sourceLines, ← List.map_drop, drop_of_mem_places h]
  rfl

/-- The written lines from a place on are those of the file from its number on. -/
theorem rawFromHere_eq_drop {style : CommentRules} {lines : List Line} {p : Place}
    (h : p ∈ places (sourceLines style lines)) :
    p.rawFromHere = lines.drop (p.number - 1) := by
  have hraw : (sourceLines style lines).map (·.raw) = lines :=
    map_raw_zipWith (Nat.le_of_eq (style.length_strip lines).symm)
  rw [← congrArg (List.drop (p.number - 1)) hraw, ← List.map_drop, drop_of_mem_places h]
  rfl

/-- What a place of a file reads as its header is collected from its line on. -/
theorem headerFrom_of_mem_places {style : CommentRules} {lines : List Line} {p : Place}
    (h : p ∈ places (sourceLines style lines)) :
    headerFrom (some style) Place.headerWindow (style.strip lines) lines (p.number - 1) =
      (p.header style, p.number - 1 + p.headerExtent) := by
  rw [headerFrom, ← codeFromHere_eq_drop h, ← rawFromHere_eq_drop h]
  rfl

/-! ## Places with brace depths -/

/-- The brace depth behind some lines. -/
def depthAfter (depth : Nat) (lines : List Line) : Nat :=
  lines.foldl (fun depth line => depth + openBraces line - closeBraces line) depth

/-- The depths go on below from the depth that the lines above leave. -/
theorem depthsOfLinesFrom_append (depth : Nat) (lines more : List Line) :
    depthsOfLinesFrom depth (lines ++ more) =
      depthsOfLinesFrom depth lines ++ depthsOfLinesFrom (depthAfter depth lines) more := by
  induction lines generalizing depth with
  | nil => rfl
  | cons line lines ih => exact congrArg (depth :: ·) (ih _)

/-- The places of the lines that follow given ones, from the brace depth behind these on. -/
def Extract.placesWithDepthsFrom (depth : Nat) (above lines : List SourceLine) :
    List (Nat × Place) :=
  (depthsOfLinesFrom depth (lines.map (·.code))).zip (placesFrom above lines)

/-- The places of a file with their depths are read from depth zero on. -/
theorem Extract.placesWithDepths_places (lines : List SourceLine) :
    placesWithDepths (places lines) = placesWithDepthsFrom 0 [] lines := by
  rw [placesWithDepths, map_code_places]
  rfl

/-- The first place has the depth to start with, and the next one what its braces leave. -/
theorem Extract.placesWithDepthsFrom_cons (depth : Nat) (above : List SourceLine)
    (line : SourceLine) (lines : List SourceLine) :
    placesWithDepthsFrom depth above (line :: lines) = (depth, ⟨above, line, lines⟩) ::
      placesWithDepthsFrom (depth + openBraces line.code - closeBraces line.code) (line :: above)
        lines := rfl

/-- Behind the lines above, the places of a file start at the depth that these leave. -/
theorem Extract.drop_placesWithDepthsFrom (depth : Nat) (above lines more : List SourceLine) :
    (placesWithDepthsFrom depth above (lines ++ more)).drop lines.length =
      placesWithDepthsFrom (depthAfter depth (lines.map (·.code))) (lines.reverse ++ above)
        more := by
  have hlength : (depthsOfLinesFrom depth (lines.map (·.code))).length = lines.length := by
    rw [length_depthsOfLinesFrom, List.length_map]
  rw [placesWithDepthsFrom, List.zip, List.drop_zipWith, drop_placesFrom, List.map_append,
    depthsOfLinesFrom_append, List.drop_left' hlength]
  rfl

/-- Below lines that come back to depth zero a line begins at depth zero. -/
theorem Extract.exists_placesWithDepths_append {above : List SourceLine} (here : SourceLine)
    (below : List SourceLine) (hdepth : depthAfter 0 (above.map (·.code)) = 0) :
    ∃ first rest, placesWithDepths (places (above ++ here :: below)) =
        first ++ (0, ⟨above.reverse, here, below⟩) :: rest ∧
      (∀ pair ∈ first, pair.2.number ≠ above.length + 1) ∧
      ∀ pair ∈ rest, pair.2.number ≠ above.length + 1 := by
  let p : Place := ⟨above.reverse, here, below⟩
  let higher := (places above).map (Place.overLines (here :: below))
  have hplaces : places (above ++ here :: below) = higher ++ p :: p.following := by
    rw [places, placesFrom_append, List.append_nil]
    rfl
  have habove : p.above.length = above.length := List.length_reverse
  have hlength : (depthsOfLinesFrom 0 (above.map (·.code))).length = higher.length := by
    rw [length_depthsOfLinesFrom, List.length_map, List.length_map, places, length_placesFrom]
  refine ⟨(depthsOfLinesFrom 0 (above.map (·.code))).zip higher,
    (depthsOfLinesFrom (0 + openBraces here.code - closeBraces here.code)
      (below.map (·.code))).zip p.following, ?_, fun pair hpair => ?_, fun pair hpair => ?_⟩
  · rw [placesWithDepths, map_code_places, List.map_append, hplaces, depthsOfLines,
      depthsOfLinesFrom_append, hdepth, List.zip_append hlength]
    rfl
  · obtain ⟨q, hq, hover⟩ := List.mem_map.mp (List.of_mem_zip hpair).2
    have hmem := List.mem_map_of_mem (f := Place.number) hq
    rw [map_number_places, mem_lineNumbers] at hmem
    rw [← hover, Place.number_overLines]
    omega
  · have hmem := List.mem_map_of_mem (f := Place.number) (List.of_mem_zip hpair).2
    rw [Place.following, map_number_placesFrom, List.mem_range'_1, List.length_cons] at hmem
    omega

/-! ## A blank line at the top -/

/-! ### Lines -/

/-- A line without characters. -/
def SourceLine.blank : SourceLine := ⟨[], []⟩

theorem CommentRules.strip_blank (style : CommentRules) (lines : List Line) :
    style.strip ([] :: lines) = [] :: style.strip lines := rfl

theorem sourceLines_blank (style : CommentRules) (lines : List Line) :
    sourceLines style ([] :: lines) = .blank :: sourceLines style lines := rfl

/-! ### Places -/

namespace Place

/-- The place below one more blank line at the top of the file. -/
def underBlank (p : Place) : Place :=
  { p with above := p.above ++ [.blank] }

/-- The place of a blank line at the top of a file. -/
def atBlank (lines : List SourceLine) : Place := ⟨[], .blank, lines⟩

end Place

theorem placesFrom_underBlank (above lines : List SourceLine) :
    placesFrom (above ++ [.blank]) lines = (placesFrom above lines).map Place.underBlank := by
  induction lines generalizing above with
  | nil => rfl
  | cons line lines ih =>
    rw [placesFrom, placesFrom, List.map_cons, ← ih, List.cons_append]
    rfl

theorem places_blank (lines : List SourceLine) :
    places (.blank :: lines) = .atBlank lines :: (places lines).map Place.underBlank := by
  rw [places, placesFrom, places, ← placesFrom_underBlank]
  rfl

theorem decoratorsUpward_append_blank {openers : List (List Char)} (h : [] ∉ openers)
    (above : List Line) :
    decoratorsUpward openers (above ++ [[]]) = decoratorsUpward openers above := by
  induction above with
  | nil =>
    -- the search upwards stops at the blank line as it stops at the top of the file
    have hopens : ¬ openers.any (·.isPrefixOf []) = true := by
      rw [List.any_eq_true]
      rintro ⟨opener, hmem, hstarts⟩
      rw [List.isPrefixOf_iff_prefix, List.prefix_nil] at hstarts
      exact h (hstarts ▸ hmem)
    show (if openers.any (·.isPrefixOf []) then _ else _) = _
    rw [if_neg hopens]
    rfl
  | cons line above ih =>
    rw [List.cons_append, decoratorsUpward, decoratorsUpward, ih]

namespace Place

@[simp] theorem code_underBlank (p : Place) : p.underBlank.code = p.code := rfl

@[simp] theorem raw_underBlank (p : Place) : p.underBlank.raw = p.raw := rfl

@[simp] theorem below_underBlank (p : Place) : p.underBlank.below = p.below := rfl

@[simp] theorem rawFromHere_underBlank (p : Place) : p.underBlank.rawFromHere = p.rawFromHere := rfl

@[simp] theorem header_underBlank (style : CommentRules) (p : Place) :
    p.underBlank.header style = p.header style := rfl

@[simp] theorem braceBody_underBlank (p : Place) : p.underBlank.braceBody = p.braceBody := rfl

@[simp] theorem number_underBlank (p : Place) : p.underBlank.number = p.number + 1 := by
  rw [number, underBlank, List.length_append]
  rfl

theorem decorators_underBlank {openers : List String} (h : "" ∉ openers) (p : Place) :
    p.underBlank.decorators openers = p.decorators openers := by
  have hopeners : [] ∉ openers.map (·.toList) := by
    intro hmem
    obtain ⟨opener, hopener, hempty⟩ := List.mem_map.mp hmem
    rw [String.toList_eq_nil_iff] at hempty
    exact h (hempty ▸ hopener)
  rw [decorators, decorators, decoratorsAbove, decoratorsAbove, underBlank, List.map_append]
  exact congrArg List.reverse (decoratorsUpward_append_blank hopeners _)

@[simp] theorem following_underBlank (p : Place) :
    p.underBlank.following = p.following.map underBlank :=
  placesFrom_underBlank (p.here :: p.above) p.below

@[simp] theorem map_code_map_underBlank (ps : List Place) :
    (ps.map underBlank).map (·.code) = ps.map (·.code) := by
  rw [List.map_map]
  rfl

@[simp] theorem indentedBody_underBlank (p : Place) :
    p.underBlank.indentedBody = p.indentedBody.map underBlank := by
  rw [indentedBody, indentedBody, following_underBlank, ← List.map_drop, map_code_map_underBlank,
    List.map_take]
  rfl

end Place

/-! ### Places with brace depths -/

namespace Extract

/-- What keeps the lines keeps the depths. -/
theorem withDepths_map {f : Place → Place} (hcode : ∀ p, (f p).code = p.code) (depth : Int)
    (ps : List Place) :
    withDepths depth (ps.map f) = (withDepths depth ps).map (Prod.map id f) := by
  induction ps generalizing depth with
  | nil => rfl
  | cons p ps ih =>
    rw [List.map_cons, withDepths, withDepths, List.map_cons, hcode, ih]
    rfl

theorem bodyWithDepths_underBlank (p : Place) :
    bodyWithDepths p.underBlank = (bodyWithDepths p).map (Prod.map id Place.underBlank) := by
  rw [bodyWithDepths, bodyWithDepths, Place.following_underBlank, ← List.map_take,
    ← List.map_cons, withDepths_map Place.code_underBlank]
  rfl

theorem placesWithDepths_blank (ps : List Place) (lines : List SourceLine) :
    placesWithDepths (.atBlank lines :: ps.map Place.underBlank) =
      (0, .atBlank lines) :: (placesWithDepths ps).map (Prod.map id Place.underBlank) := by
  have hdepths : depthsOfLines ((Place.atBlank lines :: ps.map Place.underBlank).map (·.code)) =
      0 :: depthsOfLines (ps.map (·.code)) := by
    rw [List.map_cons, Place.map_code_map_underBlank]
    rfl
  rw [placesWithDepths, hdepths, List.zip_cons_cons, placesWithDepths, List.zip_map_right]

end Extract

/-! ## A blank line at the bottom -/

/-! ### Lines -/

/-- An empty line strips to nothing and leaves the region as it is. -/
theorem CommentRules.stripLine_nil (style : CommentRules) (region : Region) :
    style.stripLine region [] = ([], region) := by
  cases region <;> rfl

theorem CommentRules.stripLines_append_blank (style : CommentRules) (region : Region)
    (lines : List Line) :
    style.stripLines region (lines ++ [[]]) = style.stripLines region lines ++ [[]] := by
  have hblank : ∀ after, style.stripLines after [[]] = [[]] := fun after => by
    show (style.stripLine after []).1 :: _ = _
    rw [style.stripLine_nil]
    rfl
  rw [style.stripLines_append, hblank]

theorem sourceLines_append_blank (style : CommentRules) (lines : List Line) :
    sourceLines style (lines ++ [[]]) = sourceLines style lines ++ [.blank] := by
  have hlength : lines.length = (style.strip lines).length := (style.length_strip lines).symm
  have hstrip : style.strip (lines ++ [[]]) = style.strip lines ++ [[]] :=
    style.stripLines_append_blank .code lines
  rw [sourceLines, hstrip, List.zipWith_append hlength]
  rfl

/-! ### Extents -/

/-- A blank line closes no parenthesis. -/
theorem headerExtentFrom_append_blank {balance : Int} {lines : List Line}
    (h : lines ≠ [] ∨ 0 < balance) :
    headerExtentFrom balance (lines ++ [[]]) = headerExtentFrom balance lines := by
  induction lines generalizing balance with
  | nil =>
    have hopen : 0 < balance := h.resolve_left fun hne => hne rfl
    have hblank : ¬ balance + parenBalance [] ≤ 0 := by
      show ¬ balance + 0 ≤ 0
      omega
    show (if balance + parenBalance [] ≤ 0 then _ else _) = none
    rw [if_neg hblank]
    rfl
  | cons line lines ih =>
    rw [List.cons_append, headerExtentFrom, headerExtentFrom]
    by_cases hclosed : balance + parenBalance line ≤ 0
    · rw [if_pos hclosed, if_pos hclosed]
    · rw [if_neg hclosed, if_neg hclosed, ih (.inr (by omega))]

theorem headerExtent_append_blank (window : Nat) {lines : List Line} (hne : lines ≠ []) :
    headerExtent window (lines ++ [[]]) = headerExtent window lines := by
  -- within its window the header sees the blank line only behind all others
  have htake : headerExtentFrom 0 ((lines ++ [[]]).take window) =
      headerExtentFrom 0 (lines.take window) := by
    by_cases hwindow : window ≤ lines.length
    · rw [List.take_append_of_le_length hwindow]
    · have hall : (lines ++ [[]]).take window = lines ++ [[]] := by
        refine List.take_of_length_le ?_
        rw [List.length_append, List.length_singleton]
        omega
      rw [hall, List.take_of_length_le (by omega), headerExtentFrom_append_blank (.inl hne)]
  cases lines with
  | nil => exact absurd rfl hne
  | cons first lines =>
    rw [List.cons_append] at htake
    rw [List.cons_append, headerExtent, headerExtent, htake]

/-- Where a scan for the closing brace may stop before the last line. -/
def stopsAfter (s : BraceScan) (isFirst : Bool) (line : Line) : Bool :=
  ((s.line line).opened && (s.line line).depth ≤ 0) ||
    (!(s.line line).opened && (endsStatement line || (isFirst && isWholeArrow line)))

/-- A scan stops on its first line, or goes on with the next one. -/
theorem braceExtentFrom_cons_cons (s : BraceScan) (isFirst : Bool) (line next : Line)
    (lines : List Line) :
    braceExtentFrom s isFirst (line :: next :: lines) =
      if stopsAfter s isFirst line then 0
      else braceExtentFrom (s.line line) false (next :: lines) + 1 := by
  rw [braceExtentFrom, stopsAfter]
  cases hclosed : (s.line line).opened && decide ((s.line line).depth ≤ 0) with
  | true => rw [if_pos rfl, Bool.true_or, if_pos rfl]
  | false =>
    rw [if_neg Bool.false_ne_true, Bool.false_or]

/-- A brace body ends on the same line, unless it runs to the last line, where it may take the blank
line too. -/
theorem braceExtentFrom_append_blank (s : BraceScan) (isFirst : Bool) (line : Line)
    (lines : List Line) :
    braceExtentFrom s isFirst (line :: lines ++ [[]]) =
        braceExtentFrom s isFirst (line :: lines) ∧
          braceExtentFrom s isFirst (line :: lines) ≤ lines.length ∨
      braceExtentFrom s isFirst (line :: lines ++ [[]]) = lines.length + 1 ∧
        braceExtentFrom s isFirst (line :: lines) = lines.length := by
  induction lines generalizing s isFirst line with
  | nil =>
    have hlast : braceExtentFrom s isFirst [line] = 0 := rfl
    have hblank : braceExtentFrom (s.line line) false [[]] = 0 := rfl
    rw [List.cons_append, List.nil_append, braceExtentFrom_cons_cons, hlast, hblank]
    by_cases hstops : stopsAfter s isFirst line = true
    · rw [if_pos hstops]
      exact .inl ⟨rfl, Nat.zero_le _⟩
    · rw [if_neg hstops]
      exact .inr ⟨rfl, rfl⟩
  | cons next lines ih =>
    have hrest := ih (s.line line) false next
    rw [List.cons_append] at hrest
    rw [List.cons_append, List.cons_append, braceExtentFrom_cons_cons, braceExtentFrom_cons_cons,
      List.length_cons]
    by_cases hstops : stopsAfter s isFirst line = true
    · rw [if_pos hstops, if_pos hstops]
      exact .inl ⟨rfl, Nat.zero_le _⟩
    · rw [if_neg hstops, if_neg hstops]
      omega

/-! ### Places -/

namespace Place

/-- The place above one more blank line at the bottom of the file. -/
def overBlank (p : Place) : Place :=
  { p with below := p.below ++ [.blank] }

/-- The place of a blank line at the bottom of a file. -/
def underAll (lines : List SourceLine) : Place := ⟨lines.reverse, .blank, []⟩

@[simp] theorem code_overBlank (p : Place) : p.overBlank.code = p.code := rfl

@[simp] theorem number_overBlank (p : Place) : p.overBlank.number = p.number := rfl

@[simp] theorem decorators_overBlank (openers : List String) (p : Place) :
    p.overBlank.decorators openers = p.decorators openers := rfl

theorem codeFromHere_overBlank (p : Place) :
    p.overBlank.codeFromHere = p.codeFromHere ++ [[]] :=
  codeFromHere_overLines [.blank] p

theorem rawFromHere_overBlank (p : Place) : p.overBlank.rawFromHere = p.rawFromHere ++ [[]] := by
  rw [rawFromHere, rawFromHere, overBlank, List.map_append]
  rfl

theorem headerExtent_overBlank (p : Place) : p.overBlank.headerExtent = p.headerExtent := by
  have hne : p.codeFromHere ≠ [] := List.cons_ne_nil _ _
  rw [headerExtent, headerExtent, codeFromHere_overBlank, headerExtent_append_blank _ hne]

@[simp] theorem header_overBlank (style : CommentRules) (p : Place) :
    p.overBlank.header style = p.header style := by
  have hextent : p.headerExtent < p.rawFromHere.length := by
    have hlt := headerExtent_lt headerWindow (List.cons_ne_nil p.here.code (p.below.map (·.code)))
    rw [List.length_cons, List.length_map] at hlt
    rw [rawFromHere, List.length_cons, List.length_map]
    exact hlt
  rw [header, header, headerExtent_overBlank, rawFromHere_overBlank,
    List.take_append_of_le_length (by omega)]

theorem braceBody_overBlank (p : Place) :
    p.overBlank.braceBody = p.braceBody ∨ p.overBlank.braceBody = p.braceBody ++ [[]] := by
  have hbelow : p.overBlank.below.map (·.code) = p.below.map (·.code) ++ [[]] := by
    rw [overBlank, List.map_append]
    rfl
  have hextent := braceExtentFrom_append_blank .start true p.here.code (p.below.map (·.code))
  rw [braceBody, braceBody, hbelow, braceExtent, codeFromHere_overBlank, braceExtent, codeFromHere,
    SourceSurvey.braceExtent, SourceSurvey.braceExtent]
  rcases hextent with ⟨hsame, hle⟩ | ⟨hmore, hall⟩
  · rw [hsame]
    exact .inl (List.take_append_of_le_length hle)
  · rw [hmore, hall]
    refine .inr ?_
    rw [List.take_of_length_le (by simp), List.take_length]

end Place

theorem placesFrom_append_blank (above lines : List SourceLine) :
    placesFrom above (lines ++ [.blank]) =
      (placesFrom above lines).map Place.overBlank ++ [⟨lines.reverse ++ above, .blank, []⟩] :=
  placesFrom_append above lines [.blank]

theorem places_append_blank (lines : List SourceLine) :
    places (lines ++ [.blank]) = (places lines).map Place.overBlank ++ [.underAll lines] := by
  rw [places, placesFrom_append_blank, List.append_nil]
  rfl

/-! ### Places with brace depths -/

/-- The places above a blank line at the bottom keep their depths. -/
theorem Extract.placesWithDepths_append_blank (ps : List Place) (lines : List SourceLine) :
    ∃ depth, placesWithDepths (ps.map Place.overBlank ++ [.underAll lines]) =
      (placesWithDepths ps).map (Prod.map id Place.overBlank) ++ [(depth, .underAll lines)] := by
  have hcodes : (ps.map Place.overBlank ++ [Place.underAll lines]).map (·.code) =
      ps.map (·.code) ++ [[]] := by
    rw [List.map_append, List.map_map]
    rfl
  have hdepths := depthsOfLinesFrom_append 0 (ps.map (·.code)) [[]]
  have hlength : (depthsOfLinesFrom 0 (ps.map (·.code))).length =
      (ps.map Place.overBlank).length := by
    rw [length_depthsOfLinesFrom, List.length_map, List.length_map]
  refine ⟨depthAfter 0 (ps.map (·.code)), ?_⟩
  rw [placesWithDepths, hcodes, depthsOfLines, hdepths, List.zip_append hlength, placesWithDepths,
    List.zip_map_right]
  rfl

end SourceSurvey
