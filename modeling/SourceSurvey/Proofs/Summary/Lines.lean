import SourceSurvey.Proofs.Finding.Line
import SourceSurvey.Proofs.Finding.Shift
import SourceSurvey.Summary.OfText

/-!
# Lines in a summary

Main statements: every line that a summary names is a line of its text, the lines of code are among
them, and what a summary lists stands in the order of the text; line feeds before a text move every
line of its summary down by their number and change nothing else in it. A text without a summary has
none below line feeds either.
-/

namespace SourceSurvey

/-! ## Findings -/

/-- Hardcoded values are listed line by line. -/
theorem Family.hardcoded_lines (family : Family) (lines : List Line) :
    ((family.hardcoded lines).map (·.line)).Pairwise (· ≤ ·) ∧
      ∀ h ∈ family.hardcoded lines, h.line ∈ lineNumbers lines.length := by
  cases family with
  | html | css => exact Hardcoded.ofMarkup_lines lines
  | python | javascript | php => exact Hardcoded.ofCode_lines _ lines

/-- An unused declaration is reported on a line of the text. -/
theorem Family.unused_mem {lines : List Line} {found : Extraction} (family : Family)
    (hfound : found.WellPlaced lines.length) :
    ∀ u ∈ family.unused lines found, u.line ∈ lineNumbers lines.length := by
  cases family with
  | html | css => exact fun _ hu => absurd hu List.not_mem_nil
  | python | javascript | php => exact Unused.ofLines_mem _ hfound

/-! ## Counts -/

/-- No line of code is counted twice. -/
theorem Family.codeLineCount_le (family : Family) (lines : List Line) :
    family.codeLineCount lines ≤ lines.length := by
  have hcount : ∀ (style : CommentRules) (counts : Line → Bool),
      (style.strip lines).countP counts ≤ lines.length := by
    intro style counts
    rw [← style.length_strip lines]
    exact List.countP_le_length
  cases family <;> exact hcount _ _

/-! ## Summaries -/

/-- The lines that a summary names are lines of its text, and what it lists stands in the order of
the text. -/
structure Summary.WellPlaced (s : Summary) : Prop where
  codeLines_le : s.codeLines ≤ s.totalLines
  types_within : ∀ t ∈ s.types, 1 ≤ t.line ∧ t.line ≤ s.totalLines
  methods_within : ∀ t ∈ s.types, ∀ m ∈ t.methods, 1 ≤ m.line ∧ m.line ≤ s.totalLines
  routines_within : ∀ c ∈ s.routines, 1 ≤ c.line ∧ c.line ≤ s.totalLines
  imports_within : ∀ i ∈ s.imports, 1 ≤ i.line ∧ i.line ≤ i.endLine ∧ i.endLine ≤ s.totalLines
  hardcoded_within : ∀ h ∈ s.hardcoded, 1 ≤ h.line ∧ h.line ≤ s.totalLines
  unused_within : ∀ u ∈ s.unused, 1 ≤ u.line ∧ u.line ≤ s.totalLines
  markers_within : ∀ m ∈ s.markers, 1 ≤ m.line ∧ m.line ≤ s.totalLines
  riskPoints_within : ∀ n ∈ s.riskPoints, 1 ≤ n ∧ n ≤ s.totalLines
  types_increasing : (s.types.map (·.line)).Pairwise (· < ·)
  methods_increasing : ∀ t ∈ s.types, (t.methods.map (·.line)).Pairwise (· < ·)
  routines_increasing : (s.routines.map (·.line)).Pairwise (· < ·)
  riskPoints_increasing : s.riskPoints.Pairwise (· < ·)
  markers_increasing : (s.markers.map (·.line)).Pairwise (· < ·)
  imports_ordered : (s.imports.map (·.line)).Pairwise (· ≤ ·)
  hardcoded_ordered : (s.hardcoded.map (·.line)).Pairwise (· ≤ ·)

/-- What is extracted from a text stands on its lines, in their order. -/
theorem Family.wellPlaced_extract {family : Family} {lines : List Line} {found : Extraction}
    (h : family.extract lines = .ok found) : found.WellPlaced lines.length := by
  cases family with
  | html => exact Extract.Html.wellPlaced_extract h
  | python =>
    cases h
    exact Extract.Python.wellPlaced_extract lines
  | javascript =>
    cases h
    exact Extract.JavaScript.wellPlaced_extract lines
  | php =>
    cases h
    exact Extract.Php.wellPlaced_extract lines
  | css =>
    cases h
    exact Extract.Css.wellPlaced_extract lines

section Sublist

variable {α : Type} {as : List α} {line : α → Nat} {total : Nat}

/-- What stands on some of the lines stands between the first and the last one. -/
theorem within_of_sublist (h : (as.map line).Sublist (lineNumbers total)) :
    ∀ a ∈ as, 1 ≤ line a ∧ line a ≤ total := fun _ ha =>
  mem_lineNumbers.mp (h.subset (List.mem_map_of_mem ha))

/-- Some of the line numbers, in their order, increase. -/
theorem increasing_of_sublist {ns : List Nat} (h : ns.Sublist (lineNumbers total)) :
    ns.Pairwise (· < ·) :=
  (pairwise_lineNumbers total).sublist h

end Sublist

/-- Every summary of a text is well placed. -/
theorem wellPlaced_ofText {text : List Char} {fileName tag : String} {s : Summary}
    (h : Summary.ofText text fileName tag = .ok s) : s.WellPlaced := by
  unfold Summary.ofText at h
  dsimp only at h
  cases hfound : (Language.family tag).extract (Text.splitLines text) with
  | error e =>
    rw [hfound] at h
    cases h
  | ok found =>
    rw [hfound] at h
    cases h
    have hplaced := Family.wellPlaced_extract hfound
    have hhardcoded := (Language.family tag).hardcoded_lines (Text.splitLines text)
    have hmarkers := Marker.ofLines_sublist (Text.splitLines text)
    -- fields about lines follow from places in the file, fields about order from sublists of them
    exact {
      codeLines_le := Family.codeLineCount_le _ _
      types_within := within_of_sublist hplaced.types_sublist
      methods_within := fun t ht => within_of_sublist (hplaced.methods_sublist t ht)
      routines_within := within_of_sublist hplaced.routines_sublist
      imports_within := hplaced.imports_within
      hardcoded_within := fun v hv => mem_lineNumbers.mp (hhardcoded.2 v hv)
      unused_within := fun u hu => mem_lineNumbers.mp (Family.unused_mem _ hplaced u hu)
      markers_within := within_of_sublist hmarkers
      riskPoints_within := fun n hn => mem_lineNumbers.mp (hplaced.riskPoints_sublist.subset hn)
      types_increasing := increasing_of_sublist hplaced.types_sublist
      methods_increasing := fun t ht => increasing_of_sublist (hplaced.methods_sublist t ht)
      routines_increasing := increasing_of_sublist hplaced.routines_sublist
      riskPoints_increasing := increasing_of_sublist hplaced.riskPoints_sublist
      markers_increasing := increasing_of_sublist hmarkers
      imports_ordered := hplaced.imports_ordered
      hardcoded_ordered := hhardcoded.1 }

/-- A file with an import, a class with a method, and a note. -/
theorem wellPlaced_ofText_class : ∃ s,
    Summary.ofText "import os\n\nclass A:\n    def f(self):\n        pass  # TODO\n".toList "a.py"
      "python" = .ok s ∧ s.WellPlaced := by
  refine ⟨_, rfl, ?_⟩
  have hsummary : Summary.ofText
      "import os\n\nclass A:\n    def f(self):\n        pass  # TODO\n".toList "a.py" "python" =
        .ok _ := rfl
  exact wellPlaced_ofText hsummary

/-! ## Line feeds before a text -/

/-! ### Meta blocks -/

namespace MetaBlock

open Pattern

/-- Whether a block of annotations starts does not depend on the character before it. -/
theorem block_ignoresBefore : block.IgnoresBefore := by
  unfold block
  refine IgnoresBefore.bind ?_ _
  -- every mark that opens a block is a fixed text
  refine (ignoresBefore_text _ _).orElse ((ignoresBefore_text _ _).orElse (IgnoresBefore.orElse ?_
    (ignoresBefore_text _ _)))
  exact (ignoresBefore_text _ _).opt_bind (ignoresBefore_text _ _)

theorem block_lineFeed (text : List Char) : (block ⟨none, '\n' :: text⟩).toList = [] := rfl

/-- A line feed before a text changes nothing in its meta block. -/
theorem ofText?_lineFeed (text : List Char) : ofText? ('\n' :: text) = ofText? text := by
  have hvalue := search?_cons_of_ignoresBefore block_ignoresBefore (block_lineFeed text)
  have hofText : ∀ t, ofText? t = ((block.search? t).map (·.value)).map fun inside =>
      ofEntries ((Text.splitAt '\n' inside).filterMap entry?) := fun t => by
    rw [ofText?, Option.map_map]
    rfl
  rw [hofText, hofText, hvalue]

end MetaBlock

/-! ### Descriptions -/

namespace Description

variable (k : Nat)

theorem visibleMethods_shift (t : TypeDeclaration) :
    visibleMethods (t.shift k) = (visibleMethods t).map (·.shift k) := by
  unfold visibleMethods TypeDeclaration.shift
  rw [List.filter_map]
  rfl

theorem actions_map_shift (methods : List Routine) :
    actions (methods.map (·.shift k)) = actions methods := by
  unfold actions
  rw [List.map_map]
  rfl

/-- The first type with a property is the same one, moved, when the property ignores lines. -/
theorem find?_map_shift {accepts : TypeDeclaration → Bool}
    (h : ∀ t : TypeDeclaration, accepts (t.shift k) = accepts t) (types : List TypeDeclaration) :
    (types.map (·.shift k)).find? accepts = (types.find? accepts).map (·.shift k) := by
  rw [List.find?_map]
  exact congrArg (Option.map _) (congrArg (List.find? · types) (funext h))

theorem serviceSentence_shift (name : String) (types : List TypeDeclaration) :
    serviceSentence name (types.map (·.shift k)) = serviceSentence name types := by
  unfold serviceSentence
  rw [find?_map_shift k fun _ => rfl, List.head?_map, ← Option.map_or]
  cases (types.find? _).or types.head? with
  | none => rfl
  | some t =>
    dsimp only [Option.map_some]
    rw [visibleMethods_shift, actions_map_shift]

theorem modelSentence_shift (name : String) (types : List TypeDeclaration) :
    modelSentence name (types.map (·.shift k)) = modelSentence name types := by
  unfold modelSentence
  rw [find?_map_shift k fun _ => rfl]
  cases types.find? _ with
  | none => rfl
  | some t => rfl

theorem kindSentences_shift (name kind : String) (types : List TypeDeclaration)
    (routines : List Routine) :
    kindSentences name kind (types.map (·.shift k)) (routines.map (·.shift k)) =
      kindSentences name kind types routines := by
  unfold kindSentences
  rw [serviceSentence_shift, modelSentence_shift, List.length_map, List.length_map, List.map_map]
  rfl

theorem dependencySentence_shift (imports : List ImportStatement) :
    dependencySentence (imports.map (·.shift k)) = dependencySentence imports := by
  unfold dependencySentence outsideModules
  rw [List.map_map]
  rfl

theorem asyncSentence_shift (types : List TypeDeclaration) (routines : List Routine) :
    asyncSentence (types.map (·.shift k)) (routines.map (·.shift k)) =
      asyncSentence types routines := by
  have hcount : (routines.map (·.shift k) ++
      (types.map (·.shift k)).flatMap (·.methods)).countP (·.isAsync) =
        (routines ++ types.flatMap (·.methods)).countP (·.isAsync) := by
    rw [flatMap_methods_shift, ← List.map_append, List.countP_map]
    rfl
  unfold asyncSentence
  rw [hcount]

/-- The description of a file does not depend on lines. -/
theorem file_shift (block : Option MetaBlock) (types : List TypeDeclaration)
    (routines : List Routine) (imports : List ImportStatement) (fileName : String) :
    file block (types.map (·.shift k)) (routines.map (·.shift k)) (imports.map (·.shift k))
        fileName =
      file block types routines imports fileName := by
  unfold file
  split
  · rfl
  · dsimp only
    rw [kindSentences_shift, dependencySentence_shift, asyncSentence_shift]

theorem typeSentence_shift (t : TypeDeclaration) : typeSentence (t.shift k) = typeSentence t := by
  unfold typeSentence
  dsimp only
  rw [visibleMethods_shift, actions_map_shift, List.length_map]
  simp only [List.isEmpty_map]
  rfl

theorem type_shift (t : TypeDeclaration) : type (t.shift k) = type t := by
  have hfind : ((t.shift k).methods.find? fun m => constructorNames.contains m.name) =
      (t.methods.find? fun m => constructorNames.contains m.name).map (·.shift k) := by
    show (t.methods.map _).find? _ = _
    rw [List.find?_map]
    rfl
  unfold type
  rw [typeSentence_shift, hfind]
  cases t.methods.find? fun m => constructorNames.contains m.name with
  | none => rfl
  | some c => rfl

/-- Descriptions by name do not depend on lines when each of them does not. -/
theorem byName_map_shift {describe : TypeDeclaration → String}
    (h : ∀ t, describe (t.shift k) = describe t) (types : List TypeDeclaration) :
    byName describe (types.map (·.shift k)) = byName describe types := by
  unfold byName
  rw [List.foldl_map]
  congr 1
  funext acc t
  rw [h]
  rfl

theorem page_shift (block : Option MetaBlock) (sections : List TypeDeclaration)
    (imports : List ImportStatement) (fileName : String) :
    page block (sections.map (·.shift k)) (imports.map (·.shift k)) fileName =
      page block sections imports fileName := by
  unfold page
  split
  · rfl
  · dsimp only
    rw [List.countP_map, List.countP_map, List.length_map]
    rfl

theorem stylesheet_shift (block : Option MetaBlock) (rules : List TypeDeclaration)
    (imports : List ImportStatement) :
    stylesheet block (rules.map (·.shift k)) (imports.map (·.shift k)) =
      stylesheet block rules imports := by
  unfold stylesheet
  split
  · rfl
  · rw [List.length_map, List.map_map]
    simp only [List.isEmpty_map]
    rfl

theorem warnings_shift (block : Option MetaBlock) (imports : List ImportStatement)
    (checksUndeclared : Bool) :
    warnings block (imports.map (·.shift k)) checksUndeclared =
      warnings block imports checksUndeclared := by
  unfold warnings
  rw [List.map_map]
  rfl

end Description

/-! ### Families -/

namespace Family

/-- A blank line at the top moves what is extracted, in every family. -/
theorem extract_blank (family : Family) (lines : List Line) :
    family.extract ([] :: lines) = (family.extract lines).map (·.shift 1) := by
  cases family with
  | html => exact Extract.Html.extract_blank lines
  | python => exact congrArg Except.ok (Extract.Python.extract_blank lines)
  | javascript => exact congrArg Except.ok (Extract.JavaScript.extract_blank lines)
  | php => exact congrArg Except.ok (Extract.Php.extract_blank lines)
  | css => exact congrArg Except.ok (Extract.Css.extract_blank lines)

/-- A blank line holds no code. -/
theorem codeLineCount_blank (family : Family) (lines : List Line) :
    family.codeLineCount ([] :: lines) = family.codeLineCount lines := by
  have hcount : ∀ (style : CommentRules) (counts : Line → Bool), counts [] = false →
      (style.strip ([] :: lines)).countP counts = (style.strip lines).countP counts := by
    intro style counts hblank
    rw [style.strip_blank, List.countP_cons_of_neg]
    rw [hblank]
    exact Bool.false_ne_true
  cases family with
  | python =>
    unfold codeLineCount Extract.Python.codeLineCount
    exact hcount _ _ rfl
  | php =>
    unfold codeLineCount Extract.Php.codeLineCount
    exact hcount _ _ rfl
  | javascript | html | css =>
    unfold codeLineCount Extract.countNonBlank
    exact hcount _ _ rfl

theorem connections_shift (family : Family) (k : Nat) (imports : List ImportStatement) :
    family.connections (imports.map (·.shift k)) = family.connections imports := by
  have hmodules : Extract.importedModules (imports.map (·.shift k)) =
      Extract.importedModules imports := by
    unfold Extract.importedModules
    rw [List.map_map]
    rfl
  cases family with
  | python =>
    show Extract.Python.connections _ = Extract.Python.connections _
    unfold Extract.Python.connections
    rw [List.flatMap_map]
    rfl
  | javascript | php | html | css => exact hmodules

/-- A blank line at the top moves the hardcoded values, in every family. -/
theorem hardcoded_blank (family : Family) (lines : List Line) :
    family.hardcoded ([] :: lines) = (family.hardcoded lines).map (·.shift 1) := by
  cases family with
  | html | css => exact Hardcoded.ofMarkup_blank lines
  | python | javascript | php => exact Hardcoded.ofCode_blank _ lines

/-- A blank line at the top moves the unused declarations, in every family. -/
theorem unused_blank {family : Family} {lines : List Line} {found : Extraction}
    (h : family.extract lines = .ok found) :
    family.unused ([] :: lines) (found.shift 1) =
      (family.unused lines found).map (·.shift 1) := by
  have hplaced := wellPlaced_extract h
  cases family with
  | html | css => rfl
  | python =>
    cases h
    exact Unused.ofLines_blank _ hplaced (Extract.Python.namesBeginInLine_extract lines)
  | javascript =>
    cases h
    exact Unused.ofLines_blank _ hplaced (Extract.JavaScript.namesBeginInLine_extract lines)
  | php =>
    cases h
    exact Unused.ofLines_blank _ hplaced (Extract.Php.namesBeginInLine_extract lines)

/-- The description of a file does not depend on lines, in any family. -/
theorem description_shift (family : Family) (k : Nat) (block : Option MetaBlock)
    (found : Extraction) (fileName : String) :
    family.description block (found.shift k) fileName =
      family.description block found fileName := by
  cases family with
  | html => exact Description.page_shift k block found.types found.imports fileName
  | css => exact Description.stylesheet_shift k block found.types found.imports
  | python | javascript | php =>
    exact Description.file_shift k block found.types found.routines found.imports fileName

theorem typeDescriptions_shift (family : Family) (k : Nat) (types : List TypeDeclaration) :
    family.typeDescriptions (types.map (·.shift k)) = family.typeDescriptions types := by
  cases family with
  | html => exact Description.byName_map_shift k (fun _ => rfl) types
  | css => rfl
  | python | javascript | php =>
    exact Description.byName_map_shift k (Description.type_shift k) types

theorem warnings_shift (family : Family) (k : Nat) (block : Option MetaBlock)
    (imports : List ImportStatement) :
    family.warnings block (imports.map (·.shift k)) = family.warnings block imports := by
  cases family with
  | html | css => rfl
  | python | javascript | php => exact Description.warnings_shift k block imports _

end Family

/-! ### Summaries -/

/-- The summary with every line so much further down, of a text of so many more lines. -/
def Summary.shift (k : Nat) (s : Summary) : Summary :=
  { s with
    types := s.types.map (·.shift k)
    routines := s.routines.map (·.shift k)
    imports := s.imports.map (·.shift k)
    riskPoints := s.riskPoints.map (· + k)
    totalLines := s.totalLines + k
    hardcoded := s.hardcoded.map (·.shift k)
    unused := s.unused.map (·.shift k)
    markers := s.markers.map (·.shift k) }

/-- A line feed before a text moves every line of its summary down by one. -/
theorem ofText_lineFeed (text : List Char) (fileName tag : String) :
    Summary.ofText ('\n' :: text) fileName tag =
      (Summary.ofText text fileName tag).map (·.shift 1) := by
  -- the line feed ends an empty line, which stands before the lines of the text
  have hlines : Text.splitLines ('\n' :: text) = [] :: Text.splitLines text := rfl
  unfold Summary.ofText
  dsimp only
  rw [hlines, Family.extract_blank, MetaBlock.ofText?_lineFeed]
  cases hfound : (Language.family tag).extract (Text.splitLines text) with
  | error e => rfl
  | ok found =>
    refine congrArg Except.ok ?_
    dsimp only [Summary.shift]
    rw [Family.codeLineCount_blank, Family.hardcoded_blank, Family.unused_blank hfound,
      Family.description_shift, Marker.ofLines_blank]
    dsimp only [Extraction.shift]
    rw [Family.connections_shift, Family.warnings_shift, Family.typeDescriptions_shift,
      List.length_cons]

/-- A summary that moves by nothing is the summary itself. -/
theorem Summary.shift_zero (s : Summary) : s.shift 0 = s := by
  have hrisks : s.riskPoints.map (· + 0) = s.riskPoints := List.map_id'' Nat.add_zero _
  rw [shift, map_shift_zero TypeDeclaration.shift_zero, map_shift_zero Routine.shift_zero,
    map_shift_zero ImportStatement.shift_zero, map_shift_zero HardcodedLiteral.shift_zero,
    map_shift_zero UnusedName.shift_zero, map_shift_zero MarkerNote.shift_zero, hrisks]
  rfl

/-- Two moves of a summary add up. -/
theorem Summary.shift_shift (j k : Nat) (s : Summary) : (s.shift j).shift k = s.shift (j + k) := by
  have hrisks : (s.riskPoints.map (· + j)).map (· + k) = s.riskPoints.map (· + (j + k)) := by
    rw [List.map_map]
    exact List.map_congr_left fun n _ => Nat.add_assoc n j k
  rw [shift, shift, shift]
  dsimp only
  rw [map_shift_shift TypeDeclaration.shift_shift, map_shift_shift Routine.shift_shift,
    map_shift_shift ImportStatement.shift_shift, map_shift_shift HardcodedLiteral.shift_shift,
    map_shift_shift UnusedName.shift_shift, map_shift_shift MarkerNote.shift_shift, hrisks,
    Nat.add_assoc]

/-- Line feeds before a text move every line of its summary down by their number. -/
theorem ofText_replicate_lineFeed (k : Nat) (text : List Char) (fileName tag : String) :
    Summary.ofText (List.replicate k '\n' ++ text) fileName tag =
      (Summary.ofText text fileName tag).map (·.shift k) := by
  induction k with
  | zero =>
    show Summary.ofText text fileName tag = _
    cases Summary.ofText text fileName tag with
    | error e => rfl
    | ok s => exact congrArg Except.ok s.shift_zero.symm
  | succ k ih =>
    rw [List.replicate_succ, List.cons_append, ofText_lineFeed, ih]
    cases Summary.ofText text fileName tag with
    | error e => rfl
    | ok s => exact congrArg Except.ok (s.shift_shift k 1)

end SourceSurvey
