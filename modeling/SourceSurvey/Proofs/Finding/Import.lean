import SourceSurvey.Proofs.Comment.Erasure
import SourceSurvey.Proofs.Finding.Reference
import SourceSurvey.Proofs.Finding.Word
import SourceSurvey.Proofs.Pattern.Preferred

/-!
# Unused imports by the words of a file

The names that imports bind are sought by looking for whole words in the joined text of the lines
outside import statements. Main statement: what is found are the names that are not among the words
of these lines, where words are cut out line by line and import statements, comments and the contents
of literals give none.
-/

namespace SourceSurvey.Unused

/-! ## Modules that serve annotations -/

/-- The names of modules that serve annotations: two beginnings of a name, and two whole names. -/
def annotationModule : Pattern Unit :=
  Pattern.lit "typing" <|> (do Pattern.lit "types"; Pattern.atEnd) <|>
    Pattern.lit "collections.abc" <|> (do Pattern.lit "__future__"; Pattern.atEnd)

/-- A word that only a line feed at the end of the text may follow. -/
theorem finds_lit_atEnd (word : String) :
    (do Pattern.lit word; Pattern.atEnd : Pattern Unit).Finds fun text =>
      if text == word.toList || text == word.toList ++ ['\n'] then some () else none := by
  refine (Pattern.finds_atEnd.lit_bind word).congr fun text => ?_
  by_cases hword : word.toList <+: text
  · obtain ⟨rest, rfl⟩ := hword
    have hnil : (word.toList ++ rest == word.toList) = rest.isEmpty := by
      rw [Bool.eq_iff_iff]
      simp
    have hfeed : (word.toList ++ rest == word.toList ++ ['\n']) = (rest == ['\n']) := by
      rw [Bool.eq_iff_iff]
      simp
    rw [if_pos (List.isPrefixOf_iff_prefix.mpr (List.prefix_append word.toList rest)),
      List.drop_left, hnil, hfeed]
  · have hne : ∀ tail, text ≠ word.toList ++ tail := by
      rintro tail rfl
      exact hword (List.prefix_append word.toList tail)
    have hnil : text ≠ word.toList := by simpa using hne []
    rw [if_neg (by rwa [List.isPrefixOf_iff_prefix]), beq_false_of_ne hnil,
      beq_false_of_ne (hne ['\n'])]
    rfl

theorem isTypingModule_eq_matches? (module : List Char) :
    isTypingModule module = annotationModule.matches? module := by
  have hfinds := (Pattern.finds_lit "typing").orElse ((finds_lit_atEnd "types").orElse
    ((Pattern.finds_lit "collections.abc").orElse (finds_lit_atEnd "__future__")))
  have hone : ∀ b : Bool, (if b = true then some () else none).isSome = b := fun b => by
    cases b <;> rfl
  unfold annotationModule isTypingModule
  rw [hfinds.matches? module]
  simp only [Option.isSome_or, hone, Bool.or_assoc]

/-! ## The words outside import statements -/

/-- The lines whose number lies in none of the import statements. -/
def linesOutside (declared : List ImportStatement) (code : List Line) : List Line :=
  ((code.zipIdx 1).filter fun q => ∀ i ∈ declared, ¬ (i.line ≤ q.2 ∧ q.2 ≤ i.endLine)).map (·.1)

/-- The words of the lines outside all import statements. -/
def wordsOutside (declared : List ImportStatement) (code : List Line) : List (List Char) :=
  (linesOutside declared code).flatMap nameRuns

/-- The bound names that are expected to be used and are no words of the lines outside all import
statements, in the order of the statements. -/
def boundButUnused (declared : List ImportStatement) (code : List Line) : List UnusedName :=
  declared.flatMap fun i =>
    (i.names.filter fun name =>
      1 < name.length ∧ name ≠ "*" ∧ name ∉ annotationWords ∧
        annotationModule.matches? i.module.toList = false ∧
        name.toList ∉ wordsOutside declared code).map
      fun name => ⟨name, .imported, i.line⟩

/-- The text without imports is that of the lines outside them. -/
theorem textWithout_isImportLine (declared : List ImportStatement) (code : List Line) :
    textWithout (isImportLine declared) code = Text.joinLines (linesOutside declared code) := by
  have houtside : ∀ n, (!isImportLine declared n) =
      decide (∀ i ∈ declared, ¬ (i.line ≤ n ∧ n ≤ i.endLine)) := by
    intro n
    rw [Bool.eq_iff_iff, isImportLine]
    simp
  unfold textWithout linesOutside
  simp only [houtside]

/-- A name is mentioned outside import statements if it is one of the words there. -/
theorem hasMention_textWithout_iff {name : String} (hne : name.toList ≠ [])
    (hname : ∀ c ∈ name.toList, Text.isNameChar c = true) (declared : List ImportStatement)
    (code : List Line) :
    hasMention name.toList (textWithout (isImportLine declared) code) = true ↔
      name.toList ∈ wordsOutside declared code := by
  have hfeed : '\n' ∉ name.toList := Text.not_mem_of_class hname (by decide)
  rw [textWithout_isImportLine, hasMention_iff_standsIn, standsIn_joinLines_iff hfeed hne,
    wordsOutside, List.mem_flatMap]
  simp only [mem_nameRuns_iff]
  constructor
  · rintro ⟨line, hline, hstands⟩
    exact ⟨line, hline, hne, hname, hstands⟩
  · rintro ⟨line, hline, -, -, hstands⟩
    exact ⟨line, hline, hstands⟩

theorem flatMap_filter {α β : Type} (p : α → Bool) (f : α → List β) (as : List α) :
    (as.filter p).flatMap f = as.flatMap fun a => if p a then f a else [] := by
  induction as with
  | nil => rfl
  | cons a as ih =>
    rw [List.filter_cons, List.flatMap_cons, ← ih]
    cases p a <;> rfl

/-- An import is reported for the names that it binds and that nothing uses. -/
theorem imports_eq_boundButUnused {declared : List ImportStatement}
    (hnames : ∀ i ∈ declared, ∀ name ∈ i.names, name = "*" ∨
      ∀ c ∈ name.toList, Text.isNameChar c = true) (code : List Line) :
    imports code declared = boundButUnused declared code := by
  -- what is asked of a name, in the order of the scan
  have hname : ∀ i ∈ declared, ∀ name ∈ i.names,
      (!isTypingModule i.module.toList && (isChecked name &&
        !hasMention name.toList (textWithout (isImportLine declared) code))) =
      decide (1 < name.length ∧ name ≠ "*" ∧ name ∉ annotationWords ∧
        annotationModule.matches? i.module.toList = false ∧
        name.toList ∉ wordsOutside declared code) := by
    intro i hi name hmem
    rw [isTypingModule_eq_matches?, Bool.eq_iff_iff, decide_eq_true_iff]
    by_cases hstar : name = "*"
    · simp [isChecked, hstar]
    · by_cases hlength : 1 < name.length
      · have hne : name.toList ≠ [] := by
          intro hnil
          rw [← String.length_toList, hnil] at hlength
          cases hlength
        have hmention := hasMention_textWithout_iff hne ((hnames i hi name hmem).resolve_left hstar)
          declared code
        rw [← hmention]
        simp [isChecked, hstar, hlength]
        tauto
      · simp [isChecked, hlength]
  unfold imports boundButUnused
  dsimp only
  rw [flatMap_filter]
  refine List.flatMap_congr fun i hi => ?_
  rw [← List.filter_congr (hname i hi)]
  cases isTypingModule i.module.toList <;> simp

/-! ## What is reported -/

/-- The imports among the unused names are the unused imports. -/
theorem filter_imported (lines : List Line) (found : Extraction) (style : CommentRules) :
    (ofLines lines found style).filter (·.kind = .imported) =
      imports (style.strip lines) found.imports := by
  have hother : ∀ us : List UnusedName, (∀ u ∈ us, u.kind ≠ .imported) →
      us.filter (·.kind = .imported) = [] := by
    intro us hus
    rw [List.filter_eq_nil_iff]
    simpa using hus
  have himports : (imports (style.strip lines) found.imports).filter (·.kind = .imported) =
      imports (style.strip lines) found.imports := by
    rw [List.filter_eq_self]
    intro u hu
    simpa using kind_of_mem_imports hu
  have hroutines : ∀ u ∈ routines lines (found.routines ++ found.types.flatMap (·.methods)),
      u.kind ≠ .imported := by
    intro u hu
    obtain ⟨c, -, rfl⟩ := List.mem_map.mp hu
    exact nofun
  have hglobals : ∀ u ∈ globals lines (style.strip lines) found.globals, u.kind ≠ .imported := by
    intro u hu
    rw [kind_of_mem_globals hu]
    exact nofun
  unfold ofLines
  dsimp only
  rw [List.filter_append, List.filter_append, himports, hother _ hroutines, hother _ hglobals,
    List.append_nil, List.append_nil]

/-- The imports that are reported as unused are the bound names that are no words of the lines
outside import statements, and no comment and no content of a literal gives a word. -/
theorem filter_imported_ofLines (lines : List Line) {found : Extraction}
    (hnames : ∀ i ∈ found.imports, ∀ name ∈ i.names, name = "*" ∨
      ∀ c ∈ name.toList, Text.isNameChar c = true) (style : CommentRules) :
    (ofLines lines found style).filter (·.kind = .imported) =
        boundButUnused found.imports (style.strip lines) ∧
      ∀ (family : Family) (file : List (List Piece)), style = family.style →
        ReadsFile style lines file →
        (ofLines lines found style).filter (·.kind = .imported) =
          boundButUnused found.imports (file.map Piece.keptLine) := by
  have hwords := (filter_imported lines found style).trans (imports_eq_boundButUnused hnames _)
  refine ⟨hwords, ?_⟩
  rintro family file rfl hfile
  rw [hwords, CommentRules.strip_of_readsFile (CommentRules.regular_style family) hfile]

/-- A comment, a literal, a longer word and another import statement give no word. -/
theorem filter_imported_ofLines_quoted :
    (ofLines (["import os, re, sys", "from typing import Text", "# os", "path = osmosis + 'os'",
        "sys.exit(path)"].map String.toList)
      { imports := [⟨"os", ["os"], false, 1, 1⟩, ⟨"re", ["re"], false, 1, 1⟩,
          ⟨"sys", ["sys"], false, 1, 1⟩, ⟨"typing", ["Text"], true, 2, 2⟩] } .hash).filter
        (·.kind = .imported) =
      [⟨"os", .imported, 1⟩, ⟨"re", .imported, 1⟩] := by
  rw [(filter_imported_ofLines _ _ .hash).1]
  · decide
  · intro i hi name hname
    refine .inr (List.all_eq_true.mp ?_)
    revert i name
    decide

end SourceSurvey.Unused
