import SourceSurvey.Extract.JavaScript
import SourceSurvey.Proofs.Code.Quoting
import SourceSurvey.Proofs.Extract.Continuation
import SourceSurvey.Proofs.Extract.Literal

/-!
# Script statements over several lines

A layout written as lines of a script, where a comment begins with two slashes. Texts are followed
with what stripping keeps of them, so that literals may hold anything, slashes and braces included.
Main statements: the joined rows are the text of the layout without comments, and an import whose
brace list is open ends with the row on which its last piece closes the list.
-/

namespace SourceSurvey

open CommentRules

/-! ## Texts and what is kept of them -/

/-- The scanners pass over the text: stripping keeps something of it, and no comment begins in
it. What follows is read as if it stood alone. -/
structure KeepsCode (text kept : List Char) : Prop where
  strip : ∀ rest, slash.stripFrom 0 .code (text ++ rest) =
    (kept ++ (slash.stripFrom 0 .code rest).1, (slash.stripFrom 0 .code rest).2)
  comment : ∀ rest, slash.lineCommentFrom 0 none (text ++ rest) =
    (slash.lineCommentFrom 0 none rest).map (· + text.length)

/-- A character that opens no literal and no comment. -/
def isClear (c : Char) : Bool :=
  isUnquoted c && c != '/'

/-- A class without the signs that may open something is a class of clear characters. -/
theorem isClear_of_class {p : Char → Bool}
    (hp : ("\"'\x60\\<>/".toList.all fun d => !p d) = true) {c : Char} (hc : p c = true) :
    isClear c = true := by
  by_contra hopens
  have hmem : c ∈ "\"'\x60\\<>/".toList := by
    simp [isClear, isUnquoted] at hopens
    simp
    tauto
  have hnot := List.all_eq_true.mp hp c hmem
  rw [hc] at hnot
  cases hnot

theorem isClear_of_isSpace {c : Char} (h : Text.isSpace c = true) : isClear c = true :=
  isClear_of_class (by decide) h

namespace KeepsCode

theorem nil : KeepsCode [] [] where
  strip _ := rfl
  comment rest := by simp

/-- Stripping keeps two texts one by one. -/
theorem append {text more kept kept' : List Char} (h : KeepsCode text kept)
    (hmore : KeepsCode more kept') : KeepsCode (text ++ more) (kept ++ kept') where
  strip rest := by rw [List.append_assoc, h.strip, hmore.strip, List.append_assoc]
  comment rest := by
    rw [List.append_assoc, h.comment, hmore.comment, Option.map_map, List.length_append]
    refine congrArg (Option.map · _) (funext fun n => ?_)
    simp only [Function.comp]
    omega

/-- Stripping keeps a clear character. -/
theorem char {c : Char} (hc : isClear c = true) : KeepsCode [c] [c] := by
  simp only [isClear, Bool.and_eq_true, bne_iff_ne] at hc
  obtain ⟨hunquoted, hslash⟩ := hc
  have hopens : ∀ rest, ¬ slash.OpensComment (c :: rest) := fun rest =>
    not_opensComment_of_ne hslash rest
  refine ⟨fun rest => ?_, fun rest => ?_⟩
  · exact LinePart.stripFrom_code_part hunquoted (hopens rest)
  · exact LinePart.lineCommentFrom_code_part hunquoted
      (Bool.eq_false_iff.mpr fun hline => hopens rest (.inr hline))

/-- A text that opens nothing is kept. -/
theorem of_isClear {text : List Char} (h : ∀ c ∈ text, isClear c = true) : KeepsCode text text := by
  induction text with
  | nil => exact .nil
  | cons c cs ih =>
    have hcs := ih fun d hd => h d (List.mem_cons_of_mem c hd)
    exact (char (h c List.mem_cons_self)).append hcs

/-- A literal is emptied, whatever it holds but its quote and escapes. -/
theorem literal {q : Char} (hq : Nesting.isQuote q = true) {body : List Char}
    (hbody : ∀ c ∈ body, c ≠ q ∧ c ≠ '\\') : KeepsCode (q :: (body ++ [q])) [q, q] := by
  have hopen : ∀ following, StaysOpen [q] body following := StaysOpen.of_forall_ne hbody
  have htext : ∀ rest, q :: (body ++ [q]) ++ rest = q :: (body ++ q :: rest) := by simp
  refine ⟨fun rest => ?_, fun rest => ?_⟩
  · rw [htext, LinePart.stripFrom_slash_literal hq hopen]
    rfl
  · rw [htext, LinePart.lineCommentFrom_slash_literal hq hopen]
    simp

end KeepsCode

/-- Stripping keeps blanks. -/
theorem Blanks.keepsCode (blanks : Blanks) : KeepsCode blanks.text blanks.text :=
  .of_isClear fun c hc => isClear_of_isSpace (blanks.isSpace c hc)

/-! ## Rows of a script -/

/-- The comment of a line with its two slashes. -/
def LineTail.scriptComment (tail : LineTail) : List Char :=
  match tail.comment with
  | none => []
  | some text => '/' :: '/' :: text

def Ending.scriptText : Ending → List Char
  | .plain tail => tail.blanks.text ++ tail.scriptComment
  | .slash blanks => blanks.text ++ ['\\']

namespace Row

/-- A row as a line of a script. -/
def scriptLine (row : Row) : Line :=
  row.indent.text ++ (row.text ++ row.ending.scriptText)

/-- The stripped line of a row of a script. -/
def scriptCode (row : Row) : Line :=
  (slash.stripFrom 0 .code row.scriptLine).1

/-- The line of a row of a script with its stripped copy. -/
def scriptSource (row : Row) : SourceLine :=
  ⟨row.scriptLine, row.scriptCode⟩

end Row

/-- The end of a row opens no literal, and its comment is cut. -/
theorem Ending.stripFrom_scriptText (ending : Ending) :
    CommentRules.slash.stripFrom 0 .code ending.scriptText = (ending.code, .code) := by
  cases ending with
  | plain tail =>
    have hcomment : CommentRules.slash.stripFrom 0 .code tail.scriptComment = ([], .code) := by
      unfold LineTail.scriptComment
      cases tail.comment <;> rfl
    show CommentRules.slash.stripFrom 0 .code (tail.blanks.text ++ tail.scriptComment) = _
    rw [tail.blanks.keepsCode.strip, hcomment, List.append_nil]
    rfl
  | slash blanks =>
    show CommentRules.slash.stripFrom 0 .code (blanks.text ++ ['\\']) = _
    rw [blanks.keepsCode.strip]
    rfl

/-- Stripping keeps the indentation, the code and the end of a row. -/
theorem Row.stripFrom_scriptLine {row : Row} {kept : List Char} (h : KeepsCode row.text kept) :
    slash.stripFrom 0 .code row.scriptLine =
      (row.indent.text ++ (kept ++ row.ending.code), .code) := by
  rw [Row.scriptLine, row.indent.keepsCode.strip, h.strip, row.ending.stripFrom_scriptText]

theorem Row.scriptCode_eq {row : Row} {kept : List Char} (h : KeepsCode row.text kept) :
    row.scriptCode = row.indent.text ++ (kept ++ row.ending.code) :=
  congrArg Prod.fst (Row.stripFrom_scriptLine h)

/-- The lines of rows that are passed over, with their stripped copies. -/
theorem sourceLines_map_scriptLine {rows : List Row}
    (h : ∀ row ∈ rows, ∃ kept, KeepsCode row.text kept) (below : List Line) :
    sourceLines .slash (rows.map Row.scriptLine ++ below) =
      rows.map Row.scriptSource ++ sourceLines .slash below := by
  apply sourceLines_map
  intro row hrow
  obtain ⟨kept, hkept⟩ := h row hrow
  have hend : (slash.stripFrom 0 .code row.scriptLine).2 = .code :=
    congrArg Prod.snd (Row.stripFrom_scriptLine hkept)
  exact Prod.ext rfl hend

/-! ## The joined text -/

/-- A part of a script's statement: no blanks around it, and the scanners pass over it. -/
structure IsScriptPart (text : List Char) : Prop where
  tight : Text.Tight text
  keeps : ∃ kept, KeepsCode text kept ∧ Text.Tight kept

/-- Two parts of a script with blanks between them are one. -/
theorem IsScriptPart.append {text piece : List Char} (h : IsScriptPart text)
    (hpiece : IsScriptPart piece) (blanks : Blanks) :
    IsScriptPart (text ++ (blanks.text ++ piece)) := by
  obtain ⟨kept, hkept, htight⟩ := h.keeps
  obtain ⟨kept', hkept', htight'⟩ := hpiece.keeps
  exact ⟨h.tight.append hpiece.tight blanks.text, _,
    hkept.append (blanks.keepsCode.append hkept'), htight.append htight' blanks.text⟩

/-- A clear text without blanks around it is a part of a script. -/
theorem isScriptPart_of_isClear {text : List Char} (htight : Text.Tight text)
    (h : ∀ c ∈ text, isClear c = true) : IsScriptPart text :=
  ⟨htight, text, .of_isClear h, htight⟩

/-- A line of a script as an import shows it. -/
def shownScriptLine (line : Line) : List Char :=
  Text.trim (slash.cutLineComment line)

/-- The lines of a script header are joined by blanks. -/
theorem joinHeader_slash (lines : List Line) :
    joinHeader (some .slash) lines = [' '].intercalate (lines.map shownScriptLine) := by
  rw [joinHeader, List.map_map]
  rfl

/-- Without its comment a row of a script is its text. -/
theorem shownScriptLine_scriptLine {text kept : List Char} (h : KeepsCode text kept)
    (htext : text = [] ∨ Text.Tight text) (indent : Blanks) (tail : LineTail) :
    shownScriptLine (Row.scriptLine ⟨indent, text, .plain tail⟩) = text := by
  have hline : Row.scriptLine ⟨indent, text, .plain tail⟩ =
      indent.text ++ (text ++ tail.blanks.text) ++ tail.scriptComment := by
    simp [Row.scriptLine, Ending.scriptText]
  have hcode := indent.keepsCode.append (h.append tail.blanks.keepsCode)
  have hcomment : tail.scriptComment = [] ∨
      slash.lineCommentFrom 0 none tail.scriptComment = some 0 := by
    unfold LineTail.scriptComment
    cases tail.comment with
    | none => exact .inl rfl
    | some comment => exact .inr rfl
  rw [shownScriptLine, hline]
  exact trim_cutLineComment htext hcode.comment hcomment

/-- The rows of a layout are joined to its text, with a blank for each line end. -/
theorem joinHeader_scriptLine {pieces : List (Gap × List Char)}
    (hpieces : ∀ x ∈ pieces, x.1.hasSlash = false ∧ IsScriptPart x.2) {text : List Char}
    (htext : IsScriptPart text) (indent : Blanks) (tail : LineTail) :
    joinHeader (some .slash) ((layOut indent text tail pieces).map Row.scriptLine) =
      text ++ spaced pieces := by
  rw [joinHeader_slash, List.map_map]
  refine intercalate_layOut (fun _ _ h hpiece => h.append hpiece) ?_ ?_ hpieces htext indent tail
  · intro text h indent tail
    obtain ⟨kept, hkept, -⟩ := h.keeps
    exact shownScriptLine_scriptLine hkept (.inr h.tight) indent tail
  · exact fun tail => shownScriptLine_scriptLine .nil (.inl rfl) .none tail

/-- The text of a statement whose code, between blanks, begins in a certain way. -/
def ShowsFirst (before text : List Char) : Prop :=
  ∃ kept, KeepsCode text kept ∧ Text.Tight kept ∧ before <+: kept

/-- What is shown first stays so with one more piece behind it. -/
theorem ShowsFirst.append {before text piece : List Char} (h : ShowsFirst before text)
    (hpiece : IsScriptPart piece) (blanks : Blanks) :
    ShowsFirst before (text ++ (blanks.text ++ piece)) := by
  obtain ⟨kept, hkept, htight, hfirst⟩ := h
  obtain ⟨kept', hkept', htight'⟩ := hpiece.keeps
  exact ⟨_, hkept.append (blanks.keepsCode.append hkept'), htight.append htight' blanks.text,
    hfirst.trans (List.prefix_append kept _)⟩

/-- The first row of a layout shows what its text begins with, and all rows are passed over. -/
theorem isPrefix_trim_scriptCode_layOut {before : List Char} {pieces : List (Gap × List Char)}
    (hpieces : ∀ x ∈ pieces, IsScriptPart x.2) {text : List Char} (htext : ShowsFirst before text)
    (indent : Blanks) (tail : LineTail) :
    ∃ row rows, layOut indent text tail pieces = row :: rows ∧
      before <+: Text.trim row.scriptCode ∧
      ∀ r ∈ row :: rows, ∃ kept, KeepsCode r.text kept := by
  obtain ⟨row, rows, hrows, ⟨kept, hkept, htight, hfirst⟩, hall⟩ :=
    layOut_texts (fun _ _ h hpiece => h.append hpiece) (fun _ _ h hpiece => h.append hpiece)
      hpieces htext indent tail
  refine ⟨row, rows, hrows, ?_, ?_⟩
  · rw [Row.scriptCode_eq hkept]
    exact hfirst.trans (htight.isPrefix_trim row.indent.isSpace _)
  · intro r hr
    rcases List.mem_cons.mp hr with rfl | hr
    · exact ⟨kept, hkept⟩
    · rcases hall r hr with hnil | hpart
      · exact ⟨[], hnil ▸ .nil⟩
      · obtain ⟨kept', hkept', -⟩ := hpart.keeps
        exact ⟨kept', hkept'⟩

/-! ## The row that closes a brace list -/

/-- A text whose code holds no closing brace. -/
def IsOpenText (text : List Char) : Prop :=
  ∃ kept, KeepsCode text kept ∧ '\x7d' ∉ kept

/-- A text whose code holds a closing brace. -/
def IsClosingText (text : List Char) : Prop :=
  ∃ kept, KeepsCode text kept ∧ '\x7d' ∈ kept

/-- Blanks close no brace. -/
theorem brace_not_mem_blanks (blanks : Blanks) : '\x7d' ∉ blanks.text :=
  Text.not_mem_of_class blanks.isSpace (by decide)

/-- An open text stays open behind one more open piece. -/
theorem IsOpenText.append {text piece : List Char} (h : IsOpenText text)
    (hpiece : IsOpenText piece) (blanks : Blanks) :
    IsOpenText (text ++ (blanks.text ++ piece)) := by
  obtain ⟨kept, hkept, hopen⟩ := h
  obtain ⟨kept', hkept', hopen'⟩ := hpiece
  refine ⟨_, hkept.append (blanks.keepsCode.append hkept'), ?_⟩
  simp [hopen, hopen', brace_not_mem_blanks]

/-- A closing piece closes an open text. -/
theorem IsOpenText.append_closing {text piece : List Char} (h : IsOpenText text)
    (hpiece : IsClosingText piece) (blanks : Blanks) :
    IsClosingText (text ++ (blanks.text ++ piece)) := by
  obtain ⟨kept, hkept, -⟩ := h
  obtain ⟨kept', hkept', hclosing⟩ := hpiece
  exact ⟨_, hkept.append (blanks.keepsCode.append hkept'), by simp [hclosing]⟩

/-- A clear text without a closing brace is open. -/
theorem isOpenText_of_isClear {text : List Char} (h : ∀ c ∈ text, isClear c = true)
    (hbrace : '\x7d' ∉ text) : IsOpenText text :=
  ⟨text, .of_isClear h, hbrace⟩

section Extent

open Extract.JavaScript

/-- A brace list that closes on its line goes on over no other. -/
theorem listExtent_of_mem {code : Line} (h : '\x7d' ∈ code) (lines : List Line) :
    listExtent code lines = 0 := by
  have hcode : code.contains '\x7d' = true := List.contains_iff_mem.mpr h
  cases lines with
  | nil => rfl
  | cons line lines => rw [listExtent, if_pos hcode]

/-- Behind a row whose code is open the list goes on. -/
theorem listExtent_open {indent : Blanks} {text : List Char} (h : IsOpenText text)
    (tail : LineTail) (line : Line) (lines : List Line) :
    listExtent (Row.scriptCode ⟨indent, text, .plain tail⟩) (line :: lines) =
      listExtent line lines + 1 := by
  obtain ⟨kept, hkept, hopen⟩ := h
  have hcode : '\x7d' ∉ Row.scriptCode ⟨indent, text, .plain tail⟩ := by
    rw [Row.scriptCode_eq hkept]
    have hend : '\x7d' ∉ (Ending.plain tail).code := brace_not_mem_blanks tail.blanks
    simp [hopen, hend, brace_not_mem_blanks]
  rw [listExtent, if_neg (by rwa [List.contains_iff_mem])]

/-- The row whose code closes the list is its last one. -/
theorem listExtent_closing {indent : Blanks} {text : List Char} (h : IsClosingText text)
    (tail : LineTail) (lines : List Line) :
    listExtent (Row.scriptCode ⟨indent, text, .plain tail⟩) lines = 0 := by
  obtain ⟨kept, hkept, hclosing⟩ := h
  apply listExtent_of_mem
  rw [Row.scriptCode_eq hkept]
  simp [hclosing]

/-- Lines without a piece belong to the open list. -/
theorem listExtent_between {indent : Blanks} {text : List Char} (h : IsOpenText text)
    (tail : LineTail) (between : List LineTail) (line : Line) (lines : List Line) :
    listExtent (Row.scriptCode ⟨indent, text, .plain tail⟩)
        ((between.map LineTail.row).map Row.scriptCode ++ line :: lines) =
      listExtent line lines + (between.length + 1) := by
  induction between generalizing indent text tail with
  | nil => exact listExtent_open h tail line lines
  | cons next between ih =>
    have hnothing : IsOpenText [] := isOpenText_of_isClear (by simp) (by simp)
    have hnext : listExtent (Row.scriptCode ⟨.none, [], .plain next⟩) _ = _ := ih hnothing next
    rw [List.map_cons, List.map_cons, List.cons_append, listExtent_open h]
    show listExtent (Row.scriptCode ⟨.none, [], .plain next⟩) _ + 1 = _
    rw [hnext, List.length_cons]
    omega

/-- A list whose last piece closes it ends with the last row of its layout. -/
theorem listExtent_layOut {inner : List (Gap × List Char)}
    (hinner : ∀ x ∈ inner, x.1.hasSlash = false ∧ IsOpenText x.2) {closing : Gap}
    (hclosing : closing.hasSlash = false) {last : List Char} (hlast : IsClosingText last)
    {text : List Char} (htext : IsOpenText text) (indent : Blanks) (tail : LineTail) :
    ∃ row rows, layOut indent text tail (inner ++ [(closing, last)]) = row :: rows ∧
      ∀ below, listExtent row.scriptCode (rows.map Row.scriptCode ++ below) = rows.length := by
  -- up to the last piece every row is open, however the rows are broken
  induction inner generalizing text indent with
  | nil =>
    cases closing with
    | slash blanks next => cases hclosing
    | onLine blanks =>
      refine ⟨_, [], rfl, fun below => ?_⟩
      exact listExtent_closing (htext.append_closing hlast blanks) tail _
    | lines lineTail between next =>
      refine ⟨_, _, rfl, fun below => ?_⟩
      rw [List.map_append, List.append_assoc]
      show listExtent (Row.scriptCode ⟨indent, text, .plain lineTail⟩)
        ((between.map LineTail.row).map Row.scriptCode ++
          Row.scriptCode ⟨next, last, .plain tail⟩ :: below) = _
      rw [listExtent_between htext, listExtent_closing hlast]
      simp [layOut]
  | cons x inner ih =>
    obtain ⟨gap, piece⟩ := x
    obtain ⟨hslash, hpiece⟩ := hinner (gap, piece) List.mem_cons_self
    have hrest : ∀ x ∈ inner, x.1.hasSlash = false ∧ IsOpenText x.2 := fun x hx =>
      hinner x (List.mem_cons_of_mem _ hx)
    cases gap with
    | slash blanks next => cases hslash
    | onLine blanks => exact ih hrest (htext.append hpiece blanks) indent
    | lines lineTail between next =>
      obtain ⟨row, rows, hrows, hextent⟩ := ih hrest hpiece next
      refine ⟨⟨indent, text, .plain lineTail⟩, between.map LineTail.row ++ row :: rows, ?_, ?_⟩
      · rw [← hrows]
        rfl
      · intro below
        rw [List.map_append, List.append_assoc, List.map_cons, List.cons_append,
          listExtent_between htext, hextent, List.length_append, List.length_map,
          List.length_cons]
        omega

end Extent

end SourceSurvey
