import SourceSurvey.Code.Span
import SourceSurvey.Proofs.Comment.Erasure
import Mathlib.Data.List.Forall2

/-!
# The layout of a stripped copy

Main statement: the stripped copy has one line for every line of the file, made of characters of
that line in their order, and under hash comments a line that still holds code keeps its
indentation. So the bodies found by indentation in the copy are those of the file.
-/

namespace SourceSurvey

/-! ## What is kept of a line -/

/-- What is kept of a piece is part of what is written, in its order. -/
theorem Piece.kept_sublist (p : Piece) : p.kept.Sublist p.written := by
  cases p with
  | code c => exact .refl [c]
  | literal delimiter body =>
    exact (List.Sublist.refl delimiter).append (List.sublist_append_right body delimiter)
  | openLiteral delimiter body => exact List.sublist_append_left delimiter body
  | indentation blanks => exact .refl blanks
  | literalRest body delimiter => exact List.sublist_append_right body delimiter
  | comment | openComment | lineComment | literalLine | commentRest | commentLine =>
    exact List.nil_sublist _

/-- So is what is kept of a line. -/
theorem Piece.keptLine_sublist (pieces : List Piece) :
    (keptLine pieces).Sublist (writtenLine pieces) := by
  induction pieces with
  | nil => exact .slnil
  | cons p ps ih =>
    rw [keptLine_cons, writtenLine_cons]
    exact p.kept_sublist.append ih

namespace CommentRules

/-- Every line of the stripped copy is made of characters of its line, in their order. -/
theorem forall₂_sublist_strip (family : Family) (lines : List Line) :
    List.Forall₂ List.Sublist (family.style.strip lines) lines := by
  have hstyle := regular_style family
  have hcode : Region.code.Proper := trivial
  obtain ⟨file, hfile⟩ := exists_readsLines hstyle hcode lines
  have hlines : List.Forall₂ List.Sublist (file.map Piece.keptLine)
      (file.map Piece.writtenLine) := by
    rw [List.forall₂_map_left_iff, List.forall₂_map_right_iff, List.forall₂_same]
    exact fun pieces _ => Piece.keptLine_sublist pieces
  rwa [← strip_of_readsFile hstyle hfile, hfile.written] at hlines

end CommentRules

/-! ## Indentation under hash comments -/

/-- A blank at the front belongs to the indentation. -/
theorem Text.indentation_cons_of_space {c : Char} (hc : isSpace c = true) (cs : List Char) :
    indentation (c :: cs) = c :: indentation cs :=
  List.takeWhile_cons_of_pos hc

/-- A line that begins with no blank has no indentation. -/
theorem Text.indentation_cons_of_not_space {c : Char} (hc : isSpace c = false)
    (cs : List Char) : indentation (c :: cs) = [] :=
  List.takeWhile_cons_of_neg (by rw [hc]; exact Bool.false_ne_true)

/-- Blanks before a text add to its indentation. -/
theorem Text.indentation_append {blanks : List Char} (h : isBlank blanks = true)
    (text : List Char) : indentation (blanks ++ text) = blanks ++ indentation text := by
  induction blanks with
  | nil => rfl
  | cons c cs ih =>
    rw [isBlank, List.all_cons, Bool.and_eq_true] at h
    rw [List.cons_append, indentation_cons_of_space h.1, ih h.2, List.cons_append]

theorem Text.isBlank_indentation (line : Line) : isBlank (indentation line) = true :=
  List.all_takeWhile

namespace CommentRules

/-- A literal begins with a quote. -/
theorem OpensLiteral.exists_cons {style : CommentRules} {delimiter text : List Char}
    (h : style.OpensLiteral delimiter text) (hstyle : style.Regular) :
    ∃ q ds, style.isQuote q = true ∧ delimiter = q :: ds := by
  cases h with
  | @triple q _ htriple => exact ⟨q, [q, q], (hstyle.triple_isQuote htriple).1, rfl⟩
  | @single q _ hquote _ => exact ⟨q, [], hquote, rfl⟩

/-- Python has two quotes. -/
theorem isQuote_hash_iff {q : Char} : hash.isQuote q = true ↔ q = '"' ∨ q = '\'' := by
  simp [isQuote, hash]

/-- A literal under hash comments begins with a quote and not with a blank. -/
theorem OpensLiteral.exists_cons_of_hash {delimiter text : List Char}
    (h : hash.OpensLiteral delimiter text) :
    ∃ q ds, Text.isSpace q = false ∧ delimiter = q :: ds := by
  obtain ⟨q, ds, hquote, rfl⟩ := h.exists_cons (regular_style .python)
  refine ⟨q, ds, ?_, rfl⟩
  rcases isQuote_hash_iff.mp hquote with rfl | rfl <;> rfl

end CommentRules

/-- A region that hash comments lead to: they have no block comments. -/
def Region.OfHash : Region → Prop
  | .code => True
  | .comment _ => False
  | .literal delimiter => ∃ q ds, Text.isSpace q = false ∧ delimiter = q :: ds

/-- Python code leaves a region of Python. -/
theorem ReadsCode.ofHash {text : List Char} {pieces : List Piece} {after : Region}
    (h : ReadsCode .hash text pieces after) : after.OfHash := by
  induction h with
  | stop => trivial
  | code _ _ _ ih => exact ih
  | literal _ _ _ _ ih => exact ih
  | openLiteral _ hopens _ => exact hopens.exists_cons_of_hash
  | comment hblock _ _ _ => cases hblock
  | openComment hblock _ => cases hblock
  | lineComment _ _ => trivial

/-- What is kept of a text in code is indented as the text, unless nothing but blanks is kept. -/
theorem ReadsCode.indentation_keptLine {text : List Char} {pieces : List Piece} {after : Region}
    (h : ReadsCode .hash text pieces after)
    (hkept : Text.isBlank (Piece.keptLine pieces) = false) :
    Text.indentation (Piece.keptLine pieces) = Text.indentation text := by
  induction h with
  | stop => cases hkept
  | @code c rest pieces _ _ _ _ ih =>
    rw [Piece.keptLine_cons, Piece.kept, List.singleton_append] at hkept ⊢
    cases hspace : Text.isSpace c with
    | false =>
      rw [Text.indentation_cons_of_not_space hspace, Text.indentation_cons_of_not_space hspace]
    | true =>
      rw [Text.isBlank, List.all_cons, hspace, Bool.true_and] at hkept
      rw [Text.indentation_cons_of_space hspace, Text.indentation_cons_of_space hspace, ih hkept]
  -- a literal leaves its opening quote, and the indentation ends there on both sides
  | literal _ hopens _ _ _ =>
    obtain ⟨q, ds, hspace, rfl⟩ := hopens.exists_cons_of_hash
    rw [List.cons_append, Text.indentation_cons_of_not_space hspace]
    exact Text.indentation_cons_of_not_space hspace _
  | openLiteral _ hopens _ =>
    obtain ⟨q, ds, hspace, rfl⟩ := hopens.exists_cons_of_hash
    rw [List.cons_append, Text.indentation_cons_of_not_space hspace]
    exact Text.indentation_cons_of_not_space hspace _
  | comment hblock _ _ _ => cases hblock
  | openComment hblock _ => cases hblock
  | lineComment _ _ => cases hkept

/-- So does a line. -/
theorem ReadsLine.ofHash {region after : Region} {line : Line} {pieces : List Piece}
    (h : ReadsLine .hash region line pieces after) (hregion : region.OfHash) : after.OfHash := by
  cases h with
  | code h => exact h.ofHash
  | literalLine _ => exact hregion
  | literalRest _ _ h => exact h.ofHash
  | commentLine _ => exact hregion
  | commentRest _ _ _ => exact hregion.elim

/-- So does what runs over the end of a line. -/
theorem RunsOver.ofHash {region next : Region} (h : RunsOver region next)
    (hregion : region.OfHash) : next.OfHash := by
  cases h with
  | code => trivial
  | comment _ => exact hregion
  | triple _ => exact hregion
  | template => exact hregion
  | single _ => trivial

/-- A line of which something is kept keeps its indentation. -/
theorem ReadsLine.indentation_keptLine {region after : Region} {line : Line}
    {pieces : List Piece} (h : ReadsLine .hash region line pieces after)
    (hregion : region.OfHash) (hkept : Text.isBlank (Piece.keptLine pieces) = false) :
    Text.indentation (Piece.keptLine pieces) = Text.indentation line := by
  -- of a line that goes on in a literal the indentation is kept and nothing else before the quote
  have hblank : ∀ p : Piece, p.kept = [] → Text.isBlank
      (Piece.keptLine [.indentation (Text.indentation line), p]) = true := by
    intro p hp
    rw [Piece.keptLine_cons, Piece.keptLine_cons, hp]
    exact (congrArg Text.isBlank (List.append_nil _)).trans (Text.isBlank_indentation line)
  cases h with
  | code h => exact h.indentation_keptLine hkept
  | literalLine _ =>
    rw [hblank _ rfl] at hkept
    cases hkept
  | literalRest _ _ _ =>
    obtain ⟨q, ds, hspace, rfl⟩ := hregion
    rw [Piece.keptLine_cons, Piece.keptLine_cons, Piece.kept, Piece.kept, List.cons_append,
      Text.indentation_append (Text.isBlank_indentation line),
      Text.indentation_cons_of_not_space hspace, List.append_nil]
  | commentLine _ => exact hregion.elim
  | commentRest _ _ _ => exact hregion.elim

/-- All lines of which something is kept keep their indentation. -/
theorem ReadsLines.forall₂_indentation {region : Region} {lines : List Line}
    {file : List (List Piece)} (h : ReadsLines .hash region lines file)
    (hregion : region.OfHash) :
    List.Forall₂ (fun pieces line => Text.isBlank (Piece.keptLine pieces) = false →
      Text.indentation (Piece.keptLine pieces) = Text.indentation line) file lines := by
  induction h with
  | nil _ => exact .nil
  | cons hline hover _ ih =>
    exact .cons (hline.indentation_keptLine hregion)
      (ih (hover.ofHash (hline.ofHash hregion)))

/-- Under hash comments a line of the stripped copy that is not blank is indented as its line. -/
theorem CommentRules.forall₂_indentation_strip_hash (lines : List Line) :
    List.Forall₂ (fun code line => Text.isBlank code = false →
      Text.indentation code = Text.indentation line) (hash.strip lines) lines := by
  have hstyle := regular_style .python
  have hcode : Region.code.Proper := trivial
  obtain ⟨file, hfile⟩ := exists_readsLines hstyle hcode lines
  have hstrip : hash.strip lines = file.map Piece.keptLine := strip_of_readsFile hstyle hfile
  rw [hstrip, List.forall₂_map_left_iff]
  exact hfile.forall₂_indentation trivial

/-! ## Bodies by indentation -/

/-- A line of the file where its stripped copy holds code, and the blank rest of it elsewhere. -/
def codeLine (line code : Line) : Line :=
  if Text.isBlank code then code else line

/-- Of a blank line only blanks are kept. -/
theorem isBlank_of_sublist {code line : Line} (h : code.Sublist line)
    (hline : Text.isBlank line = true) : Text.isBlank code = true := by
  rw [Text.isBlank, List.all_eq_true] at hline ⊢
  exact fun c hc => hline c (h.subset hc)

/-- Lines alike in what an indentation scan reads: which are blank, and how far each is indented. -/
def SameIndentation (a b : Line) : Prop :=
  Text.isBlank a = Text.isBlank b ∧ Text.indentWidth a = Text.indentWidth b

/-- A stripped line is indented as the line that the check of indentation sees. -/
theorem sameIndentation_codeLine {code line : Line} (hsublist : code.Sublist line)
    (hindentation : Text.isBlank code = false → Text.indentation code = Text.indentation line) :
    SameIndentation code (codeLine line code) := by
  unfold codeLine
  split
  · exact ⟨rfl, rfl⟩
  · next hcode =>
    rw [Bool.not_eq_true] at hcode
    have hline : Text.isBlank line = false := by
      rw [Bool.eq_false_iff]
      intro hblank
      rw [isBlank_of_sublist hsublist hblank] at hcode
      cases hcode
    exact ⟨hcode.trans hline.symm, congrArg List.length (hindentation hcode)⟩

/-- Over lines with the same indentation a body extends as far. -/
theorem indentedExtent_congr (base : Nat) {as bs : List Line}
    (h : List.Forall₂ SameIndentation as bs) : indentedExtent base as = indentedExtent base bs := by
  induction h with
  | nil => rfl
  | cons hline _ ih => rw [indentedExtent, indentedExtent, hline.1, hline.2, ih]

/-- Over lines with the same indentation a body ends on the same line. -/
theorem indentedEnd?_congr {as bs : List Line} (h : List.Forall₂ SameIndentation as bs)
    (header first : Nat) : indentedEnd? as header first = indentedEnd? bs header first := by
  have hlength := h.length_eq
  have hextent := fun base => indentedExtent_congr base (List.forall₂_drop first h)
  unfold indentedEnd?
  by_cases hheader : header < as.length
  · have hwidth := (h.get hheader (hlength ▸ hheader)).2
    rw [List.get_eq_getElem, List.get_eq_getElem] at hwidth
    rw [List.getElem?_eq_getElem hheader, List.getElem?_eq_getElem (hlength ▸ hheader),
      Option.map_some, Option.map_some, hwidth, hextent]
  · rw [List.getElem?_eq_none (by omega), List.getElem?_eq_none (by omega)]
    rfl

theorem forall₂_sameIndentation_codeLine {codes lines : List Line}
    (hsublist : List.Forall₂ List.Sublist codes lines)
    (hindentation : List.Forall₂ (fun code line => Text.isBlank code = false →
      Text.indentation code = Text.indentation line) codes lines) :
    List.Forall₂ SameIndentation codes (List.zipWith codeLine lines codes) := by
  induction hsublist with
  | nil => exact .nil
  | cons hline _ ih =>
    obtain ⟨hhead, htail⟩ := List.forall₂_cons.mp hindentation
    exact .cons (sameIndentation_codeLine hline hhead) (ih htail)

/-- Stripping keeps the lines of a file apart and only takes characters out of them, so that no
character is in a line more often than before. Under hash comments a line that still holds code
keeps its indentation, and bodies by indentation end in the stripped copy where they end in the
file with the lines without code left blank. -/
theorem strip_sublist_and_indentation (lines : List Line) :
    (∀ family : Family, (family.style.strip lines).length = lines.length ∧
      List.Forall₂ (fun code line => code.Sublist line ∧ ∀ c, code.count c ≤ line.count c)
        (family.style.strip lines) lines) ∧
    List.Forall₂ (fun code line => Text.isBlank code = false →
      Text.indentation code = Text.indentation line) (CommentRules.hash.strip lines) lines ∧
    ∀ header first, indentedEnd? (CommentRules.hash.strip lines) header first =
      indentedEnd? (List.zipWith codeLine lines (CommentRules.hash.strip lines)) header first := by
  have hindentation := CommentRules.forall₂_indentation_strip_hash lines
  refine ⟨fun family => ?_, hindentation, fun header first => ?_⟩
  · have hsublist := CommentRules.forall₂_sublist_strip family lines
    exact ⟨hsublist.length_eq, hsublist.imp fun code line h => ⟨h, fun c => h.count_le c⟩⟩
  · have hsublist := CommentRules.forall₂_sublist_strip .python lines
    exact indentedEnd?_congr (forall₂_sameIndentation_codeLine hsublist hindentation) header first

/-- A comment at the left margin ends no body, and the end of a literal there does. -/
example : indentedEnd? (CommentRules.hash.strip ["def f():".toList, "  x = 1".toList,
    "# note".toList, "  y = '''a".toList, "b'''".toList, "  z".toList]) 0 1 = some 3 := by
  rfl

end SourceSurvey
