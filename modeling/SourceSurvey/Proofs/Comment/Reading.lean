import SourceSurvey.Comment.Strip
import SourceSurvey.Language

/-!
# Readings of a file as pieces

A second account of what comments and literals are, beside the scanner that strips them: a line is
a sequence of pieces, and each piece says which of its characters are code, delimiters, contents of
a literal or a comment. `ReadsFile` says which sequences are readings of a file, and
`Piece.kept` what is left of a piece when contents and comments are erased. Main statement: under the
conventions that all surveyed families share every list of lines has a reading, so that what is said
about readings is said about all files.
-/

namespace SourceSurvey

/-! ## Pieces -/

/-- A piece of a line. -/
inductive Piece where
  /-- A character of code. -/
  | code (c : Char)
  /-- A literal that opens and closes on the line. -/
  | literal (delimiter body : List Char)
  /-- A literal that opens on the line and does not close on it. -/
  | openLiteral (delimiter body : List Char)
  /-- A block comment that opens and closes on the line. -/
  | comment (opener body closer : List Char)
  /-- A block comment that opens on the line and does not close on it. -/
  | openComment (opener body : List Char)
  | lineComment (text : List Char)
  /-- The blanks at the start of a line that begins in a literal or a comment. -/
  | indentation (blanks : List Char)
  /-- The end of a literal that opened on an earlier line. -/
  | literalRest (body delimiter : List Char)
  /-- A line inside a literal. -/
  | literalLine (body : List Char)
  /-- The end of a block comment that opened on an earlier line. -/
  | commentRest (body closer : List Char)
  /-- A line inside a block comment. -/
  | commentLine (body : List Char)
deriving Repr, DecidableEq

namespace Piece

/-- The text of a piece. -/
def written : Piece → List Char
  | code c => [c]
  | literal delimiter body => delimiter ++ (body ++ delimiter)
  | openLiteral delimiter body => delimiter ++ body
  | comment opener body closer => opener ++ (body ++ closer)
  | openComment opener body => opener ++ body
  | lineComment text => text
  | indentation blanks => blanks
  | literalRest body delimiter => body ++ delimiter
  | literalLine body => body
  | commentRest body closer => body ++ closer
  | commentLine body => body

/-- What is left of a piece without the contents of literals and without comments. -/
def kept : Piece → List Char
  | code c => [c]
  | literal delimiter _ => delimiter ++ delimiter
  | openLiteral delimiter _ => delimiter
  | indentation blanks => blanks
  | literalRest _ delimiter => delimiter
  | comment _ _ _ | openComment _ _ | lineComment _ | literalLine _ | commentRest _ _
  | commentLine _ => []

/-- A piece with the contents of its literal emptied; nothing for a comment or for contents alone.
-/
def skeleton? : Piece → Option Piece
  | code c => some (code c)
  | literal delimiter _ => some (literal delimiter [])
  | openLiteral delimiter _ => some (openLiteral delimiter [])
  | indentation blanks => some (indentation blanks)
  | literalRest _ delimiter => some (literalRest [] delimiter)
  | comment _ _ _ | openComment _ _ | lineComment _ | literalLine _ | commentRest _ _
  | commentLine _ => none

/-- The text of a line of pieces. -/
def writtenLine (pieces : List Piece) : Line :=
  pieces.flatMap written

/-- What is left of a line of pieces. -/
def keptLine (pieces : List Piece) : Line :=
  pieces.flatMap kept

/-- The pieces of a line without contents and comments. -/
def skeletonLine (pieces : List Piece) : List Piece :=
  pieces.filterMap skeleton?

theorem writtenLine_cons (p : Piece) (ps : List Piece) :
    writtenLine (p :: ps) = p.written ++ writtenLine ps :=
  List.flatMap_cons

theorem keptLine_cons (p : Piece) (ps : List Piece) :
    keptLine (p :: ps) = p.kept ++ keptLine ps :=
  List.flatMap_cons

/-- What is left of a line depends on its skeleton only. -/
theorem keptLine_skeletonLine (pieces : List Piece) :
    keptLine (skeletonLine pieces) = keptLine pieces := by
  induction pieces with
  | nil => rfl
  | cons p ps ih =>
    rw [keptLine_cons, ← ih]
    cases p <;> rfl

end Piece

/-! ## What opens and what runs on -/

namespace CommentRules

/-- A block comment opens at the start of the text. -/
def OpensBlock (style : CommentRules) (text : List Char) : Prop :=
  ∃ opener closer, style.block = some (opener, closer) ∧ opener <+: text

/-- A comment opens at the start of the text. -/
def OpensComment (style : CommentRules) (text : List Char) : Prop :=
  style.OpensBlock text ∨ style.opensLineComment text = true

/-- The delimiter of the literal that opens at the start of the text: three equal quotes where the
style joins them, and one quote character otherwise. -/
inductive OpensLiteral (style : CommentRules) : List Char → List Char → Prop where
  | triple {q : Char} {rest : List Char} :
      style.startsTriple (q :: q :: q :: rest) = true →
      OpensLiteral style [q, q, q] (q :: q :: q :: rest)
  | single {q : Char} {rest : List Char} :
      style.isQuote q = true → style.startsTriple (q :: rest) = false →
      OpensLiteral style [q] (q :: rest)

end CommentRules

/-- A literal stays open over the body when the given text follows it: pairs of a backslash and a
character are skipped, and the delimiter begins at none of the other characters. -/
inductive StaysOpen (delimiter : List Char) : List Char → List Char → Prop where
  | nil (following : List Char) : StaysOpen delimiter [] following
  | escape {body following : List Char} (c : Char) :
      StaysOpen delimiter body following → StaysOpen delimiter ('\\' :: c :: body) following
  | char {c : Char} {body following : List Char} :
      c ≠ '\\' → ¬ delimiter <+: c :: (body ++ following) →
      StaysOpen delimiter body following → StaysOpen delimiter (c :: body) following

/-- A literal stays open up to the end of its line, which may cut a backslash from the character
that it would take. -/
def OpenToEnd (delimiter body : List Char) : Prop :=
  StaysOpen delimiter body [] ∨
    ∃ front, body = front ++ ['\\'] ∧ StaysOpen delimiter front ['\\']

/-- The part begins nowhere inside the body when the given text follows it. -/
def BeginsNotIn (part body following : List Char) : Prop :=
  ∀ n < body.length, ¬ part <+: (body ++ following).drop n

/-! ## Readings -/

/-- A text that begins in code reads as pieces, and its line ends in a region. -/
inductive ReadsCode (style : CommentRules) : List Char → List Piece → Region → Prop where
  | stop : ReadsCode style [] [] .code
  | code {c : Char} {rest : List Char} {pieces : List Piece} {after : Region} :
      ¬ style.OpensComment (c :: rest) → style.isQuote c = false →
      ReadsCode style rest pieces after →
      ReadsCode style (c :: rest) (.code c :: pieces) after
  | literal {delimiter body rest : List Char} {pieces : List Piece} {after : Region} :
      ¬ style.OpensComment (delimiter ++ (body ++ (delimiter ++ rest))) →
      style.OpensLiteral delimiter (delimiter ++ (body ++ (delimiter ++ rest))) →
      StaysOpen delimiter body (delimiter ++ rest) →
      ReadsCode style rest pieces after →
      ReadsCode style (delimiter ++ (body ++ (delimiter ++ rest)))
        (.literal delimiter body :: pieces) after
  | openLiteral {delimiter body : List Char} :
      ¬ style.OpensComment (delimiter ++ body) →
      style.OpensLiteral delimiter (delimiter ++ body) →
      OpenToEnd delimiter body →
      ReadsCode style (delimiter ++ body) [.openLiteral delimiter body] (.literal delimiter)
  | comment {opener body closer rest : List Char} {pieces : List Piece} {after : Region} :
      style.block = some (opener, closer) →
      BeginsNotIn closer body (closer ++ rest) →
      ReadsCode style rest pieces after →
      ReadsCode style (opener ++ (body ++ (closer ++ rest)))
        (.comment opener body closer :: pieces) after
  | openComment {opener body closer : List Char} :
      style.block = some (opener, closer) → BeginsNotIn closer body [] →
      ReadsCode style (opener ++ body) [.openComment opener body] (.comment closer)
  | lineComment {text : List Char} :
      ¬ style.OpensBlock text → style.opensLineComment text = true →
      ReadsCode style text [.lineComment text] .code

/-- A line that begins in a region reads as pieces, and ends in a region. -/
inductive ReadsLine (style : CommentRules) : Region → Line → List Piece → Region → Prop where
  | code {line : Line} {pieces : List Piece} {after : Region} :
      ReadsCode style line pieces after → ReadsLine style .code line pieces after
  | literalLine {delimiter : List Char} {line : Line} :
      OpenToEnd delimiter (Text.trimStart line) →
      ReadsLine style (.literal delimiter) line
        [.indentation (Text.indentation line), .literalLine (Text.trimStart line)]
        (.literal delimiter)
  | literalRest {delimiter body rest : List Char} {line : Line} {pieces : List Piece}
      {after : Region} :
      Text.trimStart line = body ++ (delimiter ++ rest) →
      StaysOpen delimiter body (delimiter ++ rest) →
      ReadsCode style rest pieces after →
      ReadsLine style (.literal delimiter) line
        (.indentation (Text.indentation line) :: .literalRest body delimiter :: pieces) after
  | commentLine {closer : List Char} {line : Line} :
      BeginsNotIn closer (Text.trimStart line) [] →
      ReadsLine style (.comment closer) line
        [.indentation (Text.indentation line), .commentLine (Text.trimStart line)]
        (.comment closer)
  | commentRest {closer body rest : List Char} {line : Line} {pieces : List Piece}
      {after : Region} :
      Text.trimStart line = body ++ (closer ++ rest) →
      BeginsNotIn closer body (closer ++ rest) →
      ReadsCode style rest pieces after →
      ReadsLine style (.comment closer) line
        (.indentation (Text.indentation line) :: .commentRest body closer :: pieces) after

/-- The region in which the next line begins when a line ends in a region: only block comments,
literals with three quotes and templates run over line ends. -/
inductive RunsOver : Region → Region → Prop where
  | code : RunsOver .code .code
  | comment (closer : List Char) : RunsOver (.comment closer) (.comment closer)
  | triple (q : Char) : RunsOver (.literal [q, q, q]) (.literal [q, q, q])
  | template : RunsOver (.literal ['\x60']) (.literal ['\x60'])
  | single {q : Char} : q ≠ '\x60' → RunsOver (.literal [q]) .code

/-- The lines of a file that go on in a region read as lines of pieces. -/
inductive ReadsLines (style : CommentRules) : Region → List Line → List (List Piece) → Prop where
  | nil (region : Region) : ReadsLines style region [] []
  | cons {region after next : Region} {line : Line} {lines : List Line} {pieces : List Piece}
      {file : List (List Piece)} :
      ReadsLine style region line pieces after → RunsOver after next →
      ReadsLines style next lines file →
      ReadsLines style region (line :: lines) (pieces :: file)

/-- A file reads as lines of pieces. -/
def ReadsFile (style : CommentRules) (lines : List Line) (file : List (List Piece)) : Prop :=
  ReadsLines style .code lines file

namespace CommentRules

/-! ## Conventions of the surveyed families -/

/-- Block comments have delimiters that are not empty, the escape character quotes nothing, and
quotes that are joined to three are quotes alone too. -/
structure Regular (style : CommentRules) : Prop where
  opener_ne_nil : ∀ {opener closer}, style.block = some (opener, closer) → opener ≠ []
  closer_ne_nil : ∀ {opener closer}, style.block = some (opener, closer) → closer ≠ []
  escape_not_quote : style.isQuote '\\' = false
  triple_isQuote : ∀ {c cs}, style.startsTriple (c :: cs) = true →
    style.isQuote c = true ∧ ∃ rest, cs = c :: c :: rest

/-- A long literal starts with three equal quotes. -/
theorem startsTriple_eq_true {style : CommentRules} {text : List Char}
    (h : style.startsTriple text = true) :
    ∃ q rest, (q = '"' ∨ q = '\'') ∧ text = q :: q :: q :: rest := by
  unfold startsTriple at h
  rw [Bool.and_eq_true, Bool.or_eq_true, List.isPrefixOf_iff_prefix,
    List.isPrefixOf_iff_prefix] at h
  rcases h.2 with ⟨rest, hrest⟩ | ⟨rest, hrest⟩
  · exact ⟨'"', rest, Or.inl rfl, hrest.symm⟩
  · exact ⟨'\'', rest, Or.inr rfl, hrest.symm⟩

/-- The signs of a block comment are not empty in any family. -/
theorem block_style_ne_nil {family : Family} {opener closer : List Char}
    (h : family.style.block = some (opener, closer)) : opener ≠ [] ∧ closer ≠ [] := by
  cases family with
  | python => cases h
  | javascript | php | html | css =>
    cases h
    exact ⟨List.cons_ne_nil _ _, List.cons_ne_nil _ _⟩

/-- The conventions of every surveyed family are regular. -/
theorem regular_style (family : Family) : family.style.Regular := by
  refine ⟨fun h => (block_style_ne_nil h).1, fun h => (block_style_ne_nil h).2, ?_, ?_⟩
  · cases family <;> rfl
  · intro c cs h
    obtain ⟨q, rest, hq, htext⟩ := startsTriple_eq_true h
    obtain ⟨rfl, rfl⟩ := List.cons.inj htext
    refine ⟨?_, rest, rfl⟩
    -- only hash comments go with triple quotes, and both of their quotes stand alone too
    have htriple : family.style.tripleQuotes = true := by
      unfold startsTriple at h
      rw [Bool.and_eq_true] at h
      exact h.1
    cases family with
    | python => rcases hq with rfl | rfl <;> rfl
    | _ => cases htriple

end CommentRules

/-! ## The regions that readings go through -/

/-- A region that a regular style leads to. -/
def Region.Proper : Region → Prop
  | .code => True
  | .comment closer => closer ≠ []
  | .literal delimiter => ∃ q, q ≠ '\\' ∧ (delimiter = [q] ∨ delimiter = [q, q, q])

/-- A literal that opens leaves a proper region. -/
theorem CommentRules.OpensLiteral.proper {style : CommentRules} (hstyle : style.Regular)
    {delimiter text : List Char} (h : style.OpensLiteral delimiter text) :
    (Region.literal delimiter).Proper := by
  have hne : ∀ q, style.isQuote q = true → q ≠ '\\' := by
    rintro q hq rfl
    rw [hstyle.escape_not_quote] at hq
    cases hq
  cases h with
  | @triple q _ htriple => exact ⟨q, hne q (hstyle.triple_isQuote htriple).1, Or.inr rfl⟩
  | @single q _ hquote _ => exact ⟨q, hne q hquote, Or.inl rfl⟩

/-- The delimiter of a proper region begins with no backslash. -/
theorem Region.Proper.exists_cons {delimiter : List Char}
    (h : (Region.literal delimiter).Proper) : ∃ q ds, q ≠ '\\' ∧ delimiter = q :: ds := by
  obtain ⟨q, hq, rfl | rfl⟩ := h
  · exact ⟨q, [], hq, rfl⟩
  · exact ⟨q, [q, q], hq, rfl⟩

/-- Code leaves a proper region. -/
theorem ReadsCode.proper {style : CommentRules} (hstyle : style.Regular) {text : List Char}
    {pieces : List Piece} {after : Region} (h : ReadsCode style text pieces after) :
    after.Proper := by
  induction h with
  | stop => trivial
  | code _ _ _ ih => exact ih
  | literal _ _ _ _ ih => exact ih
  | openLiteral _ hopens _ => exact hopens.proper hstyle
  | comment _ _ _ ih => exact ih
  | openComment hblock _ => exact hstyle.closer_ne_nil hblock
  | lineComment _ _ => trivial

/-- A line that begins in a proper region leaves one. -/
theorem ReadsLine.proper {style : CommentRules} (hstyle : style.Regular) {region after : Region}
    {line : Line} {pieces : List Piece} (h : ReadsLine style region line pieces after)
    (hregion : region.Proper) : after.Proper := by
  cases h with
  | code h => exact h.proper hstyle
  | literalLine _ => exact hregion
  | literalRest _ _ h => exact h.proper hstyle
  | commentLine _ => exact hregion
  | commentRest _ _ h => exact h.proper hstyle

/-- What runs over the end of a line is a proper region again. -/
theorem RunsOver.proper {region next : Region} (h : RunsOver region next)
    (hregion : region.Proper) : next.Proper := by
  cases h with
  | code => trivial
  | comment _ => exact hregion
  | triple _ => exact hregion
  | template => exact hregion
  | single _ => trivial

/-! ## Where comments and literals end -/

/-- What does not begin at a character, nor anywhere behind it, begins nowhere. -/
theorem BeginsNotIn.cons {part body following : List Char} {c : Char}
    (hstarts : ¬ part <+: c :: (body ++ following)) (h : BeginsNotIn part body following) :
    BeginsNotIn part (c :: body) following := by
  intro n hn
  cases n with
  | zero => exact hstarts
  | succ n =>
    rw [List.length_cons] at hn
    exact h n (by omega)

/-- A part begins nowhere in a text, or there is a first place where it does. -/
theorem beginsNotIn_or_exists (part text : List Char) :
    BeginsNotIn part text [] ∨
      ∃ body rest, text = body ++ (part ++ rest) ∧ BeginsNotIn part body (part ++ rest) := by
  induction text with
  | nil => exact Or.inl fun n hn => absurd hn (Nat.not_lt_zero n)
  | cons c text ih =>
    by_cases hstarts : part <+: c :: text
    · obtain ⟨rest, hrest⟩ := hstarts
      exact Or.inr ⟨[], rest, hrest.symm, fun n hn => absurd hn (Nat.not_lt_zero n)⟩
    · rcases ih with h | ⟨body, rest, rfl, h⟩
      · exact Or.inl (h.cons (by rwa [List.append_nil]))
      · exact Or.inr ⟨c :: body, rest, rfl, h.cons hstarts⟩

/-- An escaped character closes no literal. -/
theorem OpenToEnd.escape {delimiter body : List Char} (c : Char) (h : OpenToEnd delimiter body) :
    OpenToEnd delimiter ('\\' :: c :: body) := by
  rcases h with h | ⟨front, rfl, h⟩
  · exact Or.inl (h.escape c)
  · exact Or.inr ⟨'\\' :: c :: front, rfl, h.escape c⟩

/-- Nor does a character that no delimiter begins at. -/
theorem OpenToEnd.char {delimiter body : List Char} {c : Char} (hc : c ≠ '\\')
    (hstarts : ¬ delimiter <+: c :: body) (h : OpenToEnd delimiter body) :
    OpenToEnd delimiter (c :: body) := by
  rcases h with h | ⟨front, rfl, h⟩
  · exact Or.inl (.char hc (by rwa [List.append_nil]) h)
  · exact Or.inr ⟨c :: front, rfl, .char hc hstarts h⟩

/-- A literal stays open over a whole text, or there is a first place where it closes. -/
theorem openToEnd_or_exists (delimiter : List Char) : ∀ text : List Char,
    OpenToEnd delimiter text ∨
      ∃ body rest, text = body ++ (delimiter ++ rest) ∧ StaysOpen delimiter body (delimiter ++ rest)
  | [] => Or.inl (Or.inl (.nil []))
  -- a backslash that is the last character of the line has nothing to take
  | [c] => by
    by_cases hstarts : delimiter <+: [c]
    · obtain ⟨rest, hrest⟩ := hstarts
      exact Or.inr ⟨[], rest, hrest.symm, .nil _⟩
    · by_cases hc : c = '\\'
      · exact Or.inl (Or.inr ⟨[], by rw [hc]; rfl, .nil _⟩)
      · exact Or.inl (.char hc hstarts (Or.inl (.nil [])))
  | c :: d :: text => by
    by_cases hc : c = '\\'
    · subst hc
      -- the escape takes the next character whatever it is, a delimiter included
      rcases openToEnd_or_exists delimiter text with h | ⟨body, rest, rfl, h⟩
      · exact Or.inl (h.escape d)
      · exact Or.inr ⟨'\\' :: d :: body, rest, rfl, h.escape d⟩
    · by_cases hstarts : delimiter <+: c :: d :: text
      · obtain ⟨rest, hrest⟩ := hstarts
        exact Or.inr ⟨[], rest, hrest.symm, .nil _⟩
      · rcases openToEnd_or_exists delimiter (d :: text) with h | ⟨body, rest, hbody, h⟩
        · exact Or.inl (h.char hc hstarts)
        · have hopen : ¬ delimiter <+: c :: (body ++ (delimiter ++ rest)) := by
            rwa [hbody] at hstarts
          exact Or.inr ⟨c :: body, rest, by rw [hbody]; rfl, .char hc hopen h⟩

/-! ## Readings exist -/

section Existence

variable {style : CommentRules}

/-- The delimiter of a literal that opens at a quote. -/
theorem CommentRules.exists_opensLiteral (hstyle : style.Regular) {c : Char} (cs : List Char)
    (hquote : style.isQuote c = true) :
    ∃ delimiter text, c :: cs = delimiter ++ text ∧ delimiter ≠ [] ∧
      style.OpensLiteral delimiter (delimiter ++ text) := by
  cases htriple : style.startsTriple (c :: cs) with
  | true =>
    obtain ⟨_, rest, rfl⟩ := hstyle.triple_isQuote htriple
    exact ⟨[c, c, c], rest, rfl, List.cons_ne_nil _ _, .triple htriple⟩
  | false => exact ⟨[c], cs, rfl, List.cons_ne_nil _ _, .single hquote htriple⟩

/-- Every text that begins in code has a reading. -/
theorem exists_readsCode (hstyle : style.Regular) (text : List Char) :
    ∃ pieces after, ReadsCode style text pieces after := by
  -- a delimiter, a literal and a block comment are read at once, so the induction is on the length
  induction hn : text.length using Nat.strongRecOn generalizing text with
  | ind n ih =>
  cases text with
  | nil => exact ⟨[], .code, .stop⟩
  | cons c cs =>
    -- the order of the questions is that of the scanner: block comment, line comment, quote
    by_cases hblock : style.OpensBlock (c :: cs)
    · obtain ⟨opener, closer, hstyleBlock, rest, hrest⟩ := hblock
      rw [← hrest]
      rcases beginsNotIn_or_exists closer rest with h | ⟨body, rest, rfl, h⟩
      · exact ⟨_, _, .openComment hstyleBlock h⟩
      · have hlength := congrArg List.length hrest
        have hopener := List.length_pos_iff.mpr (hstyle.opener_ne_nil hstyleBlock)
        simp only [List.length_append] at hlength
        obtain ⟨pieces, after, hread⟩ := ih rest.length (by omega) rest rfl
        exact ⟨_, _, .comment hstyleBlock h hread⟩
    · cases hline : style.opensLineComment (c :: cs) with
      | true => exact ⟨_, _, .lineComment hblock hline⟩
      | false =>
        have hcomment : ¬ style.OpensComment (c :: cs) := by
          rintro (h | h)
          · exact hblock h
          · rw [hline] at h
            cases h
        cases hquote : style.isQuote c with
        | false =>
          rw [List.length_cons] at hn
          obtain ⟨pieces, after, hread⟩ := ih cs.length (by omega) cs rfl
          exact ⟨_, _, .code hcomment hquote hread⟩
        | true =>
          obtain ⟨delimiter, text, htext, hne, hopens⟩ :=
            CommentRules.exists_opensLiteral hstyle cs hquote
          rw [htext] at hn hcomment ⊢
          rcases openToEnd_or_exists delimiter text with h | ⟨body, rest, rfl, h⟩
          · exact ⟨_, _, .openLiteral hcomment hopens h⟩
          · have hpos := List.length_pos_iff.mpr hne
            simp only [List.length_append] at hn
            obtain ⟨pieces, after, hread⟩ := ih rest.length (by omega) rest rfl
            exact ⟨_, _, .literal hcomment hopens h hread⟩

/-- Every line has a reading, whichever region it begins in. -/
theorem exists_readsLine (hstyle : style.Regular) {region : Region} (hregion : region.Proper)
    (line : Line) : ∃ pieces after, ReadsLine style region line pieces after := by
  cases region with
  | code =>
    obtain ⟨pieces, after, h⟩ := exists_readsCode hstyle line
    exact ⟨pieces, after, .code h⟩
  | comment closer =>
    rcases beginsNotIn_or_exists closer (Text.trimStart line) with h | ⟨body, rest, htext, h⟩
    · exact ⟨_, _, .commentLine h⟩
    · obtain ⟨pieces, after, hread⟩ := exists_readsCode hstyle rest
      exact ⟨_, _, .commentRest htext h hread⟩
  | literal delimiter =>
    rcases openToEnd_or_exists delimiter (Text.trimStart line) with h | ⟨body, rest, htext, h⟩
    · exact ⟨_, _, .literalLine h⟩
    · obtain ⟨pieces, after, hread⟩ := exists_readsCode hstyle rest
      exact ⟨_, _, .literalRest htext h hread⟩

/-- Every proper region runs over the end of a line in some way. -/
theorem exists_runsOver {region : Region} (hregion : region.Proper) :
    ∃ next, RunsOver region next := by
  cases region with
  | code => exact ⟨.code, .code⟩
  | comment closer => exact ⟨.comment closer, .comment closer⟩
  | literal delimiter =>
    obtain ⟨q, _, rfl | rfl⟩ := hregion
    -- of the literals with one quote only a template goes on in the next line
    · by_cases hq : q = '\x60'
      · subst hq
        exact ⟨_, .template⟩
      · exact ⟨.code, .single hq⟩
    · exact ⟨_, .triple q⟩

/-- Lines that begin in a proper region always have a reading. -/
theorem exists_readsLines (hstyle : style.Regular) {region : Region} (hregion : region.Proper)
    (lines : List Line) : ∃ file, ReadsLines style region lines file := by
  induction lines generalizing region with
  | nil => exact ⟨[], .nil region⟩
  | cons line lines ih =>
    obtain ⟨pieces, after, hline⟩ := exists_readsLine hstyle hregion line
    have hafter := hline.proper hstyle hregion
    obtain ⟨next, hover⟩ := exists_runsOver hafter
    obtain ⟨file, hfile⟩ := ih (hover.proper hafter)
    exact ⟨pieces :: file, .cons hline hover hfile⟩

end Existence

end SourceSurvey
