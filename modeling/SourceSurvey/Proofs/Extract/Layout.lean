import SourceSurvey.Code.Place
import SourceSurvey.Proofs.Comment.Erasure
import SourceSurvey.Proofs.Text.Field

/-!
# Statements written over several lines

How the pieces of a statement are laid out on lines: with blanks between two pieces, with a
backslash that continues the line, or with a line end that blanks, comments and empty lines may
stand around. Main statement: the stripped lines of a layout are those of its rows, without
comments, where every piece closes the literals that it opens.
-/

namespace SourceSurvey

/-! ## Texts with no blanks around them -/

namespace Text

/-- The text begins and ends with characters that are no blanks. -/
structure Tight (text : List Char) : Prop where
  first : ∃ c cs, text = c :: cs ∧ isSpace c = false
  last : ∃ cs c, text = cs ++ [c] ∧ isSpace c = false

/-- A word without blanks has none around it. -/
theorem Solid.tight {word : List Char} (h : Solid word) : Tight word := by
  obtain ⟨hne, hchars⟩ := h
  refine ⟨?_, word.dropLast, word.getLast hne, (List.dropLast_append_getLast hne).symm,
    hchars _ (List.getLast_mem hne)⟩
  cases word with
  | nil => exact absurd rfl hne
  | cons c cs => exact ⟨c, cs, rfl, hchars c List.mem_cons_self⟩

/-- A text between two characters that are no blanks has no blanks around it. -/
theorem tight_of_ends {c d : Char} (hc : isSpace c = false) (hd : isSpace d = false)
    (body : List Char) : Tight (c :: (body ++ [d])) :=
  ⟨⟨c, body ++ [d], rfl, hc⟩, c :: body, d, rfl, hd⟩

/-- Two such texts with blanks between them have none around them. -/
theorem Tight.append {text more : List Char} (h : Tight text) (hmore : Tight more)
    (blanks : List Char) : Tight (text ++ (blanks ++ more)) := by
  obtain ⟨c, cs, rfl, hc⟩ := h.first
  obtain ⟨ds, d, rfl, hd⟩ := hmore.last
  exact ⟨⟨c, cs ++ (blanks ++ (ds ++ [d])), rfl, hc⟩, c :: cs ++ (blanks ++ ds), d, by simp, hd⟩

/-- Such a text is not empty. -/
theorem Tight.ne_nil {text : List Char} (h : Tight text) : text ≠ [] := by
  obtain ⟨c, cs, rfl, -⟩ := h.first
  exact List.cons_ne_nil c cs

/-- Nothing is trimmed behind a character that stays. -/
theorem trimEndWhile_concat_of_neg {p : Char → Bool} {c : Char} (h : p c = false)
    (text : List Char) : trimEndWhile p (text ++ [c]) = text ++ [c] := by
  induction text with
  | nil =>
    show (if p c then [] else [c]) = [c]
    rw [h]
    rfl
  | cons d ds ih =>
    rw [List.cons_append, trimEndWhile, ih]
    cases ds <;> rfl

/-- The blanks at the end are trimmed once. -/
theorem trim_trimEnd (text : List Char) : trim (trimEnd text) = trim text := by
  induction text using List.reverseRecOn with
  | nil => rfl
  | append_singleton cs c ih =>
    by_cases hc : isSpace c = true
    · rw [trimEnd, trimEndWhile_append hc, trim_append hc]
      exact ih
    · rw [trimEnd, trimEndWhile_concat_of_neg (Bool.eq_false_iff.mpr hc)]

/-- Trimming its end keeps a text up to a character that is not trimmed. -/
theorem isPrefix_trimEndWhile {p : Char → Bool} {c : Char} (h : p c = false)
    (text more : List Char) : text ++ [c] <+: trimEndWhile p (text ++ [c] ++ more) := by
  induction more using List.reverseRecOn with
  | nil => exact ⟨[], by rw [List.append_nil, trimEndWhile_concat_of_neg h]⟩
  | append_singleton ds d ih =>
    rw [← List.append_assoc]
    by_cases hd : p d = true
    · rwa [trimEndWhile_append hd]
    · rw [trimEndWhile_concat_of_neg (Bool.eq_false_iff.mpr hd)]
      exact ⟨ds ++ [d], by simp⟩

/-- Characters to trim at the end of a text are trimmed away. -/
theorem trimEndWhile_append_of_pos {p : Char → Bool} {more : List Char}
    (h : ∀ c ∈ more, p c = true) (text : List Char) :
    trimEndWhile p (text ++ more) = trimEndWhile p text := by
  induction more generalizing text with
  | nil => rw [List.append_nil]
  | cons c cs ih =>
    have hcons : text ++ c :: cs = text ++ [c] ++ cs := by simp
    rw [hcons, ih fun d hd => h d (List.mem_cons_of_mem c hd),
      trimEndWhile_append (h c List.mem_cons_self)]

/-- A text without characters to trim stays as it is. -/
theorem trimWhile_of_forall {p : Char → Bool} {text : List Char} (h : ∀ c ∈ text, p c = false) :
    trimWhile p text = text := by
  have hdrop : text.dropWhile p = text := by
    cases text with
    | nil => rfl
    | cons c cs =>
      exact List.dropWhile_cons_of_neg (by rw [h c List.mem_cons_self]; exact Bool.false_ne_true)
  rw [trimWhile, hdrop]
  cases text using List.reverseRecOn with
  | nil => rfl
  | append_singleton cs c => exact trimEndWhile_concat_of_neg (h c (by simp)) cs

/-- Two characters to trim around a text without any are trimmed away. -/
theorem trimWhile_enclosed {p : Char → Bool} {opener closer : Char} {text : List Char}
    (hopener : p opener = true) (hcloser : p closer = true) (hne : text ≠ [])
    (htext : ∀ c ∈ text, p c = false) :
    trimWhile p (opener :: (text ++ [closer])) = text := by
  obtain ⟨c, cs, rfl⟩ := List.exists_cons_of_ne_nil hne
  have hinner := trimWhile_of_forall htext
  unfold trimWhile at hinner ⊢
  have hc : ¬ p c = true := by
    rw [htext c List.mem_cons_self]
    exact Bool.false_ne_true
  rw [List.dropWhile_cons_of_neg hc] at hinner
  rw [List.dropWhile_cons_of_pos hopener, List.cons_append, List.dropWhile_cons_of_neg hc,
    ← List.cons_append, trimEndWhile_append hcloser, hinner]

/-- Trimming takes the blanks around a tight text. -/
theorem Tight.trim_eq {text before after : List Char} (h : Tight text)
    (hbefore : ∀ c ∈ before, isSpace c = true) (hafter : ∀ c ∈ after, isSpace c = true) :
    trim (before ++ (text ++ after)) = text := by
  obtain ⟨c, cs, hfirst, hc⟩ := h.first
  obtain ⟨ds, d, hlast, hd⟩ := h.last
  have hstart : trimStart (before ++ (text ++ after)) = text ++ after := by
    rw [hfirst]
    exact Text.dropWhile_append_cons hbefore hc (cs ++ after)
  rw [trim, hstart, trimEnd, trimEndWhile_append_of_pos hafter, hlast,
    trimEndWhile_concat_of_neg hd]

/-- Blanks behind a text are trimmed away, and the text stays. -/
theorem Tight.trim_append {text after : List Char} (h : Tight text)
    (hafter : ∀ c ∈ after, isSpace c = true) : Text.trim (text ++ after) = text :=
  h.trim_eq (fun _ (hc : _ ∈ []) => nomatch hc) hafter

/-- Behind blanks a tight text is kept, whatever stands behind it. -/
theorem Tight.isPrefix_trim {text before : List Char} (h : Tight text)
    (hbefore : ∀ c ∈ before, isSpace c = true) (after : List Char) :
    text <+: Text.trim (before ++ (text ++ after)) := by
  obtain ⟨c, cs, hfirst, hc⟩ := h.first
  obtain ⟨ds, d, hlast, hd⟩ := h.last
  have hstart : trimStart (before ++ (text ++ after)) = text ++ after := by
    rw [hfirst]
    exact dropWhile_append_cons hbefore hc (cs ++ after)
  rw [Text.trim, hstart, hlast]
  exact isPrefix_trimEndWhile hd ds after

/-- Trimming leaves a text without blanks around it as it is. -/
theorem Tight.trim {text : List Char} (h : Tight text) : trim text = text := by
  have htrim : Text.trim (text ++ []) = text := h.trim_append (by simp)
  rwa [List.append_nil] at htrim

theorem isSpace_of_mem_blank : ∀ c ∈ [' '], isSpace c = true :=
  List.all_eq_true.mp (by decide)

/-- Trimming blanks leaves nothing. -/
theorem trim_eq_nil {text : List Char} (h : ∀ c ∈ text, isSpace c = true) :
    Text.trim text = [] := by
  have hstart : trimStart text = [] := List.dropWhile_eq_nil_iff.mpr h
  rw [Text.trim, hstart]
  rfl

/-- A text that is not blank has no blanks around it when it is trimmed. -/
theorem tight_trim {text : List Char} {c : Char} (hc : c ∈ text) (hspace : isSpace c = false) :
    Tight (Text.trim text) := by
  have hmem := mem_trim hc hspace
  cases htrim : Text.trim text with
  | nil =>
    rw [htrim] at hmem
    cases hmem
  | cons d ds =>
    obtain ⟨-, -, -, -, -, hlast⟩ := exists_trim_append text
    rw [htrim] at hlast
    have hne : d :: ds ≠ [] := List.cons_ne_nil d ds
    exact ⟨⟨d, ds, rfl, isSpace_eq_false_of_trim_eq_cons htrim⟩, (d :: ds).dropLast,
      (d :: ds).getLast hne, (List.dropLast_append_getLast hne).symm,
      hlast _ (List.getLast?_eq_some_getLast hne)⟩

/-- Trimming leaves nothing of blank texts only. -/
theorem isEmpty_trim (text : List Char) : (Text.trim text).isEmpty = isBlank text := by
  rw [Bool.eq_iff_iff, List.isEmpty_iff, isBlank, List.all_eq_true]
  refine ⟨fun h c hc => ?_, trim_eq_nil⟩
  by_contra hspace
  have hmem := mem_trim hc (Bool.eq_false_iff.mpr hspace)
  rw [h] at hmem
  cases hmem

end Text

/-! ## Parts of lines -/

/-- Blanks within a line, perhaps none. -/
structure Blanks where
  text : List Char
  isSpace : ∀ c ∈ text, Text.isSpace c = true
  noFeed : '\n' ∉ text

/-- No blanks. -/
def Blanks.none : Blanks :=
  ⟨[], by simp, by simp⟩

/-- At least one blank within a line. -/
structure Space extends Blanks where
  ne_nil : text ≠ []

/-- Characters of a class, at least one. -/
structure Word (p : Char → Bool) where
  text : List Char
  ne_nil : text ≠ []
  chars : ∀ c ∈ text, p c = true

theorem Word.solid {p : Char → Bool} (hp : ∀ c, p c = true → Text.isSpace c = false)
    (word : Word p) : Text.Solid word.text :=
  ⟨word.ne_nil, fun c hc => hp c (word.chars c hc)⟩

/-- What a line may end in: blanks and perhaps a comment. -/
structure LineTail where
  blanks : Blanks
  comment : Option (List Char)

/-- The comment of a line with its hash. -/
def LineTail.commentText (tail : LineTail) : List Char :=
  match tail.comment with
  | none => []
  | some text => '#' :: text

def LineTail.text (tail : LineTail) : List Char :=
  tail.blanks.text ++ tail.commentText

/-- How a row of a statement ends: like any line, or with a backslash that continues it. -/
inductive Ending where
  | plain (tail : LineTail)
  | slash (blanks : Blanks)

def Ending.text : Ending → List Char
  | .plain tail => tail.text
  | .slash blanks => blanks.text ++ ['\\']

/-- What a stripped row keeps of its end. -/
def Ending.code : Ending → List Char
  | .plain tail => tail.blanks.text
  | .slash blanks => blanks.text ++ ['\\']

/-- A line that holds a part of a statement, or nothing of it. -/
structure Row where
  indent : Blanks
  text : List Char
  ending : Ending

def Row.line (row : Row) : Line :=
  row.indent.text ++ (row.text ++ row.ending.text)

/-! ## Stripped rows -/

/-- What stripping keeps of a text in code. -/
def stripped (text : List Char) : List Char :=
  (CommentRules.hash.stripFrom 0 .code text).1

/-- The text closes the literals that it opens, and begins no comment: what follows it is stripped
as if it stood alone. A quote may join a literal at the end and must not follow. -/
def ClosesLiterals (text : List Char) : Prop :=
  ∀ rest, rest.head?.any CommentRules.hash.isQuote = false →
    CommentRules.hash.stripFrom 0 .code (text ++ rest) =
      (stripped text ++ (CommentRules.hash.stripFrom 0 .code rest).1,
        (CommentRules.hash.stripFrom 0 .code rest).2)

/-- A character that begins no comment and no literal. -/
def isBare (c : Char) : Bool :=
  c != '#' && c != '"' && c != '\''

/-- In Python only a hash opens a comment. -/
theorem not_opensComment_of_ne_hash {c : Char} (hc : c ≠ '#') (cs : List Char) :
    ¬ CommentRules.hash.OpensComment (c :: cs) := by
  rintro (⟨opener, closer, hblock, -⟩ | hline)
  · cases hblock
  · revert hline
    simp [CommentRules.opensLineComment, CommentRules.hash, Ne.symm hc]

/-- A character is bare when it is no hash and no quote. -/
theorem isBare_iff {c : Char} :
    isBare c = true ↔ c ≠ '#' ∧ CommentRules.hash.isQuote c = false := by
  simp [isBare, CommentRules.isQuote, CommentRules.hash, and_assoc]

/-- A bare character is kept. -/
theorem stripFrom_cons_of_isBare {c : Char} (hc : isBare c = true) (cs : List Char) :
    CommentRules.hash.stripFrom 0 .code (c :: cs) =
      (c :: (CommentRules.hash.stripFrom 0 .code cs).1,
        (CommentRules.hash.stripFrom 0 .code cs).2) := by
  obtain ⟨hhash, hquote⟩ := isBare_iff.mp hc
  exact CommentRules.stripFrom_cons_of_plain (CommentRules.regular_style .python)
    (not_opensComment_of_ne_hash hhash cs) hquote

/-- Bare characters are kept. -/
theorem stripFrom_of_isBare {text : List Char} (htext : ∀ c ∈ text, isBare c = true)
    (rest : List Char) :
    CommentRules.hash.stripFrom 0 .code (text ++ rest) =
      (text ++ (CommentRules.hash.stripFrom 0 .code rest).1,
        (CommentRules.hash.stripFrom 0 .code rest).2) := by
  refine CommentRules.stripFrom_append_of_plain (CommentRules.regular_style .python) ?_ rest
  intro c hc
  obtain ⟨hhash, hquote⟩ := isBare_iff.mp (htext c hc)
  exact ⟨not_opensComment_of_ne_hash hhash, hquote⟩

/-- A text without hashes and quotes is kept. -/
theorem stripped_of_isBare {text : List Char} (htext : ∀ c ∈ text, isBare c = true) :
    stripped text = text := by
  have hstrip := stripFrom_of_isBare htext []
  rw [List.append_nil] at hstrip
  rw [stripped, hstrip, CommentRules.stripFrom_nil, List.append_nil]

/-- Bare characters open no literal. -/
theorem closesLiterals_of_isBare {text : List Char} (htext : ∀ c ∈ text, isBare c = true) :
    ClosesLiterals text := by
  intro rest _
  rw [stripFrom_of_isBare htext, stripped_of_isBare htext]

theorem isBare_of_isSpace {c : Char} (h : Text.isSpace c = true) : isBare c = true := by
  have hne : ∀ d, Text.isSpace d = false → c ≠ d := fun d hd => Text.ne_of_class h hd
  simp [isBare, hne '#' (by decide), hne '"' (by decide), hne '\'' (by decide)]

/-- The end of a row opens no literal, and its comment is cut. -/
theorem Ending.stripFrom_text (ending : Ending) :
    ending.text.head?.any CommentRules.hash.isQuote = false ∧
      CommentRules.hash.stripFrom 0 .code ending.text = (ending.code, .code) := by
  have hblanks : ∀ b : Blanks, ∀ c ∈ b.text, isBare c = true := fun b c hc =>
    isBare_of_isSpace (b.isSpace c hc)
  have hquote : ∀ (b : Blanks) (more : List Char),
      more.head?.any CommentRules.hash.isQuote = false →
      (b.text ++ more).head?.any CommentRules.hash.isQuote = false := by
    intro b more hmore
    cases htext : b.text with
    | nil => exact hmore
    | cons c cs =>
      have hbare := hblanks b c (htext ▸ List.mem_cons_self)
      simp only [isBare, Bool.and_eq_true, bne_iff_ne] at hbare
      simp [CommentRules.isQuote, CommentRules.hash, hbare]
  cases ending with
  | plain tail =>
    have hcomment : CommentRules.hash.stripFrom 0 .code tail.commentText = ([], .code) := by
      unfold LineTail.commentText
      cases tail.comment <;> rfl
    refine ⟨hquote tail.blanks _ ?_, ?_⟩
    · unfold LineTail.commentText
      cases tail.comment <;> rfl
    · show CommentRules.hash.stripFrom 0 .code (tail.blanks.text ++ tail.commentText) = _
      rw [stripFrom_of_isBare (hblanks tail.blanks), hcomment, List.append_nil]
      rfl
  | slash blanks =>
    refine ⟨hquote blanks _ rfl, ?_⟩
    show CommentRules.hash.stripFrom 0 .code (blanks.text ++ ['\\']) = _
    rw [stripFrom_of_isBare (hblanks blanks)]
    rfl

/-- The stripped line of a row. -/
def Row.code (row : Row) : Line :=
  row.indent.text ++ (stripped row.text ++ row.ending.code)

/-- The line of a row strips to its code and ends outside literals. -/
theorem Row.stripFrom_line {row : Row} (h : ClosesLiterals row.text) :
    CommentRules.hash.stripFrom 0 .code row.line = (row.code, .code) := by
  have hindent : ∀ c ∈ row.indent.text, isBare c = true := fun c hc =>
    isBare_of_isSpace (row.indent.isSpace c hc)
  obtain ⟨hquote, hending⟩ := row.ending.stripFrom_text
  rw [Row.line, stripFrom_of_isBare hindent, h _ hquote, hending]
  rfl

/-- The stripped copy of rows that leave nothing open. -/
theorem CommentRules.strip_map {style : CommentRules} {line code : Row → Line} {rows : List Row}
    (h : ∀ row ∈ rows, style.stripFrom 0 .code (line row) = (code row, .code))
    (below : List Line) :
    style.strip (rows.map line ++ below) = rows.map code ++ style.strip below := by
  induction rows with
  | nil => rfl
  | cons row rows ih =>
    have hrest := ih fun r hr => h r (List.mem_cons_of_mem row hr)
    unfold CommentRules.strip at hrest ⊢
    rw [List.map_cons, List.cons_append, CommentRules.stripLines, CommentRules.stripLine,
      h row List.mem_cons_self]
    show code row :: style.stripLines .code _ = _
    rw [hrest]
    rfl

/-- The lines of rows that leave nothing open, with their stripped copies. -/
theorem sourceLines_map {style : CommentRules} {line code : Row → Line} {rows : List Row}
    (h : ∀ row ∈ rows, style.stripFrom 0 .code (line row) = (code row, .code))
    (below : List Line) :
    sourceLines style (rows.map line ++ below) =
      rows.map (fun row => ⟨line row, code row⟩) ++ sourceLines style below := by
  unfold sourceLines
  rw [CommentRules.strip_map h, List.zipWith_append (by simp), List.zipWith_map_left,
    List.zipWith_map_right, List.zipWith_self]

/-- The line of a row with its stripped copy. -/
def Row.source (row : Row) : SourceLine :=
  ⟨row.line, row.code⟩

/-- The lines of rows with their stripped copies. -/
theorem sourceLines_map_line {rows : List Row} (h : ∀ row ∈ rows, ClosesLiterals row.text)
    (below : List Line) :
    sourceLines .hash (rows.map Row.line ++ below) =
      rows.map Row.source ++ sourceLines .hash below :=
  sourceLines_map (fun row hrow => Row.stripFrom_line (h row hrow)) below

/-! ## Layouts -/

/-- What stands between two pieces of a statement. -/
inductive Gap where
  | onLine (blanks : Blanks)
  /-- A backslash continues the line, and the next line is indented. -/
  | slash (blanks indent : Blanks)
  /-- The line ends, lines without a piece may follow, and the next line is indented. -/
  | lines (tail : LineTail) (between : List LineTail) (indent : Blanks)

namespace Gap

/-- The blanks that stand for the gap where lines are joined by a blank. -/
def spaces : Gap → List Char
  | .onLine blanks => blanks.text
  | .slash blanks _ => blanks.text ++ [' ']
  | .lines _ between _ => List.replicate (between.length + 1) ' '

/-- The gap ends the line without a backslash. -/
def endsLine : Gap → Bool
  | .lines .. => true
  | _ => false

/-- The gap continues the line by a backslash. -/
def hasSlash : Gap → Bool
  | .slash .. => true
  | _ => false

theorem isSpace_of_mem_spaces {gap : Gap} : ∀ c ∈ gap.spaces, Text.isSpace c = true := by
  cases gap with
  | onLine blanks => exact blanks.isSpace
  | slash blanks indent =>
    intro c hc
    rcases List.mem_append.mp hc with hc | hc
    · exact blanks.isSpace c hc
    · rw [List.mem_singleton.mp hc]
      decide
  | lines tail between indent =>
    intro c hc
    rw [List.eq_of_mem_replicate hc]
    decide

end Gap

/-- A line of blanks and perhaps a comment. -/
def LineTail.row (tail : LineTail) : Row :=
  ⟨.none, [], .plain tail⟩

/-- The rows of a statement whose first piece is given, with the gap before each further piece. -/
def layOut (indent : Blanks) (text : List Char) (tail : LineTail) :
    List (Gap × List Char) → List Row
  | [] => [⟨indent, text, .plain tail⟩]
  | (.onLine blanks, piece) :: rest => layOut indent (text ++ (blanks.text ++ piece)) tail rest
  | (.slash blanks next, piece) :: rest =>
    ⟨indent, text, .slash blanks⟩ :: layOut next piece tail rest
  | (.lines lineTail between next, piece) :: rest =>
    ⟨indent, text, .plain lineTail⟩ :: (between.map LineTail.row ++ layOut next piece tail rest)

/-- The first row is indented as the layout is. -/
theorem layOut_indent (indent : Blanks) (text : List Char) (tail : LineTail)
    (pieces : List (Gap × List Char)) :
    ∃ row rows, layOut indent text tail pieces = row :: rows ∧ row.indent = indent := by
  induction pieces generalizing text with
  | nil => exact ⟨_, _, rfl, rfl⟩
  | cons x rest ih =>
    obtain ⟨gap, piece⟩ := x
    cases gap with
    | onLine blanks => exact ih (text ++ (blanks.text ++ piece))
    | slash blanks next => exact ⟨_, _, rfl, rfl⟩
    | lines lineTail between next => exact ⟨_, _, rfl, rfl⟩

/-- Pieces with the blanks that stand for the gaps before them. -/
def spaced (pieces : List (Gap × List Char)) : List Char :=
  pieces.flatMap fun x => x.1.spaces ++ x.2

theorem spaced_cons (gap : Gap) (piece : List Char) (pieces : List (Gap × List Char)) :
    spaced ((gap, piece) :: pieces) = gap.spaces ++ (piece ++ spaced pieces) := by
  simp [spaced]

/-- Two rows of pieces are joined by the gap of the second one. -/
theorem spaced_append (pieces more : List (Gap × List Char)) :
    spaced (pieces ++ more) = spaced pieces ++ spaced more :=
  List.flatMap_append

/-- What holds of the pieces, and of two texts with blanks between them, holds of the texts of all
rows but empty ones. On the first row stands what holds of its text with pieces behind it. -/
theorem layOut_texts {P Q : List Char → Prop}
    (hfirst : ∀ text piece, P text → Q piece → ∀ blanks : Blanks,
      P (text ++ (blanks.text ++ piece)))
    (happend : ∀ text piece, Q text → Q piece → ∀ blanks : Blanks,
      Q (text ++ (blanks.text ++ piece)))
    {pieces : List (Gap × List Char)} (hpieces : ∀ x ∈ pieces, Q x.2)
    {text : List Char} (htext : P text) (indent : Blanks) (tail : LineTail) :
    ∃ row rows, layOut indent text tail pieces = row :: rows ∧ P row.text ∧
      ∀ r ∈ rows, r.text = [] ∨ Q r.text := by
  -- after the first line end the rows are collected with the property of the pieces
  induction pieces generalizing P text indent with
  | nil => exact ⟨_, [], rfl, htext, fun r hr => nomatch hr⟩
  | cons x rest ih =>
    obtain ⟨gap, piece⟩ := x
    have hpiece : Q piece := hpieces (gap, piece) List.mem_cons_self
    have hrest : ∀ x ∈ rest, Q x.2 := fun x hx => hpieces x (List.mem_cons_of_mem _ hx)
    cases gap with
    | onLine blanks => exact ih hfirst hrest (hfirst text piece htext hpiece blanks) indent
    | slash blanks next =>
      obtain ⟨row, rows, hrows, hrow, hall⟩ := ih happend hrest hpiece next
      refine ⟨_, _, rfl, htext, ?_⟩
      rw [hrows]
      intro r hr
      rcases List.mem_cons.mp hr with rfl | hr
      · exact .inr hrow
      · exact hall r hr
    | lines lineTail between next =>
      obtain ⟨row, rows, hrows, hrow, hall⟩ := ih happend hrest hpiece next
      refine ⟨_, _, rfl, htext, ?_⟩
      rw [hrows]
      intro r hr
      rcases List.mem_append.mp hr with hr | hr
      · obtain ⟨t, -, rfl⟩ := List.mem_map.mp hr
        exact .inl rfl
      · rcases List.mem_cons.mp hr with rfl | hr
        · exact .inr hrow
        · exact hall r hr

/-- A text before the first piece stands on the first row. -/
theorem layOut_append (before : List Char) (indent : Blanks) (text : List Char) (tail : LineTail)
    (pieces : List (Gap × List Char)) :
    ∃ row rows, layOut indent text tail pieces = row :: rows ∧
      layOut indent (before ++ text) tail pieces =
        { row with text := before ++ row.text } :: rows := by
  induction pieces generalizing text with
  | nil => exact ⟨_, _, rfl, rfl⟩
  | cons x rest ih =>
    obtain ⟨gap, piece⟩ := x
    cases gap with
    | onLine blanks =>
      obtain ⟨row, rows, hrows, hbefore⟩ := ih (text ++ (blanks.text ++ piece))
      refine ⟨row, rows, hrows, ?_⟩
      rw [← hbefore, ← List.append_assoc]
      rfl
    | slash blanks next => exact ⟨_, _, rfl, rfl⟩
    | lines lineTail between next => exact ⟨_, _, rfl, rfl⟩

/-! ## Joined rows -/

/-- Each line without a piece adds a blank. -/
theorem intercalate_replicate_append (n : Nat) (text line : List Char) (lines : List (List Char)) :
    [' '].intercalate (text :: (List.replicate n [] ++ line :: lines)) =
      text ++ (List.replicate (n + 1) ' ' ++ [' '].intercalate (line :: lines)) := by
  induction n generalizing text with
  | zero =>
    show [' '].intercalate (text :: line :: lines) = _
    rw [List.intercalate_cons_cons, List.append_assoc]
    rfl
  | succ n ih =>
    rw [List.replicate_succ, List.cons_append, List.intercalate_cons_cons, ih,
      List.replicate_succ (n := n + 1), List.append_assoc]
    rfl

/-- Rows that are shown as their texts are joined to the text of the layout, with a blank for each
line end. -/
theorem intercalate_layOut {shown : Row → List Char} {IsPart : List Char → Prop}
    (happend : ∀ text piece, IsPart text → IsPart piece → ∀ blanks : Blanks,
      IsPart (text ++ (blanks.text ++ piece)))
    (hshown : ∀ text, IsPart text → ∀ (indent : Blanks) (tail : LineTail),
      shown ⟨indent, text, .plain tail⟩ = text)
    (hempty : ∀ tail : LineTail, shown tail.row = []) {pieces : List (Gap × List Char)}
    (hpieces : ∀ x ∈ pieces, x.1.hasSlash = false ∧ IsPart x.2) {text : List Char}
    (htext : IsPart text) (indent : Blanks) (tail : LineTail) :
    [' '].intercalate ((layOut indent text tail pieces).map shown) = text ++ spaced pieces := by
  induction pieces generalizing text indent with
  | nil =>
    show [' '].intercalate [shown _] = text ++ []
    rw [hshown text htext, List.intercalate_singleton, List.append_nil]
  | cons x rest ih =>
    obtain ⟨gap, piece⟩ := x
    obtain ⟨hslash, hpiece⟩ := hpieces (gap, piece) List.mem_cons_self
    have hrest : ∀ x ∈ rest, x.1.hasSlash = false ∧ IsPart x.2 := fun x hx =>
      hpieces x (List.mem_cons_of_mem _ hx)
    rw [spaced_cons]
    -- a piece on the same line makes the first text longer, one on a further line begins a new row
    cases gap with
    | slash blanks next => cases hslash
    | onLine blanks =>
      show [' '].intercalate ((layOut indent (text ++ (blanks.text ++ piece)) tail rest).map _) = _
      rw [ih hrest (happend text piece htext hpiece blanks) indent]
      simp [Gap.spaces]
    | lines lineTail between next =>
      have hjoined := ih hrest hpiece next
      obtain ⟨row, rows, hrows, -⟩ := layOut_indent next piece tail rest
      have hbetween : (between.map LineTail.row).map shown = List.replicate between.length [] := by
        rw [List.map_map, List.eq_replicate_iff]
        refine ⟨List.length_map _, fun text htext => ?_⟩
        obtain ⟨t, -, rfl⟩ := List.mem_map.mp htext
        exact hempty t
      rw [hrows, List.map_cons] at hjoined
      show [' '].intercalate ((⟨indent, text, .plain lineTail⟩ ::
        (between.map LineTail.row ++ layOut next piece tail rest)).map shown) = _
      rw [hrows, List.map_cons, hshown text htext, List.map_append, hbetween, List.map_cons,
        intercalate_replicate_append, hjoined]
      rfl

end SourceSurvey
