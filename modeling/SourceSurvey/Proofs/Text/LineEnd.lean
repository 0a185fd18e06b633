import SourceSurvey.Text.Lines
import SourceSurvey.Text.Search
import SourceSurvey.Text.Trim
import Mathlib.Data.List.DropRight

/-!
# Line ends

How the end of a line is written makes no difference to the lines of a text: a carriage return
before a line feed belongs to the line end, and a line feed at the end of a text opens no line. Both
are changes in blanks only, which keep words where they are. Main statement: lines that are written
with their ends are read back as they were, and no other character splits one.
-/

namespace SourceSurvey.Text

/-! ## Lines -/

/-- The text with a carriage return before every line feed. -/
def withReturns : List Char → List Char
  | [] => []
  | c :: cs => if c = '\n' then '\r' :: '\n' :: withReturns cs else c :: withReturns cs

theorem withReturns_lineFeed (cs : List Char) :
    withReturns ('\n' :: cs) = '\r' :: '\n' :: withReturns cs := rfl

/-- A character other than the line feed gets no carriage return. -/
theorem withReturns_cons {c : Char} (h : c ≠ '\n') (cs : List Char) :
    withReturns (c :: cs) = c :: withReturns cs :=
  if_neg h

/-- A line feed ends the line before it. -/
theorem splitLines_lineFeed (cs : List Char) : splitLines ('\n' :: cs) = [] :: splitLines cs := rfl

/-- A carriage return and a line feed end one line together. -/
theorem splitLines_return_lineFeed (cs : List Char) :
    splitLines ('\r' :: '\n' :: cs) = [] :: splitLines cs := rfl

/-- A character that ends no line goes to the front of the first line. A carriage return ends none
unless a line feed follows. -/
theorem splitLines_cons {c : Char} (hfeed : c ≠ '\n') {cs : List Char}
    (hlone : c = '\r' → cs.head? ≠ some '\n') :
    splitLines (c :: cs) = (c :: (splitLines cs).headD []) :: (splitLines cs).tail := by
  rw [splitLines.eq_def]
  split
  · next h => cases h
  · next h => exact absurd (List.cons.inj h).1 hfeed
  · next h =>
    obtain ⟨hreturn, rfl⟩ := List.cons.inj h
    exact absurd rfl (hlone hreturn)
  · next h =>
    obtain ⟨rfl, rfl⟩ := List.cons.inj h
    cases splitLines cs <;> rfl

/-- Carriage returns before the line feeds change no line. -/
theorem splitLines_withReturns {text : List Char} (h : '\r' ∉ text) :
    splitLines (withReturns text) = splitLines text := by
  induction text with
  | nil => rfl
  | cons c cs ih =>
    rw [List.mem_cons, not_or] at h
    by_cases hfeed : c = '\n'
    · rw [hfeed, withReturns_lineFeed, splitLines_return_lineFeed, splitLines_lineFeed, ih h.2]
    · have hlone : ∀ {rest : List Char}, c = '\r' → rest.head? ≠ some '\n' :=
        fun hreturn => absurd hreturn.symm h.1
      rw [withReturns_cons hfeed, splitLines_cons hfeed hlone, splitLines_cons hfeed hlone, ih h.2]

/-- A line feed behind the last line adds no line. -/
theorem splitLines_append_lineFeed {text : List Char} (hreturn : '\r' ∉ text) (hne : text ≠ [])
    (hlast : text.getLast? ≠ some '\n') : splitLines (text ++ ['\n']) = splitLines text := by
  induction text with
  | nil => exact absurd rfl hne
  | cons c cs ih =>
    rw [List.mem_cons, not_or] at hreturn
    have hlone : ∀ {rest : List Char}, c = '\r' → rest.head? ≠ some '\n' :=
      fun h => absurd h.symm hreturn.1
    cases cs with
    | nil =>
      have hfeed : c ≠ '\n' := fun h => hlast (congrArg some h)
      rw [List.singleton_append, splitLines_cons hfeed hlone, splitLines_cons hfeed hlone]
      rfl
    | cons d ds =>
      rw [List.getLast?_cons_cons] at hlast
      have htail := ih hreturn.2 (List.cons_ne_nil d ds) hlast
      rw [List.cons_append]
      by_cases hfeed : c = '\n'
      · rw [hfeed, splitLines_lineFeed, splitLines_lineFeed, htail]
      · rw [splitLines_cons hfeed hlone, splitLines_cons hfeed hlone, htail]

/-! ## Lines with their ends -/

/-- How the end of a line is written. -/
inductive LineEnd where
  | lineFeed
  | returnLineFeed
deriving Repr, DecidableEq

/-- The characters of a line end. -/
def LineEnd.text : LineEnd → List Char
  | .lineFeed => ['\n']
  | .returnLineFeed => ['\r', '\n']

/-- A line with the end that is written behind it. A carriage return in front of a line feed would
belong to the line end, so no line with a bare line feed ends in one. -/
structure EndedLine where
  line : Line
  ending : LineEnd
  feedFree : '\n' ∉ line
  bare : ending = .lineFeed → line.getLast? ≠ some '\r'

/-- The line and its end. -/
def EndedLine.text (l : EndedLine) : List Char :=
  l.line ++ l.ending.text

/-- A line end at the front of a text is an empty line above it. -/
theorem LineEnd.splitLines_text_append (ending : LineEnd) (rest : List Char) :
    splitLines (ending.text ++ rest) = [] :: splitLines rest := by
  cases ending <;> rfl

/-- A piece without line feeds that does not end in the carriage return of a line end goes to the
front of the first line. -/
theorem splitLines_append {piece rest : List Char} (hfeed : '\n' ∉ piece) (hne : piece ≠ [])
    (hlone : piece.getLast? = some '\r' → rest.head? ≠ some '\n') :
    splitLines (piece ++ rest) =
      (piece ++ (splitLines rest).headD []) :: (splitLines rest).tail := by
  induction piece with
  | nil => exact absurd rfl hne
  | cons c cs ih =>
    rw [List.mem_cons, not_or] at hfeed
    have hc : c ≠ '\n' := Ne.symm hfeed.1
    cases cs with
    | nil => exact splitLines_cons hc fun hreturn => hlone (congrArg some hreturn)
    | cons d ds =>
      have hd : d ≠ '\n' := fun heq => hfeed.2 (heq ▸ List.mem_cons_self)
      rw [List.getLast?_cons_cons] at hlone
      have hnext : c = '\r' → (d :: ds ++ rest).head? ≠ some '\n' :=
        fun _ heq => hd (Option.some_inj.mp heq)
      rw [List.cons_append, splitLines_cons hc hnext, ih hfeed.2 (List.cons_ne_nil d ds) hlone]
      rfl

/-- A text without line feeds is one line. -/
theorem splitLines_of_not_mem {line : Line} (hfeed : '\n' ∉ line) (hne : line ≠ []) :
    splitLines line = [line] := by
  have hline : splitLines (line ++ []) = [line ++ []] :=
    splitLines_append hfeed hne fun _ heq => by cases heq
  rwa [List.append_nil] at hline

/-- A line with its end is the line above those of the rest. -/
theorem EndedLine.splitLines_text_append (l : EndedLine) (rest : List Char) :
    splitLines (l.text ++ rest) = l.line :: splitLines rest := by
  have hending := l.ending.splitLines_text_append rest
  rw [text, List.append_assoc]
  by_cases hempty : l.line = []
  · rw [hempty]
    exact hending
  · have hlone : l.line.getLast? = some '\r' → (l.ending.text ++ rest).head? ≠ some '\n' := by
      intro hreturn
      cases hend : l.ending with
      | lineFeed => exact absurd hreturn (l.bare hend)
      | returnLineFeed => exact fun heq => absurd (Option.some_inj.mp heq) (by decide)
    rw [splitLines_append l.feedFree hempty hlone, hending]
    exact congrArg (· :: splitLines rest) (List.append_nil l.line)

/-- Lines with their ends are read one after the other. -/
theorem splitLines_flatMap_append (lines : List EndedLine) (rest : List Char) :
    splitLines (lines.flatMap EndedLine.text ++ rest) = lines.map (·.line) ++ splitLines rest := by
  induction lines with
  | nil => rfl
  | cons l lines ih =>
    rw [List.flatMap_cons, List.append_assoc, l.splitLines_text_append, ih, List.map_cons,
      List.cons_append]

/-- Every text is made of lines with their ends and a last line without one. -/
theorem exists_flatMap_text (text : List Char) :
    ∃ (lines : List EndedLine) (last : Line), '\n' ∉ last ∧
      text = lines.flatMap EndedLine.text ++ last := by
  induction text with
  | nil => exact ⟨[], [], List.not_mem_nil, rfl⟩
  | cons c cs ih =>
    obtain ⟨lines, last, hlast, rfl⟩ := ih
    by_cases hc : c = '\n'
    · subst hc
      exact ⟨⟨[], .lineFeed, List.not_mem_nil, fun _ => by decide⟩ :: lines, last, hlast, rfl⟩
    · have hfront : ∀ {line : Line}, '\n' ∉ line → '\n' ∉ c :: line :=
        List.not_mem_cons_of_ne_of_not_mem (Ne.symm hc)
      cases lines with
      | nil => exact ⟨[], c :: last, hfront hlast, rfl⟩
      | cons l lines =>
        obtain ⟨line, ending, hfeed, hbare⟩ := l
        -- a carriage return in front of a bare line feed makes a longer line end, and any other
        -- character a longer line
        by_cases hreturn : c = '\r' ∧ line = [] ∧ ending = .lineFeed
        · obtain ⟨rfl, rfl, rfl⟩ := hreturn
          exact ⟨⟨[], .returnLineFeed, List.not_mem_nil, fun h => by cases h⟩ :: lines, last,
            hlast, rfl⟩
        · refine ⟨⟨c :: line, ending, hfront hfeed, fun hend => ?_⟩ :: lines, last, hlast, rfl⟩
          cases line with
          | nil => exact fun heq => hreturn ⟨Option.some_inj.mp heq, rfl, hend⟩
          | cons d ds =>
            rw [List.getLast?_cons_cons]
            exact hbare hend

/-- Lines with their ends are split into these lines, and so they are with a last line that is not
empty and has no end. No other character splits a line: the line that one stands in goes on from the
text in front of it to the text behind it, a form feed or a separator of Unicode as well as a
carriage return that no line feed follows. -/
theorem splitLines_flatMap_text (lines : List EndedLine) :
    splitLines (lines.flatMap EndedLine.text) = lines.map (·.line) ∧
      (∀ last : Line, '\n' ∉ last → last ≠ [] →
        splitLines (lines.flatMap EndedLine.text ++ last) = lines.map (·.line) ++ [last]) ∧
      ∀ (before : List Char) (c : Char) (after : List Char), c ≠ '\n' →
        (c = '\r' → after.head? ≠ some '\n') →
          ∃ above left right below, splitLines (before ++ [c]) = above ++ [left ++ [c]] ∧
            splitLines (c :: after) = (c :: right) :: below ∧
            splitLines (before ++ c :: after) = above ++ (left ++ c :: right) :: below := by
  refine ⟨?_, fun last hlast hne => ?_, fun before c after hc hlone => ?_⟩
  · have hnone := splitLines_flatMap_append lines []
    rw [List.append_nil] at hnone
    exact hnone.trans (List.append_nil _)
  · rw [splitLines_flatMap_append, splitLines_of_not_mem hlast hne]
  · obtain ⟨above, left, hleft, rfl⟩ := exists_flatMap_text before
    have hline : '\n' ∉ left ++ [c] := fun hmem =>
      (List.mem_append.mp hmem).elim hleft fun hmem => hc (List.mem_singleton.mp hmem).symm
    have hne : left ++ [c] ≠ [] := List.append_ne_nil_of_right_ne_nil _ (List.cons_ne_nil c [])
    have hend : (left ++ [c]).getLast? = some '\r' → after.head? ≠ some '\n' := fun heq =>
      hlone (Option.some_inj.mp (List.getLast?_concat.symm.trans heq))
    refine ⟨above.map (·.line), left, (splitLines after).headD [], (splitLines after).tail, ?_,
      splitLines_cons hc hlone, ?_⟩
    · rw [List.append_assoc, splitLines_flatMap_append, splitLines_of_not_mem hline hne]
    · have hsplit := splitLines_append hline hne hend
      rw [List.append_assoc, List.append_assoc, List.singleton_append] at hsplit
      rw [List.append_assoc, splitLines_flatMap_append, hsplit]
      rfl

/-- A return in front of a line end, an empty line, and a last line with a form feed, a lone return
and separators, cut at the return. -/
theorem splitLines_flatMap_text_mixed :
    splitLines "a\r\r\n\nb\n\x0cc\r\u0085\u2028".toList =
        ["a\r".toList, [], "b".toList, "\x0cc\r\u0085\u2028".toList] ∧
      ∃ above left right below,
        splitLines "a\n\x0cc\r".toList = above ++ [left ++ ['\r']] ∧
        splitLines "\r\u0085\u2028\nd".toList = ('\r' :: right) :: below ∧
        splitLines "a\n\x0cc\r\u0085\u2028\nd".toList =
          above ++ (left ++ '\r' :: right) :: below := by
  obtain ⟨-, hlast, hjoined⟩ := splitLines_flatMap_text
    [⟨"a\r".toList, .returnLineFeed, by decide, by decide⟩,
      ⟨[], .lineFeed, by decide, by decide⟩, ⟨"b".toList, .lineFeed, by decide, by decide⟩]
  exact ⟨hlast "\x0cc\r\u0085\u2028".toList (by decide) (by decide),
    hjoined "a\n\x0cc".toList '\r' "\u0085\u2028\nd".toList (by decide) (by decide)⟩

/-! ## Joined lines -/

theorem joinLines_singleton (line : Line) : joinLines [line] = line :=
  List.intercalate_singleton

theorem joinLines_cons_cons (line next : Line) (below : List Line) :
    joinLines (line :: next :: below) = line ++ '\n' :: joinLines (next :: below) := by
  unfold joinLines
  rw [List.intercalate_cons_cons, List.append_assoc]
  rfl

/-- Every line below the first one stands behind a line feed. -/
theorem joinLines_cons (line : Line) (below : List Line) :
    joinLines (line :: below) = line ++ below.flatMap ('\n' :: ·) := by
  induction below generalizing line with
  | nil => rw [joinLines_singleton, List.flatMap_nil, List.append_nil]
  | cons next below ih => rw [joinLines_cons_cons, ih, List.flatMap_cons, List.cons_append]

theorem splitWhere_ne_nil (p : Char → Bool) (text : List Char) : splitWhere p text ≠ [] := by
  cases text with
  | nil => exact List.cons_ne_nil _ _
  | cons c cs =>
    rw [splitWhere]
    split
    · exact List.cons_ne_nil _ _
    · split <;> exact List.cons_ne_nil _ _

/-- A character that is no separator goes to the front of the first piece. -/
theorem splitWhere_cons {c separator : Char} (h : c ≠ separator) {cs piece : List Char}
    {pieces : List (List Char)} (hcs : splitWhere (· == separator) cs = piece :: pieces) :
    splitWhere (· == separator) (c :: cs) = (c :: piece) :: pieces := by
  rw [splitWhere, beq_false_of_ne h, if_neg Bool.false_ne_true, hcs]

theorem splitWhere_lineFeed (cs : List Char) :
    splitWhere (· == '\n') ('\n' :: cs) = [] :: splitWhere (· == '\n') cs := rfl

/-- The pieces between line feeds, each with the carriage return that ends it. -/
theorem splitAt_withReturns (text : List Char) :
    splitAt '\n' (withReturns text ++ ['\r']) = (splitAt '\n' text).map (· ++ ['\r']) := by
  unfold splitAt
  induction text with
  | nil => rfl
  | cons c cs ih =>
    by_cases hfeed : c = '\n'
    · rw [hfeed, withReturns_lineFeed, List.cons_append, List.cons_append,
        splitWhere_cons (by decide) (splitWhere_lineFeed _), splitWhere_lineFeed, ih]
      rfl
    · obtain ⟨piece, pieces, hpieces⟩ :=
        List.exists_cons_of_ne_nil (splitWhere_ne_nil (· == '\n') cs)
      rw [hpieces, List.map_cons] at ih
      rw [withReturns_cons hfeed, List.cons_append, splitWhere_cons hfeed ih,
        splitWhere_cons hfeed hpieces]
      rfl

/-! ## Blanks at the end -/

theorem trimEndWhile_append {p : Char → Bool} {c : Char} (h : p c = true) (text : List Char) :
    trimEndWhile p (text ++ [c]) = trimEndWhile p text := by
  induction text with
  | nil =>
    show (if p c then [] else [c]) = []
    rw [if_pos h]
  | cons d ds ih => rw [List.cons_append, trimEndWhile, trimEndWhile, ih]

theorem trimStart_append {c : Char} (h : isSpace c = true) (text : List Char) :
    trimStart (text ++ [c]) = if trimStart text = [] then [] else trimStart text ++ [c] := by
  unfold trimStart
  rw [List.dropWhile_append, List.dropWhile_cons_of_pos h]
  simp only [List.isEmpty_iff]
  rfl

theorem trim_append {c : Char} (h : isSpace c = true) (text : List Char) :
    trim (text ++ [c]) = trim text := by
  unfold trim
  rw [trimStart_append h]
  split
  · next hblank => rw [hblank]
  · exact trimEndWhile_append h _

/-- Trimming a text that is trimmed at its front is trimming the text. -/
theorem trim_trimStart (text : List Char) : trim (trimStart text) = trim text := by
  unfold trim trimStart
  rw [List.dropWhile_idempotent]

/-! ## Changes in blanks -/

/-- A text that is not empty and has no blanks. -/
def Solid (word : List Char) : Prop :=
  word ≠ [] ∧ ∀ c ∈ word, isSpace c = false

instance (word : List Char) : Decidable (Solid word) :=
  @instDecidableAnd _ _ inferInstance (List.decidableBAll _ word)

/-- A change of texts that keeps every word without blanks where it is, at the front of a text and
behind the first blanks. -/
structure KeepsWords (change : List Char → List Char) : Prop where
  append : ∀ {word : List Char}, Solid word → ∀ text, change (word ++ text) = word ++ change text
  prefix_of : ∀ {word text : List Char}, Solid word → word <+: change text → word <+: text
  trimStart : ∀ text, trimStart (change text) = change (trimStart text) ∨
    trimStart text = [] ∧ trimStart (change text) = []

/-- A blank behind a text keeps its words. -/
theorem keepsWords_append {c : Char} (h : isSpace c = true) : KeepsWords (· ++ [c]) where
  append _ text := List.append_assoc _ text [c]
  prefix_of := by
    intro word text hword hprefixed
    rcases List.prefix_concat_iff.mp hprefixed with heq | hprefixed
    · -- the added blank would be a character of the word
      have hmem : c ∈ word := heq ▸ List.mem_append_right text List.mem_cons_self
      rw [hword.2 c hmem] at h
      cases h
    · exact hprefixed
  trimStart text := by
    rw [trimStart_append h]
    split
    · next hblank => exact Or.inr ⟨hblank, rfl⟩
    · exact Or.inl rfl

/-- Carriage returns before the line feeds are trimmed with them. -/
theorem trimStart_withReturns (text : List Char) :
    trimStart (withReturns text) = withReturns (trimStart text) := by
  unfold trimStart
  induction text with
  | nil => rfl
  | cons c cs ih =>
    by_cases hfeed : c = '\n'
    · rw [hfeed]
      exact ih
    · rw [withReturns_cons hfeed, List.dropWhile_cons, List.dropWhile_cons]
      split
      · exact ih
      · exact (withReturns_cons hfeed cs).symm

/-- Carriage returns before the line feeds keep the words of a text. -/
theorem keepsWords_withReturns : KeepsWords withReturns where
  append := by
    rintro word ⟨-, hword⟩ text
    induction word with
    | nil => rfl
    | cons c cs ih =>
      have hfeed : c ≠ '\n' := by
        rintro rfl
        cases hword '\n' List.mem_cons_self
      rw [List.cons_append, withReturns_cons hfeed,
        ih fun d hd => hword d (List.mem_cons_of_mem c hd)]
      rfl
  prefix_of := by
    rintro word text ⟨-, hword⟩ hprefixed
    induction word generalizing text with
    | nil => exact List.nil_prefix
    | cons c cs ih =>
      cases text with
      | nil => exact absurd (List.prefix_nil.mp hprefixed) (List.cons_ne_nil c cs)
      | cons d ds =>
        -- a return is put in at a line feed only, and a word has none
        by_cases hfeed : d = '\n'
        · rw [hfeed, withReturns_lineFeed, List.cons_prefix_cons] at hprefixed
          have hc := hword c List.mem_cons_self
          rw [hprefixed.1] at hc
          cases hc
        · rw [withReturns_cons hfeed, List.cons_prefix_cons] at hprefixed
          rw [List.cons_prefix_cons]
          exact ⟨hprefixed.1, ih (fun e he => hword e (List.mem_cons_of_mem c he)) hprefixed.2⟩
  trimStart text := Or.inl (trimStart_withReturns text)

end SourceSurvey.Text
