import SourceSurvey.Proofs.MetaBlock.Reading
import SourceSurvey.Summary.OfText

/-!
# Summaries and line ends

A meta block is sought in the text as it stands, with its line ends, and everything else in its
lines. Main statement: a text has the same summary whether its lines end in line feeds alone or in
carriage returns and line feeds, and whether or not its last line is ended.
-/

namespace SourceSurvey

open Pattern (wordsAt)
open Text (KeepsWords Solid)

/-! ## Words under a change of blanks -/

section Change

variable {change : List Char → List Char}

/-- A word is at the front of the changed text when it is at the front of the text. -/
theorem isPrefixOf_change (hchange : KeepsWords change) {word : List Char} (hword : Solid word)
    (text : List Char) : word.isPrefixOf (change text) = word.isPrefixOf text := by
  rw [Bool.eq_iff_iff, List.isPrefixOf_iff_prefix, List.isPrefixOf_iff_prefix]
  refine ⟨hchange.prefix_of hword, ?_⟩
  rintro ⟨rest, rfl⟩
  rw [hchange.append hword]
  exact List.prefix_append word _

/-- Behind such a word the change goes on. -/
theorem drop_change (hchange : KeepsWords change) {word text : List Char} (hword : Solid word)
    (h : word.isPrefixOf text = true) :
    (change text).drop word.length = change (text.drop word.length) := by
  obtain ⟨rest, rfl⟩ := List.isPrefixOf_iff_prefix.mp h
  rw [hchange.append hword, List.drop_left, List.drop_left]

/-- The words at the front of a text stay, and what is behind them changes as the text does. -/
theorem wordsAt_change (hchange : KeepsWords change) {words : List String}
    (hwords : ∀ w ∈ words, Solid w.toList) (text : List Char) :
    wordsAt words (change text) = (wordsAt words text).map (Prod.map id change) := by
  induction words with
  | nil => rfl
  | cons w ws ih =>
    have hw := hwords w List.mem_cons_self
    have hrest := ih fun w' hw' => hwords w' (List.mem_cons_of_mem w hw')
    rw [wordsAt, wordsAt, isPrefixOf_change hchange hw, hrest]
    split
    · next h => rw [drop_change hchange hw h, List.map_cons]; rfl
    · rfl

theorem isPrefixOf_trimStart_change (hchange : KeepsWords change) {word : List Char}
    (hword : Solid word) (text : List Char) :
    word.isPrefixOf (Text.trimStart (change text)) = word.isPrefixOf (Text.trimStart text) := by
  rcases hchange.trimStart text with h | ⟨hblank, h⟩
  · rw [h, isPrefixOf_change hchange hword]
  · rw [h, hblank]

end Change

namespace MetaBlock

/-! ## Where a block stands, under a change of blanks -/

section Change

variable {change : List Char → List Char}

/-- A change in blanks closes no block and opens none. -/
theorem closes_change (hchange : KeepsWords change) (text : List Char) :
    closes (change text) = closes text := by
  have hdashes : Solid "---".toList := by decide
  unfold closes
  rcases hchange.trimStart text with h | ⟨hblank, h⟩
  · rw [h, wordsAt_change hchange solid_of_mem_lineMarks, List.any_map]
    exact congrArg (List.any _)
      (funext fun r => isPrefixOf_trimStart_change hchange hdashes r.2)
  · rw [h, hblank]

/-- A block is found in the changed text where its body is only edited. -/
theorem blockAt?_change (hchange : KeepsWords change) {edit : List Char → List Char}
    (hbody : ∀ text, body? (change text) = (body? text).map edit) (text : List Char) :
    blockAt? (change text) = (blockAt? text).map edit := by
  have hname : Solid "---meta".toList := by decide
  unfold blockAt?
  rw [wordsAt_change hchange solid_of_mem_openingMarks, List.findSome?_map, List.map_findSome?]
  congr 1
  funext r
  show (if _ then body? ((Text.trimStart (change r.2)).drop _) else none) =
    (if _ then body? ((Text.trimStart r.2).drop _) else none).map edit
  rw [Prod.map_snd, isPrefixOf_trimStart_change hchange hname, apply_ite (Option.map edit)]
  split
  · next h =>
    -- the name of the block stands behind the blanks, so not all of the rest is blank
    rcases hchange.trimStart r.2 with htrim | ⟨hblank, -⟩
    · rw [htrim, drop_change hchange hname h, hbody]
    · rw [hblank] at h
      cases h
  · rfl

end Change

/-! ## Carriage returns -/

section Returns

open Text (withReturns withReturns_lineFeed withReturns_cons keepsWords_withReturns)

/-- The text inside a block, with carriage returns: the line feed behind it has one too. -/
theorem inside?_withReturns (text : List Char) :
    inside? (withReturns text) = (inside? text).map fun s => withReturns s ++ ['\r'] := by
  induction text with
  | nil => rfl
  | cons c cs ih =>
    by_cases hfeed : c = '\n'
    · subst hfeed
      have hreturn : inside? ('\r' :: '\n' :: withReturns cs) =
          (inside? ('\n' :: withReturns cs)).map ('\r' :: ·) := rfl
      rw [withReturns_lineFeed, hreturn, inside?, inside?, closes_change keepsWords_withReturns, ih]
      cases closes cs with
      | true => rfl
      | false =>
        rw [Bool.and_false, if_neg Bool.false_ne_true, if_neg Bool.false_ne_true, Option.map_map,
          Option.map_map, Option.map_map]
        rfl
    · have hnot : (c == '\n') = false := beq_false_of_ne hfeed
      rw [withReturns_cons hfeed, inside?, inside?, hnot, Bool.false_and, Bool.false_and,
        if_neg Bool.false_ne_true, if_neg Bool.false_ne_true, ih, Option.map_map, Option.map_map]
      congr 1
      funext s
      exact congrArg (· ++ ['\r']) (withReturns_cons hfeed s).symm

/-- The body of a block gets the carriage returns too. -/
theorem body?_withReturns (text : List Char) :
    body? (withReturns text) = (body? text).map fun s => withReturns s ++ ['\r'] := by
  induction text with
  | nil => rfl
  | cons c cs ih =>
    by_cases hfeed : c = '\n'
    · subst hfeed
      -- no block begins between the carriage return and the line feed
      have hreturn : body? ('\r' :: '\n' :: withReturns cs) =
          ((body? (withReturns cs)).or (inside? (withReturns cs))).or none := rfl
      have hbody : body? ('\n' :: cs) = (body? cs).or (inside? cs) := rfl
      rw [withReturns_lineFeed, hreturn, hbody, ih, inside?_withReturns, Option.or_none,
        Option.map_or]
    · have hnot : (c == '\n') = false := beq_false_of_ne hfeed
      rw [withReturns_cons hfeed, body?, body?, ih, hnot]
      split
      · rw [if_neg Bool.false_ne_true, if_neg Bool.false_ne_true, Option.or_none, Option.or_none]
      · rfl

theorem firstInside?_withReturns (text : List Char) :
    firstInside? (withReturns text) =
      (firstInside? text).map fun s => withReturns s ++ ['\r'] := by
  induction text with
  | nil => rfl
  | cons c cs ih =>
    have hhere := blockAt?_change keepsWords_withReturns body?_withReturns (c :: cs)
    by_cases hfeed : c = '\n'
    · subst hfeed
      have hreturn : firstInside? ('\r' :: '\n' :: withReturns cs) =
          firstInside? (withReturns cs) := rfl
      have hlineFeed : firstInside? ('\n' :: cs) = firstInside? cs := rfl
      rw [withReturns_lineFeed, hreturn, hlineFeed, ih]
    · rw [withReturns_cons hfeed] at hhere ⊢
      rw [firstInside?, firstInside?, hhere, ih, Option.map_or]

end Returns

/-! ## A line feed at the end -/

section LastLineFeed

theorem isSpace_lineFeed : Text.isSpace '\n' = true := rfl

/-- A line feed behind a text changes nothing inside a block. -/
theorem inside?_append_lineFeed (text : List Char) : inside? (text ++ ['\n']) = inside? text := by
  induction text with
  | nil => rfl
  | cons c cs ih =>
    rw [List.cons_append, inside?, inside?, ih,
      closes_change (Text.keepsWords_append isSpace_lineFeed)]

theorem body?_append_lineFeed (text : List Char) : body? (text ++ ['\n']) = body? text := by
  induction text with
  | nil => rfl
  | cons c cs ih => rw [List.cons_append, body?, body?, ih, inside?_append_lineFeed]

theorem firstInside?_append_lineFeed (text : List Char) :
    firstInside? (text ++ ['\n']) = firstInside? text := by
  induction text with
  | nil => rfl
  | cons c cs ih =>
    have hbody : ∀ t, body? (t ++ ['\n']) = (body? t).map id := fun t => by
      rw [body?_append_lineFeed, Option.map_id_fun, id]
    have hhere := blockAt?_change (Text.keepsWords_append isSpace_lineFeed) hbody (c :: cs)
    rw [Option.map_id_fun, id, List.cons_append] at hhere
    rw [List.cons_append, firstInside?, firstInside?, hhere, ih]

end LastLineFeed

/-! ## The lines inside -/

/-- A carriage return at the end of a line belongs to the blanks that are cut. -/
theorem lineText_append_return (line : Line) : lineText (line ++ ['\r']) = lineText line := by
  have hspace : Text.isSpace '\r' = true := rfl
  have hchange := Text.keepsWords_append hspace
  have htext : Text.trim (linePrelude.dropStart (line ++ ['\r'])) =
      Text.trim (linePrelude.dropStart line) := by
    rw [dropStart_linePrelude, dropStart_linePrelude]
    rcases hchange.trimStart line with h | ⟨hblank, h⟩
    · rw [h, wordsAt_change hchange solid_of_mem_lineMarks, List.head?_map]
      cases (wordsAt lineMarks (Text.trimStart line)).head? with
      | none => exact Text.trim_append hspace line
      | some r =>
        show Text.trim (Text.trimStart (r.2 ++ ['\r'])) = Text.trim (Text.trimStart r.2)
        rw [Text.trim_trimStart, Text.trim_trimStart, Text.trim_append hspace]
    · rw [h, hblank]
      exact Text.trim_append hspace line
  rw [lineText, lineText, htext]

/-- A carriage return behind a line changes no entry. -/
theorem entry?_append_return (line : Line) : entry? (line ++ ['\r']) = entry? line := by
  unfold entry?
  rw [lineText_append_return]

/-! ## Blocks -/

/-- Carriage returns before the line feeds of a text change nothing in its block. -/
theorem ofText?_withReturns (text : List Char) :
    ofText? (Text.withReturns text) = ofText? text := by
  rw [ofText?_eq_map_firstInside?, ofText?_eq_map_firstInside?, firstInside?_withReturns,
    Option.map_map]
  congr 1
  funext inside
  rw [Function.comp_apply, Text.splitAt_withReturns, List.filterMap_map]
  exact congrArg (fun f => ofEntries ((Text.splitAt '\n' inside).filterMap f))
    (funext entry?_append_return)

/-- A line feed at the end of a text changes nothing in its block. -/
theorem ofText?_append_lineFeed (text : List Char) : ofText? (text ++ ['\n']) = ofText? text := by
  rw [ofText?_eq_map_firstInside?, ofText?_eq_map_firstInside?, firstInside?_append_lineFeed]

end MetaBlock

/-! ## Summaries -/

/-- A summary is told from the lines of a text and from its meta block. -/
theorem ofText_congr {text text' : List Char}
    (hlines : Text.splitLines text = Text.splitLines text')
    (hblock : MetaBlock.ofText? text = MetaBlock.ofText? text') (fileName tag : String) :
    Summary.ofText text fileName tag = Summary.ofText text' fileName tag := by
  unfold Summary.ofText
  rw [hlines, hblock]

/-- Neither carriage returns before line feeds nor a line feed behind the last line change what a
text is summarised to, or whether it is. -/
theorem ofText_lineEnds (text : List Char) (hreturn : '\r' ∉ text) (fileName tag : String) :
    Summary.ofText (Text.withReturns text) fileName tag = Summary.ofText text fileName tag ∧
      (text ≠ [] → text.getLast? ≠ some '\n' →
        Summary.ofText (text ++ ['\n']) fileName tag = Summary.ofText text fileName tag) := by
  refine ⟨?_, fun hne hlast => ?_⟩
  · exact ofText_congr (Text.splitLines_withReturns hreturn)
      (MetaBlock.ofText?_withReturns text) fileName tag
  · exact ofText_congr (Text.splitLines_append_lineFeed hreturn hne hlast)
      (MetaBlock.ofText?_append_lineFeed text) fileName tag

/-- A file that opens with a block and whose last line is not ended. -/
theorem ofText_lineEnds_block :
    Summary.ofText "# ---meta\r\n# name: A\r\n# ---\r\nx = 1".toList "a.py" "python" =
        Summary.ofText "# ---meta\n# name: A\n# ---\nx = 1".toList "a.py" "python" ∧
      Summary.ofText "# ---meta\n# name: A\n# ---\nx = 1\n".toList "a.py" "python" =
        Summary.ofText "# ---meta\n# name: A\n# ---\nx = 1".toList "a.py" "python" := by
  have hreturn : '\r' ∉ "# ---meta\n# name: A\n# ---\nx = 1".toList := by decide
  obtain ⟨hreturns, hlast⟩ := ofText_lineEnds _ hreturn "a.py" "python"
  exact ⟨hreturns, hlast (by decide) (by decide)⟩

end SourceSurvey
