import SourceSurvey.Proofs.Extract.Layout
import SourceSurvey.Proofs.MetaBlock.Reading
import SourceSurvey.Proofs.Pattern.Preferred

/-!
# Meta blocks as they are written

A block is written with one of four comment marks, one key and value on each line, every line
indented as one likes. Main statement: behind any lines that do not name a block, and before any
text, the written block is found, and it declares the keys with their last values.
-/

namespace SourceSurvey

/-! ## Associations -/

section Associations

variable {α : Type}

/-- The first entry answers for its own key, the others for every other key. -/
theorem lookup_cons_eq_ite (entry : String × α) (entries : List (String × α)) (key : String) :
    (entry :: entries).lookup key = if key = entry.1 then some entry.2 else entries.lookup key := by
  rw [List.lookup_cons]
  by_cases h : key = entry.1
  · rw [if_pos h, beq_iff_eq.mpr h]
  · rw [if_neg h, beq_false_of_ne h]

/-- A key that is set has the new value, and every other key keeps its own. -/
theorem lookup_setKey (entries : List (String × α)) (key other : String) (value : α) :
    (setKey entries key value).lookup other =
      if other = key then some value else entries.lookup other := by
  induction entries with
  | nil => exact lookup_cons_eq_ite (key, value) [] other
  | cons entry entries ih =>
    rw [setKey, lookup_cons_eq_ite]
    by_cases hk : entry.1 = key
    · rw [if_pos (beq_iff_eq.mpr hk), lookup_cons_eq_ite, hk]
      by_cases h : other = key
      · rw [if_pos h, if_pos h]
      · rw [if_neg h, if_neg h, if_neg h]
    · rw [if_neg (by simpa using hk), lookup_cons_eq_ite, ih]
      by_cases h : other = entry.1
      · have hother : other ≠ key := fun heq => hk (h ▸ heq)
        rw [if_pos h, if_neg hother, if_pos h]
      · rw [if_neg h, if_neg h]

/-- A key that is set stays where it was, or comes last. -/
theorem map_fst_setKey (entries : List (String × α)) (key : String) (value : α) :
    (setKey entries key value).map Prod.fst =
      if key ∈ entries.map Prod.fst then entries.map Prod.fst
      else entries.map Prod.fst ++ [key] := by
  induction entries with
  | nil => rfl
  | cons entry entries ih =>
    rw [setKey, List.map_cons]
    by_cases hk : entry.1 = key
    · rw [if_pos (beq_iff_eq.mpr hk), if_pos (hk ▸ List.mem_cons_self)]
      rfl
    · rw [if_neg (by simpa using hk), List.map_cons, ih]
      by_cases hmem : key ∈ entries.map Prod.fst
      · rw [if_pos hmem, if_pos (List.mem_cons_of_mem _ hmem)]
      · have hnot : key ∉ entry.1 :: entries.map Prod.fst := by
          rw [List.mem_cons, not_or]
          exact ⟨fun h => hk h.symm, hmem⟩
        rw [if_neg hmem, if_neg hnot]
        rfl

/-- Setting a key repeats no key. -/
theorem nodup_setKey {entries : List (String × α)} (h : (entries.map Prod.fst).Nodup)
    (key : String) (value : α) : ((setKey entries key value).map Prod.fst).Nodup := by
  rw [map_fst_setKey]
  by_cases hmem : key ∈ entries.map Prod.fst
  · rwa [if_pos hmem]
  · rw [if_neg hmem, List.nodup_append]
    refine ⟨h, List.pairwise_singleton _ key, fun k hk k' hk' heq => hmem ?_⟩
    rwa [← List.mem_singleton.mp hk', ← heq]

end Associations

namespace MetaBlock

open Pattern (wordsAt)

/-- The raw entries are those set one after the other. -/
theorem raw_ofEntries_concat (entries : List (String × String)) (entry : String × String) :
    (ofEntries (entries ++ [entry])).raw = setKey (ofEntries entries).raw entry.1 entry.2 :=
  List.foldl_append

/-- A key has its last value. -/
theorem lookup_raw_ofEntries (entries : List (String × String)) (key : String) :
    (ofEntries entries).raw.lookup key = entries.reverse.lookup key := by
  induction entries using List.reverseRecOn with
  | nil => rfl
  | append_singleton entries entry ih =>
    rw [raw_ofEntries_concat, lookup_setKey, ih, List.reverse_concat, lookup_cons_eq_ite]

/-- No key stands twice in a block. -/
theorem nodup_raw_ofEntries (entries : List (String × String)) :
    ((ofEntries entries).raw.map Prod.fst).Nodup := by
  induction entries using List.reverseRecOn with
  | nil => exact List.nodup_nil
  | append_singleton entries entry ih =>
    rw [raw_ofEntries_concat]
    exact nodup_setKey ih _ _

/-! ## Lines of a block -/

/-- A way to write a block as a comment. -/
inductive Layout where
  | hash | slashes | asterisks | markup

namespace Layout

/-- The mark that the first line begins with. -/
def opener : Layout → String
  | hash => "#"
  | slashes => "//"
  | asterisks => "/*"
  | markup => "<!--"

/-- The mark that every other line begins with. -/
def mark : Layout → String
  | hash => "#"
  | slashes => "//"
  | asterisks => "*"
  | markup => "<!--"

/-- At the opening mark of a layout no other opening mark stands. -/
theorem wordsAt_opener (layout : Layout) (text : List Char) :
    wordsAt openingMarks (layout.opener.toList ++ text) = [(layout.opener, text)] := by
  cases layout <;> rfl

/-- At the mark of a line no other mark stands. -/
theorem wordsAt_mark (layout : Layout) (text : List Char) :
    wordsAt lineMarks (layout.mark.toList ++ text) = [(layout.mark, text)] := by
  cases layout <;> rfl

theorem tight_opener (layout : Layout) : Text.Tight layout.opener.toList := by
  have hsolid : Text.Solid layout.opener.toList := by cases layout <;> decide
  exact hsolid.tight

theorem tight_mark (layout : Layout) : Text.Tight layout.mark.toList := by
  have hsolid : Text.Solid layout.mark.toList := by cases layout <;> decide
  exact hsolid.tight

/-- The mark of a line stays on the line. -/
theorem lineFeed_not_mem_mark (layout : Layout) : '\n' ∉ layout.mark.toList := by
  cases layout <;> decide

end Layout

/-- A key and its value. -/
structure Assignment where
  key : List Char
  value : List Char
  key_ne_nil : key ≠ []
  key_trim : Text.trim key = key
  key_colon : ':' ∉ key
  key_lineFeed : '\n' ∉ key
  key_dashes : ¬ "---".toList <+: key
  value_trim : Text.trim value = value
  value_lineFeed : '\n' ∉ value
  value_closer : ¬ "-->".toList <:+ value

/-- A line of a block: an assignment, indented, perhaps with the end of a comment behind it. -/
structure AssignmentLine extends Assignment where
  indentation : Blanks
  closed : Bool

namespace Assignment

/-- What is left of the line of an assignment when it is trimmed. -/
def core (a : Assignment) : List Char :=
  a.key ++ ':' :: if a.value = [] then [] else ' ' :: a.value

/-- The blank behind the colon that trimming takes. -/
def gap (a : Assignment) : List Char :=
  if a.value = [] then [' '] else []

/-- With the blank behind its colon an assignment is written in full. -/
theorem core_append_gap (a : Assignment) : a.core ++ a.gap = a.key ++ ':' :: ' ' :: a.value := by
  unfold core gap
  by_cases h : a.value = []
  · rw [if_pos h, if_pos h, h]
    simp
  · rw [if_neg h, if_neg h, List.append_nil]

theorem isSpace_of_mem_gap (a : Assignment) : ∀ c ∈ a.gap, Text.isSpace c = true := by
  unfold gap
  by_cases h : a.value = []
  · rw [if_pos h]
    exact Text.isSpace_of_mem_blank
  · rw [if_neg h]
    exact nofun

end Assignment

namespace AssignmentLine

/-- The end of the comment. -/
def ending (line : AssignmentLine) : List Char :=
  if line.closed then " -->".toList else []

/-- A line behind its mark. -/
def text (line : AssignmentLine) : List Char :=
  line.key ++ ':' :: ' ' :: (line.value ++ line.ending)

def written (layout : Layout) (line : AssignmentLine) : Line :=
  line.indentation.text ++ (layout.mark.toList ++ ' ' :: line.text)

end AssignmentLine

/-- A block as it is written, with any text behind the mark that closes it. -/
def writtenBlock (layout : Layout) (opening closing : Blanks) (lines : List AssignmentLine)
    (after : List Char) : List Char :=
  opening.text ++ (layout.opener.toList ++ (" ---meta\n".toList ++
    (Text.joinLines (lines.map (·.written layout)) ++
      '\n' :: (closing.text ++ (layout.mark.toList ++ (" ---".toList ++ after))))))

/-! ## Texts with no blanks around them -/

/-- A text that trimming leaves alone has no blanks around it. -/
theorem tight_of_trim_eq {text : List Char} (htrim : Text.trim text = text) (hne : text ≠ []) :
    Text.Tight text := by
  constructor
  · obtain ⟨c, cs, rfl⟩ := List.exists_cons_of_ne_nil hne
    exact ⟨c, cs, rfl, Text.isSpace_eq_false_of_trim_eq_cons htrim⟩
  · rcases List.eq_nil_or_concat text with hnil | ⟨cs, c, rfl⟩
    · exact absurd hnil hne
    rw [List.concat_eq_append] at htrim ⊢
    refine ⟨cs, c, rfl, ?_⟩
    cases hc : Text.isSpace c with
    | false => rfl
    | true =>
      -- trimming would take the blank at the end
      rw [Text.trim_append hc] at htrim
      have hlength := congrArg List.length htrim
      have hle : (Text.trim cs).length ≤ cs.length :=
        (Text.trimEndWhile_isPrefix _ _).length_le.trans (List.dropWhile_suffix _).length_le
      rw [List.length_append, List.length_singleton] at hlength
      omega

theorem tight_core (a : Assignment) : Text.Tight a.core := by
  have hkey := tight_of_trim_eq a.key_trim a.key_ne_nil
  have hcolon : Text.Tight [':'] := Text.Solid.tight (by decide)
  have hstart : Text.Tight (a.key ++ ([] ++ [':'])) := hkey.append hcolon []
  unfold Assignment.core
  by_cases h : a.value = []
  · rw [if_pos h]
    exact hstart
  · have hall := hstart.append (tight_of_trim_eq a.value_trim h) [' ']
    rw [if_neg h]
    simpa using hall

/-- A text ends where its last part does, if the part begins with a character that the ending does
not have. -/
theorem not_suffix_append_cons {ending text more : List Char} {c : Char} (hc : c ∉ ending)
    (h : ¬ ending <:+ text) : ¬ ending <:+ more ++ c :: text := by
  intro hends
  rcases List.suffix_or_suffix_of_suffix hends (List.suffix_append more (c :: text)) with hin | hout
  · rcases List.suffix_cons_iff.mp hin with rfl | hin
    · exact hc List.mem_cons_self
    · exact h hin
  · exact hc (hout.subset List.mem_cons_self)

/-- The core of an assignment does not end a markup comment. -/
theorem core_closer (a : Assignment) : ¬ "-->".toList <:+ a.core := by
  unfold Assignment.core
  by_cases h : a.value = []
  · rw [if_pos h]
    exact not_suffix_append_cons (by decide) (by decide)
  · rw [if_neg h]
    have hvalue : ¬ "-->".toList <:+ [] ++ ' ' :: a.value :=
      not_suffix_append_cons (by decide) a.value_closer
    exact not_suffix_append_cons (by decide) hvalue

/-! ## Reading a line -/

/-- Trimming a line stops at its mark. -/
theorem trimStart_mark (layout : Layout) (indentation : Blanks) (text : List Char) :
    Text.trimStart (indentation.text ++ (layout.mark.toList ++ text)) =
      layout.mark.toList ++ text := by
  obtain ⟨c, cs, hmark, hc⟩ := layout.tight_mark.first
  rw [hmark]
  exact Text.dropWhile_append_cons indentation.isSpace hc _

/-- Trimming behind the mark stops at the key. -/
theorem trimStart_text (line : AssignmentLine) (more : List Char) :
    Text.trimStart (' ' :: (line.text ++ more)) = line.text ++ more := by
  obtain ⟨c, cs, hkey, hc⟩ := (tight_of_trim_eq line.key_trim line.key_ne_nil).first
  have hcons : line.text ++ more =
      c :: (cs ++ ':' :: ' ' :: (line.value ++ line.ending) ++ more) := by
    rw [AssignmentLine.text, hkey]
    rfl
  rw [hcons]
  show ([' '] ++ c :: _).dropWhile Text.isSpace = _
  exact Text.dropWhile_append_cons Text.isSpace_of_mem_blank hc _

/-- The text of a line is its assignment, without the end of the comment. -/
theorem lineText_written (layout : Layout) (line : AssignmentLine) :
    lineText (line.written layout) = line.core := by
  have hprelude : linePrelude.dropStart (line.written layout) = line.text := by
    have htext := trimStart_text line []
    rw [List.append_nil] at htext
    rw [dropStart_linePrelude, AssignmentLine.written, trimStart_mark, layout.wordsAt_mark]
    exact htext
  have hgap := line.toAssignment.isSpace_of_mem_gap
  have hcore := tight_core line.toAssignment
  have hsplit : line.text = line.core ++ (line.gap ++ line.ending) := by
    rw [← List.append_assoc, line.toAssignment.core_append_gap, AssignmentLine.text]
    simp
  rw [lineText, hprelude, hsplit, AssignmentLine.ending]
  cases line.closed with
  | false =>
    have htrim : Text.trim (line.core ++ (line.gap ++ [])) = line.core := by
      rw [List.append_nil]
      exact hcore.trim_append hgap
    have hends : ¬ Text.endsWith line.core "-->".toList = true := by
      rw [Text.endsWith, List.isSuffixOf_iff_suffix]
      exact core_closer line.toAssignment
    rw [if_neg Bool.false_ne_true, htrim, if_neg hends]
  | true =>
    -- the end of the comment is cut off, and the blanks before it trimmed
    have hcloser : Text.Tight "-->".toList := Text.Solid.tight (by decide)
    have hwhole := (hcore.append hcloser (line.gap ++ [' '])).trim
    have hcut : line.core ++ (line.gap ++ [' '] ++ "-->".toList) =
        line.core ++ (line.gap ++ [' ']) ++ "-->".toList := by simp
    have hends : Text.endsWith (line.core ++ (line.gap ++ [' ']) ++ "-->".toList) "-->".toList =
        true := by
      rw [Text.endsWith, List.isSuffixOf_iff_suffix]
      exact List.suffix_append _ _
    have hblank : ∀ c ∈ line.gap ++ [' '], Text.isSpace c = true := by
      intro c hc
      rcases List.mem_append.mp hc with hc | hc
      · exact hgap c hc
      · exact Text.isSpace_of_mem_blank c hc
    have hlength : (line.core ++ (line.gap ++ [' ']) ++ "-->".toList).length - 3 =
        (line.core ++ (line.gap ++ [' '])).length := by
      rw [List.length_append]
      exact Nat.add_sub_cancel _ 3
    have hending : line.gap ++ " -->".toList = line.gap ++ [' '] ++ "-->".toList := by
      rw [List.append_assoc]
      rfl
    rw [if_pos rfl, hending, hwhole, hcut, if_pos hends, hlength, List.take_left]
    exact hcore.trim_append hblank

/-- A line declares its assignment. -/
theorem entry?_written (layout : Layout) (line : AssignmentLine) :
    entry? (line.written layout) = some (String.ofList line.key, String.ofList line.value) := by
  have hfind := Text.find?_singleton_append line.key_colon
    (if line.value = [] then [] else ' ' :: line.value)
  have hkey : ¬ line.key.isEmpty = true := by
    rw [List.isEmpty_iff]
    exact line.key_ne_nil
  have hvalue : Text.trim (line.core.drop (line.key.length + 1)) = line.value := by
    have hdrop : line.core.drop (line.key.length + 1) =
        if line.value = [] then [] else ' ' :: line.value := by
      rw [Assignment.core, List.drop_append]
      simp
    rw [hdrop]
    by_cases h : line.value = []
    · rw [if_pos h, h]
      rfl
    · rw [if_neg h]
      have htrim : Text.trim ([' '] ++ (line.value ++ [])) = line.value :=
        (tight_of_trim_eq line.value_trim h).trim_eq Text.isSpace_of_mem_blank nofun
      rwa [List.append_nil] at htrim
  have htake : line.core.take line.key.length = line.key := List.take_left
  rw [ entry?, lineText_written]
  unfold Assignment.core at htake hvalue ⊢
  rw [hfind]
  dsimp only
  rw [htake, hvalue, line.key_trim, if_neg hkey]

/-! ## Where a written block stands -/

/-- No line with an assignment closes the block. -/
theorem closes_written (layout : Layout) (line : AssignmentLine) (more : List Char) :
    closes (line.written layout ++ more) = false := by
  have hcons : line.written layout ++ more =
      line.indentation.text ++ (layout.mark.toList ++ ' ' :: (line.text ++ more)) := by
    rw [AssignmentLine.written]
    simp
  have hdashes : ¬ "---".toList <+: line.text ++ more := by
    intro h
    -- the colon behind the key is no dash, so all dashes would stand in the key
    have hcut : line.text ++ more =
        line.key ++ ':' :: (' ' :: (line.value ++ line.ending) ++ more) := by
      rw [AssignmentLine.text]
      simp
    rw [hcut] at h
    rcases List.prefix_or_prefix_of_prefix h (List.prefix_append line.key _) with
      hin | ⟨rest, hrest⟩
    · exact line.key_dashes hin
    · rw [← hrest, List.prefix_append_right_inj] at h
      cases rest with
      | nil =>
        rw [List.append_nil] at hrest
        exact line.key_dashes (hrest ▸ List.prefix_refl _)
      | cons c cs =>
        obtain ⟨rfl, -⟩ := List.cons_prefix_cons.mp h
        have hcolon : ':' ∈ "---".toList := by
          rw [← hrest]
          exact List.mem_append_right _ List.mem_cons_self
        exact absurd hcolon (by decide)
  have hnot : "---".toList.isPrefixOf (line.text ++ more) = false := by
    rw [Bool.eq_false_iff, ne_eq, List.isPrefixOf_iff_prefix]
    exact hdashes
  rw [hcons, closes, trimStart_mark, layout.wordsAt_mark, List.any_cons, trimStart_text, hnot]
  rfl

/-- The line with three dashes closes the block. -/
theorem closes_closing (layout : Layout) (closing : Blanks) (after : List Char) :
    closes (closing.text ++ (layout.mark.toList ++ (" ---".toList ++ after))) = true := by
  rw [closes, trimStart_mark, layout.wordsAt_mark, List.any_cons]
  rfl

/-- An assignment is written on one line. -/
theorem lineFeed_not_mem_written (layout : Layout) (line : AssignmentLine) :
    '\n' ∉ line.written layout := by
  have hending : '\n' ∉ line.ending := by
    unfold AssignmentLine.ending
    cases line.closed <;> decide
  simp only [AssignmentLine.written, AssignmentLine.text, List.mem_append, List.mem_cons, not_or]
  exact ⟨line.indentation.noFeed, layout.lineFeed_not_mem_mark, by decide, line.key_lineFeed,
    by decide, by decide, line.value_lineFeed, hending⟩

/-- What is inside a block ends with a line before the closing one, or goes on behind it. -/
theorem inside?_line {line : Line} (h : '\n' ∉ line) (more : List Char) :
    inside? (line ++ '\n' :: more) =
      if closes more then some line else (inside? more).map fun s => line ++ '\n' :: s := by
  induction line with
  | nil =>
    rw [List.nil_append, inside?, beq_self_eq_true, Bool.true_and]
    rfl
  | cons c cs ih =>
    rw [List.mem_cons, not_or] at h
    have hfeed : ¬ (c == '\n' && closes (cs ++ '\n' :: more)) = true := by
      rw [beq_false_of_ne (Ne.symm h.1)]
      exact Bool.false_ne_true
    rw [List.cons_append, inside?, if_neg hfeed, ih h.2, apply_ite (Option.map (c :: ·)),
      Option.map_map]
    rfl

/-- Inside a block is all up to the first line that closes it. -/
theorem inside?_joinLines {closing : List Char} (hclosing : closes closing = true) (line : Line)
    {others : List Line} (hfeed : ∀ l ∈ line :: others, '\n' ∉ l)
    (hcloses : ∀ l ∈ others, ∀ more, closes (l ++ more) = false) :
    inside? (Text.joinLines (line :: others) ++ '\n' :: closing) =
      some (Text.joinLines (line :: others)) := by
  induction others generalizing line with
  | nil =>
    rw [Text.joinLines_singleton, inside?_line (hfeed line List.mem_cons_self), if_pos hclosing]
  | cons next others ih =>
    have hrest := ih next (fun l hl => hfeed l (List.mem_cons_of_mem line hl))
      fun l hl => hcloses l (List.mem_cons_of_mem next hl)
    have hopen : ¬ closes (Text.joinLines (next :: others) ++ '\n' :: closing) = true := by
      have hnext := hcloses next List.mem_cons_self
      cases others with
      | nil =>
        rw [Text.joinLines_singleton, hnext]
        exact Bool.false_ne_true
      | cons third others =>
        rw [Text.joinLines_cons_cons, List.append_assoc, hnext]
        exact Bool.false_ne_true
    rw [Text.joinLines_cons_cons, List.append_assoc, List.cons_append,
      inside?_line (hfeed line List.mem_cons_self), if_neg hopen, hrest]
    rfl

/-- Joined lines split into themselves at their line feeds. -/
theorem splitAt_joinLines (line : Line) {others : List Line}
    (hfeed : ∀ l ∈ line :: others, '\n' ∉ l) :
    Text.splitAt '\n' (Text.joinLines (line :: others)) = line :: others :=
  Text.splitAt_intercalate hfeed

/-- A body that begins with blanks within a line is the text behind the line feed. -/
theorem body?_lineFeed {blanks : List Char} (hblanks : ∀ c ∈ blanks, Text.isSpace c = true)
    (hfeed : '\n' ∉ blanks) {c : Char} (hc : Text.isSpace c = false) (cs : List Char) :
    body? ('\n' :: (blanks ++ c :: cs)) = inside? (blanks ++ c :: cs) := by
  have hnone : body? (blanks ++ c :: cs) = none := by
    induction blanks with
    | nil => rw [List.nil_append, body?, hc, if_neg Bool.false_ne_true]
    | cons d ds ih =>
      rw [List.mem_cons, not_or] at hfeed
      have hrest := ih (fun e he => hblanks e (List.mem_cons_of_mem d he)) hfeed.2
      have hd : ¬ (d == '\n') = true := by simpa using Ne.symm hfeed.1
      rw [List.cons_append, body?, if_pos (hblanks d List.mem_cons_self), hrest, if_neg hd]
      rfl
  have hspace : Text.isSpace '\n' = true := rfl
  rw [body?, if_pos hspace, hnone, if_pos (beq_self_eq_true '\n')]
  rfl

/-! ## What stands before a block -/

/-- The text is empty or its last line has an end. -/
def EndsLines (text : List Char) : Prop :=
  text = [] ∨ text.getLast? = some '\n'

/-- The end of such a text is such a text. -/
theorem EndsLines.of_suffix {text ending : List Char} (h : EndsLines text)
    (hends : ending <:+ text) : EndsLines ending := by
  rcases List.eq_nil_or_concat ending with rfl | ⟨cs, c, rfl⟩
  · exact .inl rfl
  · obtain ⟨front, rfl⟩ := hends
    right
    rcases h with hnil | hlast
    · exact absurd hnil (by simp)
    · rw [List.concat_eq_append, ← List.append_assoc, List.getLast?_concat] at hlast
      rw [List.concat_eq_append, List.getLast?_concat, hlast]

/-- A word within a line that a text of lines begins with, or the text behind it, stands in that
text. -/
theorem EndsLines.prefix_of {text more word : List Char} (h : EndsLines text) (hne : text ≠ [])
    (hword : '\n' ∉ word) (hstarts : word <+: text ++ more) : word <+: text := by
  rcases List.prefix_or_prefix_of_prefix hstarts (List.prefix_append text more) with hin | hout
  · exact hin
  · rcases h with hnil | hlast
    · exact absurd hnil hne
    · exact absurd (hout.subset (List.mem_of_getLast? hlast)) hword

/-- A word that is found stands at the front of the text. -/
theorem append_of_mem_wordsAt {words : List String} {text : List Char}
    {r : String × List Char} (h : r ∈ wordsAt words text) :
    r.1 ∈ words ∧ text = r.1.toList ++ r.2 := by
  induction words with
  | nil => exact absurd h List.not_mem_nil
  | cons w ws ih =>
    rw [wordsAt] at h
    by_cases hw : w.toList.isPrefixOf text = true
    · rw [if_pos hw] at h
      rcases List.mem_cons.mp h with rfl | h
      · refine ⟨List.mem_cons_self, ?_⟩
        exact List.prefix_iff_eq_append.mp (List.isPrefixOf_iff_prefix.mp hw) |>.symm
      · exact ⟨List.mem_cons_of_mem w (ih h).1, (ih h).2⟩
    · rw [if_neg hw] at h
      exact ⟨List.mem_cons_of_mem w (ih h).1, (ih h).2⟩

/-- No block starts where no opening mark has `---meta` behind it. -/
theorem blockAt?_eq_none {text : List Char}
    (h : ∀ w ∈ openingMarks, ∀ rest, text = w.toList ++ rest →
      ¬ "---meta".toList <+: Text.trimStart rest) : blockAt? text = none := by
  rw [blockAt?, List.findSome?_eq_none_iff]
  intro r hr
  obtain ⟨hmem, htext⟩ := append_of_mem_wordsAt hr
  refine if_neg ?_
  rw [List.isPrefixOf_iff_prefix]
  exact h r.1 hmem r.2 htext

/-- Lines that do not name a block are passed over. -/
theorem firstInside?_append {before more : List Char} (hname : ¬ "---meta".toList <:+: before)
    (hlines : EndsLines before) (hmore : ¬ "---meta".toList <+: Text.trimStart more) :
    firstInside? (before ++ more) = firstInside? more := by
  induction before with
  | nil => rfl
  | cons c cs ih =>
    have hnone : blockAt? (c :: cs ++ more) = none := by
      refine blockAt?_eq_none fun w hw rest htext hstarts => ?_
      have hfeed : '\n' ∉ w.toList := fun hmem => by
        have hsolid := (solid_of_mem_openingMarks w hw).2 '\n' hmem
        exact absurd hsolid (by decide)
      obtain ⟨behind, hbehind⟩ := hlines.prefix_of (List.cons_ne_nil c cs) hfeed
        (htext ▸ List.prefix_append w.toList rest)
      rw [← hbehind, List.append_assoc, List.append_cancel_left_eq] at htext
      -- behind the mark the name of a block would follow the blanks of the text before or of `more`
      have hbefore : behind.dropWhile Text.isSpace <:+ c :: cs :=
        (List.dropWhile_suffix _).trans ⟨w.toList, hbehind⟩
      rw [← htext, Text.trimStart, List.dropWhile_append] at hstarts
      by_cases hblank : (behind.dropWhile Text.isSpace).isEmpty = true
      · rw [if_pos hblank] at hstarts
        exact hmore hstarts
      · rw [if_neg hblank] at hstarts
        have hne : behind.dropWhile Text.isSpace ≠ [] := by
          rwa [List.isEmpty_iff] at hblank
        have hin := (hlines.of_suffix hbefore).prefix_of hne (by decide) hstarts
        exact hname (hin.isInfix.trans hbefore.isInfix)
    have hcs : EndsLines cs := hlines.of_suffix (List.suffix_cons c cs)
    have hname' : ¬ "---meta".toList <:+: cs := fun hwithin =>
      hname (hwithin.trans (List.suffix_cons c cs).isInfix)
    rw [List.cons_append, firstInside?, ← List.cons_append, hnone, ih hname' hcs]
    rfl

/-- Blanks are passed over. -/
theorem firstInside?_blanks {blanks : List Char} (hblanks : ∀ c ∈ blanks, Text.isSpace c = true)
    (text : List Char) : firstInside? (blanks ++ text) = firstInside? text := by
  induction blanks with
  | nil => rfl
  | cons c cs ih =>
    have hnone : blockAt? (c :: (cs ++ text)) = none := by
      rw [blockAt?, Pattern.wordsAt_space solid_of_mem_openingMarks (hblanks c List.mem_cons_self)]
      rfl
    rw [List.cons_append, firstInside?, hnone, ih fun d hd => hblanks d (List.mem_cons_of_mem c hd)]
    rfl

/-- A written block is found with its lines inside. -/
theorem firstInside?_writtenBlock (layout : Layout) (opening closing : Blanks)
    (line : AssignmentLine) (others : List AssignmentLine) (after : List Char) :
    firstInside? (writtenBlock layout opening closing (line :: others) after) =
      some (Text.joinLines ((line :: others).map (·.written layout))) := by
  have hfeed : ∀ l ∈ line.written layout :: others.map (·.written layout), '\n' ∉ l := by
    rw [← List.map_cons]
    intro l hl
    obtain ⟨line', -, rfl⟩ := List.mem_map.mp hl
    exact lineFeed_not_mem_written layout line'
  have hcloses : ∀ l ∈ others.map (·.written layout), ∀ more, closes (l ++ more) = false := by
    intro l hl more
    obtain ⟨line', -, rfl⟩ := List.mem_map.mp hl
    exact closes_written layout line' more
  have hinside := inside?_joinLines (closes_closing layout closing after) (line.written layout)
    hfeed hcloses
  -- the lines begin with the indentation of the first one and its mark
  obtain ⟨c, cs, hmark, hc⟩ := layout.tight_mark.first
  obtain ⟨rest, hrest⟩ : ∃ rest, line.indentation.text ++ c :: rest =
      Text.joinLines ((line :: others).map (·.written layout)) ++
        '\n' :: (closing.text ++ (layout.mark.toList ++ (" ---".toList ++ after))) := by
    rw [List.map_cons, Text.joinLines_cons, AssignmentLine.written, hmark, List.append_assoc,
      List.append_assoc, List.append_assoc, List.cons_append]
    exact ⟨_, rfl⟩
  have hbody := body?_lineFeed line.indentation.isSpace line.indentation.noFeed hc rest
  rw [hrest] at hbody
  obtain ⟨d, ds, hopener, -⟩ := layout.tight_opener.first
  have hblock : blockAt? (layout.opener.toList ++ (" ---meta\n".toList ++
      (Text.joinLines ((line :: others).map (·.written layout)) ++
        '\n' :: (closing.text ++ (layout.mark.toList ++ (" ---".toList ++ after)))))) =
      some (Text.joinLines ((line :: others).map (·.written layout))) := by
    rw [blockAt?, layout.wordsAt_opener, List.findSome?_singleton]
    exact hbody.trans hinside
  rw [writtenBlock, firstInside?_blanks opening.isSpace]
  rw [hopener, List.cons_append] at hblock ⊢
  rw [firstInside?, hblock]
  rfl

/-! ## Lists -/

/-- An item of a bracketed list. -/
structure Item where
  text : List Char
  ne_nil : text ≠ []
  trim : Text.trim text = text
  comma : ',' ∉ text
  lineFeed : '\n' ∉ text

/-- Items with commas between them. -/
def joinItems (items : List Item) : List Char :=
  Text.join ", ".toList (items.map Item.text)

theorem joinItems_singleton (item : Item) : joinItems [item] = item.text := by
  unfold joinItems Text.join
  rw [List.map_singleton, List.intercalate_singleton]

/-- A comma and a blank stand between the first item and the others. -/
theorem joinItems_cons_cons (item next : Item) (others : List Item) :
    joinItems (item :: next :: others) =
      item.text ++ ',' :: ' ' :: joinItems (next :: others) := by
  unfold joinItems Text.join
  rw [List.map_cons, List.map_cons, List.intercalate_cons_cons, List.append_assoc]
  rfl

/-- A list of items is written on one line. -/
theorem lineFeed_not_mem_joinItems (items : List Item) : '\n' ∉ joinItems items := by
  induction items with
  | nil => exact List.not_mem_nil
  | cons item others ih =>
    cases others with
    | nil =>
      rw [joinItems_singleton]
      exact item.lineFeed
    | cons next others =>
      rw [joinItems_cons_cons, List.mem_append, List.mem_cons, List.mem_cons, not_or, not_or,
        not_or]
      exact ⟨item.lineFeed, by decide, by decide, ih⟩

/-- Every item but the first has a blank before it. -/
theorem splitAt_joinItems (item : Item) (others : List Item) :
    Text.splitAt ',' (joinItems (item :: others)) =
      item.text :: others.map (' ' :: ·.text) := by
  have hcut : ∀ (blanks : List Char), ',' ∉ blanks → ∀ item : Item,
      Text.splitAt ',' (blanks ++ joinItems (item :: others)) =
        (blanks ++ item.text) :: others.map (' ' :: ·.text) := by
    induction others with
    | nil =>
      intro blanks hblanks item
      rw [joinItems_singleton, Text.splitAt_of_not_mem (by simp [hblanks, item.comma])]
      rfl
    | cons next others ih =>
      intro blanks hblanks item
      have hrest := ih [' '] (by decide) next
      rw [joinItems_cons_cons, ← List.append_assoc, Text.splitAt_append_cons
        (by simp [hblanks, item.comma])]
      exact congrArg _ hrest
  exact hcut [] List.not_mem_nil item

/-- A bracketed list has its items. -/
theorem listItems_joinItems (items : List Item) :
    listItems ('[' :: (joinItems items ++ [']'])) = some (items.map Item.text) := by
  have hinside : ∀ c ∈ joinItems items ++ [']'], (c != '\n') = true := by
    intro c hc
    rw [bne_iff_ne]
    rintro rfl
    rcases List.mem_append.mp hc with hc | hc
    · exact lineFeed_not_mem_joinItems items hc
    · exact absurd hc (by decide)
  have hend : ∀ inside : List Char, (do Pattern.lit "]"; return inside :
      Pattern (List Char)).Refuses [] :=
    fun inside => (Pattern.refuses_lit (by decide)).bind _
  have htakes : bracketed.Takes ('[' :: (joinItems items ++ [']'])) (joinItems items) [] :=
    (Pattern.takes_lit "[" _).bind (Pattern.takes_run_concat_bind hinside (hend _)
      ((Pattern.takes_lit "]" []).bind (Pattern.takes_pure _ [])))
  obtain ⟨word, last, hsearch⟩ := htakes.searchAt none
  -- behind each comma a blank is trimmed away, and no item is empty
  have hitem : ∀ item : Item, Text.trim (' ' :: item.text) = item.text := fun item => by
    have htrim : Text.trim ([' '] ++ (item.text ++ [])) = item.text :=
      (tight_of_trim_eq item.trim item.ne_nil).trim_eq Text.isSpace_of_mem_blank nofun
    rwa [List.append_nil] at htrim
  have hpieces : ((Text.splitAt ',' (joinItems items)).map Text.trim).filter (!·.isEmpty) =
      items.map Item.text := by
    cases items with
    | nil => rfl
    | cons item others =>
      have htrim : (others.map (' ' :: ·.text)).map Text.trim = others.map Item.text := by
        rw [List.map_map]
        exact List.map_congr_left fun item _ => hitem item
      rw [splitAt_joinItems, List.map_cons, item.trim, htrim, ← List.map_cons, List.filter_eq_self]
      intro text htext
      obtain ⟨item', -, rfl⟩ := List.mem_map.mp htext
      simpa using item'.ne_nil
  rw [listItems, if_neg (by simp), Pattern.search?, hsearch]
  dsimp only
  rw [hpieces]

/-- A value without an opening bracket is one item. -/
theorem listItems_of_not_mem {value : List Char} (hne : value ≠ []) (hbracket : '[' ∉ value) :
    listItems value = some [value] := by
  have hrefuses : ∀ c ∈ value, ∀ cs, bracketed.Refuses (c :: cs) := by
    intro c hc cs
    refine (Pattern.refuses_lit fun hstarts => ?_).bind _
    obtain ⟨rfl, -⟩ := List.cons_prefix_cons.mp hstarts
    exact hbracket hc
  have hnil : bracketed.Refuses [] := (Pattern.refuses_lit (by decide)).bind _
  obtain ⟨last, hsearch⟩ := Pattern.searchAt_append_of_refuses hrefuses none []
  rw [List.append_nil, hnil.searchAt_nil] at hsearch
  rw [listItems, if_neg (by simpa using hne), Pattern.search?, hsearch]
  rfl

/-! ## The block that is read -/

/-- The value of the last line with a key. -/
def lastValue (lines : List AssignmentLine) (key : String) : Option String :=
  (lines.map fun line => (String.ofList line.key, String.ofList line.value)).reverse.lookup key

/-- The items of the value of the last line with a key. -/
def lastItems (lines : List AssignmentLine) (key : String) : Option (List String) :=
  ((lastValue lines key).bind fun value => listItems value.toList).map (·.map .ofList)

/-- The block declares what the last lines with its keys assign to them. -/
structure Declares (lines : List AssignmentLine) (block : MetaBlock) : Prop where
  keys : (block.raw.map Prod.fst).Nodup
  raw : ∀ key, block.raw.lookup key = lastValue lines key
  name : block.name = (lastValue lines "name").filter (!·.isEmpty)
  type : block.type = (lastValue lines "type").filter (!·.isEmpty)
  desc : block.desc = (lastValue lines "desc").filter (!·.isEmpty)
  inputs : block.inputs = lastItems lines "in"
  outputs : block.outputs = lastItems lines "out"
  deps : block.deps = lastItems lines "deps"
  methods : block.methods = lastItems lines "methods"
  errors : block.errors = lastItems lines "errors"

/-- The block made of the entries of the lines declares what the lines assign. -/
theorem declares_ofEntries (lines : List AssignmentLine) :
    Declares lines (ofEntries (lines.map fun line =>
      (String.ofList line.key, String.ofList line.value))) := by
  have hraw := lookup_raw_ofEntries
    (lines.map fun line => (String.ofList line.key, String.ofList line.value))
  have hvalue : ∀ key, value? (ofEntries (lines.map fun line =>
      (String.ofList line.key, String.ofList line.value))).raw key =
        (lastValue lines key).filter (!·.isEmpty) := fun key => by
    rw [value?, hraw]
    rfl
  have hitems : ∀ key, items? (ofEntries (lines.map fun line =>
      (String.ofList line.key, String.ofList line.value))).raw key = lastItems lines key :=
    fun key => by
      rw [items?, hraw]
      rfl
  exact ⟨nodup_raw_ofEntries _, hraw, hvalue "name", hvalue "type", hvalue "desc", hitems "in",
    hitems "out", hitems "deps", hitems "methods", hitems "errors"⟩

/-- A block that is written behind lines without the name of a block, and before any text, is read
with the last value of each of its keys. A list in brackets is read as its items, another value as
one item. -/
theorem ofText?_writtenBlock (layout : Layout) (opening closing : Blanks)
    {lines : List AssignmentLine} (hlines : lines ≠ []) {before : List Char}
    (hname : ¬ "---meta".toList <:+: before) (hbefore : EndsLines before) (after : List Char) :
    (∃ block, ofText? (before ++ writtenBlock layout opening closing lines after) = some block ∧
      Declares lines block) ∧
    (∀ items : List Item,
      listItems ('[' :: (joinItems items ++ [']'])) = some (items.map Item.text)) ∧
    ∀ value : List Char, value ≠ [] → '[' ∉ value → listItems value = some [value] := by
  refine ⟨⟨_, ?_, declares_ofEntries lines⟩, listItems_joinItems,
    fun value hne hbracket => listItems_of_not_mem hne hbracket⟩
  obtain ⟨line, others, rfl⟩ := List.exists_cons_of_ne_nil hlines
  have hmore : ¬ "---meta".toList <+:
      Text.trimStart (writtenBlock layout opening closing (line :: others) after) := by
    obtain ⟨c, cs, hopener, hc⟩ := layout.tight_opener.first
    have hdash : c ≠ '-' := by
      rintro rfl
      have hhead : layout.opener.toList.head? = some '-' := by rw [hopener, List.head?_cons]
      cases layout <;> exact absurd hhead (by decide)
    rw [writtenBlock, hopener, List.cons_append, Text.trimStart,
      Text.dropWhile_append_cons opening.isSpace hc]
    exact fun hstarts => hdash (List.cons_prefix_cons.mp hstarts).1.symm
  have hfeed : ∀ l ∈ (line :: others).map (·.written layout), '\n' ∉ l := fun l hl => by
    obtain ⟨line', -, rfl⟩ := List.mem_map.mp hl
    exact lineFeed_not_mem_written layout line'
  have hentries : ((line :: others).map (·.written layout)).filterMap entry? =
      (line :: others).map fun line => (String.ofList line.key, String.ofList line.value) := by
    rw [List.filterMap_map, ← List.filterMap_eq_map]
    exact List.filterMap_congr fun line _ => entry?_written layout line
  rw [ofText?_eq_map_firstInside?, firstInside?_append hname hbefore hmore,
    firstInside?_writtenBlock, Option.map_some, ← hentries]
  rw [List.map_cons] at hfeed ⊢
  rw [splitAt_joinLines _ hfeed]

/-- A line that assigns to one key. -/
def depsLine (value : List Char) (closed : Bool) (htrim : Text.trim value = value)
    (hfeed : '\n' ∉ value) (hcloser : ¬ "-->".toList <:+ value) : AssignmentLine where
  key := "deps".toList
  value := value
  key_ne_nil := by decide
  key_trim := by decide
  key_colon := by decide
  key_lineFeed := by decide
  key_dashes := by decide
  value_trim := htrim
  value_lineFeed := hfeed
  value_closer := hcloser
  indentation := .none
  closed := closed

theorem ofText?_writtenBlock_markup :
    ¬ "---meta".toList <:+: "<html>\n".toList ∧ EndsLines "<html>\n".toList ∧
    ∃ block, ofText? ("<html>\n<!-- ---meta\n<!-- deps: a -->\n" ++
        "<!-- deps: [x, y]\n<!-- --- -->").toList = some block ∧
      block.raw.lookup "deps" = some "[x, y]" ∧ block.name = none ∧
      block.deps = some ["x", "y"] := by
  have hname : ¬ "---meta".toList <:+: "<html>\n".toList := fun hwithin =>
    absurd (hwithin.subset (by decide : '-' ∈ "---meta".toList)) (by decide)
  have hbefore : EndsLines "<html>\n".toList := .inr rfl
  obtain ⟨⟨block, hblock, hdeclares⟩, -, -⟩ := ofText?_writtenBlock .markup .none .none
    (List.cons_ne_nil (depsLine "a".toList true (by decide) (by decide) (by decide))
      [depsLine "[x, y]".toList false (by decide) (by decide) (by decide)])
    hname hbefore " -->".toList
  have hraw : block.raw.lookup "deps" = some "[x, y]" := by
    rw [hdeclares.raw]
    decide
  have hnone : block.name = none := by
    rw [hdeclares.name]
    decide
  have hdeps : block.deps = some ["x", "y"] := by
    rw [hdeclares.deps]
    decide +kernel
  exact ⟨hname, hbefore, block, hblock, hraw, hnone, hdeps⟩

end MetaBlock

end SourceSurvey
