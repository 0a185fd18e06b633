import SourceSurvey.Extract.Python
import SourceSurvey.Proofs.Comment.Layout
import SourceSurvey.Proofs.Extract.Parameter
import SourceSurvey.Proofs.Pattern.Reading

/-!
# Lines on which no function begins

A function without indentation begins with two words. Main statements: none begins on a line that is
empty or begins with a blank, which stripping leaves so, and none where a sign follows the first
word, as on the further rows of a header.
-/

namespace SourceSurvey.Extract.Python

open Pattern

/-! ## Lines of a body -/

/-- A line of a body is empty or begins with a blank. -/
def IsBodyLine (line : Line) : Prop :=
  line.head?.all Text.isSpace = true

theorem isBodyLine_iff {line : Line} :
    IsBodyLine line ↔ Text.isBlank line = true ∨ 0 < Text.indentWidth line := by
  cases line with
  | nil => exact ⟨fun _ => .inl rfl, fun _ => rfl⟩
  | cons c cs =>
    show Text.isSpace c = true ↔ _
    constructor
    · intro hspace
      rw [Text.indentWidth, Text.indentation_cons_of_space hspace]
      exact .inr (Nat.succ_pos _)
    · rintro (hblank | hindented)
      · exact List.all_eq_true.mp hblank c List.mem_cons_self
      · by_contra hspace
        rw [Text.indentWidth, Text.indentation_cons_of_not_space (eq_false_of_ne_true hspace)]
          at hindented
        exact Nat.lt_irrefl 0 hindented

/-- Characters that are left out, but none of the indentation, leave a line of a body. -/
theorem IsBodyLine.of_sublist {code line : Line} (h : IsBodyLine line) (hsub : code.Sublist line)
    (hindentation : Text.isBlank code = false → Text.indentation code = Text.indentation line) :
    IsBodyLine code := by
  rw [isBodyLine_iff] at h ⊢
  cases hblank : Text.isBlank code with
  | true => exact .inl rfl
  | false =>
    rw [Text.indentWidth, hindentation hblank]
    refine .inr (h.resolve_left fun hline => ?_)
    have hcode : Text.isBlank code = true :=
      List.all_eq_true.mpr fun c hc => List.all_eq_true.mp hline c (hsub.subset hc)
    rw [hblank] at hcode
    cases hcode

/-- Stripping leaves the lines of a body. -/
theorem isBodyLine_of_mem_strip {body : List Line} (hbody : ∀ line ∈ body, IsBodyLine line) :
    ∀ code ∈ CommentRules.hash.strip body, IsBodyLine code := by
  obtain ⟨-, hsublist⟩ := List.forall₂_iff_zip.mp (CommentRules.forall₂_sublist_strip .python body)
  obtain ⟨hlength, hindentation⟩ :=
    List.forall₂_iff_zip.mp (CommentRules.forall₂_indentation_strip_hash body)
  intro code hcode
  rw [← List.map_fst_zip (le_of_eq hlength)] at hcode
  obtain ⟨⟨code, line⟩, hpair, rfl⟩ := List.mem_map.mp hcode
  exact (hbody line (List.of_mem_zip hpair).2).of_sublist (hsublist hpair) (hindentation hpair)

/-! ## The start of a function -/

/-- No function without indentation begins on the line. -/
def BeginsNoFunction (code : Line) : Prop :=
  ∀ isAsync name, functionStart.matchStart? code ≠ some ([], isAsync, name)

/-- What the start of a header is read from. -/
def IsFunctionStart (text : List Char) (start : List Char × Bool × List Char) : Prop :=
  ∃ async gap c more, (async = [] ∨ ∃ space, async = "async".toList ++ space ∧ space ≠ [] ∧
      ∀ x ∈ space, Text.isSpace x = true) ∧
    gap ≠ [] ∧ (∀ x ∈ gap, Text.isSpace x = true) ∧ Text.isWord c = true ∧
    text = start.1 ++ (async ++ ("def".toList ++ (gap ++ c :: more)))

theorem functionStart_reads : functionStart.Reads IsFunctionStart := by
  have hasync : Pattern.Reads (do lit "async"; blanks1) fun t _ =>
      ∃ space, t = "async".toList ++ space ∧ space ≠ [] ∧ ∀ x ∈ space, Text.isSpace x = true := by
    refine (reads_lit "async").bind fun t _ ht => reads_blanks1.imp fun space _ hspace => ?_
    rw [ht]
    exact ⟨space, rfl, List.ne_nil_of_length_pos hspace.1, hspace.2⟩
  unfold functionStart
  refine (reads_run Text.isSpace 0).bind fun t indent ht => ?_
  refine (reads_opt hasync).bind fun async isAsync hasync => ?_
  refine (reads_lit "def").bind fun word _ hword => ?_
  refine reads_blanks1.bind fun gap _ hgap => ?_
  refine (reads_run Text.isWord 1).bind fun name value hname => ?_
  refine reads_blanks.bind fun blanks _ _ => ?_
  refine (reads_lit "(").bind fun paren _ _ => reads_pure ?_
  obtain ⟨rfl, -⟩ := ht
  obtain ⟨c, cs, rfl⟩ := List.exists_cons_of_ne_nil (List.ne_nil_of_length_pos hname.2.1)
  refine ⟨async, gap, c, cs ++ (blanks ++ paren), hasync, List.ne_nil_of_length_pos hgap.1, hgap.2,
    hname.2.2 c List.mem_cons_self, ?_⟩
  rw [hword]
  simp

/-- On a line of a body no function without indentation begins. -/
theorem IsBodyLine.beginsNoFunction {code : Line} (h : IsBodyLine code) :
    BeginsNoFunction code := by
  intro isAsync name hmatch
  obtain ⟨front, rest, rfl, async, gap, c, more, hasync, -, -, -, rfl⟩ :=
    functionStart_reads.of_matchStart? hmatch
  rcases hasync with rfl | ⟨space, rfl, -, -⟩
  · have hspace : Text.isSpace 'd' = true := h
    exact Text.ne_of_class hspace (by decide) rfl
  · have hspace : Text.isSpace 'a' = true := h
    exact Text.ne_of_class hspace (by decide) rfl

/-- At most one word stands before the first sign of the text. -/
def BeginsWithLoneWord (text : List Char) : Prop :=
  ∃ word blanks c more, text = word ++ (blanks ++ c :: more) ∧
    (∀ x ∈ word, Text.isWord x = true) ∧ (∀ x ∈ blanks, Text.isSpace x = true) ∧
    Text.isWord c = false ∧ Text.isSpace c = false ∧ isBare c = true

/-- What follows a word and the blanks behind it. -/
theorem trimStart_dropWhile_word {word blanks more : List Char} {c : Char}
    (hword : ∀ x ∈ word, Text.isWord x = true) (hblanks : ∀ x ∈ blanks, Text.isSpace x = true)
    (hapart : blanks ≠ [] ∨ Text.isWord c = false) (hc : Text.isSpace c = false) :
    Text.trimStart ((word ++ (blanks ++ c :: more)).dropWhile Text.isWord) = c :: more := by
  have hdrop : (word ++ (blanks ++ c :: more)).dropWhile Text.isWord = blanks ++ c :: more := by
    cases blanks with
    | nil => exact Text.dropWhile_append_cons hword (hapart.resolve_left fun h => h rfl) more
    | cons b bs =>
      have hblank := Text.isWord_eq_false_of_isSpace (hblanks b List.mem_cons_self)
      exact Text.dropWhile_append_cons hword hblank (bs ++ c :: more)
  rw [hdrop]
  exact Text.dropWhile_append_cons hblanks hc more

/-- A function begins with two words, so none begins where a sign follows the first word. -/
theorem BeginsWithLoneWord.beginsNoFunction {code : Line} (h : BeginsWithLoneWord code) :
    BeginsNoFunction code := by
  intro isAsync name hmatch
  obtain ⟨front, rest, hfront, async, gap, d, ds, hasync, hne, hgap, hd, rfl⟩ :=
    functionStart_reads.of_matchStart? hmatch
  obtain ⟨word, blanks, c, more, htext, hword, hblanks, hnot, hspace, -⟩ := h
  have hafter : Text.trimStart ((word ++ (blanks ++ c :: more)).dropWhile Text.isWord) =
      c :: more :=
    trimStart_dropWhile_word hword hblanks (.inr hnot) hspace
  rw [← htext, hfront] at hafter
  -- behind the first word there is another one
  have hsecond : ∃ e es, Text.isWord e = true ∧
      Text.trimStart ((async ++ ("def".toList ++ (gap ++ d :: ds)) ++ rest).dropWhile Text.isWord) =
        e :: es := by
    have hsolid : ∀ e, Text.isWord e = true → Text.isSpace e = false := fun e =>
      Text.isSpace_eq_false_of_isWord
    rcases hasync with rfl | ⟨space, rfl, hspace, hspaces⟩
    · refine ⟨d, ds ++ rest, hd, ?_⟩
      have htrim : Text.trimStart (("def".toList ++ (gap ++ d :: (ds ++ rest))).dropWhile
          Text.isWord) = d :: (ds ++ rest) :=
        trimStart_dropWhile_word (List.all_eq_true.mp (by decide)) hgap (.inl hne) (hsolid d hd)
      simpa using htrim
    · refine ⟨'d', "ef".toList ++ (gap ++ d :: ds) ++ rest, by decide, ?_⟩
      have htrim : Text.trimStart (("async".toList ++ (space ++ 'd' :: ("ef".toList ++
          (gap ++ d :: ds) ++ rest))).dropWhile Text.isWord) =
          'd' :: ("ef".toList ++ (gap ++ d :: ds) ++ rest) :=
        trimStart_dropWhile_word (List.all_eq_true.mp (by decide)) hspaces (.inl hspace) (by decide)
      simpa using htrim
  obtain ⟨e, es, he, hsecond⟩ := hsecond
  rw [List.nil_append, hsecond] at hafter
  rw [(List.cons.inj hafter).1, hnot] at he
  cases he

theorem BeginsWithLoneWord.append {text : List Char} (h : BeginsWithLoneWord text)
    (more : List Char) : BeginsWithLoneWord (text ++ more) := by
  obtain ⟨word, blanks, c, rest, rfl, hlone⟩ := h
  exact ⟨word, blanks, c, rest ++ more, by simp, hlone⟩

/-- Stripping keeps the word and the sign. -/
theorem BeginsWithLoneWord.stripped {text : List Char} (h : BeginsWithLoneWord text) :
    BeginsWithLoneWord (stripped text) := by
  obtain ⟨word, blanks, c, rest, rfl, hword, hblanks, hnot, hspace, hbare⟩ := h
  refine ⟨word, blanks, c, SourceSurvey.stripped rest, ?_, hword, hblanks, hnot, hspace, hbare⟩
  have hbefore : ∀ x ∈ word ++ blanks, isBare x = true := by
    intro x hx
    rcases List.mem_append.mp hx with hx | hx
    · exact isBare_of_isPlain (isPlain_of_isWord (hword x hx))
    · exact isBare_of_isSpace (hblanks x hx)
  rw [← List.append_assoc, SourceSurvey.stripped, stripFrom_of_isBare hbefore,
    stripFrom_cons_of_isBare hbare, List.append_assoc]
  rfl

/-- In front of a sign an item is a lone word, or begins with a sign itself. -/
theorem ListItem.beginsWithLoneWord (item : ListItem) (blanks : Blanks) {c : Char}
    (hword : Text.isWord c = false) (hspace : Text.isSpace c = false) (hbare : isBare c = true)
    (more : List Char) : BeginsWithLoneWord (item.text ++ (blanks.text ++ c :: more)) := by
  have hsign : ∀ (d : Char) (text : List Char), Text.isWord d = false → Text.isSpace d = false →
      isBare d = true → BeginsWithLoneWord (d :: text) := fun d text hword hspace hbare =>
    ⟨[], [], d, text, rfl, by simp, by simp, hword, hspace, hbare⟩
  cases item with
  | star => exact hsign '*' _ (by decide) (by decide) (by decide)
  | slash => exact hsign '/' _ (by decide) (by decide) (by decide)
  | parameter p =>
    have hname := p.name.chars
    show BeginsWithLoneWord (p.marker.text ++ p.declared ++ (blanks.text ++ c :: more))
    cases p.marker with
    | star => exact hsign '*' _ (by decide) (by decide) (by decide)
    | twoStars => exact hsign '*' _ (by decide) (by decide) (by decide)
    | none =>
      show BeginsWithLoneWord (p.declared ++ (blanks.text ++ c :: more))
      -- behind the name there is a colon, an equals sign, or what follows the item
      cases htype : p.type with
      | some t =>
        rw [Parameter.declared, Parameter.main_of_some htype]
        exact ⟨p.name.text, [], ':', _, by simp; rfl, hname, by simp, by decide, by decide,
          by decide⟩
      | none =>
        have hmain := Parameter.main_of_none htype
        cases hdefault : p.default with
        | some d =>
          rw [Parameter.declared_of_some hdefault, hmain]
          exact ⟨p.name.text, [' '], '=', _, by simp; rfl, hname, Text.isSpace_of_mem_blank,
            by decide, by decide, by decide⟩
        | none =>
          rw [Parameter.declared_of_none hdefault, hmain]
          exact ⟨p.name.text, blanks.text, c, more, rfl, hname, blanks.isSpace, hword, hspace,
            hbare⟩

/-! ## Rows and places without a function -/

/-- On a row that begins with a sign, with one word or with blanks no function begins. -/
theorem Row.beginsNoFunction {row : Row} (h : row.text = [] ∨ BeginsWithLoneWord row.text) :
    BeginsNoFunction row.code := by
  unfold Row.code
  cases hindent : row.indent.text with
  | cons c cs =>
    have hbody : IsBodyLine (c :: cs ++ (stripped row.text ++ row.ending.code)) :=
      row.indent.isSpace c (hindent ▸ List.mem_cons_self)
    exact hbody.beginsNoFunction
  | nil =>
    rw [List.nil_append]
    rcases h with hnil | hlone
    · rw [hnil]
      show BeginsNoFunction row.ending.code
      cases row.ending with
      | plain tail =>
        refine IsBodyLine.beginsNoFunction ?_
        show tail.blanks.text.head?.all Text.isSpace = true
        cases hblanks : tail.blanks.text with
        | nil => rfl
        | cons c cs => exact tail.blanks.isSpace c (hblanks ▸ List.mem_cons_self)
      | slash blanks =>
        have hslash : BeginsWithLoneWord (blanks.text ++ ['\\']) :=
          ⟨[], blanks.text, '\\', [], rfl, by simp, blanks.isSpace, by decide, by decide, by decide⟩
        exact hslash.beginsNoFunction
    · exact (hlone.stripped.append _).beginsNoFunction

theorem topLevelFunction?_of_beginsNoFunction {p : Place} (h : BeginsNoFunction p.code) :
    topLevelFunction? p = none := by
  unfold topLevelFunction?
  split
  · next isAsync name hmatch => exact absurd hmatch (h isAsync name)
  · rfl

theorem filterMap_topLevelFunction?_eq_nil {lines : List SourceLine}
    (h : ∀ line ∈ lines, BeginsNoFunction line.code) (above : List SourceLine) :
    (placesFrom above lines).filterMap topLevelFunction? = [] := by
  induction lines generalizing above with
  | nil => rfl
  | cons line lines ih =>
    have hline : topLevelFunction? ⟨above, line, lines⟩ = none :=
      topLevelFunction?_of_beginsNoFunction (h line List.mem_cons_self)
    rw [placesFrom, List.filterMap_cons_none hline]
    exact ih (fun l hl => h l (List.mem_cons_of_mem line hl)) _

end SourceSurvey.Extract.Python
