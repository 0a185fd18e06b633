import SourceSurvey.Proofs.Code.Parenthesis
import SourceSurvey.Proofs.Finding.Comment

/-!
# Script headers over several rows

A declaration whose parameter list stands on one row or on several: a text in front of the parenthesis,
the rows of the list, and behind the closing parenthesis the brace of the body. Main statements: the
header is put together from these rows, it ends with the last of them, and the text in front of the
parenthesis and the text before the brace have no part in where the body ends.
-/

namespace SourceSurvey

open CommentRules

/-! ## Rows -/

/-- The lines of a text on several rows, with a text behind the last one. -/
def spanRows (ending row : List Char) : List (List Char) → List Line
  | [] => [row ++ ending]
  | next :: rows => row :: spanRows ending next rows

/-- Rows joined by blanks, which stand for the line ends and the blanks around them. -/
def joinRows (row : List Char) : List (List Char) → List Char
  | [] => row
  | next :: rows => Text.trimEnd row ++ ' ' :: joinRows (Text.trimStart next) rows

section Rows

variable {ending row : List Char} {rows : List (List Char)}

/-- A text on several rows has as many lines. -/
theorem length_spanRows : (spanRows ending row rows).length = rows.length + 1 := by
  induction rows generalizing row with
  | nil => rfl
  | cons next rows ih => rw [spanRows, List.length_cons, ih, List.length_cons]

/-- A text on rows has a first line. -/
theorem exists_spanRows_eq (ending row : List Char) (rows : List (List Char)) :
    ∃ line lines, spanRows ending row rows = line :: lines := by
  cases rows with
  | nil => exact ⟨_, [], rfl⟩
  | cons next rows => exact ⟨row, _, rfl⟩

/-- A text on rows is not empty, whatever lines stand below it. -/
theorem spanRows_append_ne_nil (ending row : List Char) (rows : List (List Char))
    (below : List Line) : spanRows ending row rows ++ below ≠ [] := by
  obtain ⟨line, lines, hlines⟩ := exists_spanRows_eq ending row rows
  rw [hlines]
  exact List.cons_ne_nil _ _

/-- The trimmed lines, joined, are the joined rows and what stands behind them. -/
theorem intercalate_trim_spanRows (hending : Text.Tight ending) :
    [' '].intercalate ((spanRows ending row rows).map Text.trim) =
      joinRows (Text.trimStart row) rows ++ ending := by
  induction rows generalizing row with
  | nil =>
    show [' '].intercalate [Text.trim (row ++ ending)] = _
    rw [List.intercalate_singleton, Text.trim_append_tight hending]
    rfl
  | cons next rows ih =>
    obtain ⟨line, lines, hlines⟩ := exists_spanRows_eq ending next rows
    have hrest : [' '].intercalate ((spanRows ending next rows).map Text.trim) =
        joinRows (Text.trimStart next) rows ++ ending := ih
    rw [hlines, List.map_cons] at hrest
    rw [spanRows, hlines, List.map_cons, List.map_cons, List.intercalate_cons_cons, hrest, joinRows,
      List.append_assoc, List.append_assoc]
    rfl

/-- A text in front of the first row stays there when the rows are joined. -/
theorem joinRows_append {c : Char} (hc : Text.isSpace c = false) (front : List Char) :
    joinRows (front ++ c :: row) rows = front ++ c :: joinRows row rows := by
  cases rows with
  | nil => rfl
  | cons next rows =>
    have hend : Text.trimEnd (front ++ c :: row) = front ++ c :: Text.trimEnd row :=
      Text.trimEndWhile_append_cons hc front row
    rw [joinRows, joinRows, hend, List.append_assoc, List.cons_append]

end Rows

/-- Rows inside a parenthesis, which lead from a depth to another one and leave the parenthesis open
at their ends, with what stripping keeps of them. -/
inductive ReadsRows : Nat → List Char → List (List Char) → List Char → List (List Char) → Nat →
    Prop where
  | last {n m : Nat} {row kept : List Char} (h : ReadsParens n row kept m) :
      ReadsRows n row [] kept [] m
  | more {n k m : Nat} {row next kept kept' : List Char} {rows kepts : List (List Char)}
      (h : ReadsParens n row kept (k + 1)) (hrest : ReadsRows (k + 1) next rows kept' kepts m) :
      ReadsRows n row (next :: rows) kept (kept' :: kepts) m

namespace ReadsRows

variable {n m : Nat} {row kept : List Char} {rows kepts : List (List Char)}

/-- Stripping keeps every row. -/
theorem length_eq (h : ReadsRows n row rows kept kepts m) : kepts.length = rows.length := by
  induction h with
  | last => rfl
  | more _ _ ih => rw [List.length_cons, List.length_cons, ih]

/-- Trimming the first row changes no depth. -/
theorem trimStart (h : ReadsRows n row rows kept kepts m) :
    ReadsRows n (Text.trimStart row) rows (Text.trimStart kept) kepts m := by
  cases h with
  | last h => exact .last h.trimStart
  | more h hrest => exact .more h.trimStart hrest

/-- The joined rows lead from the first depth to the last one. -/
theorem exists_readsParens_joinRows (h : ReadsRows n row rows kept kepts m) :
    ∃ joined, ReadsParens n (joinRows row rows) joined m := by
  induction rows generalizing n row kept kepts with
  | nil =>
    cases h with
    | last h => exact ⟨kept, h⟩
  | cons next rows ih =>
    cases h with
    | more h hrest =>
      obtain ⟨joined, hjoined⟩ := ih hrest.trimStart
      exact ⟨_, h.trimEnd.append (.char rfl (by decide) (by decide) hjoined)⟩

end ReadsRows

/-- Rows of nested texts leave an open parenthesis as it is. -/
theorem exists_readsRows_of_isNested {row : List Char} {rows : List (List Char)}
    (h : ∀ r ∈ row :: rows, ∃ allowed inGroup, IsNested allowed inGroup r) (n : Nat) :
    ∃ kept kepts, ReadsRows (n + 1) row rows kept kepts (n + 1) := by
  obtain ⟨allowed, inGroup, hrow⟩ := h row List.mem_cons_self
  obtain ⟨kept, hkept⟩ := hrow.exists_readsParens n
  induction rows generalizing row allowed inGroup kept with
  | nil => exact ⟨kept, [], .last hkept⟩
  | cons next rows ih =>
    have hrest : ∀ r ∈ next :: rows, ∃ allowed inGroup, IsNested allowed inGroup r := fun r hr =>
      h r (List.mem_cons_of_mem row hr)
    obtain ⟨allowed', inGroup', hnext⟩ := hrest next List.mem_cons_self
    obtain ⟨kept', hkept'⟩ := hnext.exists_readsParens n
    obtain ⟨kept', kepts, hrows⟩ := ih hrest allowed' inGroup' hnext kept' hkept'
    exact ⟨kept, kept' :: kepts, .more hkept hrows⟩

/-! ## The text around the rows -/

/-- A character in front of the parenthesis of a list. -/
def isFront (c : Char) : Bool :=
  isClear c && !"()\x7b\x7d".toList.contains c

/-- What stands in front of the parenthesis of a list. -/
structure IsFrontText (front : List Char) : Prop where
  chars : ∀ c ∈ front, isFront c = true
  solid : Text.trimStart front = front

/-- A character between the parenthesis of a list and the brace of a body. -/
def isBetween (c : Char) : Bool :=
  !"\"'\x60()\x7b\x7d".toList.contains c

/-- What stands behind the rows, in front of the brace. -/
structure IsBetweenText (between : List Char) : Prop where
  chars : ∀ c ∈ between, isBetween c = true
  free : CommentFree between

/-- The parenthesis that closes a list, a text, and the brace of the body. -/
def endingText (between : List Char) : List Char :=
  ')' :: (between ++ ['\x7b'])

theorem tight_endingText (between : List Char) : Text.Tight (endingText between) :=
  Text.tight_of_ends (by decide) (by decide) between

/-- The empty text does not go on with the second sign of a comment. -/
theorem continuesPlain_nil : ContinuesPlain [] := ⟨by decide, by decide⟩

/-- The end of a header does not go on with the second sign of a comment. -/
theorem continuesPlain_endingText (between : List Char) : ContinuesPlain (endingText between) :=
  ⟨by simp [endingText], by simp [endingText]⟩

namespace IsFrontText

variable {front : List Char}

/-- Stripping keeps what stands in front of the parenthesis. -/
theorem keepsCode (h : IsFrontText front) : KeepsCode front front :=
  .of_isClear fun c hc => (Bool.and_eq_true _ _ ▸ h.chars c hc : _ ∧ _).1

/-- Stripping keeps the parenthesis too. -/
theorem keepsCode_paren (h : IsFrontText front) : KeepsCode (front ++ ['(']) (front ++ ['(']) :=
  h.keepsCode.append (.char (by decide))

/-- A sign that may not stand in front of the parenthesis does not. -/
theorem not_mem (h : IsFrontText front) {c : Char} (hc : isFront c = false) : c ∉ front :=
  Text.not_mem_of_class h.chars hc

/-- No parenthesis is open in front of the list. -/
theorem parenBalance (h : IsFrontText front) : SourceSurvey.parenBalance front = 0 := by
  rw [SourceSurvey.parenBalance, List.count_eq_zero_of_not_mem (h.not_mem (by decide)),
    List.count_eq_zero_of_not_mem (h.not_mem (by decide))]
  rfl

end IsFrontText

namespace IsBetweenText

variable {between : List Char}

/-- Between the list and the body there is no quote and no parenthesis. -/
theorem plain (h : IsBetweenText between) : ∀ c ∈ between ++ ['\x7b'],
    Nesting.isQuote c = false ∧ c ≠ '(' ∧ c ≠ ')' := by
  intro c hc
  rcases List.mem_append.mp hc with hc | hc
  · have hb := h.chars c hc
    simp [isBetween] at hb
    simp [Nesting.isQuote, hb]
  · rw [List.mem_singleton.mp hc]
    decide

/-- No comment opens between the list and the body. -/
theorem opensNoComment (h : IsBetweenText between) : OpensNoComment (between ++ ['\x7b']) := by
  have hbrace : CommentFree ['\x7b'] := commentFree_of_not_mem (by decide)
  exact (h.free.append hbrace ⟨by decide, by decide⟩).opensNoComment

/-- Stripping keeps the end of a header. -/
theorem keepsCode (h : IsBetweenText between) :
    slash.stripFrom 0 .code (endingText between) = (endingText between, .code) ∧
      slash.lineCommentFrom 0 none (endingText between) = none := by
  have hreads : ReadsParens 0 (between ++ ['\x7b']) (between ++ ['\x7b']) 0 := .of_forall h.plain
  have hopens : ¬ slash.OpensComment (endingText between) := not_opensComment_of_ne (by decide) _
  have hstrip := hreads.stripFrom h.opensNoComment continuesPlain_nil
  have hcomment := hreads.lineCommentFrom h.opensNoComment continuesPlain_nil
  have hline : slash.opensLineComment (endingText between) = false :=
    Bool.eq_false_iff.mpr fun hline => hopens (.inr hline)
  rw [List.append_nil, stripFrom_nil, List.append_nil] at hstrip
  rw [List.append_nil] at hcomment
  constructor
  · rw [endingText, LinePart.stripFrom_slash_char rfl hopens, hstrip]
  · rw [endingText, LinePart.lineCommentFrom_slash_char rfl hline, hcomment]
    rfl

/-- The end of a header closes one parenthesis. -/
theorem parenBalance (h : IsBetweenText between) :
    SourceSurvey.parenBalance (endingText between) = -1 := by
  have hnone : ∀ d, d = '(' ∨ d = ')' → d ∉ between ++ ['\x7b'] := by
    rintro d (rfl | rfl) hd
    · exact (h.plain _ hd).2.1 rfl
    · exact (h.plain _ hd).2.2 rfl
  have hzero : SourceSurvey.parenBalance (between ++ ['\x7b']) = 0 := by
    rw [SourceSurvey.parenBalance, List.count_eq_zero_of_not_mem (hnone _ (.inl rfl)),
      List.count_eq_zero_of_not_mem (hnone _ (.inr rfl))]
    rfl
  rw [endingText, ← List.singleton_append, parenBalance_append, hzero]
  rfl

end IsBetweenText

/-! ## Stripping and joining -/

section Rows

variable {n m : Nat} {front between row kept : List Char} {rows kepts : List (List Char)}

/-- Stripping the lines of a header empties the literals in its rows. -/
theorem ReadsRows.stripLines_spanRows (h : ReadsRows n row rows kept kepts m)
    (hfree : ∀ r ∈ row :: rows, OpensNoComment r) (hbetween : IsBetweenText between)
    (hfront : KeepsCode front front) (below : List Line) :
    slash.stripLines .code (spanRows (endingText between) (front ++ row) rows ++ below) =
      spanRows (endingText between) (front ++ kept) kepts ++ slash.strip below := by
  have hrow := hfree _ List.mem_cons_self
  -- each row ends outside literals and comments, so the next one starts in code again
  induction h generalizing front with
  | @last n m row kept h =>
    have hline : slash.stripFrom 0 .code (front ++ row ++ endingText between) =
        (front ++ kept ++ endingText between, .code) := by
      rw [List.append_assoc, hfront.strip, h.stripFrom hrow (continuesPlain_endingText between),
        hbetween.keepsCode.1, List.append_assoc]
    show (slash.stripFrom 0 .code (front ++ row ++ endingText between)).1 ::
      slash.stripLines (carried (slash.stripFrom 0 .code (front ++ row ++ endingText between)).2)
        below = _
    rw [hline]
    rfl
  | @more n k m row next kept kept' rows kepts h _ ih =>
    have hline : slash.stripFrom 0 .code (front ++ row) = (front ++ kept, .code) := by
      have hrest := h.stripFrom hrow continuesPlain_nil
      rw [List.append_nil, stripFrom_nil, List.append_nil] at hrest
      rw [hfront.strip, hrest]
    have hrest : ∀ r ∈ next :: rows, OpensNoComment r := fun r hr =>
      hfree r (List.mem_cons_of_mem row hr)
    have hlines := ih hrest KeepsCode.nil (hrest next List.mem_cons_self)
    show (slash.stripFrom 0 .code (front ++ row)).1 ::
      slash.stripLines (carried (slash.stripFrom 0 .code (front ++ row)).2)
        (spanRows (endingText between) next rows ++ below) = _
    rw [hline]
    exact congrArg (_ :: ·) hlines

/-- A line without a comment is shown as it is, without the blanks around it. -/
theorem shownScriptLine_of_none {line : Line} (h : slash.lineCommentFrom 0 none line = none) :
    shownScriptLine line = Text.trim line := by
  rw [shownScriptLine, cutLineComment, lineCommentAt?, h]
  exact Text.trim_trimEnd line

/-- The rows of a header are joined as they are written, but trimmed. -/
theorem ReadsRows.map_shownScriptLine_spanRows (h : ReadsRows n row rows kept kepts m)
    (hfree : ∀ r ∈ row :: rows, OpensNoComment r) (hbetween : IsBetweenText between)
    (hfront : KeepsCode front front) :
    (spanRows (endingText between) (front ++ row) rows).map shownScriptLine =
      (spanRows (endingText between) (front ++ row) rows).map Text.trim := by
  have hrow := hfree _ List.mem_cons_self
  induction h generalizing front with
  | @last n m row kept h =>
    have hline : slash.lineCommentFrom 0 none (front ++ row ++ endingText between) = none := by
      rw [List.append_assoc, hfront.comment,
        h.lineCommentFrom hrow (continuesPlain_endingText between), hbetween.keepsCode.2]
      rfl
    show [shownScriptLine _] = [Text.trim _]
    rw [shownScriptLine_of_none hline]
  | @more n k m row next kept kept' rows kepts h _ ih =>
    have hline : slash.lineCommentFrom 0 none (front ++ row) = none := by
      have hrest := h.lineCommentFrom hrow continuesPlain_nil
      rw [List.append_nil] at hrest
      rw [hfront.comment, hrest]
      rfl
    have hrest : ∀ r ∈ next :: rows, OpensNoComment r := fun r hr =>
      hfree r (List.mem_cons_of_mem row hr)
    have hlines := ih hrest KeepsCode.nil (hrest next List.mem_cons_self)
    rw [spanRows, List.map_cons, List.map_cons, shownScriptLine_of_none hline]
    exact congrArg (_ :: ·) hlines

/-- The header is put together from the rows, with what stands around them. -/
theorem ReadsRows.joinHeader_spanRows (h : ReadsRows n row rows kept kepts m)
    (hfree : ∀ r ∈ row :: rows, OpensNoComment r) (hbetween : IsBetweenText between)
    (hfront : IsFrontText front) :
    joinHeader (some .slash) (spanRows (endingText between) (front ++ '(' :: row) rows) =
      front ++ '(' :: (joinRows row rows ++ endingText between) := by
  have hlines := h.map_shownScriptLine_spanRows hfree hbetween hfront.keepsCode_paren
  have hstart : Text.trimStart (front ++ '(' :: row) = front ++ '(' :: row := by
    rw [Text.trimStart_append_cons (by decide), hfront.solid]
  rw [List.append_assoc, List.singleton_append] at hlines
  rw [joinHeader_slash, hlines, intercalate_trim_spanRows (tight_endingText between), hstart,
    joinRows_append (by decide), List.append_assoc, List.cons_append]

/-! ## Where the header ends -/

/-- The parenthesis is closed on the last row. -/
theorem ReadsRows.headerExtentFrom_spanRows (h : ReadsRows n row rows kept kepts 1)
    (hbetween : IsBetweenText between) (below : List Line) :
    headerExtentFrom n (spanRows (endingText between) kept kepts ++ below) = some rows.length := by
  generalize hm : (1 : Nat) = m at h
  induction h with
  | @last n m row kept h =>
    have hbalance := h.parenBalance_kept
    have hend : (n : Int) + parenBalance (kept ++ endingText between) ≤ 0 := by
      rw [parenBalance_append, hbetween.parenBalance]
      omega
    show (if (n : Int) + parenBalance (kept ++ endingText between) ≤ 0 then some 0 else _) = _
    rw [if_pos hend]
    rfl
  | @more n k m row next kept kept' rows kepts h _ ih =>
    have hbalance := h.parenBalance_kept
    have hopen : ¬ ((k + 1 : Nat) : Int) ≤ 0 := by omega
    show (if (n : Int) + parenBalance kept ≤ 0 then some 0 else
      (headerExtentFrom ((n : Int) + parenBalance kept)
        (spanRows (endingText between) kept' kepts ++ below)).map (· + 1)) = _
    rw [hbalance, if_neg hopen, ih hm]
    rfl

/-- What stands in front of the first row counts towards the balance at the start. -/
theorem headerExtentFrom_spanRows_append (balance : Int) (ending : List Char)
    (rows : List (List Char)) (below : List Line) :
    headerExtentFrom balance (spanRows ending (front ++ row) rows ++ below) =
      headerExtentFrom (balance + parenBalance front) (spanRows ending row rows ++ below) := by
  cases rows with
  | nil =>
    show headerExtentFrom balance ((front ++ row ++ ending) :: below) =
      headerExtentFrom _ ((row ++ ending) :: below)
    rw [headerExtentFrom, headerExtentFrom, List.append_assoc, parenBalance_append, Int.add_assoc]
  | cons next rows =>
    show headerExtentFrom balance ((front ++ row) :: _) = headerExtentFrom _ (row :: _)
    rw [headerExtentFrom, headerExtentFrom, parenBalance_append, Int.add_assoc]

/-- A header that fits into the lines in which its end is sought ends with its last row. -/
theorem ReadsRows.headerExtent_spanRows (h : ReadsRows 1 row rows kept kepts 1)
    (hbetween : IsBetweenText between) (hfront : IsFrontText front) {window : Nat}
    (hwindow : rows.length < window) (below : List Line) :
    headerExtent window (spanRows (endingText between) (front ++ '(' :: kept) kepts ++ below) =
      rows.length := by
  have hlength : (spanRows (endingText between) (front ++ '(' :: kept) kepts).length =
      rows.length + 1 := by rw [length_spanRows, h.length_eq]
  have htake : (spanRows (endingText between) (front ++ '(' :: kept) kepts ++ below).take window =
      spanRows (endingText between) (front ++ ['('] ++ kept) kepts ++
        below.take (window - (rows.length + 1)) := by
    rw [List.take_append, hlength, List.take_of_length_le (by omega), List.append_assoc]
    rfl
  have hbalance : 0 + parenBalance (front ++ ['(']) = ((1 : Nat) : Int) := by
    rw [parenBalance_append, hfront.parenBalance]
    rfl
  have hextent : headerExtentFrom 0
      ((spanRows (endingText between) (front ++ '(' :: kept) kepts ++ below).take window) =
      some rows.length := by
    rw [htake, headerExtentFrom_spanRows_append, hbalance, h.headerExtentFrom_spanRows hbetween]
  have hopens : ∃ line lines, spanRows (endingText between) (front ++ '(' :: kept) kepts ++ below =
      line :: lines ∧ '(' ∈ line := by
    cases kepts <;> exact ⟨_, _, rfl, by simp⟩
  obtain ⟨line, lines, hlines, hopen⟩ := hopens
  rw [hlines] at hextent ⊢
  rw [headerExtent, if_pos (List.contains_iff_mem.mpr hopen), hextent]
  rfl

/-! ## The list in the header -/

/-- From a place in front of the list on, the list is found between its parentheses. -/
theorem parenthesised?_append {inside joined : List Char} (h : ReadsParens 1 inside joined 1)
    {start : Nat} (hstart : start ≤ front.length) (hfront : '(' ∉ front) (tail : List Char) :
    Extract.parenthesised? (front ++ '(' :: (inside ++ ')' :: tail)) start = some (inside, tail) := by
  have hclose : closingParen? (front ++ '(' :: (inside ++ ')' :: tail)) front.length =
      some (front ++ '(' :: inside).length := by
    obtain ⟨last, hlast⟩ := h.closingFrom Nat.one_pos (some '(') (')' :: tail)
    have hend : closingFrom '(' ')' ((1 : Nat) : Int) none last (')' :: tail) = some 0 := rfl
    rw [closingParen?, closingBracket?, List.drop_left]
    show ((closingFrom '(' ')' ((1 : Nat) : Int) none (some '(') (inside ++ ')' :: tail)).map
      (· + 1)).map _ = _
    rw [hlast, hend]
    refine congrArg some ?_
    simp only [List.length_append, List.length_cons]
    omega
  have hwhole : front ++ '(' :: (inside ++ ')' :: tail) = (front ++ '(' :: inside) ++ ')' :: tail := by
    simp
  rw [Extract.parenthesised?, Text.findFrom?_singleton_append hfront hstart]
  show (closingParen? (front ++ '(' :: (inside ++ ')' :: tail)) front.length >>= fun closing => _) = _
  rw [hclose]
  show some (((front ++ '(' :: (inside ++ ')' :: tail)).take (front ++ '(' :: inside).length).drop
    (front.length + 1), (front ++ '(' :: (inside ++ ')' :: tail)).drop
      ((front ++ '(' :: inside).length + 1)) = _
  rw [hwhole, List.take_left, drop_append_cons, drop_append_cons]

/-! ## Where the body ends -/

/-- What ends a text reaches back no further than to a character that it can only begin with. -/
theorem suffix_append_cons_iff {c : Char} {part text : List Char} (h : c ∉ part.tail)
    (front : List Char) : part <:+ front ++ c :: text ↔ part <:+ c :: text := by
  refine ⟨fun hpart => ?_, fun hpart => hpart.trans (List.suffix_append front _)⟩
  rcases List.suffix_or_suffix_of_suffix hpart (List.suffix_append front (c :: text)) with
    hshort | ⟨before, hlong⟩
  · exact hshort
  · cases before with
    | nil => exact hlong ▸ List.suffix_refl _
    | cons d ds =>
      rw [← hlong] at h
      exact absurd (by simp) h

/-- What stands in front of a parenthesis ends no statement. -/
theorem endsStatement_append (front row : List Char) :
    endsStatement (front ++ '(' :: row) = endsStatement ('(' :: row) := by
  have hspace : Text.isSpace '(' = false := by decide
  have hlast : ∀ front : List Char, (front ++ '(' :: Text.trimEnd row).getLast? =
      ('(' :: Text.trimEnd row).getLast? := fun front => by
    rw [List.getLast?_append_cons, List.getLast?_eq_some_getLast (List.cons_ne_nil _ _)]
  have hwhole := Text.trim_append_cons hspace [] row
  rw [List.nil_append] at hwhole
  rw [endsStatement, endsStatement, Text.trim_append_cons hspace, hwhole, hlast, hlast]

/-- Nor does it make a whole arrow of a row, unless it has the sign of one. -/
theorem isWholeArrow_append {front : List Char} (h : '>' ∉ front) (row : List Char) :
    isWholeArrow (front ++ '(' :: row) = isWholeArrow ('(' :: row) := by
  have hspace : Text.isSpace '(' = false := by decide
  have hwhole := Text.trim_append_cons hspace [] row
  rw [List.nil_append] at hwhole
  have harrow : ¬ ['=', '>'] <:+: Text.trimStart front := fun hin =>
    h ((List.dropWhile_suffix _).subset (hin.subset (by decide)))
  have hcontains : Text.contains (Text.trimStart front ++ '(' :: Text.trimEnd row) ['=', '>'] =
      Text.contains (Text.trimStart [] ++ '(' :: Text.trimEnd row) ['=', '>'] := by
    rw [Bool.eq_iff_iff, Text.contains_iff_isInfix, Text.contains_iff_isInfix,
      infix_append_cons_iff (by decide), infix_append_cons_iff (by decide)]
    exact or_congr_left (iff_of_false harrow (by decide))
  have hends : ∀ part : List Char, '(' ∉ part.tail →
      Text.endsWith (Text.trimStart front ++ '(' :: Text.trimEnd row) part =
        Text.endsWith (Text.trimStart [] ++ '(' :: Text.trimEnd row) part := by
    intro part hpart
    rw [Bool.eq_iff_iff, Text.endsWith, Text.endsWith, List.isSuffixOf_iff_suffix,
      List.isSuffixOf_iff_suffix, suffix_append_cons_iff hpart, suffix_append_cons_iff hpart]
  rw [isWholeArrow, isWholeArrow, Text.trim_append_cons hspace, hwhole, hcontains,
    hends _ (by decide), hends _ (by decide), hends _ (by decide)]

/-- Two bodies end alike when their first lines do and the scan goes on alike behind them. -/
theorem braceExtentFrom_congr {s s' : BraceScan} {line line' : Line} {lines lines' : List Line}
    {isFirst : Bool} (hline : s.line line = s'.line line')
    (hstops : stopsAfter s isFirst line = stopsAfter s' isFirst line')
    (hempty : lines = [] ↔ lines' = []) (hrest : braceExtentFrom (s.line line) false lines =
      braceExtentFrom (s.line line) false lines') :
    braceExtentFrom s isFirst (line :: lines) = braceExtentFrom s' isFirst (line' :: lines') := by
  cases lines with
  | nil =>
    rw [hempty.mp rfl]
    rfl
  | cons next lines =>
    cases lines' with
    | nil => cases hempty.mpr rfl
    | cons next' lines' =>
      rw [braceExtentFrom_cons_cons, braceExtentFrom_cons_cons, hstops, ← hline, hrest]

/-- Two scans that have come into the same body end it on the same line. -/
theorem braceExtentFrom_of_opened {s s' t : BraceScan} {line line' : Line} {lines : List Line}
    {isFirst : Bool} (hline : s.line line = t) (hline' : s'.line line' = t)
    (hopened : t.opened = true) (hdepth : 0 < t.depth) :
    braceExtentFrom s isFirst (line :: lines) = braceExtentFrom s' isFirst (line' :: lines) := by
  have hopen : ¬ t.depth ≤ 0 := by omega
  have hgoes : ∀ {s : BraceScan} {line : Line}, s.line line = t →
      stopsAfter s isFirst line = false := fun hline => by simp [stopsAfter, hline, hopened, hopen]
  exact braceExtentFrom_congr (hline.trans hline'.symm) ((hgoes hline).trans (hgoes hline').symm)
    Iff.rfl rfl

/-- What stands in front of the parenthesis does not move the scan for the body. -/
theorem IsFrontText.line_append_paren (h : IsFrontText front) (row : List Char) (s : BraceScan) :
    s.line (front ++ '(' :: row) = (s.char '(').line row := by
  have hfront : s.line front = s := BraceScan.line_of_forall (fun c hc => by
    have hchar := h.chars c hc
    simp [isFront] at hchar
    simp [hchar]) s
  rw [BraceScan.line_append, hfront]
  rfl

/-- On the last row the body opens. -/
theorem ReadsParens.line_append_endingText (h : ReadsParens n row kept 1) (hn : 0 < n)
    (hbetween : IsBetweenText between) {s : BraceScan} (hs : s.parens = n) :
    s.line (kept ++ endingText between) = ⟨s.depth + 1, 0, true⟩ := by
  have hnothing : ∀ t : BraceScan, t.line between = t := BraceScan.line_of_forall fun c hc => by
    have hchar := hbetween.chars c hc
    simp [isBetween] at hchar
    simp [hchar]
  rw [BraceScan.line_append, h.line_kept hn hs]
  show (({ s with parens := 0 } : BraceScan).line (between ++ ['\x7b'])) = _
  rw [BraceScan.line_append, hnothing]
  rfl

/-- What stands between the list and the brace has no part in where the body ends. -/
theorem ReadsRows.braceExtentFrom_spanRows {between' : List Char}
    (h : ReadsRows n row rows kept kepts 1) (hn : 0 < n) (hbetween : IsBetweenText between)
    (hbetween' : IsBetweenText between') {s : BraceScan} (hs : s.parens = n) (hdepth : 0 ≤ s.depth)
    (below : List Line) :
    braceExtentFrom s false (spanRows (endingText between) kept kepts ++ below) =
      braceExtentFrom s false (spanRows (endingText between') kept kepts ++ below) := by
  generalize hm : (1 : Nat) = m at h
  induction h generalizing s with
  | last h =>
    rw [← hm] at h
    have hpos : 0 < s.depth + 1 := by omega
    exact braceExtentFrom_of_opened (h.line_append_endingText hn hbetween hs)
      (h.line_append_endingText hn hbetween' hs) rfl hpos
  | @more n k m row next kept kept' rows kepts h _ ih =>
    have hline := h.line_kept hn hs
    have hparens : (s.line kept).parens = k + 1 := by rw [hline]
    have hline' : 0 ≤ (s.line kept).depth := by rwa [hline]
    exact braceExtentFrom_congr rfl rfl (iff_of_false (spanRows_append_ne_nil _ _ _ _)
      (spanRows_append_ne_nil _ _ _ _)) (ih (Nat.succ_pos k) hparens hline' hm)

/-- Neither has what stands in front of the list. -/
theorem ReadsRows.braceExtent_spanRows {front' between' : List Char}
    (h : ReadsRows 1 row rows kept kepts 1) (hfront : IsFrontText front)
    (hfront' : IsFrontText front') (hbetween : IsBetweenText between)
    (hbetween' : IsBetweenText between') (below : List Line) :
    braceExtent (spanRows (endingText between) (front ++ '(' :: kept) kepts ++ below) =
      braceExtent (spanRows (endingText between') (front' ++ '(' :: kept) kepts ++ below) := by
  cases h with
  | last h =>
    have hopens : ∀ {front between : List Char}, IsFrontText front → IsBetweenText between →
        BraceScan.start.line (front ++ '(' :: kept ++ endingText between) = ⟨1, 0, true⟩ := by
      intro front between hfront hbetween
      rw [List.append_assoc, List.cons_append, hfront.line_append_paren]
      exact h.line_append_endingText Nat.one_pos hbetween rfl
    exact braceExtentFrom_of_opened (hopens hfront hbetween) (hopens hfront' hbetween') rfl
      (by decide)
  | @more _ k _ _ next _ kept' rows kepts h hrest =>
    have hline : ∀ {front : List Char}, IsFrontText front →
        BraceScan.start.line (front ++ '(' :: kept) = ⟨0, k + 1, false⟩ := by
      intro front hfront
      rw [hfront.line_append_paren, h.line_kept Nat.one_pos rfl]
      rfl
    have harrow : ∀ {front : List Char}, IsFrontText front → '>' ∉ front := fun hfront =>
      hfront.not_mem (by decide)
    refine braceExtentFrom_congr (by rw [hline hfront, hline hfront']) ?_
      (iff_of_false (spanRows_append_ne_nil _ _ _ _) (spanRows_append_ne_nil _ _ _ _)) ?_
    · rw [stopsAfter, stopsAfter, hline hfront, hline hfront', endsStatement_append front,
        endsStatement_append front', isWholeArrow_append (harrow hfront),
        isWholeArrow_append (harrow hfront')]
    · rw [hline hfront]
      exact hrest.braceExtentFrom_spanRows (Nat.succ_pos k) hbetween hbetween' rfl (Int.le_refl 0)
        below

end Rows

end SourceSurvey
