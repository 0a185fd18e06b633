import SourceSurvey.Proofs.Comment.Reading

/-!
# Stripping erases contents and comments

Main statement: every file has a reading as pieces, and whatever its reading is, the stripped copy
is that reading without the contents of literals and without comments. So two files that differ in
nothing else have one stripped copy.
-/

namespace SourceSurvey

namespace CommentRules

/-! ## What the scanner finds at a place in code -/

section Opening

variable {style : CommentRules} {c : Char} {cs : List Char}

/-- Where a block comment opens, a block comment is read. -/
theorem openingAt_of_opensBlock {opener closer : List Char}
    (hblock : style.block = some (opener, closer)) (hstarts : opener <+: c :: cs) :
    style.openingAt c cs = .blockComment opener closer := by
  unfold openingAt
  rw [hblock, Option.filter_some, if_pos (List.isPrefixOf_iff_prefix.mpr hstarts)]

/-- Elsewhere a line comment is read, then a triple quote, then a quote. -/
theorem openingAt_of_not_opensBlock (h : ¬ style.OpensBlock (c :: cs)) :
    style.openingAt c cs =
      if style.opensLineComment (c :: cs) then .lineComment
      else if style.startsTriple (c :: cs) then .literal [c, c, c]
      else if style.isQuote c then .literal [c]
      else .plain := by
  have hfilter : style.block.filter (·.1.isPrefixOf (c :: cs)) = none := by
    rw [Option.filter_eq_none_iff]
    rintro ⟨opener, closer⟩ hblock hstarts
    exact h ⟨opener, closer, hblock, List.isPrefixOf_iff_prefix.mp hstarts⟩
  unfold openingAt
  rw [hfilter]

/-- Where a line comment opens and no block does, a line comment is read. -/
theorem openingAt_of_lineComment (hblock : ¬ style.OpensBlock (c :: cs))
    (hline : style.opensLineComment (c :: cs) = true) : style.openingAt c cs = .lineComment := by
  rw [openingAt_of_not_opensBlock hblock, if_pos hline]

/-- A character that is no quote and opens no comment stands for itself. -/
theorem openingAt_of_plain (hstyle : style.Regular) (hcomment : ¬ style.OpensComment (c :: cs))
    (hquote : style.isQuote c = false) : style.openingAt c cs = .plain := by
  -- three equal quotes begin with a quote, and this character is none
  have htriple : ¬ style.startsTriple (c :: cs) = true := by
    intro h
    rw [(hstyle.triple_isQuote h).1] at hquote
    cases hquote
  rw [openingAt_of_not_opensBlock fun h => hcomment (Or.inl h),
    if_neg fun h => hcomment (Or.inr h), if_neg htriple, if_neg (by rw [hquote]; simp)]

/-- Where a literal opens and no comment does, a literal with this delimiter is read. -/
theorem openingAt_of_opensLiteral {delimiter : List Char}
    (hcomment : ¬ style.OpensComment (c :: cs)) (h : style.OpensLiteral delimiter (c :: cs)) :
    style.openingAt c cs = .literal delimiter := by
  rw [openingAt_of_not_opensBlock fun hb => hcomment (Or.inl hb),
    if_neg fun hl => hcomment (Or.inr hl)]
  cases h with
  | triple htriple => rw [if_pos htriple]
  | single hquote htriple => rw [if_neg (by rw [htriple]; simp), if_pos hquote]

end Opening

end CommentRules

/-- What begins nowhere in a text begins nowhere behind its first character. -/
theorem BeginsNotIn.of_cons {part body following : List Char} {c : Char}
    (h : BeginsNotIn part (c :: body) following) : BeginsNotIn part body following := by
  intro n hn
  exact h (n + 1) (by rw [List.length_cons]; omega)

/-- What begins nowhere in a text does not begin at its first character. -/
theorem BeginsNotIn.not_prefix {part body following : List Char} {c : Char}
    (h : BeginsNotIn part (c :: body) following) : ¬ part <+: c :: (body ++ following) :=
  h 0 (by rw [List.length_cons]; omega)

namespace CommentRules

/-! ## The scanner inside delimiters, comments and literals -/

section Scanner

variable {style : CommentRules}

@[simp]
theorem stripFrom_nil (read : Nat) (region : Region) :
    style.stripFrom read region [] = ([], region) := by
  cases read <;> rfl

@[simp]
theorem stripFrom_read (read : Nat) (region : Region) (c : Char) (cs : List Char) :
    style.stripFrom (read + 1) region (c :: cs) = style.stripFrom read region cs := rfl

theorem stripFrom_comment (closer : List Char) (c : Char) (cs : List Char) :
    style.stripFrom 0 (.comment closer) (c :: cs) =
      if closer.isPrefixOf (c :: cs) then style.stripFrom (closer.length - 1) .code cs
      else style.stripFrom 0 (.comment closer) cs := rfl

theorem stripFrom_literal (delimiter : List Char) (c : Char) (cs : List Char) :
    style.stripFrom 0 (.literal delimiter) (c :: cs) =
      if c == '\\' then style.stripFrom 1 (.literal delimiter) cs
      else if delimiter.isPrefixOf (c :: cs) then
        (delimiter ++ (style.stripFrom (delimiter.length - 1) .code cs).1,
          (style.stripFrom (delimiter.length - 1) .code cs).2)
      else style.stripFrom 0 (.literal delimiter) cs := rfl

theorem stripFrom_code (c : Char) (cs : List Char) :
    style.stripFrom 0 .code (c :: cs) =
      match style.openingAt c cs with
      | .blockComment opener closer => style.stripFrom (opener.length - 1) (.comment closer) cs
      | .lineComment => ([], .code)
      | .literal delimiter =>
        (delimiter ++ (style.stripFrom (delimiter.length - 1) (.literal delimiter) cs).1,
          (style.stripFrom (delimiter.length - 1) (.literal delimiter) cs).2)
      | .plain => (c :: (style.stripFrom 0 .code cs).1, (style.stripFrom 0 .code cs).2) := rfl

/-- A character that opens nothing is kept. -/
theorem stripFrom_cons_of_plain (hstyle : style.Regular) (hcomment : ¬ style.OpensComment (c :: cs))
    (hquote : style.isQuote c = false) :
    style.stripFrom 0 .code (c :: cs) =
      (c :: (style.stripFrom 0 .code cs).1, (style.stripFrom 0 .code cs).2) := by
  rw [stripFrom_code, openingAt_of_plain hstyle hcomment hquote]

/-- A text of characters that never open anything is kept. -/
theorem stripFrom_append_of_plain (hstyle : style.Regular) {text : List Char}
    (h : ∀ c ∈ text, (∀ cs, ¬ style.OpensComment (c :: cs)) ∧ style.isQuote c = false)
    (rest : List Char) :
    style.stripFrom 0 .code (text ++ rest) =
      (text ++ (style.stripFrom 0 .code rest).1, (style.stripFrom 0 .code rest).2) := by
  induction text with
  | nil => rfl
  | cons c cs ih =>
    obtain ⟨hcomment, hquote⟩ := h c List.mem_cons_self
    rw [List.cons_append, stripFrom_cons_of_plain hstyle (hcomment _) hquote,
      ih fun d hd => h d (List.mem_cons_of_mem c hd)]
    rfl

/-- Characters that are already read are passed over. -/
theorem stripFrom_skip (region : Region) (read rest : List Char) :
    style.stripFrom read.length region (read ++ rest) = style.stripFrom 0 region rest := by
  induction read with
  | nil => rfl
  | cons c cs ih =>
    rw [List.length_cons, List.cons_append, stripFrom_read]
    exact ih

/-- After the first character of a delimiter the scanner skips the others. -/
theorem stripFrom_skip_delimiter {delimiter : List Char} {c : Char} {cs rest : List Char}
    (region : Region) (hcons : delimiter ++ rest = c :: cs) (hne : delimiter ≠ []) :
    style.stripFrom (delimiter.length - 1) region cs = style.stripFrom 0 region rest := by
  obtain ⟨d, ds, rfl⟩ := List.exists_cons_of_ne_nil hne
  obtain ⟨rfl, rfl⟩ := List.cons.inj hcons
  exact stripFrom_skip region ds rest

/-- A comment is erased up to its closer, and code goes on behind it. -/
theorem stripFrom_comment_closed {closer : List Char} (hne : closer ≠ []) {rest : List Char}
    (body : List Char) (h : BeginsNotIn closer body (closer ++ rest)) :
    style.stripFrom 0 (.comment closer) (body ++ (closer ++ rest)) =
      style.stripFrom 0 .code rest := by
  induction body with
  | nil =>
    obtain ⟨c, cs, hcons⟩ := List.exists_cons_of_ne_nil
      (List.append_ne_nil_of_left_ne_nil hne rest)
    have hstarts : closer.isPrefixOf (c :: cs) = true := by
      rw [← hcons, List.isPrefixOf_iff_prefix]
      exact List.prefix_append closer rest
    rw [List.nil_append, hcons, stripFrom_comment, if_pos hstarts]
    exact stripFrom_skip_delimiter .code hcons hne
  | cons c body ih =>
    have hstarts : ¬ closer.isPrefixOf (c :: (body ++ (closer ++ rest))) = true := by
      rw [List.isPrefixOf_iff_prefix]
      exact h.not_prefix
    rw [List.cons_append, stripFrom_comment, if_neg hstarts]
    exact ih h.of_cons

/-- A comment without its closer runs over the end of the line. -/
theorem stripFrom_comment_open {closer : List Char} (body : List Char)
    (h : BeginsNotIn closer body []) :
    style.stripFrom 0 (.comment closer) body = ([], .comment closer) := by
  induction body with
  | nil => rfl
  | cons c body ih =>
    have hstarts : ¬ closer.isPrefixOf (c :: body) = true := by
      have hnot := h.not_prefix
      rwa [List.append_nil, ← List.isPrefixOf_iff_prefix] at hnot
    rw [stripFrom_comment, if_neg hstarts]
    exact ih h.of_cons

/-- A backslash in a literal takes the next character with it. -/
theorem stripFrom_escape (delimiter text : List Char) :
    style.stripFrom 0 (.literal delimiter) ('\\' :: text) =
      style.stripFrom 1 (.literal delimiter) text := by
  rw [stripFrom_literal, if_pos (beq_self_eq_true '\\')]

/-- While a literal stays open the scanner keeps nothing. -/
theorem stripFrom_literal_staysOpen {delimiter body following : List Char}
    (h : StaysOpen delimiter body following) :
    style.stripFrom 0 (.literal delimiter) (body ++ following) =
      style.stripFrom 0 (.literal delimiter) following := by
  induction h with
  | nil following => rfl
  -- the scanner reads an escape in two steps, any other character in one
  | escape c _ ih =>
    rw [List.cons_append, List.cons_append, stripFrom_escape, stripFrom_read]
    exact ih
  | @char c body following hescape hstarts _ ih =>
    have hescape' : ¬ (c == '\\') = true := by rwa [beq_iff_eq]
    rw [List.cons_append, stripFrom_literal, if_neg hescape',
      if_neg (by rwa [List.isPrefixOf_iff_prefix])]
    exact ih

/-- A literal is emptied up to its closing delimiter, and code goes on behind it. -/
theorem stripFrom_literal_closed {q : Char} {ds body rest : List Char} (hq : q ≠ '\\')
    (h : StaysOpen (q :: ds) body (q :: ds ++ rest)) :
    style.stripFrom 0 (.literal (q :: ds)) (body ++ (q :: ds ++ rest)) =
      (q :: ds ++ (style.stripFrom 0 .code rest).1, (style.stripFrom 0 .code rest).2) := by
  have hescape : ¬ (q == '\\') = true := by rwa [beq_iff_eq]
  have hstarts : (q :: ds).isPrefixOf (q :: (ds ++ rest)) = true := by
    rw [List.isPrefixOf_iff_prefix, ← List.cons_append]
    exact List.prefix_append (q :: ds) rest
  have hdelimiter : q :: ds ++ rest = q :: (ds ++ rest) := List.cons_append
  rw [stripFrom_literal_staysOpen h, List.cons_append, stripFrom_literal, if_neg hescape,
    if_pos hstarts, stripFrom_skip_delimiter .code hdelimiter (List.cons_ne_nil q ds)]

/-- A literal without its closing delimiter runs over the end of the line. -/
theorem stripFrom_literal_open {delimiter body : List Char} (h : OpenToEnd delimiter body) :
    style.stripFrom 0 (.literal delimiter) body = ([], .literal delimiter) := by
  rcases h with h | ⟨front, rfl, h⟩
  · rw [← List.append_nil body, stripFrom_literal_staysOpen h, stripFrom_nil]
  -- the backslash waits for a character that the line does not have
  · rw [stripFrom_literal_staysOpen h, stripFrom_escape, stripFrom_nil]

end Scanner

end CommentRules

/-! ## The stripped copy of a reading -/

namespace CommentRules

variable {style : CommentRules}

/-- The delimiter of a literal that opens is kept. -/
theorem stripFrom_opensLiteral {delimiter text : List Char}
    (hcomment : ¬ style.OpensComment (delimiter ++ text))
    (hopens : style.OpensLiteral delimiter (delimiter ++ text)) :
    style.stripFrom 0 .code (delimiter ++ text) =
      (delimiter ++ (style.stripFrom 0 (.literal delimiter) text).1,
        (style.stripFrom 0 (.literal delimiter) text).2) := by
  have hne : delimiter ≠ [] := by cases hopens <;> exact List.cons_ne_nil _ _
  obtain ⟨c, cs, hcons⟩ := List.exists_cons_of_ne_nil
    (List.append_ne_nil_of_left_ne_nil hne text)
  rw [hcons] at hcomment hopens
  rw [hcons, stripFrom_code, openingAt_of_opensLiteral hcomment hopens]
  dsimp only
  rw [stripFrom_skip_delimiter (.literal delimiter) hcons hne]

/-- The opener of a block comment is erased. -/
theorem stripFrom_opensBlock (hstyle : style.Regular) {opener closer text : List Char}
    (hblock : style.block = some (opener, closer)) :
    style.stripFrom 0 .code (opener ++ text) = style.stripFrom 0 (.comment closer) text := by
  have hne := hstyle.opener_ne_nil hblock
  obtain ⟨c, cs, hcons⟩ := List.exists_cons_of_ne_nil
    (List.append_ne_nil_of_left_ne_nil hne text)
  have hstarts : opener <+: c :: cs := hcons ▸ List.prefix_append opener text
  rw [hcons, stripFrom_code, openingAt_of_opensBlock hblock hstarts]
  exact stripFrom_skip_delimiter (.comment closer) hcons hne

/-- The scanner keeps of a text in code what its reading keeps, and ends where it ends. -/
theorem stripFrom_of_readsCode (hstyle : style.Regular) {text : List Char}
    {pieces : List Piece} {after : Region} (h : ReadsCode style text pieces after) :
    style.stripFrom 0 .code text = (Piece.keptLine pieces, after) := by
  induction h with
  -- each rule of a reading is one opening that the scanner asks for
  | stop => rfl
  | code hcomment hquote _ ih =>
    rw [stripFrom_cons_of_plain hstyle hcomment hquote, ih]
    rfl
  | @literal delimiter body rest pieces after hcomment hopens hbody _ ih =>
    obtain ⟨q, ds, hq, rfl⟩ := (hopens.proper hstyle).exists_cons
    rw [stripFrom_opensLiteral hcomment hopens, stripFrom_literal_closed hq hbody, ih]
    rw [Piece.keptLine_cons, Piece.kept, List.append_assoc]
  | openLiteral hcomment hopens hbody =>
    rw [stripFrom_opensLiteral hcomment hopens, stripFrom_literal_open hbody]
    rfl
  | comment hblock hbody _ ih =>
    rw [stripFrom_opensBlock hstyle hblock,
      stripFrom_comment_closed (hstyle.closer_ne_nil hblock) _ hbody, ih]
    rfl
  | openComment hblock hbody =>
    rw [stripFrom_opensBlock hstyle hblock, stripFrom_comment_open _ hbody]
    rfl
  | @lineComment text hblock hline =>
    cases text with
    | nil => rfl
    | cons c cs =>
      rw [stripFrom_code, openingAt_of_lineComment hblock hline]
      rfl

/-- A line that reads as some pieces strips to what is kept of them. -/
theorem stripLine_of_readsLine (hstyle : style.Regular) {region after : Region} {line : Line}
    {pieces : List Piece} (h : ReadsLine style region line pieces after)
    (hregion : region.Proper) :
    style.stripLine region line = (Piece.keptLine pieces, after) := by
  cases h with
  | code h => exact stripFrom_of_readsCode hstyle h
  | literalLine hopen =>
    rw [stripLine, stripFrom_literal_open hopen]
    · rfl
    · exact nofun
  | @literalRest delimiter body rest _ pieces _ htext hbody hrest =>
    obtain ⟨q, ds, hq, rfl⟩ := hregion.exists_cons
    rw [stripLine, htext, stripFrom_literal_closed hq hbody, stripFrom_of_readsCode hstyle hrest]
    · rfl
    · exact nofun
  | commentLine hbody =>
    rw [stripLine, stripFrom_comment_open _ hbody]
    · rfl
    · exact nofun
  | commentRest htext hbody hrest =>
    rw [stripLine, htext, stripFrom_comment_closed hregion _ hbody,
      stripFrom_of_readsCode hstyle hrest]
    · rfl
    · exact nofun

/-- A region that runs over the end of a line is carried to the next one. -/
theorem carried_of_runsOver {region next : Region} (h : RunsOver region next) :
    carried region = next := by
  cases h with
  | code => rfl
  | comment _ => rfl
  | triple _ => rfl
  | template => rfl
  | single hq => rw [carried, if_neg (by rwa [beq_iff_eq])]

/-- Lines that read as some pieces strip to what is kept of them. -/
theorem stripLines_of_readsLines (hstyle : style.Regular) {region : Region} {lines : List Line}
    {file : List (List Piece)} (h : ReadsLines style region lines file)
    (hregion : region.Proper) : style.stripLines region lines = file.map Piece.keptLine := by
  induction h with
  | nil _ => rfl
  | cons hline hover _ ih =>
    rw [stripLines, stripLine_of_readsLine hstyle hline hregion, List.map_cons]
    dsimp only
    rw [carried_of_runsOver hover, ih (hover.proper (hline.proper hstyle hregion))]

/-- A file that reads as some pieces strips to what is kept of them. -/
theorem strip_of_readsFile (hstyle : style.Regular) {lines : List Line}
    {file : List (List Piece)} (h : ReadsFile style lines file) :
    style.strip lines = file.map Piece.keptLine :=
  stripLines_of_readsLines hstyle h trivial

/-- A literal of three quotes that closes on its second line, before a comment. -/
example : CommentRules.hash.strip ["x = '''a # b".toList, "  c''' + y # d".toList] =
    ["x = '''".toList, "  ''' + y ".toList] := by
  rfl

end CommentRules

/-! ## The text of a reading -/

/-- Code reads as pieces that are written as it is. -/
theorem ReadsCode.written {style : CommentRules} {text : List Char} {pieces : List Piece}
    {after : Region} (h : ReadsCode style text pieces after) :
    Piece.writtenLine pieces = text := by
  induction h with
  | stop => rfl
  | code _ _ _ ih => rw [Piece.writtenLine_cons, ih, Piece.written, List.singleton_append]
  | literal _ _ _ _ ih =>
    rw [Piece.writtenLine_cons, ih, Piece.written, List.append_assoc, List.append_assoc]
  | comment _ _ _ ih =>
    rw [Piece.writtenLine_cons, ih, Piece.written, List.append_assoc, List.append_assoc]
  | openLiteral _ _ _ => exact List.append_nil _
  | openComment _ _ => exact List.append_nil _
  | lineComment _ _ => exact List.append_nil _

/-- A line reads as pieces that are written as it is. -/
theorem ReadsLine.written {style : CommentRules} {region after : Region} {line : Line}
    {pieces : List Piece} (h : ReadsLine style region line pieces after) :
    Piece.writtenLine pieces = line := by
  have hline : Text.indentation line ++ Text.trimStart line = line :=
    List.takeWhile_append_dropWhile
  cases h with
  | code h => exact h.written
  | literalLine _ =>
    rw [Piece.writtenLine_cons, Piece.writtenLine_cons]
    exact (congrArg _ (List.append_nil _)).trans hline
  | commentLine _ =>
    rw [Piece.writtenLine_cons, Piece.writtenLine_cons]
    exact (congrArg _ (List.append_nil _)).trans hline
  | literalRest htext _ hrest =>
    rw [Piece.writtenLine_cons, Piece.writtenLine_cons, hrest.written, Piece.written,
      Piece.written, List.append_assoc, ← htext, hline]
  | commentRest htext _ hrest =>
    rw [Piece.writtenLine_cons, Piece.writtenLine_cons, hrest.written, Piece.written,
      Piece.written, List.append_assoc, ← htext, hline]

/-- Lines read as pieces that are written as they are. -/
theorem ReadsLines.written {style : CommentRules} {region : Region} {lines : List Line}
    {file : List (List Piece)} (h : ReadsLines style region lines file) :
    file.map Piece.writtenLine = lines := by
  induction h with
  | nil _ => rfl
  | cons hline _ _ ih => rw [List.map_cons, hline.written, ih]

/-! ## The stripped copy of a file -/

/-- Every file of a surveyed family has a reading, and the stripped copy is what the reading keeps:
contents of literals and comments are erased, delimiters and all code stay. Files whose readings
differ in contents and comments alone have one stripped copy. -/
theorem strip_eq_map_keptLine (family : Family) (lines : List Line) :
    (∃ file, ReadsFile family.style lines file) ∧
    ∀ file, ReadsFile family.style lines file →
      lines = file.map Piece.writtenLine ∧
      family.style.strip lines = file.map Piece.keptLine ∧
      ∀ lines' file', ReadsFile family.style lines' file' →
        file'.map Piece.skeletonLine = file.map Piece.skeletonLine →
        family.style.strip lines' = family.style.strip lines := by
  have hstyle := CommentRules.regular_style family
  have hcode : Region.code.Proper := trivial
  -- what is kept of a file can be told from its skeleton
  have hkept : ∀ file : List (List Piece),
      file.map Piece.keptLine = (file.map Piece.skeletonLine).map Piece.keptLine := by
    intro file
    rw [List.map_map]
    exact List.map_congr_left fun pieces _ => (Piece.keptLine_skeletonLine pieces).symm
  refine ⟨exists_readsLines hstyle hcode lines, fun file hfile => ⟨hfile.written.symm,
    CommentRules.strip_of_readsFile hstyle hfile, fun lines' file' hfile' hskeleton => ?_⟩⟩
  rw [CommentRules.strip_of_readsFile hstyle hfile, CommentRules.strip_of_readsFile hstyle hfile',
    hkept file', hskeleton, ← hkept file]

end SourceSurvey
