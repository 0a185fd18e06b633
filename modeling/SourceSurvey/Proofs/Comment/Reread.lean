import SourceSurvey.Proofs.Comment.Layout
import Mathlib.Data.List.TakeWhile

/-!
# Stripping twice

A stripped copy is read again. Its literals are empty and its comments are gone, so it reads as the
file did, unless taking out characters has brought two others together that open something. Main
statement: under the rules with slashes nothing of the kind happens, because a slash before a comment
begins a comment of its own, so a stripped copy stripped again is the same.
-/

namespace SourceSurvey

namespace CommentRules

/-! ## Openers that no gap can bring about -/

/-- A character that opens no comment opens none either when what follows it begins alike or is a
comment and taken out. Quotes and blanks open no comments, and blanks are no quotes. -/
structure KeepsApart (style : CommentRules) : Prop where
  of_head : ∀ {c rest text}, ¬ style.OpensComment (c :: rest) → text.head? = rest.head? →
    ¬ style.OpensComment (c :: text)
  of_block : ∀ {c rest}, ¬ style.OpensComment (c :: rest) → style.OpensBlock rest →
    ∀ text, ¬ style.OpensComment (c :: text)
  of_line : ∀ {c rest}, ¬ style.OpensComment (c :: rest) → style.opensLineComment rest = true →
    ¬ style.OpensComment [c]
  quote : ∀ {q}, style.isQuote q = true →
    Text.isSpace q = false ∧ ∀ text, ¬ style.OpensComment (q :: text)
  blank : ∀ {c}, Text.isSpace c = true → ∀ text, ¬ style.OpensComment (c :: text)

/-- A block comment opens where its opener stands. -/
theorem opensBlock_iff {style : CommentRules} {opener closer text : List Char}
    (hblock : style.block = some (opener, closer)) : style.OpensBlock text ↔ opener <+: text := by
  constructor
  · rintro ⟨opener', closer', hblock', hstarts⟩
    rw [hblock, Option.some_inj, Prod.mk.injEq] at hblock'
    exact hblock'.1 ▸ hstarts
  · exact fun hstarts => ⟨opener, closer, hblock, hstarts⟩

/-- A text begins with a pair of signs when it begins with the first and goes on with the second. -/
theorem pair_prefix_iff {a b c : Char} {text : List Char} :
    [a, b] <+: c :: text ↔ c = a ∧ text.head? = some b := by
  rw [List.cons_prefix_cons]
  cases text with
  | nil => simp
  | cons d text => simp [List.cons_prefix_cons, eq_comm]

/-- Under double-slash and slash-star comments a slash opens a comment before a slash or a star. -/
theorem opensComment_slash_iff {c : Char} {text : List Char} :
    slash.OpensComment (c :: text) ↔
      c = '/' ∧ (text.head? = some '/' ∨ text.head? = some '*') := by
  have hblock : slash.OpensBlock (c :: text) ↔ c = '/' ∧ text.head? = some '*' := by
    rw [opensBlock_iff rfl, pair_prefix_iff]
  have hline : slash.opensLineComment (c :: text) = true ↔ c = '/' ∧ text.head? = some '/' := by
    rw [← pair_prefix_iff, ← List.isPrefixOf_iff_prefix]
    simp only [opensLineComment, slash, List.find?_cons, List.find?_nil]
    cases ['/', '/'].isPrefixOf (c :: text) <;> simp
  rw [OpensComment, hblock, hline]
  tauto

/-- With hash comments beside them, a hash opens a comment unless it opens an attribute. -/
theorem opensComment_slashAndHash_iff {c : Char} {text : List Char} :
    slashAndHash.OpensComment (c :: text) ↔
      (c = '/' ∧ (text.head? = some '/' ∨ text.head? = some '*')) ∨
        (c = '#' ∧ text.head? ≠ some '[') := by
  have hblock : slashAndHash.OpensBlock (c :: text) ↔ c = '/' ∧ text.head? = some '*' := by
    rw [opensBlock_iff rfl, pair_prefix_iff]
  have hline : slashAndHash.opensLineComment (c :: text) = true ↔
      (c = '/' ∧ text.head? = some '/') ∨ (c = '#' ∧ text.head? ≠ some '[') := by
    have hattribute : ['#', '['].isPrefixOf (c :: text) = true ↔
        c = '#' ∧ text.head? = some '[' := by
      rw [List.isPrefixOf_iff_prefix, pair_prefix_iff]
    have hslashes : ['/', '/'].isPrefixOf (c :: text) = true ↔
        c = '/' ∧ text.head? = some '/' := by
      rw [List.isPrefixOf_iff_prefix, pair_prefix_iff]
    have hhash : ['#'].isPrefixOf (c :: text) = true ↔ c = '#' := by
      rw [List.isPrefixOf_iff_prefix, List.cons_prefix_cons]
      simp [eq_comm]
    simp only [opensLineComment, slashAndHash, List.find?_cons, List.find?_nil]
    cases h : ['/', '/'].isPrefixOf (c :: text)
    · cases h' : ['#'].isPrefixOf (c :: text)
      · grind
      · grind
    · grind
  rw [OpensComment, hblock, hline]
  tauto

/-- Under hash comments alone a hash opens a comment. -/
theorem opensComment_hash_iff {c : Char} {text : List Char} :
    hash.OpensComment (c :: text) ↔ c = '#' := by
  have hblock : ¬ hash.OpensBlock (c :: text) := by
    rintro ⟨_, _, hblock, _⟩
    cases hblock
  have hline : hash.opensLineComment (c :: text) = true ↔ c = '#' := by
    have hhash : ['#'].isPrefixOf (c :: text) = true ↔ c = '#' := by
      rw [List.isPrefixOf_iff_prefix, List.cons_prefix_cons]
      simp [eq_comm]
    simp only [opensLineComment, hash, List.find?_cons, List.find?_nil]
    cases h : ['#'].isPrefixOf (c :: text) <;> grind
  rw [OpensComment, hline]
  tauto

/-- Where a character and the next one settle whether a comment opens, a style keeps apart if a slash
behind a character that opens nothing can be taken out, and so can a hash with all that follows. -/
theorem KeepsApart.of_pairs {style : CommentRules} (opens : Char → Option Char → Prop)
    (hopens : ∀ c text, style.OpensComment (c :: text) ↔ opens c text.head?)
    (hempty : style.opensLineComment [] = false)
    (hblock : ∀ text, style.OpensBlock text → text.head? = some '/')
    (hfirst : ∀ c next, opens c next → c = '/' ∨ c = '#')
    (hslash : ∀ c, ¬ opens c (some '/') → ∀ next, ¬ opens c next)
    (hhash : ∀ c, ¬ opens c (some '#') → ¬ opens c none)
    (hquote : ∀ q, style.isQuote q = true → q = '"' ∨ q = '\'' ∨ q = '\x60') :
    style.KeepsApart where
  of_head := by
    intro c rest text h hhead
    rwa [hopens, hhead, ← hopens]
  of_block := by
    intro c rest h hrest text
    rw [hopens, hblock rest hrest] at h
    rw [hopens]
    exact hslash c h _
  of_line := by
    -- what a line comment begins with decides which of the two signs stands there
    intro c rest h hline
    rw [hopens] at h ⊢
    cases rest with
    | nil =>
      rw [hempty] at hline
      cases hline
    | cons d rest =>
      rcases hfirst d _ ((hopens d rest).mp (.inr hline)) with rfl | rfl
      · exact hslash c h _
      · exact hhash c h
  quote := by
    intro q hq
    refine ⟨?_, fun text h => ?_⟩
    · rcases hquote q hq with rfl | rfl | rfl <;> rfl
    · rcases hfirst q _ ((hopens q text).mp h) with rfl | rfl <;> simpa using hquote _ hq
  blank := by
    intro c hc text h
    rcases hfirst c _ ((hopens c text).mp h) with rfl | rfl <;> cases hc

/-- A block comment begins with a slash. -/
theorem head?_of_opensBlock_slash {style : CommentRules}
    (hstyle : style.block = some (['/', '*'], ['*', '/'])) {text : List Char}
    (h : style.OpensBlock text) : text.head? = some '/' := by
  obtain ⟨more, rfl⟩ := (opensBlock_iff hstyle).mp h
  rfl

/-- Stripping scripts joins no two signs to a comment. -/
theorem keepsApart_slash : slash.KeepsApart :=
  .of_pairs (fun c next => c = '/' ∧ (next = some '/' ∨ next = some '*'))
    (fun _ _ => opensComment_slash_iff) rfl (fun _ => head?_of_opensBlock_slash rfl)
    (by tauto) (by simp; tauto) (by simp) (by simp [isQuote, slash]; tauto)

/-- Nor does stripping PHP. -/
theorem keepsApart_slashAndHash : slashAndHash.KeepsApart :=
  .of_pairs (fun c next => (c = '/' ∧ (next = some '/' ∨ next = some '*')) ∨
      (c = '#' ∧ next ≠ some '['))
    (fun _ _ => opensComment_slashAndHash_iff) rfl (fun _ => head?_of_opensBlock_slash rfl)
    (by tauto) (by simp; tauto) (by simp) (by simp [isQuote, slashAndHash])

/-- Nor does stripping Python. -/
theorem keepsApart_hash : hash.KeepsApart :=
  .of_pairs (fun c _ => c = '#') (fun _ _ => opensComment_hash_iff) rfl
    (by rintro _ ⟨_, _, hblock, _⟩; cases hblock)
    (by tauto) (by tauto) (by tauto) (by simp [isQuote, hash])

end CommentRules

/-! ## Readings of copies -/

/-- What a copy leaves of a region: it has no comments. -/
def Region.withoutComment : Region → Region
  | .comment _ => .code
  | region => region

namespace CommentRules

/-- Wherever a literal between single quotes is kept, what is kept behind it does not make three
quotes of its two. -/
def JoinsNoQuotes (style : CommentRules) (pieces : List Piece) : Prop :=
  ∀ q body rest, .literal [q] body :: rest <:+ pieces →
    style.startsTriple (q :: q :: Piece.keptLine rest) = false

/-- Pieces that join no quotes join none behind their first one. -/
theorem JoinsNoQuotes.of_cons {style : CommentRules} {p : Piece} {pieces : List Piece}
    (h : style.JoinsNoQuotes (p :: pieces)) : style.JoinsNoQuotes pieces :=
  fun q body rest hrest => h q body rest (List.suffix_cons_iff.mpr (.inr hrest))

/-- Without triple quotes no pieces join quotes. -/
theorem joinsNoQuotes_of_tripleQuotes_eq_false {style : CommentRules}
    (h : style.tripleQuotes = false) (pieces : List Piece) : style.JoinsNoQuotes pieces := by
  intro q body rest _
  rw [startsTriple, h, Bool.false_and]

/-- What is kept begins as the text does, if a comment does not begin it. -/
theorem head?_keptLine {style : CommentRules} {text : List Char} {pieces : List Piece}
    {after : Region} (h : ReadsCode style text pieces after) :
    (Piece.keptLine pieces).head? = text.head? ∨ style.OpensBlock text ∨
      (style.opensLineComment text = true ∧ Piece.keptLine pieces = []) := by
  cases h with
  | stop => exact .inl rfl
  | code => exact .inl rfl
  | literal _ hopens => cases hopens <;> exact .inl rfl
  | openLiteral _ hopens => cases hopens <;> exact .inl rfl
  | comment hblock =>
    exact .inr (.inl ⟨_, _, hblock, List.prefix_append _ _⟩)
  | openComment hblock =>
    exact .inr (.inl ⟨_, _, hblock, List.prefix_append _ _⟩)
  | lineComment _ hline => exact .inr (.inr ⟨hline, rfl⟩)

/-- A character of code opens nothing in the copy. -/
theorem KeepsApart.not_opensComment {style : CommentRules} (hstyle : style.KeepsApart) {c : Char}
    {rest : List Char} {pieces : List Piece} {after : Region}
    (hcomment : ¬ style.OpensComment (c :: rest)) (h : ReadsCode style rest pieces after) :
    ¬ style.OpensComment (c :: Piece.keptLine pieces) := by
  rcases head?_keptLine h with hhead | hblock | ⟨hline, hkept⟩
  · exact hstyle.of_head hcomment hhead
  · exact hstyle.of_block hcomment hblock _
  · rw [hkept]
    exact hstyle.of_line hcomment hline

/-- Whether three quotes start a literal does not depend on what follows them. -/
theorem startsTriple_triple {style : CommentRules} {q : Char} {rest : List Char}
    (h : style.startsTriple (q :: q :: q :: rest) = true) (rest' : List Char) :
    style.startsTriple (q :: q :: q :: rest') = true := by
  obtain ⟨q', more, hq, htext⟩ := startsTriple_eq_true h
  obtain ⟨rfl, -⟩ := List.cons.inj htext
  unfold startsTriple at h ⊢
  rw [Bool.and_eq_true] at h ⊢
  refine ⟨h.1, ?_⟩
  rcases hq with rfl | rfl <;> rfl

/-- One quote does not make three. -/
theorem startsTriple_singleton (style : CommentRules) (q : Char) :
    style.startsTriple [q] = false := by
  cases h : style.startsTriple [q] with
  | false => rfl
  | true =>
    obtain ⟨_, _, _, htext⟩ := startsTriple_eq_true h
    simp at htext

end CommentRules

section Reread

variable {style : CommentRules}

/-- A text in code whose comments are taken out and whose literals are emptied reads as before. -/
theorem ReadsCode.reread (hregular : style.Regular) (hstyle : style.KeepsApart) {text : List Char}
    {pieces : List Piece} {after : Region} (h : ReadsCode style text pieces after)
    (hjoins : style.JoinsNoQuotes pieces) :
    ReadsCode style (Piece.keptLine pieces) (Piece.skeletonLine pieces) after.withoutComment := by
  -- literals are read back empty, comments are gone and the code around them is as it was
  induction h with
  | stop => exact .stop
  | code hcomment hquote hrest ih =>
    exact .code (hstyle.not_opensComment hcomment hrest) hquote (ih hjoins.of_cons)
  | @literal delimiter body rest pieces after hcomment hopens hbody hrest ih =>
    have hempty : ReadsCode style (delimiter ++ ([] ++ (delimiter ++ Piece.keptLine pieces)))
        (.literal delimiter [] :: Piece.skeletonLine pieces) after.withoutComment := by
      refine .literal ?_ ?_ (.nil _) (ih hjoins.of_cons)
      · obtain ⟨q, ds, hquote, rfl⟩ := hopens.exists_cons hregular
        exact (hstyle.quote hquote).2 _
      · cases hopens with
        | triple htriple => exact .triple (CommentRules.startsTriple_triple htriple _)
        | single hquote _ => exact .single hquote (hjoins _ _ _ List.suffix_rfl)
    rw [Piece.keptLine_cons, Piece.kept, List.append_assoc]
    exact hempty
  | @openLiteral delimiter body hcomment hopens hbody =>
    have hempty : ReadsCode style (delimiter ++ []) [.openLiteral delimiter []]
        (.literal delimiter) := by
      refine .openLiteral ?_ ?_ (.inl (.nil _))
      · obtain ⟨q, ds, hquote, rfl⟩ := hopens.exists_cons hregular
        exact (hstyle.quote hquote).2 _
      · cases hopens with
        | triple htriple => exact .triple (CommentRules.startsTriple_triple htriple _)
        | single hquote _ => exact .single hquote (style.startsTriple_singleton _)
    exact hempty
  | comment _ _ _ ih => exact ih hjoins.of_cons
  | openComment _ _ => exact .stop
  | lineComment _ _ => exact .stop

/-- Blanks read as code. -/
theorem ReadsCode.blanks_append (hstyle : style.KeepsApart) {blanks text : List Char}
    (hblanks : Text.isBlank blanks = true) {pieces : List Piece} {after : Region}
    (h : ReadsCode style text pieces after) :
    ReadsCode style (blanks ++ text) (blanks.map Piece.code ++ pieces) after := by
  induction blanks with
  | nil => exact h
  | cons c blanks ih =>
    rw [Text.isBlank, List.all_cons, Bool.and_eq_true] at hblanks
    have hquote : style.isQuote c = false := by
      cases hquote : style.isQuote c with
      | false => rfl
      | true => rw [(hstyle.quote hquote).1] at hblanks; cases hblanks.1
    exact .code (hstyle.blank hblanks.1 _) hquote (ih hblanks.2)

/-- Blanks of code are kept in front of other pieces. -/
theorem Piece.keptLine_map_code_append (blanks : List Char) (pieces : List Piece) :
    keptLine (blanks.map Piece.code ++ pieces) = blanks ++ keptLine pieces := by
  induction blanks with
  | nil => rfl
  | cons c blanks ih => rw [List.map_cons, List.cons_append, keptLine_cons, ih]; rfl

/-- A literal that is open in the region begins with a quote. -/
def Region.OpensWithQuote (style : CommentRules) : Region → Prop
  | .literal delimiter => ∃ q ds, style.isQuote q = true ∧ delimiter = q :: ds
  | _ => True

/-- Code that is left in a literal is left in one that begins with a quote. -/
theorem ReadsCode.opensWithQuote (hregular : style.Regular) {text : List Char}
    {pieces : List Piece} {after : Region} (h : ReadsCode style text pieces after) :
    after.OpensWithQuote style := by
  induction h with
  | stop | openComment | lineComment => trivial
  | code _ _ _ ih | literal _ _ _ _ ih | comment _ _ _ ih => exact ih
  | openLiteral _ hopens _ => exact hopens.exists_cons hregular

/-- So is a line. -/
theorem ReadsLine.opensWithQuote (hregular : style.Regular) {region after : Region} {line : Line}
    {pieces : List Piece} (h : ReadsLine style region line pieces after)
    (hregion : region.OpensWithQuote style) : after.OpensWithQuote style := by
  cases h with
  | code h | literalRest _ _ h | commentRest _ _ h => exact h.opensWithQuote hregular
  | literalLine | commentLine => exact hregion

/-- What runs over the end of a line begins with a quote on the next line too. -/
theorem RunsOver.opensWithQuote {region next : Region} (h : RunsOver region next)
    (hregion : region.OpensWithQuote style) : next.OpensWithQuote style := by
  cases h with
  | code | single => trivial
  | comment | triple | template => exact hregion

/-- What runs over the end of a line does so in a copy without comments. -/
theorem RunsOver.withoutComment {region next : Region} (h : RunsOver region next) :
    RunsOver region.withoutComment next.withoutComment := by
  cases h with
  | code | comment => exact .code
  | triple q => exact .triple q
  | template => exact .template
  | single hq => exact .single hq

/-- Blanks in front of a text are trimmed from its front. -/
theorem Text.trimStart_blanks_append {blanks : List Char} (h : isBlank blanks = true)
    (text : List Char) : trimStart (blanks ++ text) = trimStart text :=
  List.dropWhile_append_of_pos (List.all_eq_true.mp h)

/-- Nothing is left of blanks. -/
theorem Text.trimStart_of_isBlank {blanks : List Char} (h : isBlank blanks = true) :
    trimStart blanks = [] := by
  rw [trimStart, List.dropWhile_eq_nil_iff]
  exact List.all_eq_true.mp h

/-- Blanks are all indentation. -/
theorem Text.indentation_of_isBlank {blanks : List Char} (h : isBlank blanks = true) :
    indentation blanks = blanks :=
  List.takeWhile_eq_self_iff.mpr (List.all_eq_true.mp h)

/-- A line of a copy reads as the line did, with nothing left to take out. -/
theorem ReadsLine.exists_reread (hregular : style.Regular) (hstyle : style.KeepsApart)
    {region after : Region} {line : Line} {pieces : List Piece}
    (h : ReadsLine style region line pieces after) (hregion : region.OpensWithQuote style)
    (hjoins : style.JoinsNoQuotes pieces) :
    ∃ pieces', ReadsLine style region.withoutComment (Piece.keptLine pieces) pieces'
      after.withoutComment ∧ Piece.keptLine pieces' = Piece.keptLine pieces := by
  have hindent := Text.isBlank_indentation line
  -- a comment that is taken out leaves its indentation as code, and a literal goes on as it did
  cases h with
  | code h =>
    exact ⟨_, .code (h.reread hregular hstyle hjoins), Piece.keptLine_skeletonLine pieces⟩
  | @literalLine delimiter _ _ =>
    have hkept : Piece.keptLine [.indentation (Text.indentation line),
        .literalLine (Text.trimStart line)] = Text.indentation line := List.append_nil _
    rw [hkept]
    have hread : ReadsLine style (.literal delimiter) (Text.indentation line) _ _ :=
      .literalLine (by rw [Text.trimStart_of_isBlank hindent]; exact .inl (.nil _))
    refine ⟨_, hread, ?_⟩
    rw [Text.indentation_of_isBlank hindent]
    exact List.append_nil _
  | @literalRest delimiter body rest _ pieces _ htext hbody hrest =>
    obtain ⟨q, ds, hquote, rfl⟩ := hregion
    have hspace := (hstyle.quote hquote).1
    have hkept : Piece.keptLine (.indentation (Text.indentation line) ::
        .literalRest body (q :: ds) :: pieces) =
        Text.indentation line ++ (q :: ds ++ Piece.keptLine pieces) := rfl
    have htrim : Text.trimStart (Text.indentation line ++ (q :: ds ++ Piece.keptLine pieces)) =
        [] ++ (q :: ds ++ Piece.keptLine pieces) := by
      rw [Text.trimStart_blanks_append hindent]
      exact List.dropWhile_cons_of_neg (by rw [hspace]; exact Bool.false_ne_true)
    have hread := hrest.reread hregular hstyle hjoins.of_cons.of_cons
    rw [hkept]
    refine ⟨_, .literalRest htrim (.nil _) hread, ?_⟩
    rw [Text.indentation_append hindent, List.cons_append,
      Text.indentation_cons_of_not_space hspace, List.append_nil, Piece.keptLine_cons,
      Piece.keptLine_cons, Piece.keptLine_skeletonLine]
    rfl
  | commentLine =>
    have hkept : Piece.keptLine [.indentation (Text.indentation line),
        .commentLine (Text.trimStart line)] = Text.indentation line ++ [] := rfl
    rw [hkept]
    exact ⟨_, .code (.blanks_append hstyle hindent .stop), Piece.keptLine_map_code_append _ _⟩
  | @commentRest closer body rest _ pieces _ htext hbody hrest =>
    have hkept : Piece.keptLine (.indentation (Text.indentation line) ::
        .commentRest body closer :: pieces) = Text.indentation line ++ Piece.keptLine pieces := rfl
    have hread := hrest.reread hregular hstyle hjoins.of_cons.of_cons
    rw [hkept]
    refine ⟨_, .code (.blanks_append hstyle hindent hread), ?_⟩
    rw [Piece.keptLine_map_code_append, Piece.keptLine_skeletonLine]

/-- The stripped copy of a file reads as pieces that are all kept, if no quotes are joined in it. -/
theorem ReadsLines.exists_reread (hregular : style.Regular) (hstyle : style.KeepsApart)
    {region : Region} {lines : List Line} {file : List (List Piece)}
    (h : ReadsLines style region lines file) (hregion : region.OpensWithQuote style)
    (hjoins : ∀ pieces ∈ file, style.JoinsNoQuotes pieces) :
    ∃ file', ReadsLines style region.withoutComment (file.map Piece.keptLine) file' ∧
      file'.map Piece.keptLine = file.map Piece.keptLine := by
  induction h with
  | nil region => exact ⟨[], .nil _, rfl⟩
  | @cons region after next line lines pieces file hline hover _ ih =>
    obtain ⟨hjoinsHere, hjoinsBelow⟩ := List.forall_mem_cons.mp hjoins
    obtain ⟨pieces', hread, hkept⟩ := hline.exists_reread hregular hstyle hregion hjoinsHere
    obtain ⟨file', hreads, hkepts⟩ :=
      ih (hover.opensWithQuote (hline.opensWithQuote hregular hregion)) hjoinsBelow
    refine ⟨pieces' :: file', .cons hread hover.withoutComment hreads, ?_⟩
    rw [List.map_cons, List.map_cons, hkept, hkepts]

end Reread

namespace CommentRules

/-- A copy stripped again is the same if nothing in it joins to three quotes. -/
theorem strip_strip_of_joinsNoQuotes {style : CommentRules} (hregular : style.Regular)
    (hstyle : style.KeepsApart) {lines : List Line} {file : List (List Piece)}
    (h : ReadsFile style lines file) (hjoins : ∀ pieces ∈ file, style.JoinsNoQuotes pieces) :
    style.strip (style.strip lines) = style.strip lines := by
  obtain ⟨file', hreads, hkept⟩ := ReadsLines.exists_reread hregular hstyle h trivial hjoins
  rw [strip_of_readsFile hregular h, strip_of_readsFile hregular hreads, hkept]

/-- Without triple quotes stripping twice is stripping once. -/
theorem strip_strip_of_tripleQuotes_eq_false {style : CommentRules} (hregular : style.Regular)
    (hstyle : style.KeepsApart) (htriple : style.tripleQuotes = false) (lines : List Line) :
    style.strip (style.strip lines) = style.strip lines := by
  have hcode : Region.code.Proper := trivial
  obtain ⟨file, hfile⟩ := exists_readsLines hregular hcode lines
  exact strip_strip_of_joinsNoQuotes hregular hstyle hfile fun pieces _ =>
    joinsNoQuotes_of_tripleQuotes_eq_false htriple pieces

/-- Under both kinds of slash comments, with hash comments and attributes beside them or without,
stripping a file twice is stripping it once. -/
theorem strip_strip_slash (lines : List Line) :
    slash.strip (slash.strip lines) = slash.strip lines ∧
      slashAndHash.strip (slashAndHash.strip lines) = slashAndHash.strip lines :=
  ⟨strip_strip_of_tripleQuotes_eq_false (regular_style .javascript) keepsApart_slash rfl lines,
    strip_strip_of_tripleQuotes_eq_false (regular_style .php) keepsApart_slashAndHash rfl lines⟩

/-- Comments in the middle of code, an attribute, and a template over two lines. -/
example : slashAndHash.strip (slashAndHash.strip ["#[A] a /* b */[ # c".toList, "/* '".toList,
    "  */ 'd' . \"e".toList]) = ["#[A] a [ ".toList, [], "   '' . \"".toList] := by
  rfl

end CommentRules

end SourceSurvey
