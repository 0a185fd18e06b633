import SourceSurvey.Proofs.Comment.Reread

/-!
# Runs of quotes

Where three equal quotes are one delimiter, emptied literals that stand side by side leave a run of
quotes that may be read in another way: two literals between single quotes leave four quotes, and
these open a literal of three. Main statements: which files stripping leaves as they are is told by
the lengths of their runs of quotes, counted modulo six; so is whether a copy stripped again is the
same, and it always is where no quote stands directly behind a literal between single quotes of its
kind.
-/

namespace SourceSurvey

namespace CommentRules

variable {q : Char}

/-- A quote opens no comment. -/
theorem not_opensComment_of_isQuote (hq : hash.isQuote q = true) (text : List Char) :
    ¬ hash.OpensComment (q :: text) :=
  (keepsApart_hash.quote hq).2 text

/-- Three quotes start a literal. -/
theorem startsTriple_of_isQuote (hq : hash.isQuote q = true) (rest : List Char) :
    hash.startsTriple (q :: q :: q :: rest) = true := by
  rcases isQuote_hash_iff.mp hq with rfl | rfl <;> rfl

/-- Two quotes without a third one do not start a long literal. -/
theorem startsTriple_two {style : CommentRules} {rest : List Char} (h : rest.head? ≠ some q) :
    style.startsTriple (q :: q :: rest) = false := by
  cases htriple : style.startsTriple (q :: q :: rest) with
  | false => rfl
  | true =>
    obtain ⟨q', more, -, htext⟩ := startsTriple_eq_true htriple
    obtain ⟨rfl, htext⟩ := List.cons.inj htext
    rw [(List.cons.inj htext).2] at h
    exact absurd rfl h

end CommentRules

open CommentRules (not_opensComment_of_isQuote startsTriple_of_isQuote startsTriple_two)

/-! ## Files that stripping leaves as they are -/

/-- A text in code without hashes whose runs of quotes hold empty literals only: six quotes are one
between three quotes each, two more are one between single quotes, and only at the end of the text
one or three more open a literal. The region is the one that the next line begins in. -/
inductive RunsClose : List Char → Region → Prop where
  | stop : RunsClose [] .code
  | code {c : Char} {rest : List Char} {next : Region} :
      c ≠ '#' → CommentRules.hash.isQuote c = false → RunsClose rest next →
      RunsClose (c :: rest) next
  | run {q : Char} {count : Nat} {rest : List Char} {next : Region} :
      CommentRules.hash.isQuote q = true → 0 < count → count % 6 = 0 ∨ count % 6 = 2 →
      rest.head? ≠ some q → RunsClose rest next → RunsClose (List.replicate count q ++ rest) next
  | openSingle {q : Char} {count : Nat} :
      CommentRules.hash.isQuote q = true → count % 6 = 1 → RunsClose (List.replicate count q) .code
  | openTriple {q : Char} {count : Nat} :
      CommentRules.hash.isQuote q = true → count % 6 = 3 →
      RunsClose (List.replicate count q) (.literal [q, q, q])

/-- Lines that go on in a region, and whose runs of quotes hold empty literals only: the lines
inside a literal are blank, and only blanks stand before the quotes that close it. -/
inductive LinesClose : Region → List Line → Prop where
  | nil (region : Region) : LinesClose region []
  | code {line : Line} {next : Region} {lines : List Line} :
      RunsClose line next → LinesClose next lines → LinesClose .code (line :: lines)
  | blank {q : Char} {line : Line} {lines : List Line} :
      Text.isBlank line = true → LinesClose (.literal [q, q, q]) lines →
      LinesClose (.literal [q, q, q]) (line :: lines)
  | close {q : Char} {rest : List Char} {line : Line} {next : Region} {lines : List Line} :
      Text.trimStart line = [q, q, q] ++ rest → RunsClose rest next → LinesClose next lines →
      LinesClose (.literal [q, q, q]) (line :: lines)

/-- A text in code that reads so that nothing is taken out of it. -/
def ReadsBare (text : List Char) (next : Region) : Prop :=
  ∃ pieces after, ReadsCode .hash text pieces after ∧ Piece.keptLine pieces = text ∧
    RunsOver after next

namespace ReadsBare

variable {q : Char} {rest : List Char} {next : Region}

theorem stop : ReadsBare [] .code := ⟨[], .code, .stop, rfl, .code⟩

theorem code {c : Char} (hc : c ≠ '#') (hquote : CommentRules.hash.isQuote c = false)
    (h : ReadsBare rest next) : ReadsBare (c :: rest) next := by
  obtain ⟨pieces, after, hread, hkept, hover⟩ := h
  refine ⟨.code c :: pieces, after, .code ?_ hquote hread, ?_, hover⟩
  · rwa [CommentRules.opensComment_hash_iff]
  · rw [Piece.keptLine_cons, hkept]
    rfl

/-- An empty literal stands before what is read. -/
theorem literal {delimiter : List Char}
    (hcomment : ¬ CommentRules.hash.OpensComment (delimiter ++ (delimiter ++ rest)))
    (hopens : CommentRules.hash.OpensLiteral delimiter (delimiter ++ (delimiter ++ rest)))
    (h : ReadsBare rest next) : ReadsBare (delimiter ++ (delimiter ++ rest)) next := by
  obtain ⟨pieces, after, hread, hkept, hover⟩ := h
  have hempty : ReadsCode .hash (delimiter ++ ([] ++ (delimiter ++ rest)))
      (.literal delimiter [] :: pieces) after := .literal hcomment hopens (.nil _) hread
  refine ⟨_, after, hempty, ?_, hover⟩
  rw [Piece.keptLine_cons, hkept]
  exact List.append_assoc delimiter delimiter rest

/-- Six quotes are an empty literal between three quotes each. -/
theorem six (hq : CommentRules.hash.isQuote q = true) (h : ReadsBare rest next) :
    ReadsBare (List.replicate 6 q ++ rest) next := by
  have hliteral : ReadsBare ([q, q, q] ++ ([q, q, q] ++ rest)) next :=
    h.literal (not_opensComment_of_isQuote hq _) (.triple (startsTriple_of_isQuote hq _))
  exact hliteral

/-- Two quotes that no third one follows are an empty literal between single quotes. -/
theorem two (hq : CommentRules.hash.isQuote q = true) (hrest : rest.head? ≠ some q)
    (h : ReadsBare rest next) : ReadsBare (List.replicate 2 q ++ rest) next := by
  have hliteral : ReadsBare ([q] ++ ([q] ++ rest)) next :=
    h.literal (not_opensComment_of_isQuote hq _) (.single hq (startsTriple_two hrest))
  exact hliteral

/-- One quote at the end of a line opens a literal that ends with the line. -/
theorem one (hq : CommentRules.hash.isQuote q = true) : ReadsBare [q] .code := by
  have hopen : ReadsCode .hash ([q] ++ []) [.openLiteral [q] []] (.literal [q]) :=
    .openLiteral (not_opensComment_of_isQuote hq _)
      (.single hq (CommentRules.startsTriple_singleton _ q)) (.inl (.nil _))
  refine ⟨_, _, hopen, rfl, .single ?_⟩
  rintro rfl
  cases hq

/-- Three quotes at the end of a line open a literal that goes on below. -/
theorem three (hq : CommentRules.hash.isQuote q = true) :
    ReadsBare [q, q, q] (.literal [q, q, q]) := by
  have hopen : ReadsCode .hash ([q, q, q] ++ []) [.openLiteral [q, q, q] []]
      (.literal [q, q, q]) :=
    .openLiteral (not_opensComment_of_isQuote hq _) (.triple (startsTriple_of_isQuote hq _))
      (.inl (.nil _))
  exact ⟨_, _, hopen, rfl, .triple q⟩

/-- All quotes of a run but those beyond a multiple of six are empty literals. -/
theorem of_mod {count : Nat} (hq : CommentRules.hash.isQuote q = true)
    (h : ReadsBare (List.replicate (count % 6) q ++ rest) next) :
    ReadsBare (List.replicate count q ++ rest) next := by
  have hmore : ∀ m, ReadsBare (List.replicate (6 * m + count % 6) q ++ rest) next := by
    intro m
    induction m with
    | zero => rwa [Nat.mul_zero, Nat.zero_add]
    | succ m ih =>
      have hsix := ih.six hq
      rw [← List.append_assoc, ← List.replicate_add] at hsix
      rwa [Nat.mul_succ, Nat.add_comm (6 * m), Nat.add_assoc]
  rw [← Nat.div_add_mod count 6]
  exact hmore (count / 6)

end ReadsBare

/-- From a text whose runs of quotes hold empty literals only, nothing is taken out. -/
theorem RunsClose.readsBare {text : List Char} {next : Region} (h : RunsClose text next) :
    ReadsBare text next := by
  induction h with
  | stop => exact .stop
  | code hc hquote _ ih => exact ih.code hc hquote
  | run hq _ hcount hrest _ ih =>
    refine .of_mod hq ?_
    rcases hcount with hcount | hcount
    · rwa [hcount]
    · rw [hcount]
      exact ih.two hq hrest
  | @openSingle q count hq hcount =>
    rw [← List.append_nil (List.replicate count q)]
    refine .of_mod hq ?_
    rw [hcount]
    exact .one hq
  | @openTriple q count hq hcount =>
    rw [← List.append_nil (List.replicate count q)]
    refine .of_mod hq ?_
    rw [hcount]
    exact .three hq

/-- A line of which nothing is taken out is made of pieces of which nothing is. -/
theorem Piece.kept_eq_written_of_cons {p : Piece} {ps : List Piece}
    (h : keptLine (p :: ps) = writtenLine (p :: ps)) :
    p.kept = p.written ∧ keptLine ps = writtenLine ps := by
  rw [keptLine_cons, writtenLine_cons] at h
  have hpiece := p.kept_sublist
  have hpieces := keptLine_sublist ps
  have hlength := congrArg List.length h
  rw [List.length_append, List.length_append] at hlength
  have hle := hpiece.length_le
  have hles := hpieces.length_le
  exact ⟨hpiece.eq_of_length (by omega), hpieces.eq_of_length (by omega)⟩

/-- Six quotes before a text make its first run longer by six. -/
theorem RunsClose.six {q : Char} {rest : List Char} {next : Region}
    (hq : CommentRules.hash.isQuote q = true) (h : RunsClose rest next) :
    RunsClose (List.replicate 6 q ++ rest) next := by
  -- unless a run of the same quote follows, the six begin a run of their own
  have hnew : rest.head? ≠ some q → RunsClose (List.replicate 6 q ++ rest) next :=
    fun hrest => .run hq (by omega) (.inl rfl) hrest h
  have hhead : ∀ {q' : Char} {count : Nat} (more : List Char), 0 < count → q' ≠ q →
      (List.replicate count q' ++ more).head? ≠ some q := by
    intro q' count more hcount hne
    obtain ⟨n, rfl⟩ : ∃ n, count = n + 1 := ⟨count - 1, by omega⟩
    simpa [List.replicate_succ] using hne
  cases h with
  | stop => exact hnew nofun
  | @code c rest _ hc hquote h =>
    refine hnew fun hsame => ?_
    rw [List.head?_cons, Option.some_inj] at hsame
    rw [hsame, hq] at hquote
    cases hquote
  | @run q' count rest _ hq' hpos hcount hrest h =>
    by_cases hsame : q' = q
    · subst hsame
      rw [← List.append_assoc, ← List.replicate_add]
      exact .run hq (by omega) (by omega) hrest h
    · exact hnew (hhead _ hpos hsame)
  | @openSingle q' count hq' hcount =>
    by_cases hsame : q' = q
    · subst hsame
      rw [← List.replicate_add]
      exact .openSingle hq (by omega)
    · exact hnew (by simpa using hhead [] (by omega) hsame)
  | @openTriple q' count hq' hcount =>
    by_cases hsame : q' = q
    · subst hsame
      rw [← List.replicate_add]
      exact .openTriple hq (by omega)
    · exact hnew (by simpa using hhead [] (by omega) hsame)

/-- A reading of which nothing is taken out has runs of quotes with empty literals only. -/
theorem ReadsCode.runsClose {text : List Char} {pieces : List Piece} {after next : Region}
    (h : ReadsCode .hash text pieces after)
    (hkept : Piece.keptLine pieces = Piece.writtenLine pieces) (hover : RunsOver after next) :
    RunsClose text next := by
  -- what is kept whole has empty literals only and no comments
  induction h with
  | stop =>
    cases hover
    exact .stop
  | code hcomment hquote _ ih =>
    rw [CommentRules.opensComment_hash_iff] at hcomment
    exact .code hcomment hquote (ih (Piece.kept_eq_written_of_cons hkept).2 hover)
  | @literal delimiter body rest pieces after _ hopens _ _ ih =>
    obtain ⟨hpiece, hpieces⟩ := Piece.kept_eq_written_of_cons hkept
    obtain rfl : body = [] := List.self_eq_append_left.mp (List.append_cancel_left hpiece)
    have hrest := ih hpieces hover
    cases hopens with
    | @triple q _ htriple =>
      have hq := ((CommentRules.regular_style .python).triple_isQuote htriple).1
      exact hrest.six hq
    | @single q _ hq htwo =>
      -- a third quote would have made the reading start a long literal
      have hhead : rest.head? ≠ some q := by
        intro hsame
        obtain ⟨more, rfl⟩ := List.head?_eq_some_iff.mp hsame
        exact Bool.false_ne_true (htwo.symm.trans (startsTriple_of_isQuote hq more))
      have hrun : RunsClose (List.replicate 2 q ++ rest) next :=
        .run hq (by omega) (.inr rfl) hhead hrest
      exact hrun
  | @openLiteral delimiter body _ hopens _ =>
    obtain rfl : body = [] :=
      List.self_eq_append_right.mp (Piece.kept_eq_written_of_cons hkept).1
    cases hopens with
    | @triple q _ htriple =>
      have hq := ((CommentRules.regular_style .python).triple_isQuote htriple).1
      cases hover
      have hrun : RunsClose (List.replicate 3 q) (.literal [q, q, q]) := .openTriple hq rfl
      exact hrun
    | @single q _ hq _ =>
      cases hover with
      | template => cases hq
      | single =>
        have hrun : RunsClose (List.replicate 1 q) .code := .openSingle hq rfl
        exact hrun
  | comment hblock | openComment hblock => cases hblock
  | @lineComment comment _ hline =>
    obtain rfl : [] = comment := by simpa [Piece.keptLine, Piece.writtenLine, Piece.kept,
      Piece.written] using hkept
    cases hline

/-- A region from which lines close: code, or a literal between three quotes each. -/
def Region.IsClosing (region : Region) : Prop :=
  region = .code ∨ ∃ q, q ≠ '\\' ∧ region = .literal [q, q, q]

/-- A region from which lines close is proper. -/
theorem Region.IsClosing.proper {region : Region} (h : region.IsClosing) : region.Proper := by
  rcases h with rfl | ⟨q, hq, rfl⟩
  · trivial
  · exact ⟨q, hq, .inr rfl⟩

/-- Such a text leaves a region from which lines close. -/
theorem RunsClose.isClosing {text : List Char} {next : Region} (h : RunsClose text next) :
    next.IsClosing := by
  induction h with
  | stop | openSingle => exact .inl rfl
  | code _ _ _ ih | run _ _ _ _ _ ih => exact ih
  | openTriple hq =>
    refine .inr ⟨_, ?_, rfl⟩
    rintro rfl
    cases hq

/-- Lines whose runs of quotes close have a reading of which nothing is taken out. -/
theorem LinesClose.exists_readsLines {region : Region} {lines : List Line}
    (h : LinesClose region lines) :
    ∃ file, ReadsLines .hash region lines file ∧ file.map Piece.keptLine = lines := by
  induction h with
  | nil region => exact ⟨[], .nil region, rfl⟩
  | @code line next lines hruns _ ih =>
    obtain ⟨pieces, after, hread, hkept, hover⟩ := hruns.readsBare
    obtain ⟨file, hfile, hkepts⟩ := ih
    exact ⟨pieces :: file, .cons (.code hread) hover hfile, by rw [List.map_cons, hkept, hkepts]⟩
  | @blank q line lines hblank _ ih =>
    obtain ⟨file, hfile, hkepts⟩ := ih
    have htrim := Text.trimStart_of_isBlank hblank
    have hread : ReadsLine .hash (.literal [q, q, q]) line _ _ :=
      .literalLine (by rw [htrim]; exact .inl (.nil _))
    refine ⟨_, .cons hread (.triple q) hfile, ?_⟩
    rw [List.map_cons, hkepts, Text.indentation_of_isBlank hblank]
    exact congrArg (· :: lines) (List.append_nil line)
  | @close q rest line next lines htext hruns _ ih =>
    obtain ⟨pieces, after, hread, hkept, hover⟩ := hruns.readsBare
    obtain ⟨file, hfile, hkepts⟩ := ih
    have hline : ReadsLine .hash (.literal [q, q, q]) line
        (.indentation (Text.indentation line) :: .literalRest [] [q, q, q] :: pieces) after :=
      .literalRest htext (.nil _) hread
    refine ⟨_, .cons hline hover hfile, ?_⟩
    have hwhole : Text.indentation line ++ Text.trimStart line = line :=
      List.takeWhile_append_dropWhile
    rw [List.map_cons, hkepts, Piece.keptLine_cons, Piece.keptLine_cons, hkept]
    rw [htext] at hwhole
    exact congrArg (· :: lines) hwhole

/-- Lines with a reading of which nothing is taken out have runs of quotes that close. -/
theorem ReadsLines.linesClose {region : Region} {lines : List Line} {file : List (List Piece)}
    (h : ReadsLines .hash region lines file) (hregion : region.IsClosing)
    (hkept : file.map Piece.keptLine = lines) : LinesClose region lines := by
  induction h with
  | nil region => exact .nil region
  | @cons region after next line lines pieces file hread hover hrest ih =>
    obtain ⟨hline, hlines⟩ := List.cons.inj hkept
    have hbare : Piece.keptLine pieces = Piece.writtenLine pieces := hline.trans hread.written.symm
    cases hread with
    | code hread =>
      have hruns := hread.runsClose hbare hover
      exact .code hruns (ih hruns.isClosing hlines)
    | literalLine _ =>
      rcases hregion with hregion | ⟨q, hq, hregion⟩ <;> cases hregion
      obtain ⟨-, hbody⟩ := Piece.kept_eq_written_of_cons hbare
      have htrim : [] = Text.trimStart line := (Piece.kept_eq_written_of_cons hbody).1
      cases hover
      refine .blank ?_ (ih (.inr ⟨q, hq, rfl⟩) hlines)
      rw [Text.isBlank, List.all_eq_true]
      exact List.dropWhile_eq_nil_iff.mp htrim.symm
    | @literalRest delimiter body rest _ pieces _ htext _ hread =>
      rcases hregion with hregion | ⟨q, hq, hregion⟩ <;> cases hregion
      obtain ⟨-, hbelow⟩ := Piece.kept_eq_written_of_cons hbare
      obtain ⟨hpiece, hpieces⟩ := Piece.kept_eq_written_of_cons hbelow
      obtain rfl : body = [] := List.self_eq_append_left.mp hpiece
      have hruns := hread.runsClose hpieces hover
      exact .close htext hruns (ih hruns.isClosing hlines)
    | commentLine | commentRest => rcases hregion with hregion | ⟨_, -, hregion⟩ <;> cases hregion

namespace CommentRules

/-- Under hash comments stripping leaves a file as it is exactly if its runs of quotes close. -/
theorem strip_hash_eq_self_iff {lines : List Line} :
    hash.strip lines = lines ↔ LinesClose .code lines := by
  have hregular := regular_style .python
  constructor
  · intro h
    have hcode : Region.code.Proper := trivial
    obtain ⟨file, hfile⟩ := exists_readsLines hregular hcode lines
    exact hfile.linesClose (.inl rfl) ((strip_of_readsFile hregular hfile).symm.trans h)
  · intro h
    obtain ⟨file, hfile, hkept⟩ := h.exists_readsLines
    exact (strip_of_readsFile hregular hfile).trans hkept

end CommentRules

/-! ## Copies stripped again -/

/-- No quote stands directly behind a literal between single quotes of its kind. -/
def Piece.QuotesApart (pieces : List Piece) : Prop :=
  ∀ q body rest, literal [q] body :: rest <:+ pieces → (writtenLine rest).head? ≠ some q

/-- Pieces whose quotes stand apart do so behind the first one. -/
theorem Piece.QuotesApart.of_cons {p : Piece} {pieces : List Piece}
    (h : QuotesApart (p :: pieces)) : QuotesApart pieces :=
  fun q body rest hrest => h q body rest (List.suffix_cons_iff.mpr (.inr hrest))

theorem CommentRules.joinsNoQuotes_nil (style : CommentRules) : style.JoinsNoQuotes [] := by
  intro q body rest hrest
  cases List.suffix_nil.mp hrest

/-- A piece joins no quotes if it makes no three quotes with what is kept behind it. -/
theorem CommentRules.JoinsNoQuotes.cons {style : CommentRules} {p : Piece} {pieces : List Piece}
    (hp : ∀ q body, p = .literal [q] body →
      style.startsTriple (q :: q :: Piece.keptLine pieces) = false)
    (h : style.JoinsNoQuotes pieces) : style.JoinsNoQuotes (p :: pieces) := by
  intro q body rest hrest
  rcases List.suffix_cons_iff.mp hrest with hrest | hrest
  · obtain ⟨hpiece, rfl⟩ := List.cons.inj hrest
    exact hp q body hpiece.symm
  · exact h q body rest hrest

/-- Code whose quotes stand apart joins none. -/
theorem ReadsCode.joinsNoQuotes {text : List Char} {pieces : List Piece} {after : Region}
    (h : ReadsCode .hash text pieces after) (hapart : Piece.QuotesApart pieces) :
    CommentRules.hash.JoinsNoQuotes pieces := by
  induction h with
  | stop => exact CommentRules.joinsNoQuotes_nil _
  | code _ _ _ ih => exact .cons nofun (ih hapart.of_cons)
  | @literal delimiter body rest pieces after _ _ _ hread ih =>
    refine .cons ?_ (ih hapart.of_cons)
    rintro q body' hpiece
    cases hpiece
    have hhead := hapart q body pieces List.suffix_rfl
    rw [hread.written] at hhead
    refine startsTriple_two ?_
    -- what is kept begins with the next quote only if that quote is written there
    rcases CommentRules.head?_keptLine hread with hsame | ⟨_, _, hblock, _⟩ | ⟨-, hnone⟩
    · rwa [hsame]
    · cases hblock
    · rw [hnone]
      nofun
  | openLiteral | openComment | lineComment => exact .cons nofun (CommentRules.joinsNoQuotes_nil _)
  | comment _ _ _ ih => exact .cons nofun (ih hapart.of_cons)

/-- A line whose quotes stand apart joins none. -/
theorem ReadsLine.joinsNoQuotes {region after : Region} {line : Line} {pieces : List Piece}
    (h : ReadsLine .hash region line pieces after) (hapart : Piece.QuotesApart pieces) :
    CommentRules.hash.JoinsNoQuotes pieces := by
  cases h with
  | code h => exact h.joinsNoQuotes hapart
  | literalLine | commentLine =>
    exact .cons nofun (.cons nofun (CommentRules.joinsNoQuotes_nil _))
  | literalRest _ _ h | commentRest _ _ h =>
    exact .cons nofun (.cons nofun (h.joinsNoQuotes hapart.of_cons.of_cons))

/-- A file whose quotes stand apart on every line joins none. -/
theorem ReadsLines.joinsNoQuotes {region : Region} {lines : List Line} {file : List (List Piece)}
    (h : ReadsLines .hash region lines file)
    (hapart : ∀ pieces ∈ file, Piece.QuotesApart pieces) :
    ∀ pieces ∈ file, CommentRules.hash.JoinsNoQuotes pieces := by
  induction h with
  | nil => exact fun _ hpieces => nomatch hpieces
  | cons hline _ _ ih =>
    rw [List.forall_mem_cons] at hapart ⊢
    exact ⟨hline.joinsNoQuotes hapart.1, ih hapart.2⟩

/-- Under hash comments a copy stripped again is the same exactly if its runs of quotes close, and
so it is for every file in which no quote stands directly behind a literal between single quotes of
its kind. -/
theorem strip_strip_hash_eq_iff (lines : List Line) :
    (CommentRules.hash.strip (CommentRules.hash.strip lines) = CommentRules.hash.strip lines ↔
      LinesClose .code (CommentRules.hash.strip lines)) ∧
    ∀ file, ReadsFile .hash lines file → (∀ pieces ∈ file, Piece.QuotesApart pieces) →
      CommentRules.hash.strip (CommentRules.hash.strip lines) = CommentRules.hash.strip lines :=
  ⟨CommentRules.strip_hash_eq_self_iff, fun _ hfile hapart =>
    CommentRules.strip_strip_of_joinsNoQuotes (CommentRules.regular_style .python)
      CommentRules.keepsApart_hash hfile (hfile.joinsNoQuotes hapart)⟩

/-- Two literals between different quotes, side by side. -/
theorem strip_strip_hash_mixedQuotes :
    CommentRules.hash.strip (CommentRules.hash.strip ["'a'\"b\"".toList]) =
        CommentRules.hash.strip ["'a'\"b\"".toList] ∧
      LinesClose .code (CommentRules.hash.strip ["'a'\"b\"".toList]) := by
  have hsecond : ReadsCode .hash (['"'] ++ (['b'] ++ (['"'] ++ []))) [.literal ['"'] ['b']] .code :=
    .literal (not_opensComment_of_isQuote rfl _) (.single rfl rfl)
      (.char (by decide) (by decide) (.nil _)) .stop
  have hfirst : ReadsCode .hash (['\''] ++ (['a'] ++ (['\''] ++ "\"b\"".toList)))
      [.literal ['\''] ['a'], .literal ['"'] ['b']] .code :=
    .literal (not_opensComment_of_isQuote rfl _) (.single rfl rfl)
      (.char (by decide) (by decide) (.nil _)) hsecond
  have hfile : ReadsFile .hash ["'a'\"b\"".toList]
      [[.literal ['\''] ['a'], .literal ['"'] ['b']]] :=
    .cons (.code hfirst) .code (.nil _)
  have hapart : Piece.QuotesApart [.literal ['\''] ['a'], .literal ['"'] ['b']] := by
    intro q body rest hrest
    rcases List.suffix_cons_iff.mp hrest with hrest | hrest
    · cases hrest
      decide
    · rcases List.suffix_cons_iff.mp hrest with hrest | hrest
      · cases hrest
        decide
      · cases List.suffix_nil.mp hrest
  have htwice := (strip_strip_hash_eq_iff ["'a'\"b\"".toList]).2 _ hfile
    (List.forall_mem_singleton.mpr hapart)
  exact ⟨htwice, (strip_strip_hash_eq_iff ["'a'\"b\"".toList]).1.mp htwice⟩

/-- Two literals between the same quotes, side by side, and a line below. Stripped once they leave
four quotes, which the second time open a literal of three that goes on below. -/
theorem not_forall_strip_strip_hash :
    ¬ ∀ lines, CommentRules.hash.strip (CommentRules.hash.strip lines) =
      CommentRules.hash.strip lines := by
  intro h
  have honce : CommentRules.hash.strip ["x = 'a''b'".toList, "y = 1".toList] =
      ["x = ''''".toList, "y = 1".toList] := by decide
  have htwice : CommentRules.hash.strip ["x = ''''".toList, "y = 1".toList] =
      ["x = '''".toList, []] := by decide
  have hsame := h ["x = 'a''b'".toList, "y = 1".toList]
  rw [honce, htwice] at hsame
  exact absurd hsame (by decide)

end SourceSurvey
