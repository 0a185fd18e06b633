import SourceSurvey.Extract.Statement
import SourceSurvey.Proofs.Extract.Layout
import SourceSurvey.Proofs.Place.Append

/-!
# Statements that continue on further lines

A statement without literals that is read one line after the other, as long as it goes on: over a
backslash, or over a line end where the text read so far is open. Main statement: the lines of a
layout are joined to the pieces of the statement with blanks between them, and no line below the
layout is taken.
-/

namespace SourceSurvey.Extract

/-! ## Pieces -/

/-- A piece of an import statement: no comment, literal, backslash or line feed begins in it. -/
structure IsPiece (text : List Char) : Prop where
  tight : Text.Tight text
  isBare : ∀ c ∈ text, isBare c = true
  noSlash : '\\' ∉ text
  noFeed : '\n' ∉ text

/-- Two pieces with blanks between them are one. -/
theorem IsPiece.append {text piece : List Char} (h : IsPiece text) (hpiece : IsPiece piece)
    (blanks : Blanks) : IsPiece (text ++ (blanks.text ++ piece)) := by
  refine ⟨h.tight.append hpiece.tight blanks.text, ?_, ?_, ?_⟩
  · intro c hc
    simp only [List.mem_append] at hc
    rcases hc with hc | hc | hc
    · exact h.isBare c hc
    · exact isBare_of_isSpace (blanks.isSpace c hc)
    · exact hpiece.isBare c hc
  · simp only [List.mem_append, not_or]
    exact ⟨h.noSlash, Text.not_mem_of_class blanks.isSpace (by decide), hpiece.noSlash⟩
  · simp only [List.mem_append, not_or]
    exact ⟨h.noFeed, blanks.noFeed, hpiece.noFeed⟩

theorem isPiece_singleton {c : Char} (hspace : Text.isSpace c = false) (hbare : isBare c = true)
    (hslash : c ≠ '\\') (hfeed : c ≠ '\n') : IsPiece [c] := by
  refine ⟨⟨⟨c, [], rfl, hspace⟩, [], c, rfl, hspace⟩, ?_, ?_, ?_⟩
  · intro d hd
    rw [List.mem_singleton.mp hd]
    exact hbare
  · rw [List.mem_singleton]
    exact Ne.symm hslash
  · rw [List.mem_singleton]
    exact Ne.symm hfeed

/-! ## Joining lines -/

/-- How a statement goes on: always over a backslash, which is dropped, and over a line end where
the text so far is open. -/
structure Continues (goesOn : List Char → Bool) (extend : List Char → Line → List Char)
    (IsOpen : List Char → Prop) : Prop where
  slash : ∀ {text : List Char}, text.getLast? ≠ some '\\' → ∀ line,
    goesOn (text ++ ['\\']) = true ∧ extend (text ++ ['\\']) line = text ++ ' ' :: Text.trim line
  line : ∀ {text : List Char}, text.getLast? ≠ some '\\' → IsOpen text → ∀ line,
    goesOn text = true ∧ extend text line = text ++ ' ' :: Text.trim line
  space : ∀ {text : List Char}, IsOpen text → IsOpen (text ++ [' '])

theorem trimEndWhile_slash {text : List Char} (h : text.getLast? ≠ some '\\') :
    Text.trimEndWhile (· == '\\') text = text := by
  cases text using List.reverseRecOn with
  | nil => rfl
  | append_singleton cs c =>
    rw [List.getLast?_concat] at h
    exact Text.trimEndWhile_concat_of_neg (by simpa using h) cs

section Joining

variable {goesOn : List Char → Bool} {extend : List Char → Line → List Char}
  {IsOpen : List Char → Prop}

/-- A statement that does not go on takes no further line. -/
theorem extendWhile_of_not_goesOn {text : List Char} (h : goesOn text = false) (lines : List Line) :
    extendWhile goesOn extend text lines = (text, 0) := by
  cases lines with
  | nil => rfl
  | cons line lines => rw [extendWhile, if_neg (by rw [h]; exact Bool.false_ne_true)]

/-- A statement that goes on takes the next line and is read on from there. -/
theorem extendWhile_of_goesOn {text : List Char} (h : goesOn text = true) (line : Line)
    (lines : List Line) :
    extendWhile goesOn extend text (line :: lines) =
      ((extendWhile goesOn extend (extend text line) lines).1,
        (extendWhile goesOn extend (extend text line) lines).2 + 1) := by
  rw [extendWhile, if_pos h]

/-- The lines without a piece add a blank each to an open text. -/
theorem extendWhile_between (hc : Continues goesOn extend IsOpen) (between : List LineTail)
    {text : List Char} (hlast : text.getLast? ≠ some '\\') (hopen : IsOpen text) (line : Line)
    (lines : List Line) :
    extendWhile goesOn extend text ((between.map LineTail.row).map Row.code ++ line :: lines) =
      ((extendWhile goesOn extend (text ++ (List.replicate (between.length + 1) ' ' ++
          Text.trim line)) lines).1,
        (extendWhile goesOn extend (text ++ (List.replicate (between.length + 1) ' ' ++
          Text.trim line)) lines).2 + (between.length + 1)) := by
  -- an empty line adds one space, so the count of spaces grows with the lines between
  induction between generalizing text with
  | nil =>
    obtain ⟨hgoes, hextend⟩ := hc.line hlast hopen line
    show extendWhile goesOn extend text (line :: lines) = _
    rw [extendWhile_of_goesOn hgoes, hextend]
    rfl
  | cons tail between ih =>
    obtain ⟨hgoes, hextend⟩ := hc.line hlast hopen tail.row.code
    have hblank : Text.trim tail.row.code = [] := by
      refine Text.trim_eq_nil fun c hc => ?_
      have hcode : tail.row.code = tail.blanks.text := by
        show [] ++ (stripped [] ++ tail.blanks.text) = _
        rfl
      exact tail.blanks.isSpace c (hcode ▸ hc)
    have hlast' : (text ++ [' ']).getLast? ≠ some '\\' := by
      rw [List.getLast?_concat]
      decide
    rw [List.map_cons, List.map_cons, List.cons_append, extendWhile_of_goesOn hgoes, hextend,
      hblank, ih hlast' (hc.space hopen), List.length_cons]
    have hspaces : text ++ [' '] ++ (List.replicate (between.length + 1) ' ' ++ Text.trim line) =
        text ++ (List.replicate (between.length + 1 + 1) ' ' ++ Text.trim line) := by
      rw [List.replicate_succ (n := between.length + 1)]
      simp
    rw [hspaces]
    exact Prod.ext rfl (by dsimp only; omega)

/-- What ends in a piece does not end in a backslash. -/
theorem IsPiece.getLast?_append_ne {text : List Char} (h : IsPiece text) (before : List Char) :
    (before ++ text).getLast? ≠ some '\\' := by
  intro hlast
  rw [List.getLast?_append_of_ne_nil _ h.tight.ne_nil] at hlast
  exact h.noSlash (List.mem_of_getLast? hlast)

/-- Trimming a row leaves its piece. -/
theorem IsPiece.trim_code {text : List Char} (h : IsPiece text) (indent : Blanks)
    (tail : LineTail) : Text.trim (Row.code ⟨indent, text, .plain tail⟩) = text := by
  unfold Row.code
  dsimp only
  rw [stripped_of_isBare h.isBare]
  exact h.tight.trim_eq indent.isSpace tail.blanks.isSpace

/-- Trimming a row that is continued leaves its piece and the backslash. -/
theorem IsPiece.trim_code_slash {text : List Char} (h : IsPiece text) (indent blanks : Blanks) :
    Text.trim (Row.code ⟨indent, text, .slash blanks⟩) = text ++ blanks.text ++ ['\\'] := by
  have hslash : Text.Tight ['\\'] := Text.Solid.tight (by decide)
  have htight : Text.trim (indent.text ++ (text ++ (blanks.text ++ ['\\']) ++ [])) =
      text ++ (blanks.text ++ ['\\']) :=
    (h.tight.append hslash blanks.text).trim_eq indent.isSpace (by simp)
  unfold Row.code
  dsimp only
  rw [stripped_of_isBare h.isBare]
  show Text.trim (indent.text ++ (text ++ (blanks.text ++ ['\\']))) = _
  simpa using htight

/-- A row of a piece that ends with a backslash is joined to the line below it. -/
theorem IsPiece.extendWhile_slash {text : List Char} (h : IsPiece text)
    (hc : Continues goesOn extend IsOpen) (before : List Char) (indent blanks : Blanks)
    (line : Line) (lines : List Line) :
    extendWhile goesOn extend (before ++ Text.trim (Row.code ⟨indent, text, .slash blanks⟩))
        (line :: lines) =
      ((extendWhile goesOn extend (before ++ (text ++ (blanks.text ++ [' '])) ++ Text.trim line)
          lines).1,
        (extendWhile goesOn extend (before ++ (text ++ (blanks.text ++ [' '])) ++ Text.trim line)
          lines).2 + 1) := by
  have hlast : (before ++ (text ++ blanks.text)).getLast? ≠ some '\\' := by
    intro hlast
    rw [← List.append_assoc, List.getLast?_append] at hlast
    cases hblanks : blanks.text.getLast? with
    | none =>
      rw [hblanks, Option.none_or] at hlast
      exact h.getLast?_append_ne before hlast
    | some c =>
      rw [hblanks, Option.some_or] at hlast
      exact Text.ne_of_class (blanks.isSpace c (List.mem_of_getLast? hblanks)) (by decide)
        (Option.some.inj hlast)
  obtain ⟨hgoes, hextend⟩ := hc.slash hlast line
  have hshown : before ++ (text ++ blanks.text ++ ['\\']) =
      before ++ (text ++ blanks.text) ++ ['\\'] := by simp
  have hnext : before ++ (text ++ blanks.text) ++ ' ' :: Text.trim line =
      before ++ (text ++ (blanks.text ++ [' '])) ++ Text.trim line := by simp
  rw [h.trim_code_slash, hshown, extendWhile_of_goesOn hgoes, hextend, hnext]

/-- A row that leaves the text open is joined to the next line with a piece. -/
theorem IsPiece.extendWhile_lines {text : List Char} (h : IsPiece text)
    (hc : Continues goesOn extend IsOpen) {before : List Char} (hopen : IsOpen (before ++ text))
    (indent : Blanks) (tail : LineTail) (between : List LineTail) (line : Line)
    (lines : List Line) :
    extendWhile goesOn extend (before ++ Text.trim (Row.code ⟨indent, text, .plain tail⟩))
        ((between.map LineTail.row).map Row.code ++ line :: lines) =
      ((extendWhile goesOn extend (before ++ (text ++ List.replicate (between.length + 1) ' ') ++
          Text.trim line) lines).1,
        (extendWhile goesOn extend (before ++ (text ++ List.replicate (between.length + 1) ' ') ++
          Text.trim line) lines).2 + (between.length + 1)) := by
  have hnext : before ++ text ++ (List.replicate (between.length + 1) ' ' ++ Text.trim line) =
      before ++ (text ++ List.replicate (between.length + 1) ' ') ++ Text.trim line := by simp
  rw [h.trim_code, extendWhile_between hc between (h.getLast?_append_ne before) hopen, hnext]

/-- At every line end without a backslash the text so far is open. -/
def OpenAtLineEnds (IsOpen : List Char → Prop) (text : List Char)
    (pieces : List (Gap × List Char)) : Prop :=
  ∀ front gap piece back, pieces = front ++ (gap, piece) :: back → gap.endsLine = true →
    IsOpen (text ++ spaced front)

namespace OpenAtLineEnds

variable {text : List Char} {pieces : List (Gap × List Char)} {gap : Gap} {piece : List Char}

theorem of_endsLine_eq_false (h : ∀ x ∈ pieces, x.1.endsLine = false) :
    OpenAtLineEnds IsOpen text pieces := by
  intro front gap piece back hpieces hends
  have hgap : gap.endsLine = false := h (gap, piece) (by rw [hpieces]; simp)
  rw [hends] at hgap
  cases hgap

theorem head (h : OpenAtLineEnds IsOpen text ((gap, piece) :: pieces))
    (hends : gap.endsLine = true) : IsOpen text := by
  have hopen := h [] gap piece pieces rfl hends
  rwa [spaced, List.flatMap_nil, List.append_nil] at hopen

/-- Behind the first gap the same holds with one piece more. -/
theorem tail (h : OpenAtLineEnds IsOpen text ((gap, piece) :: pieces)) :
    OpenAtLineEnds IsOpen (text ++ (gap.spaces ++ piece)) pieces := by
  intro front gap' piece' back hpieces hends
  have hopen := h ((gap, piece) :: front) gap' piece' back (by rw [hpieces]; rfl) hends
  rwa [spaced_cons, ← List.append_assoc gap.spaces, ← List.append_assoc text] at hopen

end OpenAtLineEnds

/-- The lines of a layout are joined to its pieces with blanks between them, and no line below is
taken: the text goes on at every end of a line but the last. -/
theorem extendWhile_layOut (hc : Continues goesOn extend IsOpen)
    {pieces : List (Gap × List Char)} (hpieces : ∀ x ∈ pieces, IsPiece x.2) {text : List Char}
    (htext : IsPiece text) (indent : Blanks) (before : List Char) (tail : LineTail)
    (hopen : OpenAtLineEnds IsOpen (before ++ text) pieces)
    (hstop : goesOn (before ++ (text ++ spaced pieces)) = false) (below : List Line) :
    ∃ row rows, layOut indent text tail pieces = row :: rows ∧
      extendWhile goesOn extend (before ++ Text.trim row.code) (rows.map Row.code ++ below) =
        (before ++ (text ++ spaced pieces), rows.length) := by
  induction pieces generalizing text indent before with
  | nil =>
    refine ⟨_, _, rfl, ?_⟩
    rw [htext.trim_code]
    have hspaced : text ++ spaced [] = text := List.append_nil text
    rw [hspaced] at hstop ⊢
    exact extendWhile_of_not_goesOn hstop _
  | cons x rest ih =>
    obtain ⟨gap, piece⟩ := x
    have hpiece : IsPiece piece := hpieces (gap, piece) List.mem_cons_self
    have hrest : ∀ x ∈ rest, IsPiece x.2 := fun x hx => hpieces x (List.mem_cons_of_mem _ hx)
    have htail := hopen.tail
    rw [spaced_cons] at hstop ⊢
    -- on the same line the row grows, elsewhere it is joined to the rows of the rest
    cases gap with
    | onLine blanks =>
      obtain ⟨row, rows, hrows, hjoined⟩ := ih hrest (htext.append hpiece blanks) indent before
        (by simpa [Gap.spaces] using htail) (by simpa [Gap.spaces] using hstop)
      refine ⟨row, rows, hrows, ?_⟩
      rw [hjoined]
      simp [Gap.spaces]
    | slash blanks next =>
      obtain ⟨row, rows, hrows, hjoined⟩ := ih hrest hpiece next
        (before ++ (text ++ (blanks.text ++ [' '])))
        (by simpa [Gap.spaces] using htail) (by simpa [Gap.spaces] using hstop)
      refine ⟨_, _, rfl, ?_⟩
      rw [hrows, List.map_cons, List.cons_append, htext.extendWhile_slash hc, hjoined,
        List.length_cons]
      simp [Gap.spaces]
    | lines lineTail between next =>
      obtain ⟨row, rows, hrows, hjoined⟩ := ih hrest hpiece next
        (before ++ (text ++ List.replicate (between.length + 1) ' '))
        (by simpa [Gap.spaces] using htail) (by simpa [Gap.spaces] using hstop)
      refine ⟨_, _, rfl, ?_⟩
      rw [hrows, List.map_append, List.append_assoc, List.map_cons, List.cons_append,
        htext.extendWhile_lines hc (hopen.head rfl), hjoined, List.length_append, List.length_map,
        List.length_cons]
      refine Prod.ext ?_ ?_
      · simp [Gap.spaces]
      · dsimp only
        omega

end Joining

/-! ## The first row -/

/-- What is left of a row of a piece without the blanks around it. -/
theorem IsPiece.exists_trim_code {row : Row} (h : IsPiece row.text) :
    ∃ shown, Text.trim row.code = row.text ++ shown ∧ Text.Tight (row.text ++ shown) ∧
      '\n' ∉ shown := by
  obtain ⟨indent, text, ending⟩ := row
  cases ending with
  | plain tail =>
    refine ⟨[], ?_, ?_, by simp⟩
    · rw [h.trim_code, List.append_nil]
    · rw [List.append_nil]
      exact h.tight
  | slash blanks =>
    have hslash : Text.Tight ['\\'] := Text.Solid.tight (by decide)
    refine ⟨blanks.text ++ ['\\'], ?_, h.tight.append hslash blanks.text, ?_⟩
    · rw [h.trim_code_slash, List.append_assoc]
    · rw [List.mem_append, not_or]
      exact ⟨blanks.noFeed, by decide⟩

theorem trim_code_append {row : Row} {before : List Char} (h : IsPiece row.text)
    (hbefore : IsPiece (before ++ row.text)) :
    Text.trim (Row.code { row with text := before ++ row.text }) =
      before ++ Text.trim row.code := by
  obtain ⟨indent, text, ending⟩ := row
  cases ending with
  | plain tail => rw [h.trim_code, hbefore.trim_code]
  | slash blanks =>
    rw [h.trim_code_slash, hbefore.trim_code_slash, List.append_assoc, List.append_assoc,
      List.append_assoc]

/-- Behind the words that begin a statement, the first row and the rows below it are joined to the
pieces with blanks between them. -/
theorem exists_trim_code_layOut {goesOn : List Char → Bool} {extend : List Char → Line → List Char}
    {IsOpen : List Char → Prop} (hc : Continues goesOn extend IsOpen) {before first : List Char}
    (hbefore : ∀ text, IsPiece text → IsPiece (before ++ text)) (hfirst : IsPiece first)
    {pieces : List (Gap × List Char)} (hpieces : ∀ x ∈ pieces, IsPiece x.2)
    (hopen : OpenAtLineEnds IsOpen first pieces)
    (hstop : goesOn (first ++ spaced pieces) = false) (indent : Blanks) (tail : LineTail) :
    ∃ row rows, layOut indent (before ++ first) tail pieces = row :: rows ∧
      ∃ shown, Text.trim row.code = before ++ shown ∧ Text.Tight shown ∧ '\n' ∉ shown ∧
        ∀ below, extendWhile goesOn extend shown (rows.map Row.code ++ below) =
          (first ++ spaced pieces, rows.length) := by
  obtain ⟨row, rows, hrows, hrows'⟩ := layOut_append before indent first tail pieces
  obtain ⟨row', rows', hparts, hpiece, -⟩ :=
    layOut_texts (fun _ _ h h' => h.append h') (fun _ _ h h' => h.append h') hpieces hfirst indent
      tail
  obtain ⟨rfl, rfl⟩ := List.cons.inj (hrows.symm.trans hparts)
  obtain ⟨more, hmore, htight, hfeed⟩ := hpiece.exists_trim_code
  refine ⟨_, _, hrows', row.text ++ more, ?_, htight, ?_, fun below => ?_⟩
  · rw [trim_code_append hpiece (hbefore row.text hpiece), hmore]
  · rw [List.mem_append, not_or]
    exact ⟨hpiece.noFeed, hfeed⟩
  · obtain ⟨row', rows', hrows'', hextend⟩ := extendWhile_layOut hc hpieces hfirst indent
      [] tail hopen hstop below
    obtain ⟨rfl, rfl⟩ := List.cons.inj (hrows.symm.trans hrows'')
    rwa [List.nil_append, List.nil_append, hmore] at hextend

/-! ## Statements one after the other -/

/-- Reading goes on behind the places that a statement took. -/
theorem readStatements_eq_drop {α β : Type} (read : α → List β × Nat) (skip : Nat)
    (places : List α) :
    readStatements read skip places = readStatements read 0 (places.drop skip) := by
  induction places generalizing skip with
  | nil => cases skip <;> rfl
  | cons place places ih =>
    cases skip with
    | zero => rfl
    | succ skip => exact ih skip

/-- A statement that takes the lines below it is read, and reading goes on behind them. -/
theorem readStatements_placesFrom {β : Type} {read : Place → List β × Nat} {found : List β}
    {above : List SourceLine} {line : SourceLine} {lines below : List SourceLine} {taken : Nat}
    (h : read ⟨above, line, lines ++ below⟩ = (found, taken)) (htaken : taken = lines.length) :
    readStatements read 0 (placesFrom above (line :: (lines ++ below))) =
      found ++ readStatements read 0 (placesFrom ((line :: lines).reverse ++ above) below) := by
  rw [placesFrom, readStatements, h]
  dsimp only
  rw [htaken, readStatements_eq_drop, drop_placesFrom, List.reverse_cons, List.append_assoc]
  rfl

/-- Statements that are written one after the other are read one after the other: if each is read
from its rows whatever lines are above and below, all are. -/
theorem readStatements_flatMap {σ β : Type} {read : Place → List β × Nat} {rows : σ → List Row}
    {source : Row → SourceLine} {found : σ → Nat → List β} {written : Nat → List σ → List β}
    (hread : ∀ s, ∃ row rest, rows s = row :: rest ∧ ∀ above below : List SourceLine,
      read ⟨above, source row, rest.map source ++ below⟩ =
        (found s (above.length + 1), rest.length))
    (hnil : ∀ first, written first [] = [])
    (hcons : ∀ first s statements, written first (s :: statements) =
      found s first ++ written (first + (rows s).length) statements)
    (statements : List σ) (above : List SourceLine) :
    readStatements read 0 (placesFrom above ((statements.flatMap rows).map source)) =
      written (above.length + 1) statements := by
  induction statements generalizing above with
  | nil => exact (hnil (above.length + 1)).symm
  | cons s statements ih =>
    obtain ⟨row, rest, hrows, hplace⟩ := hread s
    have hbelow := readStatements_placesFrom
      (hplace above ((statements.flatMap rows).map source)) (List.length_map source).symm
    have habove : ((source row :: rest.map source).reverse ++ above).length + 1 =
        above.length + 1 + (rows s).length := by
      rw [hrows]
      simp only [List.length_append, List.length_reverse, List.length_cons, List.length_map]
      omega
    rw [List.flatMap_cons, List.map_append, hcons, ← habove, ← ih, ← hbelow, hrows]
    rfl

end SourceSurvey.Extract
