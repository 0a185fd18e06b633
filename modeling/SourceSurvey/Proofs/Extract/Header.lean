import SourceSurvey.Code.Header
import SourceSurvey.Proofs.Code.Expression

/-!
# Headers over several lines

How a declaration's header is put together from the lines of a layout. Main statements: the joined
header is the text of the layout with blanks for its line ends, without comments, and the header
ends with the line on which its first parenthesis is closed.
-/

namespace SourceSurvey

/-- A part of a header: no blanks around it, its literals closed, and no literal at its start. -/
structure IsHeaderPart (text : List Char) : Prop where
  tight : Text.Tight text
  closed : IsClosed text
  unquoted : BeginsUnquoted text

/-- Two parts of a header with blanks between them are one. -/
theorem IsHeaderPart.append {text piece : List Char} (h : IsHeaderPart text)
    (hpiece : IsHeaderPart piece) (blanks : Blanks) :
    IsHeaderPart (text ++ (blanks.text ++ piece)) where
  tight := h.tight.append hpiece.tight blanks.text
  closed := h.closed.append (blanks.isClosed.append hpiece.closed hpiece.unquoted)
    (blanks.beginsUnquoted.append hpiece.unquoted)
  unquoted := h.unquoted.append (blanks.beginsUnquoted.append hpiece.unquoted)

/-! ## The joined text -/

/-- A line as a header shows it. -/
def shownLine (line : Line) : List Char :=
  Text.trim (CommentRules.hash.cutLineComment line)

/-- The lines of a header are joined by blanks. -/
theorem joinHeader_eq (lines : List Line) :
    joinHeader (some .hash) lines = [' '].intercalate (lines.map shownLine) := by
  rw [joinHeader, List.map_map]
  rfl

/-- Of a row of a header its part is shown. -/
theorem IsHeaderPart.shownLine_line {text : List Char} (h : IsHeaderPart text) (indent : Blanks)
    (tail : LineTail) : shownLine (Row.line ⟨indent, text, .plain tail⟩) = text :=
  trim_cutLineComment_line h.closed (.inr h.tight) indent tail h.unquoted

/-- A line without a piece shows nothing. -/
theorem shownLine_row (tail : LineTail) : shownLine tail.row.line = [] :=
  trim_cutLineComment_line .nil (.inl rfl) _ tail rfl

/-- The lines of a layout are joined to its text, with a blank for each line end. -/
theorem joinHeader_layOut {pieces : List (Gap × List Char)}
    (hpieces : ∀ x ∈ pieces, x.1.hasSlash = false ∧ IsHeaderPart x.2) {text : List Char}
    (htext : IsHeaderPart text) (indent : Blanks) (tail : LineTail) :
    joinHeader (some .hash) ((layOut indent text tail pieces).map Row.line) =
      text ++ spaced pieces := by
  rw [joinHeader_eq, List.map_map]
  exact intercalate_layOut (fun _ _ h hpiece => h.append hpiece)
    (fun _ h => h.shownLine_line) shownLine_row hpieces htext indent tail

/-! ## The last line -/

/-- Opening less closing parentheses that stripping keeps of a text. -/
def weight (text : List Char) : Int :=
  parenBalance (stripped text)

theorem parenBalance_of_isSpace {blanks : List Char} (h : ∀ c ∈ blanks, Text.isSpace c = true) :
    parenBalance blanks = 0 := by
  have hnone : ∀ d, Text.isSpace d = false → d ∉ blanks := fun d hd => Text.not_mem_of_class h hd
  rw [parenBalance, List.count_eq_zero_of_not_mem (hnone '(' (by decide)),
    List.count_eq_zero_of_not_mem (hnone ')' (by decide))]
  rfl

theorem Ending.parenBalance_code (ending : Ending) : parenBalance ending.code = 0 := by
  cases ending with
  | plain tail => exact parenBalance_of_isSpace tail.blanks.isSpace
  | slash blanks =>
    show parenBalance (blanks.text ++ ['\\']) = 0
    rw [parenBalance_append, parenBalance_of_isSpace blanks.isSpace]
    rfl

/-- The balance of a row is the weight of its text. -/
theorem Row.parenBalance_code (row : Row) : parenBalance row.code = weight row.text := by
  rw [Row.code, parenBalance_append, parenBalance_append,
    parenBalance_of_isSpace row.indent.isSpace, row.ending.parenBalance_code, Int.zero_add,
    Int.add_zero]
  rfl

/-- The weights of two texts add up when the first one closes its literals. -/
theorem IsClosed.weight_append {text more : List Char} (h : IsClosed text)
    (hmore : BeginsUnquoted more) : weight (text ++ more) = weight text + weight more := by
  rw [weight, h.closesLiterals.stripped_append hmore, parenBalance_append]
  rfl

theorem weight_append_of_isBare {text : List Char} (h : ∀ c ∈ text, isBare c = true)
    (more : List Char) : weight (text ++ more) = parenBalance text + weight more := by
  rw [weight, stripped, stripFrom_of_isBare h, parenBalance_append]
  rfl

theorem Blanks.weight_append (blanks : Blanks) (more : List Char) :
    weight (blanks.text ++ more) = weight more := by
  rw [weight_append_of_isBare fun c hc => isBare_of_isSpace (blanks.isSpace c hc),
    parenBalance_of_isSpace blanks.isSpace, Int.zero_add]

/-- The weights of two parts of a header add up. -/
theorem IsHeaderPart.weight_append {text piece : List Char} (h : IsHeaderPart text)
    (hpiece : IsHeaderPart piece) (blanks : Blanks) :
    weight (text ++ (blanks.text ++ piece)) = weight text + weight piece := by
  rw [h.closed.weight_append (blanks.beginsUnquoted.append hpiece.unquoted), blanks.weight_append]

section Extent

variable {balance : Int}

/-- A row that leaves parentheses open is followed by another line of the header. -/
theorem headerExtentFrom_open {row : Row} (h : 0 < balance + weight row.text) (codes : List Line) :
    headerExtentFrom balance (row.code :: codes) =
      (headerExtentFrom (balance + weight row.text) codes).map (· + 1) := by
  rw [headerExtentFrom, row.parenBalance_code]
  exact if_neg (by omega)

/-- A row that closes all parentheses is the last line of the header. -/
theorem headerExtentFrom_closed {row : Row} (h : balance + weight row.text ≤ 0)
    (codes : List Line) : headerExtentFrom balance (row.code :: codes) = some 0 := by
  rw [headerExtentFrom, row.parenBalance_code]
  exact if_pos h

/-- Blank lines and comments within a header count as its lines. -/
theorem headerExtentFrom_between (h : 0 < balance) (between : List LineTail) (codes : List Line) :
    headerExtentFrom balance ((between.map LineTail.row).map Row.code ++ codes) =
      (headerExtentFrom balance codes).map (· + between.length) := by
  induction between with
  | nil => simp
  | cons tail between ih =>
    have hweight : balance + weight tail.row.text = balance := Int.add_zero balance
    rw [List.map_cons, List.map_cons, List.cons_append, headerExtentFrom_open (by omega), hweight,
      ih, Option.map_map, List.length_cons]
    rfl

/-- A header whose last piece closes the one parenthesis that is open before it ends with the last
row of its layout. -/
theorem headerExtentFrom_layOut {inner : List (Gap × List Char)}
    (hinner : ∀ x ∈ inner, x.1.hasSlash = false ∧ IsHeaderPart x.2 ∧ weight x.2 = 0)
    {closing : Gap} (hclosing : closing.hasSlash = false) {last : List Char}
    (hlast : IsHeaderPart last ∧ weight last = -1) {text : List Char} (htext : IsHeaderPart text)
    (hopen : balance + weight text = 1) (indent : Blanks) (tail : LineTail) (below : List Line) :
    ∃ row rows, layOut indent text tail (inner ++ [(closing, last)]) = row :: rows ∧
      headerExtentFrom balance ((row :: rows).map Row.code ++ below) = some rows.length := by
  -- before each piece of the list one parenthesis is open, however the rows are broken
  induction inner generalizing text balance indent with
  | nil =>
    cases closing with
    | slash blanks next => cases hclosing
    | onLine blanks =>
      refine ⟨_, [], rfl, headerExtentFrom_closed ?_ below⟩
      dsimp only
      rw [htext.weight_append hlast.1]
      omega
    | lines lineTail between next =>
      refine ⟨⟨indent, text, .plain lineTail⟩, _, rfl, ?_⟩
      have hclosed : headerExtentFrom 1 (Row.code ⟨next, last, .plain tail⟩ :: below) = some 0 :=
        headerExtentFrom_closed (by dsimp only; omega) below
      rw [List.map_cons, List.cons_append, headerExtentFrom_open (by dsimp only; omega)]
      dsimp only
      rw [hopen, List.map_append, List.append_assoc, headerExtentFrom_between (by decide)]
      show ((headerExtentFrom 1 (Row.code ⟨next, last, .plain tail⟩ :: below)).map _).map _ = _
      rw [hclosed]
      simp [layOut]
  | cons x inner ih =>
    obtain ⟨gap, piece⟩ := x
    obtain ⟨hslash, hpart, hnone⟩ := hinner (gap, piece) List.mem_cons_self
    have hpiece : IsHeaderPart piece := hpart
    have hweight : weight piece = 0 := hnone
    have hrest : ∀ x ∈ inner, x.1.hasSlash = false ∧ IsHeaderPart x.2 ∧ weight x.2 = 0 :=
      fun x hx => hinner x (List.mem_cons_of_mem _ hx)
    cases gap with
    | slash blanks next => cases hslash
    | onLine blanks =>
      refine ih hrest (htext.append hpiece blanks) ?_ indent
      rw [htext.weight_append hpiece]
      omega
    | lines lineTail between next =>
      have hone : 1 + weight piece = 1 := by omega
      obtain ⟨row, rows, hrows, hextent⟩ := ih hrest hpiece hone next
      refine ⟨⟨indent, text, .plain lineTail⟩, between.map LineTail.row ++ row :: rows, ?_, ?_⟩
      · rw [← hrows]
        rfl
      · rw [List.map_cons, List.cons_append, headerExtentFrom_open (by dsimp only; omega)]
        dsimp only
        rw [hopen, List.map_append, List.append_assoc, headerExtentFrom_between (by decide),
          hextent, Option.map_some, Option.map_some, List.length_append, List.length_map,
          List.length_cons]
        exact congrArg some (by omega)

end Extent

end SourceSurvey
