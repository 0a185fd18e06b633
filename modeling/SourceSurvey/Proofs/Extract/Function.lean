import SourceSurvey.Proofs.Extract.Signature
import SourceSurvey.Proofs.Extract.Start
import SourceSurvey.Proofs.Place.Number

/-!
# Functions as they are written

A file of one function: its header on one or several lines, and a body of blank and indented lines.
Main statement: whatever the parameters, the result, the literals, the line ends and the comments of
the header are, one function is read, on the first line, with the signature that was written.
-/

namespace SourceSurvey.Extract.Python

open Pattern

/-! ## The rows of a header -/

/-- A bare text without blanks around it is a part of a header. -/
theorem isHeaderPart_of_isBare {text : List Char} (h : ∀ c ∈ text, isBare c = true)
    (htight : Text.Tight text) : IsHeaderPart text :=
  ⟨htight, .of_isBare h, beginsUnquoted_of_isBare h⟩

/-- Every item of a list of parameters is a part of a header. -/
theorem ListItem.isHeaderPart (item : ListItem) : IsHeaderPart item.text := by
  have hunquoted := item.beginsUnquoted []
  rw [List.append_nil] at hunquoted
  exact ⟨item.tight, item.isExpression.isClosed, hunquoted⟩

/-- An item of a list closes the parentheses that it opens. -/
theorem ListItem.weight_text (item : ListItem) : weight item.text = 0 :=
  item.isExpression.parenBalance_stripped

theorem isHeaderPart_comma : IsHeaderPart [','] :=
  isHeaderPart_of_isBare (List.all_eq_true.mp (by decide)) (Text.Solid.tight (by decide))

/-- The end of a header closes one parenthesis. -/
theorem HeaderText.ending_part (h : HeaderText) :
    IsHeaderPart (')' :: h.resultText) ∧ weight (')' :: h.resultText) = -1 := by
  have hparen : Text.Tight [')'] := Text.Solid.tight (by decide)
  have hcolon : Text.Tight [':'] := Text.Solid.tight (by decide)
  unfold resultText
  cases h.result with
  | none =>
    have hbare : ∀ c ∈ "):".toList, isBare c = true := List.all_eq_true.mp (by decide)
    exact ⟨isHeaderPart_of_isBare hbare (hparen.append hcolon []), by decide⟩
  | some r =>
    have harrow : Text.Tight "->".toList := Text.Solid.tight (by decide)
    have hbefore : ∀ c ∈ ") -> ".toList, isBare c = true := List.all_eq_true.mp (by decide)
    have hend : IsClosed (r.text ++ [':']) :=
      r.isExpression.isClosed.append (.of_isBare (List.all_eq_true.mp (by decide))) rfl
    have hclosed : IsClosed (") -> ".toList ++ (r.text ++ [':'])) :=
      .char (by decide) (.char (by decide) (.char (by decide) (.char (by decide)
        (.char (by decide) hend))))
    have hweight : weight (r.text ++ [':']) = 0 := by
      have hcolon : BeginsUnquoted [':'] := rfl
      rw [r.isExpression.isClosed.weight_append hcolon, weight,
        r.isExpression.parenBalance_stripped]
      rfl
    have htight := hparen.append (harrow.append (r.tight.append hcolon []) [' ']) [' ']
    refine ⟨⟨htight, hclosed, rfl⟩, ?_⟩
    show weight (") -> ".toList ++ (r.text ++ [':'])) = -1
    rw [weight_append_of_isBare hbefore, hweight]
    rfl

/-- The pieces of a header but the last one leave its parenthesis open. -/
theorem ListedItem.part (x : ListedItem) :
    IsHeaderPart (x.item.text ++ (x.after.text ++ [','])) ∧
      weight (x.item.text ++ (x.after.text ++ [','])) = 0 := by
  refine ⟨x.item.isHeaderPart.append isHeaderPart_comma x.after, ?_⟩
  rw [x.item.isHeaderPart.weight_append isHeaderPart_comma, x.item.weight_text]
  rfl

/-- The last piece of a header closes its parenthesis. -/
theorem HeaderText.last_part (h : HeaderText) :
    IsHeaderPart (h.lastText ++ ')' :: h.resultText) ∧
      weight (h.lastText ++ ')' :: h.resultText) = -1 := by
  obtain ⟨hpart, hweight⟩ := h.ending_part
  unfold lastText
  cases h.last with
  | none => exact ⟨hpart, hweight⟩
  | some x =>
    rw [Option.map_some, Option.getD_some, List.append_assoc]
    refine ⟨x.1.isHeaderPart.append hpart x.2, ?_⟩
    rw [x.1.isHeaderPart.weight_append hpart, x.1.weight_text, hweight]
    rfl

/-- A header begins with its words, its name and one open parenthesis. -/
theorem HeaderText.opening_part (h : HeaderText) :
    (∀ c ∈ h.opening, isBare c = true) ∧ IsHeaderPart h.opening ∧ weight h.opening = 1 := by
  have hparen : Text.Tight ['('] := Text.Solid.tight (by decide)
  have hname := (h.name.solid fun _ => Text.isSpace_eq_false_of_isWord).tight
  have hdef : Text.Tight "def".toList := Text.Solid.tight (by decide)
  have hasync : Text.Tight "async".toList := Text.Solid.tight (by decide)
  have htight : Text.Tight h.opening := by
    have hdeclared := hdef.append (hname.append hparen []) [' ']
    unfold opening keyword
    cases h.isAsync with
    | false => exact hdeclared
    | true => exact hasync.append hdeclared [' ']
  have hkeyword : ∀ c ∈ h.keyword, isBare c = true := by
    unfold keyword
    cases h.isAsync <;> exact List.all_eq_true.mp (by decide)
  have hbare : ∀ c ∈ h.opening, isBare c = true := by
    intro c hc
    unfold opening at hc
    rcases List.mem_append.mp hc with hc | hc
    · exact hkeyword c hc
    · rcases List.mem_append.mp hc with hc | hc
      · exact isBare_of_isPlain (isPlain_of_isWord (h.name.chars c hc))
      · rw [List.mem_singleton.mp hc]
        decide
  -- the only parenthesis is the one that opens the list
  have hweight : parenBalance h.opening = 1 := by
    have hkeyword : parenBalance h.keyword = 0 := by
      unfold keyword
      cases h.isAsync <;> decide
    have hnone : parenBalance h.name.text = 0 := by
      rw [parenBalance, List.count_eq_zero_of_not_mem (not_mem_word (by decide) h.name),
        List.count_eq_zero_of_not_mem (not_mem_word (by decide) h.name)]
      rfl
    rw [opening, parenBalance_append, parenBalance_append, hkeyword, hnone]
    rfl
  refine ⟨hbare, isHeaderPart_of_isBare hbare htight, ?_⟩
  rw [weight, stripped_of_isBare hbare, hweight]

/-- Every piece of a header is a part of one, without a backslash before it. -/
theorem HeaderText.part_of_mem_pieces (h : HeaderText) :
    ∀ x ∈ h.pieces, x.1.hasSlash = false ∧ IsHeaderPart x.2 ∧ BeginsWithLoneWord x.2 := by
  intro x hx
  unfold pieces at hx
  rcases List.mem_append.mp hx with hx | hx
  · obtain ⟨listed, -, rfl⟩ := List.mem_map.mp hx
    exact ⟨listed.before.noSlash, listed.part.1, listed.item.beginsWithLoneWord listed.after
      (by decide) (by decide) (by decide) []⟩
  · rw [List.mem_singleton.mp hx]
    refine ⟨h.before.noSlash, h.last_part.1, ?_⟩
    show BeginsWithLoneWord (h.lastText ++ ')' :: h.resultText)
    unfold lastText
    cases h.last with
    | none =>
      exact ⟨[], [], ')', h.resultText, rfl, by simp, by simp, by decide, by decide, by decide⟩
    | some y =>
      rw [Option.map_some, Option.getD_some, List.append_assoc]
      exact y.1.beginsWithLoneWord y.2 (by decide) (by decide) (by decide) h.resultText

/-- The first row begins with the name, and on the others no function begins. -/
theorem HeaderText.exists_rows (h : HeaderText) :
    ∃ row rows, h.rows = row :: rows ∧ row.indent = .none ∧ (∃ more, row.text = h.opening ++ more) ∧
      ∀ r ∈ rows, r.text = [] ∨ BeginsWithLoneWord r.text := by
  have hfirst : ∀ text piece : List Char, (∃ more, text = h.opening ++ more) →
      BeginsWithLoneWord piece → ∀ blanks : Blanks,
      ∃ more, text ++ (blanks.text ++ piece) = h.opening ++ more := by
    rintro _ piece ⟨more, rfl⟩ - blanks
    exact ⟨more ++ (blanks.text ++ piece), List.append_assoc ..⟩
  obtain ⟨row, rows, hrows, hrow, hall⟩ := layOut_texts hfirst (fun _ _ h _ _ => h.append _)
    (fun x hx => (h.part_of_mem_pieces x hx).2.2) ⟨[], (List.append_nil h.opening).symm⟩ .none
    h.tail
  obtain ⟨row', rows', hrows', hindent⟩ := layOut_indent .none h.opening h.tail h.pieces
  obtain ⟨rfl, rfl⟩ := List.cons.inj (hrows.symm.trans hrows')
  exact ⟨row, rows, hrows, hindent, hrow, hall⟩

/-- Every row of a header closes its literals. -/
theorem HeaderText.closesLiterals_of_mem_rows (h : HeaderText) :
    ∀ row ∈ h.rows, ClosesLiterals row.text := by
  obtain ⟨row, rows, hrows, hrow, hall⟩ := layOut_texts (fun _ _ h h' => h.append h')
    (fun _ _ h h' => h.append h') (fun x hx => (h.part_of_mem_pieces x hx).2.1) h.opening_part.2.1
    .none h.tail
  intro r hr
  have hr : r ∈ row :: rows := hrows ▸ hr
  rcases List.mem_cons.mp hr with rfl | hr
  · exact hrow.closed.closesLiterals
  · rcases hall r hr with hnil | hpart
    · rw [hnil]
      exact IsClosed.nil.closesLiterals
    · exact hpart.closed.closesLiterals

/-- The rows of a header are joined to its text. -/
theorem HeaderText.joinHeader_rows (h : HeaderText) :
    joinHeader (some .hash) (h.rows.map Row.line) = h.joined := by
  rw [← append_spaced_pieces]
  exact joinHeader_layOut (fun x hx => ⟨(h.part_of_mem_pieces x hx).1,
    (h.part_of_mem_pieces x hx).2.1⟩) h.opening_part.2.1 .none h.tail

/-- The header ends with its last row. -/
theorem HeaderText.headerExtentFrom_rows (h : HeaderText) {row : Row} {rows : List Row}
    (hrows : h.rows = row :: rows) (below : List Line) :
    headerExtentFrom 0 ((row :: rows).map Row.code ++ below) = some rows.length := by
  -- each item is balanced, so the parenthesis stays open up to the last piece
  have hinner : ∀ x ∈ h.listed.map (fun x =>
      (x.before.gap, x.item.text ++ (x.after.text ++ [',']))),
      x.1.hasSlash = false ∧ IsHeaderPart x.2 ∧ weight x.2 = 0 := by
    intro x hx
    obtain ⟨listed, -, rfl⟩ := List.mem_map.mp hx
    exact ⟨listed.before.noSlash, listed.part⟩
  have hone : 0 + weight h.opening = 1 := by rw [h.opening_part.2.2, Int.zero_add]
  obtain ⟨row', rows', hrows', hextent⟩ := headerExtentFrom_layOut hinner h.before.noSlash
    h.last_part h.opening_part.2.1 hone .none h.tail below
  obtain ⟨rfl, rfl⟩ := List.cons.inj (hrows.symm.trans hrows')
  exact hextent

/-! ## The body -/

theorem branchCount_cons (code : Line) (codes : List Line) :
    branchCount (code :: codes) = branchesOf code + branchCount codes := rfl

/-- A blank line has no branches. -/
theorem branchesOf_of_isBlank {code : Line} (h : Text.isBlank code = true) :
    branchesOf code = 0 := by
  have htrim : Text.trim code = [] := Text.trim_eq_nil (List.all_eq_true.mp h)
  rw [branchesOf, htrim]
  rfl

/-- Blank lines at the end of a body are left out and have no branches. -/
theorem branchCount_take_indentedExtent {codes : List Line}
    (h : ∀ code ∈ codes, IsBodyLine code) :
    branchCount (codes.take (indentedExtent 0 codes)) = branchCount codes := by
  induction codes with
  | nil => rfl
  | cons code codes ih =>
    have hrest := ih fun c hc => h c (List.mem_cons_of_mem code hc)
    rw [indentedExtent]
    by_cases hblank : Text.isBlank code = true
    · rw [if_pos hblank, branchCount_cons, branchesOf_of_isBlank hblank, Nat.zero_add, ← hrest]
      cases indentedExtent 0 codes with
      | zero => rfl
      | succ n =>
        show branchCount (code :: codes.take (n + 1)) = _
        rw [branchCount_cons, branchesOf_of_isBlank hblank, Nat.zero_add]
    · have hindented := (isBodyLine_iff.mp (h code List.mem_cons_self)).resolve_left hblank
      rw [if_neg hblank, if_neg (by omega), List.take_succ_cons, branchCount_cons, branchCount_cons,
        hrest]

/-! ## The function of a file -/

/-- The function that is read from a header with a body that branches so often. -/
def HeaderText.routine (h : HeaderText) (complexity : Nat) : Routine where
  name := .ofList h.name.text
  params := h.items.filterMap ListItem.slot?
  returnType := (h.result.map fun r => .ofList r.text).getD untyped
  line := 1
  isAsync := h.isAsync
  isPrivate := h.name.text.head? == some '_'
  complexity := complexity

/-- The word, the name and the parenthesis on the first row are found. -/
theorem functionStart_opening (h : HeaderText) (rest : List Char) :
    functionStart.matchStart? (h.opening ++ rest) = some ([], h.isAsync, h.name.text) := by
  have hnothing : ∀ c ∈ ([] : List Char), Text.isSpace c = true := by simp
  have hname : (h.name.text ++ ([] ++ ("(".toList ++ rest))).head?.any Text.isSpace = false := by
    obtain ⟨c, cs, hcons⟩ := List.exists_cons_of_ne_nil h.name.ne_nil
    rw [hcons]
    exact Text.isSpace_eq_false_of_isWord (h.name.chars c (hcons ▸ List.mem_cons_self))
  have hdeclared : ∀ (indent : List Char) (async : Option Unit), Pattern.Takes (do
      lit "def"
      blanks1
      let name ← run1 Text.isWord
      blanks
      lit "("
      return (indent, async.isSome, name))
      ("def".toList ++ ([' '] ++ (h.name.text ++ ([] ++ ("(".toList ++ rest)))))
      (indent, async.isSome, h.name.text) rest := fun indent async =>
    (takes_lit "def" _).bind ((takes_blanks1 (by decide) Text.isSpace_of_mem_blank hname).bind
      ((takes_run h.name.chars (List.length_pos_iff.mpr h.name.ne_nil) rfl).bind
        ((takes_blanks hnothing rfl).bind ((takes_lit "(" rest).bind (takes_pure _ _)))))
  refine Takes.matchStart? (?_ : functionStart.Takes _ _ rest)
  have hopening : h.opening ++ rest =
      h.keyword ++ (h.name.text ++ ([] ++ ("(".toList ++ rest))) := by
    simp [HeaderText.opening]
  rw [hopening]
  unfold HeaderText.keyword
  -- the two keywords lead to the same pattern for the rest
  cases h.isAsync with
  | false =>
    have hnot : Pattern.Refuses (do lit "async"; blanks1)
        ("def".toList ++ ([' '] ++ (h.name.text ++ ([] ++ ("(".toList ++ rest))))) := by
      refine (refuses_lit ?_).bind _
      rintro ⟨more, hmore⟩
      cases (List.cons.inj hmore).1
    exact (takes_run hnothing (Nat.zero_le _) rfl).bind (hnot.opt.bind (hdeclared [] none))
  | true =>
    have hasync : Pattern.Takes (do lit "async"; blanks1)
        ("async".toList ++ ([' '] ++ ("def".toList ++ ([' '] ++ (h.name.text ++
          ([] ++ ("(".toList ++ rest))))))) () _ :=
      (takes_lit "async" _).bind (takes_blanks1 (by decide) Text.isSpace_of_mem_blank rfl)
    exact (takes_run hnothing (Nat.zero_le _) rfl).bind (hasync.opt.bind (hdeclared [] (some ())))

section File

variable {h : HeaderText} {row : Row} {rows : List Row} {body : List SourceLine}

/-- The place of a header at the start of a file. -/
def headerPlace (row : Row) (rows : List Row) (body : List SourceLine) : Place :=
  ⟨[], row.source, rows.map Row.source ++ body⟩

/-- From the header on the code is that of its rows, then that of the body. -/
theorem codeFromHere_headerPlace : (headerPlace row rows body).codeFromHere =
    (row :: rows).map Row.code ++ body.map (·.code) := by
  show row.code :: (rows.map Row.source ++ body).map (·.code) = _
  rw [List.map_append, List.map_map]
  rfl

/-- The first row begins with the opening of the header. -/
theorem exists_code_eq (hrows : h.rows = row :: rows) : ∃ rest, row.code = h.opening ++ rest := by
  obtain ⟨row', rows', hrows', hindent, ⟨more, hmore⟩, -⟩ := h.exists_rows
  obtain ⟨rfl, rfl⟩ := List.cons.inj (hrows.symm.trans hrows')
  refine ⟨stripped more ++ row.ending.code, ?_⟩
  rw [Row.code, hindent, hmore, stripped, stripFrom_of_isBare h.opening_part.1, List.append_assoc]
  rfl

/-- A header within the window extends over its rows. -/
theorem headerExtent_headerPlace (hrows : h.rows = row :: rows) (hlength : h.rows.length ≤ 20) :
    (headerPlace row rows body).headerExtent = rows.length := by
  obtain ⟨rest, hrest⟩ := exists_code_eq hrows
  have hparen : row.code.contains '(' = true := by
    rw [List.contains_iff_mem, hrest]
    simp [HeaderText.opening]
  -- the header fits into the lines in which its end is sought
  have hwindow : ((row :: rows).map Row.code ++ body.map (·.code)).take Place.headerWindow =
      (row :: rows).map Row.code ++
        (body.map (·.code)).take (Place.headerWindow - (row :: rows).length) := by
    rw [hrows] at hlength
    rw [List.take_append, List.length_map, List.take_of_length_le]
    rw [List.length_map]
    exact hlength
  rw [Place.headerExtent, codeFromHere_headerPlace]
  show (if row.code.contains '(' then (headerExtentFrom 0
    (((row :: rows).map Row.code ++ body.map (·.code)).take Place.headerWindow)).getD 0 else 0) = _
  rw [if_pos hparen, hwindow, h.headerExtentFrom_rows hrows]
  rfl

/-- A header within the window is read as its text. -/
theorem header_headerPlace (hrows : h.rows = row :: rows) (hlength : h.rows.length ≤ 20) :
    (headerPlace row rows body).header .hash = h.joined := by
  have hraw : (headerPlace row rows body).rawFromHere =
      (row :: rows).map Row.line ++ body.map (·.raw) := by
    show row.line :: (rows.map Row.source ++ body).map (·.raw) = _
    rw [List.map_append, List.map_map]
    rfl
  have htake : ((row :: rows).map Row.line ++ body.map (·.raw)).take (rows.length + 1) =
      (row :: rows).map Row.line := by
    have hrowsLength : rows.length + 1 = ((row :: rows).map Row.line).length := by simp
    rw [hrowsLength, List.take_left]
  rw [Place.header, headerExtent_headerPlace hrows hlength, hraw, htake, ← hrows, h.joinHeader_rows]

/-- The body of a function is what is indented below its header. -/
theorem map_code_indentedBody_headerPlace (hrows : h.rows = row :: rows)
    (hlength : h.rows.length ≤ 20) : (headerPlace row rows body).indentedBody.map (·.code) =
      (body.map (·.code)).take (indentedExtent 0 (body.map (·.code))) := by
  obtain ⟨rest, hrest⟩ := exists_code_eq hrows
  have hwidth : Text.indentWidth (headerPlace row rows body).code = 0 := by
    show Text.indentWidth row.code = 0
    rw [hrest, HeaderText.opening, HeaderText.keyword]
    cases h.isAsync <;> rfl
  have hafter : (((headerPlace row rows body).following.drop rows.length).map (·.code)) =
      body.map (·.code) := by
    have hfollowing : (headerPlace row rows body).following.map (·.code) =
        (rows.map Row.source ++ body).map (·.code) := by
      have hhere := congrArg (List.map (·.code))
        (map_here_placesFrom [row.source] (rows.map Row.source ++ body))
      rw [List.map_map] at hhere
      exact hhere
    rw [List.map_drop, hfollowing, List.map_append]
    exact List.drop_left' (by simp)
  unfold Place.indentedBody
  dsimp only
  rw [headerExtent_headerPlace hrows hlength, hwidth, List.map_take, hafter]

/-- The function at the start of a file is that of its header. -/
theorem topLevelFunction?_headerPlace (hrows : h.rows = row :: rows)
    (hlength : h.rows.length ≤ 20) (hbody : ∀ line ∈ body, IsBodyLine line.code) :
    topLevelFunction? (headerPlace row rows body) =
      some (h.routine (branchCount (body.map (·.code)))) := by
  obtain ⟨rest, hrest⟩ := exists_code_eq hrows
  have hstart : functionStart.matchStart? (headerPlace row rows body).code =
      some ([], h.isAsync, h.name.text) := by
    show functionStart.matchStart? row.code = _
    rw [hrest, functionStart_opening]
  have hbranches : branchCount ((headerPlace row rows body).indentedBody.map (·.code)) =
      branchCount (body.map (·.code)) := by
    rw [map_code_indentedBody_headerPlace hrows hlength]
    refine branchCount_take_indentedExtent fun code hcode => ?_
    obtain ⟨line, hline, rfl⟩ := List.mem_map.mp hcode
    exact hbody line hline
  unfold topLevelFunction?
  rw [hstart]
  dsimp only
  rw [functionAt_of_header (header_headerPlace hrows hlength), hbranches]
  rfl

end File

/-- A file of a written header and a body declares one function, on its first line, with the name,
the parameters and the result that were written. -/
theorem routines_extract (h : HeaderText) (hrows : h.rows.length ≤ 20) {body : List Line}
    (hbody : ∀ line ∈ body, IsBodyLine line) :
    (extract (h.rows.map Row.line ++ body)).routines =
      [h.routine (branchCount (CommentRules.hash.strip body))] := by
  obtain ⟨row, rows, hcons, -, -, hlone⟩ := h.exists_rows
  have hcodes : ∀ line ∈ sourceLines .hash body, IsBodyLine line.code := by
    intro line hline
    refine isBodyLine_of_mem_strip hbody line.code ?_
    rw [← map_code_sourceLines]
    exact List.mem_map_of_mem hline
  -- no further function begins, neither on a row of the header nor in the body
  have hothers : ∀ line ∈ rows.map Row.source ++ sourceLines .hash body,
      BeginsNoFunction line.code := by
    intro line hline
    rcases List.mem_append.mp hline with hline | hline
    · obtain ⟨r, hr, rfl⟩ := List.mem_map.mp hline
      exact Row.beginsNoFunction (hlone r hr)
    · exact (hcodes line hline).beginsNoFunction
  have hfirst := topLevelFunction?_headerPlace hcons hrows hcodes
  rw [map_code_sourceLines] at hfirst
  show (placesFrom [] (sourceLines .hash (h.rows.map Row.line ++ body))).filterMap
    topLevelFunction? = _
  rw [sourceLines_map_line h.closesLiterals_of_mem_rows, hcons, List.map_cons, List.cons_append,
    placesFrom]
  show (headerPlace row rows (sourceLines .hash body) :: _).filterMap topLevelFunction? = _
  rw [List.filterMap_cons_some hfirst, filterMap_topLevelFunction?_eq_nil hothers]

/-- Two parameters on two lines: a type with a comma in a group, a default with a hash in a literal,
and a result in quotes. -/
def twoLineHeader : HeaderText where
  isAsync := true
  name := ⟨"_f".toList, by decide, List.all_eq_true.mp (by decide)⟩
  listed := [{
    before := ⟨.onLine .none, rfl⟩
    item := .parameter {
      marker := .none
      name := ⟨['a'], by decide, List.all_eq_true.mp (by decide)⟩
      type := some ⟨"d[k, v]".toList,
        ⟨⟨'d', _, rfl, by decide⟩, "d[k, v".toList, ']', rfl, by decide⟩,
        .char (by decide) (by decide) (.group .square (.char (by decide) (by decide) (.comma
          (.char (by decide) rfl (.char (by decide) rfl .nil)))) .nil)⟩
      default := some ⟨"\"#\"".toList, ⟨⟨'"', _, rfl, by decide⟩, ['"', '#'], '"', rfl, by decide⟩,
        .literal (by decide) (List.forall_mem_singleton.mpr (by decide)) rfl .nil⟩ }
    after := .none }]
  before := ⟨.lines ⟨.none, some " first".toList⟩ []
    ⟨[' ', ' '], List.all_eq_true.mp (by decide), by decide⟩, rfl⟩
  last := some (.parameter {
    marker := .twoStars
    name := ⟨['b'], by decide, List.all_eq_true.mp (by decide)⟩
    type := none
    default := none }, .none)
  result := some ⟨"'R'".toList, ⟨⟨'\'', _, rfl, by decide⟩, ['\'', 'R'], '\'', rfl, by decide⟩,
    .literal (by decide) (List.forall_mem_singleton.mpr (by decide)) rfl .nil⟩
  tail := ⟨.none, none⟩

theorem routines_extract_twoLineHeader :
    twoLineHeader.rows.length ≤ 20 ∧ (∀ line ∈ ["  return a".toList], IsBodyLine line) ∧
      (extract ["async def _f(a: d[k, v] = \"#\",# first".toList, "  **b) -> 'R':".toList,
        "  return a".toList]).routines =
        [{ name := "_f", params := [⟨"a", "d[k, v]", some "\"#\""⟩, ⟨"**b", "Any", none⟩],
           returnType := "'R'", line := 1, isAsync := true, isPrivate := true }] := by
  have hrows : twoLineHeader.rows.length ≤ 20 := by decide
  have hbody : ∀ line ∈ ["  return a".toList], IsBodyLine line := by
    intro line hline
    rw [List.mem_singleton.mp hline]
    rfl
  have hlines : twoLineHeader.rows.map Row.line ++ ["  return a".toList] =
      ["async def _f(a: d[k, v] = \"#\",# first".toList, "  **b) -> 'R':".toList,
        "  return a".toList] := by decide
  have hbranches : branchCount (CommentRules.hash.strip ["  return a".toList]) = 0 := by
    decide +kernel
  have hroutine : twoLineHeader.routine 0 =
      { name := "_f", params := [⟨"a", "d[k, v]", some "\"#\""⟩, ⟨"**b", "Any", none⟩],
        returnType := "'R'", line := 1, isAsync := true, isPrivate := true } := by decide
  have hroutines := routines_extract twoLineHeader hrows hbody
  rw [hlines, hbranches, hroutine] at hroutines
  exact ⟨hrows, hbody, hroutines⟩

end SourceSurvey.Extract.Python
