import SourceSurvey.Proofs.Code.Nested
import SourceSurvey.Proofs.Extract.Header
import SourceSurvey.Proofs.Extract.Parameter
import SourceSurvey.Proofs.Pattern.Preferred

/-!
# Signatures as they are written

The written form of the header of a Python function: its name, its items between parentheses, and
perhaps its result, on one line or with line ends behind the opening parenthesis and behind commas.
Main statement: from the joined header the parameters and the result are read as they were written.
-/

namespace SourceSurvey.Extract.Python

open Nesting Pattern

/-! ## Written headers -/

/-- A gap that continues no line by a backslash. -/
structure PlainGap where
  gap : Gap
  noSlash : gap.hasSlash = false

/-- An item with a comma behind it: what stands before the item, and the blanks before the comma. -/
structure ListedItem where
  before : PlainGap
  item : ListItem
  after : Blanks

/-- A result stands before the end of a line, where a hash would begin a comment. -/
def isNoComment (c : Char) : Bool := c != '#' && c != '\n'

/-- The header of a function as it is written. The last item has no comma behind it; a list may also
end with a comma, or have no items. -/
structure HeaderText where
  isAsync : Bool
  name : Word Text.isWord
  listed : List ListedItem
  before : PlainGap
  last : Option (ListItem × Blanks)
  result : Option (ExpressionText isAny isNoComment)
  tail : LineTail

/-- The part of a list up to a comma. -/
def ListedItem.cell (x : ListedItem) : List Char :=
  x.before.gap.spaces ++ (x.item.text ++ x.after.text)

namespace HeaderText

variable (h : HeaderText)

/-- All items of the list. -/
def items : List ListItem :=
  h.listed.map ListedItem.item ++ (h.last.map Prod.fst).toList

/-- The words before the name. -/
def keyword : List Char :=
  if h.isAsync then "async def ".toList else "def ".toList

/-- The header up to its opening parenthesis. -/
def opening : List Char :=
  h.keyword ++ (h.name.text ++ ['('])

/-- The last item, without a comma. -/
def lastText : List Char :=
  (h.last.map fun x => x.1.text ++ x.2.text).getD []

/-- What stands behind the list. -/
def resultText : List Char :=
  (h.result.map fun r => " -> ".toList ++ r.text).getD [] ++ [':']

/-- The pieces that line ends may stand between, but the first. -/
def pieces : List (Gap × List Char) :=
  h.listed.map (fun x => (x.before.gap, x.item.text ++ (x.after.text ++ [',']))) ++
    [(h.before.gap, h.lastText ++ ')' :: h.resultText)]

/-- The rows of the header. -/
def rows : List Row :=
  layOut .none h.opening h.tail h.pieces

/-- The list in the joined header. -/
def inside : List Char :=
  (h.listed.map ListedItem.cell).flatMap (· ++ [',']) ++ (h.before.gap.spaces ++ h.lastText)

/-- The joined header. -/
def joined : List Char :=
  (h.keyword ++ h.name.text) ++ '(' :: (h.inside ++ ')' :: h.resultText)

theorem append_spaced_pieces :
    h.opening ++ spaced h.pieces = h.joined := by
  have hlisted : ∀ listed : List ListedItem,
      spaced (listed.map fun x => (x.before.gap, x.item.text ++ (x.after.text ++ [',']))) =
        (listed.map ListedItem.cell).flatMap (· ++ [',']) := by
    intro listed
    unfold spaced
    rw [List.flatMap_map, List.flatMap_map]
    refine congrArg (listed.flatMap ·) (funext fun x => ?_)
    simp [ListedItem.cell]
  rw [opening, pieces, spaced_append, hlisted, joined, inside]
  simp [spaced]

end HeaderText

/-! ## The list in parentheses -/

theorem isPlain_of_isSpace {c : Char} (h : Text.isSpace c = true) (hfeed : c ≠ '\n') :
    isPlain c = true := by
  have hc : (Text.isSpace c && c != '\n') = true := by
    rw [h, Bool.true_and, bne_iff_ne]
    exact hfeed
  exact isPlain_of_class (p := fun d => Text.isSpace d && d != '\n') hc (by decide)

theorem Blanks.isExpression (blanks : Blanks) : IsExpression isAny isAny false blanks.text := by
  refine .of_isPlain fun c hc => ⟨isPlain_of_isSpace (blanks.isSpace c hc) ?_, rfl⟩
  rintro rfl
  exact blanks.noFeed hc

theorem Gap.isExpression_spaces (gap : Gap) : IsExpression isAny isAny false gap.spaces := by
  cases gap with
  | onLine blanks => exact Blanks.isExpression blanks
  | slash blanks indent =>
    exact (Blanks.isExpression blanks).append (.char (by decide) rfl .nil) rfl
  | lines tail between indent =>
    refine .of_isPlain fun c hc => ⟨?_, rfl⟩
    rw [List.eq_of_mem_replicate hc]
    decide

/-- An item does not begin with a literal. -/
theorem ListItem.beginsUnquoted (item : ListItem) (more : List Char) :
    BeginsUnquoted (item.text ++ more) := by
  cases item with
  | parameter p =>
    obtain ⟨c, cs, hcons, hword⟩ := p.exists_declared_eq
    have hdeclared : BeginsUnquoted (p.declared ++ more) := by
      rw [hcons]
      exact beginsUnquoted_of_isPlain (isPlain_of_isWord hword) _
    show BeginsUnquoted (p.marker.text ++ p.declared ++ more)
    cases p.marker with
    | none => exact hdeclared
    | star => exact beginsUnquoted_of_isPlain (by decide) _
    | twoStars => exact beginsUnquoted_of_isPlain (by decide) _
  | star => exact beginsUnquoted_of_isPlain (by decide) _
  | slash => exact beginsUnquoted_of_isPlain (by decide) _

theorem ListedItem.isExpression_cell (x : ListedItem) :
    IsExpression isAny isAny false x.cell :=
  (Gap.isExpression_spaces _).append
    (x.item.isExpression.append (Blanks.isExpression _) x.after.beginsUnquoted)
    (x.item.beginsUnquoted _)

/-- The last item with the gap before it is an expression. -/
theorem HeaderText.isExpression_last (h : HeaderText) :
    IsExpression isAny isAny false (h.before.gap.spaces ++ h.lastText) := by
  unfold lastText
  cases h.last with
  | none => exact (Gap.isExpression_spaces _).append .nil rfl
  | some x =>
    exact (Gap.isExpression_spaces _).append
      (x.1.isExpression.append (Blanks.isExpression _) x.2.beginsUnquoted)
      (x.1.beginsUnquoted _)

/-- An item is a part of a list. -/
theorem ListItem.isListPart (item : ListItem) : IsListPart item.text := by
  intro s hs
  have havoids : Avoids ',' s item.text :=
    item.isExpression.avoids (by decide) rfl (fun b => by cases b <;> decide) hs (Int.le_refl 0)
      fun h => nomatch h
  exact ⟨havoids, item.isExpression.run_standsAt hs⟩

theorem intercalate_concat (cells : List (List Char)) (last : List Char) :
    [','].intercalate (cells ++ [last]) = cells.flatMap (· ++ [',']) ++ last := by
  induction cells with
  | nil => exact List.intercalate_singleton
  | cons cell cells ih =>
    have hcons : [','].intercalate (cell :: (cells ++ [last])) =
        cell ++ ([','] ++ [','].intercalate (cells ++ [last])) := by
      cases cells <;> rw [← List.append_assoc] <;> exact List.intercalate_cons_cons
    rw [List.cons_append, hcons, ih]
    simp

/-- The list is its items joined by commas. Without a last item only white space stands behind the
last comma. -/
theorem HeaderText.exists_inside_eq_joinCells (h : HeaderText) :
    ∃ (cells : List (Cell ListItem)) (trailing : Option WhiteSpace),
      h.inside = joinCells ListItem.text cells trailing ∧ cells.map (·.part) = h.items := by
  let space (gap : Gap) : WhiteSpace := ⟨gap.spaces, Gap.isSpace_of_mem_spaces⟩
  let blanks (blanks : Blanks) : WhiteSpace := ⟨blanks.text, blanks.isSpace⟩
  let cells := h.listed.map fun x =>
    (⟨space x.before.gap, x.item, blanks x.after⟩ : Cell ListItem)
  have htext : cells.map (Cell.text ListItem.text) = h.listed.map ListedItem.cell := by
    rw [List.map_map]
    rfl
  have hpart : cells.map (·.part) = h.listed.map ListedItem.item := by
    rw [List.map_map]
    rfl
  unfold inside lastText items
  cases h.last with
  | none =>
    -- the white space behind the last comma, or in an empty list, is no cell
    refine ⟨cells, some (space h.before.gap), ?_, ?_⟩
    · rw [joinCells, htext]
      exact (congrArg _ (List.append_nil _)).trans (intercalate_concat _ _).symm
    · rw [hpart]
      exact (List.append_nil _).symm
  | some x =>
    refine ⟨cells ++ [⟨space h.before.gap, x.1, blanks x.2⟩], none, ?_, ?_⟩
    · rw [joinCells, List.map_append, htext]
      exact (intercalate_concat _ _).symm.trans (congrArg _ (List.append_nil _).symm)
    · rw [List.map_append, hpart]
      rfl

/-- The list of a header is split into its items. -/
theorem topLevelParts_inside (h : HeaderText) :
    topLevelParts ',' h.inside = h.items.map ListItem.text := by
  obtain ⟨cells, trailing, hinside, hitems⟩ := h.exists_inside_eq_joinCells
  rw [hinside, topLevelParts_joinCells ListItem.tight ListItem.isListPart, ← hitems, List.map_map]
  rfl

/-! ## Where the list stands in the header -/

/-- What stands between the parentheses of a header is an expression. -/
theorem HeaderText.isExpression_inside (h : HeaderText) :
    IsExpression isAny isAny true h.inside := by
  have hgroup : ∀ {text : List Char}, IsExpression isAny isAny false text →
      IsExpression isAny isAny true text := fun h =>
    h.imp (fun _ h => h) (fun _ h => h) fun _ => rfl
  unfold inside
  induction h.listed with
  | nil => exact hgroup h.isExpression_last
  | cons x listed ih =>
    have htext : ((x :: listed).map ListedItem.cell).flatMap (· ++ [',']) ++
        (h.before.gap.spaces ++ h.lastText) =
        x.cell ++ ',' :: ((listed.map ListedItem.cell).flatMap (· ++ [',']) ++
          (h.before.gap.spaces ++ h.lastText)) := by simp
    rw [htext]
    exact (hgroup x.isExpression_cell).append (.comma ih) rfl

/-- The opening parenthesis is sought from the word before the name on, and found behind the
name. -/
theorem findFrom?_joined (h : HeaderText) :
    Text.findFrom? ['('] h.joined (paramsSearchStart h.joined) =
      some (h.keyword ++ h.name.text).length := by
  have hname : '(' ∉ "def ".toList ++ h.name.text := by
    rw [List.mem_append, not_or]
    exact ⟨by decide, not_mem_word (by decide) h.name⟩
  have hfind := Text.find?_singleton_append hname (h.inside ++ ')' :: h.resultText)
  have hlength : ("def ".toList ++ h.name.text).length = h.name.text.length + 4 := by
    rw [List.length_append, Nat.add_comm]
    rfl
  rw [hlength] at hfind
  -- with `async` the search begins six characters later, on the same text
  unfold HeaderText.joined HeaderText.keyword
  cases h.isAsync with
  | false =>
    have hstart : paramsSearchStart ("def ".toList ++ h.name.text ++
        '(' :: (h.inside ++ ')' :: h.resultText)) = 0 := rfl
    rw [if_neg Bool.false_ne_true, hstart, Text.findFrom?, if_pos (Nat.zero_le _), List.drop_zero,
      hfind, hlength]
    rfl
  | true =>
    have hstart : paramsSearchStart ("async def ".toList ++ h.name.text ++
        '(' :: (h.inside ++ ')' :: h.resultText)) = 6 := rfl
    have hdrop : ("async def ".toList ++ h.name.text ++
        '(' :: (h.inside ++ ')' :: h.resultText)).drop 6 =
        "def ".toList ++ h.name.text ++ '(' :: (h.inside ++ ')' :: h.resultText) := rfl
    have hasync : ("async def ".toList ++ h.name.text).length = h.name.text.length + 4 + 6 := by
      rw [List.length_append, Nat.add_comm]
      rfl
    rw [if_pos rfl, hstart, Text.findFrom?, if_pos (by simp), hdrop, hfind, hasync]
    rfl

/-- The parenthesis is closed behind the list. -/
theorem closingParen?_joined (h : HeaderText) :
    closingParen? h.joined (h.keyword ++ h.name.text).length =
      some ((h.keyword ++ h.name.text) ++ '(' :: h.inside).length := by
  have hopen : (0 : Int) < 0 + 1 := by decide
  obtain ⟨last, hlast⟩ := h.isExpression_inside.closingFrom hopen (some '(') (')' :: h.resultText)
  have hclose : closingFrom '(' ')' (0 + 1) none last (')' :: h.resultText) = some 0 := rfl
  rw [closingParen?, closingBracket?, HeaderText.joined, List.drop_left]
  show ((closingFrom '(' ')' (0 + 1) none (some '(') (h.inside ++ ')' :: h.resultText)).map
    (· + 1)).map _ = _
  rw [hlast, hclose]
  refine congrArg some ?_
  simp only [List.length_append, List.length_cons]
  omega

/-- A header is its opening, its list in parentheses and its result. -/
theorem joined_eq_append (h : HeaderText) :
    h.joined = ((h.keyword ++ h.name.text) ++ '(' :: h.inside) ++ ')' :: h.resultText := by
  simp [HeaderText.joined]

/-! ## The result -/

/-- Behind a part of a result that does not reach its end, the end of a header is not found. -/
theorem refuses_headerEnd {front : List Char} {c : Char} (hc : Text.isSpace c = false)
    (hhash : '#' ∉ front ++ [c]) (hfeed : '\n' ∉ front ++ [c]) (type : List Char) :
    Pattern.Refuses (do
      blanks
      lit ":"
      blanks
      let _ ← opt (do lit "#"; run notLineFeed 0)
      atEnd
      return type) (front ++ [c] ++ [':']) := by
  have hcomment : Pattern.Reads (do lit "#"; run notLineFeed 0) fun t _ => '#' ∈ t := by
    refine (reads_lit "#").bind fun t _ ht => (reads_run _ 0).imp fun t' _ _ => ?_
    rw [ht]
    exact List.mem_append_left _ List.mem_cons_self
  have hnone : ∀ d, d ∉ front ++ [c] → d ≠ ':' → d ∉ front ++ [c] ++ [':'] := by
    intro d hd hcolon
    rw [List.mem_append, not_or, List.mem_singleton]
    exact ⟨hd, hcolon⟩
  refine reads_blanks.refuses_bind fun before rest _ htext hbefore => ?_
  refine (reads_lit ":").refuses_bind fun colon rest' _ hrest hcolon => ?_
  refine reads_blanks.refuses_bind fun after rest'' _ hrest' hafter => ?_
  refine (reads_opt hcomment).refuses_bind fun comment ending _ hrest'' hcomment' => ?_
  rw [hrest, hcolon, hrest', hrest''] at htext
  -- there is no hash sign, so the comment that may follow is not there
  have hempty : comment = [] := by
    refine hcomment'.resolve_right fun hmem => hnone '#' hhash (by decide) ?_
    rw [htext]
    simp [hmem]
  refine (refuses_atEnd ?_ ?_).bind _
  · -- blanks to the end would leave nothing of the result before the colon
    rintro rfl
    rw [hempty, List.append_nil, List.append_nil] at htext
    cases after using List.reverseRecOn with
    | nil =>
      have hbefore' : front ++ [c] = before := List.append_cancel_right htext
      rw [hbefore c (hbefore' ▸ List.mem_append_right _ List.mem_cons_self)] at hc
      cases hc
    | append_singleton ds d =>
      have hlast := congrArg List.getLast? htext
      rw [List.getLast?_concat, ← List.append_assoc, ← List.append_assoc, List.getLast?_concat]
        at hlast
      have hspace := hafter d (List.mem_append_right _ List.mem_cons_self)
      exact Text.ne_of_class hspace (by decide) (Option.some.inj hlast).symm
  · rintro rfl
    refine hnone '\n' hfeed (by decide) ?_
    rw [htext]
    simp

/-- A result is found behind its arrow, however far it goes on over colons. -/
theorem returnType_matchStart?_some (r : ExpressionText isAny isNoComment) :
    returnType.matchStart? (" -> ".toList ++ (r.text ++ [':'])) = some r.text := by
  have hnone : ∀ d, d = '\n' ∨ d = '#' → d ∉ r.text := by
    rintro d (rfl | rfl) <;>
    exact r.isExpression.not_mem (by decide) (by decide) (by decide) (by decide)
      (fun b => by cases b <;> decide) fun b => by cases b <;> decide
  have hfeeds : ∀ c ∈ r.text, notLineFeed c = true := by
    intro c hc
    have hne : c ≠ '\n' := fun h => hnone '\n' (.inl rfl) (h ▸ hc)
    simpa [notLineFeed] using hne
  obtain ⟨c, cs, hfirst, hc⟩ := r.tight.first
  obtain ⟨ds, d, hlast, hd⟩ := r.tight.last
  have hstarts : (r.text ++ [':']).head?.any Text.isSpace = false := by
    rw [hfirst]
    exact hc
  have hleast : 1 ≤ r.text.length := List.length_pos_iff.mpr r.tight.ne_nil
  have hnothing : ∀ c ∈ ([] : List Char), Text.isSpace c = true := by simp
  refine Takes.matchStart? (?_ : returnType.Takes _ _ [])
  show returnType.Takes ([' '] ++ ("->".toList ++ ([' '] ++ (r.text ++ [':'])))) _ _
  refine (takes_blanks Text.isSpace_of_mem_blank rfl).bind ((takes_lit "->" _).bind
    ((takes_blanks Text.isSpace_of_mem_blank hstarts).bind
      (takes_runLazy_bind hfeeds hleast ?_ ?_)))
  · -- a shorter run would leave the last character of the result, where the header does not end
    intro n _ hn
    have hcut : r.text.drop n = ds.drop n ++ [d] := by
      rw [hlast, List.length_append, List.length_singleton] at hn
      rw [hlast, List.drop_append_of_le_length (by omega)]
    have hpart : ∀ c, c ∉ r.text → c ∉ ds.drop n ++ [d] := fun c hc hmem =>
      hc (List.mem_of_mem_drop (hcut ▸ hmem))
    rw [hcut]
    exact refuses_headerEnd hd (hpart _ (hnone _ (.inr rfl))) (hpart _ (hnone _ (.inl rfl))) _
  · have hnocomment : Pattern.Refuses (do lit "#"; run notLineFeed 0) [] :=
      (refuses_lit (by decide)).bind _
    exact (takes_blanks hnothing rfl).bind ((takes_lit ":" []).bind
      ((takes_blanks hnothing rfl).bind (hnocomment.opt.bind (takes_atEnd.bind (takes_pure _ _)))))

/-- The type of the result is read as it was written. -/
theorem returnType_resultText (h : HeaderText) :
    (returnType.matchStart? h.resultText).map Text.trim = h.result.map (·.text) := by
  unfold HeaderText.resultText
  cases h.result with
  | none => rfl
  | some r =>
    rw [Option.map_some, Option.getD_some, List.append_assoc, returnType_matchStart?_some,
      Option.map_some, r.tight.trim]
    rfl

/-- From the joined header the parameters and the result are read as they were written. -/
theorem functionAt_of_header {p : Place} {h : HeaderText} (hheader : p.header .hash = h.joined)
    (isAsync : Bool) (name : List Char) :
    functionAt p isAsync name =
      { name := .ofList name
        params := h.items.filterMap ListItem.slot?
        returnType := (h.result.map fun r => .ofList r.text).getD untyped
        decorators := (p.decorators ["@"]).map .ofList
        line := p.number
        isAsync := isAsync
        isPrivate := name.head? == some '_'
        complexity := branchCount (p.indentedBody.map (·.code)) } := by
  have hparens : (do
      let opening ← Text.findFrom? ['('] h.joined (paramsSearchStart h.joined)
      let closing ← closingParen? h.joined opening
      return (opening, closing)) =
      some ((h.keyword ++ h.name.text).length,
        ((h.keyword ++ h.name.text) ++ '(' :: h.inside).length) := by
    rw [findFrom?_joined]
    show (closingParen? h.joined _ >>= fun closing => some (_, closing)) = _
    rw [closingParen?_joined]
    rfl
  -- the parentheses found in the joined header are the outermost ones of its list
  have hinside : (h.joined.take ((h.keyword ++ h.name.text) ++ '(' :: h.inside).length).drop
      ((h.keyword ++ h.name.text).length + 1) = h.inside := by
    rw [joined_eq_append, List.take_left, drop_append_cons]
  have hresult : h.joined.drop (((h.keyword ++ h.name.text) ++ '(' :: h.inside).length + 1) =
      h.resultText := by
    rw [joined_eq_append, drop_append_cons]
  unfold functionAt
  rw [hheader]
  dsimp only
  rw [hparens]
  dsimp only
  rw [hinside, hresult, params_of_topLevelParts (topLevelParts_inside h), returnType_resultText,
    Option.map_map]
  rfl

end SourceSurvey.Extract.Python
