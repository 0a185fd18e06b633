import SourceSurvey.Proofs.Code.Brace
import SourceSurvey.Proofs.Comment.Erasure
import SourceSurvey.Proofs.Extract.Declaration

/-!
# Rules of a stylesheet

A rule is read at the line of its opening brace: its name are the words in front of the brace, and
its attributes are read from the lines below it, one by one, up to the line of the closing brace.
Main statements: where every row of declarations stands on a line of its own, each declaration is
reported, with the value of the first mention of its name on the line, so that all of them keep their
values exactly if on no line the name of one is mentioned with another value before.
-/

namespace SourceSurvey.Extract.Css

open Pattern

-- a text is gone through by its own characters, not by all that there are
attribute [local instance (high)] List.decidableBAll

/-! ## The selector -/

/-- A character of a selector. -/
def isSelectorChar (c : Char) : Bool :=
  c != '\x7b' && c != '\x7d' && c != ';'

/-- A selector holds no brace and no semicolon. -/
theorem isSelectorChar_iff {c : Char} :
    isSelectorChar c = true ↔ c ≠ '\x7b' ∧ c ≠ '\x7d' ∧ c ≠ ';' := by
  simp [isSelectorChar, and_assoc]

/-- A selector has no braces. -/
theorem braceless_of_isSelectorChar {front : List Char} (h : ∀ c ∈ front, isSelectorChar c = true) :
    Braceless front :=
  ⟨Text.not_mem_of_class h (by decide), Text.not_mem_of_class h (by decide)⟩

/-- The pattern for the start of a rule reads a selector, blanks and a brace at the end of the line.
-/
theorem ruleStart_reads : ruleStart.Reads fun t selector =>
    (∃ c cs, selector = c :: cs ∧ isSelectorChar c = true) ∧
      (∀ c ∈ selector, isSelectorChar c = true) ∧
      ∃ gap, (∀ c ∈ gap, Text.isSpace c = true) ∧ t = selector ++ (gap ++ ['\x7b']) := by
  have hselector : (do let _ ← char isSelectorChar; runLazy isSelectorChar 0).Reads fun t _ =>
      (∃ c cs, t = c :: cs ∧ isSelectorChar c = true) ∧ ∀ c ∈ t, isSelectorChar c = true := by
    refine (reads_char isSelectorChar).bind fun t c hc => (reads_runLazy isSelectorChar 0).imp ?_
    rintro t' more ⟨rfl, -, hmore⟩
    obtain ⟨rfl, hc⟩ := hc
    exact ⟨⟨c, more, rfl, hc⟩, List.forall_mem_cons.mpr ⟨hc, hmore⟩⟩
  refine hselector.textOf.bind fun t selector ht => reads_blanks.bind fun gap _ hgap => ?_
  refine (reads_lit "\x7b").bind fun brace _ hbrace => reads_pure ?_
  obtain ⟨rfl, hfirst, hchars⟩ := ht
  exact ⟨hfirst, hchars, gap, hgap, by rw [hbrace]; simp⟩

/-- The pattern for the start of a rule can take a selector up to its brace. -/
theorem canTake_ruleStart {c : Char} {cs : List Char}
    (hselector : ∀ d ∈ c :: cs, isSelectorChar d = true) (rest : List Char) :
    ruleStart.CanTake (c :: cs ++ '\x7b' :: rest) (c :: cs) rest := by
  have hfirst := takes_char (hselector c List.mem_cons_self) (cs ++ '\x7b' :: rest)
  have hmore : (runLazy isSelectorChar 0).CanTake (cs ++ '\x7b' :: rest) cs ('\x7b' :: rest) :=
    canTake_runLazy (fun d hd => hselector d (List.mem_cons_of_mem c hd)) (Nat.zero_le _) _
  exact (hfirst.canTake.bind hmore).textOf.bind ((canTake_no_blanks _).bind
    ((takes_lit "\x7b" rest).canTake.bind (takes_pure _ rest).canTake))

/-- What is read in front of a brace has the words that stand there. -/
theorem ruleStart_matchStart? {front : List Char} (hfront : ∀ c ∈ front, isSelectorChar c = true)
    (hblank : Text.isBlank front = false) (rest : List Char) :
    ∃ selector, ruleStart.matchStart? (Text.trim (front ++ '\x7b' :: rest)) = some selector ∧
      Text.fields selector = Text.fields front := by
  have htrim : Text.trim (front ++ '\x7b' :: rest) =
      Text.trimStart front ++ '\x7b' :: Text.trimEnd rest := Text.trim_append_cons (by decide) _ _
  have hchars : ∀ c ∈ Text.trimStart front, isSelectorChar c = true := fun c hc =>
    hfront c ((List.dropWhile_sublist _).subset hc)
  rw [htrim]
  cases hfirst : Text.trimStart front with
  | nil =>
    rw [Text.isBlank, List.all_eq_false] at hblank
    obtain ⟨c, hc, hspace⟩ := hblank
    exact absurd (List.dropWhile_eq_nil_iff.mp hfirst c hc) hspace
  | cons c cs =>
    rw [hfirst] at hchars
    obtain ⟨r, hr⟩ := (canTake_ruleStart hchars (Text.trimEnd rest)).exists_first? none
    have hmatch : ruleStart.matchStart? (c :: cs ++ '\x7b' :: Text.trimEnd rest) = some r.1 :=
      Option.map_eq_some_iff.mpr ⟨r, hr, rfl⟩
    refine ⟨r.1, hmatch, ?_⟩
    obtain ⟨t, more, htext, -, hselector, gap, hgap, rfl⟩ := ruleStart_reads.of_matchStart? hmatch
    -- the brace that is read is the first one of the text
    have hnone : '\x7b' ∉ r.1 ++ gap := by
      rw [List.mem_append]
      rintro (hmem | hmem)
      · exact (isSelectorChar_iff.mp (hselector _ hmem)).1 rfl
      · exact Text.not_mem_of_class hgap (by decide) hmem
    have hnone' : '\x7b' ∉ c :: cs := fun hmem => (isSelectorChar_iff.mp (hchars _ hmem)).1 rfl
    have hsame : c :: cs ++ '\x7b' :: Text.trimEnd rest = r.1 ++ gap ++ '\x7b' :: more := by
      rw [htext]
      simp
    have hwords := congrArg (Text.beforeFirst '\x7b') hsame
    rw [Text.beforeFirst_append_cons hnone', Text.beforeFirst_append_cons hnone] at hwords
    rw [← Text.fields_append_isSpace hgap r.1, ← hwords, ← hfirst, Text.fields_trimStart]

/-- No rule starts with a brace alone. -/
theorem ruleStart_matchStart?_of_isBlank {front : List Char} (hblank : Text.isBlank front = true)
    (rest : List Char) : ruleStart.matchStart? (Text.trim (front ++ '\x7b' :: rest)) = none := by
  have hstart : Text.trimStart front = [] :=
    List.dropWhile_eq_nil_iff.mpr (List.all_eq_true.mp hblank)
  rw [Text.trim_append_cons (by decide), hstart, Option.eq_none_iff_forall_not_mem]
  intro selector hmatch
  obtain ⟨t, more, htext, ⟨c, cs, rfl, hc⟩, -, gap, -, rfl⟩ := ruleStart_reads.of_matchStart? hmatch
  obtain ⟨rfl, -⟩ := List.cons.inj htext
  cases hc

/-! ## What is read at a place -/

/-- The attributes of the rule that begins at a place. -/
def attributesAt (p : Place) : List Slot :=
  ((bodyWithDepths p).drop 1).flatMap fun (depth, q) => if depth = 1 then declarationsAt q else []

/-- The rule whose brace stands behind a text. -/
def ruleBehind (front : List Char) (attributes : List Slot) (number : Nat) : TypeDeclaration :=
  { name := .ofList ([' '].intercalate (Text.fields front)), attributes, line := number }

/-- A line with a selector and a brace starts a rule, unless the selector is blank. -/
theorem ruleAt?_of_code_eq {p : Place} {front rest : List Char}
    (hfront : ∀ c ∈ front, isSelectorChar c = true) (hcode : p.code = front ++ '\x7b' :: rest) :
    ruleAt? p = if Text.isBlank front then none
      else some (ruleBehind front (attributesAt p) p.number) := by
  rw [ruleAt?, hcode]
  cases hblank : Text.isBlank front with
  | true => rw [ruleStart_matchStart?_of_isBlank hblank]; rfl
  | false =>
    obtain ⟨selector, hmatch, hwords⟩ := ruleStart_matchStart? hfront hblank rest
    have hname := Text.trim_squeeze selector
    rw [hwords] at hname
    rw [hmatch, Option.map_some, if_neg Bool.false_ne_true, ruleBehind, ← hname]
    rfl

/-- No rule is read where no brace opens. -/
theorem ruleAt?_of_not_mem {p : Place} (h : '\x7b' ∉ p.code) : ruleAt? p = none := by
  rw [ruleAt?, Option.map_eq_none_iff, Option.eq_none_iff_forall_not_mem]
  intro selector hmatch
  obtain ⟨t, more, htext, -, -, gap, -, rfl⟩ := ruleStart_reads.of_matchStart? hmatch
  have hmem : '\x7b' ∈ Text.trim p.code := by
    rw [htext]
    simp
  exact h (Text.trim_subset _ hmem)

/-- A rule has the number of its line. -/
theorem ruleAt?_line {p : Place} {t : TypeDeclaration} (h : ruleAt? p = some t) :
    t.line = p.number := by
  obtain ⟨selector, -, rfl⟩ := Option.map_eq_some_iff.mp h
  rfl

/-! ## The lines of a body -/

/-- A line that is its own stripped copy. -/
def plainLine (line : Line) : SourceLine := ⟨line, line⟩

/-- A line below the brace is read as it stands, since the depth is one all through the body. -/
theorem flatMap_withDepths {above below : List SourceLine} {body : List Line} {last trail : Line}
    (hbody : ∀ line ∈ body, Braceless line) (hlast : Braceless last)
    (htrail : ∀ c ∈ trail, Text.isSpace c = true) :
    (withDepths 1 ((placesFrom above (body.map plainLine ++
        plainLine (last ++ '\x7d' :: trail) :: below)).take (body.length + 1))).flatMap
      (fun (depth, q) => if depth = 1 then declarationsAt q else []) =
        (body ++ [last]).flatMap slotsIn := by
  induction body generalizing above with
  | nil =>
    show declarationsAt _ ++ [] = slotsIn last ++ []
    rw [declarationsAt_of_closing hlast.no_opening hlast.no_closing htrail rfl rfl]
  | cons line body ih =>
    obtain ⟨hopen, hclose⟩ := hbody line List.mem_cons_self
    have hdepth : (1 : Int) + openBraces line - closeBraces line = 1 := by
      rw [openBraces, closeBraces, List.count_eq_zero.mpr hopen, List.count_eq_zero.mpr hclose]
      rfl
    -- the lines below are read from the same depth on, with one line more above them
    have hrest := @ih (plainLine line :: above) fun l hl => hbody l (List.mem_cons_of_mem _ hl)
    show declarationsAt ⟨above, plainLine line, _⟩ ++
      (withDepths (1 + openBraces line - closeBraces line) _).flatMap _ = _
    rw [hdepth, declarationsAt_of_line hopen hclose rfl rfl, List.cons_append, List.flatMap_cons]
    exact congrArg (slotsIn line ++ ·) hrest

section Body

variable {p : Place} {front first last trail : Line}
  (hfront : Braceless front) (hopen : (BraceScan.start.line front).parens = 0)
  (hfirst : Braceless first) (htrail : ∀ c ∈ trail, Text.isSpace c = true)
include hfront hopen hfirst htrail

/-- The attributes of a rule are those of the lines below its brace. -/
theorem attributesAt_opening {body : List Line} {below : List SourceLine}
    (hbody : ∀ line ∈ body, Braceless line) (hlast : Braceless last)
    (hparens : (BraceScan.start.scan (first :: (body ++ [last]))).parens = 0)
    (hcode : p.code = front ++ '\x7b' :: first)
    (hbelow : p.below = body.map plainLine ++ plainLine (last ++ '\x7d' :: trail) :: below) :
    attributesAt p = (body ++ [last]).flatMap slotsIn := by
  have hlines : p.codeFromHere = (front ++ '\x7b' :: first) ::
      (body ++ (last ++ '\x7d' :: trail) :: below.map (·.code)) := by
    rw [Place.codeFromHere, hbelow, List.map_append, List.map_map, List.map_cons, ← hcode]
    simp [Function.comp_def, plainLine, Place.code]
  have hextent : p.braceExtent = body.length + 1 := by
    rw [Place.braceExtent, hlines]
    exact braceExtent_opening hfront hopen hfirst hbody hlast hparens (.of_isSpace htrail) _
  have hdepth : (0 : Int) + openBraces p.code - closeBraces p.code = 1 := by
    have hopens : openBraces p.code = 1 := by
      rw [hcode, openBraces, List.count_append, List.count_cons_self,
        List.count_eq_zero.mpr hfront.no_opening, List.count_eq_zero.mpr hfirst.no_opening]
    have hcloses : closeBraces p.code = 0 := by
      rw [hcode, closeBraces, List.count_eq_zero]
      simp [hfront.no_closing, hfirst.no_closing]
    rw [hopens, hcloses]
    rfl
  have hplaces : (bodyWithDepths p).drop 1 = withDepths 1 ((placesFrom (p.here :: p.above)
      (body.map plainLine ++ plainLine (last ++ '\x7d' :: trail) :: below)).take
        (body.length + 1)) := by
    rw [bodyWithDepths, hextent, withDepths, hdepth, Place.following, hbelow]
    rfl
  rw [attributesAt, hplaces]
  exact flatMap_withDepths hbody hlast htrail

/-- A rule that closes on the line of its brace has none. -/
theorem attributesAt_closed (hparens : (BraceScan.start.line first).parens = 0)
    (hcode : p.code = front ++ '\x7b' :: (first ++ '\x7d' :: trail)) : attributesAt p = [] := by
  have hextent : p.braceExtent = 0 := by
    rw [Place.braceExtent, Place.codeFromHere]
    rw [Place.code] at hcode
    rw [hcode]
    exact braceExtent_closed hfront hopen hfirst hparens (.of_isSpace htrail) _
  rw [attributesAt, bodyWithDepths, hextent]
  rfl

end Body

/-! ## Rules in a file -/

/-- A line with no comment and no literal in it. -/
structure IsPlain (line : Line) : Prop where
  no_quote : ∀ c ∈ line, CommentRules.stylesheet.isQuote c = false
  no_comment : ¬ "/*".toList <:+: line

/-- A line without slashes and quotes is plain. -/
theorem isPlain_of_forall {line : Line}
    (h : ∀ c ∈ line, c ≠ '/' ∧ CommentRules.stylesheet.isQuote c = false) : IsPlain line :=
  ⟨fun c hc => (h c hc).2, fun hin => (h '/' (hin.subset List.mem_cons_self)).1 rfl⟩

/-- A closing brace between blanks is plain. -/
theorem isPlain_closing {gap trail : Line} (hgap : ∀ c ∈ gap, Text.isSpace c = true)
    (htrail : ∀ c ∈ trail, Text.isSpace c = true) : IsPlain (gap ++ '\x7d' :: trail) := by
  have hspace : ∀ c, Text.isSpace c = true → c ≠ '/' ∧ CommentRules.stylesheet.isQuote c = false := by
    intro c hc
    have hne : ∀ d, Text.isSpace d = false → c ≠ d := fun d hd => Text.ne_of_class hc hd
    simp [CommentRules.isQuote, CommentRules.stylesheet, hne '/' (by decide), hne '"' (by decide),
      hne '\'' (by decide)]
  refine isPlain_of_forall fun c hc => ?_
  rw [List.mem_append, List.mem_cons] at hc
  rcases hc with hc | rfl | hc
  · exact hspace c (hgap c hc)
  · decide
  · exact hspace c (htrail c hc)

/-- A plain line is its own stripped copy. -/
theorem stripLine_of_isPlain {line : Line} (h : IsPlain line) :
    CommentRules.stylesheet.stripLine .code line = (line, .code) := by
  show CommentRules.stylesheet.stripFrom 0 .code line = (line, .code)
  induction line with
  | nil => rfl
  | cons c cs ih =>
    have hrest : IsPlain cs := ⟨fun d hd => h.no_quote d (List.mem_cons_of_mem c hd),
      fun hin => h.no_comment (hin.trans (List.suffix_cons c cs).isInfix)⟩
    have hcomment : ¬ CommentRules.stylesheet.OpensComment (c :: cs) := by
      rintro (⟨opener, closer, hblock, hopens⟩ | hline)
      · cases hblock
        exact h.no_comment hopens.isInfix
      · cases hline
    have hkept := CommentRules.stripFrom_cons_of_plain (CommentRules.regular_style .css) hcomment
      (h.no_quote c List.mem_cons_self)
    exact hkept.trans (congrArg (fun r => (c :: r.1, r.2)) (ih hrest))

/-- Plain lines are stripped to themselves and change nothing below. -/
theorem stripLines_of_isPlain {lines : List Line} (h : ∀ line ∈ lines, IsPlain line)
    (below : List Line) : CommentRules.stylesheet.stripLines .code (lines ++ below) =
      lines ++ CommentRules.stylesheet.stripLines .code below := by
  induction lines with
  | nil => rfl
  | cons line lines ih =>
    rw [List.cons_append, CommentRules.stripLines, stripLine_of_isPlain (h line List.mem_cons_self)]
    exact congrArg (line :: ·) (ih fun l hl => h l (List.mem_cons_of_mem line hl))

/-- On lines with one brace that may open a rule, this rule is all that is found. -/
theorem filter_filterMap_ruleAt? {lead rest : List SourceLine} (above : List SourceLine)
    (here : SourceLine) (below : List SourceLine) (hlead : ∀ line ∈ lead, '\x7b' ∉ line.code)
    (hrest : ∀ line ∈ rest, '\x7b' ∉ line.code) :
    ((places (above ++ lead ++ here :: (rest ++ below))).filterMap ruleAt?).filter
        (fun t => decide (above.length < t.line ∧
          t.line ≤ above.length + (lead ++ here :: rest).length)) =
      (ruleAt? ⟨(above ++ lead).reverse, here, rest ++ below⟩).toList := by
  have hlength : (lead ++ here :: rest).length = lead.length + (rest.length + 1) := by simp
  -- a place has no part in what is found if it is outside the lines or has no brace
  have hnone : ∀ {ps : List Place}, (∀ q ∈ ps, q.number ≤ above.length ∨
      above.length + (lead ++ here :: rest).length < q.number ∨ '\x7b' ∉ q.code) →
      (ps.filterMap ruleAt?).filter (fun t => decide (above.length < t.line ∧
        t.line ≤ above.length + (lead ++ here :: rest).length)) = [] := by
    intro ps hps
    rw [List.filter_eq_nil_iff]
    intro t ht
    obtain ⟨q, hq, hfound⟩ := List.mem_filterMap.mp ht
    rw [decide_eq_true_iff, ruleAt?_line hfound]
    rcases hps q hq with habove | hbelow | hcode
    · omega
    · omega
    · rw [ruleAt?_of_not_mem hcode] at hfound
      cases hfound
  have hfirst : ∀ q ∈ (placesFrom [] (above ++ lead)).map
      (Place.overLines (here :: (rest ++ below))), q.number ≤ above.length ∨
        above.length + (lead ++ here :: rest).length < q.number ∨ '\x7b' ∉ q.code := by
    intro q hq
    obtain ⟨q, hmem, rfl⟩ := List.mem_map.mp hq
    obtain ⟨n, hnumber, hline⟩ := getElem?_of_mem_placesFrom hmem
    rw [List.length_nil, Nat.zero_add] at hnumber
    rcases Nat.lt_or_ge n above.length with hlt | hge
    · exact .inl (hnumber ▸ hlt)
    · rw [List.getElem?_append_right hge] at hline
      exact .inr (.inr (hlead _ (List.mem_of_getElem? hline)))
  have hlast : ∀ q ∈ placesFrom (here :: (above ++ lead).reverse) (rest ++ below),
      q.number ≤ above.length ∨ above.length + (lead ++ here :: rest).length < q.number ∨
        '\x7b' ∉ q.code := by
    intro q hq
    obtain ⟨n, hnumber, hline⟩ := getElem?_of_mem_placesFrom hq
    rw [List.length_cons, List.length_reverse, List.length_append] at hnumber
    rcases Nat.lt_or_ge n rest.length with hlt | hge
    · rw [List.getElem?_append_left hlt] at hline
      exact .inr (.inr (hrest _ (List.mem_of_getElem? hline)))
    · exact .inr (.inl (by omega))
  rw [places, placesFrom_append, List.append_nil, placesFrom, List.filterMap_append,
    List.filter_append, hnone hfirst, List.nil_append, List.filterMap_cons]
  cases hfound : ruleAt? ⟨(above ++ lead).reverse, here, rest ++ below⟩ with
  | none => exact hnone hlast
  | some t =>
    have hline : t.line = above.length + lead.length + 1 := by
      rw [ruleAt?_line hfound, Place.number, List.length_reverse, List.length_append]
    show List.filter _ (t :: _) = [t]
    rw [List.filter_cons, if_pos]
    · exact congrArg (t :: ·) (hnone hlast)
    · rw [decide_eq_true_iff]
      omega

/-- The types that a file declares on the lines between others. -/
def typesWithin (before part after : List Line) : List TypeDeclaration :=
  (extract (before ++ (part ++ after))).types.filter fun t =>
    before.length < t.line ∧ t.line ≤ before.length + part.length

/-- Where one line of some has a brace that may open a rule, they declare this rule. -/
theorem exists_typesWithin_eq {before lead rest : List Line} {header code : Line} {region : Region}
    (hbefore : CommentRules.stylesheet.regionAfter .code before = .code)
    (hlead : ∀ line ∈ lead, IsPlain line ∧ '\x7b' ∉ line)
    (hheader : CommentRules.stylesheet.stripLine .code header = (code, region))
    (hregion : CommentRules.carried region = .code)
    (hrest : ∀ line ∈ rest, IsPlain line ∧ '\x7b' ∉ line) (after : List Line) :
    ∃ p : Place, p.number = before.length + lead.length + 1 ∧ p.code = code ∧
      (∃ below, p.below = rest.map plainLine ++ below) ∧
        typesWithin before (lead ++ header :: rest) after = (ruleAt? p).toList := by
  let kept := List.zipWith SourceLine.mk after (CommentRules.stylesheet.stripLines .code after)
  have hself : ∀ lines : List Line, List.zipWith SourceLine.mk lines lines = lines.map plainLine :=
    fun lines => List.zipWith_self
  have hopens : ∀ {lines : List Line}, (∀ line ∈ lines, IsPlain line ∧ '\x7b' ∉ line) →
      ∀ line ∈ lines.map plainLine, '\x7b' ∉ line.code := by
    intro lines hlines line hmem
    obtain ⟨l, hl, rfl⟩ := List.mem_map.mp hmem
    exact (hlines l hl).2
  have hstrip : CommentRules.stylesheet.stripLines .code (lead ++ header :: (rest ++ after)) =
      lead ++ code :: (rest ++ CommentRules.stylesheet.stripLines .code after) := by
    rw [stripLines_of_isPlain fun line hline => (hlead line hline).1, CommentRules.stripLines,
      hheader]
    show lead ++ code :: CommentRules.stylesheet.stripLines (CommentRules.carried region) _ = _
    rw [hregion, stripLines_of_isPlain fun line hline => (hrest line hline).1]
  -- but for the header every line of the part is its own stripped copy
  have hsource : sourceLines .stylesheet (before ++ (lead ++ header :: rest ++ after)) =
      sourceLines .stylesheet before ++ lead.map plainLine ++ ⟨header, code⟩ ::
        (rest.map plainLine ++ kept) := by
    rw [List.append_assoc, List.cons_append, sourceLines_append_eq, hbefore, hstrip,
      List.zipWith_append rfl, List.zipWith_cons_cons, List.zipWith_append rfl, hself, hself,
      ← List.append_assoc]
  have hfound := filter_filterMap_ruleAt? (sourceLines .stylesheet before) ⟨header, code⟩ kept
    (hopens hlead) (hopens hrest)
  have hlength : (lead.map plainLine ++ ⟨header, code⟩ :: rest.map plainLine).length =
      (lead ++ header :: rest).length := by simp
  rw [← hsource, length_sourceLines, hlength] at hfound
  refine ⟨⟨(sourceLines .stylesheet before ++ lead.map plainLine).reverse, ⟨header, code⟩,
    rest.map plainLine ++ kept⟩, ?_, rfl, ⟨kept, rfl⟩, hfound⟩
  rw [Place.number, List.length_reverse, List.length_append, length_sourceLines, List.length_map]

section Rule

variable {before lead : List Line} {header front first last trail : Line} {region : Region}
  (hbefore : CommentRules.stylesheet.regionAfter .code before = .code)
  (hlead : ∀ line ∈ lead, IsPlain line ∧ '\x7b' ∉ line)
  (hfront : ∀ c ∈ front, isSelectorChar c = true) (hopen : (BraceScan.start.line front).parens = 0)
  (hfirst : Braceless first) (htrail : ∀ c ∈ trail, Text.isSpace c = true)
include hbefore hlead hfront hopen hfirst htrail

/-- A rule whose braces stand on different lines. -/
theorem typesWithin_opening {body : List Line}
    (hheader : CommentRules.stylesheet.stripLine .code header = (front ++ '\x7b' :: first, region))
    (hregion : CommentRules.carried region = .code)
    (hbody : ∀ line ∈ body, IsPlain line ∧ Braceless line) (hlast : Braceless last)
    (hclosing : IsPlain (last ++ '\x7d' :: trail))
    (hparens : (BraceScan.start.scan (first :: (body ++ [last]))).parens = 0) (after : List Line) :
    typesWithin before (lead ++ header :: (body ++ [last ++ '\x7d' :: trail])) after =
      if Text.isBlank front then []
      else [ruleBehind front ((body ++ [last]).flatMap slotsIn) (before.length + lead.length + 1)] := by
  have hrest : ∀ line ∈ body ++ [last ++ '\x7d' :: trail], IsPlain line ∧ '\x7b' ∉ line := by
    rw [List.forall_mem_append, List.forall_mem_singleton]
    refine ⟨fun line hline => ⟨(hbody line hline).1, (hbody line hline).2.no_opening⟩, hclosing, ?_⟩
    have hnone : '\x7b' ∉ trail := Text.not_mem_of_class htrail (by decide)
    simp [hlast.no_opening, hnone]
  obtain ⟨p, hnumber, hcode, ⟨below, hbelow⟩, htypes⟩ :=
    exists_typesWithin_eq hbefore hlead hheader hregion hrest after
  rw [List.map_append, List.append_assoc] at hbelow
  have hattributes := attributesAt_opening (braceless_of_isSelectorChar hfront) hopen hfirst htrail
    (fun line hline => (hbody line hline).2) hlast hparens hcode hbelow
  rw [htypes, ruleAt?_of_code_eq hfront hcode, hattributes, hnumber]
  split <;> rfl

/-- A rule on one line, which declares nothing. -/
theorem typesWithin_closed {header : Line} {region : Region}
    (hheader : CommentRules.stylesheet.stripLine .code header =
      (front ++ '\x7b' :: (first ++ '\x7d' :: trail), region))
    (hregion : CommentRules.carried region = .code)
    (hparens : (BraceScan.start.line first).parens = 0) (after : List Line) :
    typesWithin before (lead ++ [header]) after = if Text.isBlank front then []
      else [ruleBehind front [] (before.length + lead.length + 1)] := by
  have hrest : ∀ line ∈ ([] : List Line), IsPlain line ∧ '\x7b' ∉ line :=
    List.forall_mem_nil _
  obtain ⟨p, hnumber, hcode, -, htypes⟩ :=
    exists_typesWithin_eq hbefore hlead hheader hregion hrest after
  have hattributes := attributesAt_closed (braceless_of_isSelectorChar hfront) hopen hfirst htrail
    hparens hcode
  rw [htypes, ruleAt?_of_code_eq hfront hcode, hattributes, hnumber]
  split <;> rfl

end Rule

/-! ## Rows of declarations on lines of their own -/

/-- Two attributes of one property are the same when their values are. -/
theorem slot_inj {property value value' : List Char} :
    slot property value = slot property value' ↔ value = value' := by
  simp [slot, String.ofList_inj]

namespace Cell

/-- The attributes that a row declares. -/
def slots (cells : List Cell) : List Slot :=
  (declarations cells).map fun d => slot d.property d.value

/-- A row holds a sign other than the semicolon only if one of its texts does. -/
theorem not_mem_row {c : Char} (hc : c ≠ ';') {cells : List Cell}
    (h : ∀ cell ∈ cells, c ∉ cell.text) : c ∉ row cells := by
  induction cells with
  | nil => exact List.not_mem_nil
  | cons cell cells ih =>
    rw [List.forall_mem_cons] at h
    cases cells with
    | nil => exact row_singleton cell ▸ h.1
    | cons next cells =>
      rw [row_cons_cons, List.mem_append, List.mem_cons]
      rintro (hmem | rfl | hmem)
      · exact h.1 hmem
      · exact hc rfl
      · exact ih h.2 hmem

/-- A row of declarations has no braces. -/
theorem braceless_row (cells : List Cell) : Braceless (row cells) :=
  ⟨not_mem_row (by decide) fun cell _ => cell.not_mem_text_of_sign (by decide),
    not_mem_row (by decide) fun cell _ => cell.not_mem_text_of_sign (by decide)⟩

/-- A declaration of a row is found under its own name, if no other one is. -/
theorem exists_found {cells : List Cell} {d : Declaration} (h : d ∈ declarations cells) :
    ∃ value, found cells d.property = some value := by
  rw [← Option.isSome_iff_exists, found, List.findSome?_isSome_iff]
  exact ⟨d, h, by rw [Declaration.readFor, if_pos (List.suffix_refl _)]; rfl⟩

end Cell

/-- A rule with the lines of its braces, and rows of declarations on lines between them. The header is
given as the file has it and as it is without comments and literals. -/
structure Block where
  header : Line
  front : Line
  gap : Line
  rows : List (List Cell)
  indent : Line
  trail : Line
  stripLine_header : (CommentRules.stylesheet.stripLine .code header).1 = front ++ '\x7b' :: gap
  carried_header : CommentRules.carried (CommentRules.stylesheet.stripLine .code header).2 = .code
  isSelectorChar_front : ∀ c ∈ front, isSelectorChar c = true
  not_isBlank_front : Text.isBlank front = false
  parens_front : (BraceScan.start.line front).parens = 0
  isSpace : ∀ blanks ∈ [gap, indent, trail], ∀ c ∈ blanks, Text.isSpace c = true
  isPlain_row : ∀ cells ∈ rows, IsPlain (Cell.row cells)
  no_feed : ∀ cells ∈ rows, ∀ d ∈ Cell.declarations cells, '\n' ∉ d.value
  parens_rows : (BraceScan.start.scan (rows.map Cell.row)).parens = 0

namespace Block

variable (r : Block)

def lines : List Line :=
  r.header :: (r.rows.map Cell.row ++ [r.indent ++ '\x7d' :: r.trail])

/-- The attributes that the rows declare. -/
def declared : List Slot :=
  r.rows.flatMap Cell.slots

/-- The attributes that are read: each declaration with what is found for its name in its row. -/
def readSlots : List Slot :=
  r.rows.flatMap fun cells => (Cell.declarations cells).map fun d =>
    slot d.property ((Cell.found cells d.property).getD d.value)

/-- Blanks declare nothing. -/
theorem slotsIn_indent (h : ∀ c ∈ r.indent, Text.isSpace c = true) : slotsIn r.indent = [] := by
  have hcell : Cell.row [.blank r.indent h] = r.indent := Cell.row_singleton _
  rw [← hcell]
  exact Cell.slotsIn_row (List.forall_mem_nil _)

/-- A rule declares one type, with the attributes that its rows are read as. -/
theorem typesWithin_lines {before : List Line}
    (hbefore : CommentRules.stylesheet.regionAfter .code before = .code) (after : List Line) :
    typesWithin before r.lines after = [ruleBehind r.front r.readSlots (before.length + 1)] := by
  have hspace := r.isSpace
  simp only [List.forall_mem_cons] at hspace
  obtain ⟨hgap, hindent, htrail, -⟩ := hspace
  have hbody : ∀ line ∈ r.rows.map Cell.row, IsPlain line ∧ Braceless line := by
    intro line hline
    obtain ⟨cells, hcells, rfl⟩ := List.mem_map.mp hline
    exact ⟨r.isPlain_row cells hcells, Cell.braceless_row cells⟩
  have hparens : (BraceScan.start.scan (r.gap :: (r.rows.map Cell.row ++ [r.indent]))).parens = 0 := by
    rw [BraceScan.scan_cons, BraceScan.line_of_isSpace hgap, BraceScan.scan_append,
      BraceScan.scan_cons, BraceScan.line_of_isSpace hindent]
    exact r.parens_rows
  have hnolead : ∀ line ∈ ([] : List Line), IsPlain line ∧ '\x7b' ∉ line :=
    List.forall_mem_nil _
  have htypes := typesWithin_opening hbefore hnolead r.isSelectorChar_front r.parens_front
    (.of_isSpace hgap) htrail (Prod.ext r.stripLine_header rfl) r.carried_header hbody
    (.of_isSpace hindent) (isPlain_closing hindent htrail) hparens after
  have hslots : (r.rows.map Cell.row ++ [r.indent]).flatMap slotsIn = r.readSlots := by
    rw [List.flatMap_append, List.flatMap_singleton, r.slotsIn_indent hindent, List.append_nil,
      List.flatMap_map]
    exact List.flatMap_congr fun cells hcells => Cell.slotsIn_row (r.no_feed cells hcells)
  rw [r.not_isBlank_front, if_neg Bool.false_ne_true, hslots] at htypes
  exact htypes

/-- Each declaration keeps its value exactly if in its row its name finds this value first. -/
theorem readSlots_eq_declared_iff : r.readSlots = r.declared ↔
    ∀ cells ∈ r.rows, ∀ d ∈ Cell.declarations cells, Cell.found cells d.property = some d.value := by
  rw [readSlots, declared]
  induction r.rows with
  | nil => simp
  | cons cells rows ih =>
    have hrow : ((Cell.declarations cells).map fun d =>
        slot d.property ((Cell.found cells d.property).getD d.value)) = Cell.slots cells ↔
          ∀ d ∈ Cell.declarations cells, Cell.found cells d.property = some d.value := by
      rw [Cell.slots, List.map_inj_left]
      refine forall₂_congr fun d hd => ?_
      obtain ⟨value, hvalue⟩ := Cell.exists_found hd
      rw [slot_inj, hvalue, Option.getD_some, Option.some_inj]
    rw [List.flatMap_cons, List.flatMap_cons, List.forall_mem_cons, ← hrow, ← ih]
    refine ⟨fun h => List.append_inj h ?_, fun h => by rw [h.1, h.2]⟩
    rw [Cell.slots, List.length_map, List.length_map]

/-- Of a rule whose rows of declarations stand on lines between those of its braces all declarations
are reported in their order, each with the value of the first one in its row whose property ends with
its name, or whose value mentions it with a colon. So all of them keep their values exactly if in each
row this is the value of the declaration itself. -/
theorem exists_type_of_lines {before : List Line}
    (hbefore : CommentRules.stylesheet.regionAfter .code before = .code) (after : List Line) :
    ∃ t, typesWithin before r.lines after = [t] ∧ t.line = before.length + 1 ∧
      t.name = .ofList ([' '].intercalate (Text.fields r.front)) ∧ t.attributes = r.readSlots ∧
      (t.attributes = r.declared ↔ ∀ cells ∈ r.rows, ∀ d ∈ Cell.declarations cells,
        Cell.found cells d.property = some d.value) :=
  ⟨_, r.typesWithin_lines hbefore after, rfl, rfl, rfl, r.readSlots_eq_declared_iff⟩

/-! Two rules of one row: `margin: 0 auto; margin-top: 2px;` and
`background-color: red; color: blue;`. -/

theorem isProperty_margin : IsProperty "margin".toList := ⟨by decide, by decide⟩

theorem isProperty_color : IsProperty "color".toList := ⟨by decide, by decide⟩

theorem isValue_auto : IsValue "0 auto".toList :=
  ⟨Text.tight_of_ends (by decide) (by decide) " aut".toList, by decide⟩

theorem isValue_red : IsValue "red".toList := ⟨Text.Solid.tight (by decide), by decide⟩

/-- A declaration behind one blank. -/
def spacedCell (property value : List Char) (hproperty : IsProperty property)
    (hvalue : IsValue value) : Cell :=
  .declared (.spaced [' '] property value [] (by decide) hproperty hvalue)

/-- The cell behind the last semicolon of a row. -/
def lastCell : Cell :=
  .blank Blanks.none.text Blanks.none.isSpace

def margins : List Cell :=
  [spacedCell "margin".toList "0 auto".toList isProperty_margin isValue_auto,
    spacedCell "margin-top".toList "2px".toList ⟨by decide, by decide⟩
      ⟨Text.Solid.tight (by decide), by decide⟩,
    lastCell]

def colors : List Cell :=
  [spacedCell "background-color".toList "red".toList ⟨by decide, by decide⟩ isValue_red,
    spacedCell "color".toList "blue".toList isProperty_color
      ⟨Text.Solid.tight (by decide), by decide⟩,
    lastCell]

/-- A rule with a comment on the line of its opening brace, and one row. -/
def oneRow (row : List Cell) (hplain : IsPlain (Cell.row row))
    (hfeed : ∀ d ∈ Cell.declarations row, '\n' ∉ d.value)
    (hparens : (BraceScan.start.line (Cell.row row)).parens = 0) : Block where
  header := "nav > a \x7b /* links */".toList
  front := "nav > a ".toList
  gap := [' ']
  rows := [row]
  indent := []
  trail := []
  stripLine_header := by decide +kernel
  carried_header := by decide +kernel
  isSelectorChar_front := by decide
  not_isBlank_front := by decide
  parens_front := by decide
  isSpace := by decide
  isPlain_row := List.forall_mem_singleton.mpr hplain
  no_feed := List.forall_mem_singleton.mpr hfeed
  parens_rows := hparens

def marginRule : Block :=
  oneRow margins (isPlain_of_forall (by decide +kernel)) (by decide) (by decide +kernel)

def colorRule : Block :=
  oneRow colors (isPlain_of_forall (by decide +kernel)) (by decide) (by decide +kernel)

/-- A name that begins like another one gets its own value. -/
theorem exists_type_of_lines_margins :
    ∃ t, typesWithin ["/* spacing */".toList] marginRule.lines ["p \x7b".toList] = [t] ∧
      t.name = "nav > a" ∧ t.attributes = marginRule.declared := by
  have hbefore : CommentRules.stylesheet.regionAfter .code ["/* spacing */".toList] = .code := by
    decide +kernel
  obtain ⟨t, ht, -, hname, -, hkept⟩ :=
    marginRule.exists_type_of_lines hbefore ["p \x7b".toList]
  exact ⟨t, ht, hname, hkept.mpr (by decide +kernel)⟩

/-- A name that another one ends with gets the value of that one. -/
theorem not_forall_exists_type_of_lines :
    ¬ ∀ r : Block, ∃ t, typesWithin [] r.lines [] = [t] ∧ t.attributes = r.declared := by
  intro h
  obtain ⟨t, ht, hattributes⟩ := h colorRule
  have htypes : typesWithin [] colorRule.lines [] = [{ name := "nav > a", line := 1, attributes :=
      [slot "background-color".toList "red".toList, slot "color".toList "red".toList] }] := by
    decide +kernel
  rw [htypes] at ht
  obtain ⟨rfl, -⟩ := List.cons.inj ht
  exact absurd hattributes (by decide +kernel)

end Block

end SourceSurvey.Extract.Css
