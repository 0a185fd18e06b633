import SourceSurvey.MetaBlock
import SourceSurvey.Proofs.Pattern.Forward

/-!
# Where a meta block stands

A second account of what the pattern of a meta block finds, without ways to choose from: the first
place in the text where a block stands, the last of the line feeds after its opening mark behind
which it closes, and the first line that closes it. Main statement: the block of a text is the one
found so.
-/

namespace SourceSurvey.MetaBlock

open Pattern

/-! ## The parts of a block -/

/-- The marks that open a block. -/
def openingMarks : List String := ["#", "//", "/*", "*", "<!--"]

/-- The marks of a comment line inside a block. -/
def lineMarks : List String := ["#", "//", "*", "<!--"]

/-- A line that closes a block begins here. -/
def closes (text : List Char) : Bool :=
  (wordsAt lineMarks (Text.trimStart text)).any fun r =>
    "---".toList.isPrefixOf (Text.trimStart r.2)

/-- The text up to the line feed before the first line that closes a block. -/
def inside? : List Char → Option (List Char)
  | [] => none
  | c :: cs => if c == '\n' && closes cs then some [] else (inside? cs).map (c :: ·)

/-- The text inside a block whose opening mark ends here: it begins behind the last of the line
feeds among the following blanks behind which the block closes. -/
def body? : List Char → Option (List Char)
  | [] => none
  | c :: cs =>
    if Text.isSpace c then (body? cs).or (if c == '\n' then inside? cs else none) else none

/-- The text inside the block that begins here. -/
def blockAt? (text : List Char) : Option (List Char) :=
  (wordsAt openingMarks text).findSome? fun r =>
    let rest := Text.trimStart r.2
    if "---meta".toList.isPrefixOf rest then body? (rest.drop "---meta".toList.length) else none

/-- The text inside the first block. -/
def firstInside? : List Char → Option (List Char)
  | [] => none
  | c :: cs => (blockAt? (c :: cs)).or (firstInside? cs)

/-! ## The pattern of a block, part by part -/

theorem solid_of_mem_lineMarks : ∀ w ∈ lineMarks, Text.Solid w.toList := by decide

theorem solid_of_mem_openingMarks : ∀ w ∈ openingMarks, Text.Solid w.toList := by decide

/-- The pattern for the mark of a line reads one of the marks. -/
theorem readsWords_lineMark : lineMark.ReadsWords lineMarks := by
  refine ((readsAs_oneOf lineMarks).bind fun _ => readsAs_pure ()).congr fun t => ?_
  exact List.map_eq_flatMap.symm

/-- An asterisk, with or without a slash before it. -/
theorem readsWords_asterisk :
    (do let _ ← opt (lit "/"); lit "*" : Pattern Unit).ReadsWords ["/*", "*"] := by
  refine ((readsAs_lit "/").opt.bind fun _ => readsAs_lit "*").congr fun t => ?_
  have hword : ∀ w : String, (wordsAt [w] t).map (fun r => ((), r.2)) =
      if w.toList.isPrefixOf t then [((), t.drop w.toList.length)] else [] := by
    intro w
    rw [wordsAt]
    split <;> rfl
  show _ = (wordsAt (["/*"] ++ ["*"]) t).map _
  rw [List.flatMap_append, List.flatMap_singleton, wordsAt_append, List.map_append, hword, hword]
  congr 1
  cases t with
  | nil => rfl
  | cons c cs =>
    by_cases hc : '/' = c
    · -- with the slash read, the asterisk is the second character
      subst hc
      cases cs with
      | nil => rfl
      | cons d ds =>
        by_cases hd : '*' = d
        · subst hd
          rfl
        · simp [List.isPrefixOf, hd]
    · simp [List.isPrefixOf, hc]

/-- The pattern for an opening mark reads one of these marks. -/
theorem readsWords_openingMark :
    (lit "#" <|> lit "//" <|> (do let _ ← opt (lit "/"); lit "*") <|> lit "<!--").ReadsWords
      openingMarks :=
  (readsWords_lit "#").orElse ((readsWords_lit "//").orElse
    (readsWords_asterisk.orElse (readsWords_lit "<!--")))

/-! ## What is found -/

/-- The pattern for the closing line finds it where the block closes. -/
theorem finds_closing (inside : List Char) :
    (do blanks; lineMark; blanks; lit "---"; return inside : Pattern (List Char)).Finds fun t =>
      if closes t then some inside else none := by
  have hdashes : (do blanks; lit "---"; return inside : Pattern (List Char)).Finds fun t =>
      if "---".toList.isPrefixOf (Text.trimStart t) then some inside else none := by
    refine ((finds_pure inside).lit_bind "---").blanks_bind.congr fun t => ?_
    refine findSome?_afterBlanks (fun c cs hc => if_neg ?_) t
    rw [isPrefixOf_eq_false_of_space (by decide) hc cs]
    exact Bool.false_ne_true
  refine (readsWords_lineMark.bind_finds hdashes).blanks_bind.congr fun t => ?_
  rw [findSome?_afterBlanks fun c cs hc => by rw [wordsAt_space solid_of_mem_lineMarks hc]; rfl,
    closes]
  -- one of the marks has to be followed by the dashes
  generalize wordsAt lineMarks (Text.trimStart t) = found
  induction found with
  | nil => rfl
  | cons r rs ih =>
    rw [List.findSome?_cons, List.any_cons]
    cases "---".toList.isPrefixOf (Text.trimStart r.2) with
    | true => rfl
    | false => exact ih

theorem isPrefixOf_lineFeed (c : Char) (cs : List Char) :
    "\n".toList.isPrefixOf (c :: cs) = (c == '\n') := by
  show ('\n' == c && true) = (c == '\n')
  rw [Bool.and_true, Bool.beq_comm]

/-- The shortest text up to the closing line is what is inside the block. -/
theorem finds_inside :
    (do
      let inside ← runLazy (fun _ => true) 0
      lit "\n"; blanks; lineMark; blanks; lit "---"
      return inside : Pattern (List Char)).Finds inside? := by
  refine (readsAs_runLazy.bind_finds fun inside => (finds_closing inside).lit_bind "\n").congr
    fun t => ?_
  have htest : ∀ r : List Char × List Char,
      (if "\n".toList.isPrefixOf r.2 then
        if closes (r.2.drop "\n".toList.length) then some r.1 else none else none) =
      if "\n".toList.isPrefixOf r.2 && closes (r.2.drop "\n".toList.length) then some r.1
        else none := by
    intro r
    cases "\n".toList.isPrefixOf r.2 <;> rfl
  refine (congrArg (List.findSome? · (cuts t)) (funext htest)).trans ?_
  induction t with
  | nil => rfl
  | cons c cs ih =>
    rw [findSome?_cuts_cons fun s => "\n".toList.isPrefixOf s &&
      closes (s.drop "\n".toList.length), ih, isPrefixOf_lineFeed]
    rfl

theorem findSome?_lineFeed_inside (t : List Char) :
    ((afterBlanks t).findSome? fun r =>
      if "\n".toList.isPrefixOf r then inside? (r.drop "\n".toList.length) else none) =
      body? t := by
  have hone : ∀ (f : List Char → Option (List Char)) t, [t].findSome? f = f t := fun f t => by
    rw [List.findSome?_cons]
    cases f t <;> rfl
  induction t with
  | nil => rfl
  | cons c cs ih =>
    rw [afterBlanks, body?]
    split
    · rw [List.findSome?_append, ih, hone, isPrefixOf_lineFeed]
      rfl
    · next hspace =>
      have hfeed : (c == '\n') = false := by
        rw [beq_eq_false_iff_ne]
        rintro rfl
        exact hspace rfl
      rw [hone, isPrefixOf_lineFeed, hfeed]
      rfl

/-- The pattern for a block finds the block at a place. -/
theorem finds_block : block.Finds blockAt? := by
  have hbody := (finds_inside.lit_bind "\n").blanks_bind.congr findSome?_lineFeed_inside
  have hname : (do
      blanks; lit "---meta"; blanks; lit "\n"
      let inside ← runLazy (fun _ => true) 0
      lit "\n"; blanks; lineMark; blanks; lit "---"
      return inside : Pattern (List Char)).Finds fun t =>
        if "---meta".toList.isPrefixOf (Text.trimStart t) then
          body? ((Text.trimStart t).drop "---meta".toList.length) else none := by
    refine (hbody.lit_bind "---meta").blanks_bind.congr fun t => ?_
    refine findSome?_afterBlanks (fun c cs hc => if_neg ?_) t
    rw [isPrefixOf_eq_false_of_space (by decide) hc cs]
    exact Bool.false_ne_true
  exact readsWords_openingMark.bind_finds hname

/-- The block of a text is made of the entries inside the first place where one stands. -/
theorem ofText?_eq_map_firstInside? (text : List Char) :
    ofText? text = (firstInside? text).map fun inside =>
      ofEntries ((Text.splitAt '\n' inside).filterMap entry?) := by
  have hsearch : ∀ prev t, (block.searchAt prev t).map (·.value) = firstInside? t := by
    intro prev t
    induction t generalizing prev with
    | nil => exact finds_block.searchAt_nil prev
    | cons c cs ih =>
      rw [finds_block.searchAt_cons, ih]
      rfl
  rw [← hsearch none text, Option.map_map]
  rfl

/-! ## The lines inside -/

/-- What stands before the text of a line is taken with all blanks behind it. -/
theorem dropStart_linePrelude (line : Line) :
    linePrelude.dropStart line =
      (((wordsAt lineMarks (Text.trimStart line)).head?).map fun r => Text.trimStart r.2).getD
        line := by
  have hprelude : linePrelude.ReadsAs _ :=
    readsAs_blanks.bind fun _ => ReadsAs.bind readsWords_lineMark fun _ => readsAs_blanks
  have hmark : ∀ found : List (String × List Char),
      (((found.map fun r => ((), r.2)).flatMap fun r =>
        (afterBlanks r.2).map fun s => ((), s)).head?).map (·.2) =
          (found.head?).map fun r => Text.trimStart r.2 := by
    intro found
    cases found with
    | nil => rfl
    | cons r rs =>
      rw [List.map_cons, List.flatMap_cons, List.head?_append, List.head?_map, head?_afterBlanks]
      rfl
  rw [hprelude.dropStart, List.head?_flatMap, List.findSome?_map, List.map_findSome?]
  congr 1
  refine Eq.trans (findSome?_afterBlanks (fun c cs hc => ?_) line) (hmark _)
  dsimp only [Function.comp_apply]
  rw [hmark, wordsAt_space solid_of_mem_lineMarks hc]
  rfl

end SourceSurvey.MetaBlock
