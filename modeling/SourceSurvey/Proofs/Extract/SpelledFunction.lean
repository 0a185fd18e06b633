import SourceSurvey.Proofs.Extract.Line
import SourceSurvey.Proofs.Extract.ScriptParameter
import SourceSurvey.Proofs.Extract.Spelling
import SourceSurvey.Proofs.Extract.TopLevel

/-!
# Functions in their three spellings

A function of a script on any number of rows, with any lines around it that leave its first line
outside braces, literals and comments. Main statement: as a declaration, as an arrow and as a function
expression it is read as the same function on that line.
-/

namespace SourceSurvey.Extract.JavaScript

open Pattern CommentRules

/-! ## Written functions -/

/-- A function as it is written, but for its spelling. The rows are those of its parameters: what
stands between the parentheses, with a break wherever no literal is open. -/
structure WrittenFunction where
  name : Word Text.isNameChar
  isAsync : Bool
  row : List Char
  rows : List (List Char)
  reads : ∃ kept kepts, ReadsRows 1 row rows kept kepts 1
  noComment : ∀ r ∈ row :: rows, OpensNoComment r
  short : rows.length < Place.headerWindow
  result : Option ResultText

/-- The rows of a function may be any rows of written parameters, where the arguments of their
decorators are nested texts too. -/
theorem exists_readsRows_of_parameters {row : List Char} {rows : List (List Char)}
    (h : ∀ r ∈ row :: rows, ∃ (cells : List (Cell Parameter)) (trailing : Option WhiteSpace),
      r = joinCells Parameter.text cells trailing ∧ ∀ cell ∈ cells, cell.part.HasNestedArguments) :
    ∃ kept kepts, ReadsRows 1 row rows kept kepts 1 := by
  refine exists_readsRows_of_isNested (fun r hr => ?_) 0
  obtain ⟨cells, trailing, rfl, hcells⟩ := h r hr
  exact ⟨_, _, isNested_joinCells (fun cell hcell => cell.part.isNested_text (hcells cell hcell))
    trailing⟩

namespace WrittenFunction

variable (f : WrittenFunction)

/-- What stands in front of the parameters. -/
def front (spelling : Spelling) : List Char := spelling.front f.isAsync f.name.text

/-- What stands behind the parameters. -/
def ending (spelling : Spelling) : List Char :=
  endingText (resultPart f.result ++ spelling.signs)

/-- The lines of the header. -/
def lines (spelling : Spelling) : List Line :=
  spanRows (f.ending spelling) (f.front spelling ++ '(' :: f.row) f.rows

/-- The lines of the header, in which these are the rows. -/
def codes (kept : List Char) (kepts : List (List Char)) (spelling : Spelling) : List Line :=
  spanRows (f.ending spelling) (f.front spelling ++ '(' :: kept) kepts

/-- The text of the parameters. -/
def inside : List Char := joinRows f.row f.rows

/-- What is read as the result. -/
def returnType : String := (f.result.map fun r => .ofList r.text).getD untyped

/-- What a function has in front of its list can stand there. -/
theorem isFrontText (spelling : Spelling) : IsFrontText (f.front spelling) :=
  isFrontText_front f.isAsync f.name spelling

/-- What a function has between its list and its body can stand there. -/
theorem isBetweenText (spelling : Spelling) :
    IsBetweenText (resultPart f.result ++ spelling.signs) :=
  isBetweenText_resultPart f.result spelling

/-- No parenthesis stands in front of the list. -/
theorem not_mem_front (spelling : Spelling) : '(' ∉ f.front spelling :=
  (f.isFrontText spelling).not_mem (by decide)

/-- The list of parameters closes what it opens. -/
theorem exists_readsParens_inside : ∃ joined, ReadsParens 1 f.inside joined 1 := by
  obtain ⟨kept, kepts, hreads⟩ := f.reads
  exact hreads.exists_readsParens_joinRows

/-- The header, put together from its rows. -/
def header (spelling : Spelling) : List Char :=
  f.front spelling ++ '(' :: (f.inside ++ f.ending spelling)

/-! ## The signature -/

section Signature

variable {spelling : Spelling} {start : Nat}

/-- The list of parameters is found in the header, with what stands behind it. -/
theorem parenthesised?_header (hstart : start ≤ (f.front spelling).length) :
    parenthesised? (f.header spelling) start =
      some (f.inside, resultPart f.result ++ (spelling.signs ++ ['\x7b'])) := by
  obtain ⟨joined, hjoined⟩ := f.exists_readsParens_inside
  rw [← List.append_assoc]
  exact parenthesised?_append hjoined hstart (f.not_mem_front spelling) _

/-- From a place in front of the parameters on, parameters and result are read as they were
written. -/
theorem signature_header (hstart : start ≤ (f.front spelling).length) :
    signature (f.header spelling) start = (params f.inside, f.returnType) := by
  unfold signature
  rw [f.parenthesised?_header hstart]
  dsimp only
  rw [returnType_resultPart, returnType]
  cases f.result with
  | none => rfl
  | some r =>
    dsimp only [Option.map_some]
    rw [r.tight.trim]
    rfl

/-- The search for the list begins no later than behind the name. -/
theorem afterName_le (before after : List Char) :
    afterName (before ++ (f.name.text ++ after)) f.name.text ≤ (before ++ f.name.text).length := by
  obtain ⟨n, hn, hfind⟩ := Text.exists_find?_append f.name.text before after
  rw [afterName, hfind, List.length_append]
  exact Nat.add_le_add_right hn _

/-- The parameters of a declaration are sought behind its name. -/
theorem afterName_declaration :
    afterName (f.header .declaration) f.name.text ≤ (f.front .declaration).length := by
  have hfront : f.front .declaration =
      (asyncText f.isAsync ++ "function ".toList) ++ f.name.text := (List.append_assoc ..).symm
  rw [header, hfront, List.append_assoc _ f.name.text]
  exact f.afterName_le _ _

/-- The parameters of what a constant is assigned are sought behind the equals sign. -/
theorem exists_assignmentAfter {value : List Char}
    (hfront : f.front spelling = "const ".toList ++ (f.name.text ++ (" = ".toList ++ value))) :
    ∃ start ≤ (f.front spelling).length,
      assignmentAfter (f.header spelling) f.name.text = some start := by
  -- the name may be found in the word in front of it, but no equals sign stands before the first one
  have hequals : '=' ∉ "const ".toList ++ f.name.text ++ [' '] := by
    have hname : '=' ∉ f.name.text := Text.not_mem_of_class f.name.chars (by decide)
    simpa using hname
  have hsplit : f.front spelling =
      ("const ".toList ++ f.name.text ++ [' ']) ++ '=' :: ([' '] ++ value) := by
    rw [hfront, List.append_assoc, List.append_assoc]
    rfl
  have hsearch := f.afterName_le "const ".toList
    ([' '] ++ '=' :: ([' '] ++ value ++ '(' :: (f.inside ++ f.ending spelling)))
  have hheader : f.header spelling = "const ".toList ++ (f.name.text ++ ([' '] ++
      '=' :: ([' '] ++ value ++ '(' :: (f.inside ++ f.ending spelling)))) := by
    rw [header, hfront, List.append_assoc, List.append_assoc]
    rfl
  rw [← hheader] at hsearch
  have hstart : afterName (f.header spelling) f.name.text ≤
      ("const ".toList ++ f.name.text ++ [' ']).length :=
    Nat.le_trans hsearch (List.sublist_append_left _ _).length_le
  refine ⟨("const ".toList ++ f.name.text ++ [' ']).length, ?_, ?_⟩
  · rw [hsplit]
    exact (List.sublist_append_left _ _).length_le
  · have hfind := Text.findFrom?_singleton_append hequals hstart
      ([' '] ++ value ++ '(' :: (f.inside ++ f.ending spelling))
    rw [assignmentAfter]
    rwa [hheader, ← List.append_assoc, ← List.append_assoc] at hfind ⊢

end Signature

/-! ## The place of a function -/

/-- A place where the function begins in this spelling: from there on the file has its header and
other lines, and stripping keeps these rows of it. -/
structure BeginsAt (p : Place) (spelling : Spelling) (kept : List Char)
    (kepts : List (List Char)) (below : List Line) : Prop where
  raw : ∃ rest, p.rawFromHere = f.lines spelling ++ rest
  code : p.codeFromHere = f.codes kept kepts spelling ++ below

section Place

variable {f} {p p' : Place} {spelling spelling' : Spelling} {kept : List Char}
  {kepts : List (List Char)} {below : List Line}

/-- The line of the function begins with what is in front of its list. -/
theorem BeginsAt.exists_code_eq (h : f.BeginsAt p spelling kept kepts below) :
    ∃ more, p.code = f.front spelling ++ '(' :: more := by
  have hcode := h.code
  unfold codes at hcode
  cases kepts with
  | nil =>
    obtain ⟨hfirst, -⟩ := List.cons.inj hcode
    exact ⟨kept ++ f.ending spelling, by rw [Place.code, hfirst]; simp⟩
  | cons next kepts => exact ⟨kept, (List.cons.inj hcode).1⟩

/-- The header is put together from the rows. -/
theorem BeginsAt.header_eq (h : f.BeginsAt p spelling kept kepts below)
    (hreads : ReadsRows 1 f.row f.rows kept kepts 1) : p.header .slash = f.header spelling := by
  obtain ⟨rest, hraw⟩ := h.raw
  have hextent : p.headerExtent = f.rows.length := by
    rw [Place.headerExtent, h.code]
    exact hreads.headerExtent_spanRows (f.isBetweenText spelling) (f.isFrontText spelling) f.short
      below
  have hlength : (f.lines spelling).length = f.rows.length + 1 := length_spanRows
  rw [Place.header, hraw, hextent, ← hlength, List.take_left]
  exact hreads.joinHeader_spanRows f.noComment (f.isBetweenText spelling) (f.isFrontText spelling)

/-- What a constant is assigned there is found if it is a function expression or an arrow. -/
theorem BeginsAt.topLevelFunction?_assigned (h : f.BeginsAt p spelling kept kepts below)
    (hreads : ReadsRows 1 f.row f.rows kept kepts 1) {value : List Char} {kind : Assigned}
    (hfront : f.front spelling = "const ".toList ++ (f.name.text ++ (" = ".toList ++ value)))
    (hconstant : functionConstant.matchStart? p.code = some (f.name.text, f.isAsync, kind))
    (hkind : kind = .expression ∨ kind = .arrow ∧
      arrowTail.matches? (resultPart f.result ++ (spelling.signs ++ ['\x7b'])) = true) :
    topLevelFunction? p =
      some (routineAt p f.name.text (params f.inside) f.returnType [] f.isAsync) := by
  obtain ⟨more, hcode⟩ := h.exists_code_eq
  obtain ⟨start, hle, hassign⟩ := f.exists_assignmentAfter hfront
  have hnone : functionStart.matchStart? p.code = none := by
    rw [hcode, hfront, List.append_assoc]
    exact functionStart_const _
  unfold topLevelFunction?
  rw [hnone, hconstant, h.header_eq hreads]
  rcases hkind with rfl | ⟨rfl, htail⟩
  · dsimp only
    rw [hassign, Option.getD_some, Option.getD_some, f.parenthesised?_header hle]
    dsimp only
    rw [if_pos rfl, f.signature_header hle]
  · dsimp only
    rw [hassign, Option.getD_some, Option.getD_some, f.parenthesised?_header hle]
    dsimp only
    rw [htail, if_pos rfl, f.signature_header hle]

/-- In each spelling a function is found there, with the signature that was written. -/
theorem BeginsAt.topLevelFunction?_eq (h : f.BeginsAt p spelling kept kepts below)
    (hreads : ReadsRows 1 f.row f.rows kept kepts 1) : topLevelFunction? p =
      some (routineAt p f.name.text (params f.inside) f.returnType [] f.isAsync) := by
  obtain ⟨more, hcode⟩ := h.exists_code_eq
  cases spelling with
  | declaration =>
    have hstart : functionStart.matchStart? p.code = some (f.isAsync, f.name.text) :=
      hcode ▸ functionStart_declaration f.isAsync f.name more
    unfold topLevelFunction?
    rw [hstart, h.header_eq hreads]
    dsimp only
    rw [f.signature_header f.afterName_declaration]
  | arrow =>
    exact h.topLevelFunction?_assigned hreads rfl
      (hcode ▸ functionConstant_arrow f.isAsync f.name more)
      (.inr ⟨rfl, arrowTail_resultPart f.result⟩)
  | expression =>
    exact h.topLevelFunction?_assigned hreads rfl
      (hcode ▸ functionConstant_expression f.isAsync f.name more) (.inl rfl)

/-- The lines of the body branch as often in each spelling. -/
theorem BeginsAt.branchCount_eq (h : f.BeginsAt p spelling kept kepts below)
    (h' : f.BeginsAt p' spelling' kept kepts below)
    (hreads : ReadsRows 1 f.row f.rows kept kepts 1) :
    branchCount branchStart conditional p.braceBody =
      branchCount branchStart conditional p'.braceBody := by
  have hextent : p.braceExtent = p'.braceExtent := by
    rw [Place.braceExtent, Place.braceExtent, h.code, h'.code]
    exact hreads.braceExtent_spanRows (f.isFrontText spelling) (f.isFrontText spelling')
      (f.isBetweenText spelling) (f.isBetweenText spelling') below
  have hsigns : ∀ spelling : Spelling, ':' ∉ spelling.signs := by
    intro spelling
    cases spelling <;> decide
  have htail : ∀ q : Place, q.below.map (·.code) = q.codeFromHere.tail := fun _ => rfl
  -- behind the first line the spellings differ only in the signs on the last row, if there is one
  rw [Place.braceBody, Place.braceBody, hextent, htail, htail, h.code, h'.code]
  exact branchCount_take_tail_spanRows (hsigns spelling) (hsigns spelling') _ _ kepts below _

/-- So it is read as the same routine. -/
theorem BeginsAt.routineAt_eq (h : f.BeginsAt p spelling kept kepts below)
    (h' : f.BeginsAt p' spelling' kept kepts below)
    (hreads : ReadsRows 1 f.row f.rows kept kepts 1) (habove : p.above = p'.above)
    (bound : List Char) (slots : List Slot) (type : String) (modifiers : List String)
    (isAsync : Bool) :
    routineAt p bound slots type modifiers isAsync =
      routineAt p' bound slots type modifiers isAsync := by
  have hnumber : p.number = p'.number := congrArg (·.length + 1) habove
  have hdecorators : p.decorators ["@"] = p'.decorators ["@"] := by
    rw [Place.decorators, habove, Place.decorators]
  rw [routineAt, routineAt, hnumber, hdecorators, h.branchCount_eq h' hreads]

end Place

/-! ## Files -/

section Files

variable {spelling : Spelling} {kept : List Char} {kepts : List (List Char)} {above : List Line}

/-- The lines of a function are stripped to its code and change nothing below. -/
theorem stripLines_append_below (hreads : ReadsRows 1 f.row f.rows kept kepts 1)
    (below : List Line) : slash.stripLines .code (f.lines spelling ++ below) =
      f.codes kept kepts spelling ++ slash.strip below := by
  have hlines := hreads.stripLines_spanRows f.noComment (f.isBetweenText spelling)
    (f.isFrontText spelling).keepsCode_paren below
  rw [List.append_assoc, List.append_assoc] at hlines
  exact hlines

/-- Below lines that end outside literals and comments the function has its place. -/
theorem exists_beginsAt (hreads : ReadsRows 1 f.row f.rows kept kepts 1)
    (hregion : slash.regionAfter .code above = .code) (below : List Line) (spelling : Spelling) :
    ∃ here rest, sourceLines .slash (above ++ (f.lines spelling ++ below)) =
        sourceLines .slash above ++ here :: rest ∧
      f.BeginsAt ⟨(sourceLines .slash above).reverse, here, rest⟩ spelling kept kepts
        (slash.strip below) := by
  have hstrip : slash.stripLines .code (f.lines spelling ++ below) =
      f.codes kept kepts spelling ++ slash.strip below := f.stripLines_append_below hreads below
  have hlength := slash.length_stripLines .code (f.lines spelling ++ below)
  rw [hstrip] at hlength
  have hraw := map_raw_zipWith (Nat.le_of_eq hlength.symm)
  have hcode := map_code_zipWith (Nat.le_of_eq hlength)
  rw [sourceLines_append_eq, hregion, hstrip]
  cases hlines : List.zipWith SourceLine.mk (f.lines spelling ++ below)
      (f.codes kept kepts spelling ++ slash.strip below) with
  | nil =>
    rw [hlines] at hraw
    exact absurd hraw.symm (spanRows_append_ne_nil _ _ _ _)
  | cons here rest =>
    rw [hlines] at hraw hcode
    exact ⟨here, rest, rfl, ⟨below, hraw⟩, hcode⟩

/-- In each spelling the function is what is found on its line. -/
theorem filter_routines (hreads : ReadsRows 1 f.row f.rows kept kepts 1)
    (hregion : slash.regionAfter .code above = .code)
    (hdepth : depthAfter 0 (slash.strip above) = 0) (below : List Line) (spelling : Spelling) :
    ∃ p, p.above = (sourceLines .slash above).reverse ∧
      f.BeginsAt p spelling kept kepts (slash.strip below) ∧
      (extract (above ++ (f.lines spelling ++ below))).routines.filter
          (·.line == above.length + 1) =
        [routineAt p f.name.text (params f.inside) f.returnType [] f.isAsync] := by
  obtain ⟨here, rest, hlines, hbegins⟩ := f.exists_beginsAt hreads hregion below spelling
  rw [← map_code_sourceLines] at hdepth
  have hfound := filter_topLevelFunctions here rest hdepth
  rw [length_sourceLines, hbegins.topLevelFunction?_eq hreads, ← hlines] at hfound
  exact ⟨_, rfl, hbegins, hfound⟩

end Files

end WrittenFunction

/-- In place of each other the three spellings are read as the same routine: on the first line of the
function it is the only one, with the name, the parameters and the result that were written. -/
theorem exists_routine_spelled (f : WrittenFunction) {above : List Line}
    (hregion : slash.regionAfter .code above = .code)
    (hdepth : depthAfter 0 (slash.strip above) = 0) (below : List Line) :
    ∃ r : Routine, r.name = .ofList f.name.text ∧ r.params = params f.inside ∧
      r.returnType = f.returnType ∧ r.isAsync = f.isAsync ∧ r.line = above.length + 1 ∧
      ∀ spelling, (extract (above ++ (f.lines spelling ++ below))).routines.filter
        (·.line == above.length + 1) = [r] := by
  obtain ⟨kept, kepts, hreads⟩ := f.reads
  -- the routine is read at the place of the declaration, and the other places are compared to it
  obtain ⟨p, habove, hbegins, -⟩ := f.filter_routines hreads hregion hdepth below .declaration
  have hnumber : p.number = above.length + 1 := by
    rw [Place.number, habove, List.length_reverse, length_sourceLines]
  refine ⟨routineAt p f.name.text (params f.inside) f.returnType [] f.isAsync, rfl, rfl, rfl, rfl,
    hnumber, fun spelling => ?_⟩
  obtain ⟨q, habove', hbegins', hfound⟩ := f.filter_routines hreads hregion hdepth below spelling
  rw [hfound, hbegins'.routineAt_eq hbegins hreads (habove'.trans habove.symm)]

/-! A function over five rows, with arguments of a decorator, an arrow in a type and a parenthesis in a
literal. Above it stand a comment with a brace, a class and a decorator; its body has two branches. -/

/-- A character that stands for itself in a type. -/
def isPlainType (c : Char) : Bool := isFlat c && isNoAssignment c

theorem isNested_of_all {inGroup : Bool} {text : List Char} (h : text.all isPlainType = true) :
    IsNested isNoAssignment inGroup text :=
  .of_isFlat fun c hc => Bool.and_eq_true _ _ ▸ List.all_eq_true.mp h c hc

theorem isNested_one : IsNested isNoAssignment true ['1'] :=
  isNested_of_all (by decide)

/-- The decorator has arguments. -/
def pathParameter : Parameter where
  decorators :=
    [{ name := ⟨"Length".toList, by decide, List.all_eq_true.mp (by decide)⟩
       arguments := some (.ofNested isNested_one (by decide))
       blanks := ⟨⟨[' '], Text.isSpace_of_mem_blank⟩, by decide⟩ }]
  modifiers := []
  isRest := false
  name := ⟨"path".toList, by decide, List.all_eq_true.mp (by decide)⟩
  noAccessWord := by decide
  isOptional := true
  type := some ⟨"string".toList, Text.Solid.tight (by decide), isNested_of_all (by decide)⟩
  default := none

/-- The type is a function. -/
def doneParameter : Parameter where
  decorators := []
  modifiers := []
  isRest := false
  name := ⟨"done".toList, by decide, List.all_eq_true.mp (by decide)⟩
  noAccessWord := by decide
  isOptional := false
  type := some
    ⟨"(n: number) => void".toList,
      Text.tight_of_ends (by decide) (by decide) "n: number) => voi".toList,
      .group .round (isNested_of_all (by decide : "n: number".toList.all isPlainType = true))
        (.char (by decide) (.inr (by decide))
          (.arrow (isNested_of_all (by decide : " void".toList.all isPlainType = true))))⟩
  default := none

/-- The default is a literal. -/
def endParameter : Parameter where
  decorators := []
  modifiers := []
  isRest := false
  name := ⟨"end".toList, by decide, List.all_eq_true.mp (by decide)⟩
  noAccessWord := by decide
  isOptional := false
  type := none
  default := some
    ⟨"'('".toList, Text.Solid.tight (by decide),
      .literal (by decide) [.char '(' (by decide) (by decide)] (by simp [BodyPart.EndsEscaped])
        .nil⟩

/-- A parameter on a row of its own. -/
def loadingRow (p : Parameter) : List Char :=
  let blank : WhiteSpace := ⟨[' '], Text.isSpace_of_mem_blank⟩
  joinCells Parameter.text [⟨blank, p, blank⟩] (some blank)

def loadingRows : List (List Char) :=
  [loadingRow pathParameter, loadingRow doneParameter, loadingRow endParameter, []]

theorem exists_readsRows_loading :
    ∃ kept kepts, ReadsRows 1 [] loadingRows kept kepts 1 := by
  have hrow : ∀ p : Parameter, p.HasNestedArguments → ∃ (cells : List (Cell Parameter))
      (trailing : Option WhiteSpace), loadingRow p = joinCells Parameter.text cells trailing ∧
        ∀ cell ∈ cells, cell.part.HasNestedArguments :=
    fun p hp => ⟨_, _, rfl, List.forall_mem_singleton.mpr hp⟩
  have hpath : pathParameter.HasNestedArguments := by
    refine List.forall_mem_singleton.mpr fun a ha => ?_
    rw [← Option.mem_some_iff.mp ha]
    exact isNested_one.imp fun _ hc => (Bool.and_eq_true _ _ ▸ hc : _ ∧ _).1
  refine exists_readsRows_of_parameters fun r hr => ?_
  simp only [loadingRows, List.mem_cons, List.not_mem_nil, or_false] at hr
  rcases hr with rfl | rfl | rfl | rfl | rfl
  · exact ⟨[], none, rfl, List.forall_mem_nil _⟩
  · exact hrow pathParameter hpath
  · exact hrow doneParameter (List.forall_mem_nil _)
  · exact hrow endParameter (List.forall_mem_nil _)
  · exact ⟨[], none, rfl, List.forall_mem_nil _⟩

theorem not_mem_loadingRows : ∀ r ∈ [] :: loadingRows, '/' ∉ r := by
  decide

def loading : WrittenFunction where
  name := ⟨"load".toList, by decide, List.all_eq_true.mp (by decide)⟩
  isAsync := true
  row := []
  rows := loadingRows
  reads := exists_readsRows_loading
  noComment := fun r hr => (commentFree_of_not_mem (not_mem_loadingRows r hr)).opensNoComment
  short := by decide
  result := some
    ⟨"number".toList, Text.Solid.tight (by decide), List.all_eq_true.mp (by decide),
      commentFree_of_not_mem (by decide)⟩

def aboveLoading : List Line :=
  ["/* Loads \x7b", "   once. */", "class A \x7b", "  m() \x7b return 1 \x7d", "\x7d",
    "@logged"].map String.toList

def belowLoading : List Line :=
  ["  if (path) \x7b", "    done(path ? 1 : 2)", "  \x7d", "\x7d", "function other() \x7b",
    "\x7d"].map String.toList

theorem exists_routine_spelled_loading :
    slash.regionAfter .code aboveLoading = .code ∧ depthAfter 0 (slash.strip aboveLoading) = 0 ∧
      ∃ r : Routine, r.name = "load" ∧
        r.params = [⟨"path", "string", none⟩, ⟨"done", "(n: number) => void", none⟩,
          ⟨"end", untyped, some "'('"⟩] ∧
        r.returnType = "number" ∧ r.isAsync = true ∧ r.line = 7 ∧
        ∀ spelling, (extract (aboveLoading ++
          (loading.lines spelling ++ belowLoading))).routines.filter (·.line == 7) = [r] := by
  have hregion : slash.regionAfter .code aboveLoading = .code := by decide +kernel
  have hdepth : depthAfter 0 (slash.strip aboveLoading) = 0 := by decide +kernel
  obtain ⟨r, hname, hparams, hresult, hasync, hline, hfound⟩ :=
    exists_routine_spelled loading hregion hdepth belowLoading
  exact ⟨hregion, hdepth, r, hname, hparams.trans (by decide +kernel), hresult, hasync, hline,
    hfound⟩

end SourceSurvey.Extract.JavaScript
