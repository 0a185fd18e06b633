import SourceSurvey.Proofs.Comment.Erasure
import SourceSurvey.Proofs.Extract.Section
import SourceSurvey.Proofs.Extract.Shift
import SourceSurvey.Proofs.Pattern.Reading
import SourceSurvey.Proofs.Place.Append

/-!
# Pages of one script

A page that is one script element is read twice: its comments are taken out as those of markup, and
what is left between the tags is read as a script. Main statement: unless one of the lines opens a
section without a name, the page declares the functions, errors and guarded lines of the script,
each one line further down, and that exception is the only one.
-/

namespace SourceSurvey

/-! ## Searches that find nothing -/

namespace Pattern

variable {α β : Type}

/-- A sequence is found nowhere if its first part is not. -/
theorem searchAt_bind_eq_none {p : Pattern α} {prev : Option Char} {t : List Char}
    (h : p.searchAt prev t = none) (f : α → Pattern β) : (p >>= f).searchAt prev t = none := by
  have hnone : ∀ c : Cursor, (p c).first? = none → ((p >>= f) c).first? = none := by
    intro c hfirst
    rw [Choices.first?_eq_head?, List.head?_eq_none_iff] at hfirst ⊢
    rw [toList_bind, hfirst]
    rfl
  induction t generalizing prev with
  | nil =>
    rw [searchAt, Option.map_eq_none_iff] at h ⊢
    exact hnone _ h
  | cons x xs ih =>
    rw [searchAt] at h
    cases hfirst : (p ⟨prev, x :: xs⟩).first? with
    | some r =>
      rw [hfirst] at h
      cases h
    | none =>
      rw [hfirst] at h
      have hrest := ih (Option.map_eq_none_iff.mp h)
      rw [searchAt, hnone _ hfirst]
      exact Option.map_eq_none_iff.mpr hrest

end Pattern

/-! ## Lines without markup comments -/

/-- The opener of a markup comment. -/
def markupOpener : List Char := "<!--".toList

/-- A line without the sign of a markup comment is kept. -/
theorem stripFrom_markup_of_not_infix {line : Line} (h : ¬ markupOpener <:+: line) :
    CommentRules.markup.stripFrom 0 .code line = (line, .code) := by
  induction line with
  | nil => rfl
  | cons c cs ih =>
    have hrest : ¬ markupOpener <:+: cs := fun hcs => h (hcs.trans (List.suffix_cons c cs).isInfix)
    have hplain : CommentRules.markup.openingAt c cs = .plain := by
      have hblock : ¬ CommentRules.markup.OpensBlock (c :: cs) := by
        rintro ⟨opener, closer, hrule, hstarts⟩
        cases hrule
        exact h hstarts.isInfix
      have hquote : CommentRules.markup.isQuote c = false := by
        simp [CommentRules.isQuote, CommentRules.markup]
      rw [CommentRules.openingAt_of_not_opensBlock hblock, hquote]
      rfl
    rw [CommentRules.stripFrom_code, hplain]
    dsimp only
    rw [ih hrest]

/-- Without an opener nothing is taken out as a comment of markup. -/
theorem strip_markup_of_not_infix {lines : List Line}
    (h : ∀ line ∈ lines, ¬ markupOpener <:+: line) : CommentRules.markup.strip lines = lines := by
  unfold CommentRules.strip
  induction lines with
  | nil => rfl
  | cons line lines ih =>
    have hline := stripFrom_markup_of_not_infix (h line List.mem_cons_self)
    have hrest := ih fun l hl => h l (List.mem_cons_of_mem line hl)
    rw [CommentRules.stripLines, CommentRules.stripLine, hline]
    exact congrArg (line :: ·) hrest

/-! ## A script above a blank line -/

namespace Extract

theorem branchCount_append_blank (start conditional : Pattern Unit)
    (hstart : start.matches? [] = false) (code : List Line) :
    branchCount start conditional (code ++ [[]]) = branchCount start conditional code := by
  have hblank : branchText [] = [] := rfl
  rw [branchCount, branchCount, List.map_append, List.sum_append, List.map_singleton, hblank]
  simp [hstart]

namespace JavaScript

theorem routineAt_overBlank (p : Place) (bound : List Char) (slots : List Slot) (type : String)
    (modifiers : List String) (isAsync : Bool) :
    routineAt p.overBlank bound slots type modifiers isAsync =
      routineAt p bound slots type modifiers isAsync := by
  have hcount : branchCount branchStart conditional p.overBlank.braceBody =
      branchCount branchStart conditional p.braceBody := by
    rcases p.braceBody_overBlank with hbody | hbody
    · rw [hbody]
    · rw [hbody, branchCount_append_blank _ _ rfl]
  unfold routineAt
  rw [Place.decorators_overBlank, Place.number_overBlank, hcount]

/-- Over a blank line a place starts the same function. -/
theorem topLevelFunction?_overBlank (p : Place) :
    topLevelFunction? p.overBlank = topLevelFunction? p := by
  unfold topLevelFunction?
  rw [Place.code_overBlank, Place.header_overBlank]
  simp only [routineAt_overBlank]

theorem topLevelFunctions_append_blank (ps : List Place) (lines : List SourceLine) :
    topLevelFunctions (ps.map Place.overBlank ++ [.underAll lines]) = topLevelFunctions ps := by
  obtain ⟨depth, hdepths⟩ := placesWithDepths_append_blank ps lines
  have hblank : topLevelFunction? (.underAll lines) = none := rfl
  unfold topLevelFunctions
  rw [hdepths, List.filterMap_append, List.filterMap_map]
  have hlast : [(depth, Place.underAll lines)].filterMap (fun q : Nat × Place =>
      if q.1 = 0 then topLevelFunction? q.2 else none) = [] := by
    rw [List.filterMap_cons_none]
    · rfl
    · dsimp only
      rw [hblank, ite_self]
  rw [hlast, List.append_nil]
  refine List.filterMap_congr fun q _ => ?_
  show (if q.1 = 0 then topLevelFunction? q.2.overBlank else none) = _
  rw [topLevelFunction?_overBlank]

theorem errorNames_append_blank (ps : List Place) (lines : List SourceLine) :
    errorNames (ps.map Place.overBlank ++ [.underAll lines]) = errorNames ps := by
  have hblank : errorsOf (Place.underAll lines).code = [] := rfl
  unfold errorNames
  rw [List.flatMap_append, List.flatMap_singleton, hblank, List.append_nil, List.flatMap_map]
  rfl

end JavaScript

theorem linesMatching_append_blank {p : Pattern Unit} (h : p.matches? [] = false) (ps : List Place)
    (lines : List SourceLine) :
    linesMatching p (ps.map Place.overBlank ++ [.underAll lines]) = linesMatching p ps := by
  have hblank : ¬ p.matches? (Text.trim (Place.underAll lines).code) = true := by
    show ¬ p.matches? [] = true
    rw [h]
    exact Bool.false_ne_true
  unfold linesMatching
  rw [List.filter_append, List.filter_cons, if_neg hblank, List.filter_nil, List.append_nil,
    List.filter_map, List.map_map]
  rfl

/-! ## The page -/

namespace Html

/-- The page that is one script element with its tags on lines of their own. -/
def scriptPage (lines : List Line) : List Line :=
  "<script>".toList :: (lines ++ ["</script>".toList])

/-- The line has no end tag of a script, in any letter case, not even an unfinished one. -/
def EndsNoScript (line : Line) : Prop :=
  (Pattern.litAnyCase "</script").search? line = none

/-- A line that ends no script is shown whole. -/
theorem scriptText_of_endsNoScript {line : Line} (h : EndsNoScript line) :
    scriptText true line = (line, true) := by
  have hnone : scriptEnd.search? line = none := Pattern.searchAt_bind_eq_none h _
  rw [scriptText, scriptTextUpTo, hnone]

/-- The script of a page is what stands between its tags; the lines of the tags are blank. -/
theorem inlineScripts_scriptPage {lines : List Line} (h : ∀ line ∈ lines, EndsNoScript line) :
    inlineScripts (scriptPage lines) = [] :: (lines ++ [[]]) := by
  have hopen : scriptText false "<script>".toList = ([], true) := rfl
  have hclose : inlineScriptsFrom true ["</script>".toList] = [[]] := rfl
  have hinside : inlineScriptsFrom true (lines ++ ["</script>".toList]) = lines ++ [[]] := by
    induction lines with
    | nil => exact hclose
    | cons line lines ih =>
      have hline := scriptText_of_endsNoScript (h line List.mem_cons_self)
      have hrest := ih fun l hl => h l (List.mem_cons_of_mem line hl)
      rw [List.cons_append, inlineScriptsFrom, hline]
      exact congrArg (line :: ·) hrest
  rw [inlineScripts, scriptPage, inlineScriptsFrom, hopen]
  exact congrArg ([] :: ·) hinside

/-- A page without comments is its own stripped copy. -/
theorem strip_scriptPage {lines : List Line} (h : ∀ line ∈ lines, ¬ markupOpener <:+: line) :
    CommentRules.markup.strip (scriptPage lines) = scriptPage lines := by
  have hmark : ∀ line : Line, '!' ∉ line → ¬ markupOpener <:+: line := fun line hline hwithin =>
    hline (hwithin.subset (by decide))
  refine strip_markup_of_not_infix fun line hline => ?_
  rcases List.mem_cons.mp hline with rfl | hline
  · exact hmark _ (by decide)
  · rcases List.mem_append.mp hline with hline | hline
    · exact h line hline
    · rw [List.mem_singleton.mp hline]
      exact hmark _ (by decide)

/-- The places of a script between blank lines. -/
theorem places_between_blanks (lines : List Line) :
    places (sourceLines .slash ([] :: (lines ++ [[]]))) =
      .atBlank (sourceLines .slash lines ++ [.blank]) ::
        ((places (sourceLines .slash lines)).map Place.overBlank ++
          [Place.underAll (sourceLines .slash lines)]).map Place.underBlank := by
  rw [sourceLines_blank, places_blank, sourceLines_append_blank, places_append_blank]

/-- What a page that is read takes from its scripts. -/
theorem scripts_of_extract_eq_ok {lines : List Line} {e : Extraction}
    (h : extract lines = .ok e) :
    let scripts := places (sourceLines .slash (inlineScripts (CommentRules.markup.strip lines)))
    e.routines = JavaScript.topLevelFunctions scripts ∧
      e.errorNames = JavaScript.errorNames scripts ∧
      e.riskPoints = linesMatching guardStart scripts := by
  have hcodes : (places (sourceLines .markup lines)).map Place.code =
      CommentRules.markup.strip lines := by
    rw [map_code_places, map_code_sourceLines]
  unfold extract at h
  dsimp only at h
  cases hsections : (places (sourceLines .markup lines)).mapM sectionAt? with
  | error failure =>
    rw [hsections] at h
    cases h
  | ok sections =>
    rw [hsections] at h
    obtain rfl := Except.ok.inj h
    rw [← hcodes]
    exact ⟨rfl, rfl, rfl⟩

/-- The tags of a script open no section. -/
theorem opensNameless_scriptPage (lines : List Line) :
    (∃ line ∈ scriptPage lines, OpensNameless line) ↔ ∃ line ∈ lines, OpensNameless line := by
  have hopen : ¬ OpensNameless "<script>".toList := by
    rintro ⟨tag, text, hmatch, -⟩
    have hnone : sectionTag.matchStart? (Text.trim "<script>".toList) = none := rfl
    rw [hnone] at hmatch
    cases hmatch
  have hclose : ¬ OpensNameless "</script>".toList := by
    rintro ⟨tag, text, hmatch, -⟩
    have hnone : sectionTag.matchStart? (Text.trim "</script>".toList) = none := rfl
    rw [hnone] at hmatch
    cases hmatch
  constructor
  · rintro ⟨line, hline, hnameless⟩
    rcases List.mem_cons.mp hline with rfl | hline
    · exact absurd hnameless hopen
    · rcases List.mem_append.mp hline with hline | hline
      · exact ⟨line, hline, hnameless⟩
      · rw [List.mem_singleton.mp hline] at hnameless
        exact absurd hnameless hclose
  · rintro ⟨line, hline, hnameless⟩
    exact ⟨line, List.mem_cons_of_mem _ (List.mem_append_left _ hline), hnameless⟩

/-- A page that is one script has the functions, the errors and the guarded lines of the script, one
line further down, and it is read exactly when none of its lines opens a section without a name. -/
theorem extract_scriptPage (lines : List Line) (hcomment : ∀ line ∈ lines, ¬ markupOpener <:+: line)
    (hend : ∀ line ∈ lines, EndsNoScript line) :
    (∀ e, extract (scriptPage lines) = .ok e →
      e.routines = (JavaScript.extract lines).routines.map (·.shift 1) ∧
        e.errorNames = (JavaScript.extract lines).errorNames ∧
        e.riskPoints = (JavaScript.extract lines).riskPoints.map (· + 1)) ∧
      ((∃ e, extract (scriptPage lines) = .ok e) ↔ ∀ line ∈ lines, ¬ OpensNameless line) := by
  have hstrip := strip_scriptPage hcomment
  constructor
  · intro e he
    have hscripts := scripts_of_extract_eq_ok he
    rw [hstrip, inlineScripts_scriptPage hend, places_between_blanks] at hscripts
    obtain ⟨hroutines, herrors, hrisks⟩ := hscripts
    -- the blank line at the top moves what is found, the one at the bottom changes nothing
    rw [JavaScript.topLevelFunctions_blank, JavaScript.topLevelFunctions_append_blank] at hroutines
    rw [JavaScript.errorNames_blank, JavaScript.errorNames_append_blank] at herrors
    rw [linesMatching_underBlank rfl, linesMatching_append_blank rfl] at hrisks
    exact ⟨hroutines, herrors, hrisks⟩
  · have hrefused := extract_eq_error_iff (scriptPage lines)
    rw [hstrip, opensNameless_scriptPage] at hrefused
    cases hpage : extract (scriptPage lines) with
    | ok e =>
      refine iff_of_true ⟨e, rfl⟩ fun line hline hnameless => ?_
      rw [(hrefused _).mpr ⟨rfl, line, hline, hnameless⟩] at hpage
      cases hpage
    | error failure =>
      obtain ⟨-, line, hline, hnameless⟩ := (hrefused failure).mp hpage
      refine iff_of_false ?_ fun h => h line hline hnameless
      rintro ⟨e, he⟩
      cases he

/-- A script whose last function is not closed: its body runs to the end of the page. -/
def openScript : List Line :=
  ["@log".toList, "function f(a) \x7b".toList, "  if (a) throw new E();".toList, "  try \x7b".toList]

theorem extract_scriptPage_openScript :
    (∀ line ∈ openScript, ¬ markupOpener <:+: line) ∧ (∀ line ∈ openScript, EndsNoScript line) ∧
      ∃ e, extract (scriptPage openScript) = .ok e ∧
        e.routines = [{ name := "f", params := [⟨"a", "any", none⟩], returnType := "any",
                        decorators := ["@log"], line := 3, complexity := 1 }] ∧
        e.errorNames = ["E"] ∧ e.riskPoints = [5] := by
  have hcomment : ∀ line ∈ openScript, ¬ markupOpener <:+: line := by
    intro line hline hwithin
    have hmark : openScript.all (fun line => !line.contains '!') = true := by decide
    have hnot := List.all_eq_true.mp hmark line hline
    have hmem : '!' ∈ line := hwithin.subset (by decide)
    simp [hmem] at hnot
  have hend : ∀ line ∈ openScript, EndsNoScript line := by
    unfold openScript
    simp only [List.forall_mem_cons]
    exact ⟨rfl, rfl, rfl, rfl, List.forall_mem_nil _⟩
  have hroutines : (JavaScript.extract openScript).routines.map (·.shift 1) =
      [{ name := "f", params := [⟨"a", "any", none⟩], returnType := "any",
         decorators := ["@log"], line := 3, complexity := 1 }] := by
    decide +kernel
  have herrors : (JavaScript.extract openScript).errorNames = ["E"] := by decide +kernel
  have hrisks : (JavaScript.extract openScript).riskPoints.map (· + 1) = [5] := by decide +kernel
  have hnameless : ∀ line ∈ openScript, ¬ OpensNameless line := by
    have hnone : ∀ line ∈ openScript, sectionTag.matchStart? (Text.trim line) = none := by
      unfold openScript
      simp only [List.forall_mem_cons]
      exact ⟨rfl, rfl, rfl, rfl, List.forall_mem_nil _⟩
    rintro line hline ⟨tag, text, hmatch, -⟩
    rw [hnone line hline] at hmatch
    cases hmatch
  obtain ⟨hread, hreads⟩ := extract_scriptPage openScript hcomment hend
  obtain ⟨e, he⟩ := hreads.mpr hnameless
  have hsame := hread e he
  rw [hroutines, herrors, hrisks] at hsame
  exact ⟨hcomment, hend, e, he, hsame⟩

/-- A class of one blank. -/
theorem opensNameless_blankClass : OpensNameless "<div class=\" \">".toList := by
  have htag : sectionTag.matchStart? (Text.trim "<div class=\" \">".toList) =
      some ("div".toList, " class=\" \"".toList) := rfl
  have hslots : attributes " class=\" \"".toList = [⟨"class", "attribute", some " "⟩] := rfl
  have hblank : HasBlankClass [⟨"class", "attribute", some " "⟩] :=
    ⟨nofun, [' '], rfl, List.cons_ne_nil _ _, rfl⟩
  exact ⟨_, _, htag, hslots ▸ hblank⟩

/-- The functions of a script do not always come back from the page around it: the page is not read
if a line of the script opens a section whose class is blank. -/
theorem not_forall_exists_extract_scriptPage :
    ¬ ∀ lines : List Line, (∀ line ∈ lines, ¬ markupOpener <:+: line) →
      (∀ line ∈ lines, EndsNoScript line) →
      ∃ e, extract (scriptPage lines) = .ok e ∧
        e.routines = (JavaScript.extract lines).routines.map (·.shift 1) ∧
        e.errorNames = (JavaScript.extract lines).errorNames ∧
        e.riskPoints = (JavaScript.extract lines).riskPoints.map (· + 1) := by
  intro h
  have hcomment : ∀ line ∈ ["<div class=\" \">".toList], ¬ markupOpener <:+: line := by
    intro line hline hwithin
    rw [List.mem_singleton.mp hline] at hwithin
    exact absurd (hwithin.subset (by decide : '!' ∈ markupOpener)) (by decide)
  have hend : ∀ line ∈ ["<div class=\" \">".toList], EndsNoScript line := by
    intro line hline
    rw [List.mem_singleton.mp hline]
    rfl
  obtain ⟨e, he, -⟩ := h ["<div class=\" \">".toList] hcomment hend
  have hrefused : extract (scriptPage ["<div class=\" \">".toList]) =
      .error (.fault .missingMember) := by
    refine (extract_eq_error_iff _ _).mpr ⟨rfl, _, ?_, opensNameless_blankClass⟩
    rw [strip_scriptPage hcomment]
    exact List.mem_cons_of_mem _ List.mem_cons_self
  rw [hrefused] at he
  cases he

end Html

end Extract

end SourceSurvey
