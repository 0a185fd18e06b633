import SourceSurvey.Proofs.Extract.Line
import SourceSurvey.Proofs.Extract.Script
import SourceSurvey.Proofs.Extract.ScriptTag
import SourceSurvey.Proofs.Text.Field

/-!
# Pages of markup and scripts

A page is markup with script elements in it, and lines end anywhere in the markup and in the bodies
of the scripts. Each line is scanned for tags by itself, and whether a script is open is all that is
carried on to the next one. Main statements: line by line the bodies of the scripts that run in the
page are what is left of it (`Page.IsWritten.inlineScripts_lines`), so that its markup has no part
in what its scripts declare unless the page is not read at all.
-/

namespace SourceSurvey.Extract.Html

open Pattern

-- a text is gone through by its own characters, not by all that there are
attribute [local instance (high)] List.decidableBAll

/-! ## Lines that are scanned -/

section Line

variable {line : Line}

/-- What is found takes something from the text. -/
theorem length_lt_of_search? {α : Type} {p : Pattern α} (hp : p.Reads fun t _ => t ≠ [])
    {t : List Char} {f : Found α} (h : p.search? t = some f) : f.after.rest.length < t.length := by
  obtain ⟨ht, hne⟩ := hp.searchAt h
  have := List.length_pos_iff.mpr hne
  rw [ht, List.length_append, List.length_append]
  omega

/-- What begins with a word matches no empty text. -/
theorem reads_litAnyCase_bind {α : Type} {word : String} (hword : word.toList ≠ [])
    {f : Unit → Pattern α} (hf : (f ()).Reads fun _ _ => True) :
    (litAnyCase word >>= f).Reads fun t _ => t ≠ [] := by
  refine (reads_litAnyCase_spells word).bind fun t _ ht => hf.imp fun more _ _ hnil => ?_
  have hempty : [].length = word.toList.length := (List.append_eq_nil_iff.mp hnil).1 ▸ ht.1
  exact hword (List.length_eq_zero_iff.mp hempty.symm)

/-- A tag that starts a script is no empty text. -/
theorem scriptStart_reads : scriptStart.Reads fun t _ => t ≠ [] :=
  reads_litAnyCase_bind (by decide) ((reads_checkAt _).bind fun _ _ _ =>
    (reads_run inTag 0).bind fun _ _ _ => (reads_lit ">").bind fun _ _ _ => reads_pure trivial)

/-- A tag that ends a script is no empty text. -/
theorem scriptEnd_reads : scriptEnd.Reads fun t _ => t ≠ [] :=
  reads_litAnyCase_bind (by decide)
    (reads_blanks.bind fun _ _ _ => (reads_lit ">").imp fun _ _ _ => trivial)

/-- More tags than a line can have are not asked for. -/
theorem scriptTextUpTo_eq_scriptText {n : Nat} (h : line.length < n) (inScript : Bool) :
    scriptTextUpTo n inScript line = scriptText inScript line := by
  have hsame : ∀ m n, line.length < m → line.length < n →
      scriptTextUpTo m inScript line = scriptTextUpTo n inScript line := by
    -- every tag takes something from the line, so each bound is still large enough behind it
    intro m
    induction m generalizing inScript line with
    | zero => exact fun n hm _ => absurd hm (Nat.not_lt_zero _)
    | succ m ih =>
      intro n hm hn
      cases n with
      | zero => exact absurd hn (Nat.not_lt_zero _)
      | succ n =>
        cases inScript with
        | true =>
          rw [scriptTextUpTo, scriptTextUpTo]
          cases hsearch : scriptEnd.search? line with
          | none => rfl
          | some f =>
            have hshorter := length_lt_of_search? scriptEnd_reads hsearch
            dsimp only
            rw [ih (by omega) false n (by omega) (by omega)]
        | false =>
          rw [scriptTextUpTo, scriptTextUpTo]
          cases hsearch : scriptStart.search? line with
          | none => rfl
          | some f =>
            have hshorter := length_lt_of_search? scriptStart_reads hsearch
            exact ih (by omega) _ n (by omega) (by omega)
  exact hsame n _ h (Nat.lt_succ_self _)

/-- A line within a script is shown whole when the script does not end on it. -/
theorem scriptText_true_of_none (h : scriptEnd.search? line = none) :
    scriptText true line = (line, true) := by
  rw [scriptText, scriptTextUpTo, h]

/-- A line within a script is shown up to the end of the script, and read as markup behind it. -/
theorem scriptText_true_of_some {f : Found Unit} (h : scriptEnd.search? line = some f) :
    scriptText true line = (f.before ++ (scriptText false f.after.rest).1,
      (scriptText false f.after.rest).2) := by
  rw [scriptText, scriptTextUpTo, h]
  dsimp only
  rw [scriptTextUpTo_eq_scriptText (length_lt_of_search? scriptEnd_reads h)]

/-- Of a line of markup nothing is shown when no script starts on it. -/
theorem scriptText_false_of_none (h : scriptStart.search? line = none) :
    scriptText false line = ([], false) := by
  rw [scriptText, scriptTextUpTo, h]

/-- A line of markup is read on behind the tag that starts a script. -/
theorem scriptText_false_of_some {f : Found (List Char)} (h : scriptStart.search? line = some f) :
    scriptText false line = scriptText (runsInPage f.value) f.after.rest := by
  rw [scriptText, scriptTextUpTo, h]
  exact scriptTextUpTo_eq_scriptText (length_lt_of_search? scriptStart_reads h) _

end Line

/-! ## Parts of a line -/

section Part

variable {e : ScriptElement} {part line : Line}

/-- The text goes on with a sign, or it is at its end. -/
def Opens (text : List Char) : Prop :=
  text = [] ∨ ∃ more, text = '<' :: more

/-- The start tag of a script begins with a sign. -/
theorem opens_startTag (h : e.IsWritten) (text : List Char) : Opens (e.startTag ++ text) := by
  obtain ⟨name, hname, -⟩ := h.exists_opening
  rw [ScriptElement.startTag, hname]
  exact .inr ⟨_, rfl⟩

/-- The end tag of a script begins with a sign. -/
theorem opens_endTag (h : e.IsWritten) (text : List Char) : Opens (e.endTag ++ text) := by
  obtain ⟨name, hname, -⟩ := h.exists_closing
  rw [ScriptElement.endTag, hname]
  exact .inr ⟨_, rfl⟩

/-- Markup in which no script starts is dropped from the front of a line. -/
theorem scriptText_false_append (h : scriptStart.search? (part ++ line) =
      (scriptStart.search? line).map fun f => { f with before := part ++ f.before }) :
    scriptText false (part ++ line) = scriptText false line := by
  cases hline : scriptStart.search? line with
  | none =>
    rw [hline] at h
    rw [scriptText_false_of_none h, scriptText_false_of_none hline]
  | some f =>
    rw [hline] at h
    rw [scriptText_false_of_some h, scriptText_false_of_some hline]

/-- Text without a start tag is passed over. -/
theorem scriptText_false_lacks_append (hpart : Lacks "<script".toList part) (hline : Opens line) :
    scriptText false (part ++ line) = scriptText false line :=
  scriptText_false_append (search?_litAnyCase_append_of_lacks
    (show "<script".toList = '<' :: "script".toList from rfl) (by decide) hpart hline _)

/-- Behind a start tag the line is read as script or as markup, as the tag says. -/
theorem scriptText_false_startTag (h : e.IsWritten) (line : Line) :
    scriptText false (e.startTag ++ line) = scriptText (isInline e.attributes) line := by
  obtain ⟨word, last, hsearch⟩ := (h.takes_scriptStart line).searchAt none
  rw [scriptText_false_of_some hsearch]
  exact congrArg (scriptText · line)
    (runsInPage_attributes h.attributes fun c hc => (h.gap c hc).1)

/-- An end tag of a script that is not read is passed over. -/
theorem scriptText_false_endTag (h : e.IsWritten) (line : Line) :
    scriptText false (e.endTag ++ line) = scriptText false line := by
  obtain ⟨name, hname, hletters⟩ := h.exists_closing
  have htag : e.endTag = '<' :: '/' :: (name ++ (e.closingGap ++ ['>'])) := by
    rw [ScriptElement.endTag, hname]
    rfl
  have hbehind : ∀ c ∈ '/' :: (name ++ (e.closingGap ++ ['>'])), c ≠ '<' := by
    intro c hc
    simp only [List.mem_append, List.mem_cons, List.not_mem_nil, or_false] at hc
    rcases hc with rfl | hc | hc | rfl
    · decide
    · exact Text.ne_of_class (hletters c hc) rfl
    · exact Text.ne_of_class (h.closingGap c hc).1 rfl
    · decide
  refine scriptText_false_append (search?_litAnyCase_append (by decide) fun c back hback => ?_)
  rw [htag] at hback
  rcases List.suffix_cons_iff.mp hback with heq | hback
  · rw [(List.cons.inj heq).2]
    exact Bool.and_false _
  · have hnot : Text.isLetterOfAnyCase '<' c = false := Bool.eq_false_iff.mpr fun hsign =>
      hbehind c (hback.subset List.mem_cons_self) (Text.eq_of_isLetterOfAnyCase rfl hsign)
    show (Text.isLetterOfAnyCase '<' c && _) = false
    rw [hnot]
    rfl

/-- The script goes up to its end tag, behind which markup is read. -/
theorem scriptText_true_body (h : e.IsWritten) (hpart : Lacks "</script".toList part)
    (line : Line) : scriptText true (part ++ (e.endTag ++ line)) =
      (part ++ (scriptText false line).1, (scriptText false line).2) := by
  have hpast := search?_litAnyCase_append_of_lacks
    (show "</script".toList = '<' :: "/script".toList from rfl) (by decide) hpart
    (opens_endTag h line) fun _ => (do blanks; lit ">" : Pattern Unit)
  obtain ⟨word, last, hsearch⟩ := (h.takes_scriptEnd line).searchAt none
  have hfound : scriptEnd.search? (part ++ (e.endTag ++ line)) =
      some ⟨part ++ [], word, (), ⟨last, line⟩⟩ :=
    hpast.trans (congrArg (Option.map _) hsearch)
  rw [scriptText_true_of_some hfound, List.append_nil]

end Part

/-! ## Texts that are scanned line by line -/

/-- What is shown of a text on its lines, where a script may be open at the start. -/
def readPage (inScript : Bool) (text : List Char) : List Line :=
  inlineScriptsFrom inScript (Text.splitAt '\n' text)

section Page

variable {inScript after : Bool} {e : ScriptElement} {part text kept shown : List Char}

/-- A text is read line by line, in the state that the line before leaves. -/
theorem readPage_cons_line (hpart : '\n' ∉ part) (text : List Char) :
    readPage inScript (part ++ '\n' :: text) =
      (scriptText inScript part).1 :: readPage (scriptText inScript part).2 text := by
  rw [readPage, Text.splitAt_append_cons hpart]
  rfl

/-- A part of one line joins the first line of the text behind it. -/
theorem exists_splitAt_append_of_not_mem (hpart : '\n' ∉ part) (text : List Char) :
    ∃ others, Text.splitAt '\n' text = Text.beforeFirst '\n' text :: others ∧
      Text.splitAt '\n' (part ++ text) = (part ++ Text.beforeFirst '\n' text) :: others := by
  obtain ⟨others, hothers⟩ := Text.splitAt_eq_beforeFirst_cons '\n' text
  obtain ⟨front, last, first, others', hpart', htext, hboth⟩ :=
    Text.exists_splitAt_append '\n' part text
  rw [Text.splitAt_of_not_mem hpart] at hpart'
  obtain ⟨rfl, hlast⟩ : front = [] ∧ [part] = [last] := by
    cases front with
    | nil => exact ⟨rfl, hpart'⟩
    | cons f fs => simp at hpart'
  rw [hothers] at htext
  obtain ⟨rfl, rfl⟩ := List.cons.inj htext
  obtain ⟨rfl, -⟩ := List.cons.inj hlast
  exact ⟨others, hothers, hboth⟩

/-- A part of a line that is read by itself is read so in front of other text. -/
theorem readPage_append (hpart : '\n' ∉ part) (hkept : '\n' ∉ kept)
    (hline : scriptText inScript (part ++ Text.beforeFirst '\n' text) =
      (kept ++ (scriptText after (Text.beforeFirst '\n' text)).1,
        (scriptText after (Text.beforeFirst '\n' text)).2))
    (h : readPage after text = Text.splitAt '\n' shown) :
    readPage inScript (part ++ text) = Text.splitAt '\n' (kept ++ shown) := by
  obtain ⟨others, htext, hboth⟩ := exists_splitAt_append_of_not_mem hpart text
  obtain ⟨rest, hshown, hkept⟩ := exists_splitAt_append_of_not_mem hkept shown
  rw [readPage, htext, hshown] at h
  rw [readPage, hboth, hkept, inlineScriptsFrom, hline]
  obtain ⟨hfirst, hothers⟩ := List.cons.inj h
  exact congrArg₂ List.cons (congrArg (kept ++ ·) hfirst) hothers

/-- A part of one line that shows nothing can be left out. -/
theorem readPage_append_of_dropped (hpart : '\n' ∉ part)
    (hline : scriptText inScript (part ++ Text.beforeFirst '\n' text) =
      scriptText after (Text.beforeFirst '\n' text))
    (h : readPage after text = Text.splitAt '\n' shown) :
    readPage inScript (part ++ text) = Text.splitAt '\n' shown :=
  readPage_append hpart List.not_mem_nil hline h

/-- Up to its first line break such a text is one too. -/
theorem Opens.beforeFirst (h : Opens text) : Opens (Text.beforeFirst '\n' text) := by
  rcases h with rfl | ⟨more, rfl⟩
  · exact .inl rfl
  · exact .inr ⟨_, rfl⟩

/-- A part of one line has no line breaks. -/
theorem breaks_of_not_mem (h : '\n' ∉ part) : breaks part = [] :=
  List.filter_eq_nil_iff.mpr fun c hc => by simpa using ne_of_mem_of_not_mem hc h

/-- The line breaks of a text are counted line by line. -/
theorem breaks_append_cons (h : '\n' ∉ part) (rest : List Char) :
    breaks (part ++ '\n' :: rest) = '\n' :: breaks rest := by
  rw [breaks, List.filter_append, ← breaks, breaks_of_not_mem h, List.filter_cons_of_pos rfl]
  rfl

/-- Before a line break at the front stands an empty line. -/
theorem splitAt_cons_break (text : List Char) :
    Text.splitAt '\n' ('\n' :: text) = [] :: Text.splitAt '\n' text :=
  Text.splitAt_append_cons List.not_mem_nil text

/-- Of markup the line breaks are left. -/
theorem readPage_markup (hpart : Lacks "<script".toList part) (hopens : Opens text)
    (h : readPage false text = Text.splitAt '\n' shown) :
    readPage false (part ++ text) = Text.splitAt '\n' (breaks part ++ shown) := by
  -- on the lines of the part: only the last one is scanned together with what follows
  induction part using Text.induction_at_separator '\n' with
  | piece part hline =>
    rw [breaks_of_not_mem hline]
    exact readPage_append_of_dropped hline
      (scriptText_false_lacks_append hpart hopens.beforeFirst) h
  | cut front rest hfront ih =>
    have hnone : scriptStart.search? front = none :=
      search?_eq_none_of_lacks (hpart.of_isInfix (List.prefix_append _ _).isInfix) _
    have hrest : rest <:+: front ++ '\n' :: rest := ⟨front ++ ['\n'], [], by simp⟩
    rw [List.append_assoc, List.cons_append, readPage_cons_line hfront,
      scriptText_false_of_none hnone, breaks_append_cons hfront, List.cons_append,
      splitAt_cons_break, ih (hpart.of_isInfix hrest)]

/-- The body of a script is left as it is. -/
theorem readPage_body (he : e.IsWritten) (hpart : Lacks "</script".toList part)
    (h : readPage false text = Text.splitAt '\n' shown) :
    readPage true (part ++ (e.endTag ++ text)) = Text.splitAt '\n' (part ++ shown) := by
  -- the script stays open from line to line up to the one that has the end tag
  induction part using Text.induction_at_separator '\n' with
  | piece part hline =>
    have htag : '\n' ∉ part ++ e.endTag := by
      rw [List.mem_append, not_or]
      exact ⟨hline, he.not_mem_endTag⟩
    rw [← List.append_assoc]
    refine readPage_append htag hline ?_ h
    rw [List.append_assoc]
    exact scriptText_true_body he hpart _
  | cut front rest hfront ih =>
    have hnone : scriptEnd.search? front = none :=
      search?_eq_none_of_lacks (hpart.of_isInfix (List.prefix_append _ _).isInfix) _
    have hrest : rest <:+: front ++ '\n' :: rest := ⟨front ++ ['\n'], [], by simp⟩
    rw [List.append_assoc, List.cons_append, readPage_cons_line hfront,
      scriptText_true_of_none hnone, List.append_assoc, List.cons_append,
      Text.splitAt_append_cons hfront, ih (hpart.of_isInfix hrest)]

/-- A script element shows its body, if it runs in the page, and its line breaks. -/
theorem readPage_element (he : e.IsWritten) (h : readPage false text = Text.splitAt '\n' shown) :
    readPage false (e.text ++ text) = Text.splitAt '\n' (e.shown ++ shown) := by
  have hbody : readPage (isInline e.attributes) (e.body ++ (e.endTag ++ text)) =
      Text.splitAt '\n' (e.shown ++ shown) := by
    rw [ScriptElement.shown]
    cases hinline : isInline e.attributes with
    | true => exact readPage_body he he.body h
    | false =>
      refine readPage_markup (he.foreign hinline) (opens_endTag he text) ?_
      exact readPage_append_of_dropped he.not_mem_endTag (scriptText_false_endTag he _) h
  rw [ScriptElement.text, List.append_assoc, List.append_assoc]
  exact readPage_append_of_dropped he.not_mem_startTag (scriptText_false_startTag he _) hbody

end Page

/-! ## Pages -/

/-- A page: markup, and script elements with the markup behind each. -/
structure Page where
  lead : List Char
  elements : List (ScriptElement × List Char)

namespace Page

def text (page : Page) : List Char :=
  page.lead ++ page.elements.flatMap fun x => x.1.text ++ x.2

def lines (page : Page) : List Line :=
  Text.splitAt '\n' page.text

/-- What is left of a page: the bodies of the scripts that run in it, and all line breaks. -/
def shown (page : Page) : List Char :=
  breaks page.lead ++ page.elements.flatMap fun x => x.1.shown ++ breaks x.2

/-- No script begins in the markup of the page, and there are no comments in it. -/
structure IsWritten (page : Page) : Prop where
  lead : Lacks "<script".toList page.lead
  elements : ∀ x ∈ page.elements, x.1.IsWritten ∧ Lacks "<script".toList x.2
  uncommented : ¬ markupOpener <:+: page.text

variable {page : Page}

/-- Elements in a row begin with a sign, if there are any. -/
theorem opens_elements {elements : List (ScriptElement × List Char)}
    (h : ∀ x ∈ elements, x.1.IsWritten ∧ Lacks "<script".toList x.2) :
    Opens (elements.flatMap fun x => x.1.text ++ x.2) := by
  cases elements with
  | nil => exact .inl rfl
  | cons x elements =>
    rw [List.flatMap_cons, ScriptElement.text, List.append_assoc, List.append_assoc]
    exact opens_startTag (h x List.mem_cons_self).1 _

/-- Line by line the parts of scripts that run in the page are shown, and nothing else. -/
theorem IsWritten.inlineScripts_lines (h : page.IsWritten) :
    inlineScripts page.lines = Text.splitAt '\n' page.shown := by
  obtain ⟨lead, elements⟩ := page
  -- in front of each element no script is open
  have hrest : ∀ elements : List (ScriptElement × List Char),
      (∀ x ∈ elements, x.1.IsWritten ∧ Lacks "<script".toList x.2) →
      readPage false (elements.flatMap fun x => x.1.text ++ x.2) =
        Text.splitAt '\n' (elements.flatMap fun x => x.1.shown ++ breaks x.2) := by
    intro elements helements
    induction elements with
    | nil => rfl
    | cons x elements ih =>
      obtain ⟨hx, hothers⟩ := List.forall_mem_cons.mp helements
      rw [List.flatMap_cons, List.flatMap_cons, List.append_assoc, List.append_assoc]
      exact readPage_element hx.1 (readPage_markup hx.2 (opens_elements hothers) (ih hothers))
  exact readPage_markup h.lead (opens_elements h.elements) (hrest elements h.elements)

/-- Stripping leaves a page without comments as it is. -/
theorem IsWritten.strip_lines (h : page.IsWritten) :
    CommentRules.markup.strip page.lines = page.lines :=
  strip_markup_of_not_infix fun _ hline hopener =>
    h.uncommented (hopener.trans (Text.isInfix_of_mem_splitAt hline))

/-- A written page is extracted unless one of its lines opens a tag whose class has no name. -/
theorem IsWritten.exists_extract_eq_ok_iff (h : page.IsWritten) :
    (∃ e, extract page.lines = .ok e) ↔ ∀ line ∈ page.lines, ¬ OpensNameless line := by
  have hread := Html.exists_extract_eq_ok_iff page.lines
  rwa [h.strip_lines] at hread

/-- Of a page the parts of the scripts that run in it are shown, line by line, and nothing else. The
page is read exactly when none of its lines opens a section without a name. Two pages that are read
and show the same have the same functions, errors and guarded lines, whatever their markup is. -/
theorem extract_lines (page : Page) (h : page.IsWritten) :
    inlineScripts page.lines = Text.splitAt '\n' page.shown ∧
      (inlineScripts page.lines).length = page.lines.length ∧
      ((∃ e, extract page.lines = .ok e) ↔ ∀ line ∈ page.lines, ¬ OpensNameless line) ∧
      ∀ other : Page, other.IsWritten → other.shown = page.shown →
        ∀ e e', extract page.lines = .ok e → extract other.lines = .ok e' →
          e'.routines = e.routines ∧ e'.errorNames = e.errorNames ∧
            e'.riskPoints = e.riskPoints := by
  refine ⟨h.inlineScripts_lines, length_inlineScriptsFrom _ _, h.exists_extract_eq_ok_iff, ?_⟩
  intro other hother hshown e e' he he'
  obtain ⟨hroutines, herrors, hrisks⟩ := scripts_of_extract_eq_ok he
  obtain ⟨hroutines', herrors', hrisks'⟩ := scripts_of_extract_eq_ok he'
  have hsame : inlineScripts (CommentRules.markup.strip other.lines) =
      inlineScripts (CommentRules.markup.strip page.lines) := by
    rw [hother.strip_lines, hother.inlineScripts_lines, hshown, ← h.inlineScripts_lines,
      h.strip_lines]
  rw [hsame] at hroutines' herrors' hrisks'
  exact ⟨hroutines'.trans hroutines.symm, herrors'.trans herrors.symm,
    hrisks'.trans hrisks.symm⟩

/-! ## Scripts of two kinds on one line -/

/-- A script of another page: its body is not shown. -/
def foreignScript : ScriptElement :=
  ⟨"<SCRIPT".toList, [⟨" ".toList, "Src".toList, '"', "a.js".toList⟩], [], "x\ny".toList,
    "</script".toList, [' ']⟩

/-- A module: its body is shown. -/
def moduleScript : ScriptElement :=
  ⟨"<script".toList, [⟨" ".toList, "type".toList, '\'', "Module".toList⟩], [' '],
    "f();\ng(".toList, "</Script".toList, []⟩

def mixedPage : Page :=
  ⟨"<p>a\n".toList, [(foreignScript, "<hr>".toList), (moduleScript, "b".toList),
    (moduleScript, [])]⟩

theorem isWritten_foreignScript : foreignScript.IsWritten := by
  constructor
  · decide
  · refine List.forall_mem_singleton.mpr ⟨by decide, by decide, by decide, rfl, by decide⟩
  · rintro a ⟨⟩
    decide
  · exact List.forall_mem_nil _
  · decide
  · exact fun _ => by decide
  · decide
  · decide

theorem isWritten_moduleScript : moduleScript.IsWritten := by
  constructor
  · decide
  · refine List.forall_mem_singleton.mpr ⟨by decide, by decide, by decide, rfl, by decide⟩
  · rintro a ⟨⟩
    decide
  · decide
  · decide
  · exact fun _ => by decide
  · decide
  · exact List.forall_mem_nil _

theorem isWritten_mixedPage : mixedPage.IsWritten := by
  constructor
  · decide
  · exact List.forall_mem_cons.mpr ⟨⟨isWritten_foreignScript, by decide⟩,
      List.forall_mem_cons.mpr ⟨⟨isWritten_moduleScript, by decide⟩,
        List.forall_mem_singleton.mpr ⟨isWritten_moduleScript, by decide⟩⟩⟩
  · decide +kernel

theorem extract_lines_mixed : mixedPage.IsWritten ∧
    inlineScripts mixedPage.lines =
      ["".toList, "".toList, "f();".toList, "g(f();".toList, "g(".toList] ∧
    ∃ e, extract mixedPage.lines = .ok e := by
  have hnameless : ∀ line ∈ mixedPage.lines, ¬ OpensNameless line := by
    have hlines : mixedPage.lines = ["<p>a".toList, "<SCRIPT Src=\"a.js\">x".toList,
        "y</script ><hr><script type='Module' >f();".toList,
        "g(</Script>b<script type='Module' >f();".toList, "g(</Script>".toList] := by decide
    rw [hlines]
    simp only [List.forall_mem_cons]
    exact ⟨not_opensNameless rfl, not_opensNameless rfl, not_opensNameless rfl,
      not_opensNameless rfl, not_opensNameless rfl, List.forall_mem_nil _⟩
  have hshown : Text.splitAt '\n' mixedPage.shown =
      ["".toList, "".toList, "f();".toList, "g(f();".toList, "g(".toList] := by decide
  obtain ⟨hscripts, -, hreads, -⟩ := extract_lines mixedPage isWritten_mixedPage
  exact ⟨isWritten_mixedPage, hscripts.trans hshown, hreads.mpr hnameless⟩

/-! ## Markup that is not read -/

/-- A script of one function. -/
def functionScript : ScriptElement :=
  ⟨"<script".toList, [], [], "function f() \x7b\x7d".toList, "</script".toList, []⟩

/-- The script below a line of markup. -/
def pageBelow (markup : List Char) : Page :=
  ⟨markup ++ ['\n'], [(functionScript, [])]⟩

theorem isWritten_functionScript : functionScript.IsWritten := by
  constructor
  · decide
  · exact List.forall_mem_nil _
  · rintro a ⟨⟩
  · exact List.forall_mem_nil _
  · decide
  · exact fun _ => by decide
  · decide
  · exact List.forall_mem_nil _

/-- Other markup may be in the way of the functions of a page: it is not read if a line of it opens
a section whose class is blank. -/
theorem not_forall_exists_extract_lines :
    ¬ ∀ page other : Page, page.IsWritten → other.IsWritten → other.shown = page.shown →
      ∀ e, extract page.lines = .ok e → ∃ e', extract other.lines = .ok e' ∧
        e'.routines = e.routines ∧ e'.errorNames = e.errorNames ∧
          e'.riskPoints = e.riskPoints := by
  intro h
  have hpage : (pageBelow "<p>".toList).IsWritten :=
    ⟨by decide, List.forall_mem_singleton.mpr ⟨isWritten_functionScript, by decide⟩,
      by decide +kernel⟩
  have hother : (pageBelow "<div class=\" \">".toList).IsWritten :=
    ⟨by decide, List.forall_mem_singleton.mpr ⟨isWritten_functionScript, by decide⟩,
      by decide +kernel⟩
  have hshown : (pageBelow "<div class=\" \">".toList).shown = (pageBelow "<p>".toList).shown := by
    decide
  have hnameless : ∀ line ∈ (pageBelow "<p>".toList).lines, ¬ OpensNameless line := by
    have hlines : (pageBelow "<p>".toList).lines =
        ["<p>".toList, "<script>function f() \x7b\x7d</script>".toList] := by decide
    rw [hlines]
    simp only [List.forall_mem_cons]
    exact ⟨not_opensNameless rfl, not_opensNameless rfl, List.forall_mem_nil _⟩
  obtain ⟨e, he⟩ := hpage.exists_extract_eq_ok_iff.mpr hnameless
  obtain ⟨e', he', -⟩ := h _ _ hpage hother hshown e he
  have hfirst : "<div class=\" \">".toList ∈ (pageBelow "<div class=\" \">".toList).lines := by
    decide
  exact hother.exists_extract_eq_ok_iff.mp ⟨e', he'⟩ _ hfirst opensNameless_blankClass

end Page

end SourceSurvey.Extract.Html
