import SourceSurvey.Proofs.Comment.Reread
import SourceSurvey.Proofs.Extract.Continuation
import SourceSurvey.Proofs.Extract.Line
import SourceSurvey.Proofs.Extract.UseClause
import SourceSurvey.Proofs.Place.Append

/-!
# Statements of a namespace use

A `use` statement at brace depth zero, with its clause broken over any number of lines, anywhere in a
PHP file. Main statement: it is read as one import for each module that its clause lists, all of them
on the lines of the statement, and what stands above it is read as if it stood alone.
-/

namespace SourceSurvey.Extract.Php

open Pattern

/-! ## Joined lines -/

/-- Lines joined to the text of a statement as long as it has no semicolon, with their number. -/
def joinStatement (text : List Char) (lines : List Line) : List Char × Nat :=
  extendWhile (fun t => !t.contains ';') (fun t l => t ++ ' ' :: Text.trim l) text lines

theorem joinStatement_of_mem {text : List Char} (h : ';' ∈ text) (lines : List Line) :
    joinStatement text lines = (text, 0) :=
  extendWhile_of_not_goesOn (by simp [h]) lines

theorem joinStatement_cons {text : List Char} (h : ';' ∉ text) (line : Line) (lines : List Line) :
    joinStatement text (line :: lines) =
      ((joinStatement (text ++ ' ' :: Text.trim line) lines).1,
        (joinStatement (text ++ ' ' :: Text.trim line) lines).2 + 1) :=
  extendWhile_of_goesOn (by simp [h]) line lines

/-- Lines up to a semicolon are joined alike, whatever lines are below. -/
theorem joinStatement_append {text : List Char} {lines : List Line}
    (h : ';' ∈ text ∨ ∃ line ∈ lines, ';' ∈ line) (more : List Line) :
    joinStatement text (lines ++ more) = joinStatement text lines := by
  induction lines generalizing text with
  | nil =>
    have hmem : ';' ∈ text := h.resolve_right (by simp)
    rw [joinStatement_of_mem hmem, joinStatement_of_mem hmem]
  | cons line lines ih =>
    by_cases hmem : ';' ∈ text
    · rw [joinStatement_of_mem hmem, joinStatement_of_mem hmem]
    · have hnext : ';' ∈ text ++ ' ' :: Text.trim line ∨ ∃ l ∈ lines, ';' ∈ l := by
        obtain ⟨l, hl, hsemicolon⟩ := h.resolve_left hmem
        rcases List.mem_cons.mp hl with rfl | hl
        · have htrim := Text.mem_trim hsemicolon (by decide)
          exact .inl (by simp [htrim])
        · exact .inr ⟨l, hl, hsemicolon⟩
      rw [List.cons_append, joinStatement_cons hmem, joinStatement_cons hmem, ih hnext]

/-- The lines of a text up to a semicolon on the last of them are joined to a text with the same words
in front of the semicolon. -/
theorem exists_joinStatement {tail : List Char} (htail : '\n' ∉ tail) (body : List Char)
    (hbody : ';' ∉ body) :
    ∃ joined, ';' ∉ joined ∧ '\n' ∉ joined ∧ Text.fields joined = Text.fields body ∧
      ∀ {text : List Char} (below : List Line), ';' ∉ text →
        joinStatement text (Text.splitAt '\n' (body ++ ';' :: tail) ++ below) =
          (text ++ ' ' :: (joined ++ ';' :: Text.trimEnd tail),
            (Text.splitAt '\n' (body ++ ';' :: tail)).length) := by
  -- by the lines of the body: each is joined trimmed, so only its words are kept
  induction body using Text.induction_at_separator '\n' with
  | piece body hfeed =>
    have hlines : Text.splitAt '\n' (body ++ ';' :: tail) = [body ++ ';' :: tail] :=
      Text.splitAt_of_not_mem (by simp [hfeed, htail])
    refine ⟨Text.trimStart body, fun hmem => hbody ((List.dropWhile_suffix _).subset hmem),
      fun hmem => hfeed ((List.dropWhile_suffix _).subset hmem), Text.fields_trimStart body,
      fun below htext => ?_⟩
    have htrim := Text.trim_append_cons (by decide : Text.isSpace ';' = false) body tail
    rw [hlines, List.singleton_append, joinStatement_cons htext, htrim,
      joinStatement_of_mem (by simp)]
    rfl
  | cut front rest hfeed ih =>
    rw [List.mem_append, List.mem_cons, not_or, not_or] at hbody
    obtain ⟨joined, hsemicolon, hline, hwords, hjoined⟩ := ih hbody.2.2
    have hlines : Text.splitAt '\n' (front ++ '\n' :: rest ++ ';' :: tail) =
        front :: Text.splitAt '\n' (rest ++ ';' :: tail) := by
      rw [List.append_assoc, List.cons_append, Text.splitAt_append_cons hfeed]
    have htrim : ∀ {d}, d ∉ front → d ∉ Text.trim front := fun hd hmem =>
      hd (Text.trim_subset front hmem)
    refine ⟨Text.trim front ++ ' ' :: joined, by simp [htrim hbody.1, hsemicolon],
      by simp [htrim hfeed, hline], ?_, fun below htext => ?_⟩
    · rw [Text.fields_append_cons (by decide), Text.fields_append_cons (by decide),
        Text.fields_trim, hwords]
    · rw [hlines, List.cons_append, joinStatement_cons htext,
        hjoined below (by simp [htext, htrim hbody.1])]
      simp

/-! ## The lines of a statement -/

/-- The words that say what is imported where they stand in front of a clause. -/
def kindWords : List String := ["function", "const"]

/-- The text has a first word, and this does not say what is imported. -/
def BeginsClause (text : List Char) : Prop :=
  ∃ word, (Text.fields text).head? = some word ∧ ∀ kind ∈ kindWords, kind.toList ≠ word

theorem BeginsClause.congr {text other : List Char} (h : BeginsClause text)
    (hwords : Text.fields other = Text.fields text) : BeginsClause other := by
  unfold BeginsClause
  rwa [hwords]

theorem BeginsClause.trimStart_ne_nil {text : List Char} (h : BeginsClause text) :
    Text.trimStart text ≠ [] := by
  obtain ⟨word, hword, -⟩ := h
  intro hnil
  rw [← Text.fields_trimStart, hnil] at hword
  cases hword

/-- The lines of a `use` statement: its clause may be broken over any number of them, and the last
one may go on behind the semicolon. -/
def statementLines (indent : Blanks) (clause tail : List Char) : List Line :=
  Text.splitAt '\n' (indent.text ++ ("use ".toList ++ (clause ++ ';' :: tail)))

/-- A text that begins on one line, up to a character that is no blank, is joined to that beginning
and the words behind it. -/
theorem exists_joinStatement_behind (front : List Char) {tail : List Char} {c : Char}
    (htail : '\n' ∉ tail)
    (hfront : '\n' ∉ front ++ [c]) (hfront' : ';' ∉ front ++ [c]) (hc : Text.isSpace c = false)
    (rest : List Char) (hrest : ';' ∉ rest) :
    ∃ row rows, Text.splitAt '\n' (front ++ c :: (rest ++ ';' :: tail)) = row :: rows ∧
      Text.trimStart front ++ [c] <+: Text.trim row ∧
      ∃ more, ';' ∉ more ∧ '\n' ∉ more ∧
        (∀ before, Text.fields (before ++ c :: more) = Text.fields (before ++ c :: rest)) ∧
        ∀ below, joinStatement (Text.trim row) (rows ++ below) =
          (Text.trimStart front ++ c :: (more ++ ';' :: Text.trimEnd tail), rows.length) := by
  have hrow : ∀ first, Text.trim (front ++ c :: first) =
      Text.trimStart front ++ c :: Text.trimEnd first := Text.trim_append_cons hc front
  have hbegins : ∀ more, Text.trimStart front ++ [c] <+: Text.trimStart front ++ c :: more :=
    fun more => ⟨more, by simp⟩
  simp only [List.mem_append, List.mem_singleton, not_or] at hfront hfront'
  -- only a text that is broken has lines to join behind the first one
  by_cases hbroken : '\n' ∈ rest
  · obtain ⟨first, others, rfl, hfirst⟩ := List.eq_append_cons_of_mem hbroken
    simp only [List.mem_append, List.mem_cons, not_or] at hrest
    obtain ⟨joined, hsemicolon, hline, hwords, hjoined⟩ :=
      exists_joinStatement htail others hrest.2.2
    have hlines : Text.splitAt '\n' (front ++ c :: (first ++ '\n' :: others ++ ';' :: tail)) =
        (front ++ c :: first) :: Text.splitAt '\n' (others ++ ';' :: tail) := by
      have htext : front ++ c :: (first ++ '\n' :: others ++ ';' :: tail) =
          front ++ c :: first ++ '\n' :: (others ++ ';' :: tail) := by simp
      rw [htext, Text.splitAt_append_cons (by simp [hfront, hfirst])]
    have hend : ∀ {d}, d ∉ first → d ∉ Text.trimEnd first := fun hd hmem =>
      hd ((Text.trimEndWhile_isPrefix _ _).subset hmem)
    have hopen : ';' ∉ Text.trimStart front ++ c :: Text.trimEnd first := by
      have hstart : ';' ∉ Text.trimStart front := fun hmem =>
        hfront'.1 ((List.dropWhile_suffix _).subset hmem)
      simp [hstart, hfront'.2, hend hrest.1]
    refine ⟨_, _, hlines, hrow first ▸ hbegins _, Text.trimEnd first ++ ' ' :: joined,
      by simp [hend hrest.1, hsemicolon], by simp [hend hfirst, hline], fun before => ?_,
      fun below => ?_⟩
    · have htrim : Text.trimEnd (before ++ c :: first) = before ++ c :: Text.trimEnd first :=
        Text.trimEndWhile_append_cons hc before first
      have hjoin : before ++ c :: (Text.trimEnd first ++ ' ' :: joined) =
          Text.trimEnd (before ++ c :: first) ++ ' ' :: joined := by
        rw [htrim]
        simp
      have hbreak : before ++ c :: (first ++ '\n' :: others) =
          before ++ c :: first ++ '\n' :: others := by simp
      rw [hjoin, hbreak, Text.fields_append_cons (by decide : Text.isSpace ' ' = true),
        Text.fields_append_cons (by decide : Text.isSpace '\n' = true), Text.fields_trimEnd, hwords]
    · rw [hrow, hjoined below hopen]
      simp
  · have hlines : Text.splitAt '\n' (front ++ c :: (rest ++ ';' :: tail)) =
        [front ++ c :: (rest ++ ';' :: tail)] :=
      Text.splitAt_of_not_mem (by simp [hfront, hbroken, htail])
    have hend : Text.trimEnd (rest ++ ';' :: tail) = rest ++ ';' :: Text.trimEnd tail :=
      Text.trimEndWhile_append_cons (by decide) rest tail
    refine ⟨_, _, hlines, hrow _ ▸ hbegins _, rest, hrest, hbroken, fun before => rfl,
      fun below => ?_⟩
    rw [hrow, hend, joinStatement_of_mem (by simp)]
    rfl

/-- The first line begins with the word `use`, and all lines are joined to a text with the words of the
clause up to the semicolon. -/
theorem exists_statementLines_eq (indent : Blanks) {clause tail : List Char} (htail : '\n' ∉ tail)
    (hclause : ';' ∉ clause) (hbegins : BeginsClause clause)
    (hlead : '\n' ∉ Text.indentation clause) :
    ∃ row rows, statementLines indent clause tail = row :: rows ∧
      "use ".toList <+: Text.trim row ∧
      ∃ joined, ';' ∉ joined ∧ '\n' ∉ joined ∧ Text.fields joined = Text.fields clause ∧
        ∀ below, joinStatement (Text.trim row) (rows ++ below) =
          ("use ".toList ++ (joined ++ ';' :: Text.trimEnd tail), rows.length) := by
  -- the first solid character of the clause: the statement's first row reaches at least that far
  obtain ⟨c, rest, hrest, hc⟩ : ∃ c rest, clause = Text.indentation clause ++ c :: rest ∧
      Text.isSpace c = false := by
    have hhead := Text.head?_dropWhile_any Text.isSpace clause
    have hsplit : Text.indentation clause ++ clause.dropWhile Text.isSpace = clause :=
      List.takeWhile_append_dropWhile
    cases hdrop : clause.dropWhile Text.isSpace with
    | nil => exact absurd hdrop hbegins.trimStart_ne_nil
    | cons c rest =>
      rw [hdrop] at hhead hsplit
      exact ⟨c, rest, hsplit.symm, hhead⟩
  have hblanks : ∀ d ∈ Text.indentation clause, Text.isSpace d = true :=
    List.all_eq_true.mp List.all_takeWhile
  generalize Text.indentation clause = lead at hrest hblanks hlead
  subst hrest
  simp only [List.mem_append, List.mem_cons, not_or] at hclause
  obtain ⟨hlead', hc', hrest⟩ := hclause
  have hindent : ';' ∉ indent.text := Text.not_mem_of_class indent.isSpace (by decide)
  have hfeed : '\n' ≠ c := (Text.ne_of_class (by decide : Text.isSpace '\n' = true) hc)
  have hstart : Text.trimStart (indent.text ++ ("use ".toList ++ lead)) = "use ".toList ++ lead :=
    Text.dropWhile_append_cons indent.isSpace (by decide) _
  obtain ⟨row, rows, hlines, hfirst, more, hmore, hmore', hwords, hjoined⟩ :=
    exists_joinStatement_behind (indent.text ++ ("use ".toList ++ lead)) htail
      (by simp [indent.noFeed, hlead, hfeed]) (by simp [hindent, hlead', hc']) hc rest hrest
  rw [hstart] at hfirst hjoined
  have htext : indent.text ++ ("use ".toList ++ (lead ++ c :: rest ++ ';' :: tail)) =
      indent.text ++ ("use ".toList ++ lead) ++ c :: (rest ++ ';' :: tail) := by simp
  refine ⟨row, rows, by rw [statementLines, htext, hlines], ?_, lead ++ c :: more,
    by simp [hlead', hc', hmore], by simp [hlead, hfeed, hmore'], hwords lead, fun below => ?_⟩
  · rw [List.append_assoc] at hfirst
    exact (List.prefix_append _ _).trans hfirst
  · rw [hjoined]
    simp

/-! ## Reading a statement -/

/-- A text whose first word is no such word is read as a clause from its beginning. -/
theorem refuses_kind {core : List Char} (hsolid : BeginsSolid core) (hbegins : BeginsClause core)
    {after : List Char} (hafter : ∀ c ∈ after, Text.isSpace c = true) (rest : List Char) :
    (oneOf kindWords >>= fun _ => blanks1).Refuses (core ++ (after ++ ';' :: rest)) := by
  let isSolid : Char → Bool := fun c => !Text.isSpace c
  have hwords : ∀ w ∈ kindWords, ∀ c ∈ w.toList, isSolid c = true :=
    forall_mem_toList_of_all (by decide)
  have hfirst : ∀ w ∈ kindWords, w.toList ≠ core.takeWhile isSolid := by
    obtain ⟨word, hword, hkind⟩ := hbegins
    have hne : core ≠ [] := by
      rintro rfl
      cases hword
    rw [Text.head?_fields hne hsolid, Option.some_inj] at hword
    exact fun w hw => hword ▸ hkind w hw
  have hname : ∀ w ∈ kindWords, w.toList ≠ (core ++ (after ++ ';' :: rest)).takeWhile isSolid := by
    intro w hw hname
    have hsemicolon : ';' ∉ w.toList := by
      have hnone : kindWords.all (fun w => !w.toList.contains ';') = true := by decide
      simpa using List.all_eq_true.mp hnone w hw
    -- the first word may only end where the core ends, and there stands a blank or the semicolon
    rw [List.takeWhile_append] at hname
    split at hname
    · next hlength =>
      have hcore : core.takeWhile isSolid = core :=
        (List.takeWhile_prefix isSolid).eq_of_length hlength
      cases after with
      | nil =>
        rw [List.nil_append, List.takeWhile_cons_of_pos (by decide)] at hname
        exact hsemicolon (hname ▸ by simp)
      | cons c cs =>
        rw [List.cons_append, List.takeWhile_cons_of_neg (by simp [isSolid, hafter c]),
          List.append_nil] at hname
        exact hfirst w hw (hname.trans hcore.symm)
    · exact hfirst w hw hname
  rw [← List.takeWhile_append_dropWhile (p := isSolid) (l := core ++ (after ++ ';' :: rest))]
  refine refuses_oneOf_bind (fun c hc => by simpa [isSolid] using hc)
    (List.all_eq_true.mp List.all_takeWhile) (Text.head?_dropWhile_any isSolid _) hwords hname ?_
  exact fun _ _ h => refuses_blanks1 h

/-- What is left of a text that ends in a solid character does not begin with the end of a
clause. -/
theorem refuses_end_drop {core : List Char} {n : Nat}
    (hlast : ∀ c, core.getLast? = some c → Text.isSpace c = false) (hn : n < core.length)
    (hsemicolon : ';' ∉ core.drop n) (more clause : List Char) :
    Pattern.Refuses (do blanks; lit ";"; return clause) (core.drop n ++ more) := by
  refine reads_blanks.refuses_bind fun front back _ hsplit hblanks => (refuses_lit ?_).bind _
  rintro ⟨back, rfl⟩
  obtain ⟨c, hc⟩ : ∃ c, core.getLast? = some c := by
    refine Option.ne_none_iff_exists'.mp fun hnone => ?_
    rw [List.getLast?_eq_none_iff.mp hnone] at hn
    cases hn
  have hmem : c ∈ core.drop n := by
    refine List.mem_of_getLast? ?_
    rw [List.getLast?_drop, if_neg (by omega), hc]
  have hsolid : c ∉ front := fun hfront =>
    Text.ne_of_class (hblanks c hfront) (hlast c hc) rfl
  -- the blanks would have to pass over the last character to reach a semicolon behind the text
  rcases List.append_eq_append_iff.mp hsplit with ⟨more, hmore, -⟩ | ⟨more, hmore, hback⟩
  · exact hsolid (hmore ▸ List.mem_append_left more hmem)
  · cases more with
    | nil =>
      rw [List.append_nil] at hmore
      exact hsolid (hmore ▸ hmem)
    | cons d ds =>
      obtain rfl : ';' = d := (List.cons.inj hback).1
      refine hsemicolon ?_
      rw [hmore]
      simp

/-- A joined statement is read as its clause, trimmed. -/
theorem takes_useClause {joined : List Char} (hsemicolon : ';' ∉ joined) (hfeed : '\n' ∉ joined)
    (hbegins : BeginsClause joined) (rest : List Char) :
    useClause.Takes ("use ".toList ++ (joined ++ ';' :: rest)) (Text.trim joined) rest := by
  obtain ⟨before, after, htext, hbefore, hafter, hlast⟩ := Text.exists_trim_append joined
  have hsubset := Text.trim_subset joined
  have hbegins := hbegins.congr (Text.fields_trim joined)
  have hword : Text.trim joined ≠ [] := fun hnil => by
    rw [hnil] at hbegins
    exact hbegins.trimStart_ne_nil rfl
  generalize hcore : Text.trim joined = core at *
  have hsolid : ∀ more, BeginsSolid (core ++ more) := by
    intro more
    cases core with
    | nil => exact absurd rfl hword
    | cons c cs => exact Text.isSpace_eq_false_of_trim_eq_cons hcore
  have hlong : 1 ≤ core.length := List.length_pos_iff.mpr hword
  have hchars : ∀ c ∈ core, notLineFeed c = true := by
    intro c hc
    have hne : c ≠ '\n' := fun h => hfeed (hsubset (h ▸ hc))
    simpa [notLineFeed] using hne
  have hwhole : "use ".toList ++ (joined ++ ';' :: rest) =
      "use".toList ++ ((' ' :: before) ++ (core ++ (after ++ ';' :: rest))) := by
    rw [htext]
    simp
  rw [hwhole]
  unfold useClause
  -- the words for functions and constants are not taken from a clause of this form
  have hkinds := refuses_kind (List.append_nil core ▸ hsolid []) hbegins hafter rest
  refine (takes_lit "use" _).bind ((takes_blanks1 (List.cons_ne_nil _ _) ?_ (hsolid _)).bind
    (hkinds.opt.bind (takes_runLazy_bind hchars hlong (fun n _ hn => ?_) ?_)))
  · intro c hc
    rcases List.mem_cons.mp hc with rfl | hc
    · decide
    · exact hbefore c hc
  · exact refuses_end_drop hlast hn (fun hmem => hsemicolon (hsubset (List.mem_of_mem_drop hmem)))
      (after ++ ';' :: rest) (core.take n)
  · exact (takes_blanks hafter rfl).bind ((takes_lit ";" rest).bind (takes_pure core rest))

/-- A `use` statement at depth zero is read as what its clause lists, on all of its lines. -/
theorem importsAt_statement (indent : Blanks) {clause tail : List Char} (htail : '\n' ∉ tail)
    (hclause : ';' ∉ clause) (hbegins : BeginsClause clause)
    (hlead : '\n' ∉ Text.indentation clause) :
    ∃ row rows, statementLines indent clause tail = row :: rows ∧
      ∀ {above below : List SourceLine} {here : SourceLine} {more : List Line}, here.code = row →
        below.map (·.code) = rows ++ more →
        importsAt (0, ⟨above, here, below⟩) = ((usedModules clause).map fun (module, bound) =>
          ⟨.ofList module, [.ofList bound], true, above.length + 1,
            above.length + 1 + rows.length⟩, rows.length) := by
  obtain ⟨row, rows, hlines, hopens, joined, hsemicolon, hfeed, hwords, hjoined⟩ :=
    exists_statementLines_eq indent htail hclause hbegins hlead
  have hread := (takes_useClause hsemicolon hfeed (hbegins.congr hwords)
    (Text.trimEnd tail)).matchStart?
  have hmodules : usedModules (Text.trim joined) = usedModules clause := by
    rw [usedModules, usedModules, usedPaths_congr ((Text.fields_trim joined).trans hwords)]
  have hspan : ∀ (module bound : List Char) (first : Nat),
      ImportStatement.spanning (.ofList module) [.ofList bound] true first (first + rows.length) =
        ⟨.ofList module, [.ofList bound], true, first, first + rows.length⟩ := by
    intro module bound first
    rw [ImportStatement.spanning, Nat.max_eq_right (Nat.le_add_right _ _)]
  refine ⟨row, rows, hlines, fun {above below here more} hhere hbelow => ?_⟩
  have hstatement := hjoined more
  unfold joinStatement at hstatement
  have htop : ("use ".toList.isPrefixOf (Text.trim row) && (0 : Nat) == 0) = true := by
    rw [List.isPrefixOf_iff_prefix.mpr hopens]
    rfl
  unfold importsAt
  dsimp only [Place.code]
  rw [hhere, if_pos htop, hbelow, hstatement]
  dsimp only
  rw [hread, Option.map_some, Option.getD_some, hmodules]
  exact Prod.ext (List.map_congr_left fun pair _ => hspan pair.1 pair.2 _) rfl

/-! ## What stands above a statement -/

/-- Every `use` at depth zero has a semicolon on its line or on one below it. -/
def ClosesUses : Nat → List Line → Prop
  | _, [] => True
  | depth, line :: lines =>
    (depth = 0 → "use ".toList <+: Text.trim line → ∃ l ∈ line :: lines, ';' ∈ l) ∧
      ClosesUses (depth + openBraces line - closeBraces line) lines

instance decidableClosesUses : ∀ depth lines, Decidable (ClosesUses depth lines)
  | _, [] => inferInstanceAs (Decidable True)
  | depth, line :: lines =>
    have := decidableClosesUses (depth + openBraces line - closeBraces line) lines
    inferInstanceAs (Decidable (_ ∧ _))

theorem importsAt_taken_le (q : Nat × Place) : (importsAt q).2 ≤ q.2.below.length := by
  obtain ⟨depth, p⟩ := q
  have hbelow : (p.below.map (·.code)).length = p.below.length := List.length_map _
  unfold importsAt
  dsimp only
  split
  · rw [← hbelow]
    exact extendWhile_taken_le _ _ _ _
  · split
    · split <;> exact Nat.zero_le _
    · exact Nat.zero_le _

/-- Lines below the end of a `use` have no part in it. -/
theorem importsAt_append {depth : Nat} {above below : List SourceLine} {here : SourceLine}
    (h : depth = 0 → "use ".toList <+: Text.trim here.code →
      ∃ l ∈ here.code :: below.map (·.code), ';' ∈ l) (more : List SourceLine) :
    importsAt (depth, ⟨above, here, below ++ more⟩) = importsAt (depth, ⟨above, here, below⟩) := by
  unfold importsAt
  dsimp only [Place.code]
  by_cases hopens : ("use ".toList.isPrefixOf (Text.trim here.code) && depth == 0) = true
  · obtain ⟨hstart, hdepth⟩ := Bool.and_eq_true_iff.mp hopens
    obtain ⟨l, hl, hsemicolon⟩ := h (beq_iff_eq.mp hdepth) (List.isPrefixOf_iff_prefix.mp hstart)
    have hends : ';' ∈ Text.trim here.code ∨ ∃ l ∈ below.map (·.code), ';' ∈ l := by
      rcases List.mem_cons.mp hl with rfl | hl
      · exact .inl (Text.mem_trim hsemicolon (by decide))
      · exact .inr ⟨l, hl, hsemicolon⟩
    have hjoined := joinStatement_append hends (more.map (·.code))
    unfold joinStatement at hjoined
    rw [if_pos hopens, if_pos hopens, List.map_append, hjoined]
    rfl
  · rw [if_neg hopens, if_neg hopens]
    rfl

/-- Where every `use` of the first lines ends in them, these are read as if they stood alone. -/
theorem readStatements_append {skip depth : Nat} {lines : List SourceLine}
    (hskip : skip ≤ lines.length) (h : ClosesUses depth (lines.map (·.code)))
    (above more : List SourceLine) :
    readStatements importsAt skip (placesWithDepthsFrom depth above (lines ++ more)) =
      readStatements importsAt skip (placesWithDepthsFrom depth above lines) ++
        readStatements importsAt 0 (placesWithDepthsFrom (depthAfter depth (lines.map (·.code)))
          (lines.reverse ++ above) more) := by
  induction lines generalizing skip depth above with
  | nil =>
    obtain rfl : skip = 0 := Nat.le_zero.mp hskip
    rfl
  | cons line lines ih =>
    obtain ⟨hline, hlines⟩ := h
    rw [List.cons_append, placesWithDepthsFrom_cons, placesWithDepthsFrom_cons, List.reverse_cons,
      List.append_assoc]
    -- a line that is not skipped takes lines of the first part only, which are skipped there
    cases skip with
    | zero =>
      have htaken : (importsAt (depth, ⟨above, line, lines⟩)).2 ≤ lines.length :=
        importsAt_taken_le (depth, ⟨above, line, lines⟩)
      rw [readStatements, readStatements, importsAt_append hline]
      dsimp only
      rw [ih htaken hlines (line :: above), List.append_assoc]
      rfl
    | succ skip => exact ih (Nat.le_of_succ_le_succ hskip) hlines (line :: above)

/-- What is read below some lines begins below them. -/
theorem lt_line_of_mem_readStatements {depth : Nat} {above lines : List SourceLine}
    {i : ImportStatement}
    (h : i ∈ readStatements importsAt 0 (placesWithDepthsFrom depth above lines)) :
    above.length < i.line := by
  obtain ⟨q, hq, hi⟩ := List.mem_flatMap.mp ((readStatements_sublist _ _ _).subset h)
  have hnumber := List.mem_map_of_mem (f := Place.number) (List.of_mem_zip hq).2
  rw [map_number_placesFrom, List.mem_range'_1] at hnumber
  rw [(importsAt_standsAt q i hi).line_eq]
  omega

/-- A statement is read, and reading goes on behind its lines. -/
theorem readStatements_statement (indent : Blanks) {clause tail : List Char} (htail : '\n' ∉ tail)
    (hclause : ';' ∉ clause) (hbegins : BeginsClause clause)
    (hlead : '\n' ∉ Text.indentation clause) {lines : List SourceLine}
    (hlines : lines.map (·.code) = statementLines indent clause tail)
    (above below : List SourceLine) :
    readStatements importsAt 0 (placesWithDepthsFrom 0 above (lines ++ below)) =
      ((usedModules clause).map fun (module, bound) => ⟨.ofList module, [.ofList bound], true,
        above.length + 1, above.length + lines.length⟩) ++
      readStatements importsAt 0 (placesWithDepthsFrom (depthAfter 0 (lines.map (·.code)))
        (lines.reverse ++ above) below) := by
  obtain ⟨row, rows, hrows, hread⟩ := importsAt_statement indent htail hclause hbegins hlead
  cases lines with
  | nil =>
    rw [hrows] at hlines
    cases hlines
  | cons line lines =>
    rw [hrows, List.map_cons, List.cons.injEq] at hlines
    have hbelow : (lines ++ below).map (·.code) = rows ++ below.map (·.code) := by
      rw [List.map_append, hlines.2]
    have hlength : rows.length = lines.length := by
      rw [← hlines.2, List.length_map]
    rw [List.cons_append, placesWithDepthsFrom_cons, readStatements, hread hlines.1 hbelow]
    dsimp only
    rw [readStatements_eq_drop, hlength, drop_placesWithDepthsFrom, List.length_cons,
      List.reverse_cons, List.append_assoc, Nat.add_assoc, Nat.add_comm 1]
    rfl

/-! ## Written statements -/

/-- A character that opens no comment and no literal. -/
def opensNothing (c : Char) : Bool :=
  c != '/' && c != '#' && c != '"' && c != '\''

/-- No character of a class opens anything if the class has none of those that do. -/
theorem opensNothing_of_class {p : Char → Bool} {c : Char} (h : p c = true)
    (hmarks : ['/', '#', '"', '\''].all (fun d => !p d) = true) : opensNothing c = true := by
  have hne : ∀ d ∈ ['/', '#', '"', '\''], c ≠ d := fun d hd =>
    Text.ne_of_class h (by simpa using List.all_eq_true.mp hmarks d hd)
  simp [opensNothing, hne]

theorem stripFrom_of_opensNothing {text : List Char} (h : ∀ c ∈ text, opensNothing c = true)
    (rest : List Char) :
    CommentRules.slashAndHash.stripFrom 0 .code (text ++ rest) =
      (text ++ (CommentRules.slashAndHash.stripFrom 0 .code rest).1,
        (CommentRules.slashAndHash.stripFrom 0 .code rest).2) := by
  refine CommentRules.stripFrom_append_of_plain (CommentRules.regular_style .php) ?_ rest
  intro c hc
  have hplain := h c hc
  simp only [opensNothing, Bool.and_eq_true, bne_iff_ne] at hplain
  obtain ⟨⟨⟨hslash, hhash⟩, hdouble⟩, hsingle⟩ := hplain
  refine ⟨fun cs hcomment => ?_, ?_⟩
  · rcases CommentRules.opensComment_slashAndHash_iff.mp hcomment with ⟨heq, -⟩ | ⟨heq, -⟩
    · exact hslash heq
    · exact hhash heq
  · show CommentRules.slashAndHash.isQuote c = false
    simp [CommentRules.isQuote, CommentRules.slashAndHash, hdouble, hsingle]

/-- Stripping a line adds no line feed to it. -/
theorem noFeed_stripFrom {line : Line} (h : '\n' ∉ line) :
    '\n' ∉ (CommentRules.slashAndHash.stripFrom 0 .code line).1 := by
  obtain ⟨hsublist, -⟩ := List.forall₂_cons.mp (CommentRules.forall₂_sublist_strip .php [line])
  exact fun hmem => h (hsublist.subset hmem)

/-- Of the lines of a text that opens nothing only what stands behind it is stripped. -/
theorem stripLines_splitAt {tail : List Char} (htail : '\n' ∉ tail) (body : List Char)
    (hbody : ∀ c ∈ body, opensNothing c = true) :
    CommentRules.slashAndHash.stripLines .code (Text.splitAt '\n' (body ++ tail)) =
      Text.splitAt '\n' (body ++ (CommentRules.slashAndHash.stripFrom 0 .code tail).1) := by
  induction body using Text.induction_at_separator '\n' with
  | piece body hfeed =>
    rw [Text.splitAt_of_not_mem (by simp [hfeed, htail]),
      Text.splitAt_of_not_mem (by simp [hfeed, noFeed_stripFrom htail]), CommentRules.stripLines,
      CommentRules.stripLine, stripFrom_of_opensNothing hbody]
    rfl
  | cut front rest hfeed ih =>
    have hline := stripFrom_of_opensNothing (fun d hd => hbody d (List.mem_append_left _ hd)) []
    rw [List.append_nil, CommentRules.stripFrom_nil, List.append_nil] at hline
    rw [List.append_assoc, List.append_assoc, List.cons_append, List.cons_append,
      Text.splitAt_append_cons hfeed, Text.splitAt_append_cons hfeed, CommentRules.stripLines,
      CommentRules.stripLine, hline]
    exact congrArg (front :: ·)
      (ih fun d hd => hbody d (List.mem_append_right _ (List.mem_cons_of_mem _ hd)))

namespace Clause

/-- Below the given lines these are read as a `use` statement of the clause, but for their
comments. -/
def IsWrittenBelow (clause : Clause) (above rows : List Line) : Prop :=
  ∃ (indent : Blanks) (tail : List Char), '\n' ∉ tail ∧
    CommentRules.slashAndHash.strip (above ++ rows) =
      CommentRules.slashAndHash.strip above ++ statementLines indent clause.text tail

/-- The first word behind the `use` says what is imported, so that the clause begins behind it. -/
def NamesKind : Clause → Prop
  | grouped _ root slash .. => slash.text ≠ [] ∧ ∃ kind ∈ kindWords, kind.toList = root.text
  | flat .. => False

/-- A clause is made of the characters of members, of commas and of braces. -/
theorem chars (clause : Clause) :
    ∀ c ∈ clause.text, isMemberChar c = true ∨ c ∈ [',', '\x7b', '\x7d'] := by
  have hcells : ∀ {write : WrittenMember → List Char},
      (∀ m, ∀ c ∈ write m, Php.isMemberChar c = true) → ∀ cells trailing,
      ∀ c ∈ joinCells write cells trailing,
        Php.isMemberChar c = true ∨ c ∈ [',', '\x7b', '\x7d'] := fun hwrite =>
    forall_mem_joinCells (.inr (by decide)) (fun _ hc => .inl (isMemberChar_of_isSpace hc))
      fun m c hc => .inl (hwrite m c hc)
  have hspace : ∀ space : WhiteSpace, ∀ c ∈ space.text, Php.isMemberChar c = true :=
    fun space c hc => isMemberChar_of_isSpace (space.isSpace c hc)
  cases clause with
  | grouped before root slash brace cells trailing after =>
    intro c hc
    simp only [text, List.mem_append, List.mem_cons] at hc
    rcases hc with hc | hc | hc | rfl | hc | rfl | hc | rfl | hc
    · exact .inl (hspace before c hc)
    · exact .inl (isMemberChar_of_pathChar (root.chars c hc))
    · exact .inl (hspace slash c hc)
    · exact .inl (by decide)
    · exact .inl (hspace brace c hc)
    · exact .inr (by decide)
    · exact hcells WrittenMember.isMemberChar cells trailing c hc
    · exact .inr (by decide)
    · exact .inl (hspace after c hc)
  | flat root cells trailing => exact hcells (isMemberChar_behindRoot root) cells trailing

theorem semicolon_not_mem (clause : Clause) : ';' ∉ clause.text := fun hmem => by
  rcases clause.chars ';' hmem with h | h
  · cases h
  · simp at h

theorem opensNothing_text (clause : Clause) : ∀ c ∈ clause.text, opensNothing c = true := by
  intro c hc
  rcases clause.chars c hc with h | h
  · exact opensNothing_of_class h (by decide)
  · have hmarks : [',', '\x7b', '\x7d'].all opensNothing = true := by decide
    exact List.all_eq_true.mp hmarks c h

end Clause

/-- A list begins with its first cell. -/
theorem exists_joinCells_cons {α : Type} (write : α → List Char) (cell : Cell α)
    (cells : List (Cell α)) (trailing : Option WhiteSpace) :
    ∃ more, joinCells write (cell :: cells) trailing = cell.text write ++ more := by
  rw [joinCells, List.map_cons, List.cons_append]
  cases cells.map (Cell.text write) ++ trailing.toList.map WhiteSpace.text with
  | nil => exact ⟨[], by rw [List.intercalate_singleton, List.append_nil]⟩
  | cons next texts =>
    refine ⟨[','] ++ [','].intercalate (next :: texts), ?_⟩
    rw [List.intercalate_cons_cons, List.append_assoc]

/-- The first word of a clause goes on behind its root up to the first blank. -/
theorem beginsClause_of_root {blanks more : List Char} {root : Root} {c : Char}
    (hblanks : ∀ d ∈ blanks, Text.isSpace d = true)
    (hc : c = '\\' ∨ Text.isSpace c = true ∧ ∀ kind ∈ kindWords, kind.toList ≠ root.text) :
    BeginsClause (blanks ++ (root.text ++ c :: more)) := by
  have hne : root.text ++ c :: more ≠ [] := by simp
  have hhead : (root.text ++ c :: more).head?.any Text.isSpace = false := by
    obtain ⟨d, ds, hcons⟩ := List.exists_cons_of_ne_nil root.solid.1
    rw [hcons]
    exact root.solid.2 d (hcons ▸ List.mem_cons_self)
  have hword : (root.text ++ c :: more).takeWhile (fun d => !Text.isSpace d) =
      root.text ++ (c :: more).takeWhile fun d => !Text.isSpace d :=
    List.takeWhile_append_of_pos fun d hd => by simp [root.solid.2 d hd]
  refine ⟨_, by rw [Text.fields_isSpace_append hblanks, Text.head?_fields hne hhead, hword],
    fun kind hkind heq => ?_⟩
  rcases hc with rfl | ⟨hspace, hkinds⟩
  · have hslash : '\\' ∉ kind.toList := by
      have hnone : kindWords.all (fun w => !w.toList.contains '\\') = true := by decide
      simpa using List.all_eq_true.mp hnone kind hkind
    rw [heq, List.takeWhile_cons_of_pos (by decide)] at hslash
    simp at hslash
  · rw [List.takeWhile_cons_of_neg (by simp [hspace]), List.append_nil] at heq
    exact hkinds kind hkind heq

namespace Clause

theorem beginsClause {clause : Clause} (hmembers : clause.members ≠ [])
    (hkind : ¬ clause.NamesKind) : BeginsClause clause.text := by
  cases clause with
  | grouped before root slash brace cells trailing after =>
    have hspace := slash.isSpace
    simp only [NamesKind] at hkind
    rw [Clause.text]
    cases hslash : slash.text with
    | nil => exact beginsClause_of_root before.isSpace (.inl rfl)
    | cons c cs =>
      rw [hslash] at hkind hspace
      have hkinds : ∀ kind ∈ kindWords, kind.toList ≠ root.text := fun kind hmem heq =>
        hkind ⟨List.cons_ne_nil c cs, kind, hmem, heq⟩
      exact beginsClause_of_root before.isSpace (.inr ⟨hspace c List.mem_cons_self, hkinds⟩)
  | flat root cells trailing =>
    cases cells with
    | nil => exact absurd rfl hmembers
    | cons cell cells =>
      obtain ⟨more, hmore⟩ := exists_joinCells_cons
        (fun m : WrittenMember => root.text ++ '\\' :: m.text) cell cells trailing
      have hfirst : cell.text (fun m => root.text ++ '\\' :: m.text) ++ more =
          cell.before.text ++ (root.text ++ '\\' :: (cell.part.text ++ (cell.after.text ++ more))) := by
        simp [Cell.text]
      rw [Clause.text, hmore, hfirst]
      exact beginsClause_of_root cell.before.isSpace (.inl rfl)

/-- A statement that is written below lines that do not end in a comment or a literal is read as
it. -/
theorem isWrittenBelow_statementLines (clause : Clause) (indent : Blanks) {tail : List Char}
    (htail : '\n' ∉ tail) {above : List Line}
    (habove : CommentRules.slashAndHash.regionAfter .code above = .code) :
    clause.IsWrittenBelow above (statementLines indent clause.text tail) := by
  have hbody : ∀ c ∈ indent.text ++ ("use ".toList ++ (clause.text ++ [';'])),
      opensNothing c = true := by
    have huse : "use ".toList.all opensNothing = true := by decide
    intro c hc
    simp only [List.mem_append, List.mem_singleton] at hc
    rcases hc with hc | hc | hc | rfl
    · exact opensNothing_of_class (indent.isSpace c hc) (by decide)
    · exact List.all_eq_true.mp huse c hc
    · exact clause.opensNothing_text c hc
    · decide
  have hsplit : ∀ more, statementLines indent clause.text more = Text.splitAt '\n'
      (indent.text ++ ("use ".toList ++ (clause.text ++ [';'])) ++ more) := by
    simp [statementLines]
  refine ⟨indent, _, noFeed_stripFrom htail, ?_⟩
  rw [CommentRules.strip, CommentRules.stripLines_append, habove, hsplit tail,
    stripLines_splitAt htail _ hbody, ← hsplit]
  rfl

/-- A statement at depth zero is read as one import for each module that its clause lists, each on
all its lines, between what stands above it and what is read below it. -/
theorem exists_imports_extract {clause : Clause} (hmembers : clause.members ≠ [])
    (hlead : '\n' ∉ Text.indentation clause.text) (hkind : ¬ clause.NamesKind)
    {above rows : List Line} (hrows : clause.IsWrittenBelow above rows)
    (hdepth : depthAfter 0 (CommentRules.slashAndHash.strip above) = 0)
    (hcloses : ClosesUses 0 (CommentRules.slashAndHash.strip above)) (below : List Line) :
    ∃ later, (extract (above ++ (rows ++ below))).imports = (extract above).imports ++
        (clause.pairs.map (fun (module, bound) => ⟨.ofList module, [.ofList bound], true,
          above.length + 1, above.length + rows.length⟩) ++ later) ∧
      ∀ i ∈ later, above.length + rows.length < i.line := by
  obtain ⟨indent, tail, htail, hstrip⟩ := hrows
  let region := CommentRules.slashAndHash.regionAfter .code above
  let codes := CommentRules.slashAndHash.stripLines region rows
  let lines := List.zipWith SourceLine.mk rows codes
  have hcodes : codes = statementLines indent clause.text tail := by
    rw [CommentRules.strip, CommentRules.stripLines_append] at hstrip
    exact List.append_cancel_left hstrip
  have hlength : codes.length = rows.length := CommentRules.length_stripLines _ region rows
  have hlines : lines.map (·.code) = statementLines indent clause.text tail := by
    rw [map_code_zipWith (Nat.le_of_eq hlength), hcodes]
  have hlines' : lines.length = rows.length := by
    rw [List.length_zipWith, hlength, Nat.min_self]
  -- the file is read in three parts: what is above, the rows of the statement, and what is below
  obtain ⟨rest, hrest⟩ : ∃ rest, sourceLines .slashAndHash (above ++ (rows ++ below)) =
      sourceLines .slashAndHash above ++ (lines ++ rest) := by
    refine ⟨List.zipWith SourceLine.mk below (CommentRules.slashAndHash.stripLines
      (CommentRules.slashAndHash.regionAfter region rows) below), ?_⟩
    rw [sourceLines_append_eq, CommentRules.stripLines_append, List.zipWith_append hlength.symm]
  have habove := map_code_sourceLines .slashAndHash above
  have hfirst := readStatements_append (Nat.zero_le _) (habove ▸ hcloses) [] (lines ++ rest)
  rw [habove, hdepth, List.append_nil] at hfirst
  have hstatement := readStatements_statement indent htail clause.semicolon_not_mem
    (clause.beginsClause hmembers hkind) hlead hlines (sourceLines .slashAndHash above).reverse rest
  rw [List.length_reverse, length_sourceLines, hlines', clause.usedModules_eq_pairs] at hstatement
  have hread : ∀ file, (extract file).imports =
      readStatements importsAt 0 (placesWithDepthsFrom 0 [] (sourceLines .slashAndHash file)) :=
    fun file => by rw [← placesWithDepths_places]; rfl
  rw [hread, hread, hrest, hfirst, hstatement]
  refine ⟨_, rfl, fun i hi => ?_⟩
  have hline := lt_line_of_mem_readStatements hi
  rw [List.length_append, List.length_reverse, List.length_reverse, length_sourceLines,
    hlines'] at hline
  omega

/-- The two forms of a clause import the same modules under the same names, and a statement of either
form at depth zero, over any number of lines, is read as one import for each of them on its lines.
The lines above may hold any code in which every `use` is closed. The clause begins on the line of
the `use`, and not with a word and a blank that say which kind of thing is imported. -/
theorem usedModules_and_imports {clause : Clause} (hmembers : clause.members ≠ []) :
    usedModules clause.text = clause.pairs ∧
      (∀ other : Clause, other.root.path = clause.root.path → other.members = clause.members →
        usedModules other.text = usedModules clause.text) ∧
      (∀ (indent : Blanks) (tail : List Char) (above : List Line), '\n' ∉ tail →
        CommentRules.slashAndHash.regionAfter .code above = .code →
        clause.IsWrittenBelow above (statementLines indent clause.text tail)) ∧
      ('\n' ∉ Text.indentation clause.text → ¬ clause.NamesKind →
        ∀ above rows below, clause.IsWrittenBelow above rows →
          depthAfter 0 (CommentRules.slashAndHash.strip above) = 0 →
          ClosesUses 0 (CommentRules.slashAndHash.strip above) →
          ∃ later, (extract (above ++ (rows ++ below))).imports = (extract above).imports ++
              (clause.pairs.map (fun (module, bound) => ⟨.ofList module, [.ofList bound], true,
                above.length + 1, above.length + rows.length⟩) ++ later) ∧
            ∀ i ∈ later, above.length + rows.length < i.line) := by
  refine ⟨clause.usedModules_eq_pairs, fun other hroot hother => ?_,
    fun indent tail above htail => clause.isWrittenBelow_statementLines indent htail,
    fun hlead hkind above rows below hrows hdepth hcloses =>
      exists_imports_extract hmembers hlead hkind hrows hdepth hcloses below⟩
  have hpair : other.root.pair = clause.root.pair :=
    funext fun m => by rw [Root.pair, Root.pair, hroot]
  rw [usedModules_eq_pairs, usedModules_eq_pairs, pairs, pairs, hpair, hother]

/-! ### A statement over four lines -/

def blank : WhiteSpace :=
  ⟨[' '], Text.isSpace_of_mem_blank⟩

def noSpace : WhiteSpace :=
  ⟨Blanks.none.text, Blanks.none.isSpace⟩

def breakAndIndent : WhiteSpace :=
  ⟨"\n    ".toList, List.all_eq_true.mp (by decide)⟩

def httpRoot : Root where
  rooted := false
  path := ⟨⟨"Acme".toList, by decide, List.all_eq_true.mp (by decide)⟩,
    [⟨"Http".toList, by decide, List.all_eq_true.mp (by decide)⟩]⟩

def clientMember : WrittenMember where
  path := ⟨⟨"Client".toList, by decide, List.all_eq_true.mp (by decide)⟩, []⟩
  renamed := none
  before := ⟨blank, by decide⟩
  after := ⟨blank, by decide⟩

def serverMember : WrittenMember where
  path := ⟨⟨"Server".toList, by decide, List.all_eq_true.mp (by decide)⟩, []⟩
  renamed := some ⟨"Host".toList, by decide, List.all_eq_true.mp (by decide)⟩
  before := ⟨blank, by decide⟩
  after := ⟨blank, by decide⟩

def httpClause : Clause :=
  .grouped noSpace httpRoot noSpace noSpace
    [⟨⟨" \n    ".toList, List.all_eq_true.mp (by decide)⟩, clientMember, noSpace⟩,
      ⟨breakAndIndent, serverMember, noSpace⟩]
    (some ⟨['\n'], List.all_eq_true.mp (by decide)⟩) noSpace

def flatHttpClause : Clause :=
  .flat { httpRoot with rooted := true }
    [⟨noSpace, clientMember, noSpace⟩, ⟨blank, serverMember, noSpace⟩] none

def aboveHttp : List Line :=
  ["<?php", "/* Uses", " */", "use Acme\\Log;"].map String.toList

def httpRows : List Line :=
  ["use Acme\\Http\\\x7b // both", "    Client,", "    Server as Host,", "\x7d; # \x7b"].map
    String.toList

theorem usedModules_and_imports_http :
    httpClause.IsWrittenBelow aboveHttp httpRows ∧
      httpClause.IsWrittenBelow aboveHttp
        (statementLines .none httpClause.text " $x = '\x7b';".toList) ∧
      usedModules flatHttpClause.text = usedModules httpClause.text ∧
      ∀ below, ∃ later, (extract (aboveHttp ++ (httpRows ++ below))).imports =
          (extract aboveHttp).imports ++
            ([⟨"Acme\\Http\\Client", ["Client"], true, 5, 8⟩,
              ⟨"Acme\\Http\\Server", ["Host"], true, 5, 8⟩] ++ later) ∧
        ∀ i ∈ later, 8 < i.line := by
  have hrows : httpClause.IsWrittenBelow aboveHttp httpRows :=
    ⟨.none, [' '], by decide, by decide +kernel⟩
  have hmembers : httpClause.members ≠ [] := List.cons_ne_nil _ _
  obtain ⟨-, hflat, hwritten, himports⟩ := usedModules_and_imports hmembers
  exact ⟨hrows, hwritten .none _ aboveHttp (by decide) (by decide +kernel),
    hflat flatHttpClause rfl rfl, fun below =>
    himports (by decide +kernel) (fun hkind => hkind.1 rfl) aboveHttp httpRows below hrows
      (by decide +kernel) (by decide +kernel)⟩

end Clause

end SourceSurvey.Extract.Php
