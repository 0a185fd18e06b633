import SourceSurvey.Summary.OfText
import SourceSurvey.Proofs.Extract.Name
import SourceSurvey.Proofs.Finding.Reference
import SourceSurvey.Proofs.Finding.Word

/-!
# Constants that are used

A constant is sought in the stripped text of all lines but the one that declares it, and that one is
guessed: it is the first line that mentions the name, or that calls `define` and has the name before
stripping. Main statement: the guess is right wherever the stripped line of the declaration mentions
the name, which holds of every assignment and of every constant declared by a keyword, and also for a
call of `define` with no line before it that would be guessed. A constant is then reported only if no
other line mentions it, and on the line that declares it. Where a line above a call of `define`
mentions the constant, that line is taken for the declaration, and the use is lost.
-/

namespace SourceSurvey

open Extract Pattern

/-! ## The lines that declare constants -/

/-- The families whose constants are surveyed. -/
def Family.ofCode : List Family :=
  [.python, .javascript, .php]

/-- The constant that a family's file declares at a place of the given brace depth. -/
def Family.constantAt? : Family → Nat × Place → Option Slot
  | .python, q => Python.constantAt? q.2
  | .javascript, q => if q.1 = 0 then JavaScript.constantAt? q.2 else none
  | .php, q => Php.constantAt? q
  | _, _ => none

/-- The constants that the lines of a file declare, each with the number of its line. -/
def Family.constantSites (family : Family) (lines : List Line) : List (Slot × Nat) :=
  (placesWithDepths (places (sourceLines family.style lines))).filterMap fun q =>
    (family.constantAt? q).map fun g => (g, q.2.number)

/-- The number of the first line that declares a constant of the name. -/
def Family.constantLine? (family : Family) (lines : List Line) (name : String) : Option Nat :=
  ((family.constantSites lines).find? fun site => site.1.name == name).map (·.2)

/-- The constants of a file are those of its sites, each name once. -/
theorem Family.globals_extract {family : Family} (hfamily : family ∈ Family.ofCode)
    {lines : List Line} {found : Extraction} (hfound : family.extract lines = .ok found) :
    found.globals = distinctBy (·.name) ((family.constantSites lines).map (·.1)) := by
  have hsites : (family.constantSites lines).map (·.1) =
      (placesWithDepths (places (sourceLines family.style lines))).filterMap family.constantAt? := by
    rw [constantSites, List.map_filterMap]
    congr 1
    funext q
    rw [Option.map_map]
    exact Option.map_id'
  rw [hsites]
  simp only [ofCode, List.mem_cons, List.not_mem_nil, or_false] at hfamily
  rcases hfamily with rfl | rfl | rfl
  · cases hfound
    have hplaces := map_snd_placesWithDepths (places (sourceLines .hash lines))
    have hread : (places (sourceLines .hash lines)).filterMap Python.constantAt? =
        (placesWithDepths (places (sourceLines .hash lines))).filterMap
          (Family.constantAt? .python) := by
      rw [← congrArg (List.filterMap Python.constantAt?) hplaces, List.filterMap_map]
      rfl
    exact congrArg (distinctBy (·.name)) hread
  · cases hfound
    rfl
  · cases hfound
    rfl

/-- A constant of a file has a line that declares it first. -/
theorem Family.exists_constantLine? {family : Family} (hfamily : family ∈ Family.ofCode)
    {lines : List Line} {found : Extraction} (hfound : family.extract lines = .ok found)
    {g : Slot} (hg : g ∈ found.globals) :
    ∃ n, family.constantLine? lines g.name = some n := by
  rw [globals_extract hfamily hfound] at hg
  obtain ⟨site, hsite, rfl⟩ := List.mem_map.mp (distinctBy_subset _ _ hg)
  have hfind : ((family.constantSites lines).find? fun s => s.1.name == site.1.name).isSome := by
    rw [List.find?_isSome]
    exact ⟨site, hsite, beq_self_eq_true _⟩
  obtain ⟨first, hfirst⟩ := Option.isSome_iff_exists.mp hfind
  exact ⟨first.2, by rw [constantLine?, hfirst, Option.map_some]⟩

/-- The lines of a file, each with its stripped copy and its number. -/
def numberedLines (style : CommentRules) (lines : List Line) : List ((Line × Line) × Nat) :=
  (lines.zip (style.strip lines)).zipIdx 1

/-- Places with their numbers are the lines, numbered. -/
theorem map_here_number_placesFrom (above lines : List SourceLine) :
    (placesFrom above lines).map (fun p => (p.here, p.number)) =
      lines.zipIdx (above.length + 1) := by
  induction lines generalizing above with
  | nil => rfl
  | cons line lines ih =>
    rw [placesFrom, List.map_cons, ih, List.zipIdx_cons, List.length_cons]
    rfl

/-- A place of a file is one of its numbered lines. -/
theorem mem_numberedLines_of_mem_places {style : CommentRules} {lines : List Line} {p : Place}
    (h : p ∈ places (sourceLines style lines)) :
    ((p.raw, p.code), p.number) ∈ numberedLines style lines := by
  have hpair : (p.here, p.number) ∈ (sourceLines style lines).zipIdx 1 := by
    have hmap := map_here_number_placesFrom [] (sourceLines style lines)
    rw [List.length_nil, Nat.zero_add] at hmap
    rw [← hmap]
    exact List.mem_map_of_mem h
  have hzip : (sourceLines style lines).map (fun l => (l.raw, l.code)) =
      lines.zip (style.strip lines) := by
    rw [sourceLines, List.map_zipWith]
    rfl
  rw [numberedLines, ← hzip, List.zipIdx_map]
  exact List.mem_map_of_mem hpair

/-! ## Declarations that keep the name in the stripped text -/

/-- Characters of names, at least one. -/
def IsName (name : List Char) : Prop :=
  name ≠ [] ∧ ∀ c ∈ name, Text.isNameChar c = true

/-- A name is on one line. -/
theorem IsName.lineFeed_not_mem {name : List Char} (h : IsName name) : '\n' ∉ name :=
  Text.not_mem_of_class h.2 (by decide)

/-- The text begins with a character that no name goes on with. -/
def BeginsApart (text : List Char) : Prop :=
  ∃ c cs, text = c :: cs ∧ Text.isNameChar c = false

/-- What begins apart from a name does so whatever follows. -/
theorem BeginsApart.append {text : List Char} (h : BeginsApart text) (more : List Char) :
    BeginsApart (text ++ more) := by
  obtain ⟨c, cs, rfl, hc⟩ := h
  exact ⟨c, cs ++ more, rfl, hc⟩

/-- Blanks in front of it may stand between. -/
theorem BeginsApart.blanks_append {text blanks : List Char} (h : BeginsApart text)
    (hblanks : ∀ c ∈ blanks, Text.isSpace c = true) : BeginsApart (blanks ++ text) := by
  cases blanks with
  | nil => exact h
  | cons c cs =>
    have hc := Text.isNameChar_eq_false_of_isSpace (hblanks c List.mem_cons_self)
    exact ⟨c, cs ++ text, rfl, hc⟩

/-- Blanks, at least one, end apart from a name. -/
theorem getLast?_any_of_blanks {blanks : List Char} (hlength : 1 ≤ blanks.length)
    (hblanks : ∀ c ∈ blanks, Text.isSpace c = true) (front : List Char) :
    (front ++ blanks).getLast?.any Text.isNameChar = false := by
  have hne : blanks ≠ [] := List.length_pos_iff.mp hlength
  rw [List.getLast?_append, List.getLast?_eq_some_getLast hne, Option.some_or, Option.any_some]
  exact Text.isNameChar_eq_false_of_isSpace (hblanks _ (List.getLast_mem hne))

/-- A declaration reads a name with nothing of a name before it and with more behind it. -/
def ReadsName (read name : List Char) : Prop :=
  IsName name ∧ ∃ before after, read = before ++ (name ++ after) ∧
    before.getLast?.any Text.isNameChar = false ∧ BeginsApart after

/-- A name that is read stands in the text that it is read from. -/
theorem ReadsName.standsIn {read name : List Char} (h : ReadsName read name) (rest : List Char) :
    StandsIn name (read ++ rest) := by
  obtain ⟨-, before, after, rfl, hbefore, c, cs, rfl, hc⟩ := h
  exact ⟨before, c :: cs ++ rest, by simp, hbefore, hc⟩

theorem toNat_le_toNat {c d : Char} (h : c ≤ d) : c.toNat ≤ d.toNat := by
  rw [Char.le_def, UInt32.le_iff_toNat_le] at h
  exact h

/-- The pattern for the name of a constant reads a name and nothing else. -/
theorem constantName_reads : constantName.Reads fun t a => a = t ∧ IsName t := by
  have hchars : ∀ c : Char, (('A' ≤ c && c ≤ 'Z') || ('0' ≤ c && c ≤ '9') || c == '_') = true →
      Text.isNameChar c = true := by
    intro c hc
    have hascii : c.toNat < 128 := by
      have hranges := hc
      simp only [Bool.or_eq_true, Bool.and_eq_true, decide_eq_true_eq, beq_iff_eq] at hranges
      have hletter : 'Z'.toNat < 128 := by decide
      have hdigit : '9'.toNat < 128 := by decide
      rcases hranges with (⟨-, hle⟩ | ⟨-, hle⟩) | rfl
      · have := toNat_le_toNat hle
        omega
      · have := toNat_le_toNat hle
        omega
      · decide
    have hcodes : ∀ n < 128, (('A' ≤ Char.ofNat n && Char.ofNat n ≤ 'Z') ||
        ('0' ≤ Char.ofNat n && Char.ofNat n ≤ '9') || Char.ofNat n == '_') = true →
        Text.isNameChar (Char.ofNat n) = true := by decide
    rw [← Char.ofNat_toNat c] at hc ⊢
    exact hcodes c.toNat hascii hc
  refine Reads.textOf ((reads_char _).bind fun t c hc => (reads_run _ 0).imp fun t' a ha => ?_)
  obtain ⟨rfl, hfirst⟩ := hc
  refine ⟨List.cons_ne_nil c t', ?_⟩
  intro d hd
  rcases List.mem_cons.mp hd with rfl | hd
  · refine hchars d ?_
    rw [Bool.or_eq_true] at hfirst
    rcases hfirst with hfirst | hfirst <;> simp [hfirst]
  · exact hchars d (ha.2.2 d hd)

/-- What follows the name of a constant begins apart from it. -/
theorem annotatedAssignment_reads : annotatedAssignment.Reads fun t _ => BeginsApart t := by
  unfold annotatedAssignment
  refine reads_blanks.bind fun s _ hs => (reads_opt (T := fun t => BeginsApart t) ?_).bind
    fun t _ ht => reads_blanks.bind fun s' _ hs' => (reads_lit "=").bind fun e _ he =>
      (reads_checkAt _).bind fun n _ _ => reads_pure ?_
  · refine (reads_lit ":").bind fun e _ he => reads_blanks.bind fun s _ _ =>
      (reads_runLazy _ 1).imp fun t _ _ => ?_
    subst he
    exact ⟨':', s ++ t, rfl, by decide⟩
  · subst he
    have hassigns : BeginsApart (s' ++ ("=".toList ++ (n ++ []))) :=
      BeginsApart.blanks_append ⟨'=', n ++ [], rfl, by decide⟩ hs'
    refine BeginsApart.blanks_append ?_ hs
    rcases ht with rfl | ht
    · exact hassigns
    · exact ht.append _

/-- A pattern that reads a name finds it in the text. -/
theorem standsIn_of_matchStart? {α : Type} {p : Pattern α} {name : α → List Char}
    (hp : p.Reads fun t a => ReadsName t (name a)) {text : List Char} {a : α}
    (h : p.matchStart? text = some a) : IsName (name a) ∧ StandsIn (name a) text := by
  obtain ⟨t, rest, rfl, hread⟩ := hp.of_matchStart? h
  exact ⟨hread.1, hread.standsIn rest⟩

/-- An upper-case assignment mentions its name. -/
theorem Python.standsIn_of_constantAt? {p : Place} {g : Slot}
    (h : Python.constantAt? p = some g) :
    IsName g.name.toList ∧ StandsIn g.name.toList p.code := by
  have hreads : Python.constantStart.Reads fun t a => ReadsName t a.1 := by
    unfold Python.constantStart
    refine constantName_reads.bind fun t name ht => annotatedAssignment_reads.bind
      fun after _ hafter => reads_pure ?_
    obtain ⟨rfl, hname⟩ := ht
    rw [List.append_nil]
    exact ⟨hname, [], after, rfl, rfl, hafter⟩
  unfold Python.constantAt? at h
  split at h
  · cases h
  · next name type hmatch =>
    cases h
    rw [String.toList_ofList]
    exact standsIn_of_matchStart? hreads hmatch

/-- Blanks, at least one. -/
def IsGap (text : List Char) : Prop :=
  1 ≤ text.length ∧ ∀ c ∈ text, Text.isSpace c = true

/-- The word with blanks behind it. -/
def IsSpacedWord (word : String) (text : List Char) : Prop :=
  ∃ gap, IsGap gap ∧ text = word.toList ++ gap

/-- The line of code declares a constant of the name: it begins, blanks aside, with `const`, perhaps
behind `export`, and the name stands behind that. -/
def DeclaresConst (name : List Char) (code : Line) : Prop :=
  ∃ blanks mark keyword rest, code = blanks ++ (mark ++ (keyword ++ (name ++ rest))) ∧
    (∀ c ∈ blanks, Text.isSpace c = true) ∧ (mark = [] ∨ IsSpacedWord "export" mark) ∧
    IsSpacedWord "const" keyword ∧ IsName name ∧ BeginsApart rest

/-- A word that may be missing is read with blanks behind it, or not at all. -/
theorem JavaScript.optWord_readsSpacedWord (w : String) :
    (optWord w).Reads fun t _ => t = [] ∨ IsSpacedWord w t := by
  unfold optWord
  have hword : (do lit w; blanks1 : Pattern Unit).Reads fun t _ => IsSpacedWord w t :=
    (reads_lit w).bind fun _ _ hlit => reads_blanks1.imp fun gap _ hgap => ⟨gap, hgap, by rw [hlit]⟩
  refine (reads_opt hword).bind fun t _ ht => reads_pure ?_
  rwa [List.append_nil]

/-- The start of a script constant is read from a declaration. -/
theorem JavaScript.constantStart_declaresConst :
    JavaScript.constantStart.Reads fun t a => ∀ rest, DeclaresConst a.1 (t ++ rest) := by
  unfold JavaScript.constantStart
  refine reads_blanks.bind fun blanks _ hblanks => (optWord_readsSpacedWord "export").bind
    fun mark _ hmark => (reads_lit "const").bind fun word _ hword => reads_blanks1.bind
    fun gap _ hgap => constantName_reads.bind fun t name ht => annotatedAssignment_reads.bind
    fun after _ hafter => reads_pure fun rest => ?_
  obtain ⟨rfl, hname⟩ := ht
  exact ⟨blanks, mark, word ++ gap, after ++ rest, by simp, hblanks, hmark,
    ⟨gap, hgap, by rw [hword]⟩, hname, hafter.append rest⟩

/-- A script constant is declared on its line. -/
theorem JavaScript.declaresConst_of_constantAt? {p : Place} {g : Slot}
    (h : JavaScript.constantAt? p = some g) : DeclaresConst g.name.toList p.code := by
  unfold JavaScript.constantAt? at h
  obtain ⟨-, h⟩ := Option.ite_none_left_eq_some.mp h
  split at h
  · cases h
  · next bound type hmatch =>
    cases h
    obtain ⟨t, rest, htext, hdeclares⟩ := constantStart_declaresConst.of_matchStart? hmatch
    rw [htext, String.toList_ofList]
    exact hdeclares rest

/-- A declaration names its constant. -/
theorem DeclaresConst.standsIn {name : List Char} {code : Line} (h : DeclaresConst name code) :
    IsName name ∧ StandsIn name code := by
  obtain ⟨blanks, mark, keyword, rest, rfl, -, -, ⟨gap, hgap, rfl⟩, hname, c, cs, rfl, hc⟩ := h
  refine ⟨hname, blanks ++ (mark ++ ("const".toList ++ gap)), c :: cs, by simp, ?_, hc⟩
  rw [← List.append_assoc, ← List.append_assoc]
  exact getLast?_any_of_blanks hgap.1 hgap.2 _

/-- A declaration with `const` mentions its name. -/
theorem JavaScript.standsIn_of_constantAt? {p : Place} {g : Slot}
    (h : JavaScript.constantAt? p = some g) :
    IsName g.name.toList ∧ StandsIn g.name.toList p.code :=
  (declaresConst_of_constantAt? h).standsIn

/-! ## Calls of `define` -/

/-- A line names a constant: its stripped copy mentions it, or calls `define` and the line as the
file has it mentions it. -/
def NamesConstant (name : List Char) (raw code : Line) : Prop :=
  StandsIn name code ∨ (Unused.defineCall.occursIn code = true ∧ StandsIn name raw)

/-- A line counts as the declaration of a constant when it names it. -/
theorem Unused.declares_iff {name : List Char} {raw code : Line} :
    declares name raw code = true ↔ NamesConstant name raw code := by
  unfold declares NamesConstant
  rw [Bool.or_eq_true, Bool.and_eq_true, hasMention_iff_standsIn, hasMention_iff_standsIn]

/-- The name in a call of `define` stands between two quotes. -/
theorem Php.defineCall_reads : Php.defineCall.Reads fun t a => IsName a.1 ∧
    ∃ before q q' after, t = before ++ q :: (a.1 ++ q' :: after) ∧
      isPlainQuote q = true ∧ isPlainQuote q' = true := by
  unfold Php.defineCall
  refine (reads_lit "define").bind fun k _ _ => reads_blanks.bind fun s _ _ =>
    (reads_lit "(").bind fun o _ _ => reads_blanks.bind fun s' _ _ =>
    (reads_char isPlainQuote).bind fun q q' hq => (reads_run Text.isWord 1).bind fun t bound ht =>
    (reads_char isPlainQuote).bind fun r r' hr => reads_blanks.bind fun b1 _ _ =>
    (reads_lit ",").bind fun b2 _ _ => reads_blanks.bind fun b3 _ _ =>
    (reads_runLazy notLineFeed 1).bind fun b4 _ _ => reads_blanks.bind fun b5 _ _ =>
    (reads_lit ")").bind fun b6 _ _ => reads_blanks.bind fun b7 _ _ =>
    (reads_opt (T := fun _ => True) ((reads_lit ";").imp fun _ _ _ => trivial)).bind fun b8 _ _ =>
    (reads_checkAt _).bind fun b9 _ _ => reads_pure ?_
  obtain ⟨rfl, hq⟩ := hq
  obtain ⟨rfl, hr⟩ := hr
  obtain ⟨rfl, hlength, hword⟩ := ht
  refine ⟨⟨List.length_pos_iff.mp hlength, fun c hc => ?_⟩, k ++ (s ++ (o ++ s')), q', r',
    b1 ++ (b2 ++ (b3 ++ (b4 ++ (b5 ++ (b6 ++ (b7 ++ (b8 ++ b9))))))), by simp, hq, hr⟩
  rw [Text.isNameChar, hword c hc, Bool.true_or]

theorem isNameChar_eq_false_of_isPlainQuote {c : Char} (h : isPlainQuote c = true) :
    Text.isNameChar c = false := by
  simp only [isPlainQuote, Bool.or_eq_true, beq_iff_eq] at h
  rcases h with rfl | rfl <;> decide

/-- A word between quotes stands in every text around it. -/
theorem standsIn_of_quotes {q q' : Char} (hq : isPlainQuote q = true) (hq' : isPlainQuote q' = true)
    (before name after : List Char) :
    StandsIn name (before ++ q :: (name ++ q' :: after)) := by
  refine ⟨before ++ [q], q' :: after, by simp, ?_, isNameChar_eq_false_of_isPlainQuote hq'⟩
  rw [List.getLast?_concat]
  exact isNameChar_eq_false_of_isPlainQuote hq

/-- Without its line comment a line is the front of itself. -/
theorem CommentRules.cutLineComment_prefix (style : CommentRules) (line : Line) :
    style.cutLineComment line <+: line := by
  unfold CommentRules.cutLineComment Text.trimEnd
  cases style.lineCommentAt? line with
  | none => exact Text.trimEndWhile_isPrefix _ _
  | some n => exact (Text.trimEndWhile_isPrefix _ _).trans (List.take_prefix n line)

/-- A trimmed text stands in the text. -/
theorem trim_isInfix (text : List Char) : Text.trim text <:+: text := by
  have hend : Text.trim text <+: Text.trimStart text := Text.trimEndWhile_isPrefix _ _
  exact hend.isInfix.trans (List.dropWhile_suffix Text.isSpace).isInfix

/-- A constant declared by a keyword is mentioned in the stripped line, and one declared by a call
of `define` in the line as the file has it. -/
theorem Php.standsIn_of_constantAt? {q : Nat × Place} {g : Slot}
    (h : Php.constantAt? q = some g) :
    IsName g.name.toList ∧ (StandsIn g.name.toList q.2.code ∨
      ("define".toList <+: Text.trim q.2.code ∧ StandsIn g.name.toList q.2.raw)) := by
  have hreads : Php.constantStart.Reads fun t a => ReadsName t a := by
    unfold Php.constantStart
    refine reads_blanks.bind fun s _ _ => (reads_lit "const").bind fun k _ _ =>
      reads_blanks1.bind fun s' _ hs' => (reads_run Text.isWord 1).bind fun t bound ht =>
      reads_blanks.bind fun s'' _ hs'' => (reads_lit "=").bind fun e _ he =>
      (reads_checkAt _).bind fun n _ _ => reads_pure ?_
    obtain ⟨rfl, hlength, hword⟩ := ht
    subst he
    refine ⟨⟨List.length_pos_iff.mp hlength, fun c hc => ?_⟩, s ++ (k ++ s'),
      s'' ++ ("=".toList ++ n), by simp, ?_, ?_⟩
    · rw [Text.isNameChar, hword c hc, Bool.true_or]
    · rw [← List.append_assoc]
      exact getLast?_any_of_blanks hs'.1 hs'.2 _
    · exact BeginsApart.blanks_append ⟨'=', n, rfl, by decide⟩ hs''
  obtain ⟨depth, p⟩ := q
  unfold Php.constantAt? at h
  obtain ⟨⟨bound, value⟩, hdeclared, rfl⟩ := Option.map_eq_some_iff.mp h
  rw [String.toList_ofList]
  split at hdeclared
  · next hdefine =>
    obtain ⟨t, rest, hcut, hname, before, o, c, after, rfl, ho, hc⟩ :=
      Php.defineCall_reads.of_matchStart? hdeclared
    refine ⟨hname, .inr ⟨List.isPrefixOf_iff_prefix.mp hdefine, ?_⟩⟩
    -- the line is what the call was read from, with blanks and a comment around it
    obtain ⟨front, back, hraw⟩ :=
      (trim_isInfix (CommentRules.slashAndHash.cutLineComment p.raw)).trans
        (CommentRules.slashAndHash.cutLineComment_prefix p.raw).isInfix
    have hline : p.raw = (front ++ before) ++ o :: (bound ++ c :: (after ++ rest ++ back)) := by
      rw [← hraw, hcut]
      simp
    show StandsIn bound p.raw
    rw [hline]
    exact standsIn_of_quotes ho hc _ _ _
  · obtain ⟨-, hdeclared⟩ := Option.ite_none_right_eq_some.mp hdeclared
    obtain ⟨bound', hmatch, hpair⟩ := Option.map_eq_some_iff.mp hdeclared
    cases hpair
    obtain ⟨hname, hstands⟩ := standsIn_of_matchStart? hreads hmatch
    exact ⟨hname, .inl hstands⟩

/-- The line that declares a constant mentions it, where a call of `define` keeps it in a
literal. -/
theorem Family.standsIn_of_constantAt? {family : Family} {q : Nat × Place} {g : Slot}
    (h : family.constantAt? q = some g) :
    IsName g.name.toList ∧ (StandsIn g.name.toList q.2.code ∨ (family = .php ∧
      "define".toList <+: Text.trim q.2.code ∧ StandsIn g.name.toList q.2.raw)) := by
  cases family with
  | python =>
    obtain ⟨hname, hstands⟩ := Python.standsIn_of_constantAt? h
    exact ⟨hname, .inl hstands⟩
  | javascript =>
    obtain ⟨hname, hstands⟩ := JavaScript.standsIn_of_constantAt?
      (Option.ite_none_right_eq_some.mp h).2
    exact ⟨hname, .inl hstands⟩
  | php =>
    obtain ⟨hname, hstands⟩ := Php.standsIn_of_constantAt? h
    exact ⟨hname, hstands.imp_right fun hdefine => ⟨rfl, hdefine⟩⟩
  | html => cases h
  | css => cases h

/-- The line of a constant is one of the numbered lines, and declares it. -/
theorem Family.exists_of_constantLine? {family : Family} {lines : List Line} {name : String}
    {n : Nat} (h : family.constantLine? lines name = some n) :
    IsName name.toList ∧ ∃ q ∈ numberedLines family.style lines, q.2 = n ∧
      (StandsIn name.toList q.1.2 ∨ (family = .php ∧ "define".toList <+: Text.trim q.1.2 ∧
        StandsIn name.toList q.1.1)) := by
  obtain ⟨site, hfind, rfl⟩ := Option.map_eq_some_iff.mp h
  have hname : site.1.name = name := by simpa using List.find?_some hfind
  obtain ⟨q, hq, hsite⟩ := List.mem_filterMap.mp (List.mem_of_find?_eq_some hfind)
  obtain ⟨g, hg, rfl⟩ := Option.map_eq_some_iff.mp hsite
  have hplace : q.2 ∈ places (sourceLines family.style lines) := by
    rw [← map_snd_placesWithDepths (places (sourceLines family.style lines))]
    exact List.mem_map_of_mem hq
  obtain ⟨hword, hstands⟩ := standsIn_of_constantAt? hg
  subst hname
  exact ⟨hword, _, mem_numberedLines_of_mem_places hplace, rfl, hstands⟩

/-! ## What is reported -/

/-- The line that is taken for the declaration is the first that names the constant. -/
theorem Unused.exists_of_declaringLine? {name : List Char} {style : CommentRules}
    {lines : List Line} {m : Nat} (h : declaringLine? name lines (style.strip lines) = some m) :
    ∃ q ∈ numberedLines style lines, q.2 = m ∧ NamesConstant name q.1.1 q.1.2 ∧
      ∀ q' ∈ numberedLines style lines, q'.2 < m → ¬ NamesConstant name q'.1.1 q'.1.2 := by
  obtain ⟨q, hfound, rfl⟩ := Option.map_eq_some_iff.mp h
  have hfind : (numberedLines style lines).find? (fun q => declares name q.1.1 q.1.2) = some q :=
    hfound
  obtain ⟨hnames, i, hi, hq, hbefore⟩ := List.find?_eq_some_iff_getElem.mp hfind
  refine ⟨q, List.mem_of_find?_eq_some hfind, rfl, declares_iff.mp hnames, ?_⟩
  intro q' hq' hlt hnamed
  obtain ⟨j, hj, rfl⟩ := List.getElem_of_mem hq'
  have hnumber : ∀ k (hk : k < (numberedLines style lines).length),
      ((numberedLines style lines)[k]).2 = 1 + k := by
    intro k hk
    simp [numberedLines]
  have hlt : j < i := by
    have hnumberi : q.2 = 1 + i := hq ▸ hnumber i hi
    have hnumberj := hnumber j hj
    omega
  have hnot := hbefore j hlt
  rw [Bool.not_eq_true'] at hnot
  exact absurd (declares_iff.mpr hnamed) (by rw [hnot]; exact Bool.false_ne_true)

/-- The text without a line mentions a name if another line does. -/
theorem Unused.hasMention_textWithout_iff_exists {name : List Char} (hname : IsName name)
    (style : CommentRules) (lines : List Line) (m : Nat) :
    hasMention name (textWithout (· == m) (style.strip lines)) = true ↔
      ∃ q ∈ numberedLines style lines, q.2 ≠ m ∧ StandsIn name q.1.2 := by
  have hstripped : (style.strip lines).zipIdx 1 =
      (numberedLines style lines).map fun q => (q.1.2, q.2) := by
    have hcopy : (lines.zip (style.strip lines)).map (·.2) = style.strip lines :=
      List.map_snd_zip (Nat.le_of_eq (style.length_strip lines))
    rw [← congrArg (List.zipIdx · 1) hcopy, List.zipIdx_map]
    rfl
  rw [textWithout, hasMention_iff_standsIn, standsIn_joinLines_iff hname.lineFeed_not_mem hname.1,
    hstripped]
  simp only [List.mem_map, List.mem_filter]
  constructor
  · rintro ⟨line, ⟨pair, ⟨⟨q, hq, rfl⟩, hother⟩, rfl⟩, hstands⟩
    exact ⟨q, hq, by simpa using hother, hstands⟩
  · rintro ⟨q, hq, hother, hstands⟩
    exact ⟨q.1.2, ⟨(q.1.2, q.2), ⟨⟨q, hq, rfl⟩, by simpa using hother⟩, rfl⟩, hstands⟩

/-- A constant is reported on the line taken for its declaration, if no other line mentions it. -/
theorem Unused.of_mem_ofLines_constant {lines : List Line} {found : Extraction}
    {style : CommentRules} {name : String} {m : Nat}
    (h : ⟨name, .constant, m⟩ ∈ ofLines lines found style) :
    declaringLine? name.toList lines (style.strip lines) = some m ∧
      hasMention name.toList (textWithout (· == m) (style.strip lines)) = false := by
  rw [ofLines, List.mem_append, List.mem_append] at h
  rcases h with (h | h) | h
  · cases kind_of_mem_imports h
  · obtain ⟨c, -, heq⟩ := List.mem_map.mp h
    cases heq
  · obtain ⟨slot, -, hslot⟩ := List.mem_filterMap.mp h
    dsimp only at hslot
    cases hline : declaringLine? slot.name.toList lines (style.strip lines) with
    | none =>
      rw [hline] at hslot
      cases hslot
    | some n =>
      rw [hline] at hslot
      obtain ⟨hmention, hslot⟩ := Option.ite_none_left_eq_some.mp hslot
      cases hslot
      exact ⟨hline, Bool.eq_false_iff.mpr hmention⟩

/-- The line of a call of `define` that the stripped copy keeps no name of is guessed: its stripped
copy calls `define` still, and no line before it names the constant. -/
def Family.DefinesFirst (family : Family) (lines : List Line) (name : List Char) (n : Nat) : Prop :=
  ∀ q ∈ numberedLines family.style lines, q.2 = n → family = .php →
    "define".toList <+: Text.trim q.1.2 → ¬ StandsIn name q.1.2 →
      Unused.defineCall.occursIn q.1.2 = true ∧
        ∀ q' ∈ numberedLines family.style lines, q'.2 < n → ¬ NamesConstant name q'.1.1 q'.1.2

/-- Every constant has a line that declares it. If that line is guessed, the constant is not
reported where another line mentions it, and reported on no other line. -/
theorem Family.exists_constantLine?_unused {family : Family} (hfamily : family ∈ Family.ofCode)
    {lines : List Line} {found : Extraction} (hfound : family.extract lines = .ok found)
    {g : Slot} (hg : g ∈ found.globals) :
    ∃ n, family.constantLine? lines g.name = some n ∧
      (family.DefinesFirst lines g.name.toList n →
        (∀ q ∈ numberedLines family.style lines, q.2 ≠ n → StandsIn g.name.toList q.1.2 →
          ∀ m, ⟨g.name, .constant, m⟩ ∉ family.unused lines found) ∧
        ∀ m, ⟨g.name, .constant, m⟩ ∈ family.unused lines found → m = n) := by
  obtain ⟨n, hn⟩ := exists_constantLine? hfamily hfound hg
  obtain ⟨hname, q, hq, hnumber, hstands⟩ := exists_of_constantLine? hn
  refine ⟨n, hn, fun hfirst => ?_⟩
  have hunused : family.unused lines found = Unused.ofLines lines found family.style := by
    simp only [ofCode, List.mem_cons, List.not_mem_nil, or_false] at hfamily
    rcases hfamily with rfl | rfl | rfl <;> rfl
  rw [hunused]
  -- wherever the constant is reported, every other line is free of its name, so that line declares
  -- it
  have hline : ∀ m, ⟨g.name, .constant, m⟩ ∈ Unused.ofLines lines found family.style →
      m = n ∧ ∀ r ∈ numberedLines family.style lines, r.2 ≠ n → ¬ StandsIn g.name.toList r.1.2 := by
    intro m hm
    obtain ⟨hdeclaring, hmention⟩ := Unused.of_mem_ofLines_constant hm
    have hothers : ∀ r ∈ numberedLines family.style lines, r.2 ≠ m →
        ¬ StandsIn g.name.toList r.1.2 := by
      intro r hr hne hmentions
      rw [(Unused.hasMention_textWithout_iff_exists hname _ _ _).mpr ⟨r, hr, hne, hmentions⟩]
        at hmention
      cases hmention
    obtain ⟨r, hr, rfl, hnames, hbefore⟩ := Unused.exists_of_declaringLine? hdeclaring
    have heq : r.2 = n := by
      by_cases hown : StandsIn g.name.toList q.1.2
      · -- the line of the declaration mentions the name, so it is the one left out
        by_contra hne
        exact hothers q hq (by rw [hnumber]; exact Ne.symm hne) hown
      · -- the guess is the first line that names the constant, and so is that of the call
        obtain ⟨hphp, hdefine, hraw⟩ := hstands.resolve_left hown
        obtain ⟨hcalls, hnone⟩ := hfirst q hq hnumber hphp hdefine hown
        have hcall : NamesConstant g.name.toList q.1.1 q.1.2 := .inr ⟨hcalls, hraw⟩
        rcases Nat.lt_trichotomy r.2 n with hlt | heq | hlt
        · exact absurd hnames (hnone r hr hlt)
        · exact heq
        · exact absurd hcall (hbefore q hq (by rw [hnumber]; exact hlt))
    exact ⟨heq, heq ▸ hothers⟩
  refine ⟨fun r hr hne hmentions m hm => (hline m hm).2 r hr hne hmentions, ?_⟩
  exact fun m hm => (hline m hm).1

/-- A constant that a line below its call of `define` uses. -/
theorem Family.exists_constantLine?_unused_below :
    ⟨"LIMIT", .constant, 2⟩ ∉ Family.unused .php
      (["<?php", "define('LIMIT', 30);", "sleep(LIMIT);"].map String.toList)
      (Extract.Php.extract (["<?php", "define('LIMIT', 30);", "sleep(LIMIT);"].map String.toList)) := by
  generalize hlines : ["<?php", "define('LIMIT', 30);", "sleep(LIMIT);"].map String.toList = lines
  have hg : (⟨"LIMIT", "int", some "30"⟩ : Slot) ∈ (Extract.Php.extract lines).globals := by
    subst hlines
    decide
  obtain ⟨n, hn, hfirst⟩ := Family.exists_constantLine?_unused (by decide : .php ∈ Family.ofCode)
    (rfl : Family.extract .php lines = .ok (Extract.Php.extract lines)) hg
  have htwo : Family.constantLine? .php lines "LIMIT" = some 2 := by
    subst hlines
    decide
  obtain rfl : 2 = n := Option.some.inj (htwo.symm.trans hn)
  have hnumbered : numberedLines Family.php.style lines =
      [(("<?php".toList, "<?php".toList), 1),
        (("define('LIMIT', 30);".toList, "define('', 30);".toList), 2),
        (("sleep(LIMIT);".toList, "sleep(LIMIT);".toList), 3)] := by
    subst hlines
    decide
  have hdefines : Family.DefinesFirst .php lines "LIMIT".toList 2 := by
    unfold Family.DefinesFirst NamesConstant
    rw [hnumbered]
    decide
  refine (hfirst hdefines).1 (("sleep(LIMIT);".toList, "sleep(LIMIT);".toList), 3) ?_ (by decide)
    (by decide) 2
  rw [hnumbered]
  decide

/-- A use above a call of `define` is lost: it is taken for the declaration. -/
theorem Family.not_forall_not_mem_unused_constant :
    ¬ ∀ (family : Family) (lines : List Line) (found : Extraction) (g : Slot) (n : Nat),
      family ∈ Family.ofCode → family.extract lines = .ok found → g ∈ found.globals →
      family.constantLine? lines g.name = some n →
      (∃ q ∈ numberedLines family.style lines, q.2 ≠ n ∧ StandsIn g.name.toList q.1.2) →
      ∀ m, ⟨g.name, .constant, m⟩ ∉ family.unused lines found := by
  intro hclaim
  generalize hlines : ["<?php", "function wait() \x7b sleep(LIMIT); \x7d", "define('LIMIT', 30);",
    "wait();"].map String.toList = lines
  have huse : ∃ q ∈ numberedLines Family.php.style lines, q.2 ≠ 3 ∧
      StandsIn "LIMIT".toList q.1.2 := by
    subst hlines
    decide
  refine hclaim .php lines (Extract.Php.extract lines) ⟨"LIMIT", "int", some "30"⟩ 3 (by decide) rfl
    ?_ ?_ huse 2 ?_
  · subst hlines
    decide
  · subst hlines
    decide
  · show _ ∈ Unused.ofLines lines _ .slashAndHash
    rw [Unused.ofLines, List.mem_append]
    refine .inr ?_
    subst hlines
    decide

end SourceSurvey
