import SourceSurvey.Proofs.Comment.Reread
import SourceSurvey.Proofs.Comment.Rewording

/-!
# The comment that ends a line

Stripping and the search for the comment at the end of a line are two scans. One knows block
comments and triple quotes, asks for comments before it asks for quotes, and reads literals by their
delimiters; the other knows one quote at a time, and asks for quotes first. Main statement: on a line
without block comments and triple quotes they stop at the same place, and the line cut there is
stripped to the same copy and has no comment at its end.
-/

namespace SourceSurvey

/-! ## The scan that strips a line -/

/-- How a scan goes on behind a character. -/
structure ScanStep where
  /-- What the character adds to the copy. -/
  kept : List Char
  /-- How many of the next characters are already read. -/
  read : Nat
  /-- What the characters behind those lie in. -/
  region : Region

namespace CommentRules

/-- One character of the scan that strips a line, with what stands behind it; none if a line comment
opens there and ends the scan. -/
def scanStep (style : CommentRules) : Nat → Region → Char → List Char → Option ScanStep
  | n + 1, region, _, _ => some ⟨[], n, region⟩
  | 0, .comment closer, c, cs =>
    if closer.isPrefixOf (c :: cs) then some ⟨[], closer.length - 1, .code⟩
    else some ⟨[], 0, .comment closer⟩
  | 0, .literal delimiter, c, cs =>
    if c == '\\' then some ⟨[], 1, .literal delimiter⟩
    else if delimiter.isPrefixOf (c :: cs) then some ⟨delimiter, delimiter.length - 1, .code⟩
    else some ⟨[], 0, .literal delimiter⟩
  | 0, .code, c, cs =>
    match style.openingAt c cs with
    | .blockComment opener closer => some ⟨[], opener.length - 1, .comment closer⟩
    | .lineComment => none
    | .literal delimiter => some ⟨delimiter, delimiter.length - 1, .literal delimiter⟩
    | .plain => some ⟨[c], 0, .code⟩

/-- Stripping takes these steps. -/
theorem stripFrom_cons (style : CommentRules) (read : Nat) (region : Region) (c : Char)
    (cs : List Char) :
    style.stripFrom read region (c :: cs) =
      match style.scanStep read region c cs with
      | none => ([], .code)
      | some step =>
        (step.kept ++ (style.stripFrom step.read step.region cs).1,
          (style.stripFrom step.read step.region cs).2) := by
  cases read with
  | succ read => rfl
  | zero =>
    cases region with
    | comment closer =>
      rw [stripFrom_comment, scanStep]
      split <;> rfl
    | literal delimiter =>
      rw [stripFrom_literal, scanStep]
      split
      · rfl
      · split <;> rfl
    | code =>
      rw [stripFrom_code, scanStep]
      split <;> simp_all

/-- The place in the rest of a line where a line comment ends the scan; none if the scan reads the
whole rest. -/
def stopFrom (style : CommentRules) : Nat → Region → List Char → Option Nat
  | _, _, [] => none
  | read, region, c :: cs =>
    match style.scanStep read region c cs with
    | none => some 0
    | some step => (stopFrom style step.read step.region cs).map (· + 1)

/-- The place where a line comment ends the scan of a line that begins in code. -/
def scanStop (style : CommentRules) (line : Line) : Option Nat :=
  style.stopFrom 0 .code line

section Scan

variable {style : CommentRules} {read : Nat} {region : Region} {c : Char} {cs text : List Char}
  {step : ScanStep} {k : Nat}

theorem stripFrom_of_none (h : style.scanStep read region c cs = none) :
    style.stripFrom read region (c :: cs) = ([], .code) := by
  rw [stripFrom_cons, h]

theorem stripFrom_of_some (h : style.scanStep read region c cs = some step) :
    style.stripFrom read region (c :: cs) =
      (step.kept ++ (style.stripFrom step.read step.region cs).1,
        (style.stripFrom step.read step.region cs).2) := by
  rw [stripFrom_cons, h]

theorem stopFrom_nil (read : Nat) (region : Region) : style.stopFrom read region [] = none := rfl

theorem stopFrom_of_none (h : style.scanStep read region c cs = none) :
    style.stopFrom read region (c :: cs) = some 0 := by
  rw [stopFrom, h]

theorem stopFrom_of_some (h : style.scanStep read region c cs = some step) :
    style.stopFrom read region (c :: cs) =
      (style.stopFrom step.read step.region cs).map (· + 1) := by
  rw [stopFrom, h]

/-- What begins at a place in code, with the reading of the text there that goes with it. -/
theorem openingAt_cases (hstyle : style.Regular) (c : Char) (cs : List Char) :
    (∃ opener closer, style.block = some (opener, closer) ∧ opener <+: c :: cs ∧
      style.openingAt c cs = .blockComment opener closer) ∨
    (¬ style.OpensBlock (c :: cs) ∧ style.opensLineComment (c :: cs) = true ∧
      style.openingAt c cs = .lineComment) ∨
    (∃ delimiter, ¬ style.OpensComment (c :: cs) ∧ style.OpensLiteral delimiter (c :: cs) ∧
      style.openingAt c cs = .literal delimiter) ∨
    (¬ style.OpensComment (c :: cs) ∧ style.isQuote c = false ∧
      style.openingAt c cs = .plain) := by
  by_cases hblock : style.OpensBlock (c :: cs)
  · obtain ⟨opener, closer, hrule, hstarts⟩ := hblock
    exact .inl ⟨opener, closer, hrule, hstarts, openingAt_of_opensBlock hrule hstarts⟩
  by_cases hline : style.opensLineComment (c :: cs) = true
  · exact .inr (.inl ⟨hblock, hline, openingAt_of_lineComment hblock hline⟩)
  have hcomment : ¬ style.OpensComment (c :: cs) := fun h => h.elim hblock hline
  cases hquote : style.isQuote c with
  | true =>
    obtain ⟨delimiter, text, htext, -, hopens⟩ := exists_opensLiteral hstyle cs hquote
    rw [← htext] at hopens
    exact .inr (.inr (.inl ⟨delimiter, hcomment, hopens,
      openingAt_of_opensLiteral hcomment hopens⟩))
  | false =>
    exact .inr (.inr (.inr ⟨hcomment, rfl, openingAt_of_plain hstyle hcomment hquote⟩))

/-- A step ends the scan in code only, where a line comment opens. -/
theorem scanStep_eq_none (hstyle : style.Regular)
    (h : style.scanStep read region c cs = none) :
    read = 0 ∧ region = .code ∧ style.opensLineComment (c :: cs) = true := by
  cases read with
  | succ read => cases h
  | zero =>
    cases region with
    | comment closer =>
      rw [scanStep] at h
      split at h <;> cases h
    | literal delimiter =>
      rw [scanStep] at h
      split at h
      · cases h
      · split at h <;> cases h
    | code =>
      rw [scanStep] at h
      rcases openingAt_cases hstyle c cs with ⟨_, _, _, _, hopening⟩ | ⟨_, hline, _⟩ |
        ⟨_, _, _, hopening⟩ | ⟨_, _, hopening⟩
      · rw [hopening] at h
        cases h
      · exact ⟨rfl, rfl, hline⟩
      · rw [hopening] at h
        cases h
      · rw [hopening] at h
        cases h

/-- Where the scan stops a line comment opens. -/
theorem opensLineComment_drop_of_stopFrom (hstyle : style.Regular)
    (h : style.stopFrom read region text = some k) :
    style.opensLineComment (text.drop k) = true := by
  induction text generalizing read region k with
  | nil => cases h
  | cons c cs ih =>
    cases hstep : style.scanStep read region c cs with
    | none =>
      rw [stopFrom_of_none hstep, Option.some_inj] at h
      subst h
      exact (scanStep_eq_none hstyle hstep).2.2
    | some step =>
      rw [stopFrom_of_some hstep] at h
      obtain ⟨j, hj, rfl⟩ := Option.map_eq_some_iff.mp h
      exact ih hj

/-- The scan does not stop at what is already read. -/
theorem le_of_stopFrom (h : style.stopFrom read region text = some k) : read ≤ k := by
  induction text generalizing read k with
  | nil => cases h
  | cons c cs ih =>
    cases read with
    | zero => exact Nat.zero_le k
    | succ read =>
      have hstep : style.scanStep (read + 1) region c cs = some ⟨[], read, region⟩ := rfl
      rw [stopFrom_of_some hstep] at h
      obtain ⟨j, hj, rfl⟩ := Option.map_eq_some_iff.mp h
      exact Nat.succ_le_succ (ih hj)

/-- A delimiter that is read before the scan stops stands in the text up to there. -/
theorem isPrefixOf_take {part : List Char} (h : part.isPrefixOf text = true → part.length ≤ k) :
    part.isPrefixOf (text.take k) = part.isPrefixOf text := by
  rw [Bool.eq_iff_iff, List.isPrefixOf_iff_prefix, List.prefix_take_iff,
    ← List.isPrefixOf_iff_prefix]
  exact ⟨And.left, fun hpart => ⟨hpart, h hpart⟩⟩

end Scan

/-! ## The line up to its comment -/

section Cut

variable {family : Family} {read : Nat} {region : Region} {c : Char} {cs text : List Char}
  {step : ScanStep} {k : Nat}

/-- No opener of a line comment reaches into another one. -/
theorem opensLineComment_singleton (h : family.style.opensLineComment (c :: cs) = false)
    (hcs : family.style.opensLineComment cs = true) :
    family.style.opensLineComment [c] = false := by
  cases hsingle : family.style.opensLineComment [c] with
  | false => rfl
  | true =>
    cases family with
    | python =>
      obtain rfl := opensComment_hash_iff.mp (.inr hsingle)
      cases h
    | javascript =>
      obtain ⟨-, hnext | hnext⟩ := opensComment_slash_iff.mp (.inr hsingle) <;> cases hnext
    | php =>
      -- only a hash opens a comment alone, and behind it only a bracket would keep it from it
      obtain ⟨-, hnext | hnext⟩ | ⟨rfl, -⟩ := opensComment_slashAndHash_iff.mp (.inr hsingle)
      · cases hnext
      · cases hnext
      · cases cs with
        | nil => cases hcs
        | cons d ds =>
          rcases opensComment_slashAndHash_iff.mp (.inr hcs) with ⟨rfl, -⟩ | ⟨rfl, -⟩ <;> cases h
    | html | css => cases hsingle

theorem opensLineComment_take (h : family.style.opensLineComment (c :: cs) = false)
    (hcs : family.style.opensLineComment (cs.drop k) = true) :
    family.style.opensLineComment (c :: cs.take k) = false := by
  cases k with
  | zero => exact opensLineComment_singleton h hcs
  | succ k =>
    cases cs with
    | nil => cases family <;> cases hcs
    | cons d ds => rwa [List.take_succ_cons, opensLineComment_two c d _ ds]

theorem startsTriple_take {style : CommentRules} (h : style.startsTriple (c :: cs) = false)
    (k : Nat) : style.startsTriple (c :: cs.take k) = false := by
  cases htriple : style.startsTriple (c :: cs.take k) with
  | false => rfl
  | true =>
    obtain ⟨q, more, -, htext⟩ := startsTriple_eq_true htriple
    have hwhole : c :: cs = q :: q :: q :: (more ++ cs.drop k) := by
      rw [← List.take_append_drop k cs, ← List.cons_append, htext]
      simp
    rw [htext] at htriple
    rw [hwhole, startsTriple_triple htriple] at h
    cases h

theorem not_opensComment_take (h : ¬ family.style.OpensComment (c :: cs))
    (hcs : family.style.opensLineComment (cs.drop k) = true) :
    ¬ family.style.OpensComment (c :: cs.take k) := by
  rintro (⟨opener, closer, hrule, hstarts⟩ | hline)
  · have htake : c :: cs.take k <+: c :: cs :=
      List.cons_prefix_cons.mpr ⟨rfl, List.take_prefix k cs⟩
    exact h (.inl ⟨opener, closer, hrule, hstarts.trans htake⟩)
  · have hfalse := Bool.eq_false_iff.mpr fun hopens => h (.inr hopens)
    rw [opensLineComment_take hfalse hcs] at hline
    cases hline

/-- A step that does not end the scan is the same when the line is cut where the scan stops. -/
theorem scanStep_take (h : family.style.scanStep read region c cs = some step)
    (hstop : family.style.stopFrom step.read step.region cs = some k) :
    family.style.scanStep read region c (cs.take k) = some step := by
  have hstyle := regular_style family
  have hle := le_of_stopFrom hstop
  have hline := opensLineComment_drop_of_stopFrom hstyle hstop
  -- the step looks at no character behind the place where the scan stops, in whatever region it is
  cases read with
  | succ read => exact h
  | zero =>
    cases region with
    | comment closer =>
      rw [scanStep] at h ⊢
      rw [← List.take_succ_cons, isPrefixOf_take]
      · exact h
      · intro hcloser
        rw [if_pos hcloser, Option.some_inj] at h
        subst h
        exact Nat.le_succ_of_pred_le hle
    | literal delimiter =>
      rw [scanStep] at h ⊢
      by_cases hescape : (c == '\\') = true
      · rwa [if_pos hescape] at h ⊢
      · rw [if_neg hescape] at h ⊢
        rw [← List.take_succ_cons, isPrefixOf_take]
        · exact h
        · intro hcloser
          rw [if_pos hcloser, Option.some_inj] at h
          subst h
          exact Nat.le_succ_of_pred_le hle
    | code =>
      rw [scanStep] at h ⊢
      -- in code each way to open something has to be the same on the cut line
      rcases openingAt_cases hstyle c cs with ⟨opener, closer, hrule, hstarts, hopening⟩ |
        ⟨-, -, hopening⟩ | ⟨delimiter, hcomment, hopens, hopening⟩ | ⟨hcomment, hquote, hopening⟩
      · rw [hopening, Option.some_inj] at h
        subst h
        have hcut : opener <+: c :: cs.take k := by
          rw [← List.take_succ_cons, List.prefix_take_iff]
          exact ⟨hstarts, Nat.le_succ_of_pred_le hle⟩
        rw [openingAt_of_opensBlock hrule hcut]
      · rw [hopening] at h
        cases h
      · rw [hopening, Option.some_inj] at h
        subst h
        rw [openingAt_of_opensLiteral (not_opensComment_take hcomment hline)]
        cases hopens with
        | @triple _ rest htriple =>
          obtain ⟨j, rfl⟩ : ∃ j, k = j + 2 := ⟨k - 2, (Nat.sub_add_cancel hle).symm⟩
          exact .triple (startsTriple_triple htriple _)
        | single hquote htwo => exact .single hquote (startsTriple_take htwo k)
      · rw [hopening, Option.some_inj] at h
        subst h
        rw [openingAt_of_plain hstyle (not_opensComment_take hcomment hline) hquote]

/-- The scan of a text cut where it stops copies as much and ends in code. -/
theorem stripFrom_take_of_stopFrom (h : family.style.stopFrom read region text = some k) :
    family.style.stripFrom read region (text.take k) = family.style.stripFrom read region text := by
  induction text generalizing read region k with
  | nil => cases h
  | cons c cs ih =>
    cases hstep : family.style.scanStep read region c cs with
    | none =>
      obtain ⟨rfl, rfl, -⟩ := scanStep_eq_none (regular_style family) hstep
      rw [stopFrom_of_none hstep, Option.some_inj] at h
      subst h
      rw [stripFrom_of_none hstep, List.take_zero, stripFrom_nil]
    | some step =>
      rw [stopFrom_of_some hstep] at h
      obtain ⟨j, hj, rfl⟩ := Option.map_eq_some_iff.mp h
      rw [List.take_succ_cons, stripFrom_of_some (scanStep_take hstep hj), stripFrom_of_some hstep,
        ih hj]

/-- The scan of a text cut where it stops reads what is left as a whole. -/
theorem stopFrom_take_of_stopFrom (h : family.style.stopFrom read region text = some k) :
    family.style.stopFrom read region (text.take k) = none := by
  induction text generalizing read region k with
  | nil => cases h
  | cons c cs ih =>
    cases hstep : family.style.scanStep read region c cs with
    | none =>
      rw [stopFrom_of_none hstep, Option.some_inj] at h
      subst h
      exact stopFrom_nil read region
    | some step =>
      rw [stopFrom_of_some hstep] at h
      obtain ⟨j, hj, rfl⟩ := Option.map_eq_some_iff.mp h
      rw [List.take_succ_cons, stopFrom_of_some (scanStep_take hstep hj), ih hj, Option.map_none]

end Cut

/-! ## The two scans -/

/-- The text has no opener of a block comment, and no three quotes where they are one delimiter. -/
structure IsPlainText (style : CommentRules) (text : List Char) : Prop where
  block : ∀ opener closer, style.block = some (opener, closer) → ¬ opener <:+: text
  triple : style.tripleQuotes = true →
    ¬ "\"\"\"".toList <:+: text ∧ ¬ "'''".toList <:+: text

section Plain

variable {family : Family} {c : Char} {cs text : List Char}

theorem IsPlainText.of_infix {style : CommentRules} {part : List Char} (h : style.IsPlainText text)
    (hpart : part <:+: text) : style.IsPlainText part where
  block opener closer hrule hopener := h.block opener closer hrule (hopener.trans hpart)
  triple htriple :=
    ⟨fun hquotes => (h.triple htriple).1 (hquotes.trans hpart),
      fun hquotes => (h.triple htriple).2 (hquotes.trans hpart)⟩

theorem IsPlainText.not_opensBlock {style : CommentRules} (h : style.IsPlainText text) :
    ¬ style.OpensBlock text := by
  rintro ⟨opener, closer, hrule, hstarts⟩
  exact h.block opener closer hrule hstarts.isInfix

theorem IsPlainText.startsTriple_eq_false {style : CommentRules} (h : style.IsPlainText text) :
    style.startsTriple text = false := by
  cases htriple : style.startsTriple text with
  | false => rfl
  | true =>
    rw [startsTriple, Bool.and_eq_true, Bool.or_eq_true, List.isPrefixOf_iff_prefix,
      List.isPrefixOf_iff_prefix] at htriple
    obtain ⟨hdouble, hsingle⟩ := h.triple htriple.1
    rcases htriple.2 with hstarts | hstarts
    · exact absurd hstarts.isInfix hdouble
    · exact absurd hstarts.isInfix hsingle

/-- The region of the scan that strips where the search has this quote open. -/
def regionOf : Option Char → Region
  | none => .code
  | some q => .literal [q]

/-- A step in plain code: the search asks for quotes first, and no quote opens a comment. -/
theorem scanStep_code_of_isPlainText (h : family.style.IsPlainText (c :: cs)) :
    family.style.scanStep 0 .code c cs =
      if family.style.isQuote c then some ⟨[c], 0, .literal [c]⟩
      else if family.style.opensLineComment (c :: cs) then none
      else some ⟨[c], 0, .code⟩ := by
  rw [scanStep, openingAt_of_not_opensBlock h.not_opensBlock, h.startsTriple_eq_false]
  by_cases hline : family.style.opensLineComment (c :: cs) = true
  · rw [if_pos hline, isQuote_of_opensLineComment hline]
    simp [hline]
  · rw [if_neg hline]
    by_cases hquote : family.style.isQuote c = true
    · simp [hquote]
    · simp [hquote, hline]

/-- A step in a literal between single quotes. -/
theorem scanStep_literal_singleton (style : CommentRules) (q c : Char) (cs : List Char) :
    style.scanStep 0 (.literal [q]) c cs =
      if c == '\\' then some ⟨[], 1, .literal [q]⟩
      else if c == q then some ⟨[q], 0, .code⟩
      else some ⟨[], 0, .literal [q]⟩ := by
  have hcloses : [q].isPrefixOf (c :: cs) = (c == q) := by
    rw [Bool.eq_iff_iff, List.isPrefixOf_iff_prefix, List.cons_prefix_cons, beq_iff_eq]
    simp [eq_comm]
  rw [scanStep, hcloses]
  rfl

/-- The scan that strips stops where the search for a line comment does. -/
theorem stopFrom_eq_lineCommentFrom (h : family.style.IsPlainText text) (read : Nat)
    (quote : Option Char) :
    family.style.stopFrom read (regionOf quote) text =
      family.style.lineCommentFrom read quote text := by
  -- the two scans go on in step: what one has read the other has, and both are in the same literal
  -- or in none
  induction text generalizing read quote with
  | nil => cases read <;> cases quote <;> rfl
  | cons c cs ih =>
    have hcs := ih (h.of_infix (List.suffix_cons c cs).isInfix)
    cases read with
    | succ read =>
      have hstep : family.style.scanStep (read + 1) (regionOf quote) c cs =
          some ⟨[], read, regionOf quote⟩ := rfl
      rw [stopFrom_of_some hstep, hcs, lineCommentFrom]
    | zero =>
      cases quote with
      | none =>
        have hstep := scanStep_code_of_isPlainText h
        rw [lineCommentFrom, regionOf]
        by_cases hquote : family.style.isQuote c = true
        · rw [if_pos hquote] at hstep ⊢
          rw [stopFrom_of_some hstep, ← hcs 0 (some c)]
          rfl
        · rw [if_neg hquote] at hstep ⊢
          by_cases hline : family.style.opensLineComment (c :: cs) = true
          · rw [if_pos hline] at hstep ⊢
            exact stopFrom_of_none hstep
          · rw [if_neg hline] at hstep ⊢
            rw [stopFrom_of_some hstep, ← hcs 0 none]
            rfl
      | some q =>
        have hstep := scanStep_literal_singleton family.style q c cs
        rw [lineCommentFrom, regionOf]
        by_cases hescape : (c == '\\') = true
        · rw [if_pos hescape] at hstep ⊢
          rw [stopFrom_of_some hstep, ← hcs 1 (some q)]
          rfl
        · rw [if_neg hescape] at hstep ⊢
          by_cases hquote : (c == q) = true
          · rw [if_pos hquote] at hstep ⊢
            rw [stopFrom_of_some hstep, ← hcs 0 none]
            rfl
          · rw [if_neg hquote] at hstep ⊢
            rw [stopFrom_of_some hstep, ← hcs 0 (some q)]
            rfl

end Plain

/-- On every line without block comments and triple quotes the search for the comment at its end
finds the place where a line comment ends the scan that strips the line, and finds none if that scan
reads the whole line. The line up to this place is stripped to the same copy, and the search finds
no comment in it. -/
theorem lineCommentAt?_eq_scanStop (family : Family) (line : Line)
    (h : family.style.IsPlainText line) :
    family.style.lineCommentAt? line = family.style.scanStop line ∧
      ∀ k, family.style.lineCommentAt? line = some k →
        family.style.opensLineComment (line.drop k) = true ∧
        family.style.strip [line.take k] = family.style.strip [line] ∧
        family.style.lineCommentAt? (line.take k) = none := by
  have hscan : ∀ part, family.style.IsPlainText part →
      family.style.lineCommentAt? part = family.style.scanStop part :=
    fun part hpart => (stopFrom_eq_lineCommentFrom hpart 0 none).symm
  refine ⟨hscan line h, fun k hk => ?_⟩
  have hstop : family.style.stopFrom 0 .code line = some k := (hscan line h).symm.trans hk
  have hplain := h.of_infix (List.take_prefix k line).isInfix
  refine ⟨opensLineComment_drop_of_stopFrom (regular_style family) hstop, ?_, ?_⟩
  · rw [strip, stripLines, stripLine, stripFrom_take_of_stopFrom hstop]
    rfl
  · rw [hscan _ hplain]
    exact stopFrom_take_of_stopFrom hstop

/-- An attribute, slashes in quotes, and a comment behind them. -/
theorem lineCommentAt?_eq_scanStop_attribute :
    slashAndHash.scanStop "#[A] $x = '//'; # c".toList = some 16 ∧
      slashAndHash.opensLineComment "# c".toList = true ∧
      slashAndHash.strip ["#[A] $x = '//'; ".toList] =
        slashAndHash.strip ["#[A] $x = '//'; # c".toList] ∧
      slashAndHash.lineCommentAt? "#[A] $x = '//'; ".toList = none := by
  have hplain : slashAndHash.IsPlainText "#[A] $x = '//'; # c".toList := by
    refine ⟨fun opener closer hrule => ?_, nofun⟩
    cases hrule
    decide +kernel
  have hfound : slashAndHash.lineCommentAt? "#[A] $x = '//'; # c".toList = some 16 := by decide
  have hdrop : "#[A] $x = '//'; # c".toList.drop 16 = "# c".toList := by decide
  have htake : "#[A] $x = '//'; # c".toList.take 16 = "#[A] $x = '//'; ".toList := by decide
  obtain ⟨hstop, hcut⟩ := lineCommentAt?_eq_scanStop .php _ hplain
  have hsame := hcut 16 hfound
  rw [htake, hdrop] at hsame
  exact ⟨hstop.symm.trans hfound, hsame⟩

end CommentRules

end SourceSurvey
