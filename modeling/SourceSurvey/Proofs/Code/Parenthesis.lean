import SourceSurvey.Proofs.Code.Brace
import SourceSurvey.Proofs.Code.Nested
import SourceSurvey.Proofs.Comment.Reread
import SourceSurvey.Proofs.Extract.ScriptLayout

/-!
# Texts inside a parenthesis

A text that may stand between the parentheses of a declaration, on one line or on several: characters,
literals and pairs of parentheses of its own. Main statements: every scanner passes over such a text
and comes to the parenthesis that closes the one in front, whatever the text in front is and whatever
follows.
-/

namespace SourceSurvey

open BodyPart CommentRules

/-! ## Trimming -/

namespace Text

theorem trim_append_tight {text : List Char} (h : Tight text) (front : List Char) :
    trim (front ++ text) = trimStart front ++ text := by
  obtain ⟨d, ds, hfirst, hd⟩ := h.first
  obtain ⟨es, e, hlast, he⟩ := h.last
  have hstart : trimStart (front ++ text) = trimStart front ++ text := by
    rw [hfirst, trimStart_append_cons hd]
  rw [trim, hstart, hlast, ← List.append_assoc, trimEnd, trimEndWhile_concat_of_neg he]

end Text

/-! ## Texts without comments -/

/-- A text does not go on with the second sign of a comment. -/
def ContinuesPlain (rest : List Char) : Prop :=
  rest.head? ≠ some '/' ∧ rest.head? ≠ some '*'

/-- What follows a text opens no comment in it when it does not go on with a second sign. -/
theorem not_opensComment_append {c : Char} {text rest : List Char}
    (h : ¬ slash.OpensComment (c :: text)) (hrest : ContinuesPlain rest) :
    ¬ slash.OpensComment (c :: (text ++ rest)) := by
  rw [opensComment_slash_iff] at h ⊢
  cases text with
  | nil => exact fun hopens => hopens.2.elim hrest.1 hrest.2
  | cons d ds => exact h

/-- No comment opens at any place of the text. -/
def CommentFree (text : List Char) : Prop :=
  ∀ c back, c :: back <:+ text → ¬ slash.OpensComment (c :: back)

/-- Two texts without comments are one, if none opens where they meet. -/
theorem CommentFree.append {text more : List Char} (h : CommentFree text) (hmore : CommentFree more)
    (hplain : ContinuesPlain more) : CommentFree (text ++ more) := by
  rintro c back ⟨front, heq⟩
  rcases List.append_eq_append_iff.mp heq with ⟨between, rfl, hback⟩ | ⟨between, rfl, hback⟩
  · cases between with
    | nil => exact hmore c back ⟨[], hback⟩
    | cons d ds =>
      obtain ⟨rfl, rfl⟩ := List.cons.inj hback
      exact not_opensComment_append (h c ds (List.suffix_append front _)) hplain
  · exact hmore c back ⟨between, hback.symm⟩

theorem commentFree_of_not_mem {text : List Char} (h : '/' ∉ text) : CommentFree text := by
  intro c back hback hopens
  have hslash := (opensComment_slash_iff.mp hopens).1
  exact h (hslash ▸ hback.subset List.mem_cons_self)

/-- A text without slashes in front opens no comment either. -/
theorem CommentFree.append_left {text more : List Char} (h : '/' ∉ text)
    (hmore : CommentFree more) : CommentFree (text ++ more) := by
  rintro c back ⟨front, heq⟩
  rcases List.append_eq_append_iff.mp heq with ⟨between, rfl, hback⟩ | ⟨between, rfl, hback⟩
  · cases between with
    | nil => exact hmore c back ⟨[], hback⟩
    | cons d ds =>
      obtain ⟨rfl, -⟩ := List.cons.inj hback
      exact fun hopens => h ((opensComment_slash_iff.mp hopens).1 ▸ by simp)
  · exact hmore c back ⟨between, hback.symm⟩

/-! ## Inside a parenthesis -/

/-- Characters, literals and parentheses that lead from a number of open parentheses to another one,
with the text in which the literals are emptied. The last open parenthesis is not closed. -/
inductive ReadsParens : Nat → List Char → List Char → Nat → Prop where
  | nil {n : Nat} : ReadsParens n [] [] n
  | char {n m : Nat} {c : Char} {text kept : List Char} (hquote : Nesting.isQuote c = false)
      (hopener : c ≠ '(') (hcloser : c ≠ ')') (hrest : ReadsParens n text kept m) :
      ReadsParens n (c :: text) (c :: kept) m
  | opener {n m : Nat} {text kept : List Char} (hrest : ReadsParens (n + 1) text kept m) :
      ReadsParens n ('(' :: text) ('(' :: kept) m
  | closer {n m : Nat} {text kept : List Char} (hrest : ReadsParens (n + 1) text kept m) :
      ReadsParens (n + 2) (')' :: text) (')' :: kept) m
  | literal {n m : Nat} {q : Char} {text kept : List Char} (hq : Nesting.isQuote q = true)
      (body : List (BodyPart q)) (hbody : ¬ EndsEscaped body) (hrest : ReadsParens n text kept m) :
      ReadsParens n (q :: (writtenBody body ++ q :: text)) (q :: q :: kept) m

/-- No comment opens at a place of the text outside its literals. -/
def OpensNoComment (text : List Char) : Prop :=
  ∀ n front kept m c back, ReadsParens n front kept m → text = front ++ c :: back →
    ¬ slash.OpensComment (c :: back)

theorem CommentFree.opensNoComment {text : List Char} (h : CommentFree text) :
    OpensNoComment text := fun _ front _ _ c back _ heq => h c back ⟨front, heq.symm⟩

namespace ReadsParens

variable {n m k : Nat} {text kept more kept' : List Char}

/-- Two texts in a row lead from the first depth to the last one. -/
theorem append (h : ReadsParens n text kept m) (hmore : ReadsParens m more kept' k) :
    ReadsParens n (text ++ more) (kept ++ kept') k := by
  induction h with
  | nil => exact hmore
  | char hquote hopener hcloser _ ih => exact .char hquote hopener hcloser (ih hmore)
  | opener _ ih => exact .opener (ih hmore)
  | closer _ ih => exact .closer (ih hmore)
  | literal hq body hbody _ ih =>
    rw [List.cons_append, List.append_assoc, List.cons_append]
    exact .literal hq body hbody (ih hmore)

/-- Characters that open and close nothing are passed over. -/
theorem of_forall (h : ∀ c ∈ text, Nesting.isQuote c = false ∧ c ≠ '(' ∧ c ≠ ')') :
    ReadsParens n text text n := by
  induction text with
  | nil => exact .nil
  | cons c cs ih =>
    obtain ⟨hquote, hopener, hcloser⟩ := h c List.mem_cons_self
    exact .char hquote hopener hcloser (ih fun d hd => h d (List.mem_cons_of_mem c hd))

theorem trimStart (h : ReadsParens n text kept m) :
    ReadsParens n (Text.trimStart text) (Text.trimStart kept) m := by
  induction h with
  | nil => exact .nil
  | opener hrest => exact .opener hrest
  | closer hrest => exact .closer hrest
  | @literal _ _ q _ _ hq body hbody hrest =>
    have hspace : ¬ Text.isSpace q = true := by
      rw [Bool.not_eq_true]
      exact (keepsApart_slash.quote ((isQuote_slash q).trans hq)).1
    unfold Text.trimStart
    rw [List.dropWhile_cons_of_neg hspace, List.dropWhile_cons_of_neg hspace]
    exact .literal hq body hbody hrest
  | @char _ _ c _ _ hquote hopener hcloser hrest ih =>
    unfold Text.trimStart at ih ⊢
    by_cases hspace : Text.isSpace c = true
    · rwa [List.dropWhile_cons_of_pos hspace, List.dropWhile_cons_of_pos hspace]
    · rw [List.dropWhile_cons_of_neg hspace, List.dropWhile_cons_of_neg hspace]
      exact .char hquote hopener hcloser hrest

theorem kept_eq_nil (h : ReadsParens n text kept m) : kept = [] ↔ text = [] := by
  cases h <;> simp

theorem trimEnd (h : ReadsParens n text kept m) :
    ReadsParens n (Text.trimEnd text) (Text.trimEnd kept) m := by
  have hcons : ∀ {c : Char}, Text.isSpace c = false → ∀ rest : List Char,
      Text.trimEnd (c :: rest) = c :: Text.trimEnd rest := fun hc =>
    Text.trimEndWhile_append_cons hc []
  induction h with
  | nil => exact .nil
  | opener _ ih =>
    rw [hcons (by decide), hcons (by decide)]
    exact .opener ih
  | closer _ ih =>
    rw [hcons (by decide), hcons (by decide)]
    exact .closer ih
  | @literal _ _ q text kept hq body hbody _ ih =>
    have hspace : Text.isSpace q = false :=
      (keepsApart_slash.quote ((isQuote_slash q).trans hq)).1
    have htext : Text.trimEnd (writtenBody body ++ q :: text) =
        writtenBody body ++ q :: Text.trimEnd text := Text.trimEndWhile_append_cons hspace _ _
    rw [hcons hspace, htext, hcons hspace, hcons hspace]
    exact .literal hq body hbody ih
  | @char n m c text kept hquote hopener hcloser _ ih =>
    have hempty := ih.kept_eq_nil
    -- a blank is trimmed when only blanks follow it, and what is kept is blank just then
    have hrest : ∀ rest : List Char, Text.trimEnd (c :: rest) =
        if Text.trimEnd rest = [] ∧ Text.isSpace c = true then [] else c :: Text.trimEnd rest := by
      intro rest
      unfold Text.trimEnd
      rw [Text.trimEndWhile]
      split
      · next hnil => simp [hnil]
      · next hne => rw [if_neg (fun h => hne h.1)]
    rw [hrest, hrest]
    by_cases hblank : Text.trimEnd text = [] ∧ Text.isSpace c = true
    · have hnil := hempty.mpr hblank.1
      rw [if_pos hblank, if_pos ⟨hnil, hblank.2⟩]
      rwa [hblank.1, hnil] at ih
    · rw [if_neg hblank, if_neg (by rwa [hempty])]
      exact .char hquote hopener hcloser ih

/-- More open parentheses change nothing. -/
theorem shift (h : ReadsParens n text kept m) (j : Nat) :
    ReadsParens (n + j) text kept (m + j) := by
  induction h with
  | nil => exact .nil
  | char hquote hopener hcloser _ ih => exact .char hquote hopener hcloser ih
  | @opener n _ _ _ _ ih =>
    rw [Nat.add_right_comm] at ih
    exact .opener ih
  | @closer n _ _ _ _ ih =>
    rw [Nat.add_right_comm] at ih ⊢
    exact .closer ih
  | literal hq body hbody _ ih => exact .literal hq body hbody ih

/-- Behind such a text no comment opens if none opens in the whole. -/
theorem opensNoComment (h : ReadsParens n text kept m) (hall : OpensNoComment (text ++ more)) :
    OpensNoComment more := by
  intro n' front kept' m' c back hfront heq
  have hfirst := h.shift n'
  have hsecond := hfront.shift m
  rw [Nat.add_comm n' m] at hsecond
  exact hall _ _ _ _ c back (hfirst.append hsecond) (by rw [heq, List.append_assoc])

/-- A character outside literals opens no comment, in front of anything that a text may go on
with. -/
theorem not_opensComment {c : Char} (hall : OpensNoComment (c :: text)) {rest : List Char}
    (hrest : ContinuesPlain rest) : ¬ slash.OpensComment (c :: (text ++ rest)) :=
  not_opensComment_append (hall 0 [] [] 0 c text .nil rfl) hrest

section Scanning

variable {rest : List Char}

/-- Stripping empties the literals of the text and goes on behind it in code. -/
theorem stripFrom (h : ReadsParens n text kept m) (hall : OpensNoComment text)
    (hrest : ContinuesPlain rest) : slash.stripFrom 0 .code (text ++ rest) =
      (kept ++ (slash.stripFrom 0 .code rest).1, (slash.stripFrom 0 .code rest).2) := by
  induction h with
  | nil => rfl
  | char hquote hopener hcloser _ ih =>
    have hone : ReadsParens 0 [_] [_] 0 := .char hquote hopener hcloser .nil
    rw [List.cons_append, LinePart.stripFrom_slash_char hquote (not_opensComment hall hrest),
      ih (hone.opensNoComment hall)]
    rfl
  | opener _ ih =>
    have hone : ReadsParens 0 ['('] ['('] 1 := .opener .nil
    rw [List.cons_append, LinePart.stripFrom_slash_char rfl (not_opensComment hall hrest),
      ih (hone.opensNoComment hall)]
    rfl
  | closer _ ih =>
    have hone : ReadsParens 2 [')'] [')'] 1 := .closer .nil
    rw [List.cons_append, LinePart.stripFrom_slash_char rfl (not_opensComment hall hrest),
      ih (hone.opensNoComment hall)]
    rfl
  | literal hq body hbody _ ih =>
    have hone : ReadsParens 0 _ _ 0 := .literal hq body hbody .nil
    rw [enclosed_eq_append] at hall
    rw [List.cons_append, List.append_assoc, List.cons_append,
      LinePart.stripFrom_slash_literal hq (staysOpen_writtenBody body), ih (hone.opensNoComment hall)]
    rfl

/-- The text has no trailing comment. -/
theorem lineCommentFrom (h : ReadsParens n text kept m) (hall : OpensNoComment text)
    (hrest : ContinuesPlain rest) : slash.lineCommentFrom 0 none (text ++ rest) =
      (slash.lineCommentFrom 0 none rest).map (· + text.length) := by
  -- one step over a character outside literals, which three of the cases share
  have hplain : ∀ {c : Char} {cs : List Char}, Nesting.isQuote c = false →
      ¬ slash.OpensComment (c :: (cs ++ rest)) →
      slash.lineCommentFrom 0 none (cs ++ rest) =
        (slash.lineCommentFrom 0 none rest).map (· + cs.length) →
      slash.lineCommentFrom 0 none (c :: (cs ++ rest)) =
        (slash.lineCommentFrom 0 none rest).map (· + (c :: cs).length) := by
    intro c cs hquote hopens ih
    have hline : slash.opensLineComment (c :: (cs ++ rest)) = false :=
      Bool.eq_false_iff.mpr fun h => hopens (.inr h)
    rw [LinePart.lineCommentFrom_slash_char hquote hline, ih, Option.map_map]
    rfl
  induction h with
  | nil => simp
  | char hquote hopener hcloser _ ih =>
    have hone : ReadsParens 0 [_] [_] 0 := .char hquote hopener hcloser .nil
    exact hplain hquote (not_opensComment hall hrest) (ih (hone.opensNoComment hall))
  | opener _ ih =>
    have hone : ReadsParens 0 ['('] ['('] 1 := .opener .nil
    exact hplain rfl (not_opensComment hall hrest) (ih (hone.opensNoComment hall))
  | closer _ ih =>
    have hone : ReadsParens 2 [')'] [')'] 1 := .closer .nil
    exact hplain rfl (not_opensComment hall hrest) (ih (hone.opensNoComment hall))
  | literal hq body hbody _ ih =>
    have hone : ReadsParens 0 _ _ 0 := .literal hq body hbody .nil
    rw [enclosed_eq_append] at hall
    rw [List.cons_append, List.append_assoc, List.cons_append,
      LinePart.lineCommentFrom_slash_literal hq (staysOpen_writtenBody body),
      ih (hone.opensNoComment hall), Option.map_map]
    refine congrArg (Option.map · _) (funext fun n => ?_)
    simp only [Function.comp, List.length_cons, List.length_append]
    omega

/-- The surplus of opening parentheses is what the depth grows by. -/
theorem parenBalance_kept (h : ReadsParens n text kept m) : (n : Int) + parenBalance kept = m := by
  have hopening : ∀ cs, parenBalance ('(' :: cs) = 1 + parenBalance cs := parenBalance_append ['(']
  have hclosing : ∀ cs, parenBalance (')' :: cs) = -1 + parenBalance cs := parenBalance_append [')']
  induction h with
  | nil => exact Int.add_zero _
  | char _ hopener hcloser _ ih => rwa [parenBalance_cons_of_ne hopener hcloser]
  | opener _ ih =>
    rw [hopening, ← ih]
    omega
  | closer _ ih =>
    rw [hclosing, ← ih]
    omega
  | literal hq body hbody _ ih =>
    have hopener := Text.ne_of_class hq (by decide : Nesting.isQuote '(' = false)
    have hcloser := Text.ne_of_class hq (by decide : Nesting.isQuote ')' = false)
    rwa [parenBalance_cons_of_ne hopener hcloser, parenBalance_cons_of_ne hopener hcloser]

/-- Inside a parenthesis no brace counts. -/
theorem line_kept (h : ReadsParens n text kept m) (hn : 0 < n) {s : BraceScan}
    (hs : s.parens = n) : s.line kept = { s with parens := m } := by
  have hchar : ∀ {s : BraceScan} {c : Char}, 0 < s.parens → c ≠ '(' → c ≠ ')' → s.char c = s := by
    intro s c hpos hopener hcloser
    simp [BraceScan.char, hopener, hcloser, Nat.ne_of_gt hpos]
  induction h generalizing s with
  | nil => rw [← hs]; rfl
  | @char _ _ c _ kept _ hopener hcloser _ ih =>
    show (s.char c).line kept = _
    rw [hchar (hs ▸ hn) hopener hcloser, ih hn hs]
  | @opener n _ _ kept _ ih =>
    have hstep : s.char '(' = { s with parens := n + 1 } := by rw [← hs]; rfl
    show (s.char '(').line kept = _
    rw [hstep, ih (Nat.succ_pos n) rfl]
  | @closer n _ _ kept _ ih =>
    have hstep : s.char ')' = { s with parens := n + 1 } := by
      show ({ s with parens := s.parens - 1 } : BraceScan) = _
      rw [hs]
      rfl
    show (s.char ')').line kept = _
    rw [hstep, ih (Nat.succ_pos n) rfl]
  | @literal _ _ q _ kept hq _ _ _ ih =>
    have hopener := Text.ne_of_class hq (by decide : Nesting.isQuote '(' = false)
    have hcloser := Text.ne_of_class hq (by decide : Nesting.isQuote ')' = false)
    have hquote := hchar (s := s) (hs ▸ hn) hopener hcloser
    show ((s.char q).char q).line kept = _
    rw [hquote, hquote, ih hn hs]

/-- No parenthesis of the text closes one that is open before it. -/
theorem closingFrom (h : ReadsParens n text kept m) (hn : 0 < n) (prev : Option Char)
    (rest : List Char) : ∃ last, SourceSurvey.closingFrom '(' ')' n none prev (text ++ rest) =
      (SourceSurvey.closingFrom '(' ')' m none last rest).map (· + text.length) := by
  -- the depth in the text never falls below the one that is searched for
  induction h generalizing prev with
  | nil => exact ⟨prev, by simp⟩
  | @char _ _ c text _ hquote hopener hcloser _ ih =>
    obtain ⟨last, hlast⟩ := ih hn (some c)
    refine ⟨last, ?_⟩
    rw [List.cons_append, closingFrom_of_ne hquote hopener hcloser, hlast, Option.map_map]
    rfl
  | @opener n _ text _ _ ih =>
    obtain ⟨last, hlast⟩ := ih (Nat.succ_pos n) (some '(')
    refine ⟨last, ?_⟩
    show (SourceSurvey.closingFrom '(' ')' ((n + 1 : Nat) : Int) none (some '(')
      (text ++ rest)).map (· + 1) = _
    rw [hlast, Option.map_map]
    rfl
  | @closer n _ text _ _ ih =>
    obtain ⟨last, hlast⟩ := ih (Nat.succ_pos n) (some ')')
    have hdepth : ¬ (((n + 2 : Nat) : Int) == 1) = true := by
      rw [beq_iff_eq]
      omega
    have hless : ((n + 2 : Nat) : Int) - 1 = ((n + 1 : Nat) : Int) := by omega
    refine ⟨last, ?_⟩
    show (if (((n + 2 : Nat) : Int) == 1) = true then some 0
      else (SourceSurvey.closingFrom '(' ')' (((n + 2 : Nat) : Int) - 1) none (some ')')
        (text ++ rest)).map (· + 1)) = _
    rw [if_neg hdepth, hless, hlast, Option.map_map]
    rfl
  | @literal n _ q text _ hq body hbody _ ih =>
    obtain ⟨hquoted, hrun, -⟩ := LinePart.run_literal_part hq body n prev
    obtain ⟨last, hlast⟩ := ih hn (some q)
    have hpassed := closingFrom_of_quoted '(' ')' hquoted n (text ++ rest)
    rw [hrun hbody] at hpassed
    refine ⟨last, ?_⟩
    rw [enclosed_eq_append, List.append_assoc, hpassed, hlast, Option.map_map, List.length_append]
    refine congrArg (Option.map · _) (funext fun n => ?_)
    simp only [Function.comp]
    omega

end Scanning

end ReadsParens

/-- A nested text closes the parentheses that it opens. -/
theorem IsNested.exists_readsParens {allowed : Char → Bool} {inGroup : Bool} {text : List Char}
    (h : IsNested allowed inGroup text) (n : Nat) :
    ∃ kept, ReadsParens (n + 1) text kept (n + 1) := by
  -- of the groups only those in round brackets change the depth
  have hplain : ∀ {c : Char} {n m : Nat} {text kept : List Char}, isFlat c = true →
      ReadsParens n text kept m → ReadsParens n (c :: text) (c :: kept) m := fun hc h =>
    .char (isQuote_of_isFlat hc) (Text.ne_of_class hc (by decide)) (Text.ne_of_class hc (by decide)) h
  induction h generalizing n with
  | nil => exact ⟨[], .nil⟩
  | char hflat _ _ ih =>
    obtain ⟨kept, hkept⟩ := ih n
    exact ⟨_, hplain hflat hkept⟩
  | group b _ _ ihinner ih =>
    obtain ⟨kept, hkept⟩ := ih n
    cases b with
    | round =>
      obtain ⟨inside, hinside⟩ := ihinner (n + 1)
      exact ⟨_, .opener (hinside.append (.closer hkept))⟩
    | square =>
      obtain ⟨inside, hinside⟩ := ihinner n
      exact ⟨_, .char rfl (by decide) (by decide)
        (hinside.append (.char rfl (by decide) (by decide) hkept))⟩
    | curly =>
      obtain ⟨inside, hinside⟩ := ihinner n
      exact ⟨_, .char rfl (by decide) (by decide)
        (hinside.append (.char rfl (by decide) (by decide) hkept))⟩
  | generic hc _ _ _ ihinner ih =>
    obtain ⟨kept, hkept⟩ := ih n
    obtain ⟨inside, hinside⟩ := ihinner n
    exact ⟨_, hplain (isFlat_of_isWord hc) (.char rfl (by decide) (by decide)
      (hinside.append (.char rfl (by decide) (by decide) hkept)))⟩
  | arrow _ ih =>
    obtain ⟨kept, hkept⟩ := ih n
    exact ⟨_, hplain (by decide) (.char rfl (by decide) (by decide) hkept)⟩
  | literal hq body hbody _ ih =>
    obtain ⟨kept, hkept⟩ := ih n
    exact ⟨_, .literal hq body hbody hkept⟩

end SourceSurvey
