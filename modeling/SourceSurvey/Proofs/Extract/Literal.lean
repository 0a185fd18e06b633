import SourceSurvey.Comment.Strip
import SourceSurvey.Proofs.Extract.Layout

/-!
# Rows with literals

A row of a statement may hold literals, as long as they close on the row and none begins directly
behind another one, where three quotes could meet. Main statements: what follows such a text is
stripped as if it stood alone, and where its comment begins is found behind the text.
-/

namespace SourceSurvey

/-- The text does not begin with a quote. -/
def BeginsUnquoted (text : List Char) : Prop :=
  text.head?.any CommentRules.hash.isQuote = false

/-- Characters that begin nothing, and literals that are closed with no quote directly behind
them. -/
inductive IsClosed : List Char → Prop where
  | nil : IsClosed []
  | char {c : Char} {rest : List Char} (hc : isBare c = true) (hrest : IsClosed rest) :
      IsClosed (c :: rest)
  | literal {q : Char} {body rest : List Char} (hq : CommentRules.hash.isQuote q = true)
      (hbody : ∀ c ∈ body, c ≠ q ∧ c ≠ '\\') (hnext : BeginsUnquoted rest)
      (hrest : IsClosed rest) : IsClosed (q :: (body ++ q :: rest))

theorem BeginsUnquoted.append {text more : List Char} (h : BeginsUnquoted text)
    (hmore : BeginsUnquoted more) : BeginsUnquoted (text ++ more) := by
  cases text with
  | nil => exact hmore
  | cons c cs => exact h

theorem beginsUnquoted_cons {c : Char} (hc : isBare c = true) (cs : List Char) :
    BeginsUnquoted (c :: cs) :=
  (isBare_iff.mp hc).2

theorem beginsUnquoted_of_isBare {text : List Char} (h : ∀ c ∈ text, isBare c = true) :
    BeginsUnquoted text := by
  cases text with
  | nil => rfl
  | cons c cs => exact beginsUnquoted_cons (h c List.mem_cons_self) cs

namespace IsClosed

/-- Two texts that close their literals are one, if the second one begins with no quote. -/
theorem append {text more : List Char} (h : IsClosed text) (hmore : IsClosed more)
    (hnext : BeginsUnquoted more) : IsClosed (text ++ more) := by
  induction h with
  | nil => exact hmore
  | char hc _ ih => exact .char hc ih
  | literal hq hbody hrest _ ih =>
    rw [List.cons_append, List.append_assoc, List.cons_append]
    exact .literal hq hbody (hrest.append hnext) ih

theorem of_isBare {text : List Char} (h : ∀ c ∈ text, isBare c = true) : IsClosed text := by
  induction text with
  | nil => exact .nil
  | cons c cs ih =>
    exact .char (h c List.mem_cons_self) (ih fun d hd => h d (List.mem_cons_of_mem c hd))

end IsClosed

/-! ## Stripping -/

/-- Characters that are no quote and escape nothing leave a literal open. -/
theorem StaysOpen.of_forall_ne {q : Char} {body : List Char}
    (hbody : ∀ c ∈ body, c ≠ q ∧ c ≠ '\\') (following : List Char) :
    StaysOpen [q] body following := by
  induction body with
  | nil => exact .nil _
  | cons c cs ih =>
    obtain ⟨hc, hslash⟩ := hbody c List.mem_cons_self
    refine .char hslash ?_ (ih fun d hd => hbody d (List.mem_cons_of_mem c hd))
    rw [List.cons_prefix_cons]
    exact fun h => hc h.1.symm

/-- A literal on one line keeps its two quotes. -/
theorem stripFrom_hash_literal {q : Char} {body rest : List Char}
    (hq : CommentRules.hash.isQuote q = true) (hbody : ∀ c ∈ body, c ≠ q ∧ c ≠ '\\')
    (hnext : BeginsUnquoted rest) :
    CommentRules.hash.stripFrom 0 .code (q :: (body ++ q :: rest)) =
      (q :: q :: (CommentRules.hash.stripFrom 0 .code rest).1,
        (CommentRules.hash.stripFrom 0 .code rest).2) := by
  have hhash : q ≠ '#' := Text.ne_of_class hq (by decide)
  have hescape : q ≠ '\\' := Text.ne_of_class hq (by decide)
  -- only an empty literal with a third quote behind it could be taken for a triple quote
  have htriple : CommentRules.hash.startsTriple (q :: (body ++ q :: rest)) = false := by
    rw [Bool.eq_false_iff]
    intro htriple
    obtain ⟨-, more, hmore⟩ := (CommentRules.regular_style .python).triple_isQuote htriple
    cases body with
    | cons c cs =>
      exact (hbody c List.mem_cons_self).1 (List.cons.inj hmore).1
    | nil =>
      have hrest : rest = q :: more := (List.cons.inj hmore).2
      rw [hrest, BeginsUnquoted, List.head?_cons, Option.any_some, hq] at hnext
      cases hnext
  have hopen : CommentRules.hash.stripFrom 0 .code ([q] ++ (body ++ q :: rest)) =
      ([q] ++ (CommentRules.hash.stripFrom 0 (.literal [q]) (body ++ q :: rest)).1,
        (CommentRules.hash.stripFrom 0 (.literal [q]) (body ++ q :: rest)).2) :=
    CommentRules.stripFrom_opensLiteral
      (not_opensComment_of_ne_hash hhash (body ++ q :: rest)) (.single hq htriple)
  have hclosed : CommentRules.hash.stripFrom 0 (.literal [q]) (body ++ q :: rest) =
      (q :: (CommentRules.hash.stripFrom 0 .code rest).1,
        (CommentRules.hash.stripFrom 0 .code rest).2) :=
    CommentRules.stripFrom_literal_closed hescape (.of_forall_ne hbody ([q] ++ rest))
  rw [List.singleton_append] at hopen
  rw [hopen, hclosed]
  rfl

/-- A text whose literals are closed is stripped on its own. -/
theorem IsClosed.closesLiterals {text : List Char} (h : IsClosed text) : ClosesLiterals text := by
  intro rest hrest
  -- what is kept before `rest` does not depend on it, so nothing behind the text gives it too
  have hstrip : ∃ kept, ∀ rest, BeginsUnquoted rest →
      CommentRules.hash.stripFrom 0 .code (text ++ rest) =
        (kept ++ (CommentRules.hash.stripFrom 0 .code rest).1,
          (CommentRules.hash.stripFrom 0 .code rest).2) := by
    clear hrest rest
    induction h with
    | nil => exact ⟨[], fun rest _ => rfl⟩
    | @char c cs hc _ ih =>
      obtain ⟨kept, hkept⟩ := ih
      refine ⟨c :: kept, fun rest hrest => ?_⟩
      rw [List.cons_append, stripFrom_cons_of_isBare hc, hkept rest hrest]
      rfl
    | @literal q body cs hq hbody hnext _ ih =>
      obtain ⟨kept, hkept⟩ := ih
      refine ⟨q :: q :: kept, fun rest hrest => ?_⟩
      rw [List.cons_append, List.append_assoc, List.cons_append,
        stripFrom_hash_literal hq hbody (hnext.append hrest), hkept rest hrest]
      rfl
  obtain ⟨kept, hkept⟩ := hstrip
  have hnone := hkept [] rfl
  rw [List.append_nil, CommentRules.stripFrom_nil, List.append_nil] at hnone
  rw [hkept rest hrest, stripped, hnone]

/-- What is kept of two such texts is kept one by one. -/
theorem ClosesLiterals.stripped_append {text more : List Char} (h : ClosesLiterals text)
    (hmore : BeginsUnquoted more) : stripped (text ++ more) = stripped text ++ stripped more := by
  rw [stripped, h more hmore]
  rfl

/-! ## Comments -/

theorem lineCommentFrom_literal {q : Char} {body : List Char} (hbody : ∀ c ∈ body, c ≠ q ∧ c ≠ '\\')
    (hq : q ≠ '\\') (rest : List Char) :
    CommentRules.hash.lineCommentFrom 0 (some q) (body ++ q :: rest) =
      (CommentRules.hash.lineCommentFrom 0 none rest).map (· + (body.length + 1)) := by
  induction body with
  | nil =>
    have hslash : ¬ (q == '\\') = true := by simpa using hq
    rw [List.nil_append, CommentRules.lineCommentFrom, if_neg hslash, if_pos (beq_self_eq_true q)]
    rfl
  | cons c cs ih =>
    obtain ⟨hc, hslash⟩ := hbody c List.mem_cons_self
    have hc : ¬ (c == q) = true := by simpa using hc
    have hslash : ¬ (c == '\\') = true := by simpa using hslash
    rw [List.cons_append, CommentRules.lineCommentFrom, if_neg hslash, if_neg hc,
      ih fun d hd => hbody d (List.mem_cons_of_mem c hd), Option.map_map]
    rfl

/-- No comment begins in the text. -/
theorem IsClosed.lineCommentFrom {text : List Char} (h : IsClosed text) (rest : List Char) :
    CommentRules.hash.lineCommentFrom 0 none (text ++ rest) =
      (CommentRules.hash.lineCommentFrom 0 none rest).map (· + text.length) := by
  induction h with
  | nil => simp
  | @char c cs hc _ ih =>
    obtain ⟨hhash, hquote⟩ := isBare_iff.mp hc
    have hcomment : ¬ CommentRules.hash.opensLineComment (c :: (cs ++ rest)) = true := fun h =>
      not_opensComment_of_ne_hash hhash _ (.inr h)
    have hquote : ¬ CommentRules.hash.isQuote c = true := by
      rw [hquote]
      exact Bool.false_ne_true
    rw [List.cons_append, CommentRules.lineCommentFrom, if_neg hquote, if_neg hcomment, ih,
      Option.map_map]
    rfl
  | @literal q body cs hq hbody _ _ ih =>
    have hescape : q ≠ '\\' := Text.ne_of_class hq (by decide)
    have hlength : (q :: (body ++ q :: cs)).length = cs.length + (body.length + 1) + 1 := by
      simp only [List.length_cons, List.length_append]
      omega
    rw [List.cons_append, List.append_assoc, List.cons_append, CommentRules.lineCommentFrom,
      if_pos hq, lineCommentFrom_literal hbody hescape, ih, Option.map_map, Option.map_map, hlength]
    refine congrArg (Option.map · _) (funext fun n => ?_)
    simp only [Function.comp]
    omega

theorem Blanks.isClosed (blanks : Blanks) : IsClosed blanks.text :=
  .of_isBare fun c hc => isBare_of_isSpace (blanks.isSpace c hc)

theorem Blanks.beginsUnquoted (blanks : Blanks) : BeginsUnquoted blanks.text :=
  beginsUnquoted_of_isBare fun c hc => isBare_of_isSpace (blanks.isSpace c hc)

/-- Without its comment a line is the text between the blanks around it. -/
theorem trim_cutLineComment {style : CommentRules} {text : List Char} {before after : Blanks}
    {comment : List Char} (htext : text = [] ∨ Text.Tight text)
    (hcode : ∀ rest, style.lineCommentFrom 0 none (before.text ++ (text ++ after.text) ++ rest) =
      (style.lineCommentFrom 0 none rest).map
        (· + (before.text ++ (text ++ after.text)).length))
    (hcomment : comment = [] ∨ style.lineCommentFrom 0 none comment = some 0) :
    Text.trim (style.cutLineComment (before.text ++ (text ++ after.text) ++ comment)) = text := by
  have hcut : style.cutLineComment (before.text ++ (text ++ after.text) ++ comment) =
      Text.trimEnd (before.text ++ (text ++ after.text)) := by
    rw [CommentRules.cutLineComment, CommentRules.lineCommentAt?, hcode]
    rcases hcomment with rfl | hat
    · rw [List.append_nil]
      rfl
    · rw [hat, Option.map_some]
      dsimp only
      rw [Nat.zero_add, List.take_left]
  rw [hcut]
  -- cutting trims the end only; the blanks in front go with the outer trim
  rcases htext with rfl | htight
  · have hblank : ∀ c ∈ before.text ++ ([] ++ after.text), Text.isSpace c = true := by
      intro c hc
      rcases List.mem_append.mp hc with hc | hc
      · exact before.isSpace c hc
      · exact after.isSpace c hc
    refine Text.trim_eq_nil fun c hc => hblank c ?_
    exact (Text.trimEndWhile_isPrefix Text.isSpace _).subset hc
  · obtain ⟨front, last, hlast, hsolid⟩ := htight.last
    have hend : Text.trimEnd (before.text ++ (text ++ after.text)) = before.text ++ text := by
      rw [← List.append_assoc, Text.trimEnd, Text.trimEndWhile_append_of_pos after.isSpace,
        hlast, ← List.append_assoc, Text.trimEndWhile_concat_of_neg hsolid]
    have htrim : Text.trim (before.text ++ (text ++ [])) = text :=
      htight.trim_eq before.isSpace (by simp)
    rw [List.append_nil] at htrim
    rw [hend, htrim]

/-- Without its comment a row is its text. -/
theorem trim_cutLineComment_line {text : List Char} (h : IsClosed text)
    (htext : text = [] ∨ Text.Tight text) (indent : Blanks) (tail : LineTail)
    (hunquoted : BeginsUnquoted text) :
    Text.trim (CommentRules.hash.cutLineComment (Row.line ⟨indent, text, .plain tail⟩)) = text := by
  have hclosed : IsClosed (indent.text ++ (text ++ tail.blanks.text)) :=
    indent.isClosed.append (h.append tail.blanks.isClosed tail.blanks.beginsUnquoted)
      (hunquoted.append tail.blanks.beginsUnquoted)
  have hline : Row.line ⟨indent, text, .plain tail⟩ =
      indent.text ++ (text ++ tail.blanks.text) ++ tail.commentText := by
    simp [Row.line, Ending.text, LineTail.text]
  have hcomment : tail.commentText = [] ∨
      CommentRules.hash.lineCommentFrom 0 none tail.commentText = some 0 := by
    unfold LineTail.commentText
    cases tail.comment with
    | none => exact .inl rfl
    | some comment => exact .inr rfl
  rw [hline]
  exact trim_cutLineComment htext hclosed.lineCommentFrom hcomment

end SourceSurvey
