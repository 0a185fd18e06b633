import SourceSurvey.Comment.Strip
import SourceSurvey.Proofs.Comment.Erasure
import Mathlib.Data.List.Forall2

/-!
# Comments in other words

Two files that read alike but for the texts of their comments. Main statements: the two have one
stripped copy, and the search for the comment at the end of a line, which reads that line alone,
finds it in the one where it finds it in the other.
-/

namespace SourceSurvey

/-! ## Reworded files -/

/-- The text of a piece with its comment emptied. Of a line comment nothing is left. -/
def Piece.emptied : Piece → List Char
  | comment opener _ closer => opener ++ closer
  | openComment opener _ => opener
  | commentRest _ closer => closer
  | lineComment _ | commentLine _ => []
  | p => p.written

/-- The text of a line with its comments emptied. -/
def Piece.emptiedLine (pieces : List Piece) : Line :=
  pieces.flatMap emptied

namespace CommentRules

/-- What the new text of a comment is not to bring in: the delimiters of comments, the quotes, and
the dashes around an annotation. -/
def marks (style : CommentRules) : List (List Char) :=
  style.lineOpeners ++ (style.block.toList.flatMap fun block => [block.1, block.2]) ++
    [['"'], ['\''], ['\x60'], "---".toList]

/-- The new text has no mark that the old one does not have. -/
def BringsNoMark (style : CommentRules) (old new : List Char) : Prop :=
  ∀ mark ∈ style.marks, mark <:+: new → mark <:+: old

end CommentRules

/-- The pieces are one, but for the text between the delimiters if they are comments. -/
inductive Piece.Reworded (style : CommentRules) : Piece → Piece → Prop where
  | same (p : Piece) : Reworded style p p
  | comment {opener old new closer : List Char} : style.BringsNoMark old new →
      Reworded style (.comment opener old closer) (.comment opener new closer)
  | openComment {opener old new : List Char} : style.BringsNoMark old new →
      Reworded style (.openComment opener old) (.openComment opener new)
  | lineComment {opener old new : List Char} : opener ∈ style.lineOpeners →
      style.BringsNoMark old new →
      Reworded style (.lineComment (opener ++ old)) (.lineComment (opener ++ new))
  | commentRest {old new closer : List Char} : style.BringsNoMark old new →
      Reworded style (.commentRest old closer) (.commentRest new closer)
  | commentLine {old new : List Char} : style.BringsNoMark old new →
      Reworded style (.commentLine old) (.commentLine new)

/-- The second file is the first one with other texts in its comments. -/
structure Rewords (style : CommentRules) (lines lines' : List Line)
    (file file' : List (List Piece)) : Prop where
  reads : ReadsFile style lines file
  reads' : ReadsFile style lines' file'
  reworded : List.Forall₂ (List.Forall₂ (Piece.Reworded style)) file file'

section Reworded

variable {style : CommentRules} {pieces pieces' : List Piece}

theorem Piece.Reworded.kept_eq {p p' : Piece} (h : p.Reworded style p') : p'.kept = p.kept := by
  cases h <;> rfl

theorem Piece.keptLine_reworded (h : List.Forall₂ (Piece.Reworded style) pieces pieces') :
    keptLine pieces' = keptLine pieces := by
  induction h with
  | nil => rfl
  | cons hpiece _ ih => rw [keptLine_cons, keptLine_cons, hpiece.kept_eq, ih]

theorem Piece.Reworded.emptied_eq {p p' : Piece} (h : p.Reworded style p') :
    p'.emptied = p.emptied := by
  cases h <;> rfl

/-- With their comments emptied reworded lines are one. -/
theorem Piece.emptiedLine_reworded (h : List.Forall₂ (Piece.Reworded style) pieces pieces') :
    emptiedLine pieces' = emptiedLine pieces := by
  induction h with
  | nil => rfl
  | cons hpiece _ ih =>
    rw [emptiedLine, emptiedLine, List.flatMap_cons, List.flatMap_cons, hpiece.emptied_eq]
    exact congrArg (_ ++ ·) ih

theorem Piece.map_keptLine_reworded {file file' : List (List Piece)}
    (h : List.Forall₂ (List.Forall₂ (Piece.Reworded style)) file file') :
    file'.map keptLine = file.map keptLine := by
  induction h with
  | nil => rfl
  | cons hline _ ih => rw [List.map_cons, List.map_cons, keptLine_reworded hline, ih]

/-- Stripping tells no file from the file with other comments. -/
theorem Rewords.strip_eq (hstyle : style.Regular) {lines lines' : List Line}
    {file file' : List (List Piece)} (h : Rewords style lines lines' file file') :
    style.strip lines' = style.strip lines := by
  rw [CommentRules.strip_of_readsFile hstyle h.reads,
    CommentRules.strip_of_readsFile hstyle h.reads', Piece.map_keptLine_reworded h.reworded]

/-- Two lines that are reworded have reworded last pieces. -/
theorem Piece.Reworded.of_concat {front : List Piece} {p p' : Piece}
    (h : List.Forall₂ (Piece.Reworded style) (front ++ [p]) (front ++ [p'])) :
    p.Reworded style p' := by
  have hreverse := List.rel_reverse h
  rw [List.reverse_concat, List.reverse_concat] at hreverse
  cases hreverse with
  | cons hlast _ => exact hlast

end Reworded

/-! ## The comment at the end of a line -/

theorem ReadsCode.opensLineComment {style : CommentRules} {text : List Char} {pieces : List Piece}
    {after : Region} (h : ReadsCode style text pieces after) {comment : List Char}
    (hmem : .lineComment comment ∈ pieces) : style.opensLineComment comment = true := by
  induction h with
  | stop => cases hmem
  | code _ _ _ ih | literal _ _ _ _ ih | comment _ _ _ ih =>
    apply ih
    simpa using hmem
  | openLiteral | openComment => simp at hmem
  | lineComment _ hopens =>
    cases List.mem_singleton.mp hmem
    exact hopens

theorem ReadsLine.opensLineComment {style : CommentRules} {region after : Region} {line : Line}
    {pieces : List Piece} (h : ReadsLine style region line pieces after) {comment : List Char}
    (hmem : .lineComment comment ∈ pieces) : style.opensLineComment comment = true := by
  cases h with
  | code h => exact h.opensLineComment hmem
  | literalLine | commentLine => simp at hmem
  | literalRest _ _ h | commentRest _ _ h =>
    apply h.opensLineComment
    simpa using hmem

/-- Every line comment of a file begins with an opener. -/
theorem ReadsLines.opensLineComment {style : CommentRules} {region : Region} {lines : List Line}
    {file : List (List Piece)} (h : ReadsLines style region lines file) {pieces : List Piece}
    (hpieces : pieces ∈ file) {comment : List Char} (hmem : .lineComment comment ∈ pieces) :
    style.opensLineComment comment = true := by
  induction h with
  | nil => cases hpieces
  | cons hline _ _ ih =>
    rcases List.mem_cons.mp hpieces with rfl | hrest
    · exact hline.opensLineComment hmem
    · exact ih hrest

/-- A reworded line comment is the same or keeps its opener. -/
theorem Piece.Reworded.lineComment_cases {style : CommentRules} {text text' : List Char}
    (h : (Piece.lineComment text).Reworded style (.lineComment text')) :
    text' = text ∨ ∃ opener old new, opener ∈ style.lineOpeners ∧ text = opener ++ old ∧
      text' = opener ++ new ∧ style.BringsNoMark old new := by
  cases h with
  | same => exact .inl rfl
  | lineComment hopener hmarks => exact .inr ⟨_, _, _, hopener, rfl, rfl, hmarks⟩

namespace CommentRules

variable {family : Family}

/-- Whether a line comment opens is settled by two characters. -/
theorem opensLineComment_two (a b : Char) (text text' : List Char) :
    family.style.opensLineComment (a :: b :: text) =
      family.style.opensLineComment (a :: b :: text') := by
  cases family <;> rfl

theorem opensLineComment_front (a : Char) (front : List Char) (c : Char) (text text' : List Char) :
    family.style.opensLineComment (a :: (front ++ c :: text)) =
      family.style.opensLineComment (a :: (front ++ c :: text')) := by
  cases front with
  | nil => exact opensLineComment_two a c text text'
  | cons b front => exact opensLineComment_two a b (front ++ c :: text) (front ++ c :: text')

/-- The search for the comment at the end of a line stops where it stops with another comment. -/
theorem lineCommentFrom_reworded {skip : Nat} {quote : Option Char} {front : List Char} {c : Char}
    {text text' : List Char} (hopens : family.style.opensLineComment (c :: text') = true)
    (h : family.style.lineCommentFrom skip quote (front ++ c :: text) = some front.length) :
    family.style.lineCommentFrom skip quote (front ++ c :: text') = some front.length := by
  induction front generalizing skip quote with
  | nil =>
    rw [List.nil_append] at h ⊢
    cases skip with
    | succ skip => simp [lineCommentFrom] at h
    | zero =>
      cases quote with
      | some q =>
        rw [lineCommentFrom] at h
        split at h <;> simp at h
      | none =>
        rw [lineCommentFrom] at h ⊢
        by_cases hquote : family.style.isQuote c = true
        · simp [hquote] at h
        · rw [if_neg hquote, if_pos hopens]
          rfl
  | cons a front ih =>
    have hrest : ∀ skip quote,
        (family.style.lineCommentFrom skip quote (front ++ c :: text)).map (· + 1) =
          some (front.length + 1) →
        (family.style.lineCommentFrom skip quote (front ++ c :: text')).map (· + 1) =
          some (front.length + 1) := by
      intro skip quote hmap
      obtain ⟨n, hn, hlength⟩ := Option.map_eq_some_iff.mp hmap
      rw [ih (hn.trans (congrArg some (Nat.succ.inj hlength)))]
      rfl
    rw [List.cons_append, List.length_cons] at h ⊢
    cases skip with
    | succ skip =>
      rw [lineCommentFrom] at h ⊢
      exact hrest _ _ h
    | zero =>
      cases quote with
      | some q =>
        rw [lineCommentFrom] at h ⊢
        by_cases hescape : (a == '\\') = true
        · rw [if_pos hescape] at h ⊢
          exact hrest _ _ h
        · rw [if_neg hescape] at h ⊢
          exact hrest _ _ h
      | none =>
        rw [lineCommentFrom] at h ⊢
        by_cases hquote : family.style.isQuote a = true
        · rw [if_pos hquote] at h ⊢
          exact hrest _ _ h
        · rw [if_neg hquote] at h ⊢
          -- the opener would begin before the comment, and its two characters are the same
          rw [opensLineComment_front a front c text' text]
          by_cases hearly : family.style.opensLineComment (a :: (front ++ c :: text)) = true
          · simp [hearly] at h
          · rw [if_neg hearly] at h ⊢
            exact hrest _ _ h

/-- A literal is open for the search for a comment as long as it is for stripping. -/
theorem lineCommentFrom_staysOpen {style : CommentRules} {q : Char} {body following : List Char}
    (h : StaysOpen [q] body following) (rest : List Char) :
    style.lineCommentFrom 0 (some q) (body ++ rest) =
      (style.lineCommentFrom 0 (some q) rest).map (· + body.length) := by
  induction h with
  | nil => simp
  | escape c _ ih =>
    rw [List.cons_append, List.cons_append, lineCommentFrom, if_pos (beq_self_eq_true '\\'),
      lineCommentFrom, ih, Option.map_map, Option.map_map]
    rfl
  | @char c body following hescape hstarts _ ih =>
    have hescape' : ¬ (c == '\\') = true := by rwa [beq_iff_eq]
    have hquote : ¬ (c == q) = true := by
      rw [beq_iff_eq]
      rintro rfl
      exact hstarts (List.prefix_append [c] _)
    rw [List.cons_append, lineCommentFrom, if_neg hescape', if_neg hquote, ih, Option.map_map]
    rfl

/-- The opener of a line comment begins with a number sign or a slash, and has no dash. -/
theorem exists_lineOpener {opener : List Char} (h : opener ∈ family.style.lineOpeners) :
    ∃ c cs, opener = c :: cs ∧ (c = '#' ∨ c = '/') ∧ '-' ∉ cs := by
  cases family with
  | python =>
    rw [List.mem_singleton.mp h]
    exact ⟨'#', [], rfl, .inl rfl, by decide⟩
  | javascript =>
    rw [List.mem_singleton.mp h]
    exact ⟨'/', ['/'], rfl, .inr rfl, by decide⟩
  | php =>
    rcases List.mem_cons.mp h with rfl | h
    · exact ⟨'/', ['/'], rfl, .inr rfl, by decide⟩
    · rw [List.mem_singleton.mp h]
      exact ⟨'#', [], rfl, .inl rfl, by decide⟩
  | html | css => cases h

/-- The opener of a line comment quotes nothing. -/
theorem isQuote_of_opensLineComment {c : Char} {cs : List Char}
    (h : family.style.opensLineComment (c :: cs) = true) : family.style.isQuote c = false := by
  unfold opensLineComment at h
  cases hfind : family.style.lineOpeners.find? (·.isPrefixOf (c :: cs)) with
  | none => simp [hfind] at h
  | some opener =>
    obtain ⟨d, ds, rfl, hd, -⟩ := exists_lineOpener (List.mem_of_find?_eq_some hfind)
    have hstarts := List.find?_some hfind
    have hcd : d = c := by simpa using And.left (by simpa [List.isPrefixOf] using hstarts)
    subst hcd
    rcases hd with rfl | rfl <;> cases family <;> rfl

/-- On a line of code and literals with one quote, the comment at the end is found where it stands. -/
theorem lineCommentFrom_of_readsCode {text : List Char} {pieces front : List Piece} {after : Region}
    (h : ReadsCode family.style text pieces after) {comment : List Char}
    (hpieces : pieces = front ++ [.lineComment comment])
    (hfront : ∀ p ∈ front, (∃ c, p = .code c) ∨ ∃ q body, p = .literal [q] body) :
    family.style.lineCommentFrom 0 none text = some (Piece.writtenLine front).length := by
  -- the reading is one of single pieces, and all but the last are code or literals with one quote
  induction h generalizing front with
  | stop => simp at hpieces
  | code hcomment hquote _ ih =>
    cases front with
    | nil => simp at hpieces
    | cons p front =>
      rw [List.cons_append] at hpieces
      obtain ⟨rfl, hrest⟩ := List.cons.inj hpieces
      have hline := fun hopens => hcomment (.inr hopens)
      rw [lineCommentFrom, if_neg (by simp [hquote]), if_neg hline,
        ih hrest fun p hp => hfront p (List.mem_cons_of_mem _ hp)]
      rw [Piece.writtenLine_cons]
      simp [Piece.written]
  | @literal delimiter body rest pieces after hcomment hopens hbody _ ih =>
    cases front with
    | nil => simp at hpieces
    | cons p front =>
      rw [List.cons_append] at hpieces
      obtain ⟨rfl, hrest⟩ := List.cons.inj hpieces
      obtain ⟨q, hdelimiter⟩ : ∃ q, delimiter = [q] := by
        rcases hfront _ List.mem_cons_self with ⟨c, hc⟩ | ⟨q, body', hq⟩
        · cases hc
        · cases hq
          exact ⟨q, rfl⟩
      subst hdelimiter
      have hquote : family.style.isQuote q = true := by
        cases hopens with
        | single hquote _ => exact hquote
      -- the search passes over the literal as the reading does, since no delimiter is an escape
      have hescape : ¬ (q == '\\') = true := by
        rw [beq_iff_eq]
        rintro rfl
        rw [(regular_style family).escape_not_quote] at hquote
        cases hquote
      have hafter := ih hrest fun p hp => hfront p (List.mem_cons_of_mem _ hp)
      rw [List.singleton_append, lineCommentFrom, if_pos hquote, lineCommentFrom_staysOpen hbody,
        List.singleton_append, lineCommentFrom, if_neg hescape, if_pos (beq_self_eq_true q), hafter,
        Piece.writtenLine_cons]
      simp only [Option.map_some, Piece.written, List.length_append, List.length_singleton]
      congr 1
      omega
  | openLiteral | openComment => cases front <;> simp at hpieces
  | comment =>
    cases front with
    | nil => simp at hpieces
    | cons p front =>
      obtain ⟨rfl, -⟩ := List.cons.inj hpieces
      rcases hfront _ List.mem_cons_self with ⟨c, hc⟩ | ⟨q, body, hq⟩
      · cases hc
      · cases hq
  | @lineComment text _ hopens =>
    cases front with
    | cons p front => cases front <;> simp at hpieces
    | nil =>
      cases text with
      | nil => cases family <;> cases hopens
      | cons c cs =>
        rw [lineCommentFrom, if_neg (by simp [isQuote_of_opensLineComment hopens]), if_pos hopens]
        rfl

end CommentRules

end SourceSurvey
