import SourceSurvey.Proofs.Code.Quoting
import SourceSurvey.Proofs.Comment.Layout
import SourceSurvey.Proofs.Comment.Rewording
import SourceSurvey.Proofs.Extract.Layout
import SourceSurvey.Proofs.Extract.Script
import SourceSurvey.Proofs.Finding.Shift
import SourceSurvey.Summary.OfText

/-!
# Hardcoded values and comments

What is found hardcoded in a file when its comments are put in other words. In pages nothing
changes. A line of code is read without the line comment at its end, and block comments are left out
only where a line begins with one or has nothing else; the comments of a stylesheet are read like its
rules, since only those of markup are left out there. Main statements: what is found stays the same
if no reworded comment is read, and it does not for every file.
-/

namespace SourceSurvey

/-! ## Texts that a character divides -/

section Divided

variable {part v text text' : List Char} {c : Char}

/-- A part without the character, or one that is short, ends before what follows the character. -/
theorem prefix_append_singleton (h : c ∉ part ∨ part.length ≤ v.length + 1)
    (hpart : part <+: v ++ c :: text) : part <+: v ++ [c] := by
  have hfront : v ++ [c] <+: v ++ c :: text := ⟨text, by simp⟩
  rcases h with hmem | hlength
  · rcases List.prefix_or_prefix_of_prefix hpart hfront with h | h
    · exact h
    · exact absurd (h.subset (by simp)) hmem
  · apply List.prefix_of_prefix_length_le hpart hfront
    simpa using hlength

/-- Whether a text begins with a part depends on no more than the length of the part. -/
theorem isPrefixOf_append_cons (h : c ∉ part ∨ part.length ≤ v.length + 1) :
    part.isPrefixOf (v ++ c :: text) = part.isPrefixOf (v ++ c :: text') := by
  have hfront : ∀ more, v ++ [c] <+: v ++ c :: more := fun more => ⟨more, by simp⟩
  rw [Bool.eq_iff_iff, List.isPrefixOf_iff_prefix, List.isPrefixOf_iff_prefix]
  constructor
  · intro hpart
    exact (prefix_append_singleton h hpart).trans (hfront text')
  · intro hpart
    exact (prefix_append_singleton h hpart).trans (hfront text)

/-- A part without the character stands before it or behind it. -/
theorem infix_append_cons_iff (hc : c ∉ part) :
    part <:+: v ++ c :: text ↔ part <:+: v ∨ part <:+: text := by
  constructor
  · intro h
    induction v with
    | nil =>
      rcases List.infix_cons_iff.mp h with hstart | hrest
      · have hpart := prefix_append_singleton (v := []) (.inl hc) hstart
        rcases List.prefix_concat_iff.mp hpart with rfl | hnil
        · exact absurd (by simp) hc
        · exact .inl hnil.isInfix
      · exact .inr hrest
    | cons x v ih =>
      rcases List.infix_cons_iff.mp h with hstart | hrest
      · have hpart := prefix_append_singleton (v := x :: v) (.inl hc) hstart
        rcases List.prefix_concat_iff.mp hpart with rfl | hv
        · exact absurd (by simp) hc
        · exact .inl hv.isInfix
      · rcases ih hrest with hv | htext
        · exact .inl (hv.trans (List.suffix_cons x v).isInfix)
        · exact .inr htext
  · rintro (h | h)
    · exact h.trans (List.prefix_append v (c :: text)).isInfix
    · exact h.trans ⟨v ++ [c], [], by simp⟩

/-- A part that ends in no blank is not trimmed. -/
theorem infix_trimEnd_iff {d : Char} (hd : Text.isSpace d = false) :
    part ++ [d] <:+: Text.trimEnd text ↔ part ++ [d] <:+: text := by
  constructor
  · intro h
    exact h.trans (Text.trimEndWhile_isPrefix Text.isSpace text).isInfix
  · rintro ⟨before, after, rfl⟩
    have hkept := Text.isPrefix_trimEndWhile hd (before ++ part) after
    rw [List.append_assoc before part] at hkept
    exact List.IsInfix.trans ⟨before, [], by simp⟩ hkept.isInfix

end Divided

/-! ## Lines of code -/

namespace Hardcoded

section Relevance

variable {v text text' : List Char} {c : Char}

/-- What makes a line a comment line stands before a later comment. -/
theorem isCommentLine_append_cons (hv : v ≠ []) (hc : c = '#' ∨ c = '/') :
    isCommentLine (v ++ c :: text) = isCommentLine (v ++ c :: text') := by
  have hlength := List.length_pos_iff.mpr hv
  have hshort : ∀ part : List Char, part.length ≤ 2 →
      part.isPrefixOf (v ++ c :: text) = part.isPrefixOf (v ++ c :: text') :=
    fun part hpart => isPrefixOf_append_cons (.inr (by omega))
  have hmarkup : "<!--".toList.isPrefixOf (v ++ c :: text) =
      "<!--".toList.isPrefixOf (v ++ c :: text') := by
    apply isPrefixOf_append_cons
    left
    rcases hc with rfl | rfl <;> decide
  simp only [isCommentLine, List.any_cons, List.any_nil, hmarkup]
  rw [hshort "#".toList (by decide), hshort "#[".toList (by decide), hshort "//".toList (by decide),
    hshort "/*".toList (by decide), hshort "*".toList (by decide)]

/-- Whether a line begins with a word and a blank is settled before a later comment. -/
theorem beginsWithWord_append_cons {word : String} (hword : c ∉ word.toList) :
    (word.toList.isPrefixOf (v ++ c :: text) &&
        ((v ++ c :: text).drop word.length).head?.any Text.isSpace) =
      (word.toList.isPrefixOf (v ++ c :: text') &&
        ((v ++ c :: text').drop word.length).head?.any Text.isSpace) := by
  have hstart : word.toList.isPrefixOf (v ++ c :: text) = word.toList.isPrefixOf (v ++ c :: text') :=
    isPrefixOf_append_cons (.inl hword)
  cases hprefix : word.toList.isPrefixOf (v ++ c :: text) with
  | false => rw [← hstart, hprefix, Bool.false_and, Bool.false_and]
  | true =>
    rw [← hstart, hprefix]
    have hv := prefix_append_singleton (.inl hword) (List.isPrefixOf_iff_prefix.mp hprefix)
    rcases List.prefix_concat_iff.mp hv with heq | ⟨rest, rfl⟩
    · exact absurd (by simp [heq]) hword
    · rw [← String.length_toList, List.append_assoc, List.append_assoc, List.drop_left,
        List.drop_left]
      cases rest <;> rfl

/-- Whether a line is an import does not depend on its comment. -/
theorem isImportLine_append_cons (hc : c = '#' ∨ c = '/') :
    isImportLine (v ++ c :: text) = isImportLine (v ++ c :: text') := by
  have hletters : ∀ word ∈ ["import", "from", "use", "require", "include"], c ∉ word.toList := by
    rcases hc with rfl | rfl <;> decide
  unfold isImportLine
  dsimp only
  rw [beginsWithWord_append_cons (hletters "import" (by simp)),
    beginsWithWord_append_cons (hletters "from" (by simp)),
    beginsWithWord_append_cons (hletters "use" (by simp)),
    isPrefixOf_append_cons (.inl (hletters "require" (by simp))),
    isPrefixOf_append_cons (.inl (hletters "include" (by simp)))]

/-- The dashes of an annotation are not in a text without dashes. -/
theorem dashes_append_iff {front : List Char} (hfront : '-' ∉ front) :
    "---".toList <:+: front ++ text ↔ "---".toList <:+: text := by
  induction front with
  | nil => rw [List.nil_append]
  | cons c front ih =>
    have hrest := ih fun hmem => hfront (List.mem_cons_of_mem c hmem)
    have hc : c ∉ "---".toList := by
      have hne : c ≠ '-' := fun heq => hfront (by simp [heq])
      simpa using hne
    rw [List.cons_append, ← hrest]
    have hdivided : "---".toList <:+: [] ++ c :: (front ++ text) ↔ _ := infix_append_cons_iff hc
    rw [List.nil_append, List.infix_nil] at hdivided
    exact hdivided.trans (or_iff_right (by decide))

/-- The dashes of an annotation stand before a comment or in it. -/
theorem contains_dashes_append_cons (hc : c = '#' ∨ c = '/')
    (htext : "---".toList <:+: text ↔ "---".toList <:+: text') :
    Text.contains (v ++ c :: Text.trimEnd text) "---".toList =
      Text.contains (v ++ c :: Text.trimEnd text') "---".toList := by
  have hdashes : c ∉ "---".toList := by
    rcases hc with rfl | rfl <;> decide
  have htrim : ∀ t : List Char, ['-', '-'] ++ ['-'] <:+: Text.trimEnd t ↔
      ['-', '-'] ++ ['-'] <:+: t :=
    fun t => infix_trimEnd_iff (by decide)
  rw [Bool.eq_iff_iff, Text.contains_iff_isInfix, Text.contains_iff_isInfix,
    infix_append_cons_iff hdashes, infix_append_cons_iff hdashes]
  exact or_congr_right ((htrim text).trans (htext.trans (htrim text').symm))

/-- A line with a comment behind its code is looked at whatever the comment says. -/
theorem isRelevant_append_cons {code : Line} (hv : Text.trimStart v ≠ []) (hc : c = '#' ∨ c = '/')
    (htext : "---".toList <:+: text ↔ "---".toList <:+: text') :
    isRelevant (v ++ c :: text) code = isRelevant (v ++ c :: text') code := by
  have hspace : Text.isSpace c = false := by
    rcases hc with rfl | rfl <;> decide
  have hcomment : isCommentLine (Text.trimStart v ++ c :: Text.trimEnd text) =
      isCommentLine (Text.trimStart v ++ c :: Text.trimEnd text') :=
    isCommentLine_append_cons hv hc
  have himport : isImportLine (Text.trimStart v ++ c :: Text.trimEnd text) =
      isImportLine (Text.trimStart v ++ c :: Text.trimEnd text') :=
    isImportLine_append_cons hc
  unfold isRelevant
  dsimp only
  rw [Text.trim_append_cons hspace, Text.trim_append_cons hspace, hcomment, himport,
    contains_dashes_append_cons hc htext]
  cases Text.trimStart v <;> rfl

end Relevance

/-! ## Reworded lines -/

/-- The comments of a line of code are not read in either wording: no code stands beside them, or
the line is a comment line, or its one comment is at its end, where it is found and cut. Dashes that
make the line an annotation are to stay there. -/
inductive Overlooks (style : CommentRules) (pieces pieces' : List Piece) : Prop where
  | noCode : Text.isBlank (Piece.keptLine pieces) = true → Overlooks style pieces pieces'
  | commentLine : isCommentLine (Text.trim (Piece.writtenLine pieces)) = true →
      isCommentLine (Text.trim (Piece.writtenLine pieces')) = true →
      Overlooks style pieces pieces'
  | trailing {front : List Piece} {text text' : List Char} :
      pieces = front ++ [.lineComment text] → pieces' = front ++ [.lineComment text'] →
      style.lineCommentAt? (Piece.writtenLine pieces) = some (Piece.writtenLine front).length →
      ("---".toList <:+: text → "---".toList <:+: text') → Overlooks style pieces pieces'

/-- A line that begins with a block comment is a comment line. -/
theorem overlooks_of_block {family : Family} {opener closer blanks rest rest' : List Char}
    {pieces pieces' : List Piece} (hblock : family.style.block = some (opener, closer))
    (hblanks : ∀ c ∈ blanks, Text.isSpace c = true)
    (hline : Piece.writtenLine pieces = blanks ++ (opener ++ rest))
    (hline' : Piece.writtenLine pieces' = blanks ++ (opener ++ rest')) :
    Overlooks family.style pieces pieces' := by
  have hopener : opener = "/*".toList ∨ opener = "<!--".toList := by
    cases family with
    | python => cases hblock
    | javascript | php | css =>
      cases hblock
      exact .inl rfl
    | html =>
      cases hblock
      exact .inr rfl
  have htight : Text.Tight opener := by
    rcases hopener with rfl | rfl
    · exact ⟨⟨'/', ['*'], rfl, by decide⟩, ['/'], '*', rfl, by decide⟩
    · exact ⟨⟨'<', "!--".toList, rfl, by decide⟩, "<!-".toList, '-', rfl, by decide⟩
  have hcomment : ∀ more, isCommentLine (Text.trim (blanks ++ (opener ++ more))) = true := by
    intro more
    have hstarts := List.isPrefixOf_iff_prefix.mpr (htight.isPrefix_trim hblanks more)
    unfold isCommentLine
    rw [Bool.or_eq_true, List.any_eq_true]
    right
    rcases hopener with rfl | rfl
    · exact ⟨"/*", by simp, hstarts⟩
    · exact ⟨"<!--", by simp, hstarts⟩
  apply Overlooks.commentLine
  · rw [hline]
    exact hcomment rest
  · rw [hline']
    exact hcomment rest'

/-- The comment at the end of a line of code and literals with one quote is cut. -/
theorem overlooks_of_readsCode {family : Family} {line : Line} {front : List Piece}
    {text text' : List Char} {after : Region}
    (h : ReadsCode family.style line (front ++ [.lineComment text]) after)
    (hfront : ∀ p ∈ front, (∃ c, p = .code c) ∨ ∃ q body, p = .literal [q] body)
    (hdashes : "---".toList <:+: text → "---".toList <:+: text') :
    Overlooks family.style (front ++ [.lineComment text]) (front ++ [.lineComment text']) := by
  refine .trailing rfl rfl ?_ hdashes
  rw [h.written]
  exact CommentRules.lineCommentFrom_of_readsCode h rfl hfront

/-- A line of a stylesheet has no address of the kinds that are looked for in markup. -/
def HoldsNoAddress (line : Line) : Prop :=
  linkedUrl.searchAll line = [] ∧ ip.search? line = none

/-- On a line of a stylesheet, whatever its number, the same addresses are found as with its comments
emptied. -/
def IsReadAsEmptied (pieces : List Piece) : Prop :=
  ofMarkupLine 0 (Piece.writtenLine pieces) = ofMarkupLine 0 (Piece.emptiedLine pieces)

instance : DecidablePred IsReadAsEmptied := fun pieces =>
  inferInstanceAs (Decidable (ofMarkupLine 0 (Piece.writtenLine pieces) = _))

theorem IsReadAsEmptied.ofMarkupLine_eq {pieces : List Piece} (h : IsReadAsEmptied pieces)
    (n : Nat) :
    ofMarkupLine n (Piece.writtenLine pieces) = ofMarkupLine n (Piece.emptiedLine pieces) := by
  induction n with
  | zero => exact h
  | succ n ih => rw [ofMarkupLine_succ, ofMarkupLine_succ, ih]

/-! An address in a selector is found beside a comment, and one in the comment is found too. -/

example : IsReadAsEmptied ("a[href=".toList.map Piece.code ++ [.literal ['"'] "http://a.org".toList,
    .code ']', .comment "/*".toList " x ".toList "*/".toList]) := by
  decide +kernel

example : ¬ IsReadAsEmptied [.code 'a', .comment "/*".toList " 10.0.0.1 ".toList "*/".toList] := by
  decide +kernel

/-- Nothing is found on a line that is passed over. -/
theorem ofLine_eq_nil {style : CommentRules} {line code : Line} (h : isRelevant line code = false)
    (n : Nat) : ofLine style n line code = [] := by
  rw [ofLine, h]
  rfl

/-- A line without code is passed over. -/
theorem isRelevant_of_isBlank {line code : Line} (h : Text.isBlank code = true) :
    isRelevant line code = false := by
  simp [isRelevant, h]

/-- A line that is a comment is passed over. -/
theorem isRelevant_of_isCommentLine {line code : Line} (h : isCommentLine (Text.trim line) = true) :
    isRelevant line code = false := by
  simp [isRelevant, h]

/-- Cutting a line comment leaves what stands in front of it. -/
theorem cutLineComment_of_lineCommentAt? {style : CommentRules} {front text : List Char}
    (h : style.lineCommentAt? (front ++ text) = some front.length) :
    style.cutLineComment (front ++ text) = Text.trimEnd front := by
  unfold CommentRules.cutLineComment
  rw [h]
  dsimp only
  rw [List.take_left]

section Overlooked

variable {family : Family} {pieces pieces' front : List Piece} {text text' : List Char}

/-- A line that holds nothing but a line comment keeps nothing. -/
theorem isBlank_keptLine_of_front (h : Text.trimStart (Piece.writtenLine front) = []) :
    Text.isBlank (Piece.keptLine (front ++ [.lineComment text])) = true := by
  have hblank : Text.isBlank (Piece.writtenLine front) = true := by
    apply List.all_eq_true.mpr
    exact List.dropWhile_eq_nil_iff.mp h
  apply isBlank_of_sublist _ hblank
  have hkept : Piece.keptLine (front ++ [.lineComment text]) = Piece.keptLine front := by
    simp [Piece.keptLine, Piece.kept]
  rw [hkept]
  exact Piece.keptLine_sublist front

/-- A line is read up to the comment at its end. -/
theorem ofLine_trailing (hopens : family.style.opensLineComment text' = true)
    (hreworded : (Piece.lineComment text).Reworded family.style (.lineComment text'))
    (hfound : family.style.lineCommentAt? (Piece.writtenLine front ++ text) =
      some (Piece.writtenLine front).length)
    (hdashes : "---".toList <:+: text → "---".toList <:+: text')
    (hfront : Text.trimStart (Piece.writtenLine front) ≠ []) (n : Nat) (code : Line) :
    ofLine family.style n (Piece.writtenLine front ++ text) code =
      ofLine family.style n (Piece.writtenLine front ++ text') code := by
  rcases hreworded.lineComment_cases with rfl | ⟨opener, old, new, hopener, rfl, rfl, hmarks⟩
  · rfl
  · obtain ⟨c, cs, rfl, hc, hcs⟩ := CommentRules.exists_lineOpener hopener
    simp only [List.cons_append] at hfound hdashes hopens ⊢
    have hfound' : family.style.lineCommentAt? (Piece.writtenLine front ++ c :: (cs ++ new)) =
        some (Piece.writtenLine front).length :=
      CommentRules.lineCommentFrom_reworded hopens hfound
    -- the opener has no dashes, so those of the comment are in its text
    have hopener : '-' ∉ c :: cs := by
      rcases hc with rfl | rfl <;> simpa using hcs
    have hiff : "---".toList <:+: cs ++ old ↔ "---".toList <:+: cs ++ new := by
      rw [← List.cons_append, ← List.cons_append, dashes_append_iff hopener,
        dashes_append_iff hopener] at hdashes
      rw [dashes_append_iff hcs, dashes_append_iff hcs]
      exact ⟨hdashes, hmarks "---".toList (by simp [CommentRules.marks])⟩
    unfold ofLine
    rw [isRelevant_append_cons hfront hc hiff, cutLineComment_of_lineCommentAt? hfound,
      cutLineComment_of_lineCommentAt? hfound']

/-- The values of a line do not depend on the words of comments that are overlooked. -/
theorem ofLine_overlooks (h : Overlooks family.style pieces pieces')
    (hreworded : List.Forall₂ (Piece.Reworded family.style) pieces pieces')
    (hopens : ∀ comment, .lineComment comment ∈ pieces' →
      family.style.opensLineComment comment = true) (n : Nat) :
    ofLine family.style n (Piece.writtenLine pieces) (Piece.keptLine pieces) =
      ofLine family.style n (Piece.writtenLine pieces') (Piece.keptLine pieces') := by
  have hkept := Piece.keptLine_reworded hreworded
  have hblank : Text.isBlank (Piece.keptLine pieces) = true →
      ofLine family.style n (Piece.writtenLine pieces) (Piece.keptLine pieces) =
        ofLine family.style n (Piece.writtenLine pieces') (Piece.keptLine pieces') := by
    intro hcode
    rw [hkept, ofLine_eq_nil (isRelevant_of_isBlank hcode), ofLine_eq_nil (isRelevant_of_isBlank hcode)]
  cases h with
  | noCode hcode => exact hblank hcode
  | commentLine hline hline' =>
    rw [ofLine_eq_nil (isRelevant_of_isCommentLine hline),
      ofLine_eq_nil (isRelevant_of_isCommentLine hline')]
  | @trailing front text text' hpieces hpieces' hfound hdashes =>
    subst hpieces hpieces'
    by_cases hfront : Text.trimStart (Piece.writtenLine front) = []
    -- a comment behind blanks leaves no code
    · exact hblank (isBlank_keptLine_of_front hfront)
    · have hwritten : ∀ t, Piece.writtenLine (front ++ [.lineComment t]) =
          Piece.writtenLine front ++ t := by
        intro t
        simp [Piece.writtenLine, Piece.written]
      rw [hwritten] at hfound
      rw [hwritten, hwritten, hkept]
      exact ofLine_trailing (hopens text' (by simp)) (.of_concat hreworded) hfound hdashes hfront n _

end Overlooked

/-! ## Reworded files -/

/-- Numbered lines that yield alike, one by one, yield alike. -/
theorem flatMap_zipIdx_congr {α β : Type} {found : α × Nat → List β} {as bs : List α}
    (h : List.Forall₂ (fun a b => ∀ n, found (a, n) = found (b, n)) as bs) (first : Nat) :
    (as.zipIdx first).flatMap found = (bs.zipIdx first).flatMap found := by
  induction h generalizing first with
  | nil => rfl
  | cons hline _ ih =>
    rw [List.zipIdx_cons, List.zipIdx_cons, List.flatMap_cons, List.flatMap_cons, hline, ih]

/-- What is found in code is found on the written and the kept text of each line. -/
theorem ofCode_of_readsFile {style : CommentRules} (hstyle : style.Regular) {lines : List Line}
    {file : List (List Piece)} (h : ReadsFile style lines file) :
    ofCode style lines =
      ((file.map fun pieces => (Piece.writtenLine pieces, Piece.keptLine pieces)).zipIdx 1).flatMap
        fun q => ofLine style q.2 q.1.1 q.1.2 := by
  have hzip : lines.zip (style.strip lines) =
      file.map fun pieces => (Piece.writtenLine pieces, Piece.keptLine pieces) := by
    rw [CommentRules.strip_of_readsFile hstyle h, ← h.written, List.zip_map']
  rw [ofCode, hzip]

/-- Nothing is found on a line of markup without an address. -/
theorem ofMarkupLine_of_holdsNoAddress {line : Line} (h : HoldsNoAddress line) (n : Nat) :
    ofMarkupLine n line = [] := by
  unfold ofMarkupLine
  rw [h.1, h.2]
  simp

end Hardcoded

open Hardcoded in
/-- The reworded comments of a line are not read. Pages leave out all comments. Stylesheets read
theirs, and have no comments of markup here; a line with another comment holds no address, or has all
that is found on it outside of its comments. -/
def Family.Overlooks (family : Family) (pieces pieces' : List Piece) : Prop :=
  match family with
  | .html => True
  | .css =>
    ¬ markupOpener <:+: Piece.writtenLine pieces ∧ ¬ markupOpener <:+: Piece.writtenLine pieces' ∧
      (pieces' = pieces ∨
        HoldsNoAddress (Piece.writtenLine pieces) ∧ HoldsNoAddress (Piece.writtenLine pieces') ∨
        IsReadAsEmptied pieces ∧ IsReadAsEmptied pieces')
  | _ => pieces' = pieces ∨ Hardcoded.Overlooks family.style pieces pieces'

section Files

variable {family : Family} {lines lines' : List Line} {file file' : List (List Piece)}

/-- The values of a file of code do not depend on such words. -/
theorem Family.ofCode_overlooks (h : Rewords family.style lines lines' file file')
    (hoverlooks : List.Forall₂ (fun pieces pieces' => pieces' = pieces ∨
      Hardcoded.Overlooks family.style pieces pieces') file file') :
    Hardcoded.ofCode family.style lines' = Hardcoded.ofCode family.style lines := by
  have hstyle := CommentRules.regular_style family
  rw [Hardcoded.ofCode_of_readsFile hstyle h.reads, Hardcoded.ofCode_of_readsFile hstyle h.reads']
  symm
  apply Hardcoded.flatMap_zipIdx_congr
  rw [List.forall₂_map_left_iff, List.forall₂_map_right_iff, List.forall₂_iff_zip]
  refine ⟨h.reworded.length_eq, ?_⟩
  intro pieces pieces' hpair n
  have hmem : pieces' ∈ file' := (List.of_mem_zip hpair).2
  rcases (List.forall₂_iff_zip.mp hoverlooks).2 hpair with rfl | hline
  · rfl
  · apply Hardcoded.ofLine_overlooks hline ((List.forall₂_iff_zip.mp h.reworded).2 hpair)
    intro comment hcomment
    exact h.reads'.opensLineComment hmem hcomment

/-- The addresses of a stylesheet do not depend on such words. -/
theorem Family.ofMarkup_overlooks (h : Rewords Family.css.style lines lines' file file')
    (hoverlooks : List.Forall₂ Family.css.Overlooks file file') :
    Hardcoded.ofMarkup lines' = Hardcoded.ofMarkup lines := by
  -- without comments of markup every line is read as it stands
  have hold := ((List.forall₂_and_left _ _).mp hoverlooks).1
  have hnew := ((List.forall₂_and_left _ _).mp (hoverlooks.imp fun _ _ hline => hline.2).flip).1
  have hstrip : CommentRules.markup.strip lines = file.map Piece.writtenLine := by
    rw [← h.reads.written]
    apply strip_markup_of_not_infix
    simpa using hold
  have hstrip' : CommentRules.markup.strip lines' = file'.map Piece.writtenLine := by
    rw [← h.reads'.written]
    apply strip_markup_of_not_infix
    simpa using hnew
  rw [Hardcoded.ofMarkup, Hardcoded.ofMarkup, hstrip, hstrip']
  symm
  apply Hardcoded.flatMap_zipIdx_congr
  rw [List.forall₂_map_left_iff, List.forall₂_map_right_iff, List.forall₂_iff_zip]
  refine ⟨h.reworded.length_eq, fun {pieces pieces'} hpair n => ?_⟩
  show Hardcoded.ofMarkupLine n _ = Hardcoded.ofMarkupLine n _
  have hline := (List.forall₂_iff_zip.mp hoverlooks).2 hpair
  rcases hline.2.2 with rfl | ⟨hnone, hnone'⟩ | ⟨hread, hread'⟩
  · rfl
  · rw [Hardcoded.ofMarkupLine_of_holdsNoAddress hnone,
      Hardcoded.ofMarkupLine_of_holdsNoAddress hnone']
  -- with emptied comments the two wordings are one
  · rw [hread.ofMarkupLine_eq, hread'.ofMarkupLine_eq,
      Piece.emptiedLine_reworded ((List.forall₂_iff_zip.mp h.reworded).2 hpair)]

/-- What is found hardcoded does not depend on comments that are not read. -/
theorem Family.hardcoded_reworded (h : Rewords family.style lines lines' file file')
    (hoverlooks : List.Forall₂ family.Overlooks file file') :
    family.hardcoded lines' = family.hardcoded lines := by
  cases family with
  | html =>
    have hstrip : CommentRules.markup.strip lines' = CommentRules.markup.strip lines :=
      h.strip_eq (CommentRules.regular_style .html)
    show Hardcoded.ofMarkup lines' = Hardcoded.ofMarkup lines
    rw [Hardcoded.ofMarkup, hstrip, Hardcoded.ofMarkup]
  | css => exact Family.ofMarkup_overlooks h hoverlooks
  | python | javascript | php => exact Family.ofCode_overlooks h hoverlooks

end Files

/-! ## A script and a stylesheet -/

/-- A script with a block comment before code, and a line comment behind it. -/
def commentedScript (block tail : List Char) : List Line :=
  ["/*".toList ++ (block ++ ("*/".toList ++ ['1'])), "key='x'".toList ++ ("//".toList ++ tail)]

/-- The pieces of its second line before the comment. -/
def assignedKey : List Piece :=
  [.code 'k', .code 'e', .code 'y', .code '=', .literal ['\''] ['x']]

/-- The pieces of the script. -/
def commentedPieces (block tail : List Char) : List (List Piece) :=
  [[.comment "/*".toList block "*/".toList, .code '1'],
    assignedKey ++ [.lineComment ("//".toList ++ tail)]]

section Script

open CommentRules

theorem readsCode_of_ne_slash {c : Char} {text : List Char} {pieces : List Piece} (hne : c ≠ '/')
    (hquote : slash.isQuote c = false) (h : ReadsCode slash text pieces .code) :
    ReadsCode slash (c :: text) (.code c :: pieces) .code :=
  .code (not_opensComment_of_ne hne text) hquote h

theorem readsCode_assignedKey (tail : List Char) :
    ReadsCode slash ("key='x'".toList ++ ("//".toList ++ tail))
      (assignedKey ++ [.lineComment ("//".toList ++ tail)]) .code := by
  have htail : ReadsCode slash ("//".toList ++ tail) [.lineComment ("//".toList ++ tail)] .code := by
    apply ReadsCode.lineComment
    · rintro ⟨opener, closer, hrule, hstarts⟩
      cases hrule
      simp at hstarts
    · rfl
  have hliteral : ReadsCode slash (['\''] ++ (['x'] ++ (['\''] ++ ("//".toList ++ tail))))
      [.literal ['\''] ['x'], .lineComment ("//".toList ++ tail)] .code := by
    apply ReadsCode.literal (not_opensComment_of_ne (by decide) _) (.single rfl rfl) _ htail
    apply StaysOpen.char (by decide) (by simp)
    apply StaysOpen.nil
  iterate 4 apply readsCode_of_ne_slash (by decide) rfl
  exact hliteral

theorem readsFile_commentedScript {block : List Char}
    (hblock : BeginsNotIn "*/".toList block ("*/".toList ++ ['1'])) (tail : List Char) :
    ReadsFile Family.javascript.style (commentedScript block tail) (commentedPieces block tail) := by
  have hone : ReadsCode slash ['1'] [.code '1'] .code :=
    readsCode_of_ne_slash (by decide) rfl .stop
  apply ReadsLines.cons (.code (.comment rfl hblock hone)) .code
  apply ReadsLines.cons (.code (readsCode_assignedKey tail)) .code
  apply ReadsLines.nil

end Script

theorem Family.hardcoded_reworded_commentedScript :
    Rewords Family.javascript.style (commentedScript "b".toList "c".toList)
      (commentedScript "9.9.9.9".toList "9.9.9.9".toList) (commentedPieces "b".toList "c".toList)
      (commentedPieces "9.9.9.9".toList "9.9.9.9".toList) ∧
    List.Forall₂ Family.javascript.Overlooks (commentedPieces "b".toList "c".toList)
      (commentedPieces "9.9.9.9".toList "9.9.9.9".toList) ∧
    Family.javascript.hardcoded (commentedScript "9.9.9.9".toList "9.9.9.9".toList) =
      Family.javascript.hardcoded (commentedScript "b".toList "c".toList) ∧
    (Family.javascript.hardcoded (commentedScript "b".toList "c".toList)).map (·.value) =
      ["key='x'"] := by
  have hmarks : ∀ old ∈ ["b".toList, "c".toList],
      CommentRules.slash.BringsNoMark old "9.9.9.9".toList := by
    unfold CommentRules.BringsNoMark
    decide +kernel
  have hrewords : Rewords Family.javascript.style (commentedScript "b".toList "c".toList)
      (commentedScript "9.9.9.9".toList "9.9.9.9".toList) (commentedPieces "b".toList "c".toList)
      (commentedPieces "9.9.9.9".toList "9.9.9.9".toList) := by
    refine ⟨readsFile_commentedScript ?_ _, readsFile_commentedScript ?_ _, ?_⟩
    · unfold BeginsNotIn
      decide +kernel
    · unfold BeginsNotIn
      decide +kernel
    · have hkey : List.Forall₂ (Piece.Reworded CommentRules.slash) assignedKey assignedKey :=
        List.forall₂_same.mpr fun p _ => .same p
      have hblock : (Piece.comment "/*".toList "b".toList "*/".toList).Reworded _
          (.comment "/*".toList "9.9.9.9".toList "*/".toList) :=
        .comment (hmarks "b".toList (by simp))
      have htail : (Piece.lineComment ("//".toList ++ "c".toList)).Reworded _
          (.lineComment ("//".toList ++ "9.9.9.9".toList)) :=
        .lineComment (by decide) (hmarks "c".toList (by simp))
      exact .cons (.cons hblock (.cons (.same _) .nil))
        (.cons (List.rel_append hkey (.cons htail .nil)) .nil)
  have hoverlooks : List.Forall₂ Family.javascript.Overlooks
      (commentedPieces "b".toList "c".toList)
      (commentedPieces "9.9.9.9".toList "9.9.9.9".toList) := by
    have hblock : ∀ c ∈ ([] : List Char), Text.isSpace c = true := by simp
    have hfront : ∀ p ∈ assignedKey, (∃ c, p = .code c) ∨ ∃ q body, p = .literal [q] body := by
      simp [assignedKey]
    have hdashes : ¬ "---".toList <:+: "//c".toList := by decide +kernel
    refine .cons (.inr ?_) (.cons (.inr ?_) .nil)
    · exact Hardcoded.overlooks_of_block rfl hblock rfl rfl
    · exact Hardcoded.overlooks_of_readsCode (readsCode_assignedKey "c".toList) hfront
        fun h => absurd h hdashes
  refine ⟨hrewords, hoverlooks, Family.hardcoded_reworded hrewords hoverlooks, ?_⟩
  decide +kernel

/-- Comments of a stylesheet are read. -/
theorem Family.not_forall_hardcoded_reworded :
    ¬ ∀ (family : Family) (lines lines' : List Line) (file file' : List (List Piece)),
      Rewords family.style lines lines' file file' →
        family.hardcoded lines' = family.hardcoded lines := by
  intro h
  have hmarks : CommentRules.stylesheet.BringsNoMark " x ".toList " 10.0.0.1 ".toList := by
    unfold CommentRules.BringsNoMark
    decide +kernel
  have hreads : ∀ body : List Char, BeginsNotIn "*/".toList body ("*/".toList ++ []) →
      ReadsFile Family.css.style ["/*".toList ++ (body ++ ("*/".toList ++ []))]
        [[.comment "/*".toList body "*/".toList]] :=
    fun body hbody => .cons (.code (.comment rfl hbody .stop)) .code (.nil _)
  have hrewords : Rewords Family.css.style ["/* x */".toList] ["/* 10.0.0.1 */".toList]
      [[.comment "/*".toList " x ".toList "*/".toList]]
      [[.comment "/*".toList " 10.0.0.1 ".toList "*/".toList]] := by
    refine ⟨hreads " x ".toList ?_, hreads " 10.0.0.1 ".toList ?_,
      .cons (.cons (.comment hmarks) .nil) .nil⟩
    · unfold BeginsNotIn
      decide +kernel
    · unfold BeginsNotIn
      decide +kernel
  have hfound := h _ _ _ _ _ hrewords
  revert hfound
  decide +kernel

end SourceSurvey
