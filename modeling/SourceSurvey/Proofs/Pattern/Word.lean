import SourceSurvey.Proofs.Pattern.Search
import SourceSurvey.Proofs.Text.Field

/-!
# Words at boundaries

The words of a text are its longest runs of word characters. Main statements: a pattern of words that
ends at a boundary reads the front of a text exactly if the run there is one of these words, and a word
between two boundaries occurs in a text exactly if it is one of the words of the text.
-/

namespace SourceSurvey

namespace Text

/-! ## The words of a text -/

/-- A character that no word has. -/
def isBreak (c : Char) : Bool :=
  !isWord c

/-- The longest runs of word characters of a text, from left to right. -/
def words (text : List Char) : List (List Char) :=
  (splitWhere isBreak text).filter (!·.isEmpty)

/-- The words of a text are its pieces between breaks that are not empty. -/
theorem mem_words_iff {word text : List Char} :
    word ∈ words text ↔ word ≠ [] ∧ word ∈ splitWhere isBreak text := by
  have hne : (!word.isEmpty) = true ↔ word ≠ [] := by simp
  rw [words, List.mem_filter, hne, and_comm]

/-- Everything about the words of a text follows from this one equation. -/
theorem words_append_cons {c : Char} (h : isWord c = false) (front rest : List Char) :
    words (front ++ c :: rest) = words front ++ words rest := by
  have hbreak : isBreak c = true := by rw [isBreak, h]; rfl
  rw [words, splitWhere_append_cons hbreak, List.filter_append]
  rfl

theorem words_cons {c : Char} (h : isWord c = false) (rest : List Char) :
    words (c :: rest) = words rest :=
  words_append_cons h [] rest

/-- A text of word characters is one word. -/
theorem words_of_isWord {word : List Char} (hne : word ≠ [])
    (h : ∀ c ∈ word, isWord c = true) : words word = [word] := by
  have hnone : ∀ c ∈ word, isBreak c = false := fun c hc => by rw [isBreak, h c hc]; rfl
  have hkept : (!word.isEmpty) = true := by simp [hne]
  rw [words, splitWhere_of_forall hnone, List.filter_cons, if_pos hkept, List.filter_nil]

/-- A word at the front of a text is the first of its words. -/
theorem words_append {word rest : List Char} (hne : word ≠ []) (h : ∀ c ∈ word, isWord c = true)
    (hrest : rest.head?.any isWord = false) : words (word ++ rest) = word :: words rest := by
  cases rest with
  | nil =>
    rw [List.append_nil, words_of_isWord hne h]
    rfl
  | cons c cs =>
    have hc : isWord c = false := hrest
    rw [words_append_cons hc, words_of_isWord hne h, words_cons hc]
    rfl

/-- Blanks behind a text do not change its words. -/
theorem words_append_isSpace {blanks : List Char} (h : ∀ c ∈ blanks, isSpace c = true)
    (text : List Char) : words (text ++ blanks) = words text := by
  induction blanks generalizing text with
  | nil => rw [List.append_nil]
  | cons c cs ih =>
    have hnone : words cs = [] := ih (fun d hd => h d (List.mem_cons_of_mem c hd)) []
    rw [words_append_cons (isWord_eq_false_of_isSpace (h c List.mem_cons_self)), hnone,
      List.append_nil]

/-- Blanks in front of it do not change them either. -/
theorem words_isSpace_append {blanks : List Char} (h : ∀ c ∈ blanks, isSpace c = true)
    (text : List Char) : words (blanks ++ text) = words text := by
  induction blanks with
  | nil => rfl
  | cons c cs ih =>
    rw [List.cons_append, words_cons (isWord_eq_false_of_isSpace (h c List.mem_cons_self)),
      ih fun d hd => h d (List.mem_cons_of_mem c hd)]

/-- So a text has the words that it has when it is trimmed. -/
theorem words_trim (text : List Char) : words (trim text) = words text := by
  obtain ⟨before, after, htext, hbefore, hafter, -⟩ := exists_trim_append text
  conv_rhs => rw [htext, words_isSpace_append hbefore, words_append_isSpace hafter]

end Text

namespace Pattern

variable {α : Type}

/-! ## Readings of words -/

theorem isSome_first?_iff {xs : Choices α} : xs.first?.isSome = true ↔ ∃ r, r ∈ xs.toList := by
  rw [Choices.first?_eq_head?, List.isSome_head?]
  cases xs.toList <;> simp

/-- A fixed text is read exactly where the rest of a text begins with it. -/
theorem mem_lit {w : String} {c : Cursor} {r : Unit × Cursor} :
    r ∈ (lit w c).toList ↔
      ∃ more, c.rest = w.toList ++ more ∧ r = ((), ⟨w.toList.getLast?.or c.prev, more⟩) := by
  obtain ⟨prev, rest⟩ := c
  unfold lit text
  split
  · next hstarts =>
    obtain ⟨more, rfl⟩ := List.isPrefixOf_iff_prefix.mp hstarts
    rw [Choices.toList_one, List.mem_singleton, Cursor.advance_append]
    refine ⟨fun hr => ⟨more, rfl, hr⟩, ?_⟩
    rintro ⟨more', hmore, rfl⟩
    rw [List.append_cancel_left hmore]
  · next hstarts =>
    refine ⟨fun hr => absurd hr List.not_mem_nil, ?_⟩
    rintro ⟨more, hmore, -⟩
    exact absurd (List.isPrefixOf_iff_prefix.mpr ⟨more, hmore.symm⟩) hstarts

/-- One of some words is read as each of them that stands there. -/
theorem mem_oneOf {ws : List String} {c : Cursor} {r : String × Cursor} :
    r ∈ (oneOf ws c).toList ↔ ∃ w ∈ ws, ∃ more, c.rest = w.toList ++ more ∧
      r = (w, ⟨w.toList.getLast?.or c.prev, more⟩) := by
  induction ws with
  | nil =>
    refine ⟨fun hr => absurd hr List.not_mem_nil, ?_⟩
    rintro ⟨w, hw, -⟩
    exact absurd hw List.not_mem_nil
  | cons w ws ih =>
    have hfirst : r ∈ ((lit w >>= fun _ => pure w) c).toList ↔ ∃ more,
        c.rest = w.toList ++ more ∧ r = (w, ⟨w.toList.getLast?.or c.prev, more⟩) := by
      rw [toList_bind, List.mem_flatMap]
      constructor
      · rintro ⟨s, hs, hr⟩
        obtain ⟨more, hmore, rfl⟩ := mem_lit.mp hs
        exact ⟨more, hmore, List.mem_singleton.mp hr⟩
      · rintro ⟨more, hmore, rfl⟩
        exact ⟨_, mem_lit.mpr ⟨more, hmore, rfl⟩, List.mem_singleton.mpr rfl⟩
    show r ∈ (((lit w >>= fun _ => pure w) <|> oneOf ws) c).toList ↔ _
    rw [toList_orElse, List.mem_append, hfirst, ih, List.exists_mem_cons_iff]

/-- Behind a word stands a boundary where the word does not go on. -/
theorem mem_wordBoundary {w : List Char} (hne : w ≠ []) (hw : ∀ c ∈ w, Text.isWord c = true)
    {prev : Option Char} {more : List Char} {r : Unit × Cursor} :
    r ∈ (wordBoundary ⟨w.getLast?.or prev, more⟩).toList ↔
      more.head?.any Text.isWord = false ∧ r = ((), ⟨w.getLast?.or prev, more⟩) := by
  have hlast : (w.getLast?.or prev).any Text.isWord = true := by
    rw [List.getLast?_eq_some_getLast hne]
    exact hw _ (List.getLast_mem hne)
  have hends : ((w.getLast?.or prev).any Text.isWord != more.head?.any Text.isWord) = true ↔
      more.head?.any Text.isWord = false := by
    rw [hlast]
    cases more.head?.any Text.isWord <;> decide
  exact mem_checkAt.trans (and_congr_left' hends)

/-- Of several words in front of a boundary the one is read that is the run at the front. -/
theorem matches?_oneOf_wordBoundary {ws : List String}
    (hws : ∀ w ∈ ws, w.toList ≠ [] ∧ ∀ c ∈ w.toList, Text.isWord c = true) (text : List Char) :
    Pattern.matches? (do let _ ← oneOf ws; wordBoundary) text = true ↔
      ∃ w ∈ ws, w.toList = text.takeWhile Text.isWord := by
  unfold Pattern.matches? matchStart?
  rw [Option.isSome_map, isSome_first?_iff, toList_bind]
  constructor
  · rintro ⟨r, hr⟩
    obtain ⟨s, hs, hr⟩ := List.mem_flatMap.mp hr
    obtain ⟨w, hw, more, hmore, rfl⟩ := mem_oneOf.mp hs
    have hends := ((mem_wordBoundary (hws w hw).1 (hws w hw).2).mp hr).1
    exact ⟨w, hw, (Text.eq_takeWhile_iff (hws w hw).2).mpr ⟨more, hmore, hends⟩⟩
  · rintro ⟨w, hw, hrun⟩
    obtain ⟨more, hmore, hends⟩ := (Text.eq_takeWhile_iff (hws w hw).2).mp hrun
    exact ⟨_, List.mem_flatMap.mpr ⟨_, mem_oneOf.mpr ⟨w, hw, more, hmore, rfl⟩,
      (mem_wordBoundary (hws w hw).1 (hws w hw).2).mpr ⟨hends, rfl⟩⟩⟩

section Between

variable {w : String} (hne : w.toList ≠ []) (hw : ∀ c ∈ w.toList, Text.isWord c = true)
include hne hw

/-- A word is read between two boundaries where none goes on from before and it is the run there. -/
theorem isSome_between_iff (c : Cursor) :
    ((do wordBoundary; lit w; wordBoundary : Pattern Unit) c).first?.isSome = true ↔
      c.prev.any Text.isWord = false ∧ w.toList = c.rest.takeWhile Text.isWord := by
  have hbegins : ∀ more, c.rest = w.toList ++ more →
      ((c.prev.any Text.isWord != c.rest.head?.any Text.isWord) = true ↔
        c.prev.any Text.isWord = false) := by
    intro more hmore
    obtain ⟨d, ds, hcons⟩ := List.exists_cons_of_ne_nil hne
    have hd : c.rest.head?.any Text.isWord = true := by
      rw [hmore, hcons]
      exact hw d (hcons ▸ List.mem_cons_self)
    rw [hd]
    cases c.prev.any Text.isWord <;> decide
  rw [isSome_first?_iff, Text.eq_takeWhile_iff hw]
  constructor
  · rintro ⟨r, hr⟩
    obtain ⟨s, hs, hr⟩ := mem_bind hr
    obtain ⟨hbefore, rfl⟩ := mem_checkAt.mp hs
    obtain ⟨t, ht, hr⟩ := mem_bind hr
    obtain ⟨more, hmore, rfl⟩ := mem_lit.mp ht
    have hends := ((mem_wordBoundary hne hw).mp hr).1
    exact ⟨(hbegins more hmore).mp hbefore, more, hmore, hends⟩
  · rintro ⟨hbefore, more, hmore, hends⟩
    refine ⟨((), ⟨w.toList.getLast?.or c.prev, more⟩), ?_⟩
    rw [toList_bind, List.mem_flatMap]
    refine ⟨((), c), mem_checkAt.mpr ⟨(hbegins more hmore).mpr hbefore, rfl⟩, ?_⟩
    rw [toList_bind, List.mem_flatMap]
    exact ⟨_, mem_lit.mpr ⟨more, hmore, rfl⟩, (mem_wordBoundary hne hw).mpr ⟨hends, rfl⟩⟩

/-- A word between two boundaries occurs in a text if it is one of its words. -/
theorem occursIn_between_iff (text : List Char) :
    (do wordBoundary; lit w; wordBoundary : Pattern Unit).occursIn text = true ↔
      w.toList ∈ Text.words text := by
  -- at each place the word is the run there, where none goes on from the character before
  have hfrom : ∀ prev : Option Char,
      ((do wordBoundary; lit w; wordBoundary : Pattern Unit).searchAt prev text).isSome = true ↔
        w.toList ∈ Text.piecesFrom Text.isBreak (prev.any Text.isWord) text := by
    have hrun : ∀ text : List Char,
        (text.takeWhile fun c => !Text.isBreak c) = text.takeWhile Text.isWord := fun text => by
      simp only [Text.isBreak, Bool.not_not]
    induction text with
    | nil =>
      intro prev
      rw [searchAt, Option.isSome_map, isSome_between_iff hne hw]
      cases prev.any Text.isWord <;> simp [Text.piecesFrom, Text.splitWhere]
    | cons c cs ih =>
      intro prev
      have hhere := isSome_between_iff hne hw ⟨prev, c :: cs⟩
      have hrest := ih (some c)
      rw [Option.any_some] at hrest
      rw [Text.mem_piecesFrom_cons, hrun, Text.isBreak, Bool.not_not, ← hrest, ← hhere, searchAt]
      split
      · next hfirst => simp [hfirst]
      · next hfirst => simp [hfirst]
  rw [Text.mem_words_iff, and_iff_right hne, occursIn, search?, hfrom none]
  rfl

end Between

end Pattern

end SourceSurvey
