import SourceSurvey.Extract.JavaScript.Routine
import SourceSurvey.Proofs.Extract.ScriptHeader
import SourceSurvey.Proofs.Pattern.Search

/-!
# Branches on the rows of a header

The rows of a header that stand below its first line are counted with the body. Main statement: what
stands between the list and the brace of the body adds no branch to them, as long as it has no colon.
-/

namespace SourceSurvey

/-! ## Patterns that stop before a sign -/

namespace Cursor

/-- The place in a text that goes on. -/
def append (c : Cursor) (more : List Char) : Cursor := ⟨c.prev, c.rest ++ more⟩

/-- A cursor that moves within its text moves alike when more text follows. -/
theorem advance_append_of_le {n : Nat} {c : Cursor} (h : n ≤ c.rest.length) (more : List Char) :
    (c.append more).advance n = (c.advance n).append more := by
  induction n generalizing c with
  | zero => rfl
  | succ n ih =>
    obtain ⟨prev, rest⟩ := c
    cases rest with
    | nil => cases h
    | cons x xs => exact ih (c := ⟨some x, xs⟩) (Nat.le_of_succ_le_succ h)

end Cursor

namespace Pattern

variable {α β : Type} {stop : Char} {p q : Pattern α}

/-- In front of the sign the pattern reads what it reads where the text ends there. -/
def StopsBefore (stop : Char) (p : Pattern α) : Prop :=
  ∀ c rest, (p (c.append (stop :: rest))).toList =
    (p c).toList.map fun r => (r.1, r.2.append (stop :: rest))

theorem stopsBefore_pure (a : α) : (pure a : Pattern α).StopsBefore stop := fun _ _ => rfl

/-- Two patterns in a row stop before a sign if both do. -/
theorem StopsBefore.bind {f : α → Pattern β} (hp : p.StopsBefore stop)
    (hf : ∀ a, (f a).StopsBefore stop) : (p >>= f).StopsBefore stop := by
  intro c rest
  rw [toList_bind, toList_bind, hp, List.flatMap_map, List.map_flatMap]
  exact List.flatMap_congr fun r _ => hf r.1 r.2 rest

/-- A choice stops before a sign if both of its patterns do. -/
theorem StopsBefore.orElse (hp : p.StopsBefore stop) (hq : q.StopsBefore stop) :
    (p <|> q).StopsBefore stop := by
  intro c rest
  rw [toList_orElse, toList_orElse, hp, hq, List.map_append]

/-- A literal text without the sign stops before it. -/
theorem stopsBefore_lit {s : String} (h : stop ∉ s.toList) : (lit s).StopsBefore stop := by
  intro c rest
  have hsame : s.toList.isPrefixOf (c.append (stop :: rest)).rest = s.toList.isPrefixOf c.rest := by
    rw [Cursor.append, Bool.eq_iff_iff, List.isPrefixOf_iff_prefix, List.isPrefixOf_iff_prefix,
      Text.isPrefix_append_cons_iff h]
  unfold lit text
  rw [hsame]
  by_cases hstarts : s.toList.isPrefixOf c.rest = true
  · have hlength := (List.isPrefixOf_iff_prefix.mp hstarts).length_le
    rw [if_pos hstarts, if_pos hstarts, Cursor.advance_append_of_le hlength]
    rfl
  · rw [if_neg hstarts, if_neg hstarts]
    rfl

/-- So does a choice of words without the sign. -/
theorem stopsBefore_oneOf {words : List String} (h : ∀ w ∈ words, stop ∉ w.toList) :
    (oneOf words).StopsBefore stop := by
  induction words with
  | nil => exact fun _ _ => rfl
  | cons w words ih =>
    have hfirst := stopsBefore_lit (h w List.mem_cons_self)
    exact (hfirst.bind fun _ => stopsBefore_pure w).orElse
      (ih fun v hv => h v (List.mem_cons_of_mem w hv))

/-- The ways to take so many characters stay the same when more text follows. -/
theorem toList_longestFirst_append {least n : Nat} {c : Cursor} (h : n ≤ c.rest.length)
    (more : List Char) : (longestFirst least n (c.append more)).toList =
      (longestFirst least n c).toList.map fun r => (r.1, r.2.append more) := by
  induction n with
  | zero =>
    rw [longestFirst, longestFirst]
    split <;> rfl
  | succ n ih =>
    have htake : (c.append more).rest.take (n + 1) = c.rest.take (n + 1) :=
      List.take_append_of_le_length h
    rw [longestFirst, longestFirst]
    split
    · rfl
    · rw [Choices.toList, ih (Nat.le_of_succ_le h), htake, Cursor.advance_append_of_le h]
      rfl

/-- A run of a class without the sign stops before it. -/
theorem stopsBefore_run {kind : Char → Bool} (h : kind stop = false) (least : Nat) :
    (run kind least).StopsBefore stop := by
  intro c rest
  have hlongest := Text.takeWhile_append_cons_of_neg h c.rest rest
  unfold run
  dsimp only [Cursor.append]
  rw [hlongest]
  exact toList_longestFirst_append (List.takeWhile_sublist kind).length_le _

theorem stopsBefore_blanks1 (h : Text.isSpace stop = false) : blanks1.StopsBefore stop :=
  (stopsBefore_run h 1).bind fun _ => stopsBefore_pure ()

/-- A check stops before a sign behind which it looks at nothing. -/
theorem stopsBefore_checkAt {condition : Cursor → Bool}
    (h : ∀ c rest, condition (c.append (stop :: rest)) = condition c) :
    (checkAt condition).StopsBefore stop := by
  intro c rest
  unfold checkAt
  rw [h]
  split <;> rfl

/-- The end of a word is told without looking behind a sign that is in no word. -/
theorem stopsBefore_wordBoundary (h : Text.isWord stop = false) :
    wordBoundary.StopsBefore stop := by
  refine stopsBefore_checkAt fun c rest => congrArg (c.prev.any Text.isWord != ·) ?_
  show (c.rest ++ stop :: rest).head?.any Text.isWord = c.rest.head?.any Text.isWord
  cases c.rest with
  | nil => exact h
  | cons d ds => rfl

/-- Whether such a pattern matches does not depend on what stands from the sign on. -/
theorem StopsBefore.matches? (h : p.StopsBefore stop) (front rest : List Char) :
    p.matches? (front ++ stop :: rest) = p.matches? front := by
  have hways := h (.start front) rest
  have hfirst : (p (.start (front ++ stop :: rest))).first?.isSome =
      (p (.start front)).first?.isSome := by
    rw [Choices.first?_eq_head?, Choices.first?_eq_head?]
    show (p ((Cursor.start front).append (stop :: rest))).toList.head?.isSome = _
    rw [hways, List.head?_map, Option.isSome_map]
  rw [Pattern.matches?, Pattern.matches?, matchStart?, matchStart?, Option.isSome_map,
    Option.isSome_map, hfirst]

end Pattern

namespace Extract.JavaScript

open Pattern

/-- What starts a branch stops before a closing parenthesis. -/
theorem stopsBefore_branchStart : branchStart.StopsBefore ')' := by
  have hlit : ∀ {w : String}, ')' ∉ w.toList → (lit w).StopsBefore ')' := stopsBefore_lit
  have helse : (do lit "else"; blanks1; lit "if" : Pattern Unit).StopsBefore ')' :=
    (hlit (by decide)).bind fun _ => (stopsBefore_blanks1 (by decide)).bind fun _ =>
      hlit (by decide)
  have hwords : (oneOf ["else", "for", "while", "switch", "case", "catch"]).StopsBefore ')' :=
    stopsBefore_oneOf (by decide)
  unfold branchStart
  exact ((hlit (by decide)).orElse (helse.orElse (hwords.bind fun _ => stopsBefore_pure ()))).bind
    fun _ => stopsBefore_wordBoundary (by decide)

/-! ## Conditional expressions -/

/-- The text has a question mark between two characters of other kinds, and a colon behind them. -/
def HasConditional (text : List Char) : Prop :=
  ∃ before x y after, text = before ++ x :: '?' :: y :: after ∧ (x != '?' && x != '.') = true ∧
    (y != '?' && y != '.' && y != ':') = true ∧ ':' ∈ after

/-- The pattern for a conditional expression occurs in the texts that have one. -/
theorem occursIn_conditional_iff {text : List Char} :
    conditional.occursIn text = true ↔ HasConditional text := by
  constructor
  · intro hoccurs
    obtain ⟨f, hf⟩ := Option.isSome_iff_exists.mp hoccurs
    have hreads : conditional.Reads fun t _ => ∃ x y after, t = x :: '?' :: y :: after ∧
        (x != '?' && x != '.') = true ∧ (y != '?' && y != '.' && y != ':') = true ∧
          ':' ∈ after := by
      unfold conditional
      refine (reads_char _).bind fun t₁ x hx => (reads_lit "?").bind fun t₂ _ hmark =>
        (reads_char _).bind fun t₃ y hy => (reads_run _ 0).bind fun inner _ _ =>
        (reads_lit ":").imp fun t₄ _ hcolon => ?_
      rw [hx.1, hmark, hy.1, hcolon]
      exact ⟨x, y, inner ++ [':'], rfl, hx.2, hy.2, by simp⟩
    obtain ⟨hsplit, x, y, after, htext, hx, hy, hcolon⟩ := hreads.searchAt hf
    rw [htext, List.append_assoc] at hsplit
    exact ⟨f.before, x, y, after ++ f.after.rest, hsplit, hx, hy, List.mem_append_left _ hcolon⟩
  · rintro ⟨before, x, y, after, rfl, hx, hy, hcolon⟩
    obtain ⟨inner, rest, rfl, hinner⟩ := List.eq_append_cons_of_mem hcolon
    have hnocolon : ∀ c ∈ inner, (c != ':') = true := by
      intro c hc
      rw [bne_iff_ne]
      rintro rfl
      exact hinner hc
    have hreads : conditional.CanTake (x :: '?' :: y :: (inner ++ ':' :: rest)) () rest := by
      unfold conditional
      exact (takes_char hx _).canTake.bind ((takes_lit "?" _).canTake.bind
        ((takes_char hy _).canTake.bind ((canTake_run hnocolon (Nat.zero_le _) _).bind
          (takes_lit ":" rest).canTake)))
    obtain ⟨r, hr⟩ := hreads.exists_first? (before.getLast?.or none)
    rw [← Cursor.advance_append before _ none] at hr
    obtain ⟨f, hf⟩ := exists_searchAt hr
    exact Option.isSome_iff_exists.mpr ⟨f, hf⟩

/-- What follows adds no conditional expression unless it has a colon. -/
theorem occursIn_conditional_append {more : List Char} (h : ':' ∉ more) (text : List Char) :
    conditional.occursIn (text ++ more) = conditional.occursIn text := by
  rw [Bool.eq_iff_iff, occursIn_conditional_iff, occursIn_conditional_iff]
  constructor
  · rintro ⟨before, x, y, after, htext, hx, hy, hcolon⟩
    obtain ⟨inner, rest, rfl⟩ := List.append_of_mem hcolon
    have hsplit : text ++ more = (before ++ x :: '?' :: y :: inner) ++ ':' :: rest := by
      rw [htext]
      simp
    rcases List.append_eq_append_iff.mp hsplit with ⟨between, -, rfl⟩ | ⟨between, rfl, hrest⟩
    · exact absurd (by simp) h
    · cases between with
      | nil =>
        rw [List.nil_append] at hrest
        exact absurd (by simp [← hrest]) h
      | cons d between =>
        obtain ⟨rfl, -⟩ := List.cons.inj hrest
        exact ⟨before, x, y, inner ++ ':' :: between, by simp, hx, hy, by simp⟩
  · rintro ⟨before, x, y, after, rfl, hx, hy, hcolon⟩
    exact ⟨before, x, y, after ++ more, by simp, hx, hy, List.mem_append_left _ hcolon⟩

/-! ## Rows -/

attribute [local instance (high)] Zero.ofOfNat0

/-- The branches of a line. -/
def branchesOf (line : Line) : Nat :=
  (if branchStart.matches? (branchText line) then 1 else 0) +
    (if !(branchText line).isEmpty && conditional.occursIn (' ' :: branchText line) then 1 else 0)

theorem branchCount_eq (code : List Line) :
    branchCount branchStart conditional code = (code.map branchesOf).sum := rfl

/-- The text in which branches are counted ends as the line does. -/
theorem exists_branchText_append_endingText (row : List Char) : ∃ front, ∀ between,
    branchText (row ++ endingText between) = front ++ endingText between := by
  refine ⟨Text.trimStart ((Text.trimStart row).dropWhile (· == '\x7d')), fun between => ?_⟩
  have htight := tight_endingText between
  have hdrop : (Text.trimStart row ++ endingText between).dropWhile (· == '\x7d') =
      (Text.trimStart row).dropWhile (· == '\x7d') ++ endingText between :=
    Text.dropWhile_append_cons_of_neg (by decide) _ _
  rw [branchText, Text.trim_append_tight htight, hdrop, Text.trim_append_tight htight]

/-- Two rows that differ behind the list, where no colon stands, have the same branches. -/
theorem branchesOf_append_endingText {shared signs signs' : List Char} (h : ':' ∉ signs)
    (h' : ':' ∉ signs') (row : List Char) : branchesOf (row ++ endingText (shared ++ signs)) =
      branchesOf (row ++ endingText (shared ++ signs')) := by
  obtain ⟨front, hfront⟩ := exists_branchText_append_endingText row
  have hstart : ∀ between, branchStart.matches? (front ++ endingText between) =
      branchStart.matches? front := fun between =>
    stopsBefore_branchStart.matches? front _
  have hempty : ∀ between, (front ++ endingText between).isEmpty = false := fun between => by
    simp [endingText]
  have hconditional : ∀ {signs : List Char}, ':' ∉ signs →
      conditional.occursIn (' ' :: (front ++ endingText (shared ++ signs))) =
        conditional.occursIn (' ' :: (front ++ ')' :: shared)) := by
    intro signs hsigns
    have hmore : ':' ∉ signs ++ ['\x7b'] := by
      simpa using hsigns
    rw [← occursIn_conditional_append hmore (' ' :: (front ++ ')' :: shared))]
    simp [endingText]
  unfold branchesOf
  rw [hfront, hfront, hstart, hstart, hempty, hempty, hconditional h, hconditional h']

/-- Signs without a colon behind the list change no branch. -/
theorem map_branchesOf_spanRows {shared signs signs' : List Char} (h : ':' ∉ signs)
    (h' : ':' ∉ signs') (row : List Char) (rows : List (List Char)) :
    (spanRows (endingText (shared ++ signs)) row rows).map branchesOf =
      (spanRows (endingText (shared ++ signs')) row rows).map branchesOf := by
  induction rows generalizing row with
  | nil => exact congrArg ([·]) (branchesOf_append_endingText h h' row)
  | cons next rows ih => exact congrArg (branchesOf row :: ·) (ih next)

/-- Below the first row two headers that differ there and in front of the list have the same
branches, and so has any number of lines behind that row. -/
theorem branchCount_take_tail_spanRows {shared signs signs' : List Char} (h : ':' ∉ signs)
    (h' : ':' ∉ signs') (row row' : List Char) (rows : List (List Char)) (below : List Line)
    (count : Nat) :
    branchCount branchStart conditional
        ((spanRows (endingText (shared ++ signs)) row rows ++ below).tail.take count) =
      branchCount branchStart conditional
        ((spanRows (endingText (shared ++ signs')) row' rows ++ below).tail.take count) := by
  cases rows with
  | nil => rfl
  | cons next rows =>
    show branchCount branchStart conditional
        ((spanRows (endingText (shared ++ signs)) next rows ++ below).take count) =
      branchCount branchStart conditional
        ((spanRows (endingText (shared ++ signs')) next rows ++ below).take count)
    rw [branchCount_eq, branchCount_eq, List.map_take, List.map_take, List.map_append,
      List.map_append, map_branchesOf_spanRows h h']

end Extract.JavaScript

end SourceSurvey
