import SourceSurvey.Proofs.Pattern.Reading
import SourceSurvey.Proofs.Text.LineEnd
import Mathlib.Data.List.Basic
import Mathlib.Data.List.TakeWhile

/-!
# Patterns that only look forward

A pattern that asks for no character before it reads every text in a list of ways that depends on
the text alone. The list is computed from those of its parts: a sequence goes through all ways of
its first part, and a run of blanks offers every place up to its end, the last one first.
-/

namespace SourceSurvey.Pattern

variable {α β : Type}

/-- The ways to read a text, each with its value and the text that is left, whatever character
stands before. -/
def ReadsAs (p : Pattern α) (ways : List Char → List (α × List Char)) : Prop :=
  ∀ prev t, (p ⟨prev, t⟩).toList.map (fun r => (r.1, r.2.rest)) = ways t

/-! ## Sequencing and choice -/

section Combinators

variable {p q : Pattern α} {f : α → Pattern β} {ways ways' : List Char → List (α × List Char)}
  {next : α → List Char → List (β × List Char)}

theorem ReadsAs.congr (hp : p.ReadsAs ways) (h : ∀ t, ways t = ways' t) : p.ReadsAs ways' := by
  rwa [← funext h]

/-- Nothing is read in one way. -/
theorem readsAs_pure (a : α) : (pure a : Pattern α).ReadsAs fun t => [(a, t)] :=
  fun _ _ => rfl

/-- The ways of a sequence are those of its second part behind each way of the first. -/
theorem ReadsAs.bind (hp : p.ReadsAs ways) (hf : ∀ a, (f a).ReadsAs (next a)) :
    (p >>= f).ReadsAs fun t => (ways t).flatMap fun r => next r.1 r.2 := by
  intro prev t
  dsimp only
  rw [toList_bind, List.map_flatMap, ← hp prev t, List.flatMap_map]
  exact List.flatMap_congr fun r _ => hf r.1 r.2.prev r.2.rest

/-- The ways of an alternative are those of its patterns in their order. -/
theorem ReadsAs.orElse (hp : p.ReadsAs ways) (hq : q.ReadsAs ways') :
    (p <|> q).ReadsAs fun t => ways t ++ ways' t := by
  intro prev t
  rw [toList_orElse, List.map_append, hp prev t, hq prev t]

/-- What may be left out is left out last. -/
theorem ReadsAs.opt (hp : p.ReadsAs ways) :
    (opt p).ReadsAs fun t => (ways t).map (Prod.map some id) ++ [(none, t)] := by
  have hsome := hp.bind fun a => readsAs_pure (some a)
  refine (hsome.orElse (readsAs_pure none)).congr fun t => ?_
  rw [← List.map_eq_flatMap]
  rfl

end Combinators

/-! ## Fixed texts -/

/-- A fixed text is read in one way where it stands, and else in none. -/
theorem readsAs_text (s : List Char) :
    (text s).ReadsAs fun t => if s.isPrefixOf t then [((), t.drop s.length)] else [] := by
  intro prev t
  dsimp only [text]
  by_cases h : s.isPrefixOf t = true
  · rw [if_pos h, if_pos h, Choices.toList_one, List.map_singleton, Cursor.rest_advance]
  · rw [if_neg h, if_neg h, Choices.toList_none, List.map_nil]

theorem readsAs_lit (s : String) :
    (lit s).ReadsAs fun t => if s.toList.isPrefixOf t then [((), t.drop s.toList.length)] else [] :=
  readsAs_text s.toList

/-- No text that begins with a blank begins with a solid word. -/
theorem isPrefixOf_eq_false_of_space {word : List Char} (hword : Text.Solid word) {c : Char}
    (hc : Text.isSpace c = true) (cs : List Char) : word.isPrefixOf (c :: cs) = false := by
  obtain ⟨d, ds, rfl⟩ := List.exists_cons_of_ne_nil hword.1
  have hne : d ≠ c := by
    rintro rfl
    rw [hword.2 d List.mem_cons_self] at hc
    cases hc
  rw [List.isPrefixOf, beq_false_of_ne hne, Bool.false_and]

/-- The words that stand at the front of a text, each with the text behind it. -/
def wordsAt : List String → List Char → List (String × List Char)
  | [], _ => []
  | w :: ws, t =>
    if w.toList.isPrefixOf t then (w, t.drop w.toList.length) :: wordsAt ws t else wordsAt ws t

theorem wordsAt_append (ws ws' : List String) (t : List Char) :
    wordsAt (ws ++ ws') t = wordsAt ws t ++ wordsAt ws' t := by
  induction ws with
  | nil => rfl
  | cons w ws ih =>
    rw [List.cons_append, wordsAt, wordsAt, ih]
    split <;> rfl

/-- One of some words is read as the words say that stand there. -/
theorem readsAs_oneOf (words : List String) : (oneOf words).ReadsAs (wordsAt words) := by
  induction words with
  | nil => exact fun _ _ => rfl
  | cons w ws ih =>
    have hword := (readsAs_lit w).bind fun _ => readsAs_pure w
    refine (hword.orElse ih).congr fun t => ?_
    rw [wordsAt]
    by_cases h : w.toList.isPrefixOf t = true
    · rw [if_pos h, if_pos h]
      rfl
    · rw [if_neg h, if_neg h]
      rfl

/-- The pattern takes one of the words from the front. -/
def ReadsWords (p : Pattern Unit) (words : List String) : Prop :=
  p.ReadsAs fun t => (wordsAt words t).map fun r => ((), r.2)

theorem readsWords_lit (w : String) : (lit w).ReadsWords [w] := by
  refine (readsAs_lit w).congr fun t => ?_
  rw [wordsAt]
  split <;> rfl

/-- An alternative of words reads the words of both. -/
theorem ReadsWords.orElse {p q : Pattern Unit} {ws ws' : List String} (hp : p.ReadsWords ws)
    (hq : q.ReadsWords ws') : (p <|> q).ReadsWords (ws ++ ws') := by
  refine (ReadsAs.orElse hp hq).congr fun t => ?_
  rw [wordsAt_append, List.map_append]

/-- No word without blanks stands at a blank. -/
theorem wordsAt_space {words : List String} (hwords : ∀ w ∈ words, Text.Solid w.toList) {c : Char}
    (hc : Text.isSpace c = true) (cs : List Char) : wordsAt words (c :: cs) = [] := by
  induction words with
  | nil => rfl
  | cons w ws ih =>
    have hw := isPrefixOf_eq_false_of_space (hwords w List.mem_cons_self) hc cs
    rw [wordsAt, hw, if_neg Bool.false_ne_true]
    exact ih fun w' hw' => hwords w' (List.mem_cons_of_mem w hw')

/-! ## Blanks -/

/-- What is left behind the blanks at the front of a text: behind all of them, and then behind
one blank less each time. -/
def afterBlanks : List Char → List (List Char)
  | [] => [[]]
  | c :: cs => if Text.isSpace c then afterBlanks cs ++ [c :: cs] else [c :: cs]

/-- A run leaves the shortest rest first. -/
theorem map_rest_longestFirst (n : Nat) (c : Cursor) :
    (longestFirst 0 n c).toList.map (·.2.rest) = (List.range (n + 1)).reverse.map c.rest.drop := by
  induction n with
  | zero => rfl
  | succ n ih =>
    rw [List.range_succ, List.reverse_append, List.reverse_singleton, List.singleton_append,
      List.map_cons, ← ih, longestFirst, if_neg (Nat.not_lt_zero _), Choices.toList, List.map_cons,
      Cursor.rest_advance]

/-- Behind blanks stand the rests of a text without the first so many of them, the shortest first.
-/
theorem afterBlanks_eq_map_drop (t : List Char) :
    afterBlanks t = (List.range ((t.takeWhile Text.isSpace).length + 1)).reverse.map t.drop := by
  induction t with
  | nil => rfl
  | cons c cs ih =>
    cases hspace : Text.isSpace c with
    | false =>
      have hneg : ¬ Text.isSpace c = true := by rw [hspace]; exact Bool.false_ne_true
      rw [afterBlanks, hspace, List.takeWhile_cons_of_neg hneg]
      rfl
    | true =>
      rw [afterBlanks, if_pos hspace, List.takeWhile_cons_of_pos hspace, List.length_cons,
        List.range_succ_eq_map, List.reverse_cons, List.map_append, ← List.map_reverse,
        List.map_map, ih]
      rfl

/-- Blanks are read up to every place behind some of them. -/
theorem readsAs_blanks : blanks.ReadsAs fun t => (afterBlanks t).map fun r => ((), r) := by
  intro prev t
  have hrun : ((run Text.isSpace 0) ⟨prev, t⟩).toList.map (·.2.rest) = afterBlanks t := by
    rw [afterBlanks_eq_map_drop]
    exact map_rest_longestFirst _ _
  dsimp only [blanks]
  rw [toList_bind, ← hrun, List.map_flatMap, List.map_map, List.map_eq_flatMap]
  rfl

/-- What finds nothing at a blank looks behind all blanks. -/
theorem findSome?_afterBlanks {find? : List Char → Option β}
    (h : ∀ c cs, Text.isSpace c = true → find? (c :: cs) = none) (t : List Char) :
    (afterBlanks t).findSome? find? = find? (Text.trimStart t) := by
  have hone : ∀ t, [t].findSome? find? = find? t := fun t => by
    rw [List.findSome?_cons]
    cases find? t <;> rfl
  induction t with
  | nil => exact hone []
  | cons c cs ih =>
    rw [afterBlanks, Text.trimStart, List.dropWhile_cons]
    split
    · next hspace =>
      rw [List.findSome?_append, ih, hone, h c cs hspace, Option.or_none]
      rfl
    · exact hone _

/-- The first of these places is behind all blanks. -/
theorem head?_afterBlanks (t : List Char) : (afterBlanks t).head? = some (Text.trimStart t) := by
  induction t with
  | nil => rfl
  | cons c cs ih =>
    rw [afterBlanks, Text.trimStart, List.dropWhile_cons]
    split
    · rw [List.head?_append, ih]
      rfl
    · rfl

/-! ## Any text, the shortest first -/

/-- The ways to cut a text in two, the shortest front first. -/
def cuts : List Char → List (List Char × List Char)
  | [] => [([], [])]
  | c :: cs => ([], c :: cs) :: (cuts cs).map (Prod.map (c :: ·) id)

/-- A lazy run takes the shortest text first. -/
theorem map_shortestFirst (least n : Nat) (c : Cursor) :
    (shortestFirst least n c).toList.map (fun r => (r.1, r.2.rest)) =
      (List.range' least (n + 1)).map fun k => (c.rest.take k, c.rest.drop k) := by
  induction n generalizing least with
  | zero =>
    show [(c.rest.take least, (c.advance least).rest)] = _
    rw [Cursor.rest_advance]
    rfl
  | succ n ih =>
    rw [shortestFirst, Choices.toList, List.map_cons, ih, Cursor.rest_advance]
    rfl

/-- The cuts of a text are its fronts with what stands behind them, from the shortest on. -/
theorem cuts_eq_map_take_drop (t : List Char) :
    cuts t = (List.range' 0 (t.length + 1)).map fun k => (t.take k, t.drop k) := by
  induction t with
  | nil => rfl
  | cons c cs ih =>
    have hshift : List.range' 1 (cs.length + 1) = (List.range' 0 (cs.length + 1)).map (· + 1) :=
      List.range'_succ_left
    show _ = _ :: (List.range' 1 (cs.length + 1)).map _
    rw [cuts, ih, hshift, List.map_map, List.map_map]
    rfl

/-- A lazy run of any characters is read up to each place of the text. -/
theorem readsAs_runLazy : (runLazy (fun _ => true) 0).ReadsAs cuts := by
  intro prev t
  have hall : t.takeWhile (fun _ => true) = t :=
    List.takeWhile_eq_self_iff.mpr fun _ _ => rfl
  dsimp only [runLazy]
  rw [hall, if_neg (Nat.not_lt_zero _), map_shortestFirst, cuts_eq_map_take_drop]
  rfl

/-- The first cut before a text that passes a test, one character further on. -/
theorem findSome?_cuts_cons (test : List Char → Bool) (c : Char) (cs : List Char) :
    ((cuts (c :: cs)).findSome? fun r => if test r.2 then some r.1 else none) =
      if test (c :: cs) then some []
      else ((cuts cs).findSome? fun r => if test r.2 then some r.1 else none).map (c :: ·) := by
  have hlater : ∀ r : List Char × List Char,
      (if test r.2 then some (c :: r.1) else none) =
        (if test r.2 then some r.1 else none).map (c :: ·) := fun r => by
    rw [apply_ite (Option.map _)]
    rfl
  rw [cuts, List.findSome?_cons, List.findSome?_map, List.map_findSome?]
  split
  · next h =>
    split at h
    · next htest => rw [if_pos htest, ← h]
    · cases h
  · next h =>
    split at h
    · cases h
    · next htest =>
      rw [if_neg htest]
      exact congrArg (List.findSome? · (cuts cs)) (funext hlater)

/-! ## What is found first -/

/-- The value of the preferred way to read a text, whatever character stands before. -/
def Finds (p : Pattern α) (value? : List Char → Option α) : Prop :=
  ∀ prev t, ((p ⟨prev, t⟩).first?).map (·.1) = value? t

section Finds

variable {p : Pattern α} {q : Pattern β} {f : α → Pattern β}
  {ways : List Char → List (α × List Char)} {next? : α → List Char → Option β}
  {value? : List Char → Option β}

theorem Finds.congr {other? : List Char → Option β} (hq : q.Finds value?)
    (h : ∀ t, value? t = other? t) : q.Finds other? := by
  rwa [← funext h]

theorem finds_pure (b : β) : (pure b : Pattern β).Finds fun _ => some b :=
  fun _ _ => rfl

/-- The ways of the first part are gone through until the others lead on. -/
theorem ReadsAs.bind_finds (hp : p.ReadsAs ways) (hf : ∀ a, (f a).Finds (next? a)) :
    (p >>= f).Finds fun t => (ways t).findSome? fun r => next? r.1 r.2 := by
  intro prev t
  dsimp only
  rw [Choices.first?_eq_head?, toList_bind, List.head?_flatMap, List.map_findSome?, ← hp prev t,
    List.findSome?_map]
  congr 1
  funext r
  rw [Function.comp_apply, ← Choices.first?_eq_head?]
  exact hf r.1 r.2.prev r.2.rest

/-- Behind a fixed text is found what stands there. -/
theorem Finds.lit_bind (hq : q.Finds value?) (s : String) :
    (lit s >>= fun _ => q).Finds fun t =>
      if s.toList.isPrefixOf t then value? (t.drop s.toList.length) else none := by
  refine ((readsAs_lit s).bind_finds fun _ => hq).congr fun t => ?_
  split
  · rw [List.findSome?_cons]
    cases value? (t.drop s.toList.length) <;> rfl
  · rfl

/-- Behind a word is found what the first of the words leads to that leads on. -/
theorem ReadsWords.bind_finds {mark : Pattern Unit} {words : List String}
    (hmark : mark.ReadsWords words) (hq : q.Finds value?) :
    (mark >>= fun _ => q).Finds fun t => (wordsAt words t).findSome? fun r => value? r.2 := by
  refine (ReadsAs.bind_finds hmark fun _ => hq).congr fun t => ?_
  rw [List.findSome?_map]
  rfl

/-- Behind blanks is found what stands behind the most blanks with something there. -/
theorem Finds.blanks_bind (hq : q.Finds value?) :
    (blanks >>= fun _ => q).Finds fun t => (afterBlanks t).findSome? value? := by
  refine (readsAs_blanks.bind_finds fun _ => hq).congr fun t => ?_
  rw [List.findSome?_map]
  rfl

/-! ## Using a pattern -/

/-- Without what is read at its start a text is what the first way leaves. -/
theorem ReadsAs.dropStart (hp : p.ReadsAs ways) (t : List Char) :
    p.dropStart t = (((ways t).head?).map (·.2)).getD t := by
  have hfirst := congrArg List.head? (hp none t)
  rw [List.head?_map, ← Choices.first?_eq_head?] at hfirst
  rw [← hfirst, Option.map_map, Pattern.dropStart, Cursor.start]
  cases (p ⟨none, t⟩).first? <;> rfl

theorem Finds.searchAt_nil (hq : q.Finds value?) (prev : Option Char) :
    (q.searchAt prev []).map (·.value) = value? [] := by
  rw [← hq prev [], searchAt, Option.map_map]
  rfl

/-- A search yields what is found at its first place, or else further on. -/
theorem Finds.searchAt_cons (hq : q.Finds value?) (prev : Option Char) (x : Char)
    (xs : List Char) : (q.searchAt prev (x :: xs)).map (·.value) =
      (value? (x :: xs)).or ((q.searchAt (some x) xs).map (·.value)) := by
  rw [← hq prev (x :: xs), searchAt]
  cases (q ⟨prev, x :: xs⟩).first? with
  | none =>
    dsimp only
    rw [Option.map_map]
    rfl
  | some r => rfl

end Finds

end SourceSurvey.Pattern
