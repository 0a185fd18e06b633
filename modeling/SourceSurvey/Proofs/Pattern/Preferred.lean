import SourceSurvey.Proofs.Pattern.Forward

/-!
# The preferred reading of a text

What a pattern reads first in a text whose pieces are known, whatever character stands before:
`Takes` names the value and the text that is left, and `Refuses` says that there is no reading. Where
every part of a pattern leads on by its preferred reading no other one is looked at, so that a
sequence takes the pieces of a text one after the other.
-/

namespace SourceSurvey.Pattern

variable {α β : Type}

/-- The preferred way to read a text has this value and leaves this text. -/
def Takes (p : Pattern α) (t : List Char) (a : α) (rest : List Char) : Prop :=
  ∀ prev, ∃ last, (p ⟨prev, t⟩).first? = some (a, ⟨last, rest⟩)

/-- There is no way to read the text. -/
def Refuses (p : Pattern α) (t : List Char) : Prop :=
  ∀ prev, (p ⟨prev, t⟩).toList = []

/-! ## Sequencing and choice -/

section Combinators

variable {p q : Pattern α} {f : α → Pattern β} {t rest rest' : List Char} {a : α} {b : β}

/-- Where a pattern is refused there is no preferred way. -/
theorem Refuses.first? (h : p.Refuses t) (prev : Option Char) : (p ⟨prev, t⟩).first? = none := by
  rw [Choices.first?_eq_head?, h prev]
  rfl

theorem takes_pure (a : α) (t : List Char) : (pure a : Pattern α).Takes t a t :=
  fun prev => ⟨prev, rfl⟩

/-- Where the preferred reading of the first part leads on, it is that of the whole. -/
theorem Takes.first?_bind (hp : p.Takes t a rest) (f : α → Pattern β) (prev : Option Char) :
    ∃ last, ∀ r, (f a ⟨last, rest⟩).first? = some r → ((p >>= f) ⟨prev, t⟩).first? = some r := by
  obtain ⟨last, hfirst⟩ := hp prev
  refine ⟨last, fun r hnext => ?_⟩
  rw [Choices.first?_eq_head?] at hfirst hnext
  rw [Choices.first?_eq_head?, toList_bind]
  cases hways : (p ⟨prev, t⟩).toList with
  | nil => simp [hways] at hfirst
  | cons first others =>
    rw [hways, List.head?_cons] at hfirst
    cases hfirst
    rw [List.flatMap_cons, List.head?_append, hnext]
    rfl

/-- A sequence takes what its parts take one after the other. -/
theorem Takes.bind (hp : p.Takes t a rest) (hf : (f a).Takes rest b rest') :
    (p >>= f).Takes t b rest' := by
  intro prev
  obtain ⟨last, hleads⟩ := hp.first?_bind f prev
  obtain ⟨last', hnext⟩ := hf last
  exact ⟨last', hleads _ hnext⟩

/-- A sequence is refused where its first part is. -/
theorem Refuses.bind (hp : p.Refuses t) (f : α → Pattern β) : (p >>= f).Refuses t := by
  intro prev
  rw [toList_bind, hp prev]
  rfl

/-- A sequence has no reading if its second part has none behind any reading of its first. -/
theorem Reads.refuses_bind {R : List Char → α → Prop} (hp : p.Reads R)
    (h : ∀ front back a, t = front ++ back → R front a → (f a).Refuses back) :
    (p >>= f).Refuses t := by
  intro prev
  rw [toList_bind, List.flatMap_eq_nil_iff]
  intro r hr
  obtain ⟨front, hfront, hread⟩ := hp _ r hr
  exact h front r.2.rest r.1 hfront hread r.2.prev

/-- A text has no reading if none of its fronts is what the pattern takes. -/
theorem Reads.refuses {R : List Char → α → Prop} (hp : p.Reads R)
    (h : ∀ front back a, t = front ++ back → ¬ R front a) : p.Refuses t := by
  intro prev
  rw [List.eq_nil_iff_forall_not_mem]
  intro r hr
  obtain ⟨front, hfront, hread⟩ := hp _ r hr
  exact h front r.2.rest r.1 hfront hread

/-- An alternative takes what its first pattern takes. -/
theorem Takes.orElse (hp : p.Takes t a rest) (q : Pattern α) : (p <|> q).Takes t a rest := by
  intro prev
  obtain ⟨last, hfirst⟩ := hp prev
  rw [Choices.first?_eq_head?] at hfirst
  refine ⟨last, ?_⟩
  rw [Choices.first?_eq_head?, toList_orElse, List.head?_append, hfirst]
  rfl

/-- Where its first pattern is refused an alternative takes what the second takes. -/
theorem Refuses.takes_orElse (hp : p.Refuses t) (hq : q.Takes t a rest) :
    (p <|> q).Takes t a rest := by
  intro prev
  obtain ⟨last, hfirst⟩ := hq prev
  rw [Choices.first?_eq_head?] at hfirst
  refine ⟨last, ?_⟩
  rw [Choices.first?_eq_head?, toList_orElse, hp prev, List.nil_append, hfirst]

/-- What may be left out is taken where it stands. -/
theorem Takes.opt (hp : p.Takes t a rest) : (opt p).Takes t (some a) rest :=
  (hp.bind (takes_pure (some a) rest)).orElse _

/-- It is left out where it is refused. -/
theorem Refuses.opt (hp : p.Refuses t) : (Pattern.opt p).Takes t none t :=
  (hp.bind fun a => pure (some a)).takes_orElse (takes_pure none t)

/-- The text of a pattern is what the pattern takes. -/
theorem Takes.textOf {word : List Char} (hp : p.Takes (word ++ rest) a rest) :
    (textOf p).Takes (word ++ rest) word rest := by
  have hwith : (withText p).Takes (word ++ rest) (word, a) rest := by
    intro prev
    obtain ⟨last, hfirst⟩ := hp prev
    rw [Choices.first?_eq_head?] at hfirst
    refine ⟨last, ?_⟩
    have hword : (⟨prev, word ++ rest⟩ : Cursor).upTo ⟨last, rest⟩ = word :=
      Cursor.upTo_of_append rfl
    rw [withText, Choices.first?_eq_head?, Choices.toList_map, List.head?_map, hfirst,
      Option.map_some]
    show some ((_, a), _) = _
    rw [hword]
  exact hwith.bind (takes_pure word rest)

theorem Refuses.textOf (hp : p.Refuses t) : (textOf p).Refuses t := by
  have hwith : (withText p).Refuses t := by
    intro prev
    rw [withText, Choices.toList_map, hp prev]
    rfl
  exact hwith.bind _

end Combinators

/-! ## Characters, words and runs -/

section Pieces

variable {p : Char → Bool} {word rest t : List Char}

/-- As many characters on as a word has, the rest is what stands behind the word. -/
theorem exists_advance_append (word rest : List Char) (prev : Option Char) :
    ∃ last, (⟨prev, word ++ rest⟩ : Cursor).advance word.length = ⟨last, rest⟩ :=
  ⟨_, Cursor.advance_append word rest prev⟩

/-- One character of a class is taken. -/
theorem takes_char {c : Char} (h : p c = true) (rest : List Char) :
    (char p).Takes (c :: rest) c rest := by
  intro prev
  refine ⟨some c, ?_⟩
  show (if p c then Choices.one (c, (⟨some c, rest⟩ : Cursor)) else .none).first? = _
  rw [if_pos h]
  rfl

/-- It is refused where none stands. -/
theorem refuses_char (h : t.head?.any p = false) : (char p).Refuses t := by
  intro prev
  cases t with
  | nil => rfl
  | cons c cs =>
    have hc : p c = false := h
    show (if p c then Choices.one (c, (⟨some c, cs⟩ : Cursor)) else .none).toList = []
    rw [hc, if_neg Bool.false_ne_true]
    rfl

/-- A fixed text is taken where it stands. -/
theorem takes_text (word rest : List Char) : (text word).Takes (word ++ rest) () rest := by
  intro prev
  obtain ⟨last, hlast⟩ := exists_advance_append word rest prev
  refine ⟨last, ?_⟩
  rw [text, if_pos (List.isPrefixOf_iff_prefix.mpr (List.prefix_append word rest)), hlast]
  rfl

theorem takes_lit (s : String) (rest : List Char) : (lit s).Takes (s.toList ++ rest) () rest :=
  takes_text s.toList rest

/-- It is refused where another text stands. -/
theorem refuses_lit {s : String} (h : ¬ s.toList <+: t) : (lit s).Refuses t := by
  intro prev
  rw [lit, text, if_neg (by rwa [List.isPrefixOf_iff_prefix])]
  rfl

/-- The longest run is preferred. -/
theorem takes_run {least : Nat} (hword : ∀ c ∈ word, p c = true) (hleast : least ≤ word.length)
    (hrest : rest.head?.any p = false) : (run p least).Takes (word ++ rest) word rest := by
  intro prev
  have hlongest : (word ++ rest).takeWhile p = word := by
    rw [List.takeWhile_append_of_pos hword]
    cases rest with
    | nil => exact List.append_nil word
    | cons c cs => rw [List.takeWhile_cons_of_neg (by simpa using hrest), List.append_nil]
  obtain ⟨last, hlast⟩ := exists_advance_append word rest prev
  refine ⟨last, ?_⟩
  rw [run, hlongest]
  cases hlength : word.length with
  | zero =>
    rw [hlength] at hleast
    have hnil : word = [] := List.eq_nil_of_length_eq_zero hlength
    subst hnil
    rw [longestFirst, if_pos (Nat.le_zero.mp hleast), ← hlast]
    rfl
  | succ n =>
    rw [longestFirst, if_neg (by omega), ← hlength, hlast, List.take_left]
    rfl

/-- A run gives its last character back to the rest of a pattern that cannot be read without it. -/
theorem takes_run_concat_bind {c : Char} {f : List Char → Pattern β} {b : β} {rest' : List Char}
    (hword : ∀ d ∈ word ++ [c], p d = true) (hlong : (f (word ++ [c])).Refuses [])
    (htakes : (f word).Takes [c] b rest') :
    (run p 0 >>= f).Takes (word ++ [c]) b rest' := by
  intro prev
  obtain ⟨last, hlast⟩ := exists_advance_append word [c] prev
  obtain ⟨lastAll, hlastAll⟩ := exists_advance_append (word ++ [c]) [] prev
  obtain ⟨last', hfirst⟩ := htakes last
  rw [List.append_nil, List.length_append, List.length_singleton] at hlastAll
  rw [Choices.first?_eq_head?] at hfirst
  have hlongest : (word ++ [c]).takeWhile p = word ++ [c] := List.takeWhile_eq_self_iff.mpr hword
  have htake : (word ++ [c]).take (word.length + 1) = word ++ [c] :=
    List.take_of_length_le (by simp)
  -- the two longest runs are tried first: the whole text fails and the word alone succeeds
  have hshorter : ∃ others, (longestFirst 0 word.length ⟨prev, word ++ [c]⟩).toList =
      (word, ⟨last, [c]⟩) :: others := by
    cases hlength : word.length with
    | zero =>
      obtain rfl := List.eq_nil_of_length_eq_zero hlength
      obtain rfl : prev = last := (Cursor.mk.inj hlast).1
      exact ⟨[], rfl⟩
    | succ n =>
      rw [longestFirst, if_neg (by omega), ← hlength, hlast, List.take_left]
      exact ⟨_, rfl⟩
  obtain ⟨others, hothers⟩ := hshorter
  have hall : (run p 0 ⟨prev, word ++ [c]⟩).toList =
      (word ++ [c], ⟨lastAll, []⟩) :: (word, ⟨last, [c]⟩) :: others := by
    rw [run, hlongest, List.length_append, List.length_singleton, longestFirst,
      if_neg (by omega), htake, hlastAll, Choices.toList, hothers]
  refine ⟨last', ?_⟩
  rw [Choices.first?_eq_head?, toList_bind, hall, List.flatMap_cons, List.flatMap_cons]
  dsimp only
  rw [hlong lastAll, List.nil_append, List.head?_append, hfirst]
  rfl

/-- A run of at least one character needs one at the front. -/
theorem refuses_run1 (h : t.head?.any p = false) : (run1 p).Refuses t := by
  intro prev
  have hnone : t.takeWhile p = [] := by
    cases t with
    | nil => rfl
    | cons c cs => exact List.takeWhile_cons_of_neg (by simpa using h)
  show (longestFirst 1 (t.takeWhile p).length ⟨prev, t⟩).toList = []
  rw [hnone]
  rfl

/-- All blanks are taken up to the first other character. -/
theorem takes_blanks (hword : ∀ c ∈ word, Text.isSpace c = true)
    (hrest : rest.head?.any Text.isSpace = false) : blanks.Takes (word ++ rest) () rest :=
  (takes_run hword (Nat.zero_le _) hrest).bind (takes_pure () rest)

theorem takes_blanks1 (hne : word ≠ []) (hword : ∀ c ∈ word, Text.isSpace c = true)
    (hrest : rest.head?.any Text.isSpace = false) : blanks1.Takes (word ++ rest) () rest :=
  (takes_run hword (List.length_pos_iff.mpr hne) hrest).bind (takes_pure () rest)

/-- Blanks that have to be there are refused where there are none. -/
theorem refuses_blanks1 (h : t.head?.any Text.isSpace = false) : blanks1.Refuses t :=
  (refuses_run1 h).bind _

/-- What must not follow is looked for and nothing is taken. -/
theorem takes_notBefore (h : rest.head?.any p = false) : (notBefore p).Takes rest () rest := by
  intro prev
  refine ⟨prev, ?_⟩
  rw [notBefore, checkAt, if_pos (by simp [h])]
  rfl

theorem takes_atEnd : atEnd.Takes [] () [] :=
  fun prev => ⟨prev, rfl⟩

/-- The end is refused where more than one line feed follows. -/
theorem refuses_atEnd (hne : t ≠ []) (hfeed : t ≠ ['\n']) : atEnd.Refuses t := by
  intro prev
  have hnot : ¬ (t.isEmpty || t == ['\n']) = true := by
    simp [hne, hfeed]
  show (if t.isEmpty || t == ['\n'] then Choices.one ((), (⟨prev, t⟩ : Cursor))
    else .none).toList = []
  rw [if_neg hnot]
  rfl

/-- The shortest run behind which the rest of a pattern can be read is taken. -/
theorem takes_runLazy_bind {least : Nat} {f : List Char → Pattern β} {b : β} {rest' : List Char}
    (hword : ∀ c ∈ word, p c = true) (hleast : least ≤ word.length)
    (hshort : ∀ n, least ≤ n → n < word.length → (f (word.take n)).Refuses (word.drop n ++ rest))
    (htakes : (f word).Takes rest b rest') :
    (runLazy p least >>= f).Takes (word ++ rest) b rest' := by
  intro prev
  obtain ⟨last, hlast⟩ := exists_advance_append word rest prev
  obtain ⟨last', hfirst⟩ := htakes last
  rw [Choices.first?_eq_head?] at hfirst
  -- from each shorter run on, all runs up to the word lead nowhere
  have hrun : ∀ shorter more n, n + shorter = word.length → least ≤ n →
      ((shortestFirst n (shorter + more) ⟨prev, word ++ rest⟩).toList.flatMap fun r =>
        (f r.1 r.2).toList).head? = some (b, ⟨last', rest'⟩) := by
    intro shorter more
    induction shorter with
    | zero =>
      rintro n rfl -
      have hread : ∃ others, (shortestFirst word.length (0 + more) ⟨prev, word ++ rest⟩).toList =
          (word, ⟨last, rest⟩) :: others := by
        rw [Nat.zero_add]
        cases more <;> exact ⟨_, by rw [shortestFirst, List.take_left, hlast]; rfl⟩
      obtain ⟨others, hothers⟩ := hread
      rw [hothers, List.flatMap_cons, List.head?_append, hfirst]
      rfl
    | succ shorter ih =>
      intro n hn hle
      have hlt : n < word.length := by omega
      have hcut : (f ((word ++ rest).take n) ((⟨prev, word ++ rest⟩ : Cursor).advance n)).toList =
          [] := by
        have hrest : ((⟨prev, word ++ rest⟩ : Cursor).advance n).rest = word.drop n ++ rest := by
          rw [Cursor.rest_advance, List.drop_append_of_le_length (by omega)]
        have hrefuses := hshort n hle hlt ((⟨prev, word ++ rest⟩ : Cursor).advance n).prev
        rw [← hrest] at hrefuses
        rw [List.take_append_of_le_length (by omega)]
        exact hrefuses
      rw [Nat.add_right_comm, shortestFirst, Choices.toList, List.flatMap_cons]
      dsimp only
      rw [hcut, List.nil_append]
      exact ih (n + 1) (by omega) (by omega)
  have hlongest : word.length ≤ ((word ++ rest).takeWhile p).length := by
    rw [List.takeWhile_append_of_pos hword, List.length_append]
    omega
  obtain ⟨more, hmore⟩ : ∃ more, ((word ++ rest).takeWhile p).length - least =
      (word.length - least) + more :=
    ⟨((word ++ rest).takeWhile p).length - word.length, by omega⟩
  refine ⟨last', ?_⟩
  rw [Choices.first?_eq_head?, toList_bind]
  unfold runLazy
  dsimp only
  rw [if_neg (by omega), hmore]
  exact hrun (word.length - least) more least (by omega) (Nat.le_refl least)

end Pieces

/-! ## Using a pattern -/

section Using

variable {p q : Pattern α} {t rest : List Char} {a : α}

/-- What a pattern takes at the start of a text is what it yields there. -/
theorem Takes.matchStart? (h : p.Takes t a rest) : p.matchStart? t = some a := by
  obtain ⟨last, hfirst⟩ := h none
  rw [Pattern.matchStart?, Cursor.start, hfirst]
  rfl

/-- Where it is refused it yields nothing. -/
theorem Refuses.matchStart? (h : p.Refuses t) : p.matchStart? t = none := by
  rw [Pattern.matchStart?, Cursor.start, h.first?]
  rfl

/-- Without what a pattern takes the text is what stands behind. -/
theorem Takes.dropStart (h : p.Takes t a rest) : p.dropStart t = rest := by
  obtain ⟨last, hfirst⟩ := h none
  rw [Pattern.dropStart, Cursor.start, hfirst]

/-- A text at whose start the pattern is refused is kept. -/
theorem Refuses.dropStart (h : p.Refuses t) : p.dropStart t = t := by
  rw [Pattern.dropStart, Cursor.start, h.first?]

/-- A search from where the pattern is taken finds it there. -/
theorem Takes.searchAt (h : p.Takes t a rest) (prev : Option Char) :
    ∃ word last, p.searchAt prev t = some ⟨[], word, a, ⟨last, rest⟩⟩ := by
  obtain ⟨last, hfirst⟩ := h prev
  cases t with
  | nil => exact ⟨[], last, by rw [Pattern.searchAt, hfirst]; rfl⟩
  | cons c cs => exact ⟨_, last, by rw [Pattern.searchAt, hfirst]⟩

theorem Refuses.searchAt_nil (h : p.Refuses []) (prev : Option Char) :
    p.searchAt prev [] = none := by
  rw [Pattern.searchAt, h.first?]
  rfl

/-- A search passes over characters that the pattern does not begin with. -/
theorem searchAt_append_of_refuses {word : List Char} (h : ∀ c ∈ word, ∀ cs, p.Refuses (c :: cs))
    (prev : Option Char) (t : List Char) :
    ∃ last, p.searchAt prev (word ++ t) =
      (p.searchAt last t).map fun f => { f with before := word ++ f.before } := by
  induction word generalizing prev with
  | nil => exact ⟨prev, by simp⟩
  | cons c cs ih =>
    obtain ⟨last, hrest⟩ := ih (fun d hd => h d (List.mem_cons_of_mem c hd)) (some c)
    refine ⟨last, ?_⟩
    rw [List.cons_append, Pattern.searchAt, (h c List.mem_cons_self _).first?]
    dsimp only
    rw [hrest, Option.map_map]
    rfl

/-- Where nothing is found the search for all readings ends. -/
theorem searchUpTo_of_none {c : Cursor} (h : p.searchAt c.prev c.rest = none) (n : Nat) :
    p.searchUpTo n c = [] := by
  cases n with
  | zero => rfl
  | succ n => rw [searchUpTo, h]

/-- Behind what is found the search for all readings goes on. -/
theorem searchUpTo_of_some {c : Cursor} {f : Found α} (h : p.searchAt c.prev c.rest = some f)
    (n : Nat) : p.searchUpTo (n + 1) c = f :: p.searchUpTo n f.after := by
  rw [searchUpTo, h]

/-- A fixed text is found exactly where a text begins with it. -/
theorem finds_lit (s : String) : (lit s).Finds fun t =>
    if s.toList.isPrefixOf t then some () else none := by
  intro prev t
  rw [lit, text]
  dsimp only
  split <;> rfl

theorem finds_atEnd : atEnd.Finds fun t =>
    if t.isEmpty || t == ['\n'] then some () else none := by
  intro prev t
  rw [atEnd, checkAt]
  dsimp only
  split <;> rfl

/-- An alternative finds what its first pattern finds, or else what the second does. -/
theorem Finds.orElse {value? other? : List Char → Option α} (hp : p.Finds value?)
    (hq : q.Finds other?) : (p <|> q).Finds fun t => (value? t).or (other? t) := by
  intro prev t
  dsimp only
  rw [← hp prev t, ← hq prev t, Choices.first?_eq_head?, Choices.first?_eq_head?,
    Choices.first?_eq_head?, toList_orElse, List.head?_append]
  cases (p ⟨prev, t⟩).toList.head? <;> rfl

/-- A pattern matches where it finds a value. -/
theorem Finds.matches? {value? : List Char → Option α} (h : p.Finds value?) (t : List Char) :
    p.matches? t = (value? t).isSome := by
  rw [Pattern.matches?, Pattern.matchStart?, Cursor.start, h none t]

end Using

end SourceSurvey.Pattern
