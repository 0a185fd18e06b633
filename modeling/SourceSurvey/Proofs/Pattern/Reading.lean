import SourceSurvey.Pattern.Basic

/-!
# What patterns read

Two properties of all ways in which a pattern can be read, with one lemma for each combinator:
`Yields` says something about the value, and `Reads` about the text that is taken from the front
together with the value. A property of all ways holds of the preferred one, which is the one used.
-/

namespace SourceSurvey

namespace Cursor

/-- Behind so many characters the rest of a text is the text without them. -/
@[simp] theorem rest_advance (n : Nat) (c : Cursor) : (c.advance n).rest = c.rest.drop n := by
  induction n generalizing c with
  | zero => rfl
  | succ n ih =>
    obtain ⟨prev, rest⟩ := c
    cases rest with
    | nil => rfl
    | cons x xs => exact ih ⟨some x, xs⟩

/-- Two steps forward are one. -/
theorem advance_advance (m n : Nat) (c : Cursor) :
    (c.advance m).advance n = c.advance (m + n) := by
  induction m generalizing c with
  | zero => rw [Nat.zero_add]; rfl
  | succ m ih =>
    obtain ⟨prev, rest⟩ := c
    rw [Nat.succ_add]
    cases rest with
    | nil => cases n <;> rfl
    | cons x xs => exact ih ⟨some x, xs⟩

/-- Behind a text its last character stands before. -/
theorem advance_append (word rest : List Char) (prev : Option Char) :
    (⟨prev, word ++ rest⟩ : Cursor).advance word.length = ⟨word.getLast?.or prev, rest⟩ := by
  induction word generalizing prev with
  | nil => rfl
  | cons x xs ih =>
    rw [List.getLast?_cons, Option.some_or, ← Option.or_some]
    exact ih (some x)

/-- Between two places stands what the first has in front of the rest of the second. -/
theorem upTo_of_append {c later : Cursor} {t : List Char} (h : c.rest = t ++ later.rest) :
    c.upTo later = t := by
  have hlength : c.rest.length - later.rest.length = t.length := by
    rw [h, List.length_append]
    omega
  rw [upTo, hlength, h, List.take_left]

end Cursor

namespace Pattern

variable {α β : Type}

/-- Every value of the pattern has the property. -/
def Yields (p : Pattern α) (P : α → Prop) : Prop :=
  ∀ c, ∀ r ∈ (p c).toList, P r.1

/-- The pattern takes a text from the front, which has the property together with the value. -/
def Reads (p : Pattern α) (R : List Char → α → Prop) : Prop :=
  ∀ c, ∀ r ∈ (p c).toList, ∃ t, c.rest = t ++ r.2.rest ∧ R t r.1

/-- The preferred way is one of the ways. -/
theorem mem_toList_of_first? {xs : Choices α} {a : α} (h : xs.first? = some a) : a ∈ xs.toList := by
  rw [Choices.first?_eq_head?] at h
  exact List.mem_of_mem_head? h

/-! ## Sequencing and choice -/

section Combinators

variable {p q : Pattern α} {f : α → Pattern β} {P : α → Prop} {Q : β → Prop}
  {R : List Char → α → Prop} {S : List Char → β → Prop}

/-- A sequence is read in every way of its first part, and then in every way of its second. -/
theorem toList_bind (p : Pattern α) (f : α → Pattern β) (c : Cursor) :
    ((p >>= f) c).toList = (p c).toList.flatMap fun s => (f s.1 s.2).toList :=
  Choices.toList_bind _ _

/-- The ways of an alternative are those of the one pattern and then those of the other. -/
theorem toList_orElse (p q : Pattern α) (c : Cursor) :
    ((p <|> q) c).toList = (p c).toList ++ (q c).toList :=
  Choices.toList_append _ _

/-- A way to read a sequence goes on from a way to read its first part. -/
theorem mem_bind {c : Cursor} {r : β × Cursor} (h : r ∈ ((p >>= f) c).toList) :
    ∃ s ∈ (p c).toList, r ∈ (f s.1 s.2).toList := by
  rw [toList_bind, List.mem_flatMap] at h
  exact h

/-- A way to read an alternative is one of either pattern. -/
theorem mem_orElse {c : Cursor} {r : α × Cursor} (h : r ∈ ((p <|> q) c).toList) :
    r ∈ (p c).toList ∨ r ∈ (q c).toList := by
  rw [toList_orElse, List.mem_append] at h
  exact h

/-- A pattern that yields values of a kind yields values of any wider kind. -/
theorem Yields.imp {P' : α → Prop} (hp : p.Yields P) (h : ∀ a, P a → P' a) : p.Yields P' :=
  fun c r hr => h r.1 (hp c r hr)

theorem yields_pure {a : α} (h : P a) : (pure a : Pattern α).Yields P := by
  intro c r hr
  rw [List.mem_singleton.mp hr]
  exact h

/-- A sequence yields what its second part yields behind the values of the first. -/
theorem Yields.bind (hp : p.Yields P) (hf : ∀ a, P a → (f a).Yields Q) : (p >>= f).Yields Q := by
  intro c r hr
  obtain ⟨s, hs, hr⟩ := mem_bind hr
  exact hf s.1 (hp c s hs) s.2 r hr

/-- A value that is not looked at. -/
theorem yields_bind (hf : ∀ a, (f a).Yields Q) : (p >>= f).Yields Q := by
  intro c r hr
  obtain ⟨s, -, hr⟩ := mem_bind hr
  exact hf s.1 s.2 r hr

/-- An alternative yields what both of its patterns do. -/
theorem Yields.orElse (hp : p.Yields P) (hq : q.Yields P) : (p <|> q).Yields P := by
  intro c r hr
  rcases mem_orElse hr with hr | hr
  · exact hp c r hr
  · exact hq c r hr

/-- What a pattern reads may be described more widely. -/
theorem Reads.imp {R' : List Char → α → Prop} (hp : p.Reads R) (h : ∀ t a, R t a → R' t a) :
    p.Reads R' := by
  intro c r hr
  obtain ⟨t, hrest, ht⟩ := hp c r hr
  exact ⟨t, hrest, h t r.1 ht⟩

theorem reads_pure {a : α} (h : R [] a) : (pure a : Pattern α).Reads R := by
  intro c r hr
  rw [List.mem_singleton.mp hr]
  exact ⟨[], rfl, h⟩

/-- A sequence reads the text of its first part and then that of its second. -/
theorem Reads.bind (hp : p.Reads R) (hf : ∀ t a, R t a → (f a).Reads fun t' b => S (t ++ t') b) :
    (p >>= f).Reads S := by
  intro c r hr
  obtain ⟨s, hs, hr⟩ := mem_bind hr
  obtain ⟨t, hrest, ht⟩ := hp c s hs
  obtain ⟨t', hrest', ht'⟩ := hf t s.1 ht s.2 r hr
  exact ⟨t ++ t', by rw [hrest, hrest', List.append_assoc], ht'⟩

/-- An alternative reads what both of its patterns do. -/
theorem Reads.orElse (hp : p.Reads R) (hq : q.Reads R) : (p <|> q).Reads R := by
  intro c r hr
  rcases mem_orElse hr with hr | hr
  · exact hp c r hr
  · exact hq c r hr

/-- What may be left out reads nothing or what it reads when it is there. -/
theorem reads_opt {T : List Char → Prop} (hp : p.Reads fun t _ => T t) :
    (opt p).Reads fun t _ => t = [] ∨ T t := by
  refine Reads.orElse ?_ (reads_pure (Or.inl rfl))
  refine hp.bind fun t a ht => reads_pure (Or.inr ?_)
  rw [List.append_nil]
  exact ht

end Combinators

/-! ## Characters and runs -/

/-- One character of a class is read as it stands. -/
theorem reads_char (p : Char → Bool) : (char p).Reads fun t x => t = [x] ∧ p x = true := by
  intro c r hr
  unfold char at hr
  split at hr
  · cases hr
  · next x xs hrest =>
    split at hr
    · next hx =>
      rw [List.mem_singleton.mp hr]
      exact ⟨[x], hrest, rfl, hx⟩
    · cases hr

/-- A fixed text is read as it stands. -/
theorem reads_text (s : List Char) : (text s).Reads fun t _ => t = s := by
  intro c r hr
  unfold text at hr
  split at hr
  · next hstarts =>
    rw [List.mem_singleton.mp hr]
    obtain ⟨rest, hrest⟩ := List.isPrefixOf_iff_prefix.mp hstarts
    refine ⟨s, ?_, rfl⟩
    rw [Cursor.rest_advance, ← hrest, List.drop_left]
  · cases hr

theorem reads_lit (s : String) : (lit s).Reads fun t _ => t = s.toList :=
  reads_text s.toList

/-- A word in any letter case is no longer than the text that begins with it. -/
theorem beginsAnyCase_length_le {word t : List Char} (h : beginsAnyCase word t = true) :
    word.length ≤ t.length := by
  induction word generalizing t with
  | nil => exact Nat.zero_le _
  | cons l ls ih =>
    cases t with
    | nil => cases h
    | cons x xs => exact Nat.succ_le_succ (ih (Bool.and_eq_true_iff.mp h).2)

/-- A word in any letter case reads as many characters as it has. -/
theorem reads_litAnyCase (s : String) : (litAnyCase s).Reads fun t _ => t.length = s.length := by
  intro c r hr
  unfold litAnyCase at hr
  split at hr
  · next hstarts =>
    rw [List.mem_singleton.mp hr]
    have hlength : s.length ≤ c.rest.length := beginsAnyCase_length_le hstarts
    refine ⟨c.rest.take s.length, ?_, ?_⟩
    · rw [Cursor.rest_advance, List.take_append_drop]
    · show (c.rest.take s.length).length = s.length
      rw [List.length_take, Nat.min_eq_left hlength]
  · cases hr

/-- A condition on a place is read in one way, without a character, where it holds. -/
theorem mem_checkAt {condition : Cursor → Bool} {c : Cursor} {r : Unit × Cursor} :
    r ∈ (checkAt condition c).toList ↔ condition c = true ∧ r = ((), c) := by
  unfold checkAt
  split
  · next h =>
    rw [Choices.toList_one, List.mem_singleton]
    exact ⟨fun hr => ⟨h, hr⟩, fun hr => hr.2⟩
  · next h => exact ⟨fun hr => (nomatch hr), fun hr => absurd hr.1 h⟩

/-- Looking around takes nothing. -/
theorem reads_checkAt (condition : Cursor → Bool) : (checkAt condition).Reads fun t _ => t = [] := by
  intro c r hr
  rw [(mem_checkAt.mp hr).2]
  exact ⟨[], rfl, rfl⟩

/-- Each way to read a run takes a number of characters between the bounds. -/
theorem mem_longestFirst {least most : Nat} {c : Cursor} {r : List Char × Cursor}
    (h : r ∈ (longestFirst least most c).toList) :
    ∃ n, least ≤ n ∧ n ≤ most ∧ r = (c.rest.take n, c.advance n) := by
  induction most with
  | zero =>
    unfold longestFirst at h
    split at h
    · next hleast =>
      rw [List.mem_singleton.mp h]
      exact ⟨0, Nat.le_of_eq hleast, Nat.le_refl 0, rfl⟩
    · cases h
  | succ most ih =>
    unfold longestFirst at h
    split at h
    · cases h
    · next hleast =>
      rcases List.mem_cons.mp h with rfl | h
      · exact ⟨most + 1, Nat.le_of_not_lt hleast, Nat.le_refl _, rfl⟩
      · obtain ⟨n, hn, hmost, hr⟩ := ih h
        exact ⟨n, hn, Nat.le_succ_of_le hmost, hr⟩

/-- A part of the longest run is cut from it. -/
theorem take_eq_take_takeWhile {p : Char → Bool} {t : List Char} {n : Nat}
    (h : n ≤ (t.takeWhile p).length) : t.take n = (t.takeWhile p).take n := by
  have ht : t.takeWhile p ++ t.dropWhile p = t := List.takeWhile_append_dropWhile
  calc t.take n = (t.takeWhile p ++ t.dropWhile p).take n := by rw [ht]
    _ = (t.takeWhile p).take n := List.take_append_of_le_length h

/-- A run consists of so many characters of its class. -/
theorem reads_run (p : Char → Bool) (least : Nat) :
    (run p least).Reads fun t a => a = t ∧ least ≤ t.length ∧ ∀ x ∈ t, p x = true := by
  intro c r hr
  obtain ⟨n, hleast, hmost, rfl⟩ := mem_longestFirst hr
  -- every length that is offered ends inside the longest run
  have hstarts := take_eq_take_takeWhile hmost
  refine ⟨c.rest.take n, ?_, rfl, ?_, ?_⟩
  · rw [Cursor.rest_advance, List.take_append_drop]
  · rw [hstarts, List.length_take, Nat.min_eq_left hmost]
    exact hleast
  · intro x hx
    rw [hstarts] at hx
    exact List.all_eq_true.mp List.all_takeWhile x (List.mem_of_mem_take hx)

/-- So does each way to read a lazy run. -/
theorem mem_shortestFirst {least more : Nat} {c : Cursor} {r : List Char × Cursor}
    (h : r ∈ (shortestFirst least more c).toList) :
    ∃ n, least ≤ n ∧ n ≤ least + more ∧ r = (c.rest.take n, c.advance n) := by
  induction more generalizing least with
  | zero =>
    rw [List.mem_singleton.mp h]
    exact ⟨least, Nat.le_refl least, Nat.le_refl least, rfl⟩
  | succ more ih =>
    rcases List.mem_cons.mp h with rfl | h
    · exact ⟨least, Nat.le_refl least, Nat.le_add_right least _, rfl⟩
    · obtain ⟨n, hleast, hmost, hr⟩ := ih h
      exact ⟨n, by omega, by omega, hr⟩

/-- A run that is offered from the shortest one on consists of so many characters of its class. -/
theorem reads_runLazy (p : Char → Bool) (least : Nat) :
    (runLazy p least).Reads fun t a => a = t ∧ least ≤ t.length ∧ ∀ x ∈ t, p x = true := by
  intro c r hr
  unfold runLazy at hr
  dsimp only at hr
  split at hr
  · cases hr
  · next hleast =>
    obtain ⟨n, hn, hmost, rfl⟩ := mem_shortestFirst hr
    have hmost : n ≤ (c.rest.takeWhile p).length := by omega
    have hstarts := take_eq_take_takeWhile hmost
    refine ⟨c.rest.take n, ?_, rfl, ?_, ?_⟩
    · rw [Cursor.rest_advance, List.take_append_drop]
    · rw [hstarts, List.length_take, Nat.min_eq_left hmost]
      exact hn
    · intro x hx
      rw [hstarts] at hx
      exact List.all_eq_true.mp List.all_takeWhile x (List.mem_of_mem_take hx)

/-- A run yields enough characters of its class. -/
theorem yields_run (p : Char → Bool) (least : Nat) :
    (run p least).Yields fun a => least ≤ a.length ∧ ∀ x ∈ a, p x = true := by
  intro c r hr
  obtain ⟨t, -, rfl, ht⟩ := reads_run p least c r hr
  exact ht

/-- Blanks take nothing but blanks. -/
theorem reads_blanks : blanks.Reads fun t _ => ∀ x ∈ t, Text.isSpace x = true := by
  refine (reads_run Text.isSpace 0).bind fun t a ht => reads_pure ?_
  rw [List.append_nil]
  exact ht.2.2

/-- At least one blank is read, and nothing but blanks. -/
theorem reads_blanks1 :
    blanks1.Reads fun t _ => 1 ≤ t.length ∧ ∀ x ∈ t, Text.isSpace x = true := by
  refine (reads_run Text.isSpace 1).bind fun t a ht => reads_pure ?_
  rw [List.append_nil]
  exact ht.2

/-- The text of a pattern is what it takes. -/
theorem Reads.textOf {p : Pattern α} {T : List Char → Prop} (hp : p.Reads fun t _ => T t) :
    (textOf p).Reads fun t a => a = t ∧ T t := by
  have hwith : (withText p).Reads fun t r => r.1 = t ∧ T t := by
    intro c r hr
    unfold withText at hr
    rw [Choices.toList_map] at hr
    obtain ⟨s, hs, rfl⟩ := List.mem_map.mp hr
    obtain ⟨t, hrest, ht⟩ := hp c s hs
    exact ⟨t, hrest, Cursor.upTo_of_append hrest, ht⟩
  refine hwith.bind fun t r ht => reads_pure ?_
  rw [List.append_nil]
  exact ht

/-- The text of a pattern is one that the pattern reads. -/
theorem yields_textOf {p : Pattern α} {T : List Char → Prop} (hp : p.Reads fun t _ => T t) :
    (Pattern.textOf p).Yields T := by
  intro c r hr
  obtain ⟨t, -, rfl, ht⟩ := hp.textOf c r hr
  exact ht

/-! ## Using a pattern -/

/-- What is read at the start of a text is one of the values that the pattern yields. -/
theorem Yields.of_matchStart? {p : Pattern α} {P : α → Prop} {t : List Char} {a : α}
    (hp : p.Yields P) (h : p.matchStart? t = some a) : P a := by
  obtain ⟨r, hr, rfl⟩ := Option.map_eq_some_iff.mp h
  exact hp _ r (mem_toList_of_first? hr)

/-- What is read at the start of a text stands there. -/
theorem Reads.of_matchStart? {p : Pattern α} {R : List Char → α → Prop} {t : List Char} {a : α}
    (hp : p.Reads R) (h : p.matchStart? t = some a) : ∃ s rest, t = s ++ rest ∧ R s a := by
  obtain ⟨r, hr, rfl⟩ := Option.map_eq_some_iff.mp h
  obtain ⟨s, hs, hread⟩ := hp _ r (mem_toList_of_first? hr)
  exact ⟨s, r.2.rest, hs, hread⟩

/-- What a search finds splits the text into what stands before, the text read and the rest. -/
theorem Reads.searchAt {p : Pattern α} {R : List Char → α → Prop} (hp : p.Reads R)
    {prev : Option Char} {t : List Char} {f : Found α} (h : p.searchAt prev t = some f) :
    t = f.before ++ f.text ++ f.after.rest ∧ R f.text f.value := by
  induction t generalizing prev f with
  | nil =>
    obtain ⟨r, hr, rfl⟩ := Option.map_eq_some_iff.mp h
    obtain ⟨t, hrest, ht⟩ := hp _ r (mem_toList_of_first? hr)
    have hnil : t = [] ∧ r.2.rest = [] := List.append_eq_nil_iff.mp hrest.symm
    rw [hnil.1] at ht
    exact ⟨by rw [hnil.2]; rfl, ht⟩
  | cons x xs ih =>
    unfold Pattern.searchAt at h
    split at h
    · next a c hfirst =>
      cases h
      obtain ⟨t, hrest, ht⟩ := hp _ _ (mem_toList_of_first? hfirst)
      rw [Cursor.upTo_of_append hrest]
      exact ⟨hrest, ht⟩
    -- the search goes on after one character, which then stands before what is found
    · obtain ⟨g, hg, rfl⟩ := Option.map_eq_some_iff.mp h
      obtain ⟨hsplit, hg⟩ := ih hg
      exact ⟨congrArg (x :: ·) hsplit, hg⟩

/-- Readings one after the other are parts of the text. -/
theorem Reads.suffix_of_mem_searchUpTo {p : Pattern α} {R : List Char → α → Prop} (hp : p.Reads R)
    {n : Nat} {c : Cursor} {f : Found α} (h : f ∈ p.searchUpTo n c) :
    f.before ++ f.text ++ f.after.rest <:+ c.rest := by
  induction n generalizing c with
  | zero => cases h
  | succ n ih =>
    unfold searchUpTo at h
    split at h
    · cases h
    · next g hg =>
      have hsplit := (hp.searchAt hg).1
      rcases List.mem_cons.mp h with rfl | h
      · exact ⟨[], hsplit.symm⟩
      · exact (ih h).trans ⟨g.before ++ g.text, hsplit.symm⟩

/-- The pieces between readings are made of the characters of the text. -/
theorem Reads.subset_of_mem_splitOn {p : Pattern α} {R : List Char → α → Prop} (hp : p.Reads R)
    {t piece : List Char} (h : piece ∈ p.splitOn t) : piece ⊆ t := by
  unfold splitOn at h
  dsimp only at h
  rw [List.mem_append, List.mem_singleton] at h
  -- a piece stands before a reading, or it is what the last reading leaves
  rcases h with h | rfl
  · obtain ⟨f, hf, rfl⟩ := List.mem_map.mp h
    have hsuffix := (hp.suffix_of_mem_searchUpTo hf).subset
    intro x hx
    exact hsuffix (List.mem_append_left _ (List.mem_append_left _ hx))
  · cases hlast : (p.searchAll t).getLast? with
    | none => exact List.Subset.refl t
    | some f =>
      have hsuffix := (hp.suffix_of_mem_searchUpTo (List.mem_of_getLast? hlast)).subset
      intro x hx
      exact hsuffix (List.mem_append_right _ hx)

/-! ## Patterns that do not look back -/

/-- What is read does not depend on the character before. -/
def IgnoresBefore (p : Pattern α) : Prop :=
  ∀ a b t, (p ⟨a, t⟩).toList = (p ⟨b, t⟩).toList

/-- A fixed text is read whatever stands in front of it. -/
theorem ignoresBefore_text (x : Char) (xs : List Char) : (text (x :: xs)).IgnoresBefore := by
  intro a b t
  cases t with
  | nil => rfl
  | cons y ys => rfl

/-- A sequence ignores what its first part does. -/
theorem IgnoresBefore.bind {p : Pattern α} (hp : p.IgnoresBefore) (f : α → Pattern β) :
    (p >>= f).IgnoresBefore := by
  intro a b t
  rw [toList_bind, toList_bind, hp a b t]

theorem IgnoresBefore.orElse {p q : Pattern α} (hp : p.IgnoresBefore) (hq : q.IgnoresBefore) :
    (p <|> q).IgnoresBefore := by
  intro a b t
  rw [toList_orElse, toList_orElse, hp a b t, hq a b t]

/-- A pattern that may be left out, before one that does not look back. -/
theorem IgnoresBefore.opt_bind {p : Pattern α} (hp : p.IgnoresBefore)
    {f : Option α → Pattern β} (hf : (f none).IgnoresBefore) : (opt p >>= f).IgnoresBefore := by
  intro a b t
  have hsome := hp.bind (fun v => (pure (some v) : Pattern (Option α))) a b t
  have hnone : ∀ c : Cursor, ((pure none : Pattern (Option α)) c).toList = [(none, c)] :=
    fun _ => rfl
  unfold opt
  rw [toList_bind, toList_bind, toList_orElse, toList_orElse, List.flatMap_append,
    List.flatMap_append, hsome, hnone, hnone, List.flatMap_singleton, List.flatMap_singleton,
    hf a b t]

/-- A character that a pattern cannot begin with is passed over. -/
theorem search?_cons_of_ignoresBefore {p : Pattern α} (hp : p.IgnoresBefore) {x : Char}
    {t : List Char} (h : (p ⟨none, x :: t⟩).toList = []) :
    (p.search? (x :: t)).map (·.value) = (p.search? t).map (·.value) := by
  -- the character passed over shows only as the character before, which is not looked at
  have hfirst : ∀ t, (p ⟨some x, t⟩).first? = (p ⟨none, t⟩).first? := fun t => by
    rw [Choices.first?_eq_head?, Choices.first?_eq_head?, hp (some x) none t]
  have hnone : (p ⟨none, x :: t⟩).first? = none := by
    rw [Choices.first?_eq_head?, h]
    rfl
  unfold search?
  rw [searchAt, hnone]
  dsimp only
  rw [Option.map_map]
  cases t with
  | nil =>
    rw [searchAt, searchAt, hfirst, Option.map_map, Option.map_map]
    rfl
  | cons y ys =>
    rw [searchAt, searchAt, hfirst]
    cases (p ⟨none, y :: ys⟩).first? with
    | none =>
      dsimp only
      rw [Option.map_map, Option.map_map]
      rfl
    | some r => rfl

end Pattern

end SourceSurvey
