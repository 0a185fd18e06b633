import SourceSurvey.Proofs.Pattern.Preferred

/-!
# What a search finds

A search goes through the places of a text from left to right and goes on behind each reading. A
place where a pattern can be read is therefore passed over exactly if it lies in a reading that
begins earlier. Main statements: what can be read at a place is found if every earlier reading ends
there at the latest, and what is found stands at a place that no reading from an uncovered place
reaches over. What a pattern copies from the text that it reads is part of the text searched
(`Copies.of_search?`).
-/

namespace SourceSurvey.Pattern

variable {α β : Type}

/-! ## How far a reading goes -/

/-- Every reading ends at a place of the text. -/
def Advances (p : Pattern α) : Prop :=
  ∀ c, ∀ r ∈ (p c).toList, ∃ n ≤ c.rest.length, r.2 = c.advance n

section Advances

variable {p q : Pattern α} {f : α → Pattern β}

theorem advances_pure (a : α) : (pure a : Pattern α).Advances := by
  intro c r hr
  exact ⟨0, Nat.zero_le _, by rw [List.mem_singleton.mp hr]; rfl⟩

/-- A sequence goes forward as its parts do. -/
theorem Advances.bind (hp : p.Advances) (hf : ∀ a, (f a).Advances) : (p >>= f).Advances := by
  intro c r hr
  obtain ⟨s, hs, hr⟩ := mem_bind hr
  obtain ⟨m, hm, hsecond⟩ := hp c s hs
  obtain ⟨n, hn, hthird⟩ := hf s.1 s.2 r hr
  rw [hsecond, Cursor.rest_advance, List.length_drop] at hn
  exact ⟨m + n, by omega, by rw [hthird, hsecond, Cursor.advance_advance]⟩

/-- An alternative goes forward as its patterns do. -/
theorem Advances.orElse (hp : p.Advances) (hq : q.Advances) : (p <|> q).Advances := by
  intro c r hr
  rcases mem_orElse hr with hr | hr
  · exact hp c r hr
  · exact hq c r hr

theorem Advances.opt (hp : p.Advances) : (opt p).Advances :=
  (hp.bind fun a => advances_pure (some a)).orElse (advances_pure none)

theorem advances_lit (s : String) : (lit s).Advances := by
  intro c r hr
  unfold lit text at hr
  split at hr
  · next hstarts =>
    have hfront := List.isPrefixOf_iff_prefix.mp hstarts
    exact ⟨s.toList.length, hfront.length_le, by rw [List.mem_singleton.mp hr]⟩
  · cases hr

theorem advances_checkAt (condition : Cursor → Bool) : (checkAt condition).Advances := by
  intro c r hr
  unfold checkAt at hr
  split at hr
  · exact ⟨0, Nat.zero_le _, by rw [List.mem_singleton.mp hr]; rfl⟩
  · cases hr

/-- A run goes forward by the characters that it takes. -/
theorem advances_run (p : Char → Bool) (least : Nat) : (run p least).Advances := by
  intro c r hr
  obtain ⟨n, -, hmost, rfl⟩ := mem_longestFirst hr
  exact ⟨n, Nat.le_trans hmost (List.takeWhile_sublist _).length_le, rfl⟩

theorem advances_runLazy (p : Char → Bool) (least : Nat) : (runLazy p least).Advances := by
  intro c r hr
  unfold runLazy at hr
  dsimp only at hr
  split at hr
  · cases hr
  · obtain ⟨n, -, hmost, rfl⟩ := mem_shortestFirst hr
    have hlongest : (c.rest.takeWhile p).length ≤ c.rest.length :=
      (List.takeWhile_sublist _).length_le
    exact ⟨n, by omega, rfl⟩

theorem advances_blanks : blanks.Advances :=
  (advances_run _ _).bind fun _ => advances_pure ()

end Advances

/-! ## Some reading of a text -/

/-- One of the ways to read the text has this value and leaves this text. -/
def CanTake (p : Pattern α) (t : List Char) (a : α) (rest : List Char) : Prop :=
  ∀ prev, ∃ last, (a, ⟨last, rest⟩) ∈ (p ⟨prev, t⟩).toList

section CanTake

variable {p : Pattern α} {f : α → Pattern β} {t rest rest' : List Char} {a : α} {b : β}

/-- What a pattern takes is one of the ways to read it. -/
theorem Takes.canTake (h : p.Takes t a rest) : p.CanTake t a rest := by
  intro prev
  obtain ⟨last, hfirst⟩ := h prev
  exact ⟨last, mem_toList_of_first? hfirst⟩

/-- Ways to read the parts of a sequence are one to read the sequence. -/
theorem CanTake.bind (hp : p.CanTake t a rest) (hf : (f a).CanTake rest b rest') :
    (p >>= f).CanTake t b rest' := by
  intro prev
  obtain ⟨last, hfirst⟩ := hp prev
  obtain ⟨last', hnext⟩ := hf last
  refine ⟨last', ?_⟩
  rw [toList_bind, List.mem_flatMap]
  exact ⟨_, hfirst, hnext⟩

/-- What may be left out can be taken where it stands. -/
theorem CanTake.opt (hp : p.CanTake t a rest) : (Pattern.opt p).CanTake t (some a) rest := by
  intro prev
  have hsome : (p >>= fun a => pure (some a)).CanTake t (some a) rest :=
    hp.bind (takes_pure (some a) rest).canTake
  obtain ⟨last, hlast⟩ := hsome prev
  refine ⟨last, ?_⟩
  rw [Pattern.opt, toList_orElse]
  exact List.mem_append_left _ hlast

/-- The text of a pattern is the word that the pattern can take. -/
theorem CanTake.textOf {word : List Char} (hp : p.CanTake (word ++ rest) a rest) :
    (Pattern.textOf p).CanTake (word ++ rest) word rest := by
  have hwith : (withText p).CanTake (word ++ rest) (word, a) rest := by
    intro prev
    obtain ⟨last, hlast⟩ := hp prev
    have hword : (⟨prev, word ++ rest⟩ : Cursor).upTo ⟨last, rest⟩ = word :=
      Cursor.upTo_of_append rfl
    refine ⟨last, ?_⟩
    rw [withText, Choices.toList_map, List.mem_map]
    exact ⟨_, hlast, congrArg (fun t => ((t, a), (⟨last, rest⟩ : Cursor))) hword⟩
  exact hwith.bind (takes_pure word rest).canTake

/-- What is optional may be left out, whether it can be read or not. -/
theorem canTake_opt_none (p : Pattern α) (t : List Char) : (Pattern.opt p).CanTake t none t := by
  intro prev
  refine ⟨prev, ?_⟩
  rw [Pattern.opt, toList_orElse]
  exact List.mem_append_right _ List.mem_cons_self

/-- Every number of characters between the bounds is offered. -/
theorem take_mem_longestFirst {least most n : Nat} (hleast : least ≤ n) (hmost : n ≤ most)
    (c : Cursor) : (c.rest.take n, c.advance n) ∈ (longestFirst least most c).toList := by
  induction most with
  | zero =>
    obtain rfl := Nat.le_zero.mp hmost
    rw [longestFirst, if_pos (Nat.le_zero.mp hleast)]
    exact List.mem_cons_self
  | succ most ih =>
    rw [longestFirst, if_neg (by omega)]
    rcases Nat.eq_or_lt_of_le hmost with rfl | hlt
    · exact List.mem_cons_self
    · exact List.mem_cons_of_mem _ (ih (Nat.le_of_lt_succ hlt))

/-- A lazy run offers every number of characters between its bounds too. -/
theorem take_mem_shortestFirst {least more n : Nat} (hleast : least ≤ n) (hmost : n ≤ least + more)
    (c : Cursor) : (c.rest.take n, c.advance n) ∈ (shortestFirst least more c).toList := by
  induction more generalizing least with
  | zero =>
    obtain rfl : n = least := Nat.le_antisymm hmost hleast
    exact List.mem_cons_self
  | succ more ih =>
    rcases Nat.eq_or_lt_of_le hleast with rfl | hlt
    · exact List.mem_cons_self
    · exact List.mem_cons_of_mem _ (ih hlt (by omega))

/-- A word of a class is at most as long as the run of the class that it begins. -/
theorem length_le_takeWhile_append {p : Char → Bool} {word : List Char}
    (hword : ∀ c ∈ word, p c = true) (rest : List Char) :
    word.length ≤ ((word ++ rest).takeWhile p).length := by
  rw [List.takeWhile_append_of_pos hword, List.length_append]
  omega

/-- A run may end anywhere behind its least number of characters. -/
theorem canTake_run {p : Char → Bool} {least : Nat} {word : List Char}
    (hword : ∀ c ∈ word, p c = true) (hleast : least ≤ word.length) (rest : List Char) :
    (run p least).CanTake (word ++ rest) word rest := by
  intro prev
  have hmem := take_mem_longestFirst hleast (length_le_takeWhile_append hword rest)
    ⟨prev, word ++ rest⟩
  rw [List.take_left, Cursor.advance_append] at hmem
  exact ⟨_, hmem⟩

/-- So may a run that is offered from the shortest one on. -/
theorem canTake_runLazy {p : Char → Bool} {least : Nat} {word : List Char}
    (hword : ∀ c ∈ word, p c = true) (hleast : least ≤ word.length) (rest : List Char) :
    (runLazy p least).CanTake (word ++ rest) word rest := by
  intro prev
  have hlongest := length_le_takeWhile_append hword rest
  have hmost : word.length ≤ least + (((word ++ rest).takeWhile p).length - least) := by omega
  have hmem := take_mem_shortestFirst hleast hmost ⟨prev, word ++ rest⟩
  rw [List.take_left, Cursor.advance_append] at hmem
  have hoffered : runLazy p least ⟨prev, word ++ rest⟩ =
      shortestFirst least (((word ++ rest).takeWhile p).length - least) ⟨prev, word ++ rest⟩ :=
    if_neg (by dsimp only; omega)
  exact ⟨_, by rw [hoffered]; exact hmem⟩

theorem canTake_blanks {gap : List Char} (hgap : ∀ c ∈ gap, Text.isSpace c = true)
    (rest : List Char) : blanks.CanTake (gap ++ rest) () rest :=
  (canTake_run hgap (Nat.zero_le _) rest).bind (takes_pure () rest).canTake

/-- Blanks need not be taken, whether there are any or not. -/
theorem canTake_no_blanks (t : List Char) : blanks.CanTake t () t := by
  have hnone : ∀ c ∈ ([] : List Char), Text.isSpace c = true := fun _ hc => absurd hc List.not_mem_nil
  exact canTake_blanks hnone t

/-- Where there is a way to read a pattern there is a preferred one. -/
theorem CanTake.exists_first? (h : p.CanTake t a rest) (prev : Option Char) :
    ∃ r, (p ⟨prev, t⟩).first? = some r := by
  obtain ⟨last, hlast⟩ := h prev
  rw [Choices.first?_eq_head?]
  cases hways : (p ⟨prev, t⟩).toList with
  | nil => rw [hways] at hlast; cases hlast
  | cons r others => exact ⟨r, rfl⟩

/-- Looking around leaves the rest of a pattern as it is. -/
theorem first?_checkAt_bind {condition : Cursor → Bool} {c : Cursor} (h : condition c = true)
    (f : Unit → Pattern β) : ((checkAt condition >>= f) c).first? = (f () c).first? := by
  have hone : (checkAt condition c).toList = [((), c)] := by
    rw [checkAt, if_pos h]
    rfl
  rw [Choices.first?_eq_head?, toList_bind, hone, List.flatMap_singleton, Choices.first?_eq_head?]

end CanTake

/-! ## The first place -/

section Search

variable {p : Pattern α} {prev : Option Char} {t : List Char} {c : Cursor} {k limit : Nat}

/-- A search finds the preferred reading of a place before which there is none. -/
theorem exists_advance_of_searchAt {f : Found α} (h : p.searchAt prev t = some f) :
    ∃ k, (p ((⟨prev, t⟩ : Cursor).advance k)).first? = some (f.value, f.after) ∧
      ∀ j < k, (p ((⟨prev, t⟩ : Cursor).advance j)).first? = none := by
  induction t generalizing prev f with
  | nil =>
    obtain ⟨r, hr, rfl⟩ := Option.map_eq_some_iff.mp h
    exact ⟨0, hr, fun j hj => absurd hj (Nat.not_lt_zero j)⟩
  | cons x xs ih =>
    unfold searchAt at h
    split at h
    · next a c hfirst =>
      cases h
      exact ⟨0, hfirst, fun j hj => absurd hj (Nat.not_lt_zero j)⟩
    · next hnone =>
      obtain ⟨g, hg, rfl⟩ := Option.map_eq_some_iff.mp h
      obtain ⟨k, hk, hbefore⟩ := ih hg
      refine ⟨k + 1, hk, fun j hj => ?_⟩
      cases j with
      | zero => exact hnone
      | succ j => exact hbefore j (Nat.lt_of_succ_lt_succ hj)

/-- Where a pattern can be read at some place of a text a search of the text finds it. -/
theorem exists_searchAt {r : α × Cursor}
    (h : (p ((⟨prev, t⟩ : Cursor).advance k)).first? = some r) :
    ∃ f, p.searchAt prev t = some f := by
  induction t generalizing prev k with
  | nil =>
    have hnil : (⟨prev, []⟩ : Cursor).advance k = ⟨prev, []⟩ := by cases k <;> rfl
    rw [hnil] at h
    exact ⟨_, by rw [searchAt, h]; rfl⟩
  | cons x xs ih =>
    unfold searchAt
    cases hfirst : (p ⟨prev, x :: xs⟩).first? with
    | some r => exact ⟨_, rfl⟩
    | none =>
      cases k with
      | zero => rw [Cursor.advance, hfirst] at h; cases h
      | succ k =>
        have hlater : (p ((⟨some x, xs⟩ : Cursor).advance k)).first? = some r := h
        obtain ⟨f, hf⟩ := ih hlater
        exact ⟨_, by rw [hf]; rfl⟩

/-! ## All readings -/

/-- What can be read at a place is found if the readings that begin before it end there at the
latest. -/
theorem exists_mem_searchUpTo {r : α × Cursor} (hlimit : k < limit)
    (hends : ∀ j < k, ∀ s, (p (c.advance j)).first? = some s →
      ∃ n, j < n ∧ n ≤ k ∧ s.2 = c.advance n)
    (hhere : (p (c.advance k)).first? = some r) :
    ∃ f ∈ p.searchUpTo limit c, f.value = r.1 := by
  induction limit generalizing c k with
  | zero => cases hlimit
  | succ limit ih =>
    obtain ⟨f, hf⟩ : ∃ f, p.searchAt c.prev c.rest = some f := exists_searchAt hhere
    obtain ⟨j, hj, hbefore⟩ := exists_advance_of_searchAt hf
    rw [searchUpTo_of_some hf]
    have hjk : j ≤ k := Nat.le_of_not_lt fun hlt => by
      rw [hbefore k hlt] at hhere
      cases hhere
    rcases Nat.eq_or_lt_of_le hjk with rfl | hlt
    · rw [hj] at hhere
      cases hhere
      exact ⟨f, List.mem_cons_self, rfl⟩
    -- an earlier reading comes first, and the search goes on where it ends
    · obtain ⟨n, hjn, hnk, hafter⟩ := hends j hlt _ hj
      have hplace : ∀ m, f.after.advance m = c.advance (n + m) := fun m => by
        rw [show f.after = c.advance n from hafter, Cursor.advance_advance]
      have hlater : ∀ i < k - n, ∀ s, (p (f.after.advance i)).first? = some s →
          ∃ m, i < m ∧ m ≤ k - n ∧ s.2 = f.after.advance m := by
        intro i hi s hs
        rw [hplace] at hs
        obtain ⟨m, him, hmk, hs⟩ := hends (n + i) (by omega) s hs
        exact ⟨m - n, by omega, by omega, by rw [hplace, hs, Nat.add_sub_cancel' (by omega)]⟩
      obtain ⟨g, hg, hvalue⟩ := ih (by omega) hlater (by rwa [hplace, Nat.add_sub_cancel' hnk])
      exact ⟨g, List.mem_cons_of_mem f hg, hvalue⟩

/-- What is found stands at a place, and a reading that begins before it begins in one that is found
and ends there at the latest. -/
theorem exists_advance_of_mem_searchUpTo
    (hproceeds : ∀ c r, (p c).first? = some r → ∃ n, 0 < n ∧ r.2 = c.advance n)
    {f : Found α} (h : f ∈ p.searchUpTo limit c) :
    ∃ k, (p (c.advance k)).first? = some (f.value, f.after) ∧
      ∀ j < k, ∀ s, (p (c.advance j)).first? = some s →
        ∃ i ≤ j, ∃ r n, (p (c.advance i)).first? = some r ∧ r.2 = c.advance n ∧ j < n ∧ n ≤ k := by
  induction limit generalizing c with
  | zero => cases h
  | succ limit ih =>
    unfold searchUpTo at h
    split at h
    · cases h
    · next g hg =>
      obtain ⟨first, hfirst, hbefore⟩ := exists_advance_of_searchAt hg
      rcases List.mem_cons.mp h with rfl | h
      · refine ⟨first, hfirst, fun j hj s hs => ?_⟩
        rw [hbefore j hj] at hs
        cases hs
      · obtain ⟨length, hpositive, hafter⟩ := hproceeds _ _ hfirst
        rw [Cursor.advance_advance] at hafter
        have hplace : ∀ m, g.after.advance m = c.advance (first + length + m) := fun m => by
          rw [show g.after = _ from hafter, Cursor.advance_advance]
        obtain ⟨k, hk, hcovers⟩ := ih h
        refine ⟨first + length + k, by rw [← hplace, hk], fun j hj s hs => ?_⟩
        -- a place is passed over by the first match or by one of those behind it
        rcases Nat.lt_or_ge j (first + length) with hlt | hge
        · refine ⟨first, ?_, _, first + length, hfirst, hafter, hlt, Nat.le_add_right _ _⟩
          refine Nat.le_of_not_lt fun hj => ?_
          rw [hbefore j hj] at hs
          cases hs
        · obtain ⟨i, hi, r, n, hr, hend, hin, hnk⟩ := hcovers (j - (first + length)) (by omega) s
            (by rwa [hplace, Nat.add_sub_cancel' hge])
          rw [hplace] at hr hend
          exact ⟨first + length + i, by omega, r, first + length + n, hr, hend, by omega, by omega⟩

end Search

/-! ## Parts that are copied -/

/-- A part of every value is copied from the text that the pattern is read in. -/
def Copies (p : Pattern α) (part : α → List Char) : Prop :=
  ∀ c, ∀ r ∈ (p c).toList, part r.1 <:+: c.rest

section Copies

variable {p : Pattern α} {f : α → Pattern β} {part : α → List Char} {part' : β → List Char}

/-- The text that a pattern reads is copied, whatever the pattern is. -/
theorem copies_textOf (p : Pattern α) : (textOf p).Copies id := by
  have hwith : (withText p).Copies Prod.fst := by
    intro c r hr
    unfold withText at hr
    rw [Choices.toList_map] at hr
    obtain ⟨s, -, rfl⟩ := List.mem_map.mp hr
    exact (List.take_prefix _ _).isInfix
  intro c r hr
  obtain ⟨s, hs, hr⟩ := mem_bind hr
  rw [List.mem_singleton.mp hr]
  exact hwith c s hs

/-- A run copies what it reads. -/
theorem copies_run (q : Char → Bool) (least : Nat) : (run q least).Copies id := by
  intro c r hr
  obtain ⟨n, -, -, rfl⟩ := mem_longestFirst hr
  exact (List.take_prefix _ _).isInfix

/-- What is copied behind another reading is copied. -/
theorem Reads.bind_copies {R : List Char → α → Prop} (hp : p.Reads R)
    (hf : ∀ a, (f a).Copies part') : (p >>= f).Copies part' := by
  intro c r hr
  obtain ⟨s, hs, hr⟩ := mem_bind hr
  obtain ⟨t, hrest, -⟩ := hp c s hs
  have hsuffix : s.2.rest <:+ c.rest := ⟨t, hrest.symm⟩
  exact (hf s.1 s.2 r hr).trans hsuffix.isInfix

/-- What is copied first may be handed on. -/
theorem Copies.bind (hp : p.Copies part) (hf : ∀ a, (f a).Yields fun b => part' b = part a) :
    (p >>= f).Copies part' := by
  intro c r hr
  obtain ⟨s, hs, hr⟩ := mem_bind hr
  rw [hf s.1 s.2 r hr]
  exact hp c s hs

/-- What is copied at the start of a text is a part of the text. -/
theorem Copies.of_matchStart? (hp : p.Copies part) {t : List Char} {a : α}
    (h : p.matchStart? t = some a) : part a <:+: t := by
  obtain ⟨r, hr, rfl⟩ := Option.map_eq_some_iff.mp h
  exact hp _ r (mem_toList_of_first? hr)

theorem Copies.of_search? (hp : p.Copies part) {t : List Char} {found : Found α}
    (h : p.search? t = some found) : part found.value <:+: t := by
  obtain ⟨k, hk, -⟩ := exists_advance_of_searchAt h
  have hcopied := hp _ _ (mem_toList_of_first? hk)
  rw [Cursor.rest_advance] at hcopied
  exact hcopied.trans (List.drop_suffix k t).isInfix

end Copies

end SourceSurvey.Pattern
