import SourceSurvey.Extract.Statement
import SourceSurvey.Proofs.Pattern.Preferred

/-!
# Names with an alias

What the mark of an alias cuts a text into. Main statements: a word without blanks is not cut, and
two words with the mark between them are the two pieces.
-/

namespace SourceSurvey.Extract

open Pattern

theorem head?_any_isSpace_of_solid {word : List Char} (h : Text.Solid word) (rest : List Char) :
    (word ++ rest).head?.any Text.isSpace = false := by
  cases word with
  | nil => exact absurd rfl h.1
  | cons c cs => exact h.2 c List.mem_cons_self

section Mark

variable {before after word word' : List Char}

/-- The pattern for `as` takes it with the blanks around it. -/
theorem takes_aliasMark (hbefore : before ≠ []) (hbefores : ∀ c ∈ before, Text.isSpace c = true)
    (hafter : after ≠ []) (hafters : ∀ c ∈ after, Text.isSpace c = true)
    (hword : Text.Solid word) :
    aliasMark.Takes (before ++ ("as".toList ++ (after ++ word))) () word := by
  have hnext := head?_any_isSpace_of_solid hword []
  rw [List.append_nil] at hnext
  unfold aliasMark
  refine (takes_blanks1 hbefore hbefores ?_).bind ((takes_lit "as" _).bind
    (takes_blanks1 hafter hafters hnext))
  exact head?_any_isSpace_of_solid (show Text.Solid "as".toList by decide) _

/-- An alias is introduced by blanks, so no other character begins its mark. -/
theorem refuses_aliasMark {t : List Char} (h : t.head?.any Text.isSpace = false) :
    aliasMark.Refuses t :=
  (refuses_blanks1 h).bind _

/-- No `as` is found in a word on its own. -/
theorem searchAt_aliasMark_of_solid (hword : Text.Solid word) (prev : Option Char) :
    aliasMark.searchAt prev word = none := by
  have hrefuses : ∀ c ∈ word, ∀ cs, aliasMark.Refuses (c :: cs) := by
    intro c hc cs
    exact refuses_aliasMark (hword.2 c hc)
  obtain ⟨last, hpast⟩ := searchAt_append_of_refuses hrefuses prev []
  rw [List.append_nil] at hpast
  rw [hpast, (refuses_aliasMark rfl).searchAt_nil, Option.map_none]

theorem splitOn_aliasMark_of_solid (hword : Text.Solid word) : aliasMark.splitOn word = [word] := by
  have hnone : aliasMark.searchAll word = [] :=
    searchUpTo_of_none (searchAt_aliasMark_of_solid hword none) _
  rw [splitOn, hnone]
  rfl

/-- A name with an alias is split into the two. -/
theorem splitOn_aliasMark (hword : Text.Solid word) (hbefore : before ≠ [])
    (hbefores : ∀ c ∈ before, Text.isSpace c = true) (hafter : after ≠ [])
    (hafters : ∀ c ∈ after, Text.isSpace c = true) (hword' : Text.Solid word') :
    aliasMark.splitOn (word ++ (before ++ ("as".toList ++ (after ++ word')))) = [word, word'] := by
  have hrefuses : ∀ c ∈ word, ∀ cs, aliasMark.Refuses (c :: cs) := by
    intro c hc cs
    exact refuses_aliasMark (hword.2 c hc)
  obtain ⟨last, hpast⟩ := searchAt_append_of_refuses hrefuses none
    (before ++ ("as".toList ++ (after ++ word')))
  obtain ⟨mark, last', hmark⟩ :=
    (takes_aliasMark hbefore hbefores hafter hafters hword').searchAt last
  rw [hmark, Option.map_some] at hpast
  dsimp only at hpast
  rw [List.append_nil] at hpast
  -- the mark is found once: behind it there is nothing but the alias
  have hlength : ∃ n, (word ++ (before ++ ("as".toList ++ (after ++ word')))).length = n + 1 := by
    refine Nat.exists_eq_add_one.mpr ?_
    have hpos := List.length_pos_iff.mpr hword.1
    rw [List.length_append]
    omega
  obtain ⟨n, hn⟩ := hlength
  have hall : aliasMark.searchAll (word ++ (before ++ ("as".toList ++ (after ++ word')))) =
      [⟨word, mark, (), ⟨last', word'⟩⟩] := by
    rw [searchAll, hn, searchUpTo_of_some hpast,
      searchUpTo_of_none (searchAt_aliasMark_of_solid hword' _)]
  rw [splitOn, hall]
  rfl

end Mark

end SourceSurvey.Extract
