import Mathlib.Data.List.Basic
import SourceSurvey.Mention
import SourceSurvey.Proofs.Text.Blank
import SourceSurvey.Text.Lines
import SourceSurvey.Text.Search

/-!
# Whole words

What it means that a text mentions a name: the name stands in it, and no name goes on from the
character before or into the character behind. A second account are the maximal runs of characters of
names, cut out of the text from left to right. Main statements: the search for mentions finds exactly
the places where a name stands; a name is one of the runs of a text exactly if it stands in the text
as a whole word, and it stands in joined lines exactly if it stands in one of them.
-/

namespace SourceSurvey

/-! ## Mentions -/

/-- A name can stand as a whole word between two parts of a text. -/
def IsApart (before after : List Char) : Prop :=
  before.getLast?.any Text.isNameChar = false ∧ after.head?.any Text.isNameChar = false

instance (before after : List Char) : Decidable (IsApart before after) :=
  inferInstanceAs (Decidable (_ ∧ _))

/-- The name stands in the text as a whole word. -/
def StandsIn (name text : List Char) : Prop :=
  ∃ before after, text = before ++ (name ++ after) ∧ IsApart before after

theorem isMentionAt_iff {name : List Char} {prev : Option Char} {text : List Char} :
    isMentionAt name prev text = true ↔
      ∃ after, text = name ++ after ∧ prev.any Text.isNameChar = false ∧
        after.head?.any Text.isNameChar = false := by
  unfold isMentionAt nameMayStart
  rw [Bool.and_eq_true, Bool.and_eq_true, Bool.not_eq_true', Bool.not_eq_true',
    List.isPrefixOf_iff_prefix]
  constructor
  · rintro ⟨⟨hprev, after, rfl⟩, hafter⟩
    rw [List.drop_left] at hafter
    exact ⟨after, rfl, hprev, hafter⟩
  · rintro ⟨after, rfl, hprev, hafter⟩
    rw [List.drop_left]
    exact ⟨⟨hprev, List.prefix_append name after⟩, hafter⟩

/-- The last character before the rest of a text is the first one where no other is. -/
theorem getLast?_cons_or (c : Char) (before : List Char) (prev : Option Char) :
    (c :: before).getLast?.or prev = before.getLast?.or (some c) := by
  rw [List.getLast?_cons]
  cases before.getLast? <;> rfl

theorem hasMentionFrom_iff {name : List Char} {prev : Option Char} {text : List Char} :
    hasMentionFrom name prev text = true ↔
      ∃ before after, text = before ++ (name ++ after) ∧
        (before.getLast?.or prev).any Text.isNameChar = false ∧
        after.head?.any Text.isNameChar = false := by
  induction text generalizing prev with
  | nil =>
    rw [hasMentionFrom, isMentionAt_iff]
    constructor
    · rintro ⟨after, htext, hprev, hafter⟩
      exact ⟨[], after, htext, hprev, hafter⟩
    · rintro ⟨before, after, htext, hprev, hafter⟩
      obtain ⟨rfl, -⟩ := List.append_eq_nil_iff.mp htext.symm
      exact ⟨after, htext, hprev, hafter⟩
  | cons c cs ih =>
    rw [hasMentionFrom, Bool.or_eq_true, isMentionAt_iff, ih]
    constructor
    · rintro (⟨after, htext, hprev, hafter⟩ | ⟨before, after, rfl, hprev, hafter⟩)
      · exact ⟨[], after, htext, hprev, hafter⟩
      · exact ⟨c :: before, after, rfl, (getLast?_cons_or c before prev).symm ▸ hprev, hafter⟩
    · rintro ⟨before, after, htext, hprev, hafter⟩
      cases before with
      | nil => exact .inl ⟨after, htext, hprev, hafter⟩
      | cons d before =>
        rw [List.cons_append, List.cons.injEq] at htext
        obtain ⟨rfl, rfl⟩ := htext
        exact .inr ⟨before, after, rfl, getLast?_cons_or c before prev ▸ hprev, hafter⟩

/-- A text mentions a name where the name stands in it as a whole word. -/
theorem hasMention_iff_standsIn {name text : List Char} :
    hasMention name text = true ↔ StandsIn name text := by
  rw [hasMention, hasMentionFrom_iff]
  simp only [Option.or_none]
  rfl

instance (name text : List Char) : Decidable (StandsIn name text) :=
  decidable_of_iff _ hasMention_iff_standsIn

/-! ## Maximal runs -/

/-- A character that no name has. -/
def endsWord (c : Char) : Bool :=
  !Text.isNameChar c

/-- The maximal runs of characters of names in a text, from left to right. -/
def nameRuns (text : List Char) : List (List Char) :=
  (Text.splitWhere endsWord text).filter (!·.isEmpty)

/-- Where no name goes on from the character before, a word stands if it is the run that begins
there. -/
theorem isMentionAt_iff_eq_takeWhile {name : List Char}
    (hname : ∀ c ∈ name, Text.isNameChar c = true) {prev : Option Char} {text : List Char} :
    isMentionAt name prev text = true ↔
      prev.any Text.isNameChar = false ∧ name = text.takeWhile Text.isNameChar := by
  rw [isMentionAt_iff, Text.eq_takeWhile_iff hname]
  exact ⟨fun ⟨after, htext, hprev, hafter⟩ => ⟨hprev, after, htext, hafter⟩,
    fun ⟨hprev, after, htext, hafter⟩ => ⟨after, htext, hprev, hafter⟩⟩

/-- A word is mentioned in a text if it is one of the pieces that begin there. -/
theorem hasMentionFrom_iff_mem_piecesFrom {name : List Char}
    (hname : ∀ c ∈ name, Text.isNameChar c = true) (prev : Option Char) (text : List Char) :
    hasMentionFrom name prev text = true ↔
      name ∈ Text.piecesFrom endsWord (prev.any Text.isNameChar) text := by
  have hrun : ∀ text : List Char,
      (text.takeWhile fun c => !endsWord c) = text.takeWhile Text.isNameChar := fun text => by
    simp only [endsWord, Bool.not_not]
  induction text generalizing prev with
  | nil =>
    rw [hasMentionFrom, isMentionAt_iff_eq_takeWhile hname]
    cases prev.any Text.isNameChar <;> simp [Text.piecesFrom, Text.splitWhere]
  | cons c cs ih =>
    rw [hasMentionFrom, Bool.or_eq_true, isMentionAt_iff_eq_takeWhile hname,
      Text.mem_piecesFrom_cons, hrun, endsWord, Bool.not_not]
    exact or_congr_right (ih (some c))

/-- The runs of a text are the words of characters of names that stand in it. -/
theorem mem_nameRuns_iff {name text : List Char} :
    name ∈ nameRuns text ↔
      name ≠ [] ∧ (∀ c ∈ name, Text.isNameChar c = true) ∧ StandsIn name text := by
  have hmention : (∀ c ∈ name, Text.isNameChar c = true) →
      (StandsIn name text ↔ name ∈ Text.splitWhere endsWord text) := fun hname => by
    rw [← hasMention_iff_standsIn, hasMention, hasMentionFrom_iff_mem_piecesFrom hname]
    rfl
  have hpiece : name ∈ Text.splitWhere endsWord text → ∀ c ∈ name, Text.isNameChar c = true := by
    intro h c hc
    have hend := Text.eq_false_of_mem_splitWhere h c hc
    simpa [endsWord] using hend
  have hne : (!name.isEmpty) = true ↔ name ≠ [] := by simp
  rw [nameRuns, List.mem_filter, hne]
  constructor
  · rintro ⟨hmem, hnil⟩
    exact ⟨hnil, hpiece hmem, (hmention (hpiece hmem)).mpr hmem⟩
  · rintro ⟨hnil, hname, hstands⟩
    exact ⟨(hmention hname).mp hstands, hnil⟩

/-! ## Joined lines -/

theorem standsIn_append_lineFeed {name : List Char} (hfeed : '\n' ∉ name) (hne : name ≠ [])
    (line rest : List Char) :
    StandsIn name (line ++ '\n' :: rest) ↔ StandsIn name line ∨ StandsIn name rest := by
  have hend : Text.isNameChar '\n' = false := by decide
  constructor
  · rintro ⟨before, after, htext, hbefore, hafter⟩
    rcases List.append_eq_append_iff.mp htext with ⟨inside, rfl, hinside⟩ | ⟨more, rfl, hmore⟩
    · -- the name begins behind the line, so it begins behind the line feed
      right
      cases inside with
      | nil =>
        exfalso
        obtain ⟨c, cs, rfl⟩ := List.exists_cons_of_ne_nil hne
        have hc : '\n' = c := (List.cons.inj hinside).1
        exact hfeed (hc ▸ List.mem_cons_self)
      | cons c inside =>
        obtain ⟨rfl, rfl⟩ := List.cons.inj hinside
        refine ⟨inside, after, rfl, ?_, hafter⟩
        rw [List.getLast?_append_cons] at hbefore
        cases inside with
        | nil => rfl
        | cons d inside => simpa using hbefore
    · -- the name begins in the line, so it ends there
      left
      rcases List.append_eq_append_iff.mp hmore with ⟨tail, rfl, htail⟩ | ⟨gap, hgap, hrest⟩
      · refine ⟨before, tail, rfl, hbefore, ?_⟩
        cases tail with
        | nil => rfl
        | cons c tail =>
          rw [htail] at hafter
          exact hafter
      · cases gap with
        | nil =>
          rw [List.append_nil] at hgap
          exact ⟨before, [], by rw [hgap, List.append_nil], hbefore, rfl⟩
        | cons c gap =>
          obtain ⟨rfl, -⟩ := List.cons.inj hrest
          exact absurd (hgap ▸ List.mem_append_right more List.mem_cons_self) hfeed
  · -- a line feed is no character of a name, so names stay apart from it
    rintro (⟨before, after, rfl, hbefore, hafter⟩ | ⟨before, after, rfl, hbefore, hafter⟩)
    · refine ⟨before, after ++ '\n' :: rest, by simp, hbefore, ?_⟩
      cases after with
      | nil => exact hend
      | cons c after => exact hafter
    · refine ⟨line ++ '\n' :: before, after, by simp, ?_, hafter⟩
      rw [List.getLast?_append_cons, List.getLast?_cons]
      cases hlast : before.getLast? with
      | none => exact hend
      | some c => rwa [hlast] at hbefore

/-- A name stands in joined lines if it stands in one of them. -/
theorem standsIn_joinLines_iff {name : List Char} (hfeed : '\n' ∉ name) (hne : name ≠ [])
    (lines : List Line) :
    StandsIn name (Text.joinLines lines) ↔ ∃ line ∈ lines, StandsIn name line := by
  unfold Text.joinLines
  induction lines with
  | nil =>
    have hempty : ¬ StandsIn name [] := by
      rintro ⟨before, after, htext, -⟩
      simp at htext
      exact hne htext.2.1
    simpa using hempty
  | cons line lines ih =>
    cases lines with
    | nil => simp
    | cons next lines =>
      rw [List.intercalate_cons_cons, List.append_assoc, List.singleton_append,
        standsIn_append_lineFeed hfeed hne, ih]
      simp

end SourceSurvey
