import Mathlib.Data.List.Induction
import SourceSurvey.Finding.Unused
import SourceSurvey.Proofs.Finding.Declaration
import SourceSurvey.Proofs.Text.LineEnd

/-!
# References to routines

Unused routines are sought in the text of all lines but their own, without the heads of
declarations. Main statement: a routine whose name stands on another line as a whole word is not
reported, unless a head reaches into the name. That happens where the characters of a keyword and
blanks are before it, also at the end of a longer word and on the line above.
-/

namespace SourceSurvey.Unused

/-! ## The text around a line -/

/-- The lines, numbered from the first, without the one of the routine. -/
def others (own first : Nat) (lines : List Line) : List Line :=
  ((lines.zipIdx first).filter fun q => !(q.2 == own)).map (·.1)

/-- The text above a line, without the line of the routine. -/
def textAbove (own : Nat) (lines : List Line) : List Char :=
  (others own 1 lines).flatMap (· ++ ['\n'])

/-- The text below a line, without the line of the routine. -/
def textBelow (own first : Nat) (lines : List Line) : List Char :=
  (others own first lines).flatMap ('\n' :: ·)

theorem joinLines_append_cons (above : List Line) (line : Line) (below : List Line) :
    Text.joinLines (above ++ line :: below) =
      above.flatMap (· ++ ['\n']) ++ (line ++ below.flatMap ('\n' :: ·)) := by
  induction above with
  | nil => exact Text.joinLines_cons line below
  | cons first above ih =>
    have hne : above ++ line :: below ≠ [] := by
      exact List.append_ne_nil_of_right_ne_nil above (List.cons_ne_nil line below)
    obtain ⟨next, rest, hnext⟩ := List.exists_cons_of_ne_nil hne
    rw [List.cons_append, List.flatMap_cons, List.append_assoc, ← ih, hnext,
      Text.joinLines_cons_cons, List.append_assoc]
    rfl

theorem others_append_cons {own : Nat} {above : List Line} (h : above.length + 1 ≠ own)
    (line : Line) (below : List Line) :
    others own 1 (above ++ line :: below) =
      others own 1 above ++ line :: others own (above.length + 2) below := by
  have hnumber : 1 + above.length = above.length + 1 := Nat.add_comm ..
  have hkeep : (!(above.length + 1 == own)) = true := by
    rw [beq_false_of_ne h]
    rfl
  unfold others
  rw [List.zipIdx_append, hnumber, List.zipIdx_cons, List.filter_append, List.filter_cons,
    if_pos hkeep, List.map_append, List.map_cons]

/-- A line that is not the routine's own stands in the text with the other lines around it. -/
theorem textWithout_append_cons {own : Nat} {above : List Line} (h : above.length + 1 ≠ own)
    (line : Line) (below : List Line) :
    textWithout (· == own) (above ++ line :: below) =
      textAbove own above ++ (line ++ textBelow own (above.length + 2) below) := by
  show Text.joinLines (others own 1 (above ++ line :: below)) = _
  rw [others_append_cons h, joinLines_append_cons]
  rfl

/-! ## Routines that other lines refer to -/

/-- What stands apart on its line does so in the text around the line. -/
theorem isApart_textAbove {own : Nat} {above : List Line} {before after : List Char}
    (h : IsApart before after) {below : List Line} {first : Nat} :
    IsApart (textAbove own above ++ before) (after ++ textBelow own first below) := by
  have hfeed : Text.isNameChar '\n' = false := by decide
  refine ⟨?_, ?_⟩
  · have habove : (textAbove own above).getLast?.any Text.isNameChar = false := by
      unfold textAbove
      induction others own 1 above using List.reverseRecOn with
      | nil => rfl
      | append_singleton lines line ih =>
        rw [List.flatMap_append, List.flatMap_singleton, ← List.append_assoc,
          List.getLast?_concat]
        exact hfeed
    have hbefore := h.1
    rw [List.getLast?_append]
    cases hlast : before.getLast? with
    | none => exact habove
    | some c =>
      rw [hlast] at hbefore
      exact hbefore
  · cases after with
    | nil =>
      unfold textBelow
      cases others own first below with
      | nil => rfl
      | cons line lines => exact hfeed
    | cons c after => exact h.2

/-- An unused import is reported as an import. -/
theorem kind_of_mem_imports {code : List Line} {declared : List ImportStatement} {u : UnusedName}
    (h : u ∈ imports code declared) : u.kind = .imported := by
  obtain ⟨i, -, hi⟩ := List.mem_flatMap.mp h
  obtain ⟨name, -, rfl⟩ := List.mem_map.mp hi
  rfl

/-- An unused constant is reported as a constant. -/
theorem kind_of_mem_globals {lines code : List Line} {declared : List Slot} {u : UnusedName}
    (h : u ∈ globals lines code declared) : u.kind = .constant := by
  obtain ⟨slot, -, hslot⟩ := List.mem_filterMap.mp h
  dsimp only at hslot
  split at hslot
  · cases hslot
  · split at hslot
    · cases hslot
    · cases hslot
      rfl

/-- Of routines with one name and one line all are reported or none. -/
theorem isUsedIn_eq_false_of_mem_ofLines {lines : List Line} {found : Extraction}
    {style : CommentRules} {name : String} {own : Nat}
    (h : ⟨name, .routine, own⟩ ∈ ofLines lines found style) :
    isUsedIn name.toList (textWithout (· == own) lines) = false := by
  rw [ofLines, List.mem_append, List.mem_append] at h
  rcases h with (h | h) | h
  · cases kind_of_mem_imports h
  · obtain ⟨c, hc, heq⟩ := List.mem_map.mp h
    have htest := (List.mem_filter.mp hc).2
    cases heq
    rw [Bool.and_eq_true, Bool.not_eq_true'] at htest
    exact htest.2
  · cases kind_of_mem_globals h

/-- A routine whose name stands on another line as a whole word is not reported, unless the head of
a declaration reaches into the name. -/
theorem not_mem_ofLines_of_isApart {above below : List Line} {before after : List Char}
    {c : Routine} (hline : above.length + 1 ≠ c.line) (hidentifier : IsIdentifier c.name.toList)
    (hapart : IsApart before after) (hfront : ¬ LeadsIntoName (textAbove c.line above ++ before))
    (hback : ¬ EndsInKeyword c.name.toList
      (after ++ textBelow c.line (above.length + 2) below))
    (found : Extraction) (style : CommentRules) :
    ⟨c.name, .routine, c.line⟩ ∉
      ofLines (above ++ (before ++ (c.name.toList ++ after)) :: below) found style := by
  have hplain : IsPlain (textAbove c.line above ++ before) c.name.toList
      (after ++ textBelow c.line (above.length + 2) below) :=
    ⟨hidentifier, isApart_textAbove hapart, hfront, hback⟩
  have hmention := hplain.hasMention_dropDeclarations
  intro hmem
  have hunused := isUsedIn_eq_false_of_mem_ofLines hmem
  rw [isUsedIn, textWithout_append_cons hline] at hunused
  simp only [List.append_assoc] at hmention hunused
  rw [hmention, Bool.or_true] at hunused
  cases hunused

/-- A function that is handed over without a call. -/
theorem not_mem_ofLines_of_isApart_argument :
    ⟨"on_done", .routine, 1⟩ ∉
      ofLines (["def on_done():", "    pass", "", "register(on_done)"].map String.toList)
        { routines := [{ name := "on_done", line := 1 }] } .hash := by
  have hlast : (textAbove 1 (["def on_done():", "    pass", ""].map String.toList) ++
      "register(".toList).getLast? = some '(' := by decide
  have hlines : ["def on_done():", "    pass", "", "register(on_done)"].map String.toList =
      ["def on_done():", "    pass", ""].map String.toList ++
        ["register(".toList ++ ("on_done".toList ++ ")".toList)] := by decide
  have hback : ¬ EndsInKeyword "on_done".toList (")".toList ++ textBelow 1 5 []) := by
    rintro ⟨-, hspace⟩
    revert hspace
    decide
  rw [hlines]
  exact not_mem_ofLines_of_isApart (c := { name := "on_done", line := 1 }) (by decide)
    ⟨by decide, List.all_eq_true.mp (by decide)⟩ ⟨by decide, by decide⟩
    (not_leadsIntoName_of_getLast? hlast (by decide) (by decide)) hback _ _

/-- A keyword stands before as a whole word, with blanks behind it. -/
def followsKeyword (front : List Char) : Bool :=
  let word := Text.trimEnd front
  word.length < front.length && namingKeywords.any fun k =>
    Text.endsWith word k.toList &&
      !((word.take (word.length - k.length)).getLast?.any Text.isNameChar)

/-- That no keyword stands before the name as a whole word is not enough: a longer word that ends in
one, on the line above, takes the name away. -/
theorem not_forall_not_mem_ofLines :
    ¬ ∀ (above below : List Line) (before after : List Char) (c : Routine) (found : Extraction)
      (style : CommentRules), c ∈ found.routines → above.length + 1 ≠ c.line →
      IsIdentifier c.name.toList → IsApart before after →
      followsKeyword (above.flatMap (· ++ ['\n']) ++ before) = false →
      ⟨c.name, .routine, c.line⟩ ∉
        ofLines (above ++ (before ++ (c.name.toList ++ after)) :: below) found style := by
  intro hclaim
  refine hclaim (["def on_done():", "    pass", "", "handler = is_function"].map String.toList) []
    [] ".handler = handler".toList { name := "on_done", line := 1 }
    { routines := [{ name := "on_done", line := 1 }] } .hash (by decide) (by decide)
    ⟨by decide, List.all_eq_true.mp (by decide)⟩ ⟨by decide, by decide⟩ (by decide) ?_
  rw [ofLines, List.mem_append, List.mem_append]
  exact .inl (.inr (by decide))

end SourceSurvey.Unused
