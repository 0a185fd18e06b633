import SourceSurvey.Proofs.Extract.Section
import SourceSurvey.Summary.OfText

/-!
# Texts without a summary

Main statement: a text has a summary under every file name and every tag, unless it is read as a
page and one of its stripped lines opens a section without an identifier whose class is blank.
-/

namespace SourceSurvey

open Extract.Html (OpensNameless)

/-- Only a page can be refused. -/
theorem Family.extract_eq_error_iff (family : Family) (lines : List Line) (e : Failure) :
    family.extract lines = .error e ↔ e = .fault .missingMember ∧ family = .html ∧
      ∃ line ∈ CommentRules.markup.strip lines, OpensNameless line := by
  cases family with
  | html =>
    have hpage := Extract.Html.extract_eq_error_iff lines e
    constructor
    · intro h
      obtain ⟨he, hline⟩ := hpage.mp h
      exact ⟨he, rfl, hline⟩
    · rintro ⟨he, -, hline⟩
      exact hpage.mpr ⟨he, hline⟩
  -- the other extractors give a value outright
  | python | javascript | php | css =>
    refine iff_of_false nofun ?_
    rintro ⟨-, h, -⟩
    cases h

theorem ofText_eq_error_iff (text : List Char) (fileName tag : String) (e : Failure) :
    Summary.ofText text fileName tag = .error e ↔
      (Language.family tag).extract (Text.splitLines text) = .error e := by
  unfold Summary.ofText
  dsimp only
  cases (Language.family tag).extract (Text.splitLines text) with
  | error e' =>
    constructor
    · intro h
      cases h
      rfl
    · intro h
      cases h
      rfl
  | ok found =>
    constructor
    · intro h
      cases h
    · intro h
      cases h

/-- A text has a summary exactly when it is not a page that opens a section without a name. -/
theorem exists_ofText_eq_ok_iff (text : List Char) (fileName tag : String) :
    (∃ s, Summary.ofText text fileName tag = .ok s) ↔
      ¬ (Language.family tag = .html ∧
        ∃ line ∈ CommentRules.markup.strip (Text.splitLines text), OpensNameless line) := by
  cases hresult : Summary.ofText text fileName tag with
  | ok s =>
    refine iff_of_true ⟨s, rfl⟩ fun hrefused => ?_
    have herror := (Family.extract_eq_error_iff _ _ _).mpr ⟨rfl, hrefused⟩
    rw [(ofText_eq_error_iff text fileName tag _).mpr herror] at hresult
    cases hresult
  | error e =>
    have herror := (ofText_eq_error_iff text fileName tag e).mp hresult
    refine iff_of_false ?_ fun h => h ((Family.extract_eq_error_iff _ _ _).mp herror).2
    rintro ⟨s, h⟩
    cases h

/-- A class of one blank. -/
theorem not_exists_ofText_blank_class :
    ¬ ∃ s, Summary.ofText "<div class=\" \">\n".toList "boom.html" "html" = .ok s := by
  have hstrip : CommentRules.markup.strip (Text.splitLines "<div class=\" \">\n".toList) =
      ["<div class=\" \">".toList] := by rfl
  have htag : Extract.Html.sectionTag.matchStart? (Text.trim "<div class=\" \">".toList) =
      some ("div".toList, " class=\" \"".toList) := by rfl
  have hslots : Extract.Html.attributes " class=\" \"".toList =
      [⟨"class", "attribute", some " "⟩] := by rfl
  have hblank : Extract.Html.HasBlankClass [⟨"class", "attribute", some " "⟩] :=
    ⟨nofun, [' '], rfl, List.cons_ne_nil _ _, rfl⟩
  have hopens : OpensNameless "<div class=\" \">".toList := ⟨_, _, htag, hslots ▸ hblank⟩
  have hrefused : Family.html.extract (Text.splitLines "<div class=\" \">\n".toList) =
      .error (.fault .missingMember) := by
    refine (Family.extract_eq_error_iff _ _ _).mpr ⟨rfl, rfl, _, ?_, hopens⟩
    rw [hstrip]
    exact List.mem_cons_self
  rintro ⟨s, h⟩
  rw [(ofText_eq_error_iff _ "boom.html" "html" _).mpr hrefused] at h
  cases h

end SourceSurvey
