import SourceSurvey.Extract.Html
import SourceSurvey.Proofs.Failure.Refusal
import SourceSurvey.Proofs.Place.Number

/-!
# Sections of a page

A section is named by its identifier or else by its first class, and a class of blanks only has no
first one. Main statement: a page is read unless one of its lines opens such a section, and this is
the only way in which it is not.
-/

namespace SourceSurvey

/-! ## Names of sections -/

theorem Text.fields_eq_nil_iff (text : List Char) :
    Text.fields text = [] ↔ Text.isBlank text = true := by
  induction text with
  | nil => exact iff_of_true rfl rfl
  | cons c cs ih =>
    rw [Text.isBlank, List.all_cons, Text.fields, Text.splitWhere]
    cases hspace : Text.isSpace c with
    | true => exact ih
    | false =>
      refine iff_of_false ?_ Bool.false_ne_true
      cases Text.splitWhere Text.isSpace cs <;> simp

namespace Extract.Html

/-- The attributes give a section no identifier and a class of nothing but blanks. -/
def HasBlankClass (attributes : List Slot) : Prop :=
  (∀ id, valueOf? "id" attributes = some id → id = []) ∧
    ∃ classes, valueOf? "class" attributes = some classes ∧ classes ≠ [] ∧
      Text.isBlank classes = true

/-- The line opens a section that its attributes give no name. -/
def OpensNameless (line : Line) : Prop :=
  ∃ tag text, sectionTag.matchStart? (Text.trim line) = some (tag, text) ∧
    HasBlankClass (attributes text)

/-- A line that starts no section opens no tag without a name. -/
theorem not_opensNameless {line : Line} (h : sectionTag.matchStart? (Text.trim line) = none) :
    ¬ OpensNameless line := by
  rintro ⟨tag, text, hmatch, -⟩
  rw [h] at hmatch
  cases hmatch

theorem filter_nonempty_eq_none_iff (value : Option (List Char)) :
    value.filter (!·.isEmpty) = none ↔ ∀ text, value = some text → text = [] := by
  simp [Option.filter_eq_none_iff]

/-- A section has a name unless its class is blank, and a blank class is reported as a missing
member. -/
theorem sectionName_eq_error_iff (tag : List Char) (slots : List Slot) (e : Failure) :
    sectionName tag slots = .error e ↔ e = .fault .missingMember ∧ HasBlankClass slots := by
  unfold sectionName HasBlankClass
  -- an identifier comes before a class, and empty ones count as none
  cases hid : (valueOf? "id" slots).filter (!·.isEmpty) with
  | some id =>
    refine iff_of_false nofun fun h => ?_
    rw [(filter_nonempty_eq_none_iff _).mpr h.2.1] at hid
    cases hid
  | none =>
    cases hclass : (valueOf? "class" slots).filter (!·.isEmpty) with
    | none =>
      refine iff_of_false nofun fun h => ?_
      obtain ⟨-, -, classes, hvalue, hne, -⟩ := h
      exact hne ((filter_nonempty_eq_none_iff _).mp hclass classes hvalue)
    | some classes =>
      obtain ⟨hvalue, hne⟩ := Option.filter_eq_some_iff.mp hclass
      dsimp only
      cases hfields : Text.fields classes with
      | nil =>
        have hblank := (Text.fields_eq_nil_iff classes).mp hfields
        have hnonempty : classes ≠ [] := by
          rintro rfl
          cases hne
        constructor
        · intro h
          cases h
          exact ⟨rfl, (filter_nonempty_eq_none_iff _).mp hid, classes, hvalue, hnonempty, hblank⟩
        · rintro ⟨rfl, -⟩
          rfl
      | cons first others =>
        refine iff_of_false nofun fun h => ?_
        obtain ⟨-, -, classes', hvalue', -, hblank⟩ := h
        rw [hvalue] at hvalue'
        cases hvalue'
        rw [(Text.fields_eq_nil_iff classes).mpr hblank] at hfields
        cases hfields

/-- A section fails to be read only where a tag has a class without a name. -/
theorem sectionAt?_eq_error_iff (p : Place) (e : Failure) :
    sectionAt? p = .error e ↔ e = .fault .missingMember ∧ OpensNameless p.code := by
  unfold sectionAt? OpensNameless
  cases hmatch : sectionTag.matchStart? (Text.trim p.code) with
  | none =>
    refine iff_of_false nofun ?_
    rintro ⟨-, tag, text, h, -⟩
    cases h
  | some found =>
    obtain ⟨written, text⟩ := found
    have hname := sectionName_eq_error_iff (Text.lower written) (attributes text) e
    constructor
    · intro h
      dsimp only at h
      cases hresult : sectionName (Text.lower written) (attributes text) with
      | ok name =>
        rw [hresult] at h
        cases h
      | error e' =>
        rw [hresult] at h hname
        cases h
        obtain ⟨he, hblank⟩ := hname.mp rfl
        exact ⟨he, written, text, rfl, hblank⟩
    · rintro ⟨he, tag, text', hsame, hblank⟩
      cases hsame
      dsimp only
      rw [hname.mpr ⟨he, hblank⟩]
      rfl

/-- A page is refused exactly when one of its stripped lines opens a section without a name. -/
theorem extract_eq_error_iff (lines : List Line) (e : Failure) :
    extract lines = .error e ↔ e = .fault .missingMember ∧
      ∃ line ∈ CommentRules.markup.strip lines, OpensNameless line := by
  have hcodes : (places (sourceLines .markup lines)).map Place.code =
      CommentRules.markup.strip lines := by
    rw [map_code_places, map_code_sourceLines]
  -- the links and scripts of a page are never refused, so its sections decide
  have hrefused : extract lines = .error e ↔
      (places (sourceLines .markup lines)).mapM sectionAt? = .error e := by
    unfold extract
    dsimp only
    cases (places (sourceLines .markup lines)).mapM sectionAt? with
    | error e' =>
      constructor
      · intro h
        cases h
        rfl
      · intro h
        cases h
        rfl
    | ok sections => exact iff_of_false nofun nofun
  rw [hrefused, ← hcodes]
  constructor
  · intro h
    obtain ⟨p, hp, hfail⟩ := exists_of_mapM_eq_error h
    obtain ⟨he, hopens⟩ := (sectionAt?_eq_error_iff p e).mp hfail
    exact ⟨he, p.code, List.mem_map_of_mem hp, hopens⟩
  · rintro ⟨rfl, line, hline, hopens⟩
    obtain ⟨p, hp, rfl⟩ := List.mem_map.mp hline
    cases hall : (places (sourceLines .markup lines)).mapM sectionAt? with
    -- the first section that is refused may be another one, but the failure is the same
    | error e' =>
      obtain ⟨q, -, hfail⟩ := exists_of_mapM_eq_error hall
      rw [((sectionAt?_eq_error_iff q e').mp hfail).1]
    | ok sections =>
      obtain ⟨section?, hsection⟩ := exists_mapM_eq_ok_iff.mp ⟨sections, hall⟩ p hp
      rw [(sectionAt?_eq_error_iff p _).mpr ⟨rfl, hopens⟩] at hsection
      cases hsection

/-- So it is read exactly when none of them does. -/
theorem exists_extract_eq_ok_iff (lines : List Line) :
    (∃ e, extract lines = .ok e) ↔
      ∀ line ∈ CommentRules.markup.strip lines, ¬ OpensNameless line := by
  cases hpage : extract lines with
  | ok e =>
    refine iff_of_true ⟨e, rfl⟩ fun line hline hnameless => ?_
    rw [(extract_eq_error_iff lines _).mpr ⟨rfl, line, hline, hnameless⟩] at hpage
    cases hpage
  | error failure =>
    obtain ⟨-, line, hline, hnameless⟩ := (extract_eq_error_iff lines failure).mp hpage
    refine iff_of_false ?_ fun h => h line hline hnameless
    rintro ⟨e, he⟩
    cases he

end Extract.Html

end SourceSurvey
