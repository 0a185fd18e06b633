import SourceSurvey.Proofs.Failure.Refusal
import SourceSurvey.Proofs.Finding.Word
import SourceSurvey.Proofs.List.Distinct
import SourceSurvey.Summary.OfText

/-!
# Names that are listed once

What a file of code declares is listed without repetitions: the errors that it names, its constants,
the attributes of each type and what it connects to. Main statement: this holds of every file of
code and of its summary, and no error is listed that says nothing about its cause.
-/

namespace SourceSurvey

/-! ## Errors that say nothing -/

/-- The last part of a name has no parts itself. -/
theorem Text.afterLast_afterLast (separator : Char) (text : List Char) :
    afterLast separator (afterLast separator text) = afterLast separator text := by
  rw [afterLast, splitAt_of_not_mem (not_mem_afterLast separator text)]
  rfl

namespace Family

/-- The errors of a family that say nothing about their cause. -/
def plainErrors : Family → List String
  | .python => ["Exception", "BaseException"]
  | .javascript => ["Error"]
  | .php => ["Exception"]
  | .html | .css => []

/-- The sign between a name and what qualifies it. -/
def qualifier : Family → Char
  | .php => '\\'
  | _ => '.'

/-- The name, or its last part if it is qualified, is that of an error which says nothing. -/
def IsPlainError (family : Family) (name : String) : Prop :=
  String.ofList (Text.afterLast family.qualifier name.toList) ∈ family.plainErrors

/-- The last part of a name is no error that is passed over when it is not on the list. -/
theorem not_isPlainError {family : Family} {name : String} (text : List Char)
    (hname : name = .ofList (Text.afterLast family.qualifier text))
    (hplain : name ∉ family.plainErrors) : ¬ family.IsPlainError name := by
  intro h
  unfold IsPlainError at h
  rw [hname, String.toList_ofList, Text.afterLast_afterLast, ← hname] at h
  exact hplain h

end Family

namespace Extract

/-- A Python line reports no error that is passed over. -/
theorem Python.not_isPlainError_of_mem_errorsOf {code : Line} {name : String}
    (h : name ∈ errorsOf code) : ¬ Family.python.IsPlainError name := by
  obtain ⟨text, -, hname⟩ := List.mem_filterMap.mp h
  unfold errorName? at hname
  obtain ⟨hcond, hsome⟩ := Option.ite_none_right_eq_some.mp hname
  rw [Option.some_inj] at hsome
  refine Family.not_isPlainError (Text.trim text) hsome.symm ?_
  rw [← hsome]
  intro hplain
  simp only [Bool.and_eq_true, Bool.not_eq_true', List.contains_eq_mem,
    decide_eq_false_iff_not] at hcond
  exact hcond.2 hplain

/-- Nor does a line of a script. -/
theorem JavaScript.not_isPlainError_of_mem_errorsOf {code : Line} {name : String}
    (h : name ∈ errorsOf code) : ¬ Family.javascript.IsPlainError name := by
  unfold errorsOf at h
  rcases List.mem_append.mp h with hthrown | hcaught
  · obtain ⟨hfound, hname⟩ := List.mem_filter.mp hthrown
    obtain ⟨found, -, htext⟩ := List.mem_map.mp hfound
    refine Family.not_isPlainError found.value htext.symm ?_
    simpa [Family.plainErrors] using hname
  · obtain ⟨hfound, hname⟩ := List.mem_filter.mp hcaught
    obtain ⟨found, -, htext⟩ := List.mem_map.mp hfound
    refine Family.not_isPlainError found.value htext.symm ?_
    simp at hname
    simp [Family.plainErrors, hname]

/-- Nor does a line of PHP. -/
theorem Php.not_isPlainError_of_mem_errorsOf {code : Line} {name : String}
    (h : name ∈ errorsOf code) : ¬ Family.php.IsPlainError name := by
  obtain ⟨text, -, hname⟩ := List.mem_filterMap.mp h
  unfold errorName? at hname
  obtain ⟨hcond, hsome⟩ := Option.ite_none_left_eq_some.mp hname
  rw [Option.some_inj] at hsome
  refine Family.not_isPlainError (Text.trim text) hsome.symm ?_
  intro hplain
  rw [Family.plainErrors, List.mem_singleton, ← hsome] at hplain
  apply hcond
  rw [← String.toList_ofList (l := Text.afterLast _ _), hplain]
  simp

end Extract

/-! ## Files of code -/

/-- A file lists no name twice, and no error that says nothing about its cause. -/
structure Extraction.NamesOnce (found : Extraction) (family : Family) : Prop where
  errors : found.errorNames.Nodup
  globals : (found.globals.map (·.name)).Nodup
  attributes : ∀ t ∈ found.types, (t.attributes.map (·.name)).Nodup
  tells : ∀ name ∈ found.errorNames, ¬ family.IsPlainError name

namespace Extract

/-- No attribute of a Python class is named twice. -/
theorem Python.nodup_attributes_of_classAt? {p : Place} {t : TypeDeclaration}
    (h : classAt? p = some t) : (t.attributes.map (·.name)).Nodup := by
  unfold classAt? at h
  split at h
  · cases h
  · rw [Option.some_inj] at h
    subst h
    exact nodup_map_distinctBy _ _

/-- No attribute of a script class is named twice. -/
theorem JavaScript.nodup_attributes_of_classAt? {p : Place} {t : TypeDeclaration}
    (h : classAt? p = some t) : (t.attributes.map (·.name)).Nodup := by
  unfold classAt? at h
  split at h
  · cases h
  · rw [Option.some_inj] at h
    subst h
    exact nodup_map_distinctBy _ _

/-- No attribute of a PHP type is named twice. -/
theorem Php.nodup_attributes_of_typeAt? {p : Place} {t : TypeDeclaration}
    (h : typeAt? p = some t) : (t.attributes.map (·.name)).Nodup := by
  unfold typeAt? at h
  split at h
  · cases h
  · rw [Option.some_inj] at h
    subst h
    exact nodup_map_distinctBy _ _

end Extract

/-- A family of programming languages, neither pages nor stylesheets. -/
def Family.IsCode (family : Family) : Prop :=
  family = .python ∨ family = .javascript ∨ family = .php

instance (family : Family) : Decidable family.IsCode :=
  inferInstanceAs (Decidable (_ ∨ _))

/-- What is read place by place, each name at most once, is listed once. -/
theorem Extraction.namesOnce_of_places {found : Extraction} {family : Family} {ps : List Place}
    {slots : List Slot} {errorsOf : Line → List String}
    {typeAt? : Place → Option TypeDeclaration}
    (herrors : found.errorNames = Extract.distinct (ps.flatMap fun p => errorsOf p.code))
    (hglobals : found.globals = Extract.distinctBy (·.name) slots)
    (htypes : found.types = ps.filterMap typeAt?)
    (htells : ∀ code, ∀ name ∈ errorsOf code, ¬ family.IsPlainError name)
    (hattributes : ∀ p t, typeAt? p = some t → (t.attributes.map (·.name)).Nodup) :
    found.NamesOnce family where
  errors := by
    rw [herrors]
    apply Extract.nodup_distinct
  globals := by
    rw [hglobals]
    apply Extract.nodup_map_distinctBy
  attributes := by
    intro t ht
    rw [htypes] at ht
    obtain ⟨p, -, htype⟩ := List.mem_filterMap.mp ht
    exact hattributes p t htype
  tells := by
    intro name hname
    rw [herrors] at hname
    obtain ⟨p, -, herror⟩ := List.mem_flatMap.mp (Extract.mem_of_mem_distinct hname)
    exact htells p.code name herror

namespace Extract

theorem Python.namesOnce_extract (lines : List Line) : (extract lines).NamesOnce .python :=
  Extraction.namesOnce_of_places rfl rfl rfl (fun _ _ => not_isPlainError_of_mem_errorsOf)
    fun _ _ => nodup_attributes_of_classAt?

theorem JavaScript.namesOnce_extract (lines : List Line) :
    (extract lines).NamesOnce .javascript :=
  Extraction.namesOnce_of_places rfl rfl rfl (fun _ _ => not_isPlainError_of_mem_errorsOf)
    fun _ _ => nodup_attributes_of_classAt?

theorem Php.namesOnce_extract (lines : List Line) : (extract lines).NamesOnce .php :=
  Extraction.namesOnce_of_places rfl rfl rfl (fun _ _ => not_isPlainError_of_mem_errorsOf)
    fun _ _ => nodup_attributes_of_typeAt?

end Extract

namespace Family

/-- From code something is always extracted, and it names everything once. -/
theorem exists_extract_namesOnce {family : Family} (hcode : family.IsCode) (lines : List Line) :
    ∃ found, family.extract lines = .ok found ∧ found.NamesOnce family := by
  rcases hcode with rfl | rfl | rfl
  · exact ⟨_, rfl, Extract.Python.namesOnce_extract lines⟩
  · exact ⟨_, rfl, Extract.JavaScript.namesOnce_extract lines⟩
  · exact ⟨_, rfl, Extract.Php.namesOnce_extract lines⟩

/-- No connection is listed twice. -/
theorem nodup_connections (family : Family) (imports : List ImportStatement) :
    (family.connections imports).Nodup := by
  cases family <;> apply Extract.nodup_distinct

/-- A star stands for all names of a module, and is none itself. -/
theorem star_not_mem_connections (imports : List ImportStatement) :
    "*" ∉ Family.python.connections imports := by
  intro hstar
  have hkept := (List.mem_filter.mp (Extract.mem_of_mem_distinct hstar)).2
  simp at hkept

end Family

/-! ## Summaries -/

namespace Summary

/-- The summary of a text takes over what its file declares. -/
theorem exists_ofText_of_extract {text : List Char} {tag : String} {found : Extraction}
    (h : (Language.family tag).extract (Text.splitLines text) = .ok found) (fileName : String) :
    ∃ s, ofText text fileName tag = .ok s ∧ s.errorNames = found.errorNames ∧
      s.globals = found.globals ∧ s.types = found.types ∧
      s.connections = (Language.family tag).connections found.imports := by
  cases hs : ofText text fileName tag with
  | error e =>
    unfold ofText at hs
    dsimp only at hs
    rw [h] at hs
    cases hs
  | ok s =>
    unfold ofText at hs
    dsimp only at hs
    rw [h] at hs
    cases hs
    exact ⟨_, rfl, rfl, rfl, rfl, rfl⟩

/-- Every file of code lists each of its errors, constants, attributes and connections once, and
only errors that tell their cause. No module that it connects to is the star for all names. -/
theorem exists_ofText_namesOnce {tag : String} (hcode : (Language.family tag).IsCode)
    (text : List Char) (fileName : String) :
    ∃ found s, (Language.family tag).extract (Text.splitLines text) = .ok found ∧
      found.NamesOnce (Language.family tag) ∧
      ofText text fileName tag = .ok s ∧ s.errorNames = found.errorNames ∧
      s.globals = found.globals ∧ s.types = found.types ∧ s.connections.Nodup ∧
      (Language.family tag = .python → "*" ∉ s.connections) := by
  obtain ⟨found, hfound, honce⟩ :=
    Family.exists_extract_namesOnce hcode (Text.splitLines text)
  obtain ⟨s, hs, herrors, hglobals, htypes, hconnections⟩ :=
    exists_ofText_of_extract hfound fileName
  refine ⟨found, s, hfound, honce, hs, herrors, hglobals, htypes, ?_, ?_⟩
  · rw [hconnections]
    apply Family.nodup_connections
  · intro hpython
    rw [hconnections, hpython]
    apply Family.star_not_mem_connections

/-- A script that gives a class one field twice, and throws one error twice. -/
def repetitive : List Char :=
  "class A \x7b\n n = 1;\n n: t;\n\x7d\nthrow new a.E();throw new E();throw new Error();".toList

theorem exists_ofText_namesOnce_repetitive :
    (Language.family "typescript").IsCode ∧
    ∃ found s, Family.javascript.extract (Text.splitLines repetitive) = .ok found ∧
      found.NamesOnce .javascript ∧ found.errorNames = ["E"] ∧
      found.types.map (fun t => t.attributes.map (·.name)) = [["n"]] ∧
      ofText repetitive "a.ts" "typescript" = .ok s ∧ s.connections.Nodup := by
  have hcode : (Language.family "typescript").IsCode := by decide
  have herrors : (Extract.JavaScript.extract (Text.splitLines repetitive)).errorNames = ["E"] := by
    decide +kernel
  have hattributes : (Extract.JavaScript.extract (Text.splitLines repetitive)).types.map
      (fun t => t.attributes.map (·.name)) = [["n"]] := by
    decide +kernel
  obtain ⟨found, s, hfound, honce, hs, -, -, -, hconnections, -⟩ :=
    exists_ofText_namesOnce hcode repetitive "a.ts"
  have hextract := Except.ok.inj hfound
  refine ⟨hcode, found, s, hfound, honce, ?_, ?_, hs, hconnections⟩
  · rw [← hextract]
    exact herrors
  · rw [← hextract]
    exact hattributes

end Summary

end SourceSurvey
