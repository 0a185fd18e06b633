import SourceSurvey.Package.Manifest
import SourceSurvey.Proofs.Failure.Refusal
import SourceSurvey.Proofs.Value.Shape
import SourceSurvey.Proofs.Workspace.Link
import SourceSurvey.Value.Readers

/-!
# Manifests of an unexpected shape

A manifest that is no text, or whose text is no document, counts as none, but its document has to be
of the shape that its kind asks for. Main statement: whatever the readers of the formats do, a
manifest is read, to its packages or to none, exactly when its text is malformed or the document
that it writes has this shape.
-/

namespace SourceSurvey.Manifest

open Value (IsMapping IsText IsWritable HasLetterCase HasTextKeys HasMembers AtKey AllValues
  AllMembers)

variable {P : Value → Prop} {key : String} {v default : Value} {readers : DocumentReaders}

/-! ## Parts of documents -/

/-- An entry can be looked up in a mapping only. -/
theorem exists_entryOr_iff (hdefault : P default) :
    (∃ w, entryOr default key v = .ok w ∧ P w) ↔ v.AtKey key P := by
  cases v with
  | mapping entries =>
    rw [Value.atKey_mapping_iff, ← Value.getD_entry?_iff hdefault]
    constructor
    · rintro ⟨w, h, hw⟩
      cases h
      exact hw
    · intro h
      exact ⟨_, rfl, h⟩
  | null | bool | int | float | string | bytes | moment | list | set | pair =>
    refine iff_of_false ?_ ?_
    · rintro ⟨w, h, -⟩
      cases h
    · rintro ⟨entries, h, -⟩
      cases h

/-- A section is read where the value is a table, and a missing one is empty. -/
theorem exists_sectionOf_and_iff (hdefault : P (.mapping [])) :
    (∃ w, sectionOf key v = .ok w ∧ P w) ↔ v.AtKey key P :=
  exists_entryOr_iff hdefault

/-- A section is read of every table. -/
theorem exists_sectionOf_iff : (∃ w, sectionOf key v = .ok w) ↔ v.IsMapping := by
  unfold sectionOf entryOr IsMapping
  cases v <;> simp

/-- Members are read of every value that has some. -/
theorem exists_members_iff : (∃ items, members v = .ok items) ↔ v.HasMembers := by
  unfold members HasMembers
  cases v.members? with
  | some items => exact iff_of_true ⟨items, rfl⟩ ⟨items, rfl⟩
  | none => exact iff_of_false (by rintro ⟨_, h⟩; cases h) (by rintro ⟨_, h⟩; cases h)

/-- Members with a property are read where all members have it. -/
theorem exists_members_and_iff :
    (∃ items, members v = .ok items ∧ ∀ item ∈ items, P item) ↔ v.AllMembers P := by
  unfold members AllMembers
  cases v.members? <;> simp

/-- Values with a property are read where all values have it. -/
theorem exists_values_iff :
    (∃ items, values v = .ok items ∧ ∀ item ∈ items, P item) ↔ v.AllValues P := by
  cases v with
  | mapping entries =>
    constructor
    · rintro ⟨items, h, hitems⟩
      cases h
      exact ⟨entries, rfl, List.forall_mem_map.mp hitems⟩
    · rintro ⟨entries', h, hentries⟩
      cases h
      exact ⟨_, rfl, List.forall_mem_map.mpr hentries⟩
  | null | bool | int | float | string | bytes | moment | list | set | pair =>
    simp [values, AllValues]

/-- Whether a value names a package is told where it has letters to compare. -/
theorem exists_isPackageName_iff : (∃ b, isPackageName v = .ok b) ↔ v.HasLetterCase := by
  unfold isPackageName HasLetterCase IsText
  cases v <;> simp

/-- Whether a value names no platform is told of texts only. -/
theorem exists_isNoPlatform_iff : (∃ b, isNoPlatform v = .ok b) ↔ v.IsText := by
  unfold isNoPlatform IsText
  cases v <;> simp

/-! ## Shapes of the kinds -/

/-- A table of requirements, and one of lists of them for extras. -/
def IsRequirementTable (project : Value) : Prop :=
  project.AtKey "dependencies" HasMembers ∧
    project.AtKey "optional-dependencies" (AllValues HasMembers)

/-- A table of packages by their names, one of those for development, and groups of more. -/
def IsPackageTable (tool : Value) : Prop :=
  tool.AtKey "dependencies" (AllMembers HasLetterCase) ∧ tool.AtKey "dev-dependencies" HasMembers ∧
    tool.AtKey "group" (AllValues (AtKey "dependencies" HasMembers))

/-- An entry of an environment that is a mapping lists requirements that can be written, if it has
any. -/
def IsEnvironmentEntry (entry : Value) : Prop :=
  entry.IsMapping → entry.AtKey "pip" (AllMembers IsWritable)

/-- The document of a manifest has the shape that its kind asks for. -/
def Kind.HasShape : Kind → Value → Prop
  | .requirements, _ => True
  | .project, document =>
    document.AtKey "project" IsRequirementTable ∧
      document.AtKey "tool" (AtKey "poetry" IsPackageTable)
  | .environment, document =>
    document.IsMapping → document.AtKey "dependencies" (AllMembers IsEnvironmentEntry)
  | .script, document => document.IsMapping
  | .composer, document =>
    document.AtKey "require" HasTextKeys ∧ document.AtKey "require-dev" HasTextKeys

theorem isRequirementTable_nil : IsRequirementTable (.mapping []) :=
  ⟨Value.atKey_nil, Value.atKey_nil⟩

theorem isPackageTable_nil : IsPackageTable (.mapping []) :=
  ⟨Value.atKey_nil, Value.atKey_nil, Value.atKey_nil⟩

/-! ## Projects -/

/-- The table of a project has the shape of requirements when they can all be read. -/
theorem isRequirementTable_iff {project : Value} :
    IsRequirementTable project ↔
      (∃ w, entryOr (.list []) "dependencies" project = .ok w ∧
        ∃ items, members w = .ok items) ∧
      ∃ w, sectionOf "optional-dependencies" project = .ok w ∧
        ∃ lists, values w = .ok lists ∧ ∃ found, lists.mapM members = .ok found := by
  simp only [exists_mapM_eq_ok_iff, exists_members_iff, exists_values_iff]
  rw [exists_entryOr_iff (Value.hasMembers_list []), exists_sectionOf_and_iff Value.allValues_nil]
  rfl

/-- The table of a tool has the shape of packages when they can all be read. -/
theorem isPackageTable_iff {tool : Value} :
    IsPackageTable tool ↔
      (∃ w, sectionOf "dependencies" tool = .ok w ∧
        ∃ items, members w = .ok items ∧ ∃ found, items.filterM isPackageName = .ok found) ∧
      (∃ w, sectionOf "dev-dependencies" tool = .ok w ∧ ∃ items, members w = .ok items) ∧
      ∃ w, sectionOf "group" tool = .ok w ∧ ∃ groups, values w = .ok groups ∧
        ∃ found, (groups.mapM fun group => do
          members (← sectionOf "dependencies" group)) = .ok found := by
  simp only [exists_mapM_eq_ok_iff, exists_filterM_eq_ok_iff, exists_bind_eq_ok_iff,
    exists_isPackageName_iff, exists_members_and_iff, exists_members_iff, exists_values_iff,
    exists_sectionOf_and_iff (Value.hasMembers_mapping []),
    exists_sectionOf_and_iff Value.allMembers_mapping_nil,
    exists_sectionOf_and_iff Value.allValues_nil]
  rfl

/-- A project is read when it has the shape of one. -/
theorem exists_ofProject_iff (document : Value) :
    (∃ found, ofProject document = .ok found) ↔ Kind.project.HasShape document := by
  show _ ↔ document.AtKey "project" IsRequirementTable ∧
    document.AtKey "tool" (AtKey "poetry" IsPackageTable)
  rw [← exists_sectionOf_and_iff isRequirementTable_nil,
    ← exists_sectionOf_and_iff Value.atKey_nil]
  simp only [← exists_sectionOf_and_iff isPackageTable_nil, isRequirementTable_iff,
    isPackageTable_iff]
  unfold ofProject
  simp only [exists_bind_eq_ok_iff, exists_pure_eq_ok, and_true]
  -- the steps depend on the two tables alone, not on what the steps before them found
  simp only [← and_assoc, exists_and_right]

/-! ## Environments -/

/-- An entry of an environment is read when it has the shape of one. -/
theorem exists_ofEnvironmentEntry_iff (entry : Value) :
    (∃ found, ofEnvironmentEntry entry = .ok found) ↔ IsEnvironmentEntry entry := by
  unfold ofEnvironmentEntry IsEnvironmentEntry
  cases entry with
  | mapping entries =>
    have hmapping : (Value.mapping entries).IsMapping := ⟨entries, rfl⟩
    simp only [exists_bind_eq_ok_iff, exists_pure_eq_ok, and_true, exists_mapM_eq_ok_iff,
      Value.exists_written_iff, exists_members_and_iff, hmapping, true_implies,
      Value.atKey_mapping_iff]
    exact Value.getD_entry?_iff Value.allMembers_list_nil
  | null | bool | int | float | string | bytes | moment | list | set | pair => simp [IsMapping]

/-- An environment is read when it has the shape of one. -/
theorem exists_ofEnvironment_iff (document : Value) :
    (∃ found, ofEnvironment document = .ok found) ↔ Kind.environment.HasShape document := by
  show _ ↔ (document.IsMapping → document.AtKey "dependencies" (AllMembers IsEnvironmentEntry))
  unfold ofEnvironment
  cases document with
  | mapping entries =>
    have hmapping : (Value.mapping entries).IsMapping := ⟨entries, rfl⟩
    simp only [exists_bind_eq_ok_iff, exists_pure_eq_ok, and_true, exists_mapM_eq_ok_iff,
      exists_ofEnvironmentEntry_iff, exists_members_and_iff, hmapping, true_implies,
      Value.atKey_mapping_iff]
    exact Value.getD_entry?_iff Value.allMembers_list_nil
  | null | bool | int | float | string | bytes | moment | list | set | pair => simp [IsMapping]

/-! ## Sections of packages -/

/-- The keys of sections are read of every table. -/
theorem exists_sectionKeys_iff {sections : List String} (hsections : sections ≠ [])
    (document : Value) :
    (∃ found, sectionKeys sections document = .ok found) ↔ document.IsMapping := by
  unfold sectionKeys
  simp only [exists_bind_eq_ok_iff, exists_pure_eq_ok, and_true, exists_mapM_eq_ok_iff,
    exists_sectionOf_iff]
  constructor
  · intro h
    obtain ⟨key, hkey⟩ := List.exists_mem_of_ne_nil sections hsections
    exact h key hkey
  · intro h key _
    exact h

/-- The keys of sections are texts exactly when those of each section that is a mapping are. -/
theorem exists_sectionKeys_and_iff {sections : List String} (document : Value) :
    (∃ found, sectionKeys sections document = .ok found ∧ ∀ k ∈ found, k.IsText) ↔
      ∀ key ∈ sections, document.AtKey key HasTextKeys := by
  unfold sectionKeys
  simp only [bind_eq_ok_iff, ← exists_sectionOf_and_iff Value.hasTextKeys_nil,
    ← exists_mapM_and_iff]
  constructor
  · rintro ⟨_, ⟨values, hvalues, ⟨⟩⟩, htexts⟩
    refine ⟨values, hvalues, ?_⟩
    rintro _ hv entries rfl e he
    exact htexts e.1 (List.mem_flatMap.mpr ⟨_, hv, List.mem_map_of_mem he⟩)
  · rintro ⟨values, hvalues, htexts⟩
    refine ⟨_, ⟨values, hvalues, rfl⟩, ?_⟩
    intro k hk
    obtain ⟨v, hv, hk⟩ := List.mem_flatMap.mp hk
    cases v with
    | mapping entries =>
      obtain ⟨e, he, rfl⟩ := List.mem_map.mp hk
      exact htexts _ hv entries rfl e he
    | null | bool | int | float | string | bytes | moment | list | set | pair => cases hk

/-- The packages of a Composer project are found exactly when texts name what it requires. -/
theorem exists_ofComposerProject_iff (document : Value) :
    (∃ found, ofComposerProject document = .ok found) ↔ Kind.composer.HasShape document := by
  show _ ↔ document.AtKey "require" HasTextKeys ∧ document.AtKey "require-dev" HasTextKeys
  unfold ofComposerProject
  simp only [exists_bind_eq_ok_iff, exists_filterM_eq_ok_iff, exists_isNoPlatform_iff,
    exists_sectionKeys_and_iff, List.forall_mem_cons, List.not_mem_nil, false_implies,
    implies_true, and_true]

/-! ## Files -/

/-- A document gives packages exactly when it has the shape of its kind. -/
theorem Kind.exists_packages_iff (kind : Kind) (document : Value) :
    (∃ found, kind.packages document = .ok found) ↔ kind.HasShape document := by
  unfold packages
  cases kind with
  | requirements => exact iff_of_true ⟨_, rfl⟩ trivial
  | project => exact exists_ofProject_iff document
  | environment => exact exists_ofEnvironment_iff document
  | script => exact exists_sectionKeys_iff (List.cons_ne_nil _ _) document
  | composer => exact exists_ofComposerProject_iff document

/-- The text of a manifest is malformed, or it writes a document of the shape that its kind asks
for. -/
def Kind.Admits (readers : DocumentReaders) (kind : Kind) (text : List Char) : Prop :=
  kind.document readers text = .error .malformed ∨
    ∃ document, kind.document readers text = .ok document ∧ kind.HasShape document

/-- A manifest is read when its kind admits its text. -/
theorem Kind.exists_read_iff (kind : Kind) (text : List Char) :
    (∃ found, kind.read readers text = .ok found) ↔ kind.Admits readers text := by
  unfold read Admits
  cases kind.document readers text with
  | error problem => cases problem <;> simp
  | ok document =>
    simp only [map_eq_ok_iff, reduceCtorEq, false_or, Except.ok.injEq, exists_eq_left',
      ← kind.exists_packages_iff]
    constructor
    · rintro ⟨-, found, h, -⟩
      exact ⟨found, h⟩
    · rintro ⟨found, h⟩
      exact ⟨some found, found, h, rfl⟩

/-- A manifest with a text is read exactly when its kind admits the text. -/
theorem exists_load_iff_admits {ws : Workspace} {path : Path} {kind : Kind} {text : List Char}
    (hkind : Kind.ofName? path.name = some kind)
    (hread : ws.readStrict path = .ok (some text)) :
    (∃ found, load readers ws path = .ok found) ↔ kind.Admits readers text := by
  unfold load
  rw [hkind, hread, ← kind.exists_read_iff]
  constructor
  · rintro ⟨found, h⟩
    obtain ⟨packages?, hpackages, -⟩ := bind_eq_ok_iff.mp h
    exact ⟨packages?, hpackages⟩
  · rintro ⟨packages?, hpackages⟩
    refine exists_bind_eq_ok_iff.mpr ⟨packages?, hpackages, ?_⟩
    cases packages? with
    | none => exact ⟨none, rfl⟩
    | some found => exact ⟨some ⟨path.toString, kind.ecosystem, found⟩, rfl⟩

/-- What is no manifest, or has no text, counts as none. -/
theorem load_eq_none {ws : Workspace} {path : Path}
    (h : ∀ kind text, Kind.ofName? path.name = some kind →
      ws.readStrict path ≠ .ok (some text)) : load readers ws path = .ok none := by
  unfold load
  cases hkind : Kind.ofName? path.name with
  | none => rfl
  | some kind =>
    cases hread : ws.readStrict path with
    | error e => rfl
    | ok text? =>
      cases text? with
      | none => rfl
      | some text => exact absurd hread (h kind text hkind)

/-- A manifest with a text that is read has the packages of the text. -/
theorem load_of_read {ws : Workspace} {path : Path} {kind : Kind} {text : List Char}
    {found : List Value} (hkind : Kind.ofName? path.name = some kind)
    (htext : ws.readStrict path = .ok (some text))
    (hread : kind.read readers text = .ok (some found)) :
    load readers ws path = .ok (some ⟨path.toString, kind.ecosystem, found⟩) := by
  unfold load
  rw [hkind, htext]
  exact bind_eq_ok_iff.mpr ⟨some found, hread, rfl⟩

/-- With any readers of the formats a file is read as a manifest, to its packages or to none, unless
it is one whose text its kind does not admit. -/
theorem exists_load_eq_ok_iff (readers : DocumentReaders) (ws : Workspace) (path : Path) :
    (∃ found, load readers ws path = .ok found) ↔
      ∀ kind text, Kind.ofName? path.name = some kind → ws.readStrict path = .ok (some text) →
        kind.Admits readers text := by
  constructor
  · intro hload kind text hkind hread
    exact (exists_load_iff_admits hkind hread).mp hload
  · intro hadmits
    by_cases h : ∃ kind text, Kind.ofName? path.name = some kind ∧
        ws.readStrict path = .ok (some text)
    · obtain ⟨kind, text, hkind, hread⟩ := h
      exact (exists_load_iff_admits hkind hread).mpr (hadmits kind text hkind hread)
    · exact ⟨none, load_eq_none fun kind text hkind hread => h ⟨kind, text, hkind, hread⟩⟩

/-- A script project whose document is an empty list. -/
theorem not_exists_load_emptyList :
    ¬ ∃ found, load .standard ⟨.dir [("package.json", .file [91, 93])], []⟩
      ⟨"", ["package.json"]⟩ = .ok found := by
  have hread : Workspace.readStrict ⟨.dir [("package.json", .file [91, 93])], []⟩
      ⟨"", ["package.json"]⟩ = .ok (some ['[', ']']) := by
    rw [Workspace.readStrict, Workspace.readBytes_of_lookup (by decide) rfl]
    rfl
  have hkind : Kind.ofName? (Path.name ⟨"", ["package.json"]⟩) = some .script := by decide
  have hdocument : Kind.script.document .standard ['[', ']'] = .ok (.list []) := by rfl
  rw [exists_load_iff_admits hkind hread, Kind.Admits, hdocument]
  rintro (h | ⟨document, h, entries, hentries⟩)
  · cases h
  · cases h
    cases hentries

end SourceSurvey.Manifest
