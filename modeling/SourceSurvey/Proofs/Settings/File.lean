import SourceSurvey.Proofs.Failure.Refusal
import SourceSurvey.Proofs.Value.Shape
import SourceSurvey.Proofs.Workspace.Link
import SourceSurvey.Settings.File
import SourceSurvey.Value.Readers

/-!
# Configuration files that cannot be used

A configuration file should either give settings or be refused as a configuration. Main statement:
one that can be read does exactly when its bytes are a text and this text is malformed or writes a
document of the shape that its format asks for.
-/

namespace SourceSurvey.Settings

/-- The answer is a value or names a problem of the configuration. -/
def IsSettled {α : Type} (answer : Except Failure α) : Prop :=
  (∃ a, answer = .ok a) ∨ ∃ problem, answer = .error (.config problem)

/-- The depth of the search in a mapping, if there is one, is a number and not less than one. -/
def AdmitsDepth (entries : List (Value × Value)) : Prop :=
  ∀ v, Value.entry? "manifest_search_depth" entries = some v →
    ∃ q, Quantity.ofValue? v = some q ∧ q.lt 1 = false

/-- A timeout in a mapping that is cut is no whole number with too many digits to be written. -/
def AdmitsTimeout (entries : List (Value × Value)) : Prop :=
  ∀ n, Value.entry? "verification_timeout" entries = some (.int n) → maxTimeout < n →
    Value.isShort n = true

/-- A mapping that settings can be taken from, or that can be refused for them: its keys are texts,
and the timeout can be written unless something before it is refused. -/
structure IsSettingsTable (entries : List (Value × Value)) : Prop where
  keys : ∀ e ∈ entries, e.1.IsText
  timeout : unknownKeys entries = [] → AdmitsDepth entries → AdmitsTimeout entries

/-- The value is such a mapping, or none at all. -/
def IsSettingsPart (v : Value) : Prop :=
  ∀ entries, v = .mapping entries → IsSettingsTable entries

/-- The value of an entry, if the value is a mapping with that entry. -/
def entryOf? (key : String) : Value → Option Value
  | .mapping entries => Value.entry? key entries
  | _ => none

/-- The document that a text writes. -/
def Format.document (readers : DocumentReaders) :
    Format → List Char → Except DocumentProblem Value
  | .yaml => readers.yaml
  | .toml => readers.toml

/-- The part of a document that holds the settings: all of a YAML document, and of a TOML document
the table for this program, if there is one. -/
def Format.part : Format → Value → Value
  | .yaml, document => document
  | .toml, document => (entryOf? "tool" document >>= entryOf? "codestats").getD document

/-- The shape that a document of a format has to have: in a TOML document the tools have a table, if
anything, and the part with the settings is one that they can be taken from. -/
structure Format.HasShape (format : Format) (document : Value) : Prop where
  tools : format = .toml → document.AtKey "tool" Value.IsMapping
  part : IsSettingsPart (format.part document)

/-- A text is malformed, or it writes a document of the shape that its format asks for. -/
def Format.Admits (readers : DocumentReaders) (format : Format) (text : List Char) : Prop :=
  format.document readers text = .error .malformed ∨
    ∃ document, format.document readers text = .ok document ∧ format.HasShape document

/-! ## Answers -/

section Answer

variable {α β : Type} {problem : ConfigProblem} {fault : Fault} {x : Except Failure α}
  {f : α → Except Failure β}

theorem isSettled_ok (a : α) : IsSettled (.ok a) :=
  .inl ⟨a, rfl⟩

theorem isSettled_config : IsSettled (α := α) (.error (.config problem)) :=
  .inr ⟨problem, rfl⟩

theorem not_isSettled_fault : ¬ IsSettled (α := α) (.error (.fault fault)) := by
  rintro (⟨_, h⟩ | ⟨_, h⟩) <;> cases h

/-- A failure is settled when it is a problem of the configuration. -/
theorem isSettled_error_iff {e : Failure} :
    IsSettled (α := α) (.error e) ↔ ∃ problem, e = .config problem := by
  unfold IsSettled
  simp

/-- What follows a settled answer without a value is not reached. -/
theorem isSettled_bind_of_forall (hx : IsSettled x) (hf : ∀ a, x = .ok a → IsSettled (f a)) :
    IsSettled (x >>= f) := by
  rcases hx with ⟨a, rfl⟩ | ⟨problem, rfl⟩
  · exact hf a rfl
  · exact isSettled_config

/-- A number that is checked is taken or refused. -/
theorem isSettled_checked (v : Value) (isOutside : Quantity → Bool) (problem : ConfigProblem) :
    IsSettled (checked v isOutside problem) := by
  unfold checked
  split
  · exact isSettled_config
  · split
    · exact isSettled_config
    · exact isSettled_ok _

/-- A function on the result does not change whether there is one. -/
theorem isSettled_map_iff {g : α → β} : IsSettled (x.map g) ↔ IsSettled x := by
  cases x with
  | ok a => exact iff_of_true (isSettled_ok _) (isSettled_ok a)
  | error e => exact isSettled_error_iff.trans isSettled_error_iff.symm

/-- Of the problems of a document only a malformed one is settled. -/
theorem isSettled_documentFailure_iff {path : Path} {problem : DocumentProblem} :
    IsSettled (α := α) (.error (documentFailure path problem)) ↔ problem = .malformed := by
  cases problem with
  | malformed => exact iff_of_true isSettled_config rfl
  | fault fault => exact iff_of_false not_isSettled_fault nofun

end Answer

/-! ## Keys -/

section Key

variable {entries : List (Value × Value)} {values : List Value}

/-- Values are read as texts when all of them are texts. -/
theorem texts?_isSome_iff : (texts? values).isSome ↔ ∀ v ∈ values, v.IsText := by
  unfold texts?
  induction values with
  | nil => simp
  | cons v values ih =>
    rw [List.mapM_cons, List.forall_mem_cons, ← ih]
    cases v with
    | string s =>
      cases List.mapM (m := Option) _ values <;> simp [Value.IsText]
    | null | bool | int | float | bytes | moment | list | set | mapping | pair =>
      simp [Value.IsText]

/-- A key that a setting has is a text. -/
theorem forall_unknownKeys_isText_iff :
    (∀ k ∈ unknownKeys entries, k.IsText) ↔ ∀ e ∈ entries, e.1.IsText := by
  constructor
  · intro h e he
    by_cases hknown : (keys.any fun known => Value.same e.1 (.string known)) = true
    · obtain ⟨known, -, hsame⟩ := List.any_eq_true.mp hknown
      exact Value.isText_of_same hsame
    · refine h e.1 (List.mem_filter.mpr ⟨List.mem_map_of_mem he, ?_⟩)
      simpa using hknown
  · intro h k hk
    obtain ⟨e, he, rfl⟩ := List.mem_map.mp (List.mem_filter.mp hk).1
    exact h e he

end Key

/-! ## Mappings -/

section Table

variable {entries : List (Value × Value)} {v : Value} {q : Quantity}

/-- A value passes its check when it is a number within the bounds. -/
theorem checked_eq_ok_iff {isOutside : Quantity → Bool} {problem : ConfigProblem} :
    checked v isOutside problem = .ok q ↔ Quantity.ofValue? v = some q ∧ isOutside q = false := by
  unfold checked
  cases Quantity.ofValue? v with
  | none => exact iff_of_false nofun (by rintro ⟨h, -⟩; cases h)
  | some p =>
    dsimp only
    split
    · next h => exact iff_of_false nofun (by rintro ⟨⟨⟩, hin⟩; rw [h] at hin; cases hin)
    · next h =>
      constructor
      · rintro ⟨⟩
        exact ⟨rfl, Bool.eq_false_iff.mpr h⟩
      · rintro ⟨⟨⟩, -⟩
        rfl

/-- A timeout, cut if it is longer than any may be. -/
def capped (timeout : Quantity) : Quantity :=
  if timeout.gt maxTimeout then .real (.ofNat maxTimeout.toNat) else timeout

/-- A timeout is cut if it can be written, or if there is nothing to cut. -/
theorem cut_eq_ok_iff {cutTimeout : Quantity} : cut q = .ok cutTimeout ↔
    (q.gt maxTimeout = true → q.toValue.IsWritable) ∧ cutTimeout = capped q := by
  unfold cut capped Value.IsWritable
  by_cases hlong : q.gt maxTimeout = true
  · rw [if_pos hlong, if_pos hlong]
    split
    · next hwritable =>
      rw [Except.ok.injEq, and_iff_right fun _ => hwritable]
      exact eq_comm
    · next hwritable => exact iff_of_false nofun fun h => hwritable (h.1 hlong)
  · rw [if_neg hlong, if_neg hlong, Except.ok.injEq, and_iff_right fun h => absurd h hlong]
    exact eq_comm

/-- The depth of the search is accepted exactly when the mapping has an admissible one or none. -/
theorem exists_checked_depth_iff :
    (∃ depth, checked ((Value.entry? "manifest_search_depth" entries).getD (.int 5)) (·.lt 1)
      .searchTooShallow = .ok depth) ↔ AdmitsDepth entries := by
  unfold AdmitsDepth
  simp only [checked_eq_ok_iff]
  cases Value.entry? "manifest_search_depth" entries with
  | none => exact iff_of_true ⟨.whole 5, rfl, rfl⟩ nofun
  | some v => simp

/-- A timeout that is accepted can be cut exactly when the one in the mapping can be written. -/
theorem exists_cut_iff (h : checked ((Value.entry? "verification_timeout" entries).getD
      (.float (.ofNat 10))) (·.le 0) .timeoutNotPositive = .ok q) :
    (∃ timeout, cut q = .ok timeout) ↔ AdmitsTimeout entries := by
  obtain ⟨hq, -⟩ := checked_eq_ok_iff.mp h
  simp only [cut_eq_ok_iff, exists_and_left, exists_eq, and_true]
  unfold AdmitsTimeout
  constructor
  · intro hwritable n hn hlong
    rw [hn] at hq
    cases hq
    exact hwritable (decide_eq_true hlong)
  · intro hshort hlong
    cases q with
    | truth b => rfl
    | real x => rfl
    | whole n =>
      refine hshort n ?_ (of_decide_eq_true hlong)
      cases hentry : Value.entry? "verification_timeout" entries with
      | none =>
        rw [hentry] at hq
        cases hq
      | some v =>
        rw [hentry] at hq
        cases v <;> cases hq
        rfl

/-- A timeout that is refused is none that would be cut. -/
theorem admitsTimeout_of_error {e : Failure}
    (h : checked ((Value.entry? "verification_timeout" entries).getD (.float (.ofNat 10))) (·.le 0)
      .timeoutNotPositive = .error e) : AdmitsTimeout entries := by
  intro n hn hlong
  have hpositive : (Quantity.whole n).le 0 = false := by
    have hlong : 30 < n := hlong
    simp only [Quantity.le, Quantity.lt, Quantity.eq, Bool.or_eq_false_iff, decide_eq_false_iff_not,
      beq_eq_false_iff_ne]
    omega
  have haccepted : checked (.int n) (·.le 0) .timeoutNotPositive = .ok (.whole n) :=
    checked_eq_ok_iff.mpr ⟨rfl, hpositive⟩
  rw [hn, Option.getD_some, haccepted] at h
  cases h

/-- A number fails to be cut only by a fault. -/
theorem eq_fault_of_cut {e : Failure} (h : cut q = .error e) : e = .fault .meaningless := by
  unfold cut at h
  split at h
  · split at h <;> cases h
    rfl
  · cases h

/-- With known keys settings are taken from a mapping, or it is refused for them, unless its depth is
accepted and its timeout cannot be written. -/
theorem isSettled_ofKnown_iff :
    IsSettled (ofKnown entries) ↔ (AdmitsDepth entries → AdmitsTimeout entries) := by
  rw [← exists_checked_depth_iff]
  unfold ofKnown
  dsimp only [Quantity.toValue]
  -- a depth that is refused settles it before the timeout is looked at
  cases hdepth : checked ((Value.entry? "manifest_search_depth" entries).getD (.int 5)) (·.lt 1)
      .searchTooShallow with
  | error e =>
    have hrefused := isSettled_checked ((Value.entry? "manifest_search_depth" entries).getD (.int 5))
      (·.lt 1) .searchTooShallow
    rw [hdepth, isSettled_error_iff] at hrefused
    exact iff_of_true (isSettled_error_iff.mpr hrefused) (by rintro ⟨_, ⟨⟩⟩)
  | ok depth =>
    rw [forall_prop_of_true ⟨depth, rfl⟩]
    show IsSettled (checked _ _ _ >>= _) ↔ _
    cases htimeout : checked ((Value.entry? "verification_timeout" entries).getD
        (.float (.ofNat 10))) (·.le 0) .timeoutNotPositive with
    | error e =>
      have hrefused := isSettled_checked ((Value.entry? "verification_timeout" entries).getD
        (.float (.ofNat 10))) (·.le 0) .timeoutNotPositive
      rw [htimeout, isSettled_error_iff] at hrefused
      exact iff_of_true (isSettled_error_iff.mpr hrefused) (admitsTimeout_of_error htimeout)
    | ok q =>
      rw [← exists_cut_iff htimeout]
      show IsSettled (cut q >>= _) ↔ _
      -- behind the cap no step can fail but by a problem of the configuration
      cases hcut : cut q with
      | error e =>
        rw [eq_fault_of_cut hcut]
        exact iff_of_false not_isSettled_fault (by rintro ⟨_, ⟨⟩⟩)
      | ok timeout =>
        refine iff_of_true ?_ ⟨timeout, rfl⟩
        refine isSettled_bind_of_forall (isSettled_ok timeout) fun timeout _ => ?_
        refine isSettled_bind_of_forall (isSettled_checked _ _ _) fun files _ => ?_
        refine isSettled_bind_of_forall (isSettled_checked _ _ _) fun workers _ => ?_
        split
        · exact isSettled_ok _
        · exact isSettled_config

/-- Settings are taken from a mapping, or it is refused for them, unless unknown keys of it cannot
be listed or its timeout cannot be written. -/
theorem isSettled_ofMapping_iff : IsSettled (ofMapping entries) ↔ IsSettingsTable entries := by
  have htable : IsSettingsTable entries ↔ (∀ v ∈ unknownKeys entries, v.IsText) ∧
      (unknownKeys entries = [] → AdmitsDepth entries → AdmitsTimeout entries) := by
    rw [forall_unknownKeys_isText_iff]
    exact ⟨fun h => ⟨h.keys, h.timeout⟩, fun h => ⟨h.1, h.2⟩⟩
  rw [htable, ← texts?_isSome_iff]
  unfold ofMapping
  cases unknownKeys entries with
  | nil => simp [texts?, isSettled_ofKnown_iff]
  | cons k rest =>
    cases htexts : texts? (k :: rest) with
    | none => simp [htexts, not_isSettled_fault]
    | some names => simp [htexts, isSettled_config]

end Table

/-! ## Documents -/

variable {readers : DocumentReaders} {env : Environment} {path : Path} {document : Value}

/-- The settings that a document gives. -/
def ofDocument (env : Environment) (path : Path) : Value → Except Failure Settings
  | .mapping entries => (ofMapping entries).map (override env)
  | _ => .error (.config (.notAMapping path.toString))

/-- A table of settings is a part with settings. -/
theorem isSettingsPart_mapping_iff {entries : List (Value × Value)} :
    IsSettingsPart (.mapping entries) ↔ IsSettingsTable entries := by
  constructor
  · intro h
    exact h entries rfl
  · rintro h _ ⟨⟩
    exact h

/-- A mapping without entries has nothing that could not be taken. -/
theorem isSettingsTable_nil : IsSettingsTable [] :=
  ⟨List.forall_mem_nil _, fun _ _ _ h => by cases h⟩

/-- A document gives settings, or is refused for them, exactly when it is one that they can be taken
from. -/
theorem isSettled_ofDocument_iff :
    IsSettled (ofDocument env path document) ↔ IsSettingsPart document := by
  cases document with
  | mapping entries =>
    rw [ofDocument, isSettled_map_iff, isSettled_ofMapping_iff, isSettingsPart_mapping_iff]
  | null | bool | int | float | string | bytes | moment | list | set | pair =>
    exact iff_of_true isSettled_config nofun

/-- A document that counts as nothing has no settings. -/
theorem isSettingsPart_of_isFalsy (h : document.isFalsy = true) : IsSettingsPart document := by
  rintro entries rfl
  cases List.isEmpty_iff.mp h
  exact isSettingsTable_nil

/-- The own table is looked for in the table for the tools. What stands there in its place is
refused if it is no table. -/
theorem isSettled_ownTable_iff :
    IsSettled (((ownTable document).mapError .fault).mapError (documentFailure path) >>=
        ofDocument env path) ↔ Format.toml.HasShape document := by
  have hshape : Format.toml.HasShape document ↔ document.AtKey "tool" Value.IsMapping ∧
      IsSettingsPart (Format.toml.part document) :=
    ⟨fun h => ⟨h.tools rfl, h.part⟩, fun h => ⟨fun _ => h.1, h.2⟩⟩
  rw [hshape]
  cases document with
  | mapping entries =>
    rw [Value.atKey_mapping_iff, ownTable, Format.part, entryOf?]
    cases htool : Value.entry? "tool" entries with
    | none =>
      have hnone : ∀ below, none = some below → Value.IsMapping below := by rintro _ ⟨⟩
      rw [and_iff_right hnone]
      show IsSettled (ofDocument env path (.mapping entries)) ↔ _
      exact isSettled_ofDocument_iff
    | some below =>
      cases below with
      | mapping tools =>
        have hmapping : ∀ below, some (Value.mapping tools) = some below → below.IsMapping := by
          rintro _ ⟨⟩
          exact ⟨tools, rfl⟩
        rw [and_iff_right hmapping]
        show IsSettled (ofDocument env path ((Value.entry? "codestats" tools).getD _)) ↔ _
        exact isSettled_ofDocument_iff
      | null | bool | int | float | string | bytes | moment | list | set | pair =>
        refine iff_of_false not_isSettled_fault fun h => ?_
        obtain ⟨_, hmapping⟩ := h.1 _ rfl
        cases hmapping
  | null | bool | int | float | string | bytes | moment | list | set | pair =>
    refine iff_of_false not_isSettled_fault fun h => ?_
    obtain ⟨_, hmapping, -⟩ := h.1
    cases hmapping

section Read

variable {format : Format} {text : List Char} {problem : DocumentProblem}

/-- A format admits a text that is no document when the text is malformed. -/
theorem Format.admits_iff_of_error (h : format.document readers text = .error problem) :
    format.Admits readers text ↔ problem = .malformed := by
  simp [Admits, h]

/-- A format admits a document when the document has its shape. -/
theorem Format.admits_iff_of_ok (h : format.document readers text = .ok document) :
    format.Admits readers text ↔ format.HasShape document := by
  simp [Admits, h]

/-- A text without a document has no settings, for the same reason. -/
theorem Format.read_of_error (h : format.document readers text = .error problem) :
    format.read readers text = .error problem := by
  cases format with
  | yaml =>
    rw [read, show readers.yaml text = _ from h]
    rfl
  | toml =>
    rw [read, show readers.toml text = _ from h]
    rfl

/-- The settings of a document are settled when it has the shape of settings. -/
theorem isSettled_of_yaml (h : readers.yaml text = .ok document) :
    IsSettled ((Format.yaml.read readers text).mapError (documentFailure path) >>=
        ofDocument env path) ↔ Format.yaml.HasShape document := by
  have hshape : Format.yaml.HasShape document ↔ IsSettingsPart document :=
    ⟨fun h => h.part, fun h => ⟨nofun, h⟩⟩
  rw [Format.read, h, hshape]
  show IsSettled (ofDocument env path (if document.isFalsy then .mapping [] else document)) ↔ _
  rw [isSettled_ofDocument_iff]
  split
  · next hfalsy =>
    exact iff_of_true (isSettingsPart_mapping_iff.mpr isSettingsTable_nil)
      (isSettingsPart_of_isFalsy hfalsy)
  · rfl

/-- So are those of a document with the settings in a table. -/
theorem isSettled_of_toml (h : readers.toml text = .ok document) :
    IsSettled ((Format.toml.read readers text).mapError (documentFailure path) >>=
        ofDocument env path) ↔ Format.toml.HasShape document := by
  rw [Format.read, h]
  exact isSettled_ownTable_iff

/-- A text gives settings, or is refused as a configuration, exactly when its format admits it. -/
theorem isSettled_read_iff :
    IsSettled ((format.read readers text).mapError (documentFailure path) >>=
        ofDocument env path) ↔ format.Admits readers text := by
  cases hdocument : format.document readers text with
  | error problem =>
    rw [Format.read_of_error hdocument, Format.admits_iff_of_error hdocument]
    exact isSettled_documentFailure_iff
  | ok document =>
    rw [Format.admits_iff_of_ok hdocument]
    cases format with
    | yaml => exact isSettled_of_yaml hdocument
    | toml => exact isSettled_of_toml hdocument

end Read

/-! ## Files -/

/-- With any readers of the formats a configuration file gives settings, or is refused as a
configuration, unless it has bytes that are no text or that its format does not admit as one. -/
theorem isSettled_load_iff {ws : Workspace} {format : Format}
    (hexists : ws.pathExists path = true) (hformat : Format.ofSuffix? path.suffix = some format) :
    IsSettled (load readers ws env path) ↔ ∀ text?, ws.readStrict path = .ok text? →
      ∃ text, text? = some text ∧ format.Admits readers text := by
  unfold load
  rw [hexists, hformat]
  cases hread : ws.readStrict path with
  | error e => exact iff_of_true isSettled_config nofun
  | ok text? =>
    simp only [Except.ok.injEq, forall_eq']
    cases text? with
    | none => exact iff_of_false not_isSettled_fault (by rintro ⟨_, h, -⟩; cases h)
    | some text =>
      simp only [Option.some.injEq, exists_eq_left']
      exact isSettled_read_iff

/-- A file without content gives the default settings. -/
theorem isSettled_load_emptyFile :
    Workspace.pathExists ⟨.dir [("c.toml", .file [])], []⟩ ⟨"", ["c.toml"]⟩ = true ∧
    Format.ofSuffix? (Path.suffix ⟨"", ["c.toml"]⟩) = some .toml ∧
    IsSettled (load .standard ⟨.dir [("c.toml", .file [])], []⟩ {} ⟨"", ["c.toml"]⟩) := by
  have hexists : Workspace.pathExists ⟨.dir [("c.toml", .file [])], []⟩ ⟨"", ["c.toml"]⟩ = true :=
    Workspace.pathExists_of_lookup (by decide) rfl
  have hformat : Format.ofSuffix? (Path.suffix ⟨"", ["c.toml"]⟩) = some .toml := by decide
  refine ⟨hexists, hformat, (isSettled_load_iff hexists hformat).mpr fun text? hread => ?_⟩
  rw [Workspace.readStrict, Workspace.readBytes_of_lookup (by decide) rfl] at hread
  cases hread
  exact ⟨[], rfl, .inr ⟨.mapping [], rfl, fun _ => Value.atKey_nil,
    isSettingsPart_mapping_iff.mpr isSettingsTable_nil⟩⟩

/-- A file whose only byte is no text. -/
theorem not_isSettled_load_undecodable :
    ¬ IsSettled (load .standard ⟨.dir [("c.yml", .file [255])], []⟩ {} ⟨"", ["c.yml"]⟩) := by
  have hexists : Workspace.pathExists ⟨.dir [("c.yml", .file [255])], []⟩ ⟨"", ["c.yml"]⟩ = true :=
    Workspace.pathExists_of_lookup (by decide) rfl
  have hread : Workspace.readStrict ⟨.dir [("c.yml", .file [255])], []⟩ ⟨"", ["c.yml"]⟩ =
      .ok none := by
    rw [Workspace.readStrict, Workspace.readBytes_of_lookup (by decide) rfl]
    rfl
  unfold load
  rw [hexists, hread]
  exact not_isSettled_fault

end SourceSurvey.Settings
