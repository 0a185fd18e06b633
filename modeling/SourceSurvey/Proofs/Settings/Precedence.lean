import SourceSurvey.CommandLine.Run
import SourceSurvey.Proofs.Failure.Refusal
import SourceSurvey.Proofs.Package.Nearest
import SourceSurvey.Proofs.Settings.File

/-!
# Which settings take effect

Settings come from the file that is asked for, from the nearest configuration file or from the
defaults, in this order, and the environment and the switch for verification go on top of them. Main
statement: every run that gets settings gets them so, and files past the one that they are taken
from have no part in it.
-/

namespace SourceSurvey

namespace Settings

variable {readers : DocumentReaders} {ws ws' : Workspace} {env : Environment}
  {dir place file : Path} {n : Nat}

/-! ## The nearest configuration file -/

/-- Where a configuration file is looked for, in order: directory by directory upward, past no root,
and in one directory by the names that are preferred. -/
def places (dir : Path) (n : Nat) : List Path :=
  (List.range (min n (dir.names.length + 1))).flatMap fun k =>
    fileNames.map (Path.parent^[k] dir).child

/-- The first of the places that has a file, if any has. -/
inductive IsFirstFile (ws : Workspace) (dir : Path) (n : Nat) : Option Path → Prop where
  | found (file : Path) (before after : List Path) (h : places dir n = before ++ file :: after)
      (hbefore : ∀ p ∈ before, ws.isFile p = false) (hfile : ws.isFile file = true) :
      IsFirstFile ws dir n (some file)
  | nothing (h : ∀ p ∈ places dir n, ws.isFile p = false) : IsFirstFile ws dir n none

/-- A place is reached by a search when no place before it has a file. -/
def IsReached (ws : Workspace) (dir : Path) (n : Nat) (p : Path) : Prop :=
  ∃ before after, places dir n = before ++ p :: after ∧ ∀ q ∈ before, ws.isFile q = false

/-- Only a root is its own parent. -/
theorem parent_eq_self_iff : dir.parent = dir ↔ dir.names = [] := by
  obtain ⟨root, names⟩ := dir
  rw [Path.parent, Path.mk.injEq]
  cases names with
  | nil => simp
  | cons name names =>
    refine iff_of_false ?_ (List.cons_ne_nil _ _)
    rintro ⟨-, h⟩
    have hlength := congrArg List.length h
    rw [List.length_dropLast] at hlength
    simp at hlength

/-- The places in a directory come before those further up. -/
theorem places_succ (dir : Path) (n : Nat) : places dir (n + 1) =
    fileNames.map dir.child ++ if dir.parent = dir then [] else places dir.parent n := by
  have hlevels : min (n + 1) (dir.names.length + 1) = min n dir.names.length + 1 := by omega
  unfold places
  rw [hlevels, List.range_succ_eq_map, List.flatMap_cons, List.flatMap_map]
  congr 1
  by_cases hroot : dir.parent = dir
  · rw [if_pos hroot, parent_eq_self_iff.mp hroot, List.length_nil, Nat.min_zero]
    rfl
  · have hlength : dir.parent.names.length + 1 = dir.names.length := by
      rw [Path.parent, List.length_dropLast]
      have := List.length_pos_iff.mpr (mt parent_eq_self_iff.mpr hroot)
      omega
    rw [if_neg hroot, hlength]
    rfl

/-- The search upward finds the first of its places that has a file. -/
theorem nearestFrom?_eq_find? (ws : Workspace) (dir : Path) (n : Nat) :
    nearestFrom? ws dir n = (places dir n).find? ws.isFile := by
  induction n generalizing dir with
  | zero => rfl
  | succ n ih =>
    rw [nearestFrom?, places_succ, List.find?_append]
    cases (fileNames.map dir.child).find? ws.isFile with
    | some found => rfl
    | none =>
      rw [Option.none_or]
      by_cases hroot : dir.parent = dir
      · simp [hroot]
      · simp [hroot, ih]

/-- A search reaches the file that it finds. -/
theorem IsFirstFile.isReached (h : IsFirstFile ws dir n (some file)) : IsReached ws dir n file := by
  cases h with
  | found _ before after hplaces hbefore => exact ⟨before, after, hplaces, hbefore⟩

/-- The first place with a file is the first file of the places. -/
theorem isFirstFile_find? (ws : Workspace) (dir : Path) (n : Nat) :
    IsFirstFile ws dir n ((places dir n).find? ws.isFile) := by
  cases h : (places dir n).find? ws.isFile with
  | none => exact .nothing fun p hp => by simpa using List.find?_eq_none.mp h p hp
  | some file =>
    obtain ⟨hfile, before, after, hplaces, hbefore⟩ := List.find?_eq_some_iff_append.mp h
    exact .found file before after hplaces (fun p hp => by simpa using hbefore p hp) hfile

/-- A search reaches no place past one that has a file. -/
theorem IsReached.mem_of_isFile {p : Path} {front back : List Path} (hp : IsReached ws dir n p)
    (h : places dir n = front ++ file :: back) (hfile : ws.isFile file = true) :
    p ∈ front ++ [file] := by
  obtain ⟨before, after, hplaces, hbefore⟩ := hp
  rw [h] at hplaces
  rcases List.append_eq_append_iff.mp hplaces with ⟨more, rfl, hmore⟩ | ⟨more, rfl, hmore⟩
  · cases more with
    | nil => exact List.mem_append_right _ (List.mem_singleton.mpr (List.cons.inj hmore).1.symm)
    | cons q more =>
      obtain ⟨rfl, -⟩ := List.cons.inj hmore
      have hnot := hbefore file (List.mem_append_right _ List.mem_cons_self)
      rw [hfile] at hnot
      cases hnot
  · cases more with
    | nil => exact List.mem_append_right _ (List.mem_singleton.mpr (List.cons.inj hmore).1)
    | cons q more =>
      obtain ⟨rfl, -⟩ := List.cons.inj hmore
      exact List.mem_append_left _ (List.mem_append_right _ List.mem_cons_self)

/-- A search looks at no place past the first that has a file. -/
theorem find?_places_congr
    (h : ∀ p, IsReached ws dir n p → ws'.isFile p = ws.isFile p) :
    (places dir n).find? ws'.isFile = (places dir n).find? ws.isFile := by
  suffices hrest : ∀ before rest, places dir n = before ++ rest →
      (∀ q ∈ before, ws.isFile q = false) → rest.find? ws'.isFile = rest.find? ws.isFile from
    hrest [] _ rfl (List.forall_mem_nil _)
  intro before rest hplaces hbefore
  -- a place is reached as long as those before it have no file
  induction rest generalizing before with
  | nil => rfl
  | cons p rest ih =>
    rw [List.find?_cons, List.find?_cons, h p ⟨before, rest, hplaces, hbefore⟩]
    cases hp : ws.isFile p with
    | true => rfl
    | false =>
      refine ih (before ++ [p]) (by rw [hplaces, List.append_assoc, List.singleton_append]) ?_
      exact List.forall_mem_append.mpr ⟨hbefore, List.forall_mem_singleton.mpr hp⟩

/-- The directory in which the search for the configuration file of a place begins. -/
def searchStart (ws : Workspace) (place : Path) : Path :=
  if ws.isDir place then place else place.parent

/-- The search for a place finds the first file from the directory on in which it begins. -/
theorem nearest?_eq_find? (ws : Workspace) (place : Path) (n : Nat) :
    nearest? ws place n = (places (searchStart ws place) n).find? ws.isFile :=
  nearestFrom?_eq_find? ws (searchStart ws place) n

/-- What the search for a place finds is the first file of its places. -/
theorem isFirstFile_nearest? (ws : Workspace) (place : Path) (n : Nat) :
    IsFirstFile ws (searchStart ws place) n (nearest? ws place n) := by
  rw [nearest?_eq_find?]
  exact isFirstFile_find? ws _ n

/-! ## Files that are read -/

/-- A configuration file is read through what its path leads to only. -/
theorem load_congr (h : ws'.look file = ws.look file) :
    load readers ws' env file = load readers ws env file := by
  unfold load Workspace.pathExists Workspace.readStrict Workspace.readBytes
  rw [h]

/-- The environment has no part in what a file gives; it changes the settings afterwards. -/
theorem load_eq_map_override (readers : DocumentReaders) (ws : Workspace) (env : Environment)
    (file : Path) :
    load readers ws env file = (load readers ws {} file).map (override env) := by
  unfold load
  cases ws.pathExists file with
  | false => rfl
  | true =>
    cases ws.readStrict file with
    | error e => rfl
    | ok text? =>
      cases text? with
      | none => rfl
      | some text =>
        cases Format.ofSuffix? file.suffix with
        | none => rfl
        | some format =>
          show ((format.read readers text).mapError (documentFailure file) >>= ofDocument env file) =
            Except.map _ ((format.read readers text).mapError (documentFailure file) >>=
              ofDocument {} file)
          cases format.read readers text with
          | error problem => rfl
          | ok document =>
            show ofDocument env file document = (ofDocument {} file document).map (override env)
            cases document with
            | mapping entries =>
              rw [ofDocument, ofDocument]
              cases ofMapping entries <;> rfl
            | null | bool | int | float | string | bytes | moment | list | set | pair => rfl

/-- A file whose text is read to a mapping gives the settings of the mapping. -/
theorem load_of_read {text : List Char} {format : Format} {entries : List (Value × Value)}
    (hexists : ws.pathExists file = true) (htext : ws.readStrict file = .ok (some text))
    (hformat : Format.ofSuffix? file.suffix = some format)
    (hread : format.read readers text = .ok (.mapping entries)) :
    load readers ws env file = (ofMapping entries).map (override env) := by
  unfold load
  rw [hexists, htext, hformat]
  show ((format.read readers text).mapError (documentFailure file) >>= ofDocument env file) = _
  rw [hread]
  rfl

end Settings

namespace CommandLine

variable {readers : DocumentReaders} {ws ws' : Workspace} {env : Settings.Environment}
  {c : Choices} {path place : Path} {base s : Settings} {source : Option Path}

/-! ## Where settings come from -/

/-- No configuration file is asked for; a text without characters asks for none. -/
def AsksForNone (c : Choices) : Prop :=
  c.config = none ∨ c.config = some ""

/-- The file that settings are taken from, if there is one: the file that is asked for, or else the
first that a search upward from the place of a path finds. -/
inductive IsSource (ws : Workspace) (c : Choices) (path : Path) : Option Path → Prop where
  | asked (text : String) (h : c.config = some text) (hne : text ≠ "") :
      IsSource ws c path (some (.ofString text))
  | searched (place : Path) (found : Option Path) (hnone : AsksForNone c)
      (hplace : ws.resolve path = .ok place)
      (h : Settings.IsFirstFile ws (Settings.searchStart ws place) Settings.searchDepth found) :
      IsSource ws c path found

/-- The settings of a file as it writes them, or the defaults. -/
def settingsOf (readers : DocumentReaders) (ws : Workspace) : Option Path → Except Failure Settings
  | some file => Settings.load readers ws {} file
  | none => .ok {}

/-- Settings with the switch for verification and the environment on top of them: the switch comes
before the variable for verification, and this before what the settings say; the variable for the
level of messages counts unless it is empty; all else stays as it is. -/
structure IsLayered (env : Settings.Environment) (switch : Bool) (base s : Settings) : Prop where
  switched : switch = true → s.verifyDependencies = .bool true
  affirmed : ∀ v, switch = false → env.verify = some v → s.verifyDependencies =
    .bool (decide (String.ofList (Text.lower (Text.trim v.toList)) ∈ Settings.affirmations))
  verification : switch = false → env.verify = none →
    s.verifyDependencies = base.verifyDependencies
  named : ∀ v, env.logLevel = some v → v ≠ "" →
    s.logLevel = .string (.ofList (Text.upper (Text.trim v.toList)))
  level : env.logLevel = none ∨ env.logLevel = some "" → s.logLevel = base.logLevel
  rest : { s with verifyDependencies := base.verifyDependencies, logLevel := base.logLevel } = base

/-- In two workspaces the same is found wherever the settings for a path are looked for. Places past
the first that has a file may differ. -/
structure LooksAlikeFor (ws ws' : Workspace) (c : Choices) (path : Path) : Prop where
  asked : ∀ text, c.config = some text → text ≠ "" →
    ws'.look (.ofString text) = ws.look (.ofString text)
  resolved : AsksForNone c → ws'.resolve path = ws.resolve path
  start : ∀ place, AsksForNone c → ws.resolve path = .ok place → ws'.isDir place = ws.isDir place
  reached : ∀ place p, AsksForNone c → ws.resolve path = .ok place →
    Settings.IsReached ws (Settings.searchStart ws place) Settings.searchDepth p →
      ws'.look p = ws.look p

/-- Either no file is asked for, or one with a name. -/
theorem asksForNone_or (c : Choices) :
    AsksForNone c ∨ ∃ text, c.config = some text ∧ text ≠ "" := by
  unfold AsksForNone
  cases c.config with
  | none => exact .inl (.inl rfl)
  | some text =>
    by_cases hne : text = ""
    · exact .inl (.inr (congrArg some hne))
    · exact .inr ⟨text, rfl, hne⟩

/-- A choice that asks for no file names none. -/
theorem AsksForNone.pathOf?_config (h : AsksForNone c) : pathOf? c.config = none := by
  rcases h with h | h <;> rw [h] <;> rfl

/-- The settings with what goes on top of them. -/
def layered (env : Settings.Environment) (switch : Bool) (base : Settings) : Settings :=
  if switch then { base.override env with verifyDependencies := .bool true }
  else base.override env

/-- The switch and the environment go on top of settings in the order that is documented for them.
-/
theorem isLayered_layered (env : Settings.Environment) (switch : Bool) (base : Settings) :
    IsLayered env switch base (layered env switch base) := by
  obtain ⟨verify, level⟩ := env
  constructor
  · rintro rfl
    rfl
  · rintro v rfl rfl
    unfold layered Settings.override
    cases level.filter (!·.isEmpty) <;> simp
  · rintro rfl rfl
    unfold layered Settings.override
    cases level.filter (!·.isEmpty) <;> rfl
  · rintro v rfl hne
    have hkept : (some v).filter (!·.isEmpty) = some v := by simpa using hne
    unfold layered Settings.override
    cases switch <;> simp [hkept]
  · intro h
    have hdropped : level.filter (!·.isEmpty) = none := by
      rcases h with rfl | rfl <;> rfl
    unfold layered Settings.override
    cases switch <;> cases verify <;> simp [hdropped]
  · unfold layered Settings.override
    cases switch <;> cases verify <;> cases level.filter (!·.isEmpty) <;> rfl

/-- What goes on top of settings fails only where the settings do. -/
theorem bind_override (x : Except Failure Settings) (switch : Bool) :
    (x.map (Settings.override env) >>= fun chosen =>
      .ok (if switch then { chosen with verifyDependencies := .bool true } else chosen)) =
        x.map (layered env switch) := by
  cases x with
  | error e => rfl
  | ok base => cases switch <;> rfl

/-- Settings come from the file that is asked for. -/
theorem settingsFor_of_asked {text : String} (h : c.config = some text) (hne : text ≠ "") :
    settingsFor readers ws env c path = (settingsOf readers ws (some (.ofString text))).map
      (layered env c.verify) := by
  have hfile : pathOf? c.config = some (.ofString text) := by
    rw [h]
    simp [pathOf?, Option.filter, hne]
  unfold settingsFor
  rw [hfile, settingsOf, ← bind_override, ← Settings.load_eq_map_override]
  rfl

/-- Settings come from the nearest file, or are the defaults, when no file is asked for. -/
theorem settingsFor_of_resolved (hnone : AsksForNone c) (hplace : ws.resolve path = .ok place) :
    settingsFor readers ws env c path =
      (settingsOf readers ws (Settings.nearest? ws place Settings.searchDepth)).map
        (layered env c.verify) := by
  unfold settingsFor
  rw [hnone.pathOf?_config, hplace, ← bind_override]
  dsimp only [bind, Except.bind]
  cases Settings.nearest? ws place Settings.searchDepth with
  | none => rfl
  | some file =>
    rw [settingsOf, ← Settings.load_eq_map_override]
    rfl

/-- There are no settings for a path that cannot be resolved, when no file is asked for. -/
theorem settingsFor_of_not_resolved {e : Failure} (hnone : AsksForNone c)
    (hplace : ws.resolve path = .error e) : settingsFor readers ws env c path = .error e := by
  unfold settingsFor
  rw [hnone.pathOf?_config, hplace]
  rfl

/-- What settings take effect is decided in the places that are looked at. -/
theorem settingsFor_congr (h : LooksAlikeFor ws ws' c path) :
    settingsFor readers ws' env c path = settingsFor readers ws env c path := by
  rcases asksForNone_or c with hnone | ⟨text, htext, hne⟩
  · have hresolved := h.resolved hnone
    cases hplace : ws.resolve path with
    | error e =>
      rw [settingsFor_of_not_resolved hnone hplace,
        settingsFor_of_not_resolved hnone (hresolved.trans hplace)]
    | ok place =>
      have hstart : Settings.searchStart ws' place = Settings.searchStart ws place := by
        rw [Settings.searchStart, h.start place hnone hplace, Settings.searchStart]
      have hreached := fun p => h.reached place p hnone hplace
      have hfound : Settings.nearest? ws' place Settings.searchDepth =
          Settings.nearest? ws place Settings.searchDepth := by
        rw [Settings.nearest?_eq_find?, Settings.nearest?_eq_find?, hstart]
        refine Settings.find?_places_congr fun p hp => ?_
        rw [Workspace.isFile, hreached p hp, Workspace.isFile]
      rw [settingsFor_of_resolved hnone hplace,
        settingsFor_of_resolved hnone (hresolved.trans hplace), hfound]
      cases hfile : Settings.nearest? ws place Settings.searchDepth with
      | none => rfl
      | some file =>
        have hfirst := Settings.isFirstFile_nearest? ws place Settings.searchDepth
        rw [hfile] at hfirst
        rw [settingsOf, settingsOf, Settings.load_congr (hreached file hfirst.isReached)]
  · rw [settingsFor_of_asked htext hne, settingsFor_of_asked htext hne, settingsOf, settingsOf,
      Settings.load_congr (h.asked text htext hne)]

/-- The settings that take effect are those of the file that is asked for, or else those of the
first file that the search upward from the place of the path finds, or else the defaults, with the
switch for verification and the environment on top of them. They are the same in every workspace in
which the places that are looked at are the same, whatever there is in places further on. -/
theorem exists_source_of_settingsFor (h : settingsFor readers ws env c path = .ok s) :
    ∃ source base, IsSource ws c path source ∧ settingsOf readers ws source = .ok base ∧
      IsLayered env c.verify base s ∧
      ∀ ws', LooksAlikeFor ws ws' c path → settingsFor readers ws' env c path = .ok s := by
  have hsame : ∀ ws', LooksAlikeFor ws ws' c path → settingsFor readers ws' env c path = .ok s :=
    fun ws' hlooks => (settingsFor_congr hlooks).trans h
  rcases asksForNone_or c with hnone | ⟨text, htext, hne⟩
  · cases hplace : ws.resolve path with
    | error e =>
      rw [settingsFor_of_not_resolved hnone hplace] at h
      cases h
    | ok place =>
      rw [settingsFor_of_resolved hnone hplace] at h
      obtain ⟨base, hbase, rfl⟩ := map_eq_ok_iff.mp h
      have hfirst := Settings.isFirstFile_nearest? ws place Settings.searchDepth
      exact ⟨_, base, .searched place _ hnone hplace hfirst, hbase,
        isLayered_layered env c.verify base, hsame⟩
  · rw [settingsFor_of_asked htext hne] at h
    obtain ⟨base, hbase, rfl⟩ := map_eq_ok_iff.mp h
    exact ⟨_, base, .asked text htext hne, hbase, isLayered_layered env c.verify base, hsame⟩

/-! ## A file that hides another one -/

/-- A configuration text with one setting. -/
def depthText : List Char :=
  "manifest_search_depth = 2".toList

/-- A directory with a configuration file. -/
def configuredApp : Node :=
  .dir [("main.py", .file []), ("codestats.toml", .file (depthText.map fun c => .ofNat c.toNat))]

/-- The directory below a configuration file of the name that is preferred. -/
def configuredAbove (bytes : List UInt8) : Workspace :=
  ⟨.dir [("app", configuredApp), (".codestats.yml", .file bytes)], []⟩

/-- The text gives its one setting. -/
def givesDepth : Except DocumentProblem Value → Bool
  | .ok (.mapping [(.string "manifest_search_depth", .int 2)]) => true
  | _ => false

/-- A text that gives its one setting reads as this setting alone. -/
theorem eq_of_givesDepth {x : Except DocumentProblem Value} (h : givesDepth x = true) :
    x = .ok (.mapping [(.string "manifest_search_depth", .int 2)]) := by
  unfold givesDepth at h
  split at h
  · rfl
  · cases h

theorem isPlain_configuredApp : configuredApp.IsPlain :=
  .dir _ (by decide) (List.forall_mem_cons.mpr ⟨.file _, List.forall_mem_singleton.mpr (.file _)⟩)

theorem isPlain_configuredAbove (bytes : List UInt8) : (configuredAbove bytes).root.IsPlain := by
  have hnames : "app" ≠ ".." ∧ ".codestats.yml" ≠ ".." := by decide
  exact .dir _ (List.forall_mem_cons.mpr ⟨hnames.1, List.forall_mem_singleton.mpr hnames.2⟩)
    (List.forall_mem_cons.mpr ⟨isPlain_configuredApp, List.forall_mem_singleton.mpr (.file _)⟩)

theorem resolve_configuredAbove (bytes : List UInt8) :
    (configuredAbove bytes).resolve ⟨"/", ["app", "main.py"]⟩ = .ok ⟨"/", ["app", "main.py"]⟩ :=
  Workspace.resolve_of_linkFree (isPlain_configuredAbove bytes).linkFree (by decide)

theorem looksAlikeBelow_configuredAbove (bytes bytes' : List UInt8) :
    (configuredAbove bytes).LooksAlikeBelow (configuredAbove bytes') ⟨"/", ["app"]⟩ :=
  Workspace.looksAlikeBelow_of_at? rfl (by decide) rfl rfl isPlain_configuredApp

theorem searchStart_configuredAbove (bytes : List UInt8) :
    Settings.searchStart (configuredAbove bytes) ⟨"/", ["app", "main.py"]⟩ = ⟨"/", ["app"]⟩ := by
  have hlook : (configuredAbove bytes).look (Path.child ⟨"/", ["app"]⟩ "main.py") =
      .ok (["app", "main.py"], .file []) :=
    Workspace.look_child_of_lookup_file rfl (by decide) rfl isPlain_configuredApp (by decide) rfl
  have hnot : (configuredAbove bytes).isDir ⟨"/", ["app", "main.py"]⟩ = false := by
    rw [Workspace.isDir, show Workspace.look _ ⟨"/", ["app", "main.py"]⟩ = _ from hlook]
  rw [Settings.searchStart, hnot]
  rfl

theorem look_configuredAbove (bytes : List UInt8) :
    (configuredAbove bytes).look (Path.child ⟨"/", ["app"]⟩ "codestats.toml") =
      .ok (["app", "codestats.toml"], .file (depthText.map fun c => .ofNat c.toNat)) :=
  Workspace.look_child_of_lookup_file rfl (by decide) rfl isPlain_configuredApp (by decide) rfl

theorem isFile_configuredAbove (bytes : List UInt8) :
    (configuredAbove bytes).isFile (Path.child ⟨"/", ["app"]⟩ "codestats.toml") = true := by
  rw [Workspace.isFile, look_configuredAbove]

theorem places_app : ∃ back, Settings.places ⟨"/", ["app"]⟩ Settings.searchDepth =
    [Path.child ⟨"/", ["app"]⟩ ".codestats.yml", Path.child ⟨"/", ["app"]⟩ ".codestats.yaml"] ++
      Path.child ⟨"/", ["app"]⟩ "codestats.toml" :: back :=
  ⟨_, rfl⟩

theorem nearest?_configuredAbove (bytes : List UInt8) :
    Settings.nearest? (configuredAbove bytes) ⟨"/", ["app", "main.py"]⟩ Settings.searchDepth =
      some (Path.child ⟨"/", ["app"]⟩ "codestats.toml") := by
  have hnone : ∀ name, name ≠ ".." →
      [("main.py", Node.file []), ("codestats.toml", .file (depthText.map fun c =>
        .ofNat c.toNat))].lookup name = none →
      (configuredAbove bytes).isFile (Path.child ⟨"/", ["app"]⟩ name) = false :=
    fun name hname hlookup => Workspace.isFile_child_of_lookup_none rfl (by decide) rfl
      isPlain_configuredApp hname hlookup
  obtain ⟨back, hplaces⟩ := places_app
  rw [Settings.nearest?_eq_find?, searchStart_configuredAbove, hplaces]
  simp only [List.cons_append, List.nil_append, List.find?_cons]
  rw [hnone ".codestats.yml" (by decide) rfl, hnone ".codestats.yaml" (by decide) rfl,
    isFile_configuredAbove]

theorem load_configuredAbove (bytes : List UInt8) :
    Settings.load .standard (configuredAbove bytes) {} (Path.child ⟨"/", ["app"]⟩ "codestats.toml") =
      .ok { manifestSearchDepth := .whole 2 } := by
  have hexists : (configuredAbove bytes).pathExists (Path.child ⟨"/", ["app"]⟩ "codestats.toml") =
      true := by
    rw [Workspace.pathExists, look_configuredAbove]
    rfl
  have htext : (configuredAbove bytes).readStrict (Path.child ⟨"/", ["app"]⟩ "codestats.toml") =
      .ok (some depthText) := by
    rw [Workspace.readStrict, Workspace.readBytes, look_configuredAbove]
    exact congrArg Except.ok (by decide +kernel)
  have hformat : Settings.Format.ofSuffix? (Path.suffix (Path.child ⟨"/", ["app"]⟩
      "codestats.toml")) = some .toml := by decide
  have hread : Settings.Format.toml.read .standard depthText =
      .ok (.mapping [(.string "manifest_search_depth", .int 2)]) :=
    eq_of_givesDepth (by decide +kernel)
  have hsettings : Settings.ofMapping [(.string "manifest_search_depth", .int 2)] =
      .ok { manifestSearchDepth := .whole 2 } := rfl
  rw [Settings.load_of_read hexists htext hformat hread, hsettings]
  rfl

theorem looksAlikeFor_configuredAbove (bytes bytes' : List UInt8) :
    LooksAlikeFor (configuredAbove bytes) (configuredAbove bytes') {}
      ⟨"/", ["app", "main.py"]⟩ := by
  have hbelow := looksAlikeBelow_configuredAbove bytes bytes'
  have hplace : ∀ place, (configuredAbove bytes).resolve ⟨"/", ["app", "main.py"]⟩ = .ok place →
      place = ⟨"/", ["app", "main.py"]⟩ := fun place h => by
    rw [resolve_configuredAbove] at h
    exact (Except.ok.inj h).symm
  constructor
  · intro text htext
    cases htext
  · intro _
    rw [resolve_configuredAbove, resolve_configuredAbove]
  · intro place _ h
    rw [hplace place h]
    exact (hbelow.child (show "main.py" ≠ ".." by decide)).isDir
  · intro place p _ h hreached
    rw [hplace place h, searchStart_configuredAbove] at hreached
    obtain ⟨back, hplaces⟩ := places_app
    have hp := hreached.mem_of_isFile hplaces (isFile_configuredAbove bytes)
    have hnames : ".codestats.yml" ≠ ".." ∧ ".codestats.yaml" ≠ ".." ∧ "codestats.toml" ≠ ".." := by
      decide
    simp only [List.cons_append, List.nil_append, List.mem_cons, List.not_mem_nil, or_false] at hp
    rcases hp with rfl | rfl | rfl
    · exact (hbelow.child hnames.1).look
    · exact (hbelow.child hnames.2.1).look
    · exact (hbelow.child hnames.2.2).look

/-- The file beside what is analysed hides the one above it, whatever this holds. -/
theorem exists_source_of_settingsFor_hidden :
    settingsFor .standard (configuredAbove []) { verify := some " On" } {}
      ⟨"/", ["app", "main.py"]⟩ = .ok { manifestSearchDepth := .whole 2, verifyDependencies := .bool true } ∧
    ∃ source base, IsSource (configuredAbove []) {} ⟨"/", ["app", "main.py"]⟩ source ∧
      settingsOf .standard (configuredAbove []) source = .ok base ∧
      IsLayered { verify := some " On" } false base
        { manifestSearchDepth := .whole 2, verifyDependencies := .bool true } ∧
      settingsFor .standard (configuredAbove [255]) { verify := some " On" } {}
        ⟨"/", ["app", "main.py"]⟩ = .ok { manifestSearchDepth := .whole 2, verifyDependencies := .bool true } := by
  have h : settingsFor .standard (configuredAbove []) { verify := some " On" } {}
      ⟨"/", ["app", "main.py"]⟩ =
        .ok { manifestSearchDepth := .whole 2, verifyDependencies := .bool true } := by
    rw [settingsFor_of_resolved (.inl rfl) (resolve_configuredAbove []),
      nearest?_configuredAbove, settingsOf, load_configuredAbove]
    rfl
  obtain ⟨source, base, hsource, hbase, hlayered, hsame⟩ := exists_source_of_settingsFor h
  exact ⟨h, source, base, hsource, hbase, hlayered,
    hsame _ (looksAlikeFor_configuredAbove [] [255])⟩

end CommandLine

end SourceSurvey
