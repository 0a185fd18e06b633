import SourceSurvey.Package.Status
import SourceSurvey.Proofs.Failure.Refusal
import SourceSurvey.Proofs.Package.Level
import SourceSurvey.Proofs.Workspace.Link
import SourceSurvey.Value.Readers
import Mathlib.Data.List.Forall2

/-!
# What verification changes

The dependencies of a file are looked up among the known packages, and with verification on the
tools of the package system are asked about those that are not found there. Main statement: a run
with verification gives an answer exactly when every command that it needs can be put together and
called. It then says of every dependency what the run without it says, unless a command was needed,
and then the outcome of the command decides. Every command is given up after the time that the
settings allow.
-/

namespace SourceSurvey

/-- The settings have values of the kinds that they are meant for: a whole number of directories,
and texts for the tools. -/
structure Settings.IsWellTyped (settings : Settings) : Prop where
  depth : ∀ x, settings.manifestSearchDepth ≠ .real x
  python : settings.pythonExecutable.IsText
  node : settings.nodeExecutable.IsText
  composer : settings.composerExecutable.IsText

/-- The call of a command comes to an end of some kind and does not fail itself. -/
def Outcome.IsAnswer (outcome : Outcome) : Prop :=
  ∀ fault, outcome ≠ .broken fault

namespace Dependency

variable {readers : DocumentReaders} {ws : Workspace} {settings : Settings} {tools : Toolchain}
  {ecosystem : Ecosystem} {dir file place : Path} {d : Dependency} {c : Command}
  {known : Option (List String)} {imports : List ImportStatement} {tag : String}
  {found : InstallStatus × Option Command}

/-! ## Commands -/

/-- A command is waited for as long as the settings say. -/
theorem timeout_of_command (h : d.command ecosystem settings dir = .ok c) :
    c.timeout = settings.verificationTimeout := by
  unfold command at h
  split at h
  · cases h
    rfl
  · cases h

/-- A command that was needed is the one about the dependency. -/
theorem command_of_status {s : InstallStatus}
    (h : d.status ecosystem settings dir tools known = .ok (s, some c)) :
    d.command ecosystem settings dir = .ok c := by
  unfold status at h
  dsimp only at h
  split at h
  · cases h
  · obtain ⟨asked, hasked, h⟩ := bind_eq_ok_iff.mp h
    obtain ⟨s, -, h⟩ := bind_eq_ok_iff.mp h
    cases h
    exact hasked

/-- A command is run for one of the packages that a file imports, with the tool of their system. -/
theorem exists_command_of_mem_check {issues : List DependencyStatus} {commands : List Command}
    (h : check readers ws settings tools imports file tag = .ok (issues, commands))
    (hc : c ∈ commands) : ∃ ecosystem, Ecosystem.ofTag? tag = some ecosystem ∧
      ∃ d ∈ ofImports ecosystem imports, ∃ dir, d.command ecosystem settings dir = .ok c := by
  unfold check at h
  split at h
  · cases h
    cases hc
  · next ecosystem htag =>
    refine ⟨ecosystem, htag, ?_⟩
    split at h
    · cases h
      cases hc
    · obtain ⟨place, -, h⟩ := bind_eq_ok_iff.mp h
      obtain ⟨known, -, h⟩ := bind_eq_ok_iff.mp h
      obtain ⟨found, hfound, h⟩ := bind_eq_ok_iff.mp h
      cases h
      obtain ⟨answer, hanswer, hcommand⟩ := List.mem_filterMap.mp hc
      obtain ⟨d, hd, hanswered⟩ := exists_of_mem_mapM hfound hanswer
      obtain ⟨⟨s, c'⟩, hstatus, hpair⟩ := bind_eq_ok_iff.mp hanswered
      cases hpair
      cases hcommand
      exact ⟨d, hd, _, command_of_status (mapError_eq_ok_iff.mp hstatus)⟩

/-- No command is waited for longer than the settings allow. -/
theorem timeout_of_mem_check {issues : List DependencyStatus} {commands : List Command}
    (h : check readers ws settings tools imports file tag = .ok (issues, commands))
    (hc : c ∈ commands) : c.timeout = settings.verificationTimeout := by
  obtain ⟨ecosystem, -, d, -, dir, hcommand⟩ := exists_command_of_mem_check h hc
  exact timeout_of_command hcommand

/-- With settings of the kinds that they are meant for, there is a command about each dependency. -/
theorem exists_command_eq_ok (h : settings.IsWellTyped) (d : Dependency) (ecosystem : Ecosystem)
    (dir : Path) : ∃ c, d.command ecosystem settings dir = .ok c := by
  obtain ⟨name, hname⟩ : ∃ name, tool settings ecosystem = .string name := by
    cases ecosystem with
    | python => exact h.python
    | javascript => exact h.node
    | php => exact h.composer
    | other => exact h.composer
  unfold command
  rw [hname]
  exact ⟨_, rfl⟩

/-! ## One dependency -/

/-- A dependency can be asked about: there is a command about it, and its call does not fail. -/
def IsAnswered (d : Dependency) (ecosystem : Ecosystem) (settings : Settings) (dir : Path)
    (tools : Toolchain) : Prop :=
  ∃ c, d.command ecosystem settings dir = .ok c ∧ (tools c).IsAnswer

/-- The status that an outcome shows, if it is an answer. -/
def shown (outcome : Outcome) : InstallStatus :=
  if outcome = .exited 0 then .installed else .missing

theorem shown_eq_installed_iff {outcome : Outcome} :
    shown outcome = .installed ↔ outcome = .exited 0 := by
  unfold shown
  split <;> simp [*]

theorem statusOf_eq_ok_iff {outcome : Outcome} {s : InstallStatus} :
    statusOf outcome = .ok s ↔ outcome.IsAnswer ∧ s = shown outcome := by
  cases outcome with
  | exited code =>
    have hshown : shown (.exited code) = if code == 0 then .installed else .missing := by
      simp [shown]
    have hanswer : (Outcome.exited code).IsAnswer := by simp [Outcome.IsAnswer]
    rw [statusOf, hshown, Except.ok.injEq, and_iff_right hanswer, eq_comm]
  | timedOut => simp [statusOf, Outcome.IsAnswer, shown, eq_comm]
  | notStarted => simp [statusOf, Outcome.IsAnswer, shown, eq_comm]
  | broken fault => simp [statusOf, Outcome.IsAnswer]

/-- What a run with verification finds about a dependency: that it is known to be installed, or what
the outcome of a command shows. -/
inductive IsFound (d : Dependency) (ecosystem : Ecosystem) (settings : Settings) (dir : Path)
    (tools : Toolchain) (known : Option (List String)) : InstallStatus × Option Command → Prop where
  | known (h : d.knownStatus ecosystem known = .installed) :
      IsFound d ecosystem settings dir tools known (.installed, none)
  | asked (h : d.knownStatus ecosystem known ≠ .installed) {c : Command}
      (hcommand : d.command ecosystem settings dir = .ok c) (hanswer : (tools c).IsAnswer) :
      IsFound d ecosystem settings dir tools known (shown (tools c), some c)

/-- Without verification a dependency has the status that is known, and no command is needed. -/
theorem status_of_off (h : settings.verifyDependencies.isFalsy = true) :
    d.status ecosystem settings dir tools known = .ok (d.knownStatus ecosystem known, none) := by
  unfold status
  simp [h, pure, Except.pure]

/-- What is known to be installed has this status, and no command is needed. -/
theorem status_of_installed (h : d.knownStatus ecosystem known = .installed) :
    d.status ecosystem settings dir tools known = .ok (.installed, none) := by
  unfold status
  simp [h, pure, Except.pure]

/-- With verification a command is needed about everything else. -/
theorem status_of_not_installed (hon : settings.verifyDependencies.isFalsy = false)
    (h : d.knownStatus ecosystem known ≠ .installed) :
    d.status ecosystem settings dir tools known = d.command ecosystem settings dir >>= fun c =>
      statusOf (tools c) >>= fun s => pure (s, some c) := by
  unfold status
  simp [h, hon]

/-- A run with verification finds out about a dependency in these two ways, and fails otherwise. -/
theorem status_eq_ok_iff (hon : settings.verifyDependencies.isFalsy = false) :
    d.status ecosystem settings dir tools known = .ok found ↔
      d.IsFound ecosystem settings dir tools known found := by
  by_cases h : d.knownStatus ecosystem known = .installed
  · rw [status_of_installed h, Except.ok.injEq]
    constructor
    · rintro rfl
      exact .known h
    · rintro (_ | ⟨hnot, -, -⟩)
      · rfl
      · exact absurd h hnot
  · rw [status_of_not_installed hon h, bind_eq_ok_iff]
    constructor
    · rintro ⟨c, hcommand, hstatus⟩
      obtain ⟨s, hs, ⟨⟩⟩ := bind_eq_ok_iff.mp hstatus
      obtain ⟨hanswer, rfl⟩ := statusOf_eq_ok_iff.mp hs
      exact .asked h hcommand hanswer
    · rintro (hknown | ⟨-, hcommand, hanswer⟩)
      · exact absurd hknown h
      · exact ⟨_, hcommand,
          bind_eq_ok_iff.mpr ⟨_, statusOf_eq_ok_iff.mpr ⟨hanswer, rfl⟩, rfl⟩⟩

/-- A run with verification fails for what is not known to be installed and cannot be asked about. -/
theorem exists_status_iff (hon : settings.verifyDependencies.isFalsy = false) :
    (∃ found, d.status ecosystem settings dir tools known = .ok found) ↔
      (d.knownStatus ecosystem known ≠ .installed →
        d.IsAnswered ecosystem settings dir tools) := by
  simp only [status_eq_ok_iff hon]
  constructor
  · rintro ⟨_, (hknown | ⟨-, hcommand, hanswer⟩)⟩ h
    · exact absurd hknown h
    · exact ⟨_, hcommand, hanswer⟩
  · intro h
    by_cases hknown : d.knownStatus ecosystem known = .installed
    · exact ⟨_, .known hknown⟩
    · obtain ⟨c, hcommand, hanswer⟩ := h hknown
      exact ⟨_, .asked hknown hcommand hanswer⟩

/-- A command does not depend on whether dependencies are verified. -/
theorem IsFound.of_verifying {v : Value}
    (h : d.IsFound ecosystem { settings with verifyDependencies := v } dir tools known found) :
    d.IsFound ecosystem settings dir tools known found := by
  cases h with
  | known hinstalled => exact .known hinstalled
  | asked hnot hcommand hanswer => exact .asked hnot hcommand hanswer

/-! ## All dependencies of a file -/

/-- What is found about each dependency of a list, by the dependency. -/
theorem exists_found {ds : List Dependency}
    (h : ∀ d ∈ ds, ∃ found, d.status ecosystem settings dir tools known = .ok found) :
    ∃ found : Dependency → InstallStatus × Option Command,
      ∀ d ∈ ds, d.status ecosystem settings dir tools known = .ok (found d) := by
  have : Nonempty (InstallStatus × Option Command) := ⟨(.unknown, none)⟩
  choose! found hfound using h
  exact ⟨found, hfound⟩

/-- Once it is known what each dependency is found to be, so is the answer about all. -/
theorem check_of_status (htag : Ecosystem.ofTag? tag = some ecosystem)
    (hplace : ws.resolve file = .ok place)
    (hknown : Package.known readers ws place.parent ecosystem settings.manifestSearchDepth =
      .ok known) (found : Dependency → InstallStatus × Option Command)
    (h : ∀ d ∈ ofImports ecosystem imports,
      d.status ecosystem settings place.parent tools known = .ok (found d)) :
    check readers ws settings tools imports file tag =
      .ok ((ofImports ecosystem imports).map fun d => d.issue ecosystem (found d).1,
        (ofImports ecosystem imports).filterMap fun d => (found d).2) := by
  unfold check
  rw [htag]
  dsimp only
  cases hdeps : ofImports ecosystem imports with
  | nil => rfl
  | cons first rest =>
    rw [hdeps] at h
    refine bind_eq_ok_iff.mpr ⟨place, hplace, bind_eq_ok_iff.mpr
      ⟨known, mapError_eq_ok_iff.mpr hknown, bind_eq_ok_iff.mpr
        ⟨(first :: rest).map fun d => (d.issue ecosystem (found d).1, (found d).2), ?_, ?_⟩⟩⟩
    · refine mapM_eq_ok_iff.mpr ?_
      rw [List.map_map]
      refine List.map_congr_left fun d hd => bind_eq_ok_iff.mpr ?_
      exact ⟨found d, mapError_eq_ok_iff.mpr (h d hd), rfl⟩
    · show Except.ok (_, _) = Except.ok (_, _)
      rw [List.map_map, List.filterMap_map]
      rfl

/-- An answer says of each dependency what it is found to be. -/
theorem check_eq_ok_iff {answer : List DependencyStatus × List Command}
    (htag : Ecosystem.ofTag? tag = some ecosystem) (hplace : ws.resolve file = .ok place)
    (hknown : Package.known readers ws place.parent ecosystem settings.manifestSearchDepth =
      .ok known) :
    check readers ws settings tools imports file tag = .ok answer ↔
      ∃ found : Dependency → InstallStatus × Option Command,
        (∀ d ∈ ofImports ecosystem imports,
          d.status ecosystem settings place.parent tools known = .ok (found d)) ∧
        answer = ((ofImports ecosystem imports).map fun d => d.issue ecosystem (found d).1,
          (ofImports ecosystem imports).filterMap fun d => (found d).2) := by
  constructor
  · intro h
    have hstatuses : ∀ d ∈ ofImports ecosystem imports, ∃ found,
        d.status ecosystem settings place.parent tools known = .ok found := by
      unfold check at h
      rw [htag] at h
      dsimp only at h
      -- without dependencies nothing is known and nothing has to be
      cases hdeps : ofImports ecosystem imports with
      | nil => exact List.forall_mem_nil _
      | cons first rest =>
        rw [hdeps] at h
        obtain ⟨place', hplace', h⟩ := bind_eq_ok_iff.mp h
        cases hplace'.symm.trans hplace
        obtain ⟨known', hknown', h⟩ := bind_eq_ok_iff.mp h
        cases (mapError_eq_ok_iff.mp hknown').symm.trans hknown
        obtain ⟨all, hall, -⟩ := bind_eq_ok_iff.mp h
        intro d hd
        obtain ⟨_, hanswered⟩ := exists_mapM_eq_ok_iff.mp ⟨all, hall⟩ d hd
        obtain ⟨found, hfound, -⟩ := bind_eq_ok_iff.mp hanswered
        exact ⟨found, mapError_eq_ok_iff.mp hfound⟩
    obtain ⟨found, hfound⟩ := exists_found hstatuses
    have hanswer := check_of_status htag hplace hknown found hfound
    exact ⟨found, hfound, Except.ok.inj (h.symm.trans hanswer)⟩
  · rintro ⟨found, hfound, rfl⟩
    exact check_of_status htag hplace hknown found hfound

/-- Without verification the answer goes by what is known alone. -/
theorem check_of_off (tools : Toolchain) (imports : List ImportStatement)
    (htag : Ecosystem.ofTag? tag = some ecosystem) (hplace : ws.resolve file = .ok place)
    (hknown : Package.known readers ws place.parent ecosystem settings.manifestSearchDepth =
      .ok known) (h : settings.verifyDependencies.isFalsy = true) :
    check readers ws settings tools imports file tag =
      .ok ((ofImports ecosystem imports).map fun d =>
        d.issue ecosystem (d.knownStatus ecosystem known), []) := by
  rw [check_of_status htag hplace hknown (fun d => (d.knownStatus ecosystem known, none))
    fun d _ => status_of_off h, List.filterMap_none]

/-- A run with verification gives an answer exactly when all dependencies that are not known to be
installed can be asked about. -/
theorem exists_check_eq_ok_iff (htag : Ecosystem.ofTag? tag = some ecosystem)
    (hplace : ws.resolve file = .ok place)
    (hknown : Package.known readers ws place.parent ecosystem settings.manifestSearchDepth =
      .ok known) (hon : settings.verifyDependencies.isFalsy = false) :
    (∃ answer, check readers ws settings tools imports file tag = .ok answer) ↔
      ∀ d ∈ ofImports ecosystem imports, d.knownStatus ecosystem known ≠ .installed →
        d.IsAnswered ecosystem settings place.parent tools := by
  simp only [← exists_status_iff hon, check_eq_ok_iff htag hplace hknown]
  constructor
  · rintro ⟨_, found, hfound, -⟩ d hd
    exact ⟨found d, hfound d hd⟩
  · intro h
    obtain ⟨found, hfound⟩ := exists_found h
    exact ⟨_, found, hfound, rfl⟩

/-- With settings of the kinds that they are meant for, and calls that do not fail, every dependency
is given a status. -/
theorem exists_check_eq_ok (hsettings : settings.IsWellTyped)
    (htag : Ecosystem.ofTag? tag = some ecosystem) (hplace : ws.resolve file = .ok place)
    (hknown : Package.known readers ws place.parent ecosystem settings.manifestSearchDepth =
      .ok known)
    (htools : settings.verifyDependencies.isFalsy = true ∨ ∀ c, (tools c).IsAnswer) :
    ∃ answer, check readers ws settings tools imports file tag = .ok answer := by
  cases hverify : settings.verifyDependencies.isFalsy with
  | true => exact ⟨_, check_of_off tools imports htag hplace hknown hverify⟩
  | false =>
    refine (exists_check_eq_ok_iff htag hplace hknown hverify).mpr fun d _ _ => ?_
    obtain ⟨c, hcommand⟩ := exists_command_eq_ok hsettings d ecosystem place.parent
    refine ⟨c, hcommand, htools.resolve_left ?_ c⟩
    simp [hverify]

/-! ## Both runs -/

/-- What is said about a dependency by a run without verification and by a run with it. -/
structure Comparison where
  dependency : Dependency
  unverified : DependencyStatus
  verified : DependencyStatus

/-- The status is that of a dependency, and says how to install it only if it is missing. -/
structure IsReportedBy (d : Dependency) (ecosystem : Ecosystem) (i : DependencyStatus) : Prop where
  name : i.name = d.name
  line : i.line = d.line
  hasHint_iff : i.installHint.isSome ↔ i.status = .missing
  hint : ∀ text ∈ i.installHint, text = ecosystem.installCommand ++ " " ++ d.name

/-- Both runs report the dependency. The one without verification goes by the packages that are
known. The one with verification keeps what is installed, and decides the rest by the outcome of a
command. -/
structure Comparison.IsSound (run : Comparison) (ecosystem : Ecosystem) (settings : Settings)
    (dir : Path) (tools : Toolchain) (known : Option (List String)) : Prop where
  unverified_reports : run.dependency.IsReportedBy ecosystem run.unverified
  verified_reports : run.dependency.IsReportedBy ecosystem run.verified
  isKnown_iff : run.unverified.status = .installed ↔
    ∃ names, known = some names ∧ run.dependency.isKnown ecosystem names = true
  kept : run.unverified.status = .installed → run.verified.status = .installed
  decided : run.unverified.status ≠ .installed → ∃ command,
    run.dependency.command ecosystem settings dir = .ok command ∧
      (run.verified.status = .installed ↔ tools command = .exited 0) ∧
      (run.verified.status ≠ .installed → run.verified.status = .missing)
  known : run.verified.status ≠ .unknown

/-- What is said about a dependency names it and its line, and a hint stands with a missing one. -/
theorem isReportedBy_issue (d : Dependency) (ecosystem : Ecosystem) (s : InstallStatus) :
    d.IsReportedBy ecosystem (d.issue ecosystem s) := by
  refine ⟨rfl, rfl, ?_, ?_⟩ <;> cases s <;> simp [issue]

/-- By the known packages a dependency is installed if its name is among theirs. -/
theorem knownStatus_eq_installed_iff : d.knownStatus ecosystem known = .installed ↔
    ∃ names, known = some names ∧ d.isKnown ecosystem names = true := by
  unfold knownStatus
  cases known with
  | none => simp
  | some names => cases hknown : d.isKnown ecosystem names <;> simp [hknown]

/-- The two runs about one dependency. -/
def compared (ecosystem : Ecosystem) (known : Option (List String))
    (found : Dependency → InstallStatus × Option Command) (d : Dependency) : Comparison :=
  ⟨d, d.issue ecosystem (d.knownStatus ecosystem known), d.issue ecosystem (found d).1⟩

theorem isSound_compared {found : Dependency → InstallStatus × Option Command}
    (h : d.IsFound ecosystem settings dir tools known (found d)) :
    (d.compared ecosystem known found).IsSound ecosystem settings dir tools known := by
  have hreports := isReportedBy_issue d ecosystem
  generalize hpair : found d = pair at h
  have hverified : (d.compared ecosystem known found).verified = d.issue ecosystem pair.1 := by
    rw [← hpair]
    rfl
  refine ⟨hreports _, hreports _, knownStatus_eq_installed_iff, ?_, ?_, ?_⟩
  · intro hinstalled
    rw [hverified]
    cases h with
    | known _ => rfl
    | asked hnot _ _ => exact absurd hinstalled hnot
  · intro hnot
    rw [hverified]
    cases h with
    | known hinstalled => exact absurd hinstalled hnot
    | asked _ hcommand _ =>
      refine ⟨_, hcommand, shown_eq_installed_iff, fun hmissing => ?_⟩
      exact if_neg fun hexit => hmissing (if_pos hexit)
  · rw [hverified]
    cases h with
    | known _ => exact nofun
    | asked _ _ _ =>
      show shown _ ≠ _
      unfold shown
      split <;> simp

/-- The commands of a run with verification are those about the dependencies that a run without it
does not find installed. -/
theorem forall₂_command {found : Dependency → InstallStatus × Option Command}
    {ds : List Dependency}
    (h : ∀ d ∈ ds, d.IsFound ecosystem settings dir tools known (found d)) :
    List.Forall₂ (fun d command => d.command ecosystem settings dir = .ok command)
      (ds.filter fun d => d.knownStatus ecosystem known ≠ .installed)
      (ds.filterMap fun d => (found d).2) := by
  induction ds with
  | nil => exact .nil
  | cons d ds ih =>
    obtain ⟨hd, hds⟩ := List.forall_mem_cons.mp h
    generalize hpair : found d = pair at hd
    cases hd with
    | known hinstalled =>
      rw [List.filter_cons_of_neg (by simp [hinstalled]),
        List.filterMap_cons_none (by rw [hpair])]
      exact ih hds
    | asked hnot hcommand _ =>
      rw [List.filter_cons_of_pos (by simp [hnot]), List.filterMap_cons_some (by rw [hpair])]
      exact .cons hcommand (ih hds)

/-- Without verification the dependencies of a file are reported one by one and no command is run.
With it there is an answer exactly when each dependency that is not known to be installed can be
asked about. One command is then run for each of these, in their order, and what the two runs say of
a dependency differs by the outcome of its command alone. -/
theorem exists_check_compared (tools : Toolchain) (imports : List ImportStatement)
    (hdepth : ∀ x, settings.manifestSearchDepth ≠ .real x)
    (htag : Ecosystem.ofTag? tag = some ecosystem) (hfile : ¬ ws.IsCircular file)
    (hmanifests : ∀ place, ws.resolve file = .ok place →
      ∀ dir ∈ Package.upward place.parent, Manifest.WellShapedIn readers ws dir ecosystem)
    {off on : Value} (hoff : off.isFalsy = true) (hon : on.isFalsy = false) :
    ∃ (place : Path) (known : Option (List String)),
      ws.resolve file = .ok place ∧
      Package.known readers ws place.parent ecosystem settings.manifestSearchDepth = .ok known ∧
      (∃ issues, check readers ws { settings with verifyDependencies := off } tools imports file
          tag = .ok (issues, []) ∧
        List.Forall₂ (fun d i => d.IsReportedBy ecosystem i) (ofImports ecosystem imports)
          issues) ∧
      ((∃ answer, check readers ws { settings with verifyDependencies := on } tools imports file
          tag = .ok answer) ↔
        ∀ d ∈ ofImports ecosystem imports,
          (¬ ∃ names, known = some names ∧ d.isKnown ecosystem names = true) →
            d.IsAnswered ecosystem settings place.parent tools) ∧
      ∀ issues commands, check readers ws { settings with verifyDependencies := on } tools imports
          file tag = .ok (issues, commands) →
        ∃ runs : List Comparison,
          runs.map (·.dependency) = ofImports ecosystem imports ∧
          check readers ws { settings with verifyDependencies := off } tools imports file tag =
            .ok (runs.map (·.unverified), []) ∧
          issues = runs.map (·.verified) ∧
          List.Forall₂ (fun run command =>
              run.dependency.command ecosystem settings place.parent = .ok command)
            (runs.filter fun run => run.unverified.status ≠ .installed) commands ∧
          ∀ run ∈ runs, run.IsSound ecosystem settings place.parent tools known := by
  obtain ⟨place, hplace⟩ := Workspace.exists_resolve_eq_ok hfile
  obtain ⟨known, hknown⟩ := Package.exists_known_eq_ok hdepth (hmanifests place hplace)
  -- the search for manifests and the commands do not ask whether dependencies are verified
  have hknownWith : ∀ v : Value, Package.known readers ws place.parent ecosystem
      { settings with verifyDependencies := v }.manifestSearchDepth = .ok known := fun _ => hknown
  have hunverified := check_of_off tools imports htag hplace (hknownWith off) hoff
  refine ⟨place, known, hplace, hknown, ⟨_, hunverified, ?_⟩, ?_, ?_⟩
  · rw [List.forall₂_map_right_iff]
    exact List.forall₂_same.mpr fun d _ => isReportedBy_issue d ecosystem _
  · simp only [← knownStatus_eq_installed_iff]
    exact exists_check_eq_ok_iff htag hplace (hknownWith on) hon
  · intro issues commands hverified
    obtain ⟨found, hfound, hanswer⟩ := (check_eq_ok_iff htag hplace (hknownWith on)).mp hverified
    obtain ⟨rfl, rfl⟩ := Prod.mk.inj hanswer
    have hways : ∀ d ∈ ofImports ecosystem imports,
        d.IsFound ecosystem settings place.parent tools known (found d) := fun d hd =>
      ((status_eq_ok_iff hon).mp (hfound d hd)).of_verifying
    refine ⟨(ofImports ecosystem imports).map (compared ecosystem known found), ?_, ?_, ?_, ?_, ?_⟩
    · rw [List.map_map]
      exact List.map_id _
    · rw [hunverified, List.map_map]
      rfl
    · rw [List.map_map]
      rfl
    · rw [List.filter_map, List.forall₂_map_left_iff]
      exact forall₂_command hways
    · exact List.forall_mem_map.mpr fun d hd => isSound_compared (hways d hd)

/-- A file beside a list of requirements that has one of the two packages that the file imports. -/
def requiring : Workspace :=
  ⟨.dir [("main.py", .file []),
    ("requirements.txt", .file [114, 101, 113, 117, 101, 115, 116, 115, 10])], []⟩

theorem wellShapedIn_requiring :
    Manifest.WellShapedIn readers requiring ⟨"/", []⟩ .python := by
  have hplain : requiring.root.IsPlain :=
    .dir _ (by decide) (List.forall_mem_cons.mpr ⟨.file _, List.forall_mem_singleton.mpr (.file _)⟩)
  exact Manifest.wellShapedIn_python_of_lookup_none rfl (by decide) rfl hplain (by decide)

/-- Imports of a package that is required and of one that is not. -/
def requests : List ImportStatement :=
  [⟨"requests", ["requests"], false, 1, 1⟩, ⟨"flask", ["Flask"], true, 2, 2⟩]

/-- On a machine where no tool can be started. -/
theorem exists_check_compared_requiring :
    ∃ (place : Path) (known : Option (List String)) (runs : List Comparison)
      (commands : List Command),
      requiring.resolve ⟨"/", ["main.py"]⟩ = .ok place ∧
      Package.known .standard requiring place.parent .python (.whole 5) = .ok known ∧
      runs.map (·.dependency) = ofImports .python requests ∧
      check .standard requiring { verifyDependencies := .bool false } (fun _ => .notStarted)
        requests ⟨"/", ["main.py"]⟩ "python" = .ok (runs.map (·.unverified), []) ∧
      check .standard requiring { verifyDependencies := .bool true } (fun _ => .notStarted)
        requests ⟨"/", ["main.py"]⟩ "python" = .ok (runs.map (·.verified), commands) ∧
      List.Forall₂ (fun run command =>
          run.dependency.command .python {} place.parent = .ok command)
        (runs.filter fun run => run.unverified.status ≠ .installed) commands ∧
      ∀ run ∈ runs, run.IsSound .python {} place.parent (fun _ => .notStarted) known := by
  have hplace : requiring.resolve ⟨"/", ["main.py"]⟩ = .ok ⟨"/", ["main.py"]⟩ :=
    Workspace.resolve_of_lookup (by decide) rfl
  have hsettings : Settings.IsWellTyped {} := ⟨nofun, ⟨_, rfl⟩, ⟨_, rfl⟩, ⟨_, rfl⟩⟩
  have hfile : ¬ requiring.IsCircular ⟨"/", ["main.py"]⟩ := by
    intro hcircle
    rw [Workspace.IsCircular, hplace] at hcircle
    cases hcircle
  have hmanifests : ∀ place, requiring.resolve ⟨"/", ["main.py"]⟩ = .ok place →
      ∀ dir ∈ Package.upward place.parent,
        Manifest.WellShapedIn .standard requiring dir .python := by
    intro place h dir hdir
    rw [hplace, Except.ok.injEq] at h
    subst h
    have htop : Package.upward (Path.parent ⟨"/", ["main.py"]⟩) = [⟨"/", []⟩] := by decide
    rw [htop, List.mem_singleton] at hdir
    subst hdir
    exact wellShapedIn_requiring
  obtain ⟨place, known, hresolved, hknown, -, hends, hruns⟩ := exists_check_compared
    (fun _ => .notStarted) requests hsettings.depth (rfl : Ecosystem.ofTag? "python" = some .python)
    hfile hmanifests (rfl : (Value.bool false).isFalsy = true)
    (rfl : (Value.bool true).isFalsy = false)
  have hasked : ∀ d ∈ ofImports .python requests,
      (¬ ∃ names, known = some names ∧ d.isKnown .python names = true) →
        d.IsAnswered .python {} place.parent fun _ => .notStarted := fun d _ _ =>
    (exists_command_eq_ok hsettings d .python place.parent).imp fun c hc => ⟨hc, nofun⟩
  obtain ⟨⟨issues, commands⟩, hverified⟩ := hends.mpr hasked
  obtain ⟨runs, hdependencies, hunverified, rfl, hcommands, hsound⟩ := hruns _ _ hverified
  exact ⟨place, known, runs, commands, hresolved, hknown, hdependencies, hunverified, hverified,
    hcommands, hsound⟩

/-- A script alone in its directory. -/
def alone : Workspace :=
  ⟨.dir [("a.js", .file [])], []⟩

/-- Nothing is known about packages beside it. -/
theorem known_alone :
    Package.known .standard alone ⟨"/", []⟩ .javascript (.whole 5) = .ok none := by
  have hplain : alone.root.IsPlain := .dir _ (by decide) (List.forall_mem_singleton.mpr (.file _))
  have hfile : alone.isFile (Path.child ⟨"/", []⟩ "package.json") = false :=
    Workspace.isFile_child_of_lookup_none rfl List.not_mem_nil rfl hplain (by decide) rfl
  have hnone : alone.look (Path.child ⟨"/", []⟩ "node_modules") = .error .missing :=
    Workspace.look_child rfl List.not_mem_nil rfl hplain (by decide)
  have hcandidates : Manifest.candidates alone ⟨"/", []⟩ .javascript = [] := by
    show [Path.child ⟨"/", []⟩ "package.json"].filter alone.isFile = []
    rw [List.filter_cons_of_neg (by rw [hfile]; exact Bool.false_ne_true), List.filter_nil]
  have hinstalled : Package.installed alone ⟨"/", []⟩ .javascript = [] := by
    have hnames : Package.namesIn alone (Path.child ⟨"/", []⟩ "node_modules") = [] := by
      rw [Package.namesIn, Workspace.entries, hnone]
    show Package.installedScripts alone ⟨"/", []⟩ = []
    unfold Package.installedScripts
    dsimp only
    rw [hnames]
    rfl
  have hhere : Package.knownIn .standard alone ⟨"/", []⟩ .javascript = .ok [] := by
    unfold Package.knownIn Manifest.ofDirectory
    rw [hcandidates, hinstalled]
    rfl
  have htop : (Package.upward ⟨"/", []⟩).take 5 = [⟨"/", []⟩] := by decide
  show Package.firstKnown .standard alone .javascript ((Package.upward ⟨"/", []⟩).take 5) = .ok none
  rw [htop, Package.firstKnown_of_nil hhere]
  rfl

/-- A tool prints what is no text, and nothing is said about the packages of a script. -/
theorem not_exists_check_undecodable :
    ¬ ∃ answer, check .standard alone { verifyDependencies := .bool true }
      (fun _ => .broken .undecodable) [⟨"lodash", ["_"], false, 1, 1⟩] ⟨"/", ["a.js"]⟩
      "javascript" = .ok answer := by
  have hplace : alone.resolve ⟨"/", ["a.js"]⟩ = .ok ⟨"/", ["a.js"]⟩ :=
    Workspace.resolve_of_lookup (by decide) rfl
  have himports : ofImports .javascript [⟨"lodash", ["_"], false, 1, 1⟩] =
      [⟨"lodash", "lodash", 1⟩] := by decide +kernel
  have hknown : Package.known .standard alone (Path.parent ⟨"/", ["a.js"]⟩) .javascript
      (Settings.manifestSearchDepth { verifyDependencies := .bool true }) = .ok none := known_alone
  rw [exists_check_eq_ok_iff rfl hplace hknown rfl, himports]
  intro hanswered
  obtain ⟨c, -, hanswer⟩ := hanswered _ List.mem_cons_self (by decide)
  exact hanswer .undecodable rfl

end Dependency

end SourceSurvey
