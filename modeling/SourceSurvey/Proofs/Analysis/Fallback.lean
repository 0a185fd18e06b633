import SourceSurvey.Proofs.Analysis.Enrichment
import SourceSurvey.Proofs.Package.Nearest
import SourceSurvey.Proofs.Package.Verification

/-!
# Files of languages that are not supported

A file whose language tag is not supported is read as one of the fallback language, but it has no
package system. Main statement: the answer about such a file is the one for the fallback language
when that is not asked about dependencies.
-/

namespace SourceSurvey

open SourceSurvey.Language (isSupported fallback)

variable {tag : String}

/-- Only supported languages have a package system. -/
theorem Ecosystem.isSupported_of_ofTag? {ecosystem : Ecosystem}
    (h : Ecosystem.ofTag? tag = some ecosystem) : isSupported tag = true := by
  unfold Ecosystem.ofTag? at h
  -- one case for each word with a package system, and one for all other tags
  split at h
  · decide
  · decide
  · decide
  · decide
  · decide
  · decide
  · cases h

/-- A language that is not supported has no packages. -/
theorem Ecosystem.ofTag?_of_not_isSupported (h : isSupported tag = false) :
    Ecosystem.ofTag? tag = none := by
  cases hecosystem : Ecosystem.ofTag? tag with
  | none => rfl
  | some ecosystem =>
    rw [Ecosystem.isSupported_of_ofTag? hecosystem] at h
    cases h

/-- A text of a language that is not supported has the summary of one of the fallback language. -/
theorem Summary.ofText_of_not_isSupported (h : isSupported tag = false) (text : List Char)
    (fileName : String) :
    Summary.ofText text fileName tag = Summary.ofText text fileName fallback := by
  have hfamily : Language.family tag = Language.family fallback := by
    have hnone : Language.tags.lookup tag = none := by
      simpa [isSupported] using h
    rw [Language.family, hnone]
    rfl
  have hfallback : isSupported fallback = true := by decide
  unfold Summary.ofText
  rw [hfamily, h, hfallback]
  rfl

namespace Request

variable {r r' : Request} {readers : DocumentReaders} {ws : Workspace} {settings : Settings}
  {tools : Toolchain} {s : Summary} {commands : List Command}

/-- A request whose summary fails has no answer. -/
theorem answer_of_error {e : Failure} (h : r.summary ws = .error e) :
    r.answer readers ws settings tools = .error e := by
  unfold answer
  rw [h]
  rfl

/-- Requests with the same text, dependencies and uses have the same answer. -/
theorem answer_congr (hsummary : r.summary ws = r'.summary ws)
    (hstatuses : ∀ parsed, r.statuses readers ws settings tools parsed =
      r'.statuses readers ws settings tools parsed)
    (husages : ∀ parsed, r.usages ws settings parsed = r'.usages ws settings parsed) :
    r.answer readers ws settings tools = r'.answer readers ws settings tools := by
  cases hparsed : r.summary ws with
  | error e => rw [answer_of_error hparsed, answer_of_error (hsummary.symm.trans hparsed)]
  | ok parsed =>
    rw [answer_of_summary hparsed, answer_of_summary (hsummary.symm.trans hparsed), hstatuses,
      husages]

/-- The request with a language tag. -/
def tagged (r : Request) (tag : String) : Request :=
  { r with tag := some tag }

/-- The request for all but the status of dependencies. -/
def withoutDependencies (r : Request) : Request :=
  { r with checksDependencies := false }

/-- A language that is not supported is summarised as the fallback is. -/
theorem summary_of_not_isSupported (h : isSupported tag = false) (r : Request) (ws : Workspace) :
    (r.tagged tag).summary ws = (r.tagged fallback).summary ws := by
  unfold summary
  exact bind_congr fun text => Summary.ofText_of_not_isSupported h text r.path.name

/-- Nothing is said about dependencies if that is not asked for, or if no package is imported. -/
theorem statuses_eq_nil {parsed : Summary} (h : r.checksDependencies = false ∨
      ∀ ecosystem, Ecosystem.ofTag? r.language = some ecosystem →
        Dependency.ofImports ecosystem parsed.imports = []) :
    r.statuses readers ws settings tools parsed = .ok ([], []) := by
  unfold statuses
  rcases h with hoff | hnone
  · rw [hoff]
    rfl
  · split
    · unfold Dependency.check
      cases hecosystem : Ecosystem.ofTag? r.language with
      | none => rfl
      | some ecosystem =>
        dsimp only
        rw [hnone ecosystem hecosystem]
        rfl
    · rfl

/-- Nothing is reported on the packages of such a language. -/
theorem statuses_of_not_isSupported (h : isSupported tag = false) (r : Request)
    (parsed : Summary) :
    (r.tagged tag).statuses readers ws settings tools parsed = .ok ([], []) := by
  refine statuses_eq_nil (.inr fun ecosystem hecosystem => ?_)
  rw [show (r.tagged tag).language = tag from rfl, Ecosystem.ofTag?_of_not_isSupported h]
    at hecosystem
  cases hecosystem

/-- The summary names the fallback as its language. -/
theorem language_of_summary {parsed : Summary} (h : (r.tagged fallback).summary ws = .ok parsed) :
    parsed.language = fallback := by
  obtain ⟨text, -, hparsed⟩ := bind_eq_ok_iff.mp h
  obtain ⟨found, -, hparsed⟩ := bind_eq_ok_iff.mp hparsed
  cases hparsed
  rfl

/-- What is answered for the fallback language is answered for one that is not supported, but nothing
about dependencies. -/
theorem answer_tagged_of_fallback (h : isSupported tag = false)
    (hanswer : (r.tagged fallback).answer readers ws settings tools = .ok (s, commands)) :
    (r.tagged tag).answer readers ws settings tools =
      .ok ({ s with dependencyStatuses := [] }, []) := by
  obtain ⟨parsed, issues, found, hparsed, -, hfound, rfl⟩ := answer_eq_ok_iff.mp hanswer
  exact answer_eq_ok_iff.mpr ⟨parsed, [], found, (summary_of_not_isSupported h r ws).trans hparsed,
    statuses_of_not_isSupported h r parsed, hfound, rfl⟩

/-- Without packages to look for, a summary is answered with nothing about dependencies. -/
theorem statuses_of_answer (hanswer : (r.tagged fallback).answer readers ws settings tools =
      .ok (s, commands))
    (h : r.checksDependencies = false ∨ Dependency.ofImports .python s.imports = []) :
    s.dependencyStatuses = [] ∧ commands = [] := by
  obtain ⟨parsed, issues, found, -, hissues, -, rfl⟩ := answer_eq_ok_iff.mp hanswer
  have hnothing : (r.tagged fallback).statuses readers ws settings tools parsed = .ok ([], []) := by
    refine statuses_eq_nil (h.imp_right fun himports ecosystem hecosystem => ?_)
    cases hecosystem
    exact himports
  rw [hissues] at hnothing
  cases hnothing
  exact ⟨rfl, rfl⟩

/-- The answer for a language that is not supported is that for the fallback language without the
status of dependencies. So it is the same in all else, and in that as well if dependencies are not
asked for or the file imports no package. -/
theorem answer_of_not_isSupported (h : isSupported tag = false) (r : Request)
    (readers : DocumentReaders) (ws : Workspace) (settings : Settings) (tools : Toolchain) :
    (r.tagged tag).answer readers ws settings tools =
        (r.tagged fallback).withoutDependencies.answer readers ws settings tools ∧
      ∀ s commands, (r.tagged fallback).answer readers ws settings tools = .ok (s, commands) →
        s.language = fallback ∧
        (r.tagged tag).answer readers ws settings tools =
          .ok ({ s with dependencyStatuses := [] }, []) ∧
        (r.checksDependencies = false ∨ Dependency.ofImports .python s.imports = [] →
          (r.tagged tag).answer readers ws settings tools =
            (r.tagged fallback).answer readers ws settings tools) := by
  constructor
  · exact answer_congr (summary_of_not_isSupported h r ws) (fun parsed =>
      (statuses_of_not_isSupported h r parsed).trans (statuses_eq_nil (.inl rfl)).symm) fun _ => rfl
  · intro s commands hanswer
    have hunsupported := answer_tagged_of_fallback h hanswer
    refine ⟨?_, hunsupported, fun hnone => ?_⟩
    · obtain ⟨parsed, issues, found, hparsed, -, -, rfl⟩ := answer_eq_ok_iff.mp hanswer
      show parsed.language = fallback
      exact language_of_summary hparsed
    · obtain ⟨hstatuses, rfl⟩ := statuses_of_answer hanswer hnone
      rw [hunsupported, hanswer, ← hstatuses]

/-! ## A file that imports a package -/

/-- A file with an import, in no directory with a manifest. -/
def importing : Workspace :=
  ⟨.dir [("app.rb", .file ("import requests\n".toList.map fun c => .ofNat c.toNat))], []⟩

def ofImporting : Request :=
  ⟨⟨"/", ["app.rb"]⟩, none, none, true⟩

theorem exists_known_importing :
    ∃ known, Package.known .standard importing ⟨"/", []⟩ .python (.whole 5) = .ok known := by
  refine Package.exists_known_of_wellShapedIn fun k _ hroot => ?_
  obtain rfl : k = 0 := Nat.le_zero.mp hroot
  have hplain : importing.root.IsPlain :=
    .dir _ (by decide) (List.forall_mem_singleton.mpr (.file _))
  exact Manifest.wellShapedIn_python_of_lookup_none rfl (by decide) rfl hplain (by decide)

/-- For the fallback language something is said about the package. -/
theorem exists_answer_importing : ∃ s commands,
    (ofImporting.tagged fallback).answer .standard importing {} (fun _ => .notStarted) =
        .ok (s, commands) ∧
      s.dependencyStatuses.map (·.name) = ["requests"] := by
  have hsource : source importing ⟨"/", ["app.rb"]⟩ = .ok "import requests\n".toList := by
    have hbytes : importing.readBytes ⟨"/", ["app.rb"]⟩ =
        .ok ("import requests\n".toList.map fun c => .ofNat c.toNat) :=
      Workspace.readBytes_of_lookup (by decide) rfl
    unfold source Workspace.readText
    rw [hbytes]
    decide +kernel
  have himports : (Summary.ofText "import requests\n".toList "app.rb" "python").map (fun s =>
      (Dependency.ofImports .python s.imports).map (·.name)) = .ok ["requests"] := by
    decide +kernel
  obtain ⟨parsed, hparsed, hnames⟩ := map_eq_ok_iff.mp himports
  have hplace : importing.resolve ⟨"/", ["app.rb"]⟩ = .ok ⟨"/", ["app.rb"]⟩ :=
    Workspace.resolve_of_lookup (by decide) rfl
  obtain ⟨known, hknown⟩ := exists_known_importing
  have hcheck := Dependency.check_of_off (fun _ => .notStarted) parsed.imports
    (rfl : Ecosystem.ofTag? fallback = some .python) hplace hknown
    (rfl : (Settings.verifyDependencies {}).isFalsy = true)
  have hanswer : (ofImporting.tagged fallback).answer .standard importing {} (fun _ => .notStarted) =
      .ok (enriched parsed _ [], []) := answer_eq_ok_iff.mpr
    ⟨parsed, _, [], bind_eq_ok_iff.mpr ⟨_, hsource, hparsed⟩, hcheck, rfl, rfl⟩
  refine ⟨_, [], hanswer, ?_⟩
  rw [← hnames]
  exact List.map_map

theorem answer_of_not_isSupported_ruby : ∃ s,
    (ofImporting.tagged "ruby").answer .standard importing {} (fun _ => .notStarted) = .ok (s, []) ∧
      s.language = fallback ∧ s.dependencyStatuses = [] := by
  obtain ⟨s, commands, hanswer, -⟩ := exists_answer_importing
  have hruby : isSupported "ruby" = false := by decide
  obtain ⟨hlanguage, hanswered, -⟩ :=
    (answer_of_not_isSupported hruby ofImporting .standard importing {} _).2 s commands hanswer
  exact ⟨_, hanswered, hlanguage, rfl⟩

/-- What is said about an imported package is lost with a tag that is not supported. -/
theorem not_forall_answer_eq_fallback :
    ¬ ∀ (tag : String) (r : Request) (ws : Workspace) (settings : Settings) (tools : Toolchain),
      isSupported tag = false →
        (r.tagged tag).answer .standard ws settings tools =
          (r.tagged fallback).answer .standard ws settings tools := by
  intro hall
  obtain ⟨s, commands, hanswer, hnames⟩ := exists_answer_importing
  have hruby : isSupported "ruby" = false := by decide
  have hsame := hall "ruby" ofImporting importing {} (fun _ => .notStarted) hruby
  rw [answer_tagged_of_fallback hruby hanswer, hanswer] at hsame
  have hnone : [] = s.dependencyStatuses :=
    congrArg Summary.dependencyStatuses (Prod.mk.inj (Except.ok.inj hsame)).1
  rw [← hnone] at hnames
  cases hnames

end Request

end SourceSurvey
