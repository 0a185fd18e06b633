import SourceSurvey.Analysis
import SourceSurvey.Proofs.Failure.Refusal
import SourceSurvey.Proofs.Usage.Exact
import SourceSurvey.Proofs.Workspace.Link
import SourceSurvey.Value.Readers

/-!
# What the surroundings of a file add to its summary

The answer about a file is the summary of its text with the status of its dependencies and the uses
of its names. Main statement: nothing else in the summary changes, and of the names that the text
leaves unused exactly those that other files use are taken out.
-/

namespace SourceSurvey

namespace Summary

variable {parsed s : Summary}

/-- A summary differs from that of a text in nothing but what its surroundings decide: the status of
dependencies, the uses of names and which names are unused. -/
def IsEnriched (parsed s : Summary) : Prop :=
  s = { parsed with
    dependencyStatuses := s.dependencyStatuses
    nameUsages := s.nameUsages
    unused := s.unused }

theorem isEnriched_statuses (parsed : Summary) (issues : List DependencyStatus) :
    parsed.IsEnriched { parsed with dependencyStatuses := issues } :=
  rfl

theorem IsEnriched.withUsage (h : parsed.IsEnriched s) (usages : List NameUsage) :
    parsed.IsEnriched (s.withUsage usages) := by
  unfold IsEnriched Summary.withUsage
  rw [h]

/-- A text alone says nothing about its surroundings. -/
theorem additions_of_ofText {text : List Char} {fileName tag : String}
    (h : ofText text fileName tag = .ok s) : s.dependencyStatuses = [] ∧ s.nameUsages = [] := by
  obtain ⟨found, -, h⟩ := bind_eq_ok_iff.mp h
  cases h
  exact ⟨rfl, rfl⟩

end Summary

namespace Request

variable {r : Request} {readers : DocumentReaders} {ws : Workspace} {settings : Settings}
  {tools : Toolchain} {s : Summary} {commands : List Command}

/-- The status of the dependencies that the text of a file has, if it is asked for. -/
def statuses (r : Request) (readers : DocumentReaders) (ws : Workspace) (settings : Settings)
    (tools : Toolchain) (parsed : Summary) : Except Failure (List DependencyStatus × List Command) :=
  if r.checksDependencies then
    Dependency.check readers ws settings tools parsed.imports r.path r.language
  else pure ([], [])

/-- The uses of the names that the text of a file declares, if there is a workspace to search. -/
def usages (r : Request) (ws : Workspace) (settings : Settings) (parsed : Summary) :
    Except Failure (List NameUsage) :=
  match r.workspace with
  | none => pure []
  | some dir => NameUsage.ofSummary ws settings r.path parsed dir

/-- A summary with the status of dependencies and the uses of names. -/
def enriched (parsed : Summary) (issues : List DependencyStatus) (found : List NameUsage) :
    Summary :=
  { parsed with dependencyStatuses := issues }.withUsage found

/-- Without uses of names the names of a text stay unused. -/
theorem enriched_nil {parsed : Summary} (h : parsed.nameUsages = [])
    (issues : List DependencyStatus) :
    enriched parsed issues [] = { parsed with dependencyStatuses := issues } := by
  unfold enriched Summary.withUsage
  simp [h]

/-- Once the text has a summary, the dependencies are looked at and then the uses. -/
theorem answer_of_summary {parsed : Summary} (h : r.summary ws = .ok parsed) :
    r.answer readers ws settings tools =
      r.statuses readers ws settings tools parsed >>= fun (issues, commands) =>
        (r.usages ws settings parsed).map fun found =>
          (enriched parsed issues found, commands) := by
  unfold answer
  rw [h]
  show (if r.checksDependencies then _ >>= _ else _ >>= _) = _
  unfold statuses usages
  have hnone : parsed.nameUsages = [] := by
    obtain ⟨text, -, hparsed⟩ := bind_eq_ok_iff.mp h
    exact (Summary.additions_of_ofText hparsed).2
  cases hworkspace : r.workspace with
  | none =>
    have hkept : ∀ issues : List DependencyStatus × List Command,
        (Except.ok ({ parsed with dependencyStatuses := issues.1 }, issues.2) :
          Except Failure (Summary × List Command)) =
        .ok (enriched parsed issues.1 [], issues.2) := fun issues => by
      rw [enriched_nil hnone]
    split
    · exact bind_congr hkept
    · exact hkept ([], [])
  | some dir =>
    have hadded : ∀ issues : List DependencyStatus × List Command,
        (do return ((Summary.withUsage (← NameUsage.ofSummary ws settings r.path parsed dir)
          { parsed with dependencyStatuses := issues.1 }), issues.2)) =
        (NameUsage.ofSummary ws settings r.path parsed dir).map fun found =>
          (enriched parsed issues.1 found, issues.2) := fun issues => by
      cases NameUsage.ofSummary ws settings r.path parsed dir <;> rfl
    split
    · exact bind_congr hadded
    · exact hadded ([], [])

/-- The answer is put together from the summary of the text, the dependencies and the uses. -/
theorem answer_eq_ok_iff : r.answer readers ws settings tools = .ok (s, commands) ↔
    ∃ parsed issues found, r.summary ws = .ok parsed ∧
      r.statuses readers ws settings tools parsed = .ok (issues, commands) ∧
      r.usages ws settings parsed = .ok found ∧ s = enriched parsed issues found := by
  constructor
  · intro h
    obtain ⟨parsed, hparsed, -⟩ := bind_eq_ok_iff.mp h
    rw [answer_of_summary hparsed] at h
    obtain ⟨⟨issues, asked⟩, hissues, h⟩ := bind_eq_ok_iff.mp h
    obtain ⟨found, hfound, h⟩ := map_eq_ok_iff.mp h
    cases h
    exact ⟨parsed, issues, found, hparsed, hissues, hfound, rfl⟩
  · rintro ⟨parsed, issues, found, hparsed, hissues, hfound, rfl⟩
    rw [answer_of_summary hparsed, hissues]
    exact map_eq_ok_iff.mpr ⟨found, hfound, rfl⟩

/-- The answer about a file has the summary of its text but for what its surroundings decide.
Without a workspace no name is used and the unused ones stay; in a workspace the names that its other
files use are no longer among the unused ones, and these keep their order. -/
theorem isEnriched_of_answer (h : r.answer readers ws settings tools = .ok (s, commands)) :
    ∃ text parsed, source ws r.path = .ok text ∧
      Summary.ofText text r.path.name r.language = .ok parsed ∧ parsed.IsEnriched s ∧
      r.statuses readers ws settings tools parsed = .ok (s.dependencyStatuses, commands) ∧
      r.usages ws settings parsed = .ok s.nameUsages ∧
      s.unused = parsed.unused.filter (fun item => item.name ∉ s.nameUsages.map (·.name)) ∧
      (r.workspace = none → s.nameUsages = [] ∧ s.unused = parsed.unused) := by
  obtain ⟨parsed, issues, found, hparsed, hissues, hfound, rfl⟩ := answer_eq_ok_iff.mp h
  obtain ⟨text, htext, hsummary⟩ := bind_eq_ok_iff.mp hparsed
  have henriched := (parsed.isEnriched_statuses issues).withUsage found
  refine ⟨text, parsed, htext, hsummary, henriched, hissues, hfound, ?_, fun hnone => ?_⟩
  · refine List.filter_congr fun item _ => ?_
    show (!(found.map (·.name)).contains item.name) = decide (item.name ∉ found.map (·.name))
    rw [List.contains_eq_mem, decide_not]
  · unfold usages at hfound
    rw [hnone] at hfound
    cases hfound
    exact ⟨rfl, List.filter_eq_self.mpr fun item _ => rfl⟩

/-- The search for uses always ends with some, unless links go round in a circle. -/
theorem exists_usages_eq_ok (parsed : Summary)
    (h : ∀ dir, r.workspace = some dir → NameUsage.NoCircle ws settings r.path dir) :
    ∃ found, r.usages ws settings parsed = .ok found := by
  unfold usages
  cases hworkspace : r.workspace with
  | none => exact ⟨[], rfl⟩
  | some dir =>
    obtain ⟨root, exclude, files, hroot, hexclude, hfiles⟩ :=
      NameUsage.exists_collect_eq_ok (h dir hworkspace)
    unfold NameUsage.ofSummary
    dsimp only
    split
    · exact ⟨[], rfl⟩
    · simp only [exists_bind_eq_ok_iff]
      exact ⟨root, hroot, exclude, hexclude, files, hfiles, exists_pure_eq_ok _⟩

/-- A file that declares a function `f`, and one that is the one letter `f`. -/
def pair : Workspace :=
  ⟨.dir [("lib.py", .file [100, 101, 102, 32, 102, 40, 41, 58, 10, 32, 112, 97, 115, 115, 10]),
    ("main.py", .file [102])], []⟩

/-- The first file is asked about in the workspace of both. -/
def ofPair : Request :=
  ⟨⟨"/", ["lib.py"]⟩, none, some ⟨"/", []⟩, true⟩

/-- The summary of the first file alone. -/
def declaring : Summary :=
  { fileName := "lib.py", language := "python", block := none, types := []
    routines := [{ name := "f", line := 1 }], imports := [], globals := [], connections := []
    errorNames := [], riskPoints := [], totalLines := 2, codeLines := 2, warnings := []
    description := "lib is a module with 0 classes and 1 function.", typeDescriptions := []
    hardcoded := [], unused := [⟨"f", .routine, 1⟩], dependencyStatuses := [], markers := []
    nameUsages := [] }

theorem isEnriched_of_answer_pair :
    ∃ s commands, ofPair.answer .standard pair {} (fun _ => .notStarted) = .ok (s, commands) ∧
      declaring.IsEnriched s ∧
      s.unused = declaring.unused.filter (fun item => item.name ∉ s.nameUsages.map (·.name)) := by
  have hsource : source pair ⟨"/", ["lib.py"]⟩ = .ok "def f():\n pass\n".toList := by
    have hbytes : pair.readBytes ⟨"/", ["lib.py"]⟩ =
        .ok [100, 101, 102, 32, 102, 40, 41, 58, 10, 32, 112, 97, 115, 115, 10] :=
      Workspace.readBytes_of_lookup (by decide) rfl
    unfold source Workspace.readText
    rw [hbytes]
    decide +kernel
  have hparsed : Summary.ofText "def f():\n pass\n".toList "lib.py" "python" = .ok declaring := by
    decide +kernel
  have hlinks : pair.root.LinkFree := by
    refine .dir _ fun e he => ?_
    simp only [List.mem_cons, List.not_mem_nil, or_false] at he
    rcases he with rfl | rfl <;> exact .file _
  obtain ⟨found, hfound⟩ : ∃ found, ofPair.usages pair {} declaring = .ok found :=
    exists_usages_eq_ok declaring fun dir _ => NameUsage.noCircle_of_linkFree hlinks
  have hanswer : ofPair.answer .standard pair {} (fun _ => .notStarted) =
      .ok (enriched declaring [] found, []) := answer_eq_ok_iff.mpr
    ⟨declaring, [], found, bind_eq_ok_iff.mpr ⟨_, hsource, hparsed⟩, rfl, hfound, rfl⟩
  obtain ⟨text, parsed, htext, htextParsed, henriched, -, -, hunused, -⟩ :=
    isEnriched_of_answer hanswer
  cases htext.symm.trans hsource
  cases htextParsed.symm.trans hparsed
  exact ⟨_, _, hanswer, henriched, hunused⟩

end Request

end SourceSurvey
