import SourceSurvey.Proofs.Failure.Refusal
import SourceSurvey.Proofs.Finding.Import
import SourceSurvey.Proofs.Usage.Exact
import SourceSurvey.Proofs.Workspace.Link
import SourceSurvey.Summary.OfText

/-!
# What uses in other files clear

A declaration that nothing in its file mentions is no longer unused once another file uses its name.
Names are compared without their kinds, so an unused import goes too if a public declaration has its
name. Main statement: `Summary.mem_unused_withUsage_iff`, which says what goes in every run of the
search, and that imports stay where each public name stands outside the import statements.
-/

namespace SourceSurvey

/-! ## Unused imports -/

theorem Unused.not_standsIn_of_mem_imports {code : List Line} {declared : List ImportStatement}
    {u : UnusedName} (hu : u ∈ imports code declared) :
    ¬ StandsIn u.name.toList (Text.joinLines (linesOutside declared code)) := by
  obtain ⟨i, -, hu⟩ := List.mem_flatMap.mp hu
  obtain ⟨name, hname, rfl⟩ := List.mem_map.mp hu
  have hmention := (Bool.and_eq_true_iff.mp (List.mem_filter.mp hname).2).2
  rw [← hasMention_iff_standsIn, ← textWithout_isImportLine, Bool.not_eq_true]
  exact (Bool.not_eq_true' _).mp hmention

namespace Summary

variable {text : List Char} {fileName tag : String} {s : Summary}

/-- The stripped lines of a file outside its import statements, as one text. -/
def textOutsideImports (text : List Char) (tag : String) (s : Summary) : List Char :=
  Text.joinLines (Unused.linesOutside s.imports
    ((Language.family tag).style.strip (Text.splitLines text)))

/-- An unused import is mentioned nowhere outside the import statements. -/
theorem not_standsIn_of_imported (hs : ofText text fileName tag = .ok s) {u : UnusedName}
    (hu : u ∈ s.unused) (hkind : u.kind = .imported) :
    ¬ StandsIn u.name.toList (s.textOutsideImports text tag) := by
  obtain ⟨found, -, hs⟩ := bind_eq_ok_iff.mp hs
  cases hs
  have hcode : u ∈ Unused.ofLines (Text.splitLines text) found (Language.family tag).style := by
    revert hu
    show u ∈ (Language.family tag).unused (Text.splitLines text) found → _
    unfold Family.unused
    split
    · exact fun hu => nomatch hu
    · exact fun hu => nomatch hu
    · exact id
  have himported : u ∈ (Unused.ofLines (Text.splitLines text) found
      (Language.family tag).style).filter (·.kind = .imported) :=
    List.mem_filter.mpr ⟨hcode, decide_eq_true hkind⟩
  rw [Unused.filter_imported] at himported
  exact Unused.not_standsIn_of_mem_imports himported

end Summary

/-! ## Names that are used elsewhere -/

namespace NameUsage

variable {ws : Workspace} {settings : Settings} {refused : Path → Option SystemError}
  {file workspace : Path} {s : Summary} {run : List Path → List FileScan} {usages : List NameUsage}

/-- A public name of a file stands in a readable file that the search comes to. -/
def IsUsedElsewhere (ws : Workspace) (settings : Settings) (refused : Path → Option SystemError)
    (file workspace : Path) (s : Summary) (name : String) : Prop :=
  isEnabled settings = true ∧ name ∈ (PublicName.ofSummary s).map (·.name) ∧
    ∃ root exclude files, ws.resolve workspace = .ok root ∧ ws.resolve file = .ok exclude ∧
      Candidate.collect ws settings root exclude = .ok files ∧
      ∃ f ∈ files, FileScan.IsUser ws refused name f

/-- A search either has nothing to look for, or it comes to some files. -/
theorem ofSummaryBy_cases (h : ofSummaryBy run ws settings file s workspace = .ok usages) :
    ((isEnabled settings = false ∨ PublicName.ofSummary s = []) ∧ usages = []) ∨
      (isEnabled settings = true ∧ ∃ root exclude files, ws.resolve workspace = .ok root ∧
        ws.resolve file = .ok exclude ∧ Candidate.collect ws settings root exclude = .ok files) := by
  unfold ofSummaryBy at h
  dsimp only at h
  split at h
  · next hnothing =>
    cases h
    rw [Bool.or_eq_true, Bool.not_eq_true', List.isEmpty_iff] at hnothing
    exact .inl ⟨hnothing, rfl⟩
  · next hsome =>
    obtain ⟨root, hroot, h⟩ := bind_eq_ok_iff.mp h
    obtain ⟨exclude, hexclude, h⟩ := bind_eq_ok_iff.mp h
    obtain ⟨files, hfiles, -⟩ := bind_eq_ok_iff.mp h
    rw [Bool.or_eq_true, Bool.not_eq_true', not_or, Bool.not_eq_false] at hsome
    exact .inr ⟨hsome.1, root, exclude, files, hroot, hexclude, hfiles⟩

/-- Every run of the search ends with the names that are used elsewhere. -/
theorem mem_names_iff
    (hrun : ∀ files, Pool.Finishes (FileScan.attempt ws refused (searched s)) files (run files))
    (husages : ofSummaryBy run ws settings file s workspace = .ok usages) (name : String) :
    name ∈ usages.map (·.name) ↔ IsUsedElsewhere ws settings refused file workspace s name := by
  rcases ofSummaryBy_cases husages with
    ⟨hnothing, rfl⟩ | ⟨henabled, root, exclude, files, hroot, hexclude, hfiles⟩
  · constructor
    · exact fun h => nomatch h
    · rintro ⟨henabled, hpublic, -⟩
      rcases hnothing with hdisabled | hempty
      · rw [hdisabled] at henabled
        cases henabled
      · rw [hempty] at hpublic
        cases hpublic
  · rw [ofSummaryBy_eq_ok henabled hroot hexclude hfiles (hrun files)] at husages
    cases husages
    rw [(isExact_ofScans_attempt refused root files).mem_names_iff]
    constructor
    · rintro ⟨hpublic, f, hf, huser⟩
      exact ⟨henabled, hpublic, root, exclude, files, hroot, hexclude, hfiles, f, hf, huser⟩
    · rintro ⟨-, hpublic, root', exclude', files', hroot', hexclude', hfiles', f, hf, huser⟩
      cases hroot.symm.trans hroot'
      cases hexclude.symm.trans hexclude'
      cases hfiles.symm.trans hfiles'
      exact ⟨hpublic, f, hf, huser⟩

end NameUsage

/-! ## What goes and what stays -/

namespace Summary

open NameUsage

variable {ws : Workspace} {settings : Settings} {refused : Path → Option SystemError}
  {file workspace : Path} {s : Summary} {run : List Path → List FileScan} {usages : List NameUsage}
  {text : List Char} {fileName tag : String}

theorem mem_unused_withUsage {u : UnusedName} :
    u ∈ (s.withUsage usages).unused ↔ u ∈ s.unused ∧ u.name ∉ usages.map (·.name) := by
  show u ∈ s.unused.filter (fun item => !(usages.map (·.name)).contains item.name) ↔ _
  rw [List.mem_filter, Bool.not_eq_true', ← Bool.not_eq_true, List.contains_iff_mem]

/-- In every run of the search, an unused declaration stays exactly if no public name of the file
that is spelled as its name is used elsewhere. Where each public name stands outside the import
statements of the file, every unused import stays. -/
theorem mem_unused_withUsage_iff (hs : ofText text fileName tag = .ok s)
    (hrun : ∀ files, Pool.Finishes (FileScan.attempt ws refused (searched s)) files (run files))
    (husages : ofSummaryBy run ws settings file s workspace = .ok usages) :
    (∀ u ∈ s.unused, u ∈ (s.withUsage usages).unused ↔
        ¬ IsUsedElsewhere ws settings refused file workspace s u.name) ∧
      ((∀ p ∈ PublicName.ofSummary s, StandsIn p.name.toList (s.textOutsideImports text tag)) →
        ∀ u ∈ s.unused, u.kind = .imported → u ∈ (s.withUsage usages).unused) := by
  have hkept : ∀ u ∈ s.unused, u ∈ (s.withUsage usages).unused ↔
      ¬ IsUsedElsewhere ws settings refused file workspace s u.name := by
    intro u hu
    rw [mem_unused_withUsage, and_iff_right hu, mem_names_iff hrun husages]
  refine ⟨hkept, fun houtside u hu hkind => (hkept u hu).mpr ?_⟩
  rintro ⟨-, hpublic, -⟩
  obtain ⟨p, hp, hname⟩ := List.mem_map.mp hpublic
  have hstands := houtside p hp
  rw [hname] at hstands
  exact not_standsIn_of_imported hs hu hkind hstands

/-- A script that imports `run`, of which nothing comes, and declares a function `f`. -/
def importing : List Char :=
  "from tools import run\ndef f():\n    pass\n".toList

/-- The function is used in another file, and the import stays. -/
theorem mem_unused_withUsage_importing :
    ∃ s usages, ofText importing "lib.py" "python" = .ok s ∧
      ofSummaryBy (fun files => files.reverse.map
        (FileScan.attempt callers refusedTool (searched s)))
        callers {} ⟨"/", ["lib.py"]⟩ s ⟨"/", []⟩ = .ok usages ∧
      ⟨"run", .imported, 1⟩ ∈ (s.withUsage usages).unused := by
  have hread : (ofText importing "lib.py" "python").map (fun s =>
      (s.unused, PublicName.ofSummary s, s.textOutsideImports importing "python")) =
      .ok ([⟨"run", .imported, 1⟩, ⟨"f", .routine, 2⟩], [⟨"f", .function⟩],
        "def f():\n    pass".toList) := by
    decide +kernel
  obtain ⟨s, hs, hfields⟩ := map_eq_ok_iff.mp hread
  obtain ⟨hunused, hfields⟩ := Prod.mk.inj hfields
  obtain ⟨hpublic, htext⟩ := Prod.mk.inj hfields
  have hrun : ∀ files, Pool.Finishes (FileScan.attempt callers refusedTool (searched s)) files
      (files.reverse.map (FileScan.attempt callers refusedTool (searched s))) :=
    fun files => Pool.finishes_of_perm files.reverse_perm
  obtain ⟨root, exclude, files, hroot, hexclude, hfiles⟩ :
      ∃ root exclude files, callers.resolve ⟨"/", []⟩ = .ok root ∧
        callers.resolve ⟨"/", ["lib.py"]⟩ = .ok exclude ∧
        Candidate.collect callers {} root exclude = .ok files :=
    exists_collect_eq_ok (noCircle_of_linkFree linkFree_callers)
  obtain ⟨usages, husages⟩ : ∃ usages, ofSummaryBy (fun files => files.reverse.map
      (FileScan.attempt callers refusedTool (searched s)))
      callers {} ⟨"/", ["lib.py"]⟩ s ⟨"/", []⟩ = .ok usages :=
    ⟨_, ofSummaryBy_eq_ok (by decide) hroot hexclude hfiles (hrun files)⟩
  have hstands : ∀ p ∈ PublicName.ofSummary s,
      StandsIn p.name.toList (s.textOutsideImports importing "python") := by
    rw [hpublic, htext]
    intro p hp
    rw [List.mem_singleton.mp hp]
    exact hasMention_iff_standsIn.mp (by decide)
  refine ⟨s, usages, hs, husages, (mem_unused_withUsage_iff hs hrun husages).2 hstands _ ?_ rfl⟩
  rw [hunused]
  exact List.mem_cons_self

/-- A page on which a tag ends the `use` statement. The statement reads on to the next semicolon, so
that the function `Run` stands in it. -/
def tasksPage : List Char :=
  "<?php\nuse App\\Run, App\\Task ?>\n<?php\nfunction Run() \x7b\n    return new Task();\n\x7d\n".toList

/-- A page that calls the function, and the page itself. -/
def tasksEntries : List (String × Node) :=
  [("main.php", .file ("<?php\nRun();\n".toList.map fun c => .ofNat c.toNat)),
    ("tasks.php", .file (tasksPage.map fun c => .ofNat c.toNat))]

/-- The two pages side by side. -/
def tasks : Workspace :=
  ⟨.dir tasksEntries, []⟩

theorem collect_tasks :
    Candidate.collect tasks {} ⟨"/", []⟩ ⟨"/", ["tasks.php"]⟩ = .ok [⟨"/", ["main.php"]⟩] := by
  have hmain : tasks.resolve ⟨"/", ["main.php"]⟩ = .ok ⟨"/", ["main.php"]⟩ :=
    Workspace.resolve_of_lookup (by decide) rfl
  have hpage : tasks.resolve ⟨"/", ["tasks.php"]⟩ = .ok ⟨"/", ["tasks.php"]⟩ :=
    Workspace.resolve_of_lookup (by decide) rfl
  have hfile : ∀ e ∈ tasksEntries, e.1 ≠ ".." ∧ Candidate.isSource e.1 = true ∧
      ∃ bytes, e.2 = .file bytes ∧ tasksEntries.lookup e.1 = some (.file bytes) := by
    intro e he
    rw [tasksEntries, List.mem_cons, List.mem_singleton] at he
    rcases he with rfl | rfl <;> exact ⟨by decide, by decide, _, rfl, rfl⟩
  have hsources : Candidate.sources tasks {} ⟨"/", []⟩ =
      [⟨"/", ["main.php"]⟩, ⟨"/", ["tasks.php"]⟩] :=
    Candidate.sources_of_files hfile (by decide)
  rw [Candidate.collect_eq_takeOthers, hsources, Candidate.takeOthers_cons hmain,
    if_neg (by decide), if_neg (by decide), Candidate.takeOthers_cons hpage, if_pos (by decide)]
  rfl

/-- An unused import goes because the function that has its name is used in another file. -/
theorem not_forall_imported_mem_unused_withUsage :
    ¬ ∀ (text : List Char) (fileName tag : String) (s : Summary) (ws : Workspace)
      (settings : Settings) (file workspace : Path) (usages : List NameUsage),
      ofText text fileName tag = .ok s → ofSummary ws settings file s workspace = .ok usages →
        ∀ u ∈ s.unused, u.kind = .imported → u ∈ (s.withUsage usages).unused := by
  intro hall
  have hread : (ofText tasksPage "tasks.php" "php").map (fun s =>
      (s.unused.head?, PublicName.ofSummary s)) =
      .ok (some ⟨"Run", .imported, 2⟩, [⟨"Run", .function⟩]) := by
    decide +kernel
  obtain ⟨s, hs, hfields⟩ := map_eq_ok_iff.mp hread
  obtain ⟨hunused, hpublic⟩ := Prod.mk.inj hfields
  have hroot : tasks.resolve ⟨"/", []⟩ = .ok ⟨"/", []⟩ := Workspace.resolve_home
  have hexclude : tasks.resolve ⟨"/", ["tasks.php"]⟩ = .ok ⟨"/", ["tasks.php"]⟩ :=
    Workspace.resolve_of_lookup (by decide) rfl
  have hrun : ∀ files, Pool.Finishes (FileScan.attempt tasks (fun _ => none) (searched s)) files
      (files.map (FileScan.attempt tasks (fun _ => none) (searched s))) :=
    fun files => Pool.finishes_of_perm (List.Perm.refl files)
  obtain ⟨usages, husages⟩ : ∃ usages,
      ofSummary tasks {} ⟨"/", ["tasks.php"]⟩ s ⟨"/", []⟩ = .ok usages :=
    ⟨_, ofSummaryBy_eq_ok (by decide) hroot hexclude collect_tasks (hrun _)⟩
  have hmention : FileScan.IsUser tasks (fun _ => none) "Run" ⟨"/", ["main.php"]⟩ := by
    have hbytes : tasks.readBytes ⟨"/", ["main.php"]⟩ =
        .ok ("<?php\nRun();\n".toList.map fun c => .ofNat c.toNat) :=
      Workspace.readBytes_of_lookup (by decide) rfl
    rw [← FileScan.any_hasMention_iff]
    show ((tasks.readText ⟨"/", ["main.php"]⟩).toOption.any (hasMention "Run".toList)) = true
    rw [Workspace.readText, hbytes]
    decide +kernel
  have hused : IsUsedElsewhere tasks {} (fun _ => none) ⟨"/", ["tasks.php"]⟩ ⟨"/", []⟩ s "Run" :=
    ⟨by decide, by rw [hpublic]; exact List.mem_cons_self, _, _, _, hroot, hexclude, collect_tasks, _,
      List.mem_cons_self, hmention⟩
  have hkept := hall _ _ _ s tasks {} _ _ usages hs husages _ (List.mem_of_head? hunused) rfl
  exact (mem_unused_withUsage.mp hkept).2 ((mem_names_iff hrun husages "Run").mpr hused)

end Summary

end SourceSurvey
