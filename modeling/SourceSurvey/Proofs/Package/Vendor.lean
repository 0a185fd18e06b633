import SourceSurvey.Proofs.Package.External
import SourceSurvey.Proofs.Package.Nearest
import SourceSurvey.Proofs.Package.Verification
import SourceSurvey.Proofs.Text.LetterCase

/-!
# Packages of a vendor

A package of Composer is named by its vendor and a name of its own, with a slash between them. One
that is imported counts as installed if a package of its vendor is known. Main statement: this holds
for every vendor that in lower case is spelled as names are compared, and of a vendor that is spelled
otherwise no package is found by it.
-/

namespace SourceSurvey

namespace Package

variable {name vendor : List Char}

/-- The canonical name of a package is that of its vendor and that of its own name. -/
theorem canonical_append_slash (vendor name : List Char) :
    canonical (vendor ++ '/' :: name) = canonical vendor ++ '/' :: canonical name := by
  rw [canonical, Text.replaceRuns_append_cons (by decide),
    Text.lower_append_cons Text.separatesWords_slash]
  rfl

/-- A canonical name has a slash only if the name has one. -/
theorem slash_mem_of_mem_canonical (h : '/' ∈ canonical name) : '/' ∈ name := by
  rcases Text.mem_replaceRuns (Text.slash_mem_of_mem_lower h) with hjoiner | ⟨hname, -⟩
  · exact absurd hjoiner (by decide)
  · exact hname

theorem toList_canonicalName (name : String) :
    (canonicalName name).toList = canonical name.toList :=
  String.toList_ofList

theorem toList_append_slash (owner own : String) :
    (owner ++ "/" ++ own).toList = owner.toList ++ '/' :: own.toList := by
  simp

/-- The packages that are compared as those of a vendor are those of a vendor that is compared so. -/
theorem vendor_isPrefix_canonicalName_iff {package : String} (hvendor : '/' ∉ vendor) :
    vendor ++ ['/'] <+: (canonicalName package).toList ↔
      ∃ owner own, package = owner ++ "/" ++ own ∧ (canonicalName owner).toList = vendor := by
  rw [toList_canonicalName]
  constructor
  · intro hname
    have hslash : '/' ∈ package.toList := slash_mem_of_mem_canonical
      (hname.subset (List.mem_append_right _ List.mem_cons_self))
    obtain ⟨owner, own, hpackage, howner⟩ := List.eq_append_cons_of_mem hslash
    refine ⟨.ofList owner, .ofList own, String.ext ?_, ?_⟩
    · rw [toList_append_slash, String.toList_ofList, String.toList_ofList, hpackage]
    -- both are cut at their first slash, and no vendor has one
    · obtain ⟨rest, hrest⟩ := hname
      have hcanonical : '/' ∉ canonical owner := fun hmem =>
        howner (slash_mem_of_mem_canonical hmem)
      rw [hpackage, canonical_append_slash, List.append_assoc, List.singleton_append] at hrest
      rw [toList_canonicalName, String.toList_ofList, ← Text.beforeFirst_append_cons hcanonical,
        ← hrest, Text.beforeFirst_append_cons hvendor]
  · rintro ⟨owner, own, rfl, rfl⟩
    rw [toList_append_slash, canonical_append_slash, toList_canonicalName]
    exact ⟨canonical own.toList, by rw [List.append_assoc, List.singleton_append]⟩

end Package

namespace Dependency

variable {readers : DocumentReaders} {ws : Workspace} {settings : Settings} {tools : Toolchain}
  {ecosystem : Ecosystem} {dir file place : Path} {d : Dependency} {known : Option (List String)}
  {imports : List ImportStatement} {tag : String}

/-- Among the names of a directory a package is known by its name, by what the code imports, or by
its vendor. -/
theorem isKnown_php_iff {names : List String} (h : Package.AreNamesOf readers ws dir .php names) :
    d.isKnown .php names = true ↔ ∃ package, Package.Provides readers ws dir .php package ∧
      (Package.canonicalName package = Package.canonicalName d.name ∨
        Package.canonicalName package = Package.canonicalName d.importName ∨
        ∃ owner own, package = owner ++ "/" ++ own ∧
          (Package.canonicalName owner).toList = Text.beforeFirst '/' d.name.toList) := by
  have hslash := Text.not_mem_beforeFirst '/' d.name.toList
  unfold isKnown
  simp only [Bool.or_eq_true, List.contains_iff_mem, Bool.and_eq_true, List.any_eq_true,
    Text.startsWith, List.isPrefixOf_iff_prefix, beq_self_eq_true, true_and, h.mem_iff,
    exists_exists_and_eq_and, Package.vendor_isPrefix_canonicalName_iff hslash]
  rw [← exists_or, ← exists_or]
  simp only [← and_or_left, or_assoc]

/-- A package of Composer is named by the first two parts of a namespace, in lower case. -/
theorem name_of_ofImport? {i : ImportStatement} {vendor own : List Char}
    {rest : List (List Char)} (h : ofImport? .php i = some d)
    (hparts : namespaceParts i.target = vendor :: own :: rest) :
    d.name = .ofList (Text.lower (vendor ++ '/' :: own)) := by
  by_cases hpath : i.target = [] ∨ ['.'] <+: i.target ∨ ['/'] <+: i.target
  · rw [ofImport?_of_path hpath] at h
    cases h
  · obtain ⟨-, -, hread, -⟩ := ofImport?_of_not_path hpath
    obtain ⟨-, vendor', own', rest', hparts', -, rfl⟩ :=
      ofNamespace?_eq_some_iff.mp (hread.symm.trans h)
    rw [hparts] at hparts'
    obtain ⟨rfl, hrest⟩ := List.cons.inj hparts'
    obtain ⟨rfl, -⟩ := List.cons.inj hrest
    rfl

/-- The vendor of a package in lower case begins the name of the package. -/
theorem beforeFirst_lower_isPrefix (vendor own : List Char) :
    Text.beforeFirst '/' (Text.lower (vendor ++ '/' :: own)) ++ ['/'] <+:
      Text.lower vendor ++ ['/'] := by
  rw [Text.lower_append_cons Text.separatesWords_slash]
  exact Text.beforeFirst_append_isPrefix '/' _ _

/-- An import of a Composer package is installed if a package of its vendor is declared or installed
at the nearest level that has any, provided that the vendor in lower case is spelled as names are
compared. If nothing is verified, it is installed only if a package there has its name, the name that
the code imports, or its vendor in that spelling. There is an answer unless the call of a command
fails. -/
theorem status_of_vendor {n k : Nat} {i : ImportStatement} {vendor own : List Char}
    {rest : List (List Char)} (tools : Toolchain) (hsettings : settings.IsWellTyped)
    (hdepth : settings.manifestSearchDepth = .whole n) (hplace : ws.resolve file = .ok place)
    (hshaped : ∀ j < n, j ≤ place.parent.names.length →
      Manifest.WellShapedIn readers ws (Path.parent^[j] place.parent) .php)
    (hk : k < n) (hroot : k ≤ place.parent.names.length)
    (hbelow : ∀ j < k, Package.IsBare readers ws (Path.parent^[j] place.parent) .php)
    (hnearest : ¬ Package.IsBare readers ws (Path.parent^[k] place.parent) .php)
    (hi : i ∈ imports) (hd : ofImport? .php i = some d)
    (hparts : namespaceParts i.target = vendor :: own :: rest) :
    (settings.verifyDependencies.isFalsy = true ∨ (∀ c, (tools c).IsAnswer) →
      ∃ answer, check readers ws settings tools imports file "php" = .ok answer) ∧
    ∀ issues commands, check readers ws settings tools imports file "php" =
        .ok (issues, commands) → (issues.map (·.name)).Nodup ∧
      ∃ issue ∈ issues, issue.name = d.name ∧
        (∀ owner name, Package.Provides readers ws (Path.parent^[k] place.parent) .php
            (owner ++ "/" ++ name) →
          Package.canonical owner.toList = Package.canonical (Text.lower vendor) →
          Package.canonical (Text.lower vendor) = Text.lower vendor →
            issue.status = .installed) ∧
        (settings.verifyDependencies.isFalsy = true → issue.status = .installed →
          ∃ package, Package.Provides readers ws (Path.parent^[k] place.parent) .php package ∧
            (Package.canonicalName package = Package.canonicalName d.name ∨
              (∃ e ∈ ofImports .php imports, e.name = d.name ∧
                Package.canonicalName package = Package.canonicalName e.importName) ∨
              ∃ owner name, package = owner ++ "/" ++ name ∧
                (Package.canonicalName owner).toList = Text.beforeFirst '/' d.name.toList)) := by
  have htag : Ecosystem.ofTag? "php" = some .php := rfl
  obtain ⟨package, hpackage⟩ := not_forall_not.mp hnearest
  obtain ⟨known, hknown⟩ := Package.exists_known_of_wellShapedIn hshaped
  obtain ⟨names, rfl, hnames⟩ :=
    (Package.isNearest_of_known hknown).exists_areNamesOf hk hroot hbelow hpackage
  rw [← hdepth] at hknown
  refine ⟨exists_check_eq_ok hsettings htag hplace hknown, fun issues commands hcheck => ?_⟩
  obtain ⟨found, hfound, hanswer⟩ := (check_eq_ok_iff htag hplace hknown).mp hcheck
  obtain ⟨rfl, -⟩ := Prod.mk.inj hanswer
  -- an earlier import may have the same name, and then the status is that of the earlier one
  obtain ⟨e, he, hname⟩ := List.mem_map.mp (mem_name_ofImports_iff.mpr ⟨i, hi, d, hd, rfl⟩)
  refine ⟨?_, e.issue .php (found e).1, List.mem_map_of_mem he, hname, ?_, ?_⟩
  · rw [List.map_map]
    exact nodup_name_ofImports .php imports
  · intro owner name hprovided hsame hspelled
    have hknownName : e.isKnown .php names = true := by
      refine (isKnown_php_iff hnames).mpr ⟨_, hprovided, .inr (.inr ?_)⟩
      refine (Package.vendor_isPrefix_canonicalName_iff (Text.not_mem_beforeFirst _ _)).mp ?_
      rw [hname, name_of_ofImport? hd hparts, String.toList_ofList, Package.toList_canonicalName,
        Package.toList_append_slash, Package.canonical_append_slash, hsame, hspelled]
      exact (beforeFirst_lower_isPrefix vendor own).trans
        ⟨Package.canonical name.toList, by rw [List.append_assoc, List.singleton_append]⟩
    have hinstalled : e.status .php settings place.parent tools (some names) =
        .ok (.installed, none) :=
      status_of_installed (knownStatus_eq_installed_iff.mpr ⟨names, rfl, hknownName⟩)
    rw [hfound e he, Except.ok.injEq] at hinstalled
    exact congrArg Prod.fst hinstalled
  · intro hoff hstatus
    have hstatus' : e.knownStatus .php (some names) = .installed := by
      have hunverified := (hfound e he).symm.trans (status_of_off hoff)
      rw [Except.ok.injEq] at hunverified
      exact (congrArg Prod.fst hunverified).symm.trans hstatus
    obtain ⟨names', hsome, hisKnown⟩ := knownStatus_eq_installed_iff.mp hstatus'
    cases hsome
    obtain ⟨package, hpackage, hmatch⟩ := (isKnown_php_iff hnames).mp hisKnown
    rw [hname] at hmatch
    exact ⟨package, hpackage, hmatch.imp_right fun h => h.imp_left fun h => ⟨e, he, hname, h⟩⟩

/-! ## A project that requires one package -/

/-- The text of a Composer project that requires a package. -/
def requiringText (package : String) : List Char :=
  "\x7b\"require\": \x7b\"".toList ++ package.toList ++ "\": \"*\"\x7d\x7d".toList

/-- The entries of a directory with a file and the manifest of such a project. -/
def composerEntries (package : String) : List (String × Node) :=
  [("index.php", .file []),
    ("composer.json", .file ((requiringText package).map fun c => .ofNat c.toNat))]

def composerProject (package : String) : Workspace :=
  ⟨.dir (composerEntries package), []⟩

/-- The manifest of the project is read to the one package. -/
structure ReadsOne (package : String) : Prop where
  text : (composerProject package).readStrict (Path.child ⟨"/", []⟩ "composer.json") =
    .ok (some (requiringText package))
  packages : Manifest.Kind.composer.read .standard (requiringText package) =
    .ok (some [.string package])

theorem isPlain_composerProject (package : String) : (composerProject package).root.IsPlain := by
  have hfile : "index.php" ≠ ".." ∧ "composer.json" ≠ ".." := by decide
  exact .dir _ (List.forall_mem_cons.mpr ⟨hfile.1, List.forall_mem_singleton.mpr hfile.2⟩)
    (List.forall_mem_cons.mpr ⟨.file _, List.forall_mem_singleton.mpr (.file _)⟩)

theorem look_composerProject (package : String) :
    (composerProject package).look (Path.child ⟨"/", []⟩ "composer.json") =
      .ok (["composer.json"], .file ((requiringText package).map fun c => .ofNat c.toNat)) :=
  Workspace.look_child_of_lookup_file rfl List.not_mem_nil rfl (isPlain_composerProject package)
    (by decide) rfl

theorem candidates_composerProject (package : String) :
    Manifest.candidates (composerProject package) ⟨"/", []⟩ .php =
      [Path.child ⟨"/", []⟩ "composer.json"] := by
  have hfile : (composerProject package).isFile (Path.child ⟨"/", []⟩ "composer.json") = true := by
    rw [Workspace.isFile, look_composerProject]
  show [Path.child ⟨"/", []⟩ "composer.json"].filter (composerProject package).isFile = _
  rw [List.filter_cons_of_pos hfile, List.filter_nil]

theorem installed_composerProject (package : String) :
    Package.installed (composerProject package) ⟨"/", []⟩ .php = [] := by
  have hnone : (composerProject package).look (Path.child ⟨"/", []⟩ "vendor") = .error .missing :=
    Workspace.look_child rfl List.not_mem_nil rfl (isPlain_composerProject package) (by decide)
  have hnames : Package.namesIn (composerProject package) (Path.child ⟨"/", []⟩ "vendor") = [] := by
    rw [Package.namesIn, Workspace.entries, hnone]
  show Package.installedComposer (composerProject package) ⟨"/", []⟩ = []
  unfold Package.installedComposer
  dsimp only
  rw [hnames]
  rfl

section ReadsOne

variable {package : String}

theorem kind_composer : Manifest.Kind.ofName? (Path.child ⟨"/", []⟩ "composer.json").name =
    some .composer := by
  decide

/-- The project provides the package that its manifest requires. -/
theorem ReadsOne.provides (h : ReadsOne package) :
    Package.Provides .standard (composerProject package) ⟨"/", []⟩ .php package :=
  Package.provides_of_read (by rw [candidates_composerProject]; exact List.mem_cons_self) kind_composer
    h.text h.packages List.mem_cons_self

/-- Its manifest is well-shaped. -/
theorem ReadsOne.wellShapedIn (h : ReadsOne package) :
    Manifest.WellShapedIn .standard (composerProject package) ⟨"/", []⟩ .php := by
  intro path hpath kind text hkind htext
  rw [candidates_composerProject, List.mem_singleton] at hpath
  subst hpath
  rw [kind_composer, Option.some_inj] at hkind
  rw [h.text, Except.ok.injEq, Option.some_inj] at htext
  subst hkind htext
  exact Manifest.Kind.namesPackages_of_read h.packages (List.forall_mem_singleton.mpr ⟨package, rfl⟩)

/-- Nothing but this package is known in the project. -/
theorem ReadsOne.knownIn (h : ReadsOne package) :
    Package.knownIn .standard (composerProject package) ⟨"/", []⟩ .php =
      .ok [Package.canonicalName package] := by
  have hload : Manifest.load .standard (composerProject package)
      (Path.child ⟨"/", []⟩ "composer.json") = .ok (some ⟨(Path.child ⟨"/", []⟩ "composer.json").toString, .php, [.string package]⟩) :=
    Manifest.load_of_read kind_composer h.text h.packages
  unfold Package.knownIn Manifest.ofDirectory
  rw [candidates_composerProject, installed_composerProject, List.mapM_cons, hload]
  rfl

/-- That a manifest reads as one package can be decided. -/
theorem readsOne_of_decide (htext : (Text.decodeStrict? ((requiringText package).map fun c =>
      .ofNat c.toNat)).map Text.unifyLineEnds = some (requiringText package))
    (hread : (Manifest.Kind.composer.read .standard (requiringText package)).toOption.any (fun
      found => found.any fun vs => vs.length == 1 && vs.all fun v => v.same (.string package)) = true) :
    ReadsOne package := by
  constructor
  · rw [Workspace.readStrict, Workspace.readBytes, look_composerProject]
    exact congrArg Except.ok htext
  · cases hfound : Manifest.Kind.composer.read .standard (requiringText package) with
    | error e =>
      rw [hfound] at hread
      cases hread
    | ok found =>
      rw [hfound] at hread
      cases found with
      | none => cases hread
      | some vs =>
        obtain ⟨hlength, hsame⟩ := Bool.and_eq_true_iff.mp hread
        obtain ⟨v, rfl⟩ := List.length_eq_one_iff.mp (eq_of_beq hlength)
        rw [Value.eq_string_of_same (List.all_eq_true.mp hsame v List.mem_cons_self)]

end ReadsOne

theorem resolve_composerProject (package : String) :
    (composerProject package).resolve ⟨"/", ["index.php"]⟩ = .ok ⟨"/", ["index.php"]⟩ :=
  Workspace.resolve_of_lookup (by decide) rfl

/-- A vendor that the project spells in another case than the code. -/
theorem status_of_vendor_otherCase :
    ∃ issues commands, check .standard (composerProject "MonoLog/monolog") {} (fun _ => .notStarted)
        [⟨"Monolog\\Logger", ["Logger"], true, 1, 1⟩] ⟨"/", ["index.php"]⟩ "php" =
          .ok (issues, commands) ∧
      ∃ issue ∈ issues, issue.name = "monolog/logger" ∧ issue.status = .installed := by
  have hreads : ReadsOne "MonoLog/monolog" :=
    readsOne_of_decide (by decide +kernel) (by decide +kernel)
  have hsettings : Settings.IsWellTyped {} := ⟨nofun, ⟨_, rfl⟩, ⟨_, rfl⟩, ⟨_, rfl⟩⟩
  have himport : ofImport? .php ⟨"Monolog\\Logger", ["Logger"], true, 1, 1⟩ =
      some ⟨"monolog/logger", "Monolog\\Logger", 1⟩ := by decide +kernel
  have hparts : namespaceParts (ImportStatement.target
      ⟨"Monolog\\Logger", ["Logger"], true, 1, 1⟩) = ["Monolog".toList, "Logger".toList] := by
    decide
  have hprovided : Package.Provides .standard (composerProject "MonoLog/monolog") ⟨"/", []⟩ .php
      ("MonoLog" ++ "/" ++ "monolog") := hreads.provides
  have hshaped : ∀ j < 5, j ≤ (Path.parent ⟨"/", ["index.php"]⟩).names.length →
      Manifest.WellShapedIn .standard (composerProject "MonoLog/monolog")
        (Path.parent^[j] (Path.parent ⟨"/", ["index.php"]⟩)) .php := by
    intro j _ hroot
    obtain rfl : j = 0 := Nat.le_zero.mp hroot
    exact hreads.wellShapedIn
  obtain ⟨hends, hfound⟩ :=
    status_of_vendor (k := 0) (fun _ => .notStarted) hsettings rfl
      (resolve_composerProject "MonoLog/monolog") hshaped (by decide) (Nat.zero_le _) nofun
      (fun hbare => hbare _ hprovided) List.mem_cons_self himport hparts
  obtain ⟨⟨issues, commands⟩, hcheck⟩ := hends (.inl rfl)
  obtain ⟨-, issue, hissue, hname, hstatus, -⟩ := hfound issues commands hcheck
  exact ⟨issues, commands, hcheck, issue, hissue, hname,
    hstatus "MonoLog" "monolog" hprovided (by decide +kernel) (by decide +kernel)⟩

/-- A package of the vendor of an import is required, but the vendor has an underscore, for which
names are compared with a hyphen. -/
theorem not_forall_status_of_vendor :
    ¬ ∀ (ws : Workspace) (imports : List ImportStatement) (file place : Path)
      (i : ImportStatement) (d : Dependency) (vendor own : List Char) (rest : List (List Char))
      (owner name : String) (issues : List DependencyStatus) (commands : List Command),
      ws.resolve file = .ok place → Manifest.WellShapedIn .standard ws place.parent .php →
      i ∈ imports → ofImport? .php i = some d → namespaceParts i.target = vendor :: own :: rest →
      Package.Provides .standard ws place.parent .php (owner ++ "/" ++ name) →
      Package.canonical owner.toList = Package.canonical (Text.lower vendor) →
      check .standard ws {} (fun _ => .notStarted) imports file "php" = .ok (issues, commands) →
        ∀ issue ∈ issues, issue.name = d.name → issue.status = .installed := by
  intro hall
  have hreads : ReadsOne "my_vendor/tool" :=
    readsOne_of_decide (by decide +kernel) (by decide +kernel)
  have himport : ofImport? .php ⟨"My_Vendor\\Logger", ["Logger"], true, 1, 1⟩ =
      some ⟨"my_vendor/logger", "My_Vendor\\Logger", 1⟩ := by decide +kernel
  have hparts : namespaceParts (ImportStatement.target
      ⟨"My_Vendor\\Logger", ["Logger"], true, 1, 1⟩) = ["My_Vendor".toList, "Logger".toList] := by
    decide
  have hprovided : Package.Provides .standard (composerProject "my_vendor/tool") ⟨"/", []⟩ .php
      ("my_vendor" ++ "/" ++ "tool") := hreads.provides
  have hplace := resolve_composerProject "my_vendor/tool"
  have hknown : Package.known .standard (composerProject "my_vendor/tool")
      (Path.parent ⟨"/", ["index.php"]⟩) .php (.whole 5) =
        .ok (some [Package.canonicalName "my_vendor/tool"]) :=
    (Package.known_whole _ _ _ 5).trans (Package.firstKnown_of_cons hreads.knownIn)
  have hoff : (Settings.verifyDependencies {}).isFalsy = true := rfl
  have hcheck := check_of_off (fun _ => .notStarted)
    [⟨"My_Vendor\\Logger", ["Logger"], true, 1, 1⟩] (rfl : Ecosystem.ofTag? "php" = some .php)
    hplace hknown hoff
  have himports : ofImports .php [⟨"My_Vendor\\Logger", ["Logger"], true, 1, 1⟩] =
      [⟨"my_vendor/logger", "My_Vendor\\Logger", 1⟩] := by decide +kernel
  rw [himports] at hcheck
  have hinstalled := hall _ _ _ _ _ _ _ _ _ "my_vendor" "tool" _ _ hplace hreads.wellShapedIn
    List.mem_cons_self himport hparts hprovided (by decide +kernel) hcheck _ List.mem_cons_self rfl
  exact absurd hinstalled (by decide +kernel)

end Dependency

end SourceSurvey
