import SourceSurvey.Package.External
import SourceSurvey.Proofs.List.Distinct
import SourceSurvey.Proofs.Text.Blank

/-!
# Packages that imports refer to

An import refers to at most one package, and to none if what it names comes with the language, is a
file or belongs to the application. Main statement: the packages of a list of imports are those of
its members, each once and where a member refers to it first, so the packages of two lists are those
of the first and then what the second one adds.
-/

namespace SourceSurvey

open Extract (distinctBy distinctBy_append nodup_map_distinctBy mem_map_distinctBy
  exists_append_of_mem_distinctBy)

/-! ## Imports that need no package -/

/-- The parts of a namespace. -/
def namespaceParts (module : List Char) : List (List Char) :=
  (Text.splitAt '\\' module).filter (!·.isEmpty)

namespace ImportStatement

/-- What an import names, without blanks around it. -/
def target (i : ImportStatement) : List Char :=
  Text.trim i.module.toList

/-- What an import names comes with the language, is a file or belongs to the application. -/
inductive NeedsNoPackage (i : ImportStatement) : Ecosystem → Prop where
  /-- A path from the directory of the file, or from the root. -/
  | path {ecosystem : Ecosystem} (h : ['.'] <+: i.target ∨ ['/'] <+: i.target) :
    NeedsNoPackage i ecosystem
  | standard (h : String.ofList (Text.beforeFirst '.' i.target) ∈ Package.pythonStandard) :
    NeedsNoPackage i .python
  | builtin (h : String.ofList (Text.beforeFirst '/' i.target) ∈ Package.nodeBuiltin ∨
      "node:".toList <+: i.target) :
    NeedsNoPackage i .javascript
  /-- A short form of a path of the application. -/
  | shortened (h : ['#'] <+: i.target ∨ ['~'] <+: i.target ∨ "@/".toList <+: i.target) :
    NeedsNoPackage i .javascript
  | address (h : "://".toList <:+: i.target) : NeedsNoPackage i .javascript
  /-- A file that is included as it stands. -/
  | included (h : i.isFrom = false) : NeedsNoPackage i .php
  /-- A namespace of the application itself. -/
  | application (outermost : List Char) (h : (namespaceParts i.target).head? = some outermost)
    (hinternal : String.ofList outermost ∈ Package.phpInternal) : NeedsNoPackage i .php

/-- What an import names has the parts of which the names of packages are made. -/
def HasPackageParts (i : ImportStatement) : Ecosystem → Prop
  | .python | .javascript => i.target ≠ []
  | .php => 2 ≤ (namespaceParts i.target).length
  | .other => False

end ImportStatement

namespace Dependency

variable {ecosystem : Ecosystem} {module : List Char} {line : Nat} {isFrom : Bool} {d : Dependency}
  {i : ImportStatement}

/-! ## The package of an import -/

/-- A Python module is external unless its first part is in the standard library, and it is named by
its distribution. -/
theorem ofPython?_eq_some_iff : ofPython? module line = some d ↔
    String.ofList (Text.beforeFirst '.' module) ∉ Package.pythonStandard ∧
      d = ⟨(Package.pythonDistribution.lookup (.ofList (Text.beforeFirst '.' module))).getD
        (.ofList (Text.beforeFirst '.' module)), .ofList (Text.beforeFirst '.' module), line⟩ := by
  unfold ofPython?
  by_cases hstandard : String.ofList (Text.beforeFirst '.' module) ∈ Package.pythonStandard
  · simp [hstandard]
  · simp [hstandard, eq_comm]

/-- A script module is local when it is built in, an alias or an address. -/
theorem isLocalScript_iff : isLocalScript module = true ↔
    "node:".toList <+: module ∨
      (['#'] <+: module ∨ ['~'] <+: module ∨ "@/".toList <+: module) ∨
      "://".toList <:+: module := by
  simp only [isLocalScript, Text.startsWith, Bool.or_eq_true, List.any_eq_true,
    List.isPrefixOf_iff_prefix, List.exists_mem_cons_iff, List.not_mem_nil, false_and, exists_false,
    or_false, Text.contains_iff_isInfix, or_assoc]
  rfl

/-- The name of the package that a module of scripts is in. -/
def scriptName (module : List Char) : List Char :=
  if Text.startsWith module ['@'] && 1 < (Text.splitAt '/' module).length then
    Text.join ['/'] ((Text.splitAt '/' module).take 2)
  else ((Text.splitAt '/' module).head?).getD []

/-- A script module is external unless it is local or built in, and it is named by its package. -/
theorem ofScript?_eq_some_iff : ofScript? module line = some d ↔
    isLocalScript module = false ∧ String.ofList (scriptName module) ∉ Package.nodeBuiltin ∧
      d = ⟨.ofList (scriptName module), .ofList (scriptName module), line⟩ := by
  show (if isLocalScript module = true then none
    else if Package.nodeBuiltin.contains (String.ofList (scriptName module)) = true then none
    else some (⟨.ofList (scriptName module), .ofList (scriptName module), line⟩ : Dependency)) =
      some d ↔ _
  cases isLocalScript module with
  | true => simp
  | false =>
    by_cases hbuiltin : String.ofList (scriptName module) ∈ Package.nodeBuiltin
    · simp [hbuiltin]
    · simp [hbuiltin, eq_comm]

/-- A package is named by the first part of its modules, and one of a scope by two. -/
theorem scriptName_cases (module : List Char) :
    scriptName module = Text.beforeFirst '/' module ∨
      scriptName module <+: module ∧ (scriptName module).head? = some '@' ∧
        (Text.beforeFirst '/' module).head? = some '@' := by
  unfold scriptName
  split
  · next hscope =>
    obtain ⟨hstart, hparts⟩ := Bool.and_eq_true_iff.mp hscope
    -- a scope without a second part is no scope
    have hslash : '/' ∈ module := by
      by_contra hnone
      rw [Text.splitAt_of_not_mem hnone, List.length_singleton] at hparts
      exact absurd hparts (by decide)
    obtain ⟨scope, rest, rfl, hfirst⟩ := List.eq_append_cons_of_mem hslash
    obtain ⟨others, hothers⟩ := Text.splitAt_eq_beforeFirst_cons '/' rest
    have hroot : Text.beforeFirst '/' (scope ++ '/' :: rest) = scope :=
      Text.beforeFirst_append_cons hfirst rest
    have hat : scope.head? = some '@' := by
      rw [Text.startsWith, List.isPrefixOf_iff_prefix] at hstart
      cases scope with
      | nil => exact absurd hstart (by simp)
      | cons c scope => simpa [eq_comm] using hstart
    have hname : Text.join ['/'] ((Text.splitAt '/' (scope ++ '/' :: rest)).take 2) =
        scope ++ '/' :: Text.beforeFirst '/' rest := by
      rw [Text.splitAt_append_cons hfirst, hothers]
      simp [Text.join, List.intercalate_cons_cons]
    refine .inr ?_
    rw [hname, hroot]
    refine ⟨?_, ?_, hat⟩
    · exact List.prefix_append_right_inj scope |>.mpr
        (List.prefix_cons_inj '/' |>.mpr (List.takeWhile_prefix _))
    · rw [List.head?_append, hat]
      rfl
  · obtain ⟨others, hothers⟩ := Text.splitAt_eq_beforeFirst_cons '/' module
    rw [hothers]
    exact .inl rfl

/-- The package of a script module is the front of the module. -/
theorem scriptName_isPrefix (module : List Char) : scriptName module <+: module := by
  rcases scriptName_cases module with hroot | ⟨hname, -, -⟩
  · rw [hroot]
    exact List.takeWhile_prefix _
  · exact hname

/-- No scope is a module that is built in. -/
theorem not_mem_nodeBuiltin_of_head? {name : List Char} (h : name.head? = some '@') :
    String.ofList name ∉ Package.nodeBuiltin := by
  have hbuiltin : ∀ b ∈ Package.nodeBuiltin, b.toList.head? ≠ some '@' := by decide
  intro hmem
  have hhead := hbuiltin _ hmem
  rw [String.toList_ofList] at hhead
  exact hhead h

theorem scriptName_mem_nodeBuiltin_iff (module : List Char) :
    String.ofList (scriptName module) ∈ Package.nodeBuiltin ↔
      String.ofList (Text.beforeFirst '/' module) ∈ Package.nodeBuiltin := by
  rcases scriptName_cases module with hroot | ⟨-, hname, hroot⟩
  · rw [hroot]
  · exact iff_of_false (not_mem_nodeBuiltin_of_head? hname) (not_mem_nodeBuiltin_of_head? hroot)

/-- A PHP namespace is external when it has a vendor and a package that are not internal. -/
theorem ofNamespace?_eq_some_iff : ofNamespace? module isFrom line = some d ↔
    isFrom = true ∧ ∃ vendor package rest, namespaceParts module = vendor :: package :: rest ∧
      String.ofList vendor ∉ Package.phpInternal ∧
      d = ⟨.ofList (Text.lower (vendor ++ '/' :: package)), .ofList module, line⟩ := by
  unfold ofNamespace? namespaceParts
  cases isFrom with
  | false => simp
  | true =>
    cases (Text.splitAt '\\' module).filter (!·.isEmpty) with
    | nil => simp
    | cons vendor parts =>
      cases parts with
      | nil => simp
      | cons package rest =>
        by_cases hinternal : String.ofList vendor ∈ Package.phpInternal
        · simp [hinternal]
        · simp [hinternal, eq_comm]

theorem isPath_iff :
    (module.isEmpty || Text.startsWith module ['.'] || Text.startsWith module ['/']) = true ↔
      module = [] ∨ ['.'] <+: module ∨ ['/'] <+: module := by
  simp only [Bool.or_eq_true, List.isEmpty_iff, Text.startsWith, List.isPrefixOf_iff_prefix,
    or_assoc]

/-- No path is external. -/
theorem ofImport?_of_path (h : i.target = [] ∨ ['.'] <+: i.target ∨ ['/'] <+: i.target) :
    ofImport? ecosystem i = none :=
  if_pos (isPath_iff.mpr h)

/-- What is named by no path is read as its package system reads it. -/
theorem ofImport?_of_not_path (h : ¬ (i.target = [] ∨ ['.'] <+: i.target ∨ ['/'] <+: i.target)) :
    ofImport? .python i = ofPython? i.target i.line ∧
      ofImport? .javascript i = ofScript? i.target i.line ∧
      ofImport? .php i = ofNamespace? i.target i.isFrom i.line ∧ ofImport? .other i = none := by
  have hread := mt isPath_iff.mp h
  exact ⟨if_neg hread, if_neg hread, if_neg hread, if_neg hread⟩

/-- The package of an import is that of its line, and what the import names begins with the name
under which the code imports it. -/
theorem of_ofImport? (h : ofImport? ecosystem i = some d) :
    d.line = i.line ∧ d.importName.toList <+: i.target := by
  by_cases hpath : i.target = [] ∨ ['.'] <+: i.target ∨ ['/'] <+: i.target
  · rw [ofImport?_of_path hpath] at h
    cases h
  obtain ⟨hpython, hscript, hphp, hother⟩ := ofImport?_of_not_path hpath
  cases ecosystem with
  | python =>
    obtain ⟨-, rfl⟩ := ofPython?_eq_some_iff.mp (hpython.symm.trans h)
    rw [String.toList_ofList]
    exact ⟨rfl, List.takeWhile_prefix _⟩
  | javascript =>
    obtain ⟨-, -, rfl⟩ := ofScript?_eq_some_iff.mp (hscript.symm.trans h)
    rw [String.toList_ofList]
    exact ⟨rfl, scriptName_isPrefix i.target⟩
  | php =>
    obtain ⟨-, vendor, package, rest, -, -, rfl⟩ :=
      ofNamespace?_eq_some_iff.mp (hphp.symm.trans h)
    rw [String.toList_ofList]
    exact ⟨rfl, List.prefix_refl _⟩
  | other => cases hother.symm.trans h

section Parts

variable (hne : i.target ≠ []) (hnone : ¬ (['.'] <+: i.target ∨ ['/'] <+: i.target))

include hne hnone

/-- A Python import that is named by no path refers to a package unless its first part comes with
the language. -/
theorem exists_ofPython?_iff : (∃ d, ofPython? i.target i.line = some d) ↔
    i.HasPackageParts .python ∧ ¬ i.NeedsNoPackage .python := by
  simp only [ofPython?_eq_some_iff, exists_and_left, exists_eq, and_true]
  constructor
  · intro hroot
    refine ⟨hne, ?_⟩
    rintro (hpath | hstandard)
    · exact hnone hpath
    · exact hroot hstandard
  · rintro ⟨-, hneeds⟩ hstandard
    exact hneeds (.standard hstandard)

/-- A script import that is named by no path refers to a package unless it is built in, shortened
or an address. -/
theorem exists_ofScript?_iff : (∃ d, ofScript? i.target i.line = some d) ↔
    i.HasPackageParts .javascript ∧ ¬ i.NeedsNoPackage .javascript := by
  simp only [ofScript?_eq_some_iff, exists_and_left, exists_eq, and_true,
    scriptName_mem_nodeBuiltin_iff, ← Bool.not_eq_true, isLocalScript_iff]
  constructor
  · rintro ⟨hlocal, hroot⟩
    refine ⟨hne, ?_⟩
    rintro (hpath | _ | (hbuiltin | hnode) | hshort | haddress)
    · exact hnone hpath
    · exact hroot hbuiltin
    · exact hlocal (.inl hnode)
    · exact hlocal (.inr (.inl hshort))
    · exact hlocal (.inr (.inr haddress))
  · rintro ⟨-, hneeds⟩
    refine ⟨?_, fun hbuiltin => hneeds (.builtin (.inl hbuiltin))⟩
    rintro (hnode | hshort | haddress)
    · exact hneeds (.builtin (.inr hnode))
    · exact hneeds (.shortened hshort)
    · exact hneeds (.address haddress)

omit hne

/-- A PHP import that is named by no path refers to a package if it is a namespace of a vendor that
is not the application. -/
theorem exists_ofNamespace?_iff : (∃ d, ofNamespace? i.target i.isFrom i.line = some d) ↔
    i.HasPackageParts .php ∧ ¬ i.NeedsNoPackage .php := by
  constructor
  · rintro ⟨d, hd⟩
    obtain ⟨hfrom, vendor, package, rest, hparts, hvendor, -⟩ := ofNamespace?_eq_some_iff.mp hd
    refine ⟨?_, ?_⟩
    · rw [ImportStatement.HasPackageParts, hparts]
      exact Nat.le_add_left 2 rest.length
    · rintro (hpath | _ | _ | _ | _ | hincluded | ⟨outermost, houtermost, hinternal⟩)
      · exact hnone hpath
      · rw [hfrom] at hincluded
        cases hincluded
      · rw [hparts, List.head?_cons, Option.some_inj] at houtermost
        rw [← houtermost] at hinternal
        exact hvendor hinternal
  · rintro ⟨hparts, hneeds⟩
    -- two parts are a vendor and a package, whatever comes behind them
    obtain ⟨vendor, package, rest, hnamespace⟩ : ∃ vendor package rest,
        namespaceParts i.target = vendor :: package :: rest := by
      rw [ImportStatement.HasPackageParts] at hparts
      cases hnamespace : namespaceParts i.target with
      | nil =>
        rw [hnamespace] at hparts
        cases hparts
      | cons vendor others =>
        cases others with
        | nil =>
          rw [hnamespace] at hparts
          cases hparts with | step h => cases h
        | cons package rest => exact ⟨vendor, package, rest, rfl⟩
    refine ⟨_, ofNamespace?_eq_some_iff.mpr ⟨?_, vendor, package, rest, hnamespace, ?_, rfl⟩⟩
    · by_contra hfrom
      exact hneeds (.included (Bool.eq_false_iff.mpr hfrom))
    · intro hinternal
      refine hneeds (.application vendor ?_ hinternal)
      rw [hnamespace, List.head?_cons]

end Parts

/-- What is named by a path has no parts of packages, or needs none. -/
theorem not_hasPackageParts_of_path
    (h : i.target = [] ∨ ['.'] <+: i.target ∨ ['/'] <+: i.target) :
    ¬ (i.HasPackageParts ecosystem ∧ ¬ i.NeedsNoPackage ecosystem) := by
  rintro ⟨hparts, hneeds⟩
  rcases h with hempty | hpath
  · cases ecosystem with
    | python | javascript => exact hparts hempty
    | php =>
      rw [ImportStatement.HasPackageParts, hempty] at hparts
      exact absurd hparts (by decide)
    | other => exact hparts
  · exact hneeds (.path hpath)

/-- An import refers to a package if what it names can be one and needs one. -/
theorem exists_ofImport?_iff : (∃ d, ofImport? ecosystem i = some d) ↔
    i.HasPackageParts ecosystem ∧ ¬ i.NeedsNoPackage ecosystem := by
  by_cases hpath : i.target = [] ∨ ['.'] <+: i.target ∨ ['/'] <+: i.target
  · rw [ofImport?_of_path hpath]
    exact iff_of_false nofun (not_hasPackageParts_of_path hpath)
  obtain ⟨hpython, hscript, hphp, hother⟩ := ofImport?_of_not_path hpath
  obtain ⟨hne, hnone⟩ := not_or.mp hpath
  cases ecosystem with
  | python => exact hpython ▸ exists_ofPython?_iff hne hnone
  | javascript => exact hscript ▸ exists_ofScript?_iff hne hnone
  | php => exact hphp ▸ exists_ofNamespace?_iff hnone
  | other =>
    rw [hother]
    exact iff_of_false nofun fun h => h.1

/-! ## The packages of a list of imports -/

/-- Dependencies are left out for the names that are seen before them. -/
theorem firstOfName_eq_filter (seen : List String) (ds : List Dependency) :
    firstOfName seen ds = (distinctBy (·.name) ds).filter fun d => !seen.contains d.name := by
  induction ds generalizing seen with
  | nil => rfl
  | cons d ds ih =>
    rw [firstOfName, distinctBy]
    by_cases hseen : seen.contains d.name = true
    · rw [if_pos hseen, ih, List.filter_cons_of_neg (by rw [hseen]; decide), List.filter_filter]
      refine List.filter_congr fun e _ => ?_
      by_cases hname : e.name = d.name
      · simp [hname, List.contains_iff_mem.mp hseen]
      · simp [hname]
    · rw [if_neg hseen, ih, List.filter_cons_of_pos (by simpa using hseen), List.filter_filter]
      refine congrArg _ (List.filter_congr fun e _ => ?_)
      rw [List.contains_cons, Bool.not_or, Bool.and_comm]

/-- The dependencies of imports are those of each import, each name once. -/
theorem ofImports_eq_distinctBy (ecosystem : Ecosystem) (imports : List ImportStatement) :
    ofImports ecosystem imports =
      distinctBy (·.name) (imports.filterMap (ofImport? ecosystem)) := by
  rw [ofImports, firstOfName_eq_filter]
  exact List.filter_eq_self.mpr fun _ _ => rfl

/-- No dependency is named twice. -/
theorem nodup_name_ofImports (ecosystem : Ecosystem) (imports : List ImportStatement) :
    ((ofImports ecosystem imports).map (·.name)).Nodup := by
  rw [ofImports_eq_distinctBy]
  exact nodup_map_distinctBy _ _

/-- A name is that of a dependency when some import has it. -/
theorem mem_name_ofImports_iff {imports : List ImportStatement} {name : String} :
    name ∈ (ofImports ecosystem imports).map (·.name) ↔
      ∃ i ∈ imports, ∃ d, ofImport? ecosystem i = some d ∧ d.name = name := by
  rw [ofImports_eq_distinctBy, mem_map_distinctBy]
  simp only [List.mem_map, List.mem_filterMap]
  constructor
  · rintro ⟨d, ⟨i, hi, hd⟩, hname⟩
    exact ⟨i, hi, d, hd, hname⟩
  · rintro ⟨i, hi, d, hd, hname⟩
    exact ⟨d, ⟨i, hi, hd⟩, hname⟩

/-- A dependency is that of an import before which no import has a dependency of this name. -/
theorem exists_first_of_mem_ofImports {imports : List ImportStatement}
    (h : d ∈ ofImports ecosystem imports) :
    ∃ before i after, imports = before ++ i :: after ∧ ofImport? ecosystem i = some d ∧
      ∀ j ∈ before, ∀ e, ofImport? ecosystem j = some e → e.name ≠ d.name := by
  rw [ofImports_eq_distinctBy] at h
  obtain ⟨front, back, hfound, hnew⟩ := exists_append_of_mem_distinctBy h
  obtain ⟨before, rest, rfl, rfl, hrest⟩ := List.filterMap_eq_append_iff.mp hfound
  obtain ⟨skipped, i, after, rfl, hskipped, hi, -⟩ := List.filterMap_eq_cons_iff.mp hrest
  refine ⟨before ++ skipped, i, after, by rw [List.append_assoc], hi, ?_⟩
  intro j hj e he hname
  rcases List.mem_append.mp hj with hj | hj
  · exact hnew (List.mem_map.mpr ⟨e, List.mem_filterMap.mpr ⟨j, hj, he⟩, hname⟩)
  · rw [hskipped j hj] at he
    cases he

/-- The dependencies of imports have different names. Each is that of the first import with one of
this name, from which it takes its line and what is imported, and every import with a dependency is
stood for. More imports add the dependencies of names that are new. An import has a dependency if
what it names can be a package and is not of the language, the file system or the application. -/
theorem ofImports_firstOccurrences (ecosystem : Ecosystem) (xs ys : List ImportStatement) :
    ((ofImports ecosystem xs).map (·.name)).Nodup ∧
      (∀ d ∈ ofImports ecosystem xs, ∃ before i after, xs = before ++ i :: after ∧
        ofImport? ecosystem i = some d ∧ d.line = i.line ∧ d.importName.toList <+: i.target ∧
        ∀ j ∈ before, ∀ e, ofImport? ecosystem j = some e → e.name ≠ d.name) ∧
      (∀ i ∈ xs, ∀ d, ofImport? ecosystem i = some d →
        d.name ∈ (ofImports ecosystem xs).map (·.name)) ∧
      ofImports ecosystem (xs ++ ys) = ofImports ecosystem xs ++
        (ofImports ecosystem ys).filter
          (fun d => d.name ∉ (ofImports ecosystem xs).map (·.name)) ∧
      ∀ i : ImportStatement, (∃ d, ofImport? ecosystem i = some d) ↔
        i.HasPackageParts ecosystem ∧ ¬ i.NeedsNoPackage ecosystem := by
  refine ⟨nodup_name_ofImports ecosystem xs, ?_, ?_, ?_, fun i => exists_ofImport?_iff⟩
  · intro d hd
    obtain ⟨before, i, after, hxs, hi, hbefore⟩ := exists_first_of_mem_ofImports hd
    obtain ⟨hline, hname⟩ := of_ofImport? hi
    exact ⟨before, i, after, hxs, hi, hline, hname, hbefore⟩
  · intro i hi d hd
    exact mem_name_ofImports_iff.mpr ⟨i, hi, d, hd, rfl⟩
  · rw [ofImports_eq_distinctBy, List.filterMap_append, distinctBy_append,
      ← ofImports_eq_distinctBy, ← ofImports_eq_distinctBy]
    refine congrArg _ (List.filter_congr fun d _ => ?_)
    rw [List.contains_eq_mem, ← decide_not, decide_eq_decide, ofImports_eq_distinctBy,
      mem_map_distinctBy]

end Dependency

end SourceSurvey
