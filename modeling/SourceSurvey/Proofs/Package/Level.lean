import SourceSurvey.Proofs.List.Distinct
import SourceSurvey.Proofs.Package.Known
import SourceSurvey.Proofs.Workspace.Below
import Mathlib.Data.List.Basic

/-!
# What one directory knows

The packages that a directory provides are those that its manifests declare and those that are
installed in it. Main statements: what is known in a directory are their canonical names, each once,
and it is the same in two workspaces if the manifests and the installed packages of the directory
are, for which it is enough that the directory is the same and has no links.
-/

namespace SourceSurvey

/-! ## Provided packages -/

namespace Package

variable {readers : DocumentReaders} {ws ws' : Workspace} {dir : Path} {ecosystem : Ecosystem}
  {names : List String} {name : String}

/-- A package of this name is declared by a manifest of a directory or installed there. -/
def Provides (readers : DocumentReaders) (ws : Workspace) (dir : Path) (ecosystem : Ecosystem)
    (name : String) : Prop :=
  (∃ path ∈ Manifest.candidates ws dir ecosystem, ∃ manifest,
      Manifest.load readers ws path = .ok (some manifest) ∧ .string name ∈ manifest.dependencies) ∨
    name ∈ installed ws dir ecosystem

/-- What is read from a manifest is provided where the manifest is. -/
theorem provides_of_read {path : Path} {kind : Manifest.Kind} {text : List Char}
    {found : List Value} (hpath : path ∈ Manifest.candidates ws dir ecosystem)
    (hkind : Manifest.Kind.ofName? path.name = some kind)
    (htext : ws.readStrict path = .ok (some text))
    (hread : kind.read readers text = .ok (some found)) (hname : .string name ∈ found) : Provides readers ws dir ecosystem name :=
  .inl ⟨path, hpath, _, Manifest.load_of_read hkind htext hread, hname⟩

/-- The names are the canonical ones of the packages that a directory provides, each once. -/
structure AreNamesOf (readers : DocumentReaders) (ws : Workspace) (dir : Path)
    (ecosystem : Ecosystem) (names : List String) : Prop where
  nodup : names.Nodup
  mem_iff : ∀ name, name ∈ names ↔
    ∃ package, Provides readers ws dir ecosystem package ∧ canonicalName package = name

/-- A value that is no text has no canonical name. -/
theorem canonicalOf_eq_ok_iff {v : Value} :
    canonicalOf v = .ok name ↔ ∃ s, v = .string s ∧ canonicalName s = name := by
  unfold canonicalOf
  cases v <;> simp

/-- What is known in a directory are the canonical names of the packages that it provides. -/
theorem areNamesOf_of_knownIn (h : knownIn readers ws dir ecosystem = .ok names) :
    AreNamesOf readers ws dir ecosystem names := by
  obtain ⟨manifests, hmanifests, h⟩ := bind_eq_ok_iff.mp h
  obtain ⟨declared, hdeclared, h⟩ := bind_eq_ok_iff.mp h
  obtain ⟨loaded, hloaded, hread⟩ := bind_eq_ok_iff.mp hmanifests
  cases h
  cases hread
  refine ⟨nodup_eraseDups _, fun name => ?_⟩
  rw [List.mem_eraseDups, List.mem_append, mem_iff_of_mapM hdeclared, List.mem_map]
  simp only [List.mem_flatMap, List.mem_filterMap, id_eq, exists_eq_right,
    mem_iff_of_mapM hloaded, canonicalOf_eq_ok_iff]
  constructor
  · rintro (⟨v, ⟨manifest, ⟨path, hpath, hload⟩, hv⟩, s, rfl, hname⟩ | ⟨s, hs, hname⟩)
    · exact ⟨s, .inl ⟨path, hpath, manifest, hload, hv⟩, hname⟩
    · exact ⟨s, .inr hs, hname⟩
  · rintro ⟨s, ⟨path, hpath, manifest, hload, hs⟩ | hs, hname⟩
    · exact .inl ⟨.string s, ⟨manifest, ⟨path, hpath, hload⟩, hs⟩, s, rfl, hname⟩
    · exact .inr ⟨s, hs, hname⟩

/-- A directory that provides no package. -/
def IsBare (readers : DocumentReaders) (ws : Workspace) (dir : Path) (ecosystem : Ecosystem) :
    Prop :=
  ∀ name, ¬ Provides readers ws dir ecosystem name

/-- A directory has no names of packages when it provides none. -/
theorem AreNamesOf.eq_nil_iff (h : AreNamesOf readers ws dir ecosystem names) :
    names = [] ↔ IsBare readers ws dir ecosystem := by
  rw [List.eq_nil_iff_forall_not_mem]
  constructor
  · intro hnone package hpackage
    exact hnone _ ((h.mem_iff _).mpr ⟨package, hpackage, rfl⟩)
  · intro hbare name hname
    obtain ⟨package, hpackage, -⟩ := (h.mem_iff name).mp hname
    exact hbare package hpackage

/-! ## The same packages in another workspace -/

/-- The manifests of a directory hold the same in both workspaces, and the same packages are
installed in it. -/
structure SameIn (ws ws' : Workspace) (dir : Path) (ecosystem : Ecosystem) : Prop where
  candidates : Manifest.candidates ws' dir ecosystem = Manifest.candidates ws dir ecosystem
  bytes : ∀ path ∈ Manifest.candidates ws dir ecosystem, ws'.readBytes path = ws.readBytes path
  installed : installed ws' dir ecosystem = installed ws dir ecosystem

theorem load_congr {path : Path} (h : ws'.readBytes path = ws.readBytes path) :
    Manifest.load readers ws' path = Manifest.load readers ws path := by
  unfold Manifest.load Workspace.readStrict
  rw [h]

/-- The same is known in the directory in both workspaces. -/
theorem SameIn.knownIn (h : SameIn ws ws' dir ecosystem) :
    Package.knownIn readers ws' dir ecosystem = Package.knownIn readers ws dir ecosystem := by
  have hloads : (Manifest.candidates ws dir ecosystem).mapM (Manifest.load readers ws') =
      (Manifest.candidates ws dir ecosystem).mapM (Manifest.load readers ws) :=
    mapM_congr_left fun path hpath => load_congr (h.bytes path hpath)
  unfold Package.knownIn Manifest.ofDirectory
  rw [h.candidates, hloads, h.installed]

end Package

/-! ## The same below a directory -/

namespace Manifest

variable {readers : DocumentReaders} {ws ws' : Workspace} {dir path : Path} {ecosystem : Ecosystem}

/-- The files that are looked for in a directory as manifests, whether there are such or not. -/
def searched (ws : Workspace) (dir : Path) (ecosystem : Ecosystem) : List Path :=
  ((Kind.ofNames.filter fun (_, kind) => kind.ecosystem == ecosystem).map fun (n, _) =>
    dir.child n) ++ if ecosystem == .python then requirementFiles ws dir else []

/-- No manifest has the name of the directory above. -/
theorem ofNames_ne : ∀ e ∈ Kind.ofNames, e.1 ≠ ".." := by decide

/-- The manifests of a directory without links are well shaped if they are lists of requirements. -/
theorem wellShapedIn_python_of_lookup_none {entries : List (String × Node)}
    (habsolute : dir.isAbsolute = true) (hdir : ".." ∉ dir.names)
    (h : ws.root.at? dir.names = some (.dir entries)) (hplain : (Node.dir entries).IsPlain)
    (hnone : ∀ name ∈ ["pyproject.toml", "environment.yml", "environment.yaml"],
      entries.lookup name = none) : WellShapedIn readers ws dir .python := by
  intro path hpath kind text hkind _
  obtain ⟨hlisted, hfile⟩ := List.mem_filter.mp hpath
  rcases List.mem_append.mp hlisted with hnamed | hrequired
  -- there is no manifest of the names that are looked for
  · obtain ⟨entry, hentry, rfl⟩ := List.mem_map.mp hnamed
    have hname : entry.1 ∈ ["pyproject.toml", "environment.yml", "environment.yaml"] :=
      List.mem_map_of_mem (f := Prod.fst) hentry
    have hdown : entry.1 ≠ ".." := ofNames_ne entry (List.mem_of_mem_filter hentry)
    rw [Workspace.isFile_child_of_lookup_none habsolute hdir h hplain hdown
      (hnone entry.1 hname)] at hfile
    cases hfile
  · rw [if_pos (beq_self_eq_true Ecosystem.python)] at hrequired
    rw [ofName?_of_mem_requirementFiles hrequired, Option.some_inj] at hkind
    subst hkind
    exact namesPackages_requirements text

end Manifest

namespace Package

variable {ws ws' : Workspace} {dir : Path} {ecosystem : Ecosystem} {name : String}

end Package

end SourceSurvey
