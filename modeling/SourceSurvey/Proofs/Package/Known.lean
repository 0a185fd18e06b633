import SourceSurvey.Package.Status
import SourceSurvey.Proofs.Package.Manifest

/-!
# When the known packages are found

Manifests of the shape that their kinds ask for, in which texts name the packages, keep nobody from
looking up what is known near a file. Main statement: if all manifests at or above a directory are
like this, the search for known packages comes to an end there.
-/

namespace SourceSurvey

open Value (IsText)

namespace Manifest

/-- The text of a manifest is malformed, or it writes a document of the shape that its kind asks
for in which texts name the packages. -/
def Kind.NamesPackages (readers : DocumentReaders) (kind : Kind) (text : List Char) : Prop :=
  kind.document readers text = .error .malformed ∨
    ∃ document, kind.document readers text = .ok document ∧ kind.HasShape document ∧
      ∀ found, kind.packages document = .ok found → ∀ v ∈ found, v.IsText

/-- The manifests of a package system in a directory are well shaped. -/
def WellShapedIn (readers : DocumentReaders) (ws : Workspace) (dir : Path)
    (ecosystem : Ecosystem) : Prop :=
  ∀ path ∈ candidates ws dir ecosystem, ∀ kind text, Kind.ofName? path.name = some kind →
    ws.readStrict path = .ok (some text) → kind.NamesPackages readers text

variable {readers : DocumentReaders} {ws : Workspace} {dir path : Path} {ecosystem : Ecosystem}
  {kind : Kind} {text : List Char}

/-- A manifest that names packages is read. -/
theorem Kind.NamesPackages.admits (h : kind.NamesPackages readers text) :
    kind.Admits readers text := by
  rcases h with hmalformed | ⟨document, hdocument, hshape, -⟩
  · exact .inl hmalformed
  · exact .inr ⟨document, hdocument, hshape⟩

theorem Kind.NamesPackages.isText_of_read {found : List Value} (h : kind.NamesPackages readers text)
    (hread : kind.read readers text = .ok (some found)) : ∀ v ∈ found, v.IsText := by
  unfold read at hread
  rcases h with hmalformed | ⟨document, hdocument, -, htexts⟩
  · rw [hmalformed] at hread
    cases hread
  · rw [hdocument] at hread
    obtain ⟨packages, hpackages, hsome⟩ := map_eq_ok_iff.mp hread
    rw [Option.some_inj] at hsome
    subst hsome
    exact htexts packages hpackages

/-- What is read to packages that texts name is well shaped. -/
theorem Kind.namesPackages_of_read {found : List Value}
    (h : kind.read readers text = .ok (some found)) (htexts : ∀ v ∈ found, v.IsText) : kind.NamesPackages readers text := by
  unfold read at h
  cases hdocument : kind.document readers text with
  | error problem =>
    rw [hdocument] at h
    cases problem <;> cases h
  | ok document =>
    rw [hdocument] at h
    obtain ⟨packages, hpackages, hsome⟩ := map_eq_ok_iff.mp h
    cases hsome
    refine .inr ⟨document, hdocument, (kind.exists_packages_iff document).mp ⟨_, hpackages⟩, ?_⟩
    intro found' hfound' v hv
    rw [hpackages, Except.ok.injEq] at hfound'
    subst hfound'
    exact htexts v hv

/-- The packages of a list of requirements are named by texts. -/
theorem isText_of_mem_ofRequirements {v : Value} (h : v ∈ ofRequirements text) : v.IsText := by
  obtain ⟨line, -, hline⟩ := List.mem_filterMap.mp h
  obtain ⟨name, -, rfl⟩ := Option.map_eq_some_iff.mp hline
  exact ⟨_, rfl⟩

/-- Every list of requirements is well shaped. -/
theorem namesPackages_requirements (text : List Char) :
    Kind.requirements.NamesPackages readers text := by
  refine .inr ⟨.string (.ofList text), rfl, trivial, ?_⟩
  intro found hfound v hv
  simp only [Kind.packages, Except.ok.injEq] at hfound
  subst hfound
  exact isText_of_mem_ofRequirements hv

theorem exists_name_of_mem_requirementFiles (h : path ∈ requirementFiles ws dir) :
    ∃ name, Kind.isRequirements name = true ∧ path = dir.child name := by
  unfold requirementFiles at h
  cases hentries : ws.entries dir with
  | error e =>
    rw [hentries] at h
    cases h
  | ok entries =>
    rw [hentries] at h
    obtain ⟨name, hname, rfl⟩ := List.mem_map.mp h
    exact ⟨name, (List.mem_filter.mp (List.mem_mergeSort.mp hname)).2, rfl⟩

/-- What is listed as a list of requirements is one by its name. -/
theorem ofName?_of_mem_requirementFiles (h : path ∈ requirementFiles ws dir) :
    Kind.ofName? path.name = some .requirements := by
  obtain ⟨name, hname, rfl⟩ := exists_name_of_mem_requirementFiles h
  have hlast : (dir.child name).name = name := by
    simp [Path.child, Path.name]
  rw [hlast, Kind.ofName?, if_pos hname]

/-- A well-shaped manifest is read, and texts name the packages in it. -/
theorem exists_load_of_wellShapedIn (h : WellShapedIn readers ws dir ecosystem)
    (hpath : path ∈ candidates ws dir ecosystem) :
    ∃ found, load readers ws path = .ok found ∧
      ∀ manifest, found = some manifest → ∀ v ∈ manifest.dependencies, v.IsText := by
  by_cases hread : ∃ kind text, Kind.ofName? path.name = some kind ∧
      ws.readStrict path = .ok (some text)
  · obtain ⟨kind, text, hkind, htext⟩ := hread
    have hshaped := h path hpath kind text hkind htext
    obtain ⟨found, hfound⟩ := (exists_load_iff_admits hkind htext).mpr hshaped.admits
    refine ⟨found, hfound, ?_⟩
    intro manifest hsome
    subst hsome
    unfold load at hfound
    rw [hkind, htext] at hfound
    obtain ⟨packages?, hpackages, hload⟩ := bind_eq_ok_iff.mp hfound
    cases packages? with
    | none => cases hload
    | some packages =>
      cases hload
      exact hshaped.isText_of_read hpackages
  · refine ⟨none, load_eq_none ?_, nofun⟩
    intro kind text hkind htext
    exact hread ⟨kind, text, hkind, htext⟩

/-- The well-shaped manifests of a directory are read, and texts name all their packages. -/
theorem exists_ofDirectory_of_wellShapedIn (h : WellShapedIn readers ws dir ecosystem) :
    ∃ manifests, ofDirectory readers ws dir ecosystem = .ok manifests ∧
      ∀ v ∈ manifests.flatMap (·.dependencies), v.IsText := by
  obtain ⟨loaded, hloaded⟩ : ∃ loaded,
      (candidates ws dir ecosystem).mapM (load readers ws) = .ok loaded :=
    exists_mapM_eq_ok_iff.mpr fun path hpath =>
      (exists_load_of_wellShapedIn h hpath).imp fun _ hfound => hfound.1
  refine ⟨loaded.filterMap id, bind_eq_ok_iff.mpr ⟨loaded, hloaded, rfl⟩, ?_⟩
  intro v hv
  obtain ⟨manifest, hmanifest, hv⟩ := List.mem_flatMap.mp hv
  obtain ⟨found, hfound, hsome⟩ := List.mem_filterMap.mp hmanifest
  obtain ⟨path, hpath, hload⟩ := exists_of_mem_mapM hloaded hfound
  obtain ⟨found', hload', htexts⟩ := exists_load_of_wellShapedIn h hpath
  rw [hload, Except.ok.injEq] at hload'
  subst hload'
  exact htexts manifest hsome v hv

end Manifest

namespace Package

variable {readers : DocumentReaders} {ws : Workspace} {dir : Path} {ecosystem : Ecosystem}
  {depth : Quantity}

/-- Only a text has a canonical name. -/
theorem exists_canonicalOf_iff {v : Value} : (∃ name, canonicalOf v = .ok name) ↔ v.IsText := by
  unfold canonicalOf IsText
  cases v <;> simp

/-- What is known in a directory is found when its manifests are well-shaped. -/
theorem exists_knownIn_eq_ok (h : Manifest.WellShapedIn readers ws dir ecosystem) :
    ∃ names, knownIn readers ws dir ecosystem = .ok names := by
  obtain ⟨manifests, hmanifests, htexts⟩ := Manifest.exists_ofDirectory_of_wellShapedIn h
  obtain ⟨declared, hdeclared⟩ : ∃ declared,
      (manifests.flatMap (·.dependencies)).mapM canonicalOf = .ok declared :=
    exists_mapM_eq_ok_iff.mpr fun v hv => exists_canonicalOf_iff.mpr (htexts v hv)
  unfold knownIn
  exact ⟨_, bind_eq_ok_iff.mpr ⟨manifests, hmanifests,
    bind_eq_ok_iff.mpr ⟨declared, hdeclared, rfl⟩⟩⟩

section Step

variable {dirs : List Path} {name : String} {names : List String} {e : Fault}

/-- A directory that cannot be read stops the search. -/
theorem firstKnown_of_error (h : knownIn readers ws dir ecosystem = .error e) :
    firstKnown readers ws ecosystem (dir :: dirs) = .error e := by
  rw [firstKnown, h]
  rfl

/-- A directory without packages is passed over. -/
theorem firstKnown_of_nil (h : knownIn readers ws dir ecosystem = .ok []) :
    firstKnown readers ws ecosystem (dir :: dirs) = firstKnown readers ws ecosystem dirs := by
  rw [firstKnown, h]
  rfl

/-- A directory with packages ends the search. -/
theorem firstKnown_of_cons (h : knownIn readers ws dir ecosystem = .ok (name :: names)) :
    firstKnown readers ws ecosystem (dir :: dirs) = .ok (some (name :: names)) := by
  rw [firstKnown, h]
  rfl

end Step

/-- The search has an answer when all manifests on its way are well-shaped. -/
theorem exists_firstKnown_eq_ok {dirs : List Path}
    (h : ∀ dir ∈ dirs, Manifest.WellShapedIn readers ws dir ecosystem) :
    ∃ known, firstKnown readers ws ecosystem dirs = .ok known := by
  induction dirs with
  | nil => exact ⟨none, rfl⟩
  | cons dir dirs ih =>
    obtain ⟨hdir, hdirs⟩ := List.forall_mem_cons.mp h
    obtain ⟨names, hnames⟩ := exists_knownIn_eq_ok hdir
    -- the search goes on upward only past a directory that knows nothing
    cases names with
    | nil =>
      obtain ⟨known, hknown⟩ := ih hdirs
      exact ⟨known, (firstKnown_of_nil hnames).trans hknown⟩
    | cons name names => exact ⟨_, firstKnown_of_cons hnames⟩

/-- A search through a whole number of directories with well-shaped manifests comes to an end. -/
theorem exists_known_eq_ok (hdepth : ∀ x, depth ≠ .real x)
    (h : ∀ dir' ∈ upward dir, Manifest.WellShapedIn readers ws dir' ecosystem) :
    ∃ known, Package.known readers ws dir ecosystem depth = .ok known := by
  obtain ⟨n, hn⟩ : ∃ n, searchCount depth = .ok n := by
    cases depth with
    | truth b => exact ⟨_, rfl⟩
    | whole n => exact ⟨_, rfl⟩
    | real x => exact absurd rfl (hdepth x)
  have htaken : ∀ dir' ∈ (upward dir).take n, Manifest.WellShapedIn readers ws dir' ecosystem :=
    fun dir' hdir' => h dir' (List.mem_of_mem_take hdir')
  obtain ⟨known, hknown⟩ := exists_firstKnown_eq_ok htaken
  exact ⟨known, bind_eq_ok_iff.mpr ⟨n, hn, hknown⟩⟩

end Package

end SourceSurvey
