import Mathlib.Data.List.Basic
import Mathlib.Logic.Relation
import SourceSurvey.Usage.Scan
import SourceSurvey.Proofs.Finding.Word

/-!
# Scans that finish in any order

Files are scanned side by side, and some may not be readable. Main statement: whatever the order in
which the scans finish, put in the order of the files they are the scans of the files one by one.
-/

namespace SourceSurvey

/-! ## Runs -/

/-- The files that wait for their scan to finish, and the scans that have finished. -/
structure Pool where
  waiting : List Path
  finished : List FileScan

namespace Pool

variable {scan : Path → FileScan} {p q : Pool} {files order : List Path}
  {finished : List FileScan}

/-- The scan of one of the waiting files finishes, whichever it is. -/
inductive Step (scan : Path → FileScan) : Pool → Pool → Prop where
  | finish (before : List Path) (file : Path) (after : List Path) (finished : List FileScan) :
    Step scan ⟨before ++ file :: after, finished⟩ ⟨before ++ after, finished ++ [scan file]⟩

/-- A run over files from the first step to the last finishes with these scans. -/
def Finishes (scan : Path → FileScan) (files : List Path) (finished : List FileScan) : Prop :=
  Relation.ReflTransGen (Step scan) ⟨files, []⟩ ⟨[], finished⟩

/-- The scans that have finished and those that will. -/
def scans (scan : Path → FileScan) (pool : Pool) : List FileScan :=
  pool.finished ++ pool.waiting.map scan

/-- One step of the schedule only changes the order of scans. -/
theorem Step.perm (h : Step scan p q) : (q.scans scan).Perm (p.scans scan) := by
  obtain ⟨before, file, after, finished⟩ := h
  show (finished ++ [scan file] ++ (before ++ after).map scan).Perm
    (finished ++ (before ++ file :: after).map scan)
  rw [List.append_assoc, List.singleton_append, List.map_append, List.map_append, List.map_cons]
  exact List.perm_middle.symm.append_left finished

/-- So does any number of steps. -/
theorem perm_of_steps (h : Relation.ReflTransGen (Step scan) p q) :
    (q.scans scan).Perm (p.scans scan) := by
  induction h with
  | refl => exact .refl _
  | tail _ hstep ih => exact hstep.perm.trans ih

/-- No scan is lost in a run and none is made twice. -/
theorem Finishes.perm (h : Finishes scan files finished) : finished.Perm (files.map scan) := by
  have hscans : (finished ++ []).Perm ([] ++ files.map scan) := perm_of_steps h
  rwa [List.append_nil, List.nil_append] at hscans

/-- The scans may finish in every order. -/
theorem finishes_of_perm (h : order.Perm files) : Finishes scan files (order.map scan) := by
  have hrun : ∀ done, Relation.ReflTransGen (Step scan) ⟨files, done⟩
      ⟨[], done ++ order.map scan⟩ := by
    induction order generalizing files with
    | nil =>
      intro done
      rw [h.symm.eq_nil, List.map_nil, List.append_nil]
    | cons file order ih =>
      intro done
      obtain ⟨before, after, rfl⟩ := List.append_of_mem (h.subset List.mem_cons_self)
      have hrest : order.Perm (before ++ after) := (h.trans List.perm_middle).cons_inv
      have hsteps := ih hrest (done ++ [scan file])
      rw [List.append_assoc] at hsteps
      exact .head (.finish before file after done) hsteps
  exact hrun []

end Pool

/-! ## The scan of one file -/

namespace FileScan

variable {ws : Workspace} {refused : Path → Option SystemError} {names : List String}
  {name : String} {file : Path}

/-- The text of a file, when the system refuses to read some files. -/
def text? (ws : Workspace) (refused : Path → Option SystemError) (file : Path) :
    Option (List Char) :=
  match refused file with
  | some _ => none
  | none => (ws.readText file).toOption

/-- The scan of a file, when the system refuses to read some files. -/
def attempt (ws : Workspace) (refused : Path → Option SystemError) (names : List String)
    (file : Path) : FileScan :=
  match refused file with
  | some e => ⟨file, .error e⟩
  | none => ofFile ws names file

/-- The file can be read, and a name stands in it as a whole word. -/
def IsUser (ws : Workspace) (refused : Path → Option SystemError) (name : String) (file : Path) :
    Prop :=
  ∃ text, text? ws refused file = some text ∧ StandsIn name.toList text

/-- A file is a user of a name when its text mentions it. -/
theorem any_hasMention_iff :
    (text? ws refused file).any (hasMention name.toList) = true ↔ IsUser ws refused name file := by
  rw [Option.any_eq_true]
  exact exists_congr fun text => and_congr_right fun _ => hasMention_iff_standsIn

instance : DecidablePred (IsUser ws refused name) :=
  fun _ => decidable_of_iff _ any_hasMention_iff

theorem path_attempt : (attempt ws refused names file).path = file := by
  unfold attempt
  split <;> rfl

/-- A scan mentions the names that the file uses. -/
theorem mentions_attempt (hname : name ∈ names) :
    (attempt ws refused names file).mentions name = decide (IsUser ws refused name file) := by
  have hany : (attempt ws refused names file).mentions name =
      (text? ws refused file).any (hasMention name.toList) := by
    unfold attempt text?
    cases refused file with
    | some e => rfl
    | none =>
      unfold ofFile
      cases ws.readText file with
      | error e => rfl
      | ok text =>
        show (names.filter fun n => hasMention n.toList text).contains name =
          hasMention name.toList text
        rw [Bool.eq_iff_iff, List.contains_iff_mem, List.mem_filter, and_iff_right hname]
  rw [hany, Bool.eq_iff_iff, any_hasMention_iff, decide_eq_true_iff]

/-- Scans that finished in some order, put in the order of their files. -/
theorem inOrder_of_perm {scan : Path → FileScan} (hpath : ∀ file, (scan file).path = file)
    {files : List Path} {finished : List FileScan} (h : finished.Perm (files.map scan)) :
    inOrder files finished = files.map scan := by
  have hfind : ∀ file ∈ files, finished.find? (·.path == file) = some (scan file) := by
    intro file hfile
    have hmem : scan file ∈ finished := h.mem_iff.mpr (List.mem_map_of_mem hfile)
    cases hfound : finished.find? (·.path == file) with
    | none =>
      have hnone := List.find?_eq_none.mp hfound _ hmem
      exact absurd (beq_iff_eq.mpr (hpath file)) hnone
    | some s =>
      -- the scan that is found belongs to the same path, so to the same file
      obtain ⟨other, -, rfl⟩ := List.mem_map.mp (h.mem_iff.mp (List.mem_of_find?_eq_some hfound))
      have htest := List.find?_some hfound
      have hother : other = file := (hpath other).symm.trans (beq_iff_eq.mp htest)
      rw [hother]
  rw [inOrder, List.filterMap_congr hfind, ← List.filterMap_eq_map]
  rfl

end FileScan

end SourceSurvey
