import SourceSurvey.Proofs.Usage.Gather
import SourceSurvey.Proofs.Usage.Schedule
import SourceSurvey.Proofs.Workspace.Link

/-!
# What the search for uses finds

The public names of a file are sought in the other files of its workspace, side by side, and some of
these may not be readable. Main statement: in every run the search ends with the uses of exactly the
names that stand in readable files, each once, with all of these files in order.
-/

namespace SourceSurvey

namespace NameUsage

/-! ## Exact uses -/

section Exact

variable {root : Path} {items : List PublicName} {files : List Path}
  {isUser : String → Path → Prop} [∀ name, DecidablePred (isUser name)] {scan : Path → FileScan}

/-- The uses are exactly those of the public names in the files that use them. -/
structure IsExact (root : Path) (items : List PublicName) (files : List Path)
    (isUser : String → Path → Prop) [∀ name, DecidablePred (isUser name)]
    (usages : List NameUsage) : Prop where
  nodup : (usages.map (·.name)).Nodup
  mem_names_iff : ∀ name, name ∈ usages.map (·.name) ↔
    name ∈ items.map (·.name) ∧ ∃ file ∈ files, isUser name file
  /-- The kind is that of the first public name of the name. -/
  kind : ∀ u ∈ usages, (items.find? (·.name == u.name)).map (·.kind.name) = some u.kind
  /-- The files that use the name, in order. -/
  usedIn : ∀ u ∈ usages, u.usedIn = ((files.filter (isUser u.name)).map (relative root)).eraseDups
  nodup_usedIn : ∀ u ∈ usages, u.usedIn.Nodup

/-- The files whose scans mention a name are those that use it. -/
theorem filter_mentions (hpath : ∀ file, (scan file).path = file) {name : String}
    (hmentions : ∀ file, (scan file).mentions name = decide (isUser name file)) :
    ((files.map scan).filter (·.mentions name)).map (·.path) = files.filter (isUser name) := by
  have hid : (fun s : FileScan => s.path) ∘ scan = id := funext hpath
  rw [List.filter_map, List.map_map, hid, List.map_id]
  exact List.filter_congr fun file _ => hmentions file

theorem find?_ofScans_map (hpath : ∀ file, (scan file).path = file)
    (hmentions : ∀ name ∈ items.map (·.name), ∀ file,
      (scan file).mentions name = decide (isUser name file)) (name : String) :
    (ofScans root items (files.map scan)).find? (·.name == name) =
      use? root items (files.filter (isUser name)) name := by
  rw [find?_ofScans]
  cases hitem : items.find? (·.name == name) with
  | none => rw [use?, use?, hitem, Option.bind_none, Option.bind_none]
  | some item =>
    have hpublic : name ∈ items.map (·.name) := by
      rw [mem_map_iff_isSome_find?, hitem, Option.isSome_some]
    rw [filter_mentions hpath (hmentions name hpublic)]

/-- Scans that tell which files use each public name are gathered to the exact uses. -/
theorem isExact_ofScans (hpath : ∀ file, (scan file).path = file)
    (hmentions : ∀ name ∈ items.map (·.name), ∀ file,
      (scan file).mentions name = decide (isUser name file)) :
    IsExact root items files isUser (ofScans root items (files.map scan)) := by
  have hnodup := nodup_ofScans root items (files.map scan)
  -- everything about an entry is read off the one the search by its name finds
  have hfind : ∀ name, (ofScans root items (files.map scan)).find? (·.name == name) =
      use? root items (files.filter (isUser name)) name :=
    find?_ofScans_map hpath hmentions
  have huse : ∀ u ∈ ofScans root items (files.map scan),
      use? root items (files.filter (isUser u.name)) u.name = some u := by
    intro u hu
    rw [← hfind, find?_key_of_mem hnodup hu]
  constructor
  case nodup => exact hnodup
  case mem_names_iff =>
    intro name
    have husers : files.filter (isUser name) ≠ [] ↔ ∃ file ∈ files, isUser name file := by
      rw [Ne, List.filter_eq_nil_iff]
      simp only [decide_eq_true_iff, not_forall, not_not, exists_prop]
    rw [mem_map_iff_isSome_find?, hfind, isSome_use?_iff, husers]
  case kind =>
    intro u hu
    obtain ⟨item, hitem, -, heq⟩ := use?_eq_some_iff.mp (huse u hu)
    rw [hitem, Option.map_some]
    exact congrArg (fun v => some v.kind) heq.symm
  case usedIn =>
    intro u hu
    obtain ⟨item, -, -, heq⟩ := use?_eq_some_iff.mp (huse u hu)
    exact congrArg (·.usedIn) heq
  case nodup_usedIn =>
    intro u hu
    obtain ⟨item, -, -, heq⟩ := use?_eq_some_iff.mp (huse u hu)
    rw [heq]
    exact nodup_eraseDups _

end Exact

end NameUsage

namespace Candidate

/-! ## The files that are searched -/

variable {ws : Workspace} {settings : Settings}

/-- All source files below a root. -/
def sources (ws : Workspace) (settings : Settings) (root : Path) : List Path :=
  match ws.look root with
  | .ok (_, node) => below ws settings (depth node) root node
  | .error _ => []

/-- The files that are searched are taken from the sources in their order. -/
theorem collect_eq_takeOthers (root exclude : Path) :
    collect ws settings root exclude =
      takeOthers ws exclude settings.externalUsageMaxFiles 0 (sources ws settings root) := by
  unfold collect sources
  cases ws.look root with
  | ok found => rfl
  | error e => rfl

/-- In a directory of source files these are searched in order of their names. -/
theorem sources_of_files {entries : List (String × Node)} {root : String}
    (hfile : ∀ e ∈ entries, e.1 ≠ ".." ∧ isSource e.1 = true ∧
      ∃ bytes, e.2 = .file bytes ∧ entries.lookup e.1 = some (.file bytes))
    (hsorted : (entries.map (·.1)).Pairwise (· ≤ ·)) :
    sources ⟨.dir entries, []⟩ settings ⟨root, []⟩ = entries.map fun e => ⟨root, [e.1]⟩ := by
  have hnames : (entries.map (·.1)).filter (fun n => !Workspace.isDir ⟨.dir entries, []⟩
      (Path.child ⟨root, []⟩ n) && isSource n) = entries.map (·.1) := by
    rw [List.filter_eq_self]
    intro n hn
    obtain ⟨e, he, rfl⟩ := List.mem_map.mp hn
    obtain ⟨hup, hsource, bytes, -, hlookup⟩ := hfile e he
    show (!Workspace.isDir ⟨.dir entries, []⟩ ⟨root, [e.1]⟩ && isSource e.1) = true
    rw [Workspace.isDir_of_lookup hup hlookup, hsource]
    rfl
  have hsort : (entries.map (·.1)).mergeSort (fun a b => a ≤ b) = entries.map (·.1) :=
    List.mergeSort_of_pairwise (hsorted.imp fun h => decide_eq_true h)
  have hhere : filesIn ⟨.dir entries, []⟩ ⟨root, []⟩ entries =
      entries.map fun e => ⟨root, [e.1]⟩ := by
    unfold filesIn
    dsimp only
    rw [hnames, hsort, List.map_map]
    rfl
  -- no entry is a directory, so nothing lies deeper
  have hinner : ((sorted entries).flatMap fun e =>
      if isSearched settings e.1 then
        below ⟨.dir entries, []⟩ settings (depth.depthIn entries) (Path.child ⟨root, []⟩ e.1) e.2
      else []) = [] := by
    rw [List.flatMap_eq_nil_iff]
    intro e he
    obtain ⟨-, -, bytes, hnode, -⟩ := hfile e (List.mem_mergeSort.mp he)
    split
    · rw [hnode]
      cases depth.depthIn entries <;> rfl
    · rfl
  unfold sources
  rw [Workspace.look_home]
  exact (congrArg₂ (· ++ ·) hhere hinner).trans (List.append_nil _)

/-- The file itself is passed over, and any other is taken, with those behind it as long as there are
not enough. -/
theorem takeOthers_cons {exclude file q : Path} {cap : Quantity} {count : Nat} {files : List Path}
    (h : ws.resolve file = .ok q) :
    takeOthers ws exclude cap count (file :: files) =
      if q == exclude then takeOthers ws exclude cap count files
      else if isEnough cap (count + 1) then .ok [file]
      else (takeOthers ws exclude cap (count + 1) files).map (file :: ·) := by
  rw [takeOthers, h]
  show (if q == exclude then takeOthers ws exclude cap count files
    else if isEnough cap (count + 1) then Except.ok [file]
    else do
      let rest ← takeOthers ws exclude cap (count + 1) files
      return file :: rest) = _
  cases takeOthers ws exclude cap (count + 1) files <;> rfl

/-- Files without circular links can all be taken. -/
theorem exists_takeOthers_eq_ok {exclude : Path} {cap : Quantity} {files : List Path}
    (h : ∀ p ∈ files, ¬ ws.IsCircular p) (count : Nat) :
    ∃ taken, takeOthers ws exclude cap count files = .ok taken := by
  induction files generalizing count with
  | nil => exact ⟨[], rfl⟩
  | cons file files ih =>
    obtain ⟨q, hq⟩ := Workspace.exists_resolve_eq_ok (h file List.mem_cons_self)
    have hrest : ∀ p ∈ files, ¬ ws.IsCircular p := fun p hp => h p (List.mem_cons_of_mem file hp)
    rw [takeOthers_cons hq]
    split
    · exact ih hrest count
    · split
      · exact ⟨[file], rfl⟩
      · obtain ⟨taken, htaken⟩ := ih hrest (count + 1)
        rw [htaken]
        exact ⟨file :: taken, rfl⟩

end Candidate

namespace NameUsage

/-! ## Runs of the search -/

section Run

variable {ws : Workspace} {settings : Settings} {file : Path} {s : Summary} {workspace : Path}

/-- The names that are sought, each once. -/
def searched (s : Summary) : List String :=
  ((PublicName.ofSummary s).map (·.name)).eraseDups

/-- The uses of the public names of a file in the other files of a workspace, when the scans of
these files finish as a run has it. -/
def ofSummaryBy (run : List Path → List FileScan) (ws : Workspace) (settings : Settings)
    (file : Path) (s : Summary) (workspace : Path) : Except Failure (List NameUsage) := do
  let items := PublicName.ofSummary s
  if !isEnabled settings || items.isEmpty then return []
  else
    let root ← ws.resolve workspace
    let files ← Candidate.collect ws settings root (← ws.resolve file)
    return ofFinished root items files (run files)

/-- The search in file order is the run in which no read is refused and no scan overtakes another. -/
theorem ofSummary_eq_ofSummaryBy :
    ofSummary ws settings file s workspace =
      ofSummaryBy (List.map (FileScan.attempt ws (fun _ => none) (searched s))) ws settings file s
        workspace := rfl

/-- No symbolic links go round in a circle on the way to the workspace, to the file or to a source
file of the workspace. -/
structure NoCircle (ws : Workspace) (settings : Settings) (file workspace : Path) : Prop where
  toWorkspace : ¬ ws.IsCircular workspace
  toFile : ¬ ws.IsCircular file
  toSource : ∀ root, ws.resolve workspace = .ok root →
    ∀ p ∈ Candidate.sources ws settings root, ¬ ws.IsCircular p

theorem noCircle_of_linkFree (h : ws.root.LinkFree) : NoCircle ws settings file workspace :=
  ⟨Workspace.not_isCircular_of_linkFree h _, Workspace.not_isCircular_of_linkFree h _,
    fun _ _ p _ => Workspace.not_isCircular_of_linkFree h p⟩

/-- The search comes to the files that it scans. -/
theorem exists_collect_eq_ok (h : NoCircle ws settings file workspace) :
    ∃ root exclude files, ws.resolve workspace = .ok root ∧ ws.resolve file = .ok exclude ∧
      Candidate.collect ws settings root exclude = .ok files := by
  obtain ⟨root, hroot⟩ := Workspace.exists_resolve_eq_ok h.toWorkspace
  obtain ⟨exclude, hexclude⟩ := Workspace.exists_resolve_eq_ok h.toFile
  obtain ⟨files, hfiles⟩ := Candidate.exists_takeOthers_eq_ok (h.toSource root hroot) 0
  exact ⟨root, exclude, files, hroot, hexclude, (Candidate.collect_eq_takeOthers ..).trans hfiles⟩

theorem ofScans_nil (root : Path) (scans : List FileScan) : ofScans root [] scans = [] := by
  induction scans using List.reverseRecOn with
  | nil => rfl
  | append_singleton scans scan ih =>
    rw [ofScans, List.foldl_concat]
    exact ih

/-- A search that comes to the files gathers their scans in file order. -/
theorem ofSummaryBy_eq_ok {refused : Path → Option SystemError} {run : List Path → List FileScan}
    {root exclude : Path} {files : List Path} (henabled : isEnabled settings = true)
    (hroot : ws.resolve workspace = .ok root) (hexclude : ws.resolve file = .ok exclude)
    (hfiles : Candidate.collect ws settings root exclude = .ok files)
    (hrun : Pool.Finishes (FileScan.attempt ws refused (searched s)) files (run files)) :
    ofSummaryBy run ws settings file s workspace = .ok (ofScans root (PublicName.ofSummary s)
      (files.map (FileScan.attempt ws refused (searched s)))) := by
  have hinOrder := FileScan.inOrder_of_perm (fun _ => FileScan.path_attempt) hrun.perm
  show (if (!isEnabled settings || (PublicName.ofSummary s).isEmpty) = true then Except.ok []
    else do
      let root ← ws.resolve workspace
      let files ← Candidate.collect ws settings root (← ws.resolve file)
      return ofFinished root (PublicName.ofSummary s) files (run files)) = _
  rw [henabled, hroot, hexclude]
  cases PublicName.ofSummary s with
  | nil => exact congrArg Except.ok (ofScans_nil root _).symm
  | cons item items =>
    show (Candidate.collect ws settings root exclude >>= _) = _
    rw [hfiles]
    exact congrArg (fun scans => Except.ok (ofScans root (item :: items) scans)) hinOrder

/-- What scans gather is exact, whatever files the system refuses. -/
theorem isExact_ofScans_attempt (refused : Path → Option SystemError) (root : Path)
    (files : List Path) :
    IsExact root (PublicName.ofSummary s) files (FileScan.IsUser ws refused)
      (ofScans root (PublicName.ofSummary s)
        (files.map (FileScan.attempt ws refused (searched s)))) :=
  isExact_ofScans (fun _ => FileScan.path_attempt) fun _ hname _ =>
    FileScan.mentions_attempt (List.mem_eraseDups.mpr hname)

/-- Two files that are the one letter `f`, and an empty one. -/
def callers : Workspace :=
  ⟨.dir [("lib.py", .file []), ("main.py", .file [102]), ("tool.py", .file [102])], []⟩

theorem linkFree_callers : callers.root.LinkFree := by
  refine .dir _ fun e he => ?_
  simp only [List.mem_cons, List.not_mem_nil, or_false] at he
  rcases he with rfl | rfl | rfl <;> exact .file _

/-- One of the files cannot be read. -/
def refusedTool (file : Path) : Option SystemError :=
  if file.name = "tool.py" then some (.noSuchFile "/tool.py") else none

end Run

end NameUsage

end SourceSurvey
