import SourceSurvey.Workspace.Tree

/-!
# Paths that are looked up

A file that stands in the working directory of a workspace is found there and read. A path cannot be
resolved only when links go round in a circle. Main statement: where there are no links, there is no
circle.
-/

namespace SourceSurvey

/-! ## Files in the working directory -/

namespace Workspace

variable {entries : List (String × Node)} {root name : String} {bytes : List UInt8}

/-- A file in the topmost directory is looked up by its name. -/
theorem look_of_lookup (hname : name ≠ "..") (h : entries.lookup name = some (.file bytes)) :
    look ⟨.dir entries, []⟩ ⟨root, [name]⟩ = .ok ([name], .file bytes) := by
  have hstart : startOf ⟨.dir entries, []⟩ ⟨root, [name]⟩ = [] := by
    unfold startOf
    split <;> rfl
  have hhere : Node.at? (.dir entries) [name] = some (.file bytes) := by
    show ((entries.lookup name).bind fun m => m.at? []) = _
    rw [h]
    rfl
  unfold look
  rw [hstart, walk]
  simp only [Node.at?, beq_iff_eq, hname, if_false, h, List.nil_append]
  rw [walk, hhere]

theorem isDir_of_lookup (hname : name ≠ "..") (h : entries.lookup name = some (.file bytes)) :
    isDir ⟨.dir entries, []⟩ ⟨root, [name]⟩ = false := by
  unfold isDir
  rw [look_of_lookup hname h]

/-- The topmost directory is looked up by no name. -/
theorem look_home : look ⟨.dir entries, []⟩ ⟨root, []⟩ = .ok ([], .dir entries) := by
  have hstart : startOf ⟨.dir entries, []⟩ ⟨root, []⟩ = [] := by
    unfold startOf
    split <;> rfl
  unfold look
  rw [hstart, walk]
  rfl

theorem resolve_home : resolve ⟨.dir entries, []⟩ ⟨root, []⟩ = .ok ⟨"/", []⟩ := by
  have hstart : startOf ⟨.dir entries, []⟩ ⟨root, []⟩ = [] := by
    unfold startOf
    split <;> rfl
  unfold resolve
  rw [hstart, realNames]

/-- A file in the topmost directory that is no link is where its path says. -/
theorem resolve_of_lookup (hname : name ≠ "..")
    (h : entries.lookup name = some (.file bytes)) :
    resolve ⟨.dir entries, []⟩ ⟨root, [name]⟩ = .ok ⟨"/", [name]⟩ := by
  have hstart : startOf ⟨.dir entries, []⟩ ⟨root, [name]⟩ = [] := by
    unfold startOf
    split <;> rfl
  have hhere : Node.at? (.dir entries) [name] = some (.file bytes) := by
    show ((entries.lookup name).bind fun m => m.at? []) = _
    rw [h]
    rfl
  unfold resolve
  rw [hstart, realNames]
  simp only [beq_iff_eq, hname, if_false, List.nil_append, hhere]
  rw [realNames]

theorem readBytes_of_lookup (hname : name ≠ "..")
    (h : entries.lookup name = some (.file bytes)) :
    readBytes ⟨.dir entries, []⟩ ⟨root, [name]⟩ = .ok bytes := by
  unfold readBytes
  rw [look_of_lookup hname h]

theorem pathExists_of_lookup (hname : name ≠ "..")
    (h : entries.lookup name = some (.file bytes)) :
    pathExists ⟨.dir entries, []⟩ ⟨root, [name]⟩ = true := by
  unfold pathExists
  rw [look_of_lookup hname h]
  rfl

end Workspace

/-! ## Circles of links -/

namespace Workspace

variable {ws : Workspace} {p : Path}

/-- The links on the way of a path go round in a circle. -/
def IsCircular (ws : Workspace) (p : Path) : Prop :=
  ws.resolve p = .error (.fault .linkCircle)

/-- A path without a circle of links resolves. -/
theorem exists_resolve_eq_ok (h : ¬ ws.IsCircular p) : ∃ q, ws.resolve p = .ok q := by
  unfold IsCircular resolve at h
  unfold resolve
  cases hnames : ws.realNames maxResolved (ws.startOf p) p.names with
  | some names => exact ⟨⟨"/", names⟩, rfl⟩
  | none =>
    rw [hnames] at h
    exact absurd rfl h

end Workspace

/-- No entry at or below a node is a link. -/
inductive Node.LinkFree : Node → Prop where
  | file (bytes : List UInt8) : LinkFree (.file bytes)
  | dir (entries : List (String × Node)) (h : ∀ e ∈ entries, LinkFree e.2) : LinkFree (.dir entries)

namespace Node

/-- What is in a directory without links has none. -/
theorem LinkFree.entry {node child : Node} {name : String} (h : node.LinkFree)
    (hchild : node.entry? name = some child) : child.LinkFree := by
  cases h with
  | file bytes => cases hchild
  | dir entries h =>
    obtain ⟨before, after, hentries, -⟩ := List.lookup_eq_some_iff.mp hchild
    refine h (name, child) ?_
    rw [hentries]
    exact List.mem_append_right _ List.mem_cons_self

/-- What lies below a node without links has none. -/
theorem LinkFree.at? {names : List String} {node below : Node} (h : node.LinkFree)
    (hbelow : node.at? names = some below) : below.LinkFree := by
  induction names generalizing node with
  | nil =>
    cases hbelow
    exact h
  | cons name names ih =>
    obtain ⟨child, hchild, hrest⟩ := Option.bind_eq_some_iff.mp hbelow
    exact ih (h.entry hchild) hrest

end Node

namespace Workspace

variable {ws : Workspace}

/-- Without links every path has real names. -/
theorem exists_realNames_of_linkFree (h : ws.root.LinkFree) (links : Nat)
    (here rest : List String) : ∃ names, ws.realNames links here rest = some names := by
  induction rest generalizing here with
  | nil =>
    rw [realNames]
    exact ⟨here, rfl⟩
  | cons name rest ih =>
    rw [realNames]
    split
    · exact ih _
    · split
      · next hlink => cases h.at? hlink
      · exact ih _

/-- Where there are no links, a way that goes down only leads along its names. -/
theorem realNames_of_linkFree (h : ws.root.LinkFree) (links : Nat) {here rest : List String}
    (hrest : ".." ∉ rest) : ws.realNames links here rest = some (here ++ rest) := by
  induction rest generalizing here with
  | nil => rw [realNames, List.append_nil]
  | cons name rest ih =>
    have hname : name ≠ ".." := (List.ne_of_not_mem_cons hrest).symm
    have hon : ws.realNames links (here ++ [name]) rest = some (here ++ [name] ++ rest) :=
      ih (List.not_mem_of_not_mem_cons hrest)
    rw [List.append_assoc, List.singleton_append] at hon
    rw [realNames]
    simp only [beq_iff_eq, hname, if_false]
    split
    · next hlink => cases h.at? hlink
    · exact hon

/-- Where there are no links, an absolute path that goes down only is where it says. -/
theorem resolve_of_linkFree (h : ws.root.LinkFree) {names : List String} (hnames : ".." ∉ names) :
    ws.resolve ⟨"/", names⟩ = .ok ⟨"/", names⟩ := by
  have hstart : ws.startOf ⟨"/", names⟩ = [] := if_pos rfl
  unfold resolve
  rw [hstart, realNames_of_linkFree h _ hnames, List.nil_append]

/-- Where there are no links, none go round in a circle. -/
theorem not_isCircular_of_linkFree (h : ws.root.LinkFree) (p : Path) : ¬ ws.IsCircular p := by
  obtain ⟨names, hnames⟩ :=
    exists_realNames_of_linkFree h maxResolved (ws.startOf p) p.names
  unfold IsCircular resolve
  rw [hnames]
  intro hcircle
  cases hcircle

end Workspace

end SourceSurvey
