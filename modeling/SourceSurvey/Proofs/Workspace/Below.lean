import SourceSurvey.Proofs.Workspace.Link

/-!
# What is below a directory

A path into a directory without links leads to what its names lead to there. Main statement: if two
workspaces have the same directory in one place, and no links in it, then every path that stays in
it leads to the same in both, whatever is around it.
-/

namespace SourceSurvey

/-- Nothing at or below a node is a link or has the name that stands for the directory above. -/
inductive Node.IsPlain : Node → Prop where
  | file (bytes : List UInt8) : IsPlain (.file bytes)
  | dir (entries : List (String × Node)) (hnames : ∀ e ∈ entries, e.1 ≠ "..")
    (h : ∀ e ∈ entries, IsPlain e.2) : IsPlain (.dir entries)

namespace Node

variable {node child : Node} {name : String}

/-- A plain node holds no link. -/
theorem IsPlain.linkFree (h : node.IsPlain) : node.LinkFree := by
  induction h with
  | file bytes => exact .file bytes
  | dir entries _ _ ih => exact .dir entries ih

/-- A plain node is no link. -/
theorem IsPlain.isLink (h : node.IsPlain) : node.isLink = false := by
  cases h <;> rfl

/-- What is in a plain directory is plain. -/
theorem IsPlain.entry? (h : node.IsPlain) (hchild : node.entry? name = some child) :
    child.IsPlain := by
  cases h with
  | file bytes => cases hchild
  | dir entries _ h =>
    obtain ⟨before, after, hentries, -⟩ := List.lookup_eq_some_iff.mp hchild
    refine h (name, child) ?_
    rw [hentries]
    exact List.mem_append_right _ List.mem_cons_self

/-- A way of two parts leads through the end of the first. -/
theorem at?_append (node : Node) (names more : List String) :
    node.at? (names ++ more) = (node.at? names).bind fun m => m.at? more := by
  induction names generalizing node with
  | nil => rfl
  | cons name names ih =>
    rw [List.cons_append, at?, at?, Option.bind_assoc]
    exact Option.bind_congr fun child _ => ih child

/-- What has something below it is no link. -/
theorem isLink_of_at?_cons {names : List String} {below : Node}
    (h : node.at? (name :: names) = some below) : node.isLink = false := by
  cases node with
  | link target => cases h
  | file | dir => rfl

/-- What names lead to from a node when they meet no link. -/
def follow : Node → List String → Except Workspace.Refusal Node
  | node, [] => .ok node
  | .dir entries, name :: names =>
    match entries.lookup name with
    | some child => child.follow names
    | none => .error .missing
  | _, _ :: _ => .error .notDirectory

/-- What lies below a plain node is plain. -/
theorem IsPlain.follow {names : List String} {below : Node} (h : node.IsPlain)
    (hbelow : node.follow names = .ok below) : below.IsPlain := by
  induction names generalizing node with
  | nil =>
    cases hbelow
    exact h
  | cons name names ih =>
    cases node with
    | file | link => cases hbelow
    | dir entries =>
      rw [Node.follow] at hbelow
      cases hentry : entries.lookup name with
      | none =>
        rw [hentry] at hbelow
        cases hbelow
      | some child =>
        rw [hentry] at hbelow
        exact ih (h.entry? hentry) hbelow

end Node

namespace Workspace

variable {ws ws' : Workspace} {node : Node} {names : List String} {name : String} {dir : Path}

/-! ## Ways without links -/

section Way

variable {child : Node} {entries : List (String × Node)} {here rest : List String} {links : Nat}

/-- A way goes on into an entry that is no link. -/
theorem walk_cons_of_lookup (hhere : ws.root.at? here = some (.dir entries)) (hname : name ≠ "..")
    (hentry : entries.lookup name = some child) (hlink : child.isLink = false) :
    ws.walk links here (name :: names) = ws.walk links (here ++ [name]) names := by
  rw [walk, hhere]
  simp only [beq_iff_eq, hname, if_false, hentry]
  cases child with
  | link target => cases hlink
  | file | dir => rfl

/-- A way past no link is gone to its end. -/
theorem walk_append (hnames : ".." ∉ names) (h : ws.root.at? (here ++ names) = some node)
    (hlink : node.isLink = false) :
    ws.walk links here (names ++ rest) = ws.walk links (here ++ names) rest := by
  induction names generalizing here with
  | nil => rw [List.nil_append, List.append_nil]
  | cons name names ih =>
    have hname : name ≠ ".." := (List.ne_of_not_mem_cons hnames).symm
    obtain ⟨dir, hhere, hbelow⟩ := Option.bind_eq_some_iff.mp
      ((Node.at?_append ws.root here (name :: names)).symm.trans h)
    obtain ⟨child, hchild, hrest⟩ := Option.bind_eq_some_iff.mp hbelow
    have hchildLink : child.isLink = false := by
      cases names with
      | nil =>
        cases hrest
        exact hlink
      | cons next names => exact Node.isLink_of_at?_cons hrest
    cases dir with
    | file | link => cases hchild
    | dir entries =>
      rw [List.cons_append, walk_cons_of_lookup hhere hname hchild hchildLink,
        ih (List.not_mem_of_not_mem_cons hnames)
          (by rwa [List.append_assoc, List.singleton_append]),
        List.append_assoc, List.singleton_append]

/-- From a directory without links a way that stays below leads to what its names lead to there. -/
theorem walk_eq_follow (h : ws.root.at? here = some node) (hplain : node.IsPlain)
    (hrest : ".." ∉ rest) :
    ws.walk links here rest = (node.follow rest).map fun n => (here ++ rest, n) := by
  -- nothing below a plain directory is a link, so the walk is never redirected
  induction rest generalizing here node with
  | nil =>
    rw [walk, h, List.append_nil]
    rfl
  | cons name names ih =>
    have hname : name ≠ ".." := (List.ne_of_not_mem_cons hrest).symm
    cases node with
    | file =>
      rw [walk, h]
      rfl
    | link => cases hplain
    | dir entries =>
      rw [Node.follow]
      cases hentry : entries.lookup name with
      | none =>
        rw [walk, h]
        simp only [beq_iff_eq, hname, if_false, hentry]
        rfl
      | some child =>
        have hchild := hplain.entry? hentry
        have hthere : ws.root.at? (here ++ [name]) = some child := by
          rw [Node.at?_append, h, Option.bind_some, Node.at?]
          show (entries.lookup name).bind _ = _
          rw [hentry]
          rfl
        rw [walk_cons_of_lookup h hname hentry hchild.isLink,
          ih hthere hchild (List.not_mem_of_not_mem_cons hrest), List.append_assoc,
          List.singleton_append]

/-- A path that stays below a directory without links leads to what its names lead to there. -/
theorem look_eq_follow (habsolute : dir.isAbsolute = true) (hdir : ".." ∉ dir.names)
    (h : ws.root.at? dir.names = some node) (hplain : node.IsPlain) (hnames : ".." ∉ names) :
    ws.look { dir with names := dir.names ++ names } =
      (node.follow names).map fun n => (dir.names ++ names, n) := by
  have hstart : ws.startOf { dir with names := dir.names ++ names } = [] := if_pos habsolute
  unfold look
  rw [hstart, walk_append hdir (by rwa [List.nil_append]) hplain.isLink, List.nil_append,
    walk_eq_follow h hplain hnames]

/-- What is looked up in a directory without links is the entry of that name. -/
theorem look_child (habsolute : dir.isAbsolute = true) (hdir : ".." ∉ dir.names)
    (h : ws.root.at? dir.names = some node) (hplain : node.IsPlain) (hname : name ≠ "..") :
    ws.look (dir.child name) = (node.follow [name]).map fun n => (dir.names ++ [name], n) :=
  look_eq_follow habsolute hdir h hplain (List.not_mem_cons_of_ne_of_not_mem hname.symm
    List.not_mem_nil)

/-- A directory has no file with a name that no entry has. -/
theorem isFile_child_of_lookup_none (habsolute : dir.isAbsolute = true) (hdir : ".." ∉ dir.names)
    (h : ws.root.at? dir.names = some (.dir entries)) (hplain : (Node.dir entries).IsPlain)
    (hname : name ≠ "..") (hnone : entries.lookup name = none) :
    ws.isFile (dir.child name) = false := by
  unfold isFile
  rw [look_child habsolute hdir h hplain hname, Node.follow, hnone]
  rfl

/-- A file of a plain directory is found where it is. -/
theorem look_child_of_lookup_file {bytes : List UInt8} (habsolute : dir.isAbsolute = true)
    (hdir : ".." ∉ dir.names) (h : ws.root.at? dir.names = some (.dir entries))
    (hplain : (Node.dir entries).IsPlain) (hname : name ≠ "..")
    (hfile : entries.lookup name = some (.file bytes)) :
    ws.look (dir.child name) = .ok (dir.names ++ [name], .file bytes) := by
  rw [look_child habsolute hdir h hplain hname, Node.follow, hfile]
  rfl

end Way

/-! ## The same below a directory -/

/-- In two workspaces every path from a directory on that stays below it leads to the same, and no
entry below it has the name that stands for the directory above. -/
structure LooksAlikeBelow (ws ws' : Workspace) (dir : Path) : Prop where
  looks : ∀ names, ".." ∉ names → ws'.look { dir with names := dir.names ++ names } =
    ws.look { dir with names := dir.names ++ names }
  named : ∀ names, ".." ∉ names → ∀ way entries,
    ws.look { dir with names := dir.names ++ names } = .ok (way, .dir entries) →
      ∀ e ∈ entries, e.1 ≠ ".."

/-- What is around a directory without links does not matter below it. -/
theorem looksAlikeBelow_of_at? (habsolute : dir.isAbsolute = true) (hdir : ".." ∉ dir.names)
    (h : ws.root.at? dir.names = some node) (h' : ws'.root.at? dir.names = some node)
    (hplain : node.IsPlain) : ws.LooksAlikeBelow ws' dir := by
  constructor
  · intro names hnames
    rw [look_eq_follow habsolute hdir h hplain hnames,
      look_eq_follow habsolute hdir h' hplain hnames]
  · intro names hnames way entries hlook
    rw [look_eq_follow habsolute hdir h hplain hnames] at hlook
    cases hfollow : node.follow names with
    | error e =>
      rw [hfollow] at hlook
      cases hlook
    | ok below =>
      rw [hfollow] at hlook
      cases hlook
      cases hplain.follow hfollow with
      | dir entries hnamed => exact hnamed

namespace LooksAlikeBelow

/-- A directory that looks alike is found alike. -/
theorem look (h : ws.LooksAlikeBelow ws' dir) : ws'.look dir = ws.look dir := by
  have hdir := h.looks [] List.not_mem_nil
  rwa [List.append_nil] at hdir

/-- What is in a directory that looks alike looks alike. -/
theorem child (h : ws.LooksAlikeBelow ws' dir) (hname : name ≠ "..") :
    ws.LooksAlikeBelow ws' (dir.child name) := by
  have hbelow : ∀ names, { dir.child name with names := (dir.child name).names ++ names } =
      { dir with names := dir.names ++ (name :: names) } := fun names => by
    simp [Path.child]
  have hnot : ∀ names : List String, ".." ∉ names → ".." ∉ name :: names := fun names hnames =>
    List.not_mem_cons_of_ne_of_not_mem hname.symm hnames
  constructor
  · intro names hnames
    rw [hbelow]
    exact h.looks (name :: names) (hnot names hnames)
  · intro names hnames
    rw [hbelow]
    exact h.named (name :: names) (hnot names hnames)

/-- A path that looks alike is a file in both workspaces or in none. -/
theorem isFile (h : ws.LooksAlikeBelow ws' dir) : ws'.isFile dir = ws.isFile dir := by
  unfold Workspace.isFile
  rw [h.look]

/-- A path that looks alike is a directory in both workspaces or in none. -/
theorem isDir (h : ws.LooksAlikeBelow ws' dir) : ws'.isDir dir = ws.isDir dir := by
  unfold Workspace.isDir
  rw [h.look]

/-- A path that looks alike exists in both workspaces or in none. -/
theorem pathExists (h : ws.LooksAlikeBelow ws' dir) : ws'.pathExists dir = ws.pathExists dir := by
  unfold Workspace.pathExists
  rw [h.look]

/-- A directory that looks alike has the same entries. -/
theorem entries (h : ws.LooksAlikeBelow ws' dir) : ws'.entries dir = ws.entries dir := by
  unfold Workspace.entries
  rw [h.look]

/-- A file that looks alike holds the same. -/
theorem readBytes (h : ws.LooksAlikeBelow ws' dir) : ws'.readBytes dir = ws.readBytes dir := by
  unfold Workspace.readBytes
  rw [h.look]

end LooksAlikeBelow

end Workspace

end SourceSurvey
