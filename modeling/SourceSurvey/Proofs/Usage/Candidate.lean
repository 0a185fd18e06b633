import Mathlib.Data.List.Nodup
import SourceSurvey.Proofs.Number.Order
import SourceSurvey.Proofs.Usage.Exact
import SourceSurvey.Proofs.Workspace.Resolved

/-!
# The files that are searched

The source files below a directory are gone through in one order, whatever the cap on their number,
and the cap only says where to stop. Main statement: with a smaller cap a prefix of the same files is
collected, each of them once; all of them are source files in directories that are searched, and
where the cap is not reached there are no others.
-/

namespace SourceSurvey

/-- Every directory at and below a node has one entry for a name, and none for the directory above. -/
inductive Node.IsTree : Node → Prop where
  | file (bytes : List UInt8) : IsTree (.file bytes)
  | link (target : String) : IsTree (.link target)
  | dir (entries : List (String × Node)) (hnodup : (entries.map (·.1)).Nodup)
    (hnamed : ".." ∉ entries.map (·.1)) (h : ∀ e ∈ entries, IsTree e.2) : IsTree (.dir entries)

namespace Node

variable {node child : Node} {entries : List (String × Node)} {name : String}

/-- Where every name has one entry, an entry is found under its name. -/
theorem lookup_of_mem (hnodup : (entries.map (·.1)).Nodup) (h : (name, child) ∈ entries) :
    entries.lookup name = some child := by
  obtain ⟨before, after, rfl⟩ := List.append_of_mem h
  rw [List.map_append, List.map_cons, List.nodup_append] at hnodup
  refine List.lookup_eq_some_iff.mpr ⟨before, after, rfl, fun e he => ?_⟩
  have hne := hnodup.2.2 e.1 (List.mem_map_of_mem he) name List.mem_cons_self
  simpa using hne.symm

/-- What is looked up is an entry. -/
theorem mem_of_lookup (h : entries.lookup name = some child) : (name, child) ∈ entries := by
  obtain ⟨before, after, rfl, -⟩ := List.lookup_eq_some_iff.mp h
  exact List.mem_append_right before List.mem_cons_self

/-- What lies below a tree is a tree. -/
theorem IsTree.at? {names : List String} {below : Node} (h : node.IsTree)
    (hbelow : node.at? names = some below) : below.IsTree := by
  induction names generalizing node with
  | nil =>
    cases hbelow
    exact h
  | cons name names ih =>
    obtain ⟨child, hchild, hrest⟩ := Option.bind_eq_some_iff.mp hbelow
    cases h with
    | file | link => cases hchild
    | dir entries _ _ h => exact ih (h (name, child) (mem_of_lookup hchild)) hrest

end Node

namespace Candidate

variable {ws : Workspace} {settings : Settings} {dir root exclude : Path} {node : Node}
  {entries : List (String × Node)} {n : Nat} {p : Path}

/-! ## The walk -/

/-- A directory is searched if its name does not begin with a dot and is not ignored. -/
theorem isSearched_iff {name : String} : isSearched settings name = true ↔
    name.toList.head? ≠ some '.' ∧
      ∀ v ∈ settings.ignoredDirs, Value.same (.string name) v = false := by
  unfold isSearched
  simp

/-- The names lead from a directory to a source file, through directories that are searched. -/
structure LeadsToSource (ws : Workspace) (settings : Settings) (dir : Path) (node : Node)
    (dirs : List String) (name : String) : Prop where
  isSome_at? : (node.at? (dirs ++ [name])).isSome = true
  isSearched : ∀ d ∈ dirs, isSearched settings d = true
  isSource : isSource name = true
  not_isDir : ws.isDir { dir with names := dir.names ++ (dirs ++ [name]) } = false

theorem way_cons (dir : Path) (d : String) (ds : List String) (name : String) :
    { dir.child d with names := (dir.child d).names ++ (ds ++ [name]) } =
      { dir with names := dir.names ++ (d :: ds ++ [name]) } := by
  simp [Path.child]

/-- Without directories between, the way to a source is the name of a file with code. -/
theorem leadsToSource_nil_iff (hnodup : (entries.map (·.1)).Nodup) {name : String} :
    LeadsToSource ws settings dir (.dir entries) [] name ↔
      name ∈ entries.map (·.1) ∧ ws.isDir (dir.child name) = false ∧ isSource name = true := by
  have hat : ∀ names, (Node.dir entries).at? (name :: names) =
      (entries.lookup name).bind fun m => m.at? names := fun _ => rfl
  constructor
  · rintro ⟨hsome, -, hsource, hdir⟩
    obtain ⟨below, hbelow⟩ := Option.isSome_iff_exists.mp hsome
    rw [List.nil_append, hat] at hbelow
    obtain ⟨child, hchild, -⟩ := Option.bind_eq_some_iff.mp hbelow
    exact ⟨List.mem_map_of_mem (Node.mem_of_lookup hchild), hdir, hsource⟩
  · rintro ⟨hname, hdir, hsource⟩
    obtain ⟨e, he, rfl⟩ := List.mem_map.mp hname
    refine ⟨?_, fun d hd => absurd hd List.not_mem_nil, hsource, hdir⟩
    rw [List.nil_append, hat, Node.lookup_of_mem hnodup he]
    rfl

/-- Otherwise the way leads through a directory that is searched. -/
theorem leadsToSource_cons_iff (hnodup : (entries.map (·.1)).Nodup) {d name : String}
    {ds : List String} :
    LeadsToSource ws settings dir (.dir entries) (d :: ds) name ↔
      ∃ child, (d, child) ∈ entries ∧ isSearched settings d = true ∧
        LeadsToSource ws settings (dir.child d) child ds name := by
  have hat : (Node.dir entries).at? (d :: ds ++ [name]) =
      (entries.lookup d).bind fun m => m.at? (ds ++ [name]) := rfl
  constructor
  · rintro ⟨hsome, hsearched, hsource, hdir⟩
    obtain ⟨below, hbelow⟩ := Option.isSome_iff_exists.mp hsome
    rw [hat] at hbelow
    obtain ⟨child, hchild, hrest⟩ := Option.bind_eq_some_iff.mp hbelow
    refine ⟨child, Node.mem_of_lookup hchild, hsearched d List.mem_cons_self, ?_,
      fun e he => hsearched e (List.mem_cons_of_mem d he), hsource, ?_⟩
    · rw [hrest]
      rfl
    · rwa [way_cons]
  · rintro ⟨child, hmem, hd, hsome, hsearched, hsource, hdir⟩
    refine ⟨?_, fun e he => ?_, hsource, ?_⟩
    · rw [hat, Node.lookup_of_mem hnodup hmem]
      exact hsome
    · rcases List.mem_cons.mp he with rfl | he
      · exact hd
      · exact hsearched e he
    · rwa [way_cons] at hdir

/-- The files in a directory are its entries with code that are no directories. -/
theorem mem_filesIn_iff : p ∈ filesIn ws dir entries ↔
    ∃ name, p = dir.child name ∧
      name ∈ entries.map (·.1) ∧ ws.isDir (dir.child name) = false ∧ isSource name = true := by
  unfold filesIn
  simp only [List.mem_map, List.mem_mergeSort, List.mem_filter, Bool.and_eq_true, Bool.not_eq_true']
  constructor
  · rintro ⟨name, ⟨hname, hdir, hsource⟩, rfl⟩
    exact ⟨name, rfl, hname, hdir, hsource⟩
  · rintro ⟨name, rfl, hname, hdir, hsource⟩
    exact ⟨name, ⟨hname, hdir, hsource⟩, rfl⟩

/-- No entry is deeper than all of them are. -/
theorem depth_le_depthIn {e : String × Node} (h : e ∈ entries) :
    depth e.2 ≤ depth.depthIn entries := by
  induction entries with
  | nil => cases h
  | cons first rest ih =>
    obtain ⟨name, child⟩ := first
    rw [depth.depthIn]
    rcases List.mem_cons.mp h with rfl | h
    · exact Nat.le_max_left _ _
    · exact Nat.le_trans (ih h) (Nat.le_max_right _ _)

/-- Below a directory come its files, then what is below each of its entries that are searched. -/
theorem below_dir (n : Nat) (dir : Path) (entries : List (String × Node)) :
    below ws settings (n + 1) dir (.dir entries) =
      filesIn ws dir entries ++ (sorted entries).flatMap fun e =>
        if isSearched settings e.1 then below ws settings n (dir.child e.1) e.2 else [] := rfl

/-- The walk comes to exactly the source files that names lead to. -/
theorem mem_below_iff (htree : node.IsTree) (hdepth : depth node ≤ n) :
    p ∈ below ws settings n dir node ↔
      ∃ dirs name, p = { dir with names := dir.names ++ (dirs ++ [name]) } ∧
        LeadsToSource ws settings dir node dirs name := by
  have hleaf : ∀ {node : Node} {names : List String} {name : String},
      (∀ entries, node ≠ .dir entries) → ¬ (node.at? (names ++ [name])).isSome = true := by
    intro node names name hnode
    cases node with
    | dir entries => exact absurd rfl (hnode entries)
    | file | link => cases names <;> exact Bool.false_ne_true
  -- the fuel bounds the depth, so a directory without fuel is not met
  induction n generalizing dir node with
  | zero =>
    cases node with
    | dir entries => cases hdepth
    | file | link =>
      refine iff_of_false List.not_mem_nil ?_
      rintro ⟨dirs, name, -, hsource⟩
      exact hleaf (by simp) hsource.isSome_at?
  | succ n ih =>
    cases htree with
    | file | link =>
      refine iff_of_false List.not_mem_nil ?_
      rintro ⟨dirs, name, -, hsource⟩
      exact hleaf (by simp) hsource.isSome_at?
    | dir entries hnodup hnamed h =>
      have hbelow : ∀ e ∈ entries, depth e.2 ≤ n := fun e he =>
        Nat.le_trans (depth_le_depthIn he) (Nat.le_of_succ_le_succ hdepth)
      rw [below_dir, List.mem_append, mem_filesIn_iff, List.mem_flatMap]
      constructor
      · rintro (⟨name, rfl, hname⟩ | ⟨e, he, hmem⟩)
        · exact ⟨[], name, rfl, (leadsToSource_nil_iff hnodup).mpr hname⟩
        · have he : e ∈ entries := List.mem_mergeSort.mp he
          split at hmem
          · next hsearched =>
            obtain ⟨dirs, name, rfl, hsource⟩ := (ih (h e he) (hbelow e he)).mp hmem
            exact ⟨e.1 :: dirs, name, way_cons .., (leadsToSource_cons_iff hnodup).mpr
              ⟨e.2, he, hsearched, hsource⟩⟩
          · cases hmem
      · rintro ⟨dirs, name, rfl, hsource⟩
        cases dirs with
        | nil => exact Or.inl ⟨name, rfl, (leadsToSource_nil_iff hnodup).mp hsource⟩
        | cons d ds =>
          obtain ⟨child, hmem, hsearched, hsource⟩ := (leadsToSource_cons_iff hnodup).mp hsource
          refine Or.inr ⟨(d, child), List.mem_mergeSort.mpr hmem, ?_⟩
          rw [if_pos hsearched]
          exact (ih (h _ hmem) (hbelow _ hmem)).mpr ⟨ds, name, (way_cons ..).symm, hsource⟩

/-- No file in a directory comes twice. -/
theorem nodup_filesIn (hnodup : (entries.map (·.1)).Nodup) : (filesIn ws dir entries).Nodup := by
  have hchild : Function.Injective dir.child := fun a b h => by
    simpa [Path.child] using h
  exact ((List.mergeSort_perm _ _).nodup_iff.mpr (hnodup.filter _)).map hchild

/-- The walk comes to no file twice. -/
theorem nodup_below (htree : node.IsTree) (hdepth : depth node ≤ n) :
    (below ws settings n dir node).Nodup := by
  induction n generalizing dir node with
  | zero => exact List.nodup_nil
  | succ n ih =>
    cases htree with
    | file | link => exact List.nodup_nil
    | dir entries hnodup hnamed h =>
      have hbelow : ∀ e ∈ entries, depth e.2 ≤ n := fun e he =>
        Nat.le_trans (depth_le_depthIn he) (Nat.le_of_succ_le_succ hdepth)
      -- what lies deeper has the name of the entry and at least one more
      have hinner : ∀ e ∈ sorted entries, ∀ p,
          (p ∈ if isSearched settings e.1 then below ws settings n (dir.child e.1) e.2 else []) →
            ∃ next more, p.names = dir.names ++ e.1 :: next :: more := by
        intro e he p hp
        have he : e ∈ entries := List.mem_mergeSort.mp he
        split at hp
        · obtain ⟨dirs, name, rfl, -⟩ := (mem_below_iff (h e he) (hbelow e he)).mp hp
          cases dirs with
          | nil => exact ⟨name, [], by simp [Path.child]⟩
          | cons d ds => exact ⟨d, ds ++ [name], by simp [Path.child]⟩
        · cases hp
      rw [below_dir, List.nodup_append']
      refine ⟨nodup_filesIn hnodup, List.nodup_flatMap.mpr ⟨fun e he => ?_, ?_⟩, ?_⟩
      · split
        · exact ih (h e (List.mem_mergeSort.mp he)) (hbelow e (List.mem_mergeSort.mp he))
        · exact List.nodup_nil
      · have hperm : (sorted entries).Perm entries := List.mergeSort_perm entries _
        have hkeys : (sorted entries).Pairwise fun a b => a.1 ≠ b.1 :=
          List.pairwise_map.mp ((hperm.map Prod.fst).nodup_iff.mpr hnodup)
        refine hkeys.imp_of_mem fun {a b} ha hb hne => List.disjoint_left.mpr fun p hpa hpb => ?_
        obtain ⟨next, more, hpa⟩ := hinner a ha p hpa
        obtain ⟨next', more', hpb⟩ := hinner b hb p hpb
        exact hne (List.cons.inj (List.append_cancel_left (hpa.symm.trans hpb))).1
      · refine List.disjoint_left.mpr fun p hfile hdeep => ?_
        obtain ⟨name, rfl, -⟩ := mem_filesIn_iff.mp hfile
        obtain ⟨e, he, hdeep⟩ := List.mem_flatMap.mp hdeep
        obtain ⟨next, more, hnames⟩ := hinner e he _ hdeep
        simp [Path.child] at hnames

/-- Of the settings only the names of ignored directories matter to the walk. -/
theorem below_congr {settings' : Settings} (h : settings'.ignoredDirs = settings.ignoredDirs)
    (n : Nat) (dir : Path) (node : Node) :
    below ws settings' n dir node = below ws settings n dir node := by
  induction n generalizing dir node with
  | zero => rfl
  | succ n ih =>
    cases node with
    | file | link => rfl
    | dir entries =>
      rw [below_dir, below_dir]
      congr 2
      funext e
      rw [ih, isSearched, isSearched, h]

/-! ## The cap -/

/-- The file is not the one whose names are sought. -/
def isOther (ws : Workspace) (exclude file : Path) : Bool :=
  match ws.resolve file with
  | .ok q => q != exclude
  | .error _ => false

/-- The other files are taken from the first one on, up to the one with which there are enough. -/
theorem exists_takeOthers (exclude : Path) (cap : Quantity) {files : List Path}
    (h : ∀ p ∈ files, ¬ ws.IsCircular p) (count : Nat) :
    ∃ taken, takeOthers ws exclude cap count files = .ok taken ∧
      taken <+: files.filter (isOther ws exclude) ∧
      (taken = files.filter (isOther ws exclude) ∨ isEnough cap (count + taken.length) = true) ∧
      ∀ m, isEnough cap m = true → count < m → count + taken.length ≤ m := by
  induction files generalizing count with
  | nil => exact ⟨[], rfl, List.prefix_rfl, Or.inl rfl, fun m _ hm => Nat.le_of_lt hm⟩
  | cons file files ih =>
    obtain ⟨q, hq⟩ := Workspace.exists_resolve_eq_ok (h file List.mem_cons_self)
    have hrest : ∀ p ∈ files, ¬ ws.IsCircular p := fun p hp => h p (List.mem_cons_of_mem file hp)
    have hother : isOther ws exclude file = !(q == exclude) := by
      rw [isOther, hq]
      rfl
    rw [takeOthers_cons hq, List.filter_cons, hother]
    cases q == exclude with
    | true => exact ih hrest count
    | false =>
      rw [if_neg Bool.false_ne_true, if_pos Bool.not_false]
      cases henough : isEnough cap (count + 1) with
      | true => exact ⟨[file], rfl, List.prefix_append [file] _, Or.inr henough, fun m _ hm => hm⟩
      | false =>
        obtain ⟨taken, htaken, hfront, hends, hleast⟩ := ih hrest (count + 1)
        have hlength : count + (file :: taken).length = count + 1 + taken.length := by
          rw [List.length_cons]
          omega
        rw [if_neg Bool.false_ne_true, htaken]
        refine ⟨file :: taken, rfl, (List.prefix_cons_inj file).mpr hfront, ?_, fun m hm hcount => ?_⟩
        · rw [hlength]
          exact hends.imp_left fun heq => by rw [heq]
        · rw [hlength]
          -- the next number is not enough, so this one is greater
          have hne : m ≠ count + 1 := fun heq => by
            rw [heq, henough] at hm
            cases hm
          exact hleast m hm (by omega)

/-! ## Candidates -/

/-- A file that may use the names of another: it lies below the root, behind no link and in
directories whose names neither begin with a dot nor are ignored, it has the name of a source file,
it leads to no directory, and it is not the file that is excluded. -/
def IsCandidate (ws : Workspace) (settings : Settings) (root exclude p : Path) : Prop :=
  ∃ dirs name, p = { root with names := root.names ++ (dirs ++ [name]) } ∧
    (ws.root.at? p.names).isSome = true ∧
    (∀ d ∈ dirs, d.toList.head? ≠ some '.' ∧
      ∀ v ∈ settings.ignoredDirs, Value.same (.string d) v = false) ∧
    isSource name = true ∧ ws.isDir p = false ∧ ws.resolve p ≠ .ok exclude

/-- The walk from a resolved root comes to all source files, the excluded one among them. -/
theorem mem_sources_iff (htree : ws.root.IsTree) (habsolute : root.isAbsolute = true)
    (hstraight : ws.IsStraight root.names) :
    p ∈ sources ws settings root ↔
      ∃ dirs name, p = { root with names := root.names ++ (dirs ++ [name]) } ∧
        (ws.root.at? p.names).isSome = true ∧
        (∀ d ∈ dirs, isSearched settings d = true) ∧ isSource name = true ∧ ws.isDir p = false := by
  obtain ⟨hfound, hmissing⟩ := Workspace.look_of_isStraight habsolute hstraight
  unfold sources
  cases hnode : ws.root.at? root.names with
  | none =>
    obtain ⟨e, hlook⟩ := hmissing hnode
    rw [hlook]
    refine iff_of_false List.not_mem_nil ?_
    rintro ⟨dirs, name, rfl, hsome, -⟩
    rw [Node.at?_append, hnode] at hsome
    cases hsome
  | some node =>
    rw [hfound node hnode]
    dsimp only
    rw [mem_below_iff (htree.at? hnode) (Nat.le_refl _)]
    refine exists_congr fun dirs => exists_congr fun name => and_congr_right fun hp => ?_
    subst hp
    have hat : ws.root.at? (root.names ++ (dirs ++ [name])) = node.at? (dirs ++ [name]) := by
      rw [Node.at?_append, hnode, Option.bind_some]
    rw [hat]
    exact ⟨fun h => ⟨h.isSome_at?, h.isSearched, h.isSource, h.not_isDir⟩,
      fun h => ⟨h.1, h.2.1, h.2.2.1, h.2.2.2⟩⟩

/-- Without the file itself the sources are the candidates. -/
theorem mem_filter_isOther_iff (htree : ws.root.IsTree) (habsolute : root.isAbsolute = true)
    (hstraight : ws.IsStraight root.names)
    (hcircle : ∀ p ∈ sources ws settings root, ¬ ws.IsCircular p) :
    p ∈ (sources ws settings root).filter (isOther ws exclude) ↔
      IsCandidate ws settings root exclude p := by
  have hother : p ∈ sources ws settings root →
      (isOther ws exclude p = true ↔ ws.resolve p ≠ .ok exclude) := by
    intro hp
    obtain ⟨q, hq⟩ := Workspace.exists_resolve_eq_ok (hcircle p hp)
    rw [isOther, hq]
    simp
  have hsearched : ∀ dirs : List String, (∀ d ∈ dirs, isSearched settings d = true) ↔
      ∀ d ∈ dirs, d.toList.head? ≠ some '.' ∧
        ∀ v ∈ settings.ignoredDirs, Value.same (.string d) v = false :=
    fun dirs => forall₂_congr fun d _ => isSearched_iff
  rw [List.mem_filter, and_congr_right hother, mem_sources_iff htree habsolute hstraight]
  unfold IsCandidate
  simp only [hsearched]
  constructor
  · rintro ⟨⟨dirs, name, hp, hsome, hdirs, hsource, hdir⟩, hresolve⟩
    exact ⟨dirs, name, hp, hsome, hdirs, hsource, hdir, hresolve⟩
  · rintro ⟨dirs, name, hp, hsome, hdirs, hsource, hdir, hresolve⟩
    exact ⟨⟨dirs, name, hp, hsome, hdirs, hsource, hdir⟩, hresolve⟩

/-- No source comes twice. -/
theorem nodup_sources (htree : ws.root.IsTree) (habsolute : root.isAbsolute = true)
    (hstraight : ws.IsStraight root.names) : (sources ws settings root).Nodup := by
  obtain ⟨hfound, hmissing⟩ := Workspace.look_of_isStraight habsolute hstraight
  unfold sources
  cases hnode : ws.root.at? root.names with
  | none =>
    obtain ⟨e, hlook⟩ := hmissing hnode
    rw [hlook]
    exact List.nodup_nil
  | some node =>
    rw [hfound node hnode]
    exact nodup_below (htree.at? hnode) (Nat.le_refl _)

/-- The sources depend on no setting but the directories that are passed over. -/
theorem sources_congr {settings' : Settings} (h : settings'.ignoredDirs = settings.ignoredDirs)
    (root : Path) : sources ws settings' root = sources ws settings root := by
  unfold sources
  cases ws.look root with
  | error e => rfl
  | ok found => exact below_congr h _ _ _

/-- With some cap the files are taken from all that there are. -/
theorem exists_collect (exclude : Path) {cap : Quantity} {v : EReal} (hv : cap.value? = some v)
    (hone : 1 ≤ v) (hcircle : ∀ p ∈ sources ws settings root, ¬ ws.IsCircular p) :
    ∃ taken, collect ws { settings with externalUsageMaxFiles := cap } root exclude = .ok taken ∧
      taken <+: (sources ws settings root).filter (isOther ws exclude) ∧
      (((taken.length : ℝ) : EReal) < v →
        taken = (sources ws settings root).filter (isOther ws exclude)) ∧
      ∀ n : Nat, v ≤ ((n : ℝ) : EReal) → taken.length ≤ n := by
  have henough : ∀ n : Nat, isEnough cap n = true ↔ v ≤ ((n : ℝ) : EReal) := by
    intro n
    rw [isEnough, Quantity.le_iff hv, Int.cast_natCast]
  obtain ⟨taken, htaken, hfront, hends, hleast⟩ :=
    exists_takeOthers exclude cap hcircle 0
  simp only [Nat.zero_add, henough] at hends hleast
  refine ⟨taken, ?_, hfront, fun hlt => hends.resolve_right hlt.not_ge, fun n hn => ?_⟩
  · have hdirs : { settings with externalUsageMaxFiles := cap }.ignoredDirs =
        settings.ignoredDirs := rfl
    rw [collect_eq_takeOthers, sources_congr hdirs]
    exact htaken
  · refine hleast n hn (Nat.pos_of_ne_zero fun hzero => ?_)
    rw [hzero] at hn
    exact absurd (hone.trans hn) (by norm_num)

/-- A smaller cap gives a prefix of the same files, no longer than the cap and as long as it unless
there are no more, each file once; all of them are candidates, and below the cap all candidates are
among them. -/
theorem exists_collect_capped {file workspace : Path} {k m : Quantity} {a b : EReal}
    (hhome : ws.IsStraight ws.home) (htree : ws.root.IsTree)
    (hcircle : NameUsage.NoCircle ws settings file workspace) (hk : k.value? = some a)
    (hm : m.value? = some b) (hone : 1 ≤ a) (hle : a ≤ b) :
    ∃ root exclude few many, ws.resolve workspace = .ok root ∧ ws.resolve file = .ok exclude ∧
      collect ws { settings with externalUsageMaxFiles := k } root exclude = .ok few ∧
      collect ws { settings with externalUsageMaxFiles := m } root exclude = .ok many ∧
      few <+: many ∧ (∀ n : Nat, a ≤ ((n : ℝ) : EReal) → few.length ≤ n) ∧
      (((few.length : ℝ) : EReal) < a → few = many) ∧ few.Nodup ∧
      (∀ p ∈ few, IsCandidate ws settings root exclude p) ∧
      (((few.length : ℝ) : EReal) < a →
        ∀ p, IsCandidate ws settings root exclude p → p ∈ few) := by
  obtain ⟨root, hroot⟩ := Workspace.exists_resolve_eq_ok hcircle.toWorkspace
  obtain ⟨exclude, hexclude⟩ := Workspace.exists_resolve_eq_ok hcircle.toFile
  obtain ⟨habsolute, hstraight⟩ := Workspace.isStraight_of_resolve hhome hroot
  have hsource := hcircle.toSource root hroot
  have hmem : ∀ p, p ∈ (sources ws settings root).filter (isOther ws exclude) ↔
      IsCandidate ws settings root exclude p :=
    fun p => mem_filter_isOther_iff htree habsolute hstraight hsource
  obtain ⟨few, hfew, hfront, hall, hcap⟩ := exists_collect exclude hk hone hsource
  obtain ⟨many, hmany, hfront', hall', -⟩ :=
    exists_collect exclude hm (hone.trans hle) hsource
  -- both are prefixes of one list, so the shorter is one of the longer
  have hshort : few.length ≤ many.length := by
    by_cases hlt : ((many.length : ℝ) : EReal) < b
    · rw [hall' hlt]
      exact hfront.length_le
    · exact hcap many.length (hle.trans (not_lt.mp hlt))
  have hshorter : few <+: many := List.prefix_of_prefix_length_le hfront hfront' hshort
  refine ⟨root, exclude, few, many, hroot, hexclude, hfew, hmany, hshorter, hcap, fun hlt => ?_,
    (nodup_sources htree habsolute hstraight).filter _ |>.sublist hfront.sublist,
    fun p hp => (hmem p).mp (hfront.subset hp), fun hlt p hp => ?_⟩
  · refine hshorter.eq_of_length_le ?_
    rw [hall hlt]
    exact hfront'.length_le
  · rw [hall hlt]
    exact (hmem p).mpr hp

/-- A source file in the root and one in a directory, and one that is hidden. -/
def nested : Workspace :=
  ⟨.dir [("a.py", .file []), ("lib", .dir [("b.JS", .file [])]), (".git", .dir [("c.py", .file [])])],
    []⟩

theorem isTree_nested : nested.root.IsTree := by
  have hdir : ∀ name, name ≠ ".." → (Node.dir [(name, .file [])]).IsTree := by
    intro name hname
    refine .dir _ (List.nodup_singleton name) (by simpa using hname.symm) fun e he => ?_
    rw [List.mem_singleton.mp he]
    exact .file []
  refine .dir _ (by decide) (by decide) fun e he => ?_
  simp only [List.mem_cons, List.not_mem_nil, or_false] at he
  rcases he with rfl | rfl | rfl
  · exact .file []
  · exact hdir _ (by decide)
  · exact hdir _ (by decide)

theorem linkFree_nested : nested.root.LinkFree := by
  have hdir : ∀ name, (Node.dir [(name, .file [])]).LinkFree := by
    intro name
    refine .dir _ fun e he => ?_
    rw [List.mem_singleton.mp he]
    exact .file []
  refine .dir _ fun e he => ?_
  simp only [List.mem_cons, List.not_mem_nil, or_false] at he
  rcases he with rfl | rfl | rfl
  · exact .file []
  · exact hdir _
  · exact hdir _

/-- One file, or both of the two that are not hidden. -/
theorem exists_collect_capped_nested :
    nested.IsStraight nested.home ∧ nested.root.IsTree ∧
      NameUsage.NoCircle nested {} ⟨"/", ["main.py"]⟩ ⟨"/", []⟩ ∧
      (Quantity.whole 1).value? = some (((1 : Int) : ℝ) : EReal) ∧
      (Quantity.whole 2).value? = some (((2 : Int) : ℝ) : EReal) ∧
      (1 : EReal) ≤ (((1 : Int) : ℝ) : EReal) ∧
      (((1 : Int) : ℝ) : EReal) ≤ (((2 : Int) : ℝ) : EReal) ∧
      ∃ root exclude few many,
        collect nested { externalUsageMaxFiles := .whole 1 } root exclude = .ok few ∧
        collect nested { externalUsageMaxFiles := .whole 2 } root exclude = .ok many ∧
        few <+: many ∧ few.length ≤ 1 := by
  have hhome : nested.IsStraight nested.home := Workspace.isStraight_nil nested
  have hcircle : NameUsage.NoCircle nested {} ⟨"/", ["main.py"]⟩ ⟨"/", []⟩ :=
    NameUsage.noCircle_of_linkFree linkFree_nested
  have hone : (1 : EReal) ≤ (((1 : Int) : ℝ) : EReal) := by norm_num
  have hle : (((1 : Int) : ℝ) : EReal) ≤ (((2 : Int) : ℝ) : EReal) :=
    EReal.coe_le_coe_iff.mpr (by norm_num)
  obtain ⟨root, exclude, few, many, -, -, hfew, hmany, hfront, hcap, -⟩ :=
    exists_collect_capped hhome isTree_nested hcircle (k := .whole 1) (m := .whole 2) rfl rfl hone hle
  refine ⟨hhome, isTree_nested, hcircle, rfl, rfl, hone, hle, root, exclude, few, many, hfew, hmany,
    hfront, hcap 1 ?_⟩
  rw [Int.cast_one, Nat.cast_one]

end Candidate

end SourceSurvey
