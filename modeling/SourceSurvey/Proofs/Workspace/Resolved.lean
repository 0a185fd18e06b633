import SourceSurvey.Proofs.Workspace.Below

/-!
# Resolved paths

A path that is resolved leads past no link, whatever links were followed to find it. Main statement:
looking it up gives the node at the end of its names if there is one, and nothing otherwise.
-/

namespace SourceSurvey.Workspace

variable {ws : Workspace} {here names rest : List String} {name : String} {node : Node} {p q : Path}

/-- A way that goes down only and passes no link. -/
structure IsStraight (ws : Workspace) (names : List String) : Prop where
  down : ".." ∉ names
  unlinked : ∀ front name target, front ++ [name] <+: names →
    ws.root.at? (front ++ [name]) ≠ some (.link target)

theorem isStraight_nil (ws : Workspace) : ws.IsStraight [] :=
  ⟨List.not_mem_nil, fun front name _ h => by simpa using h.length_le⟩

theorem IsStraight.of_isPrefix (h : ws.IsStraight names) (hfront : here <+: names) :
    ws.IsStraight here :=
  ⟨fun hup => h.down (hfront.subset hup),
    fun front name target hmore => h.unlinked front name target (hmore.trans hfront)⟩

theorem IsStraight.concat (h : ws.IsStraight here) (hname : name ≠ "..")
    (hlink : ∀ target, ws.root.at? (here ++ [name]) ≠ some (.link target)) :
    ws.IsStraight (here ++ [name]) := by
  constructor
  · intro hup
    rcases List.mem_append.mp hup with hup | hup
    · exact h.down hup
    · exact hname (List.mem_singleton.mp hup).symm
  · intro front next target hfront
    rcases List.prefix_concat_iff.mp hfront with heq | hshort
    · rw [heq]
      exact hlink target
    · exact h.unlinked front next target hshort

/-- Whatever links a way follows, the names that it ends with pass none. -/
theorem isStraight_of_realNames {links : Nat} (hhere : ws.IsStraight here)
    (h : ws.realNames links here rest = some names) : ws.IsStraight names := by
  fun_induction realNames ws links here rest with
  | case1 => cases h; exact hhere
  -- one name up
  | case2 links here name names hup ih => exact ih (hhere.of_isPrefix here.dropLast_prefix) h
  | case3 => cases h
  -- a link that is followed
  | case4 here name names hdown target hlink l p ih =>
    refine ih ?_ h
    split
    · exact isStraight_nil ws
    · exact hhere
  | case5 links here name names hdown hlink ih =>
    exact ih (hhere.concat (by simpa using hdown) hlink) h

/-- From a straight working directory every path is resolved to a straight way from the root. -/
theorem isStraight_of_resolve (hhome : ws.IsStraight ws.home) (h : ws.resolve p = .ok q) :
    q.isAbsolute = true ∧ ws.IsStraight q.names := by
  have hstart : ws.IsStraight (ws.startOf p) := by
    unfold startOf
    split
    · exact isStraight_nil ws
    · exact hhome
  unfold resolve at h
  cases hnames : ws.realNames maxResolved (ws.startOf p) p.names with
  | none =>
    rw [hnames] at h
    cases h
  | some names =>
    rw [hnames] at h
    cases h
    exact ⟨rfl, isStraight_of_realNames hstart hnames⟩

/-! ## Looking up a straight way -/

/-- A straight way is gone name by name as long as there is something, and else is refused. -/
theorem walk_of_isStraight (h : ws.IsStraight (here ++ rest)) (links : Nat) :
    (∀ node, ws.root.at? (here ++ rest) = some node →
      ws.walk links here rest = .ok (here ++ rest, node)) ∧
    (ws.root.at? (here ++ rest) = none → ∃ e, ws.walk links here rest = .error e) := by
  -- the walk moves names from the rest to the way so far, so the induction keeps both together
  -- straight
  induction rest generalizing here with
  | nil =>
    rw [List.append_nil]
    refine ⟨fun node hnode => ?_, fun hnone => ⟨.missing, ?_⟩⟩
    · rw [walk, hnode]
    · rw [walk, hnone]
  | cons name names ih =>
    have hname : name ≠ ".." := fun heq =>
      h.down (heq ▸ List.mem_append_right here List.mem_cons_self)
    have happend : here ++ [name] ++ names = here ++ name :: names := by simp
    have hstraight : ws.IsStraight (here ++ [name] ++ names) := by rwa [happend]
    have hon := ih hstraight
    rw [happend] at hon
    have hat : ws.root.at? (here ++ name :: names) =
        (ws.root.at? here).bind fun n => (n.entry? name).bind fun m => m.at? names :=
      Node.at?_append ws.root here (name :: names)
    cases hhere : ws.root.at? here with
    | none =>
      rw [hat, hhere]
      exact ⟨fun node hnode => (by cases hnode), fun _ => ⟨.missing, by rw [walk, hhere]⟩⟩
    | some node =>
      cases node with
      | file | link =>
        rw [hat, hhere]
        exact ⟨fun node hnode => (by cases hnode), fun _ => ⟨.notDirectory, by rw [walk, hhere]⟩⟩
      | dir entries =>
        -- only an entry that is no link is left to be entered: the way is straight
        cases hentry : entries.lookup name with
        | none =>
          have hmissing : ws.walk links here (name :: names) = .error .missing := by
            rw [walk, hhere]
            simp only [beq_iff_eq, hname, if_false, hentry]
          have hnone : ws.root.at? (here ++ name :: names) = none := by
            rw [hat, hhere]
            show (entries.lookup name).bind _ = none
            rw [hentry]
            rfl
          rw [hnone]
          exact ⟨fun node hnode => (by cases hnode), fun _ => ⟨.missing, hmissing⟩⟩
        | some child =>
          have hchild : ws.root.at? (here ++ [name]) = some child := by
            rw [Node.at?_append, hhere]
            show (entries.lookup name).bind _ = some child
            rw [hentry]
            rfl
          have hlink : child.isLink = false := by
            cases child with
            | link target =>
              exact absurd hchild (h.unlinked here name target ⟨names, happend⟩)
            | file | dir => rfl
          rw [walk_cons_of_lookup hhere hname hentry hlink]
          exact hon

/-- A resolved path leads to the node at the end of its names. -/
theorem look_of_isStraight (habsolute : q.isAbsolute = true) (h : ws.IsStraight q.names) :
    (∀ node, ws.root.at? q.names = some node → ws.look q = .ok (q.names, node)) ∧
    (ws.root.at? q.names = none → ∃ e, ws.look q = .error e) := by
  have hstart : ws.startOf q = [] := if_pos habsolute
  unfold look
  rw [hstart]
  have hall : ws.IsStraight ([] ++ q.names) := h
  exact walk_of_isStraight hall maxLinks

end SourceSurvey.Workspace
