import Mathlib.Data.List.Induction
import Mathlib.Data.List.Nodup
import SourceSurvey.Proofs.List.Distinct
import SourceSurvey.Usage.Scan

/-!
# Uses gathered from scans

Scans are added to the uses one by one, and to each the names that its file mentions. Main
statement: for each name, what is found about it in the end is one use, with the kind of the first
public name of that name and the files whose scans mention it, in order.
-/

namespace SourceSurvey

/-! ## Members by key -/

/-- A key is among those of some values when a value with the key is found. -/
theorem mem_map_iff_isSome_find? {α β : Type} [BEq β] [LawfulBEq β] (key : α → β) (as : List α)
    (k : β) : k ∈ as.map key ↔ (as.find? (key · == k)).isSome = true := by
  rw [List.find?_isSome, List.mem_map]
  exact exists_congr fun a => and_congr_right fun _ => beq_iff_eq.symm

/-- What is found by its key has this key. -/
theorem key_eq_of_find? {α β : Type} [BEq β] [LawfulBEq β] {key : α → β} {as : List α} {k : β}
    {a : α} (h : as.find? (key · == k) = some a) : key a = k := by
  have htest := List.find?_some h
  exact beq_iff_eq.mp htest

/-- Where keys differ, a value is found by its key. -/
theorem find?_key_of_mem {α β : Type} [BEq β] [LawfulBEq β] {key : α → β} {as : List α} {a : α}
    (hnodup : (as.map key).Nodup) (ha : a ∈ as) : as.find? (key · == key a) = some a := by
  have hsome := (mem_map_iff_isSome_find? key as (key a)).mp (List.mem_map_of_mem ha)
  obtain ⟨b, hb⟩ := Option.isSome_iff_exists.mp hsome
  rw [hb, List.inj_on_of_nodup_map hnodup (List.mem_of_find?_eq_some hb) ha (key_eq_of_find? hb)]

/-- Among the values whose keys pass a test, those with a key are all of them or none. -/
theorem find?_filter_key {α β : Type} [BEq β] [LawfulBEq β] (key : α → β) (p : β → Bool)
    (as : List α) (k : β) :
    (as.filter fun a => p (key a)).find? (key · == k) =
      if p k then as.find? (key · == k) else none := by
  rw [List.find?_filter]
  split
  · next h =>
    congr 1
    funext a
    by_cases hkey : key a = k
    · rw [hkey, h, beq_self_eq_true]
      rfl
    · rw [beq_false_of_ne hkey]
      exact decide_eq_false fun hand => Bool.false_ne_true hand.2
  · next h =>
    refine List.find?_eq_none.mpr fun a _ hand => ?_
    obtain ⟨hp, hkey⟩ := of_decide_eq_true hand
    rw [beq_iff_eq.mp hkey] at hp
    exact h hp

namespace NameUsage

variable {root : Path} {items : List PublicName}

/-! ## One use -/

/-- The use with one more file, unless it is among its files. -/
def withFile (file : String) (u : NameUsage) : NameUsage :=
  if u.usedIn.contains file then u else { u with usedIn := u.usedIn ++ [file] }

/-- A name's use in a file on top of what is found about it so far. -/
def addTo (item : PublicName) (file : String) : Option NameUsage → NameUsage
  | none => ⟨item.name, item.kind.name, [file]⟩
  | some u => u.withFile file

/-- A use lists the file that was added last. -/
theorem contains_withFile (file : String) (u : NameUsage) :
    (u.withFile file).usedIn.contains file = true := by
  unfold withFile
  split
  · assumption
  · exact List.contains_iff_mem.mpr List.mem_concat_self

/-- A file that is added to a name is among its users. -/
theorem contains_addTo (item : PublicName) (file : String) (found : Option NameUsage) :
    (addTo item file found).usedIn.contains file = true := by
  cases found with
  | none => exact List.contains_iff_mem.mpr List.mem_cons_self
  | some u => exact contains_withFile file u

/-- A file is added to a use only once. -/
theorem withFile_addTo (item : PublicName) (file : String) (found : Option NameUsage) :
    (addTo item file found).withFile file = addTo item file found :=
  if_pos (contains_addTo item file found)

theorem withFile_name (file : String) (u : NameUsage) : (u.withFile file).name = u.name := by
  unfold withFile
  split <;> rfl

/-! ## One name added -/

/-- A name that is added stays where it was, or comes last. -/
theorem map_name_add (item : PublicName) (file : String) (us : List NameUsage) :
    (add item file us).map (·.name) =
      if item.name ∈ us.map (·.name) then us.map (·.name) else us.map (·.name) ++ [item.name] := by
  induction us with
  | nil => rfl
  | cons u us ih =>
    rw [add]
    by_cases hname : u.name = item.name
    · have hmem : item.name ∈ (u :: us).map (·.name) := hname ▸ List.mem_cons_self
      rw [if_pos (beq_iff_eq.mpr hname), if_pos hmem]
      exact congrArg (· :: us.map (·.name)) (withFile_name file u)
    · have hmem : item.name ∈ u.name :: us.map (·.name) ↔ item.name ∈ us.map (·.name) :=
        List.mem_cons.trans (or_iff_right (Ne.symm hname))
      rw [if_neg (beq_iff_eq.not.mpr hname), List.map_cons, List.map_cons, ih,
        if_congr hmem rfl rfl, apply_ite (u.name :: ·), List.cons_append]

/-- Adding a name repeats none. -/
theorem nodup_add {item : PublicName} {file : String} {us : List NameUsage}
    (h : (us.map (·.name)).Nodup) : ((add item file us).map (·.name)).Nodup := by
  rw [map_name_add]
  split
  · exact h
  · next hnew =>
    rw [← List.concat_eq_append]
    exact h.concat hnew

/-- A name that is added has one more user, and the others keep theirs. -/
theorem find?_add (item : PublicName) (file : String) (us : List NameUsage) (name : String) :
    (add item file us).find? (·.name == name) =
      if item.name = name then some (addTo item file (us.find? (·.name == name)))
      else us.find? (·.name == name) := by
  induction us with
  | nil =>
    rw [add, List.find?_singleton]
    exact if_congr beq_iff_eq rfl rfl
  | cons u us ih =>
    rw [add, List.find?_cons]
    by_cases hu : u.name = item.name
    · rw [if_pos (beq_iff_eq.mpr hu)]
      show ((u.withFile file) :: us).find? _ = _
      rw [List.find?_cons, withFile_name, hu]
      by_cases hname : item.name = name
      · rw [beq_iff_eq.mpr hname, if_pos hname]
        rfl
      · rw [beq_false_of_ne hname, if_neg hname]
    · rw [if_neg (beq_iff_eq.not.mpr hu), List.find?_cons, ih]
      by_cases hname : u.name = name
      · have hother : item.name ≠ name := fun h => hu (hname.trans h.symm)
        rw [beq_iff_eq.mpr hname, if_neg hother, if_neg hother]
      · rw [beq_false_of_ne hname]

/-! ## The names of one file -/

/-- Of all public names of one name the first decides the kind, and the file is added once. -/
theorem find?_foldl_add (file : String) (items : List PublicName) (us : List NameUsage)
    (name : String) :
    (items.foldl (fun us i => add i file us) us).find? (·.name == name) =
      ((items.find? (·.name == name)).map fun i =>
        addTo i file (us.find? (·.name == name))).or (us.find? (·.name == name)) := by
  induction items generalizing us with
  | nil => rfl
  | cons i items ih =>
    rw [List.foldl_cons, ih, find?_add, List.find?_cons]
    by_cases hname : i.name = name
    · rw [if_pos hname, beq_iff_eq.mpr hname]
      cases items.find? (·.name == name) with
      | none => rfl
      | some j => exact congrArg some (withFile_addTo i file _)
    · rw [if_neg hname, beq_false_of_ne hname]

/-- A file is a user of the names that it mentions. -/
theorem find?_addFile (us : List NameUsage) (scan : FileScan) (name : String) :
    (addFile root items us scan).find? (·.name == name) =
      if scan.mentions name then
        ((items.find? (·.name == name)).map fun i =>
          addTo i (relative root scan.path) (us.find? (·.name == name))).or
            (us.find? (·.name == name))
      else us.find? (·.name == name) := by
  rw [addFile, find?_foldl_add, find?_filter_key PublicName.name]
  split <;> rfl

theorem nodup_addFile {us : List NameUsage} (scan : FileScan) (h : (us.map (·.name)).Nodup) :
    ((addFile root items us scan).map (·.name)).Nodup := by
  rw [addFile]
  generalize items.filter (fun i => scan.mentions i.name) = mentioned
  induction mentioned generalizing us with
  | nil => exact h
  | cons i mentioned ih => exact ih (nodup_add h)

/-! ## All scans -/

/-- The use of a public name in the files that use it. -/
def use? (root : Path) (items : List PublicName) (users : List Path) (name : String) :
    Option NameUsage :=
  (items.find? (·.name == name)).bind fun item =>
    if users.isEmpty then none
    else some ⟨name, item.kind.name, (users.map (relative root)).eraseDups⟩

/-- A name with users is used by them, each once. -/
theorem use?_eq_some_iff {users : List Path} {name : String} {u : NameUsage} :
    use? root items users name = some u ↔
      ∃ item, items.find? (·.name == name) = some item ∧ users ≠ [] ∧
        u = ⟨name, item.kind.name, (users.map (relative root)).eraseDups⟩ := by
  unfold use?
  rw [Option.bind_eq_some_iff]
  refine exists_congr fun item => and_congr_right fun _ => ?_
  cases users with
  | nil => exact iff_of_false (fun h => by cases h) fun h => h.1 rfl
  | cons user users =>
    rw [and_iff_right (List.cons_ne_nil _ _)]
    exact ⟨fun h => (Option.some.inj h).symm, fun h => congrArg some h.symm⟩

theorem isSome_use?_iff {users : List Path} {name : String} :
    (use? root items users name).isSome = true ↔ name ∈ items.map (·.name) ∧ users ≠ [] := by
  rw [Option.isSome_iff_exists, mem_map_iff_isSome_find?, Option.isSome_iff_exists]
  simp only [use?_eq_some_iff]
  constructor
  · rintro ⟨_, item, hitem, husers, -⟩
    exact ⟨⟨item, hitem⟩, husers⟩
  · rintro ⟨⟨item, hitem⟩, husers⟩
    exact ⟨_, item, hitem, husers, rfl⟩

/-- No name is reported twice. -/
theorem nodup_ofScans (root : Path) (items : List PublicName) (scans : List FileScan) :
    ((ofScans root items scans).map (·.name)).Nodup := by
  induction scans using List.reverseRecOn with
  | nil => exact List.nodup_nil
  | append_singleton scans scan ih =>
    rw [ofScans, List.foldl_concat]
    exact nodup_addFile scan ih

/-- One more user is added behind the others. -/
theorem use?_concat (users : List Path) (file : Path) (name : String) :
    use? root items (users ++ [file]) name =
      (items.find? (·.name == name)).map fun item =>
        addTo item (relative root file) (use? root items users name) := by
  unfold use?
  cases hitem : items.find? (·.name == name) with
  | none => rfl
  | some item =>
    have hname : item.name = name := key_eq_of_find? hitem
    cases users with
    | nil => rw [← hname]; rfl
    | cons user users =>
      -- the file goes to the end of the files, unless it is among them
      show some (NameUsage.mk name item.kind.name _) = some (withFile _ _)
      rw [List.map_append, List.map_singleton, eraseDups_concat, withFile]
      simp only [List.contains_iff_mem, List.mem_eraseDups]
      split <;> rfl

/-- What is found about a name is its use in the files whose scans mention it. -/
theorem find?_ofScans (root : Path) (items : List PublicName) (scans : List FileScan)
    (name : String) :
    (ofScans root items scans).find? (·.name == name) =
      use? root items ((scans.filter (·.mentions name)).map (·.path)) name := by
  induction scans using List.reverseRecOn with
  | nil =>
    rw [use?]
    cases items.find? (·.name == name) <;> rfl
  | append_singleton scans scan ih =>
    have hstep : ofScans root items (scans ++ [scan]) =
        addFile root items (ofScans root items scans) scan := List.foldl_concat ..
    rw [hstep, find?_addFile, ih, List.filter_append, List.filter_singleton]
    cases scan.mentions name with
    | false => rw [if_neg Bool.false_ne_true, cond_false, List.append_nil]
    | true =>
      rw [if_pos rfl, cond_true, List.map_append, List.map_singleton, use?_concat]
      cases hitem : items.find? (·.name == name) with
      | none => rw [use?, hitem]; rfl
      | some item => rfl

end NameUsage

end SourceSurvey
