import SourceSurvey.Extract.Php.Import
import SourceSurvey.Proofs.Extract.Alias
import SourceSurvey.Proofs.Extract.Modifier
import SourceSurvey.Proofs.Text.Field

/-!
# Clauses of a namespace use

What a `use` lists: members with or without an alias, behind one root and in braces, or each behind
the root. Main statement: whatever white space stands between its parts, either form imports the
members in order, each by its full path and under its alias or else the last name of its path.
-/

namespace SourceSurvey

/-! ## Parts between commas -/

/-- Where nothing opens or closes, every separator is outside brackets. -/
theorem topLevelPieces_of_isFlat {separator : Char} {s : Nesting} (hs : s.StandsAt 0)
    {text : List Char} (h : ∀ c ∈ text, isFlat c = true) :
    topLevelPieces separator s text = Text.splitAt separator text := by
  unfold Text.splitAt
  induction text generalizing s with
  | nil => rfl
  | cons c cs ih =>
    have hc := h c List.mem_cons_self
    have hcs : ∀ d ∈ cs, isFlat d = true := fun d hd => h d (List.mem_cons_of_mem c hd)
    have hnext : ({ s with prev := some c } : Nesting).StandsAt 0 := hs
    rw [topLevelPieces, hs.isTop, isQuote_of_isFlat hc, Text.splitWhere, ih hnext hcs,
      ih (hs.step_of_isFlat hc) hcs]
    rfl

/-- A flat text is split at every separator. -/
theorem topLevelParts_of_isFlat {separator : Char} {text : List Char}
    (h : ∀ c ∈ text, isFlat c = true) :
    topLevelParts separator text = Text.trimmedPieces separator text := by
  rw [topLevelParts, topLevelPieces_of_isFlat Nesting.standsAt_start h]
  rfl

/-- What holds of the comma, of blanks and of the characters of all parts holds in the whole list. -/
theorem forall_mem_joinCells {α : Type} {write : α → List Char} {P : Char → Prop} (hcomma : P ',')
    (hspace : ∀ c, Text.isSpace c = true → P c) (hwrite : ∀ a, ∀ c ∈ write a, P c)
    (cells : List (Cell α)) (trailing : Option WhiteSpace) :
    ∀ c ∈ joinCells write cells trailing, P c := by
  have hall : ∀ text ∈ cells.map (Cell.text write) ++ trailing.toList.map WhiteSpace.text,
      ∀ c ∈ text, P c := by
    intro text htext c hc
    rcases List.mem_append.mp htext with htext | htext
    · obtain ⟨cell, -, rfl⟩ := List.mem_map.mp htext
      simp only [Cell.text, List.mem_append] at hc
      rcases hc with hc | hc | hc
      · exact hspace c (cell.before.isSpace c hc)
      · exact hwrite cell.part c hc
      · exact hspace c (cell.after.isSpace c hc)
    · obtain ⟨space, -, rfl⟩ := List.mem_map.mp htext
      exact hspace c (space.isSpace c hc)
  unfold joinCells
  generalize cells.map (Cell.text write) ++ trailing.toList.map WhiteSpace.text = texts at hall ⊢
  induction texts with
  | nil => simp
  | cons text texts ih =>
    have hrest := ih fun t ht => hall t (List.mem_cons_of_mem text ht)
    cases texts with
    | nil => exact List.intercalate_singleton ▸ hall text List.mem_cons_self
    | cons next texts =>
      intro c hc
      rw [List.intercalate_cons_cons, List.append_assoc, List.mem_append, List.singleton_append,
        List.mem_cons] at hc
      rcases hc with hc | rfl | hc
      · exact hall text List.mem_cons_self c hc
      · exact hcomma
      · exact hrest c hc

/-- The parts of a list, with one blank for every run of them. -/
theorem trimmedPieces_squeeze_joinCells {α : Type} {write : α → List Char}
    (hcomma : ∀ a, ',' ∉ write a) (hword : ∀ a, Text.trim (Text.squeeze (write a)) ≠ [])
    (cells : List (Cell α)) (trailing : Option WhiteSpace) :
    Text.trimmedPieces ',' (Text.squeeze (joinCells write cells trailing)) =
      cells.map fun cell => Text.trim (Text.squeeze (write cell.part)) := by
  have hspace : ∀ space : WhiteSpace, ',' ∉ space.text := fun space =>
    Text.not_mem_of_class space.isSpace (by decide)
  have hshown : ∀ cell : Cell α, Text.trim (Text.squeeze (cell.text write)) =
      Text.trim (Text.squeeze (write cell.part)) := by
    intro cell
    rw [Text.trim_squeeze, Text.trim_squeeze, Cell.text,
      Text.fields_isSpace_append cell.before.isSpace, Text.fields_append_isSpace cell.after.isSpace]
  have hblank : ∀ space : WhiteSpace, Text.trim (Text.squeeze space.text) = [] := by
    intro space
    rw [Text.trim_squeeze, Text.fields_of_isSpace space.isSpace]
    rfl
  -- the commas of the list are those between its cells, since no part holds one
  have hall : ∀ text ∈ cells.map (Cell.text write) ++ trailing.toList.map WhiteSpace.text,
      ',' ∉ text := by
    intro text htext
    rcases List.mem_append.mp htext with htext | htext
    · obtain ⟨cell, -, rfl⟩ := List.mem_map.mp htext
      simp [Cell.text, hspace, hcomma]
    · obtain ⟨space, -, rfl⟩ := List.mem_map.mp htext
      exact hspace space
  have hcells : ((cells.map (Cell.text write)).map (Text.trim ∘ Text.squeeze)).filter
      (!·.isEmpty) = cells.map fun cell => Text.trim (Text.squeeze (write cell.part)) := by
    rw [List.map_map, List.filter_eq_self.mpr]
    · exact List.map_congr_left fun cell _ => hshown cell
    · intro part hpart
      obtain ⟨cell, -, rfl⟩ := List.mem_map.mp hpart
      simp [hshown, hword]
  -- behind a trailing comma nothing is left
  have hnone : ((trailing.toList.map WhiteSpace.text).map (Text.trim ∘ Text.squeeze)).filter
      (!·.isEmpty) = [] := by
    cases trailing with
    | none => rfl
    | some space =>
      show ([Text.trim (Text.squeeze space.text)]).filter (!·.isEmpty) = []
      rw [hblank]
      rfl
  have hpieces : ((cells.map (Cell.text write) ++ trailing.toList.map WhiteSpace.text).map
      (Text.trim ∘ Text.squeeze)).filter (!·.isEmpty) =
        cells.map fun cell => Text.trim (Text.squeeze (write cell.part)) := by
    rw [List.map_append, List.filter_append, hcells, hnone, List.append_nil]
  rw [Text.trimmedPieces, Text.splitAt_squeeze (by decide), List.map_map, ← hpieces, joinCells]
  cases htexts : cells.map (Cell.text write) ++ trailing.toList.map WhiteSpace.text with
  | nil => rfl
  | cons text texts =>
    rw [htexts] at hall
    rw [Text.splitAt_intercalate hall]

namespace Extract.Php

/-! ## Members and roots -/

/-- A character of the names in a path: a word character, or any beyond ASCII that is no blank. -/
def isSegmentChar (c : Char) : Bool :=
  Text.isWord c || (127 < c.toNat && !Text.isSpace c)

theorem isSpace_eq_false_of_isSegmentChar {c : Char} (h : isSegmentChar c = true) :
    Text.isSpace c = false := by
  rw [isSegmentChar, Bool.or_eq_true, Bool.and_eq_true] at h
  rcases h with hword | ⟨-, hspace⟩
  · exact Text.isSpace_eq_false_of_isNameChar (by rw [Text.isNameChar, hword, Bool.true_or])
  · simpa using hspace

/-- Names with a backslash between neighbours. -/
structure NamePath where
  first : Word isSegmentChar
  others : List (Word isSegmentChar)

def NamePath.text (path : NamePath) : List Char :=
  path.first.text ++ path.others.flatMap fun name => '\\' :: name.text

def NamePath.last (path : NamePath) : List Char :=
  (path.others.getLast?.getD path.first).text

/-- The path in front of all members, perhaps with a backslash before it. -/
structure Root where
  rooted : Bool
  path : NamePath

def Root.text (root : Root) : List Char :=
  if root.rooted then '\\' :: root.path.text else root.path.text

/-- What is imported from below a root, and the alias that it is given, if any. -/
structure Member where
  path : NamePath
  renamed : Option (Word isSegmentChar)

namespace Member

/-- What stands behind the path of a member, with one blank on either side of the word between. -/
def aliasText (m : Member) : List Char :=
  match m.renamed with
  | none => []
  | some name => " as ".toList ++ name.text

/-- The name that a member is known by. -/
def bound (m : Member) : List Char :=
  match m.renamed with
  | none => m.path.last
  | some name => name.text

end Member

/-- The module that a member below the root stands for, and the name that it is known by. -/
def Root.pair (root : Root) (m : Member) : List Char × List Char :=
  (root.path.text ++ '\\' :: m.path.text, m.bound)

theorem solid_segment (name : Word isSegmentChar) : Text.Solid name.text :=
  name.solid fun _ => isSpace_eq_false_of_isSegmentChar

/-- A path has characters of names and backslashes only. -/
theorem NamePath.chars (path : NamePath) :
    ∀ c ∈ path.text, isSegmentChar c = true ∨ c = '\\' := by
  intro c hc
  rcases List.mem_append.mp hc with hc | hc
  · exact .inl (path.first.chars c hc)
  · obtain ⟨name, -, hc⟩ := List.mem_flatMap.mp hc
    rcases List.mem_cons.mp hc with rfl | hc
    · exact .inr rfl
    · exact .inl (name.chars c hc)

/-- A path begins with a character of a name. -/
theorem NamePath.exists_cons (path : NamePath) :
    ∃ c cs, path.text = c :: cs ∧ isSegmentChar c = true := by
  obtain ⟨c, cs, hcons⟩ := List.exists_cons_of_ne_nil path.first.ne_nil
  refine ⟨c, cs ++ path.others.flatMap fun name => '\\' :: name.text, ?_,
    path.first.chars c (hcons ▸ List.mem_cons_self)⟩
  rw [NamePath.text, hcons, List.cons_append]

/-- The last name of a path stands behind the last backslash. -/
theorem NamePath.afterLast_append (path : NamePath) (front : List Char) :
    Text.afterLast '\\' (front ++ '\\' :: path.text) = path.last := by
  have hname : ∀ name : Word isSegmentChar, '\\' ∉ name.text := fun name =>
    Text.not_mem_of_class name.chars (by decide)
  obtain ⟨first, others⟩ := path
  unfold NamePath.text NamePath.last
  cases others using List.reverseRecOn with
  | nil => simpa using Text.afterLast_append_cons (hname first) front
  | append_singleton names name =>
    have hlast := Text.afterLast_append_cons (hname name)
      (front ++ '\\' :: (first.text ++ names.flatMap fun name => '\\' :: name.text))
    simpa using hlast

/-- The root of a group has characters of names and backslashes only. -/
theorem Root.chars (root : Root) : ∀ c ∈ root.text, isSegmentChar c = true ∨ c = '\\' := by
  intro c hc
  unfold Root.text at hc
  split at hc
  · rcases List.mem_cons.mp hc with rfl | hc
    · exact .inr rfl
    · exact root.path.chars c hc
  · exact root.path.chars c hc

/-- So it is with the backslash behind a root. -/
theorem Root.chars_concat (root : Root) :
    ∀ c ∈ root.text ++ ['\\'], isSegmentChar c = true ∨ c = '\\' := by
  intro c hc
  rcases List.mem_append.mp hc with hc | hc
  · exact root.chars c hc
  · exact .inr (List.mem_singleton.mp hc)

/-! ## Written clauses -/

/-- A member as it is written: with the blanks on both sides of the word before its alias. -/
structure WrittenMember extends Member where
  before : Spacing
  after : Spacing

namespace WrittenMember

def aliasText (m : WrittenMember) : List Char :=
  match m.renamed with
  | none => []
  | some name => m.before.text ++ ("as".toList ++ (m.after.text ++ name.text))

def text (m : WrittenMember) : List Char :=
  m.path.text ++ m.aliasText

end WrittenMember

/-- What a `use` lists: members in braces behind their root, or members that each repeat it. White
space may stand around every part, and a comma behind the last member. -/
inductive Clause where
  | grouped (before : WhiteSpace) (root : Root) (slash brace : WhiteSpace)
      (cells : List (Cell WrittenMember)) (trailing : Option WhiteSpace) (after : WhiteSpace)
  | flat (root : Root) (cells : List (Cell WrittenMember)) (trailing : Option WhiteSpace)

namespace Clause

def text : Clause → List Char
  | grouped before root slash brace cells trailing after =>
    before.text ++ (root.text ++ (slash.text ++ '\\' :: (brace.text ++
      '\x7b' :: (joinCells WrittenMember.text cells trailing ++ '\x7d' :: after.text))))
  | flat root cells trailing => joinCells (fun m => root.text ++ '\\' :: m.text) cells trailing

def root : Clause → Root
  | grouped _ root .. => root
  | flat root .. => root

def members : Clause → List Member
  | grouped _ _ _ _ cells .. => cells.map (·.part.toMember)
  | flat _ cells _ => cells.map (·.part.toMember)

/-- The modules that a clause imports, each with the name that it binds. -/
def pairs (clause : Clause) : List (List Char × List Char) :=
  clause.members.map clause.root.pair

end Clause

/-! ## What is read of a member -/

section Read

variable {front : List Char}

/-- Characters of paths are no blanks. -/
theorem isSpace_eq_false_of_pathChar {c : Char} (h : isSegmentChar c = true ∨ c = '\\') :
    Text.isSpace c = false := by
  rcases h with h | rfl
  · exact isSpace_eq_false_of_isSegmentChar h
  · decide

theorem solid_append_path (hfront : ∀ c ∈ front, isSegmentChar c = true ∨ c = '\\')
    (path : NamePath) : Text.Solid (front ++ path.text) := by
  obtain ⟨c, cs, hcons, -⟩ := path.exists_cons
  refine ⟨by simp [hcons], fun d hd => ?_⟩
  rcases List.mem_append.mp hd with hd | hd
  · exact isSpace_eq_false_of_pathChar (hfront d hd)
  · exact isSpace_eq_false_of_pathChar (path.chars d hd)

/-- Of the blanks around the word before an alias one is left on either side. -/
theorem trim_squeeze_member (hfront : ∀ c ∈ front, isSegmentChar c = true ∨ c = '\\')
    (m : WrittenMember) : Text.trim (Text.squeeze (front ++ m.text)) =
      front ++ m.path.text ++ m.toMember.aliasText := by
  have hpath := solid_append_path hfront m.path
  have has : Text.fields "as".toList = ["as".toList] := Text.fields_of_solid (by decide)
  have hspacing : ∀ (space : Spacing) (before after : List Char),
      Text.fields (before ++ (space.text ++ after)) = Text.fields before ++ Text.fields after := by
    intro space before after
    obtain ⟨c, cs, hcons⟩ := List.exists_cons_of_ne_nil space.ne_nil
    have hspace := space.isSpace
    rw [hcons] at hspace ⊢
    rw [List.cons_append, Text.fields_append_cons (hspace c List.mem_cons_self),
      Text.fields_isSpace_append fun d hd => hspace d (List.mem_cons_of_mem c hd)]
  rw [Text.trim_squeeze, WrittenMember.text, ← List.append_assoc]
  unfold WrittenMember.aliasText Member.aliasText
  cases m.renamed with
  | none =>
    dsimp only
    rw [List.append_nil, Text.fields_of_solid hpath, List.intercalate_singleton]
  | some name =>
    dsimp only
    rw [hspacing, hspacing, Text.fields_of_solid hpath, has,
      Text.fields_of_solid (solid_segment name)]
    simp [List.intercalate_cons_cons]

end Read

/-- The backslash of a root is no part of the module. -/
theorem Root.dropWhile_append (root : Root) (path : NamePath) :
    (root.text ++ '\\' :: path.text).dropWhile (· == '\\') =
      root.path.text ++ '\\' :: path.text := by
  obtain ⟨c, cs, hcons, hc⟩ := root.path.exists_cons
  have hstop : ¬ (c == '\\') = true := by simpa using Text.ne_of_class hc (by decide)
  unfold Root.text
  rw [hcons]
  split
  · rw [List.cons_append, List.dropWhile_cons_of_pos rfl]
    exact List.dropWhile_cons_of_neg hstop
  · exact List.dropWhile_cons_of_neg hstop

/-- A member behind its root is read as the module that it stands for, and as the name that it is
known by. -/
theorem usedModules_of_usedPaths {clause : List Char} {root : Root} {members : List Member}
    (h : usedPaths clause =
      members.map fun m => root.text ++ '\\' :: (m.path.text ++ m.aliasText)) :
    usedModules clause = members.map root.pair := by
  have hsome : members.map root.pair = members.filterMap fun m => some (root.pair m) :=
    (congrFun List.filterMap_eq_map members).symm
  rw [usedModules, h, List.filterMap_map, hsome]
  refine List.filterMap_congr fun m _ => ?_
  have hpath : Text.Solid (root.text ++ '\\' :: m.path.text) := by
    have happend := solid_append_path root.chars_concat m.path
    rwa [List.append_assoc] at happend
  have hmodule : (root.path.text ++ '\\' :: m.path.text).isEmpty = false := by simp
  have htext : root.text ++ '\\' :: (m.path.text ++ m.aliasText) =
      root.text ++ '\\' :: m.path.text ++ m.aliasText := by simp
  simp only [Function.comp]
  rw [htext]
  unfold Root.pair Member.aliasText Member.bound
  -- without an alias the last name of the path is bound, and with one the word behind the mark
  cases m.renamed with
  | none =>
    dsimp only
    rw [List.append_nil, hpath.tight.trim, splitOn_aliasMark_of_solid hpath]
    dsimp only
    rw [hpath.tight.trim, root.dropWhile_append, hmodule, if_neg Bool.false_ne_true,
      m.path.afterLast_append]
  | some name =>
    have hname := solid_segment name
    have has : Text.Tight "as".toList := Text.Solid.tight (by decide)
    have htight := hpath.tight.append (has.append hname.tight [' ']) [' ']
    have hblank : ∀ c ∈ [' '], Text.isSpace c = true := Text.isSpace_of_mem_blank
    have hcut := splitOn_aliasMark hpath (by decide) hblank (by decide) hblank hname
    dsimp only
    rw [show " as ".toList ++ name.text = [' '] ++ ("as".toList ++ ([' '] ++ name.text)) from rfl,
      htight.trim, hcut]
    dsimp only
    rw [hpath.tight.trim, root.dropWhile_append, hmodule, if_neg Bool.false_ne_true,
      hname.tight.trim]

/-! ## What is read of a clause -/

/-- The paths that are read of a clause depend on its words alone. -/
theorem usedPaths_congr {clause clause' : List Char}
    (h : Text.fields clause = Text.fields clause') : usedPaths clause = usedPaths clause' := by
  have htext : Text.trim (Text.squeeze clause) = Text.trim (Text.squeeze clause') := by
    rw [Text.trim_squeeze, Text.trim_squeeze, h]
  unfold usedPaths
  unfold Text.squeeze at htext
  rw [htext]

/-- Without braces a clause is cut at its commas. -/
theorem usedPaths_of_isFlat {clause : List Char} (h : ∀ c ∈ clause, isFlat c = true) :
    usedPaths clause = Text.trimmedPieces ',' (Text.squeeze clause) := by
  have htext : ∀ c ∈ Text.trim (Text.squeeze clause), isFlat c = true := by
    intro c hc
    rcases Text.mem_squeeze (Text.trim_subset _ hc) with rfl | hc
    · decide
    · exact h c hc
  have hbrace : '\x7b' ∉ Text.trim (Text.squeeze clause) :=
    Text.not_mem_of_class htext (by decide)
  have hread : usedPaths clause = topLevelParts ',' (Text.trim (Text.squeeze clause)) := by
    unfold usedPaths
    dsimp only
    rw [show Text.replaceRuns Text.isSpace [' '] clause = Text.squeeze clause from rfl,
      Text.find?_of_not_mem hbrace]
  rw [hread, topLevelParts_of_isFlat htext, Text.trimmedPieces_trim (by decide)]

/-- With braces the clause is what stands in front of them, before each of the parts in them. -/
theorem usedPaths_braces {front after : List Char} (hfront : '\x7b' ∉ front)
    (hafter : ∀ c ∈ after, Text.isSpace c = true) (inside : List Char) :
    usedPaths (front ++ '\x7b' :: (inside ++ '\x7d' :: after)) =
      (Text.trimmedPieces ',' (Text.squeeze inside)).map fun m =>
        Text.trim (Text.trimEndWhile (· == '\\') (Text.trim (Text.squeeze front))) ++
          '\\' :: m := by
  have hbrace : '\x7b' ∉ Text.trimStart (Text.squeeze front) := fun hmem => by
    rcases Text.mem_squeeze ((List.dropWhile_suffix _).subset hmem) with hspace | hmem
    · exact absurd hspace (by decide)
    · exact hfront hmem
  have hblank : Text.trimEnd (Text.squeeze after) = [] := by
    refine Text.trimEndWhile_append_of_pos (fun c hc => ?_) []
    rcases Text.mem_squeeze hc with rfl | hc
    · decide
    · exact hafter c hc
  -- the closing brace is the last character that is no blank
  have hend : Text.trimEnd (Text.squeeze (inside ++ '\x7d' :: after)) =
      Text.squeeze inside ++ ['\x7d'] := by
    rw [Text.squeeze_append_cons (by decide), ← hblank]
    exact Text.trimEndWhile_append_cons (by decide) _ _
  have htext : Text.trim (Text.squeeze (front ++ '\x7b' :: (inside ++ '\x7d' :: after))) =
      Text.trimStart (Text.squeeze front) ++ '\x7b' :: (Text.squeeze inside ++ ['\x7d']) := by
    rw [Text.squeeze_append_cons (by decide), Text.trim_append_cons (by decide), hend]
  have hlast : ((Text.trimStart (Text.squeeze front) ++
      '\x7b' :: (Text.squeeze inside ++ ['\x7d'])).getLast? == some '\x7d') = true := by
    rw [← List.cons_append, ← List.append_assoc, List.getLast?_concat]
    rfl
  have hinside : ((Text.trimStart (Text.squeeze front) ++
      '\x7b' :: (Text.squeeze inside ++ ['\x7d'])).drop
        ((Text.trimStart (Text.squeeze front)).length + 1)).dropLast = Text.squeeze inside := by
    rw [← List.drop_drop, List.drop_left]
    exact List.dropLast_concat
  have hparts : (Text.splitAt ',' (Text.squeeze inside)).filter (fun m => !Text.isBlank m) =
      (Text.splitAt ',' (Text.squeeze inside)).filter fun m => !(Text.trim m).isEmpty :=
    List.filter_congr fun m _ => by rw [Text.isEmpty_trim]
  unfold usedPaths
  dsimp only
  rw [show Text.replaceRuns Text.isSpace [' '] (front ++ '\x7b' :: (inside ++ '\x7d' :: after)) =
      Text.squeeze (front ++ '\x7b' :: (inside ++ '\x7d' :: after)) from rfl, htext,
    Text.find?_singleton_append hbrace]
  dsimp only
  rw [if_pos hlast, hinside, List.take_left, Text.trim_trimStart, hparts, Text.trimmedPieces,
    List.filter_map, List.map_map]
  rfl

/-- A path ends in a character of its last name. -/
theorem NamePath.exists_concat (path : NamePath) :
    ∃ cs c, path.text = cs ++ [c] ∧ isSegmentChar c = true := by
  have hname : ∀ name : Word isSegmentChar, ∃ cs c, name.text = cs ++ [c] ∧
      isSegmentChar c = true := fun name =>
    ⟨_, _, (List.dropLast_append_getLast name.ne_nil).symm,
      name.chars _ (List.getLast_mem name.ne_nil)⟩
  obtain ⟨first, others⟩ := path
  unfold NamePath.text
  cases others using List.reverseRecOn with
  | nil =>
    obtain ⟨cs, c, hconcat, hc⟩ := hname first
    exact ⟨cs, c, by simp [hconcat], hc⟩
  | append_singleton names name =>
    obtain ⟨cs, c, hconcat, hc⟩ := hname name
    refine ⟨first.text ++ (names.flatMap fun name => '\\' :: name.text) ++ '\\' :: cs, c, ?_, hc⟩
    simp [hconcat]

/-- The root of a group ends with a character of a name. -/
theorem Root.exists_concat (root : Root) :
    ∃ cs c, root.text = cs ++ [c] ∧ isSegmentChar c = true := by
  obtain ⟨cs, c, hconcat, hc⟩ := root.path.exists_concat
  unfold Root.text
  split
  · exact ⟨'\\' :: cs, c, by rw [hconcat]; rfl, hc⟩
  · exact ⟨cs, c, hconcat, hc⟩

theorem Root.solid (root : Root) : Text.Solid root.text := by
  obtain ⟨cs, c, hconcat, -⟩ := root.exists_concat
  exact ⟨by simp [hconcat], fun d hd => isSpace_eq_false_of_pathChar (root.chars d hd)⟩

/-- The root in front of a brace is read without its last backslash and the blanks around it. -/
theorem Root.trim_trimEndWhile (root : Root) (before slash brace : WhiteSpace) :
    Text.trim (Text.trimEndWhile (· == '\\') (Text.trim (Text.squeeze
      (before.text ++ (root.text ++ (slash.text ++ '\\' :: brace.text)))))) = root.text := by
  obtain ⟨cs, c, hconcat, hc⟩ := root.exists_concat
  have hslash : Text.Solid ['\\'] := by decide
  have hroot : Text.trimEndWhile (· == '\\') root.text = root.text := by
    rw [hconcat]
    exact Text.trimEndWhile_concat_of_neg (by simpa using Text.ne_of_class hc (by decide)) cs
  have hwords : Text.fields (before.text ++ (root.text ++ (slash.text ++ '\\' :: brace.text))) =
      Text.fields (root.text ++ (slash.text ++ ['\\'])) := by
    rw [Text.fields_isSpace_append before.isSpace,
      ← Text.fields_append_isSpace brace.isSpace (root.text ++ (slash.text ++ ['\\']))]
    simp
  rw [Text.trim_squeeze, hwords]
  -- without blanks the backslash belongs to the last word, with blanks it is a word of its own
  cases hblanks : slash.text with
  | nil =>
    have hsolid : Text.Solid (root.text ++ ['\\']) := by
      refine ⟨by simp, fun d hd => ?_⟩
      rcases List.mem_append.mp hd with hd | hd
      · exact root.solid.2 d hd
      · exact hslash.2 d hd
    rw [List.nil_append, Text.fields_of_solid hsolid, List.intercalate_singleton,
      Text.trimEndWhile_append rfl, hroot, root.solid.tight.trim]
  | cons d ds =>
    have hspace := slash.isSpace
    rw [hblanks] at hspace
    rw [List.cons_append, Text.fields_append_cons (hspace d List.mem_cons_self),
      Text.fields_isSpace_append (fun e he => hspace e (List.mem_cons_of_mem d he)),
      Text.fields_of_solid root.solid, Text.fields_of_solid hslash]
    rw [List.singleton_append, List.intercalate_cons_cons, List.intercalate_singleton,
      Text.trimEndWhile_append rfl, Text.trimEndWhile_concat_of_neg (by decide),
      root.solid.tight.trim_append Text.isSpace_of_mem_blank]

/-! ## The two forms -/

/-- A character of paths or a blank. -/
def isMemberChar (c : Char) : Bool :=
  isSegmentChar c || c == '\\' || Text.isSpace c

theorem isMemberChar_of_pathChar {c : Char} (h : isSegmentChar c = true ∨ c = '\\') :
    isMemberChar c = true := by
  simp only [isMemberChar, Bool.or_eq_true, beq_iff_eq]
  exact .inl h

theorem isMemberChar_of_isSpace {c : Char} (h : Text.isSpace c = true) :
    isMemberChar c = true := by
  rw [isMemberChar, h, Bool.or_true]

/-- A written member has characters of members only. -/
theorem WrittenMember.isMemberChar (m : WrittenMember) :
    ∀ c ∈ m.text, Php.isMemberChar c = true := by
  intro c hc
  rcases List.mem_append.mp hc with hc | hc
  · exact isMemberChar_of_pathChar (m.path.chars c hc)
  · unfold aliasText at hc
    cases hrenamed : m.renamed with
    | none =>
      rw [hrenamed] at hc
      cases hc
    | some name =>
      rw [hrenamed] at hc
      have has : ∀ d ∈ "as".toList, Php.isMemberChar d = true := List.all_eq_true.mp (by decide)
      simp only [List.mem_append] at hc
      rcases hc with hc | hc | hc | hc
      · exact isMemberChar_of_isSpace (m.before.isSpace c hc)
      · exact has c hc
      · exact isMemberChar_of_isSpace (m.after.isSpace c hc)
      · exact isMemberChar_of_pathChar (.inl (name.chars c hc))

/-- So has a member behind its root. -/
theorem isMemberChar_behindRoot (root : Root) (m : WrittenMember) :
    ∀ c ∈ root.text ++ '\\' :: m.text, isMemberChar c = true := by
  intro c hc
  rcases List.mem_append.mp hc with hc | hc
  · exact isMemberChar_of_pathChar (root.chars c hc)
  · rcases List.mem_cons.mp hc with rfl | hc
    · decide
    · exact m.isMemberChar c hc

namespace Clause

/-- What is read of a clause: each member behind the root, with one blank on either side of the word
before its alias. -/
theorem usedPaths_text (clause : Clause) : usedPaths clause.text =
    clause.members.map fun m => clause.root.text ++ '\\' :: (m.path.text ++ m.aliasText) := by
  have hshown : ∀ (front : List Char) (m : WrittenMember),
      (∀ c ∈ front, isSegmentChar c = true ∨ c = '\\') →
      Text.trim (Text.squeeze (front ++ m.text)) = front ++ (m.path.text ++ m.toMember.aliasText) :=
    fun front m hfront => by rw [trim_squeeze_member hfront, List.append_assoc]
  have hnonempty : ∀ (front : List Char) (m : WrittenMember),
      front ++ (m.path.text ++ m.toMember.aliasText) ≠ [] := by
    intro front m
    obtain ⟨c, cs, hcons, -⟩ := m.path.exists_cons
    simp [hcons]
  -- both forms come to one list of pieces: in the grouped one the root stands before the brace, in
  -- the flat one in every cell
  cases clause with
  | grouped before root slash brace cells trailing after =>
    have hspace : ∀ space : WhiteSpace, '\x7b' ∉ space.text := fun space =>
      Text.not_mem_of_class space.isSpace (by decide)
    have hroot : '\x7b' ∉ root.text := Text.not_mem_of_class
      (fun c hc => isMemberChar_of_pathChar (root.chars c hc)) (by decide)
    have hfront : '\x7b' ∉ before.text ++ (root.text ++ (slash.text ++ '\\' :: brace.text)) := by
      simp [hspace, hroot]
    have htext : Clause.text (.grouped before root slash brace cells trailing after) =
        before.text ++ (root.text ++ (slash.text ++ '\\' :: brace.text)) ++ '\x7b' ::
          (joinCells WrittenMember.text cells trailing ++ '\x7d' :: after.text) := by
      simp [Clause.text]
    have hcomma : ∀ m : WrittenMember, ',' ∉ m.text := fun m =>
      Text.not_mem_of_class m.isMemberChar (by decide)
    have hmember : ∀ m : WrittenMember, Text.trim (Text.squeeze m.text) =
        m.path.text ++ m.toMember.aliasText := fun m => hshown [] m fun c hc => nomatch hc
    rw [htext, usedPaths_braces hfront after.isSpace, root.trim_trimEndWhile,
      trimmedPieces_squeeze_joinCells hcomma (fun m => hmember m ▸ hnonempty [] m), List.map_map,
      members, List.map_map]
    exact List.map_congr_left fun cell _ =>
      congrArg (root.text ++ '\\' :: ·) (hmember cell.part)
  | flat root cells trailing =>
    have hmember : ∀ m : WrittenMember, Text.trim (Text.squeeze (root.text ++ '\\' :: m.text)) =
        root.text ++ '\\' :: (m.path.text ++ m.toMember.aliasText) := by
      intro m
      have happend := hshown (root.text ++ ['\\']) m root.chars_concat
      rwa [List.append_assoc, List.append_assoc] at happend
    have hcomma : ∀ m : WrittenMember, ',' ∉ root.text ++ '\\' :: m.text := fun m =>
      Text.not_mem_of_class (isMemberChar_behindRoot root m) (by decide)
    have hflat : ∀ c ∈ joinCells (fun m : WrittenMember => root.text ++ '\\' :: m.text) cells
        trailing, isFlat c = true :=
      forall_mem_joinCells (by decide) (fun _ => isFlat_of_isSpace)
        (fun m c hc => isFlat_of_class (isMemberChar_behindRoot root m c hc) (by decide)) cells
        trailing
    rw [text, usedPaths_of_isFlat hflat, trimmedPieces_squeeze_joinCells hcomma
      (fun m => by rw [hmember]; exact List.append_ne_nil_of_right_ne_nil _ (List.cons_ne_nil _ _)),
      members, List.map_map]
    exact List.map_congr_left fun cell _ => hmember cell.part

/-- The modules that are read of a clause are those that it lists, in order, in either form. -/
theorem usedModules_eq_pairs (clause : Clause) : usedModules clause.text = clause.pairs :=
  usedModules_of_usedPaths clause.usedPaths_text

end Clause

end Extract.Php

end SourceSurvey
