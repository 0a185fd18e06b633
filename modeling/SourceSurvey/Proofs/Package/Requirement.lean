import SourceSurvey.Proofs.Package.Manifest
import SourceSurvey.Proofs.Text.Field

/-!
# Lists of requirements

A list of requirements is written row by row: requirements, and rows that name none. Main
statements: a row declares the name that it is written with (`nameOfRequirement?_text`), line ends
of any kind declare nothing and keep rows apart (`declared_append_ending`), and so a file of rows is
read to the names of its requirements in order.
-/

namespace SourceSurvey

/-! ## Lines between boundaries -/

namespace Text

variable {c : Char} {line : List Char}

/-- A character other than the carriage return stays. -/
theorem unifyLineEnds_cons (h : c ≠ '\r') (rest : List Char) :
    unifyLineEnds (c :: rest) = c :: unifyLineEnds rest := by
  rw [unifyLineEnds.eq_def]
  split
  · next heq => cases heq
  · next heq => exact absurd (List.cons.inj heq).1 h
  · next heq => exact absurd (List.cons.inj heq).1 h
  · next heq =>
    obtain ⟨rfl, rfl⟩ := List.cons.inj heq
    rfl

/-- A carriage return on its own becomes a line feed. -/
theorem unifyLineEnds_return (h : c ≠ '\n') (rest : List Char) :
    unifyLineEnds ('\r' :: c :: rest) = '\n' :: unifyLineEnds (c :: rest) := by
  rw [unifyLineEnds.eq_def]
  split
  · next heq => cases heq
  · next heq => exact absurd (List.cons.inj (List.cons.inj heq).2).1 h
  · next heq =>
    obtain ⟨-, rfl⟩ := List.cons.inj heq
    rfl
  · next hreturn heq => exact absurd (List.cons.inj heq).1.symm hreturn

/-- A line boundary ends the line before it. -/
theorem splitAtBoundaries_boundary (h : isLineBoundary c = true) (hreturn : c ≠ '\r')
    (rest : List Char) : splitAtBoundaries (c :: rest) = [] :: splitAtBoundaries rest := by
  rw [splitAtBoundaries.eq_def]
  split
  · next heq => cases heq
  · next heq => exact absurd (List.cons.inj heq).1 hreturn
  · next heq =>
    obtain ⟨rfl, rfl⟩ := List.cons.inj heq
    exact if_pos h

/-- Any other character goes to the front of the first line. -/
theorem splitAtBoundaries_cons (h : isLineBoundary c = false) (rest : List Char) :
    splitAtBoundaries (c :: rest) =
      (c :: (splitAtBoundaries rest).headD []) :: (splitAtBoundaries rest).tail := by
  rw [splitAtBoundaries.eq_def]
  split
  · next heq => cases heq
  · next heq =>
    rw [(List.cons.inj heq).1] at h
    exact absurd h (by decide)
  · next heq =>
    obtain ⟨rfl, rfl⟩ := List.cons.inj heq
    rw [if_neg (by rw [h]; exact Bool.false_ne_true)]
    cases splitAtBoundaries rest <;> rfl

/-- Line ends are unified behind a line as they are without it. -/
theorem unifyLineEnds_append (h : ∀ c ∈ line, isLineBoundary c = false) (rest : List Char) :
    unifyLineEnds (line ++ rest) = line ++ unifyLineEnds rest := by
  induction line with
  | nil => rfl
  | cons c cs ih =>
    have hreturn : c ≠ '\r' := fun heq => by
      have hc := h c List.mem_cons_self
      rw [heq] at hc
      exact absurd hc (by decide)
    rw [List.cons_append, unifyLineEnds_cons hreturn,
      ih fun d hd => h d (List.mem_cons_of_mem c hd)]
    rfl

/-- A line with its boundary comes before the lines of the rest. -/
theorem splitAtBoundaries_append_cons (h : ∀ c ∈ line, isLineBoundary c = false)
    (hc : isLineBoundary c = true) (hreturn : c ≠ '\r') (rest : List Char) :
    splitAtBoundaries (line ++ c :: rest) = line :: splitAtBoundaries rest := by
  induction line with
  | nil => exact splitAtBoundaries_boundary hc hreturn rest
  | cons d ds ih =>
    rw [List.cons_append, splitAtBoundaries_cons (h d List.mem_cons_self),
      ih fun e he => h e (List.mem_cons_of_mem d he)]
    rfl

/-- A text without boundaries is one line. -/
theorem splitAtBoundaries_of_forall (h : ∀ c ∈ line, isLineBoundary c = false) (hne : line ≠ []) :
    splitAtBoundaries line = [line] := by
  induction line with
  | nil => exact absurd rfl hne
  | cons d ds ih =>
    rw [splitAtBoundaries_cons (h d List.mem_cons_self)]
    cases ds with
    | nil => rfl
    | cons e es =>
      rw [ih (fun x hx => h x (List.mem_cons_of_mem d hx)) (List.cons_ne_nil e es)]
      rfl

end Text

namespace Manifest

/-! ## Line ends -/

/-- The name that a line declares. -/
def nameIn (line : List Char) : List Value :=
  (nameOf? (.string (.ofList line))).toList

/-- What a list of requirements declares with its line ends as a file has them. -/
def declared (text : List Char) : List Value :=
  ofRequirements (Text.unifyLineEnds text)

theorem nameIn_nil : nameIn [] = [] := rfl

/-- The name on a line is that of its requirement. -/
theorem nameOf?_line (line : List Char) : nameOf? (.string (.ofList line)) =
    (Package.nameOfRequirement? line).map fun name => .string (.ofList name) := by
  show (Package.nameOfRequirement? (String.ofList line).toList).map _ = _
  rw [String.toList_ofList]

/-- Requirements are read line by line. -/
theorem ofRequirements_append_cons {line : List Char} {c : Char}
    (h : ∀ d ∈ line, Text.isLineBoundary d = false) (hc : Text.isLineBoundary c = true)
    (hreturn : c ≠ '\r') (rest : List Char) :
    ofRequirements (line ++ c :: rest) = nameIn line ++ ofRequirements rest := by
  unfold ofRequirements nameIn
  rw [Text.splitAtBoundaries_append_cons h hc hreturn, List.filterMap_cons]
  cases nameOf? (.string (.ofList line)) <;> rfl

/-- A text of one line declares the name on it. -/
theorem declared_of_forall {line : List Char} (h : ∀ d ∈ line, Text.isLineBoundary d = false) :
    declared line = nameIn line := by
  have hunified := Text.unifyLineEnds_append h []
  rw [List.append_nil] at hunified
  rw [declared, hunified, Text.unifyLineEnds, List.append_nil]
  cases hline : line with
  | nil => rfl
  | cons c cs =>
    rw [← hline, ofRequirements, Text.splitAtBoundaries_of_forall h (hline ▸ List.cons_ne_nil c cs)]
    unfold nameIn
    rw [List.filterMap_cons]
    cases nameOf? (.string (.ofList line)) <;> rfl

/-- A boundary ends the line before it, also where two boundaries make one line end. -/
theorem declared_append_cons {line : List Char} {c : Char}
    (h : ∀ d ∈ line, Text.isLineBoundary d = false) (hc : Text.isLineBoundary c = true)
    (rest : List Char) : declared (line ++ c :: rest) = nameIn line ++ declared rest := by
  have hfeed : Text.isLineBoundary '\n' = true := by decide
  have hline : ∀ more, ofRequirements (line ++ '\n' :: more) = nameIn line ++ ofRequirements more :=
    ofRequirements_append_cons h hfeed (by decide)
  unfold declared
  rw [Text.unifyLineEnds_append h]
  by_cases hreturn : c = '\r'
  · subst hreturn
    cases rest with
    | nil => exact hline []
    | cons d ds =>
      by_cases hd : d = '\n'
      · -- the line feed behind the carriage return ends an empty line when it is read alone
        subst hd
        show ofRequirements (line ++ '\n' :: Text.unifyLineEnds ds) =
          nameIn line ++ ofRequirements (Text.unifyLineEnds ('\n' :: ds))
        rw [hline, Text.unifyLineEnds_cons (by decide)]
        exact congrArg (nameIn line ++ ·)
          (ofRequirements_append_cons (List.forall_mem_nil _) hfeed (by decide) _).symm
      · rw [Text.unifyLineEnds_return hd, hline]
  · rw [Text.unifyLineEnds_cons hreturn, ofRequirements_append_cons h hc hreturn]

/-- Line ends of any kind and number stand between a line and what is below it. -/
theorem declared_append_ending {line ending : List Char}
    (h : ∀ d ∈ line, Text.isLineBoundary d = false) (hne : ending ≠ [])
    (hending : ∀ d ∈ ending, Text.isLineBoundary d = true) (rest : List Char) :
    declared (line ++ ending ++ rest) = nameIn line ++ declared rest := by
  have hskip : ∀ {more : List Char}, (∀ d ∈ more, Text.isLineBoundary d = true) →
      declared (more ++ rest) = declared rest := by
    intro more hmore
    induction more with
    | nil => rfl
    | cons c cs ih =>
      have hone := declared_append_cons (List.forall_mem_nil _) (hmore c List.mem_cons_self)
        (cs ++ rest)
      rw [nameIn_nil, List.nil_append, List.nil_append] at hone
      rw [List.cons_append, hone, ih fun d hd => hmore d (List.mem_cons_of_mem c hd)]
  obtain ⟨c, cs, rfl⟩ := List.exists_cons_of_ne_nil hne
  rw [List.append_assoc, List.cons_append,
    declared_append_cons h (hending c List.mem_cons_self),
    hskip fun d hd => hending d (List.mem_cons_of_mem c hd)]

end Manifest

/-! ## Rows -/

/-- A row of a list of requirements, without the blanks before it. -/
inductive RequirementRow where
  | blank
  | note (text : List Char)
  | option (text : List Char)
  /-- An address that stands for a package without its name. -/
  | address (scheme text : List Char)
  /-- A name with what is asked of the package: a version, extras, a marker, where it comes from. -/
  | requirement (name demand : List Char)

namespace RequirementRow

/-- The row as it is written. -/
def text : RequirementRow → List Char
  | blank => []
  | note text => '#' :: text
  | option text => '-' :: text
  | address scheme text => scheme ++ "://".toList ++ text
  | requirement name demand => name ++ demand

/-- The name that a row is written with. -/
def name? : RequirementRow → Option (List Char)
  | requirement name _ => some name
  | _ => none

/-- A character of the name of a package. -/
def isPackageChar (c : Char) : Bool :=
  Text.isWord c || c == '.' || c == '-'

/-- The parts of a row are what they stand for. -/
inductive IsWritten : RequirementRow → Prop where
  | blank : IsWritten blank
  | note (text : List Char) : IsWritten (note text)
  | option (text : List Char) : IsWritten (option text)
  | address {scheme : List Char} (hne : scheme ≠ [])
      (hscheme : ∀ c ∈ scheme, Package.isSchemeChar c = true) (text : List Char) :
      IsWritten (address scheme text)
  | requirement {first : Char} {others demand : List Char}
      (hfirst : Text.isAlphanumeric first = true) (hothers : ∀ c ∈ others, isPackageChar c = true)
      (hdemand : ∀ c ∈ demand.head?, Package.endsName c = true) :
      IsWritten (requirement (first :: others) demand)

/-! ### Characters of names and schemes -/

/-- What ends a name is no character of a scheme. -/
theorem isSchemeChar_eq_false_of_endsName {c : Char} (h : Package.endsName c = true) :
    Package.isSchemeChar c = false := by
  rcases Bool.or_eq_true_iff.mp h with hsign | hspace
  · have hsigns : "=<>!~[;@".toList.all (fun c => !Package.isSchemeChar c) = true := by decide
    have hnot := List.all_eq_true.mp hsigns c (List.contains_iff_mem.mp hsign)
    rwa [Bool.not_eq_true'] at hnot
  · rw [Package.isSchemeChar, Text.isWord_eq_false_of_isSpace hspace, Bool.false_or,
      Bool.or_eq_false_iff, Bool.or_eq_false_iff]
    exact ⟨⟨beq_false_of_ne (Text.ne_of_class hspace (by decide)),
      beq_false_of_ne (Text.ne_of_class hspace (by decide))⟩,
      beq_false_of_ne (Text.ne_of_class hspace (by decide))⟩

theorem isSchemeChar_of_isPackageChar {c : Char} (h : isPackageChar c = true) :
    Package.isSchemeChar c = true := by
  unfold isPackageChar at h
  unfold Package.isSchemeChar
  rcases Bool.or_eq_true_iff.mp h with h | hhyphen
  · rcases Bool.or_eq_true_iff.mp h with hword | hdot
    · rw [hword, Bool.true_or, Bool.true_or, Bool.true_or]
    · rw [hdot, Bool.or_true, Bool.true_or]
  · rw [hhyphen, Bool.or_true]

/-- No character of a scheme ends a name. -/
theorem endsName_eq_false_of_isSchemeChar {c : Char} (h : Package.isSchemeChar c = true) :
    Package.endsName c = false := by
  rw [Bool.eq_false_iff]
  intro hends
  rw [isSchemeChar_eq_false_of_endsName hends] at h
  cases h

theorem isSpace_eq_false_of_isSchemeChar {c : Char} (h : Package.isSchemeChar c = true) :
    Text.isSpace c = false := by
  have hends := endsName_eq_false_of_isSchemeChar h
  rw [Package.endsName, Bool.or_eq_false_iff] at hends
  exact hends.2

/-! ### Rows that are read -/

/-- A text begins with a scheme exactly if the two slashes follow its first scheme characters. -/
theorem startsWithScheme_append {scheme rest : List Char}
    (hscheme : ∀ c ∈ scheme, Package.isSchemeChar c = true)
    (hrest : ∀ c ∈ rest.head?, Package.isSchemeChar c = false) :
    Package.startsWithScheme (scheme ++ rest) =
      (!scheme.isEmpty && Text.startsWith rest "://".toList) := by
  have hstop : rest.takeWhile Package.isSchemeChar = [] := by
    cases rest with
    | nil => rfl
    | cons c cs =>
      refine List.takeWhile_cons_of_neg ?_
      rw [hrest c rfl]
      exact Bool.false_ne_true
  unfold Package.startsWithScheme
  rw [List.takeWhile_append_of_pos hscheme, hstop, List.append_nil]
  dsimp only
  rw [List.drop_left]

/-- A comment, an option and an address name no package. -/
theorem nameOfRequirement?_eq_none {text cs : List Char} {c : Char}
    (htrim : Text.trim text = c :: cs)
    (h : c = '#' ∨ c = '-' ∨ Package.startsWithScheme (c :: cs) = true) :
    Package.nameOfRequirement? text = none := by
  have hnone : (c == '#' || c == '-' || Package.startsWithScheme (c :: cs)) = true := by
    rcases h with rfl | rfl | h
    · rfl
    · rfl
    · rw [h, Bool.or_true]
  unfold Package.nameOfRequirement?
  rw [htrim]
  exact if_pos hnone

/-- The name of a package is taken up to the first character that ends it. -/
theorem nameOfRequirement?_of_name {text name rest : List Char}
    (htrim : Text.trim text = name ++ rest)
    (hfirst : ∃ c cs, name = c :: cs ∧ Text.isAlphanumeric c = true)
    (hname : ∀ c ∈ name, isPackageChar c = true)
    (hrest : ∀ c ∈ rest.head?, Package.endsName c = true) :
    Package.nameOfRequirement? text = some name := by
  obtain ⟨c, cs, rfl, hc⟩ := hfirst
  have hscheme : ∀ d ∈ c :: cs, Package.isSchemeChar d = true := fun d hd =>
    isSchemeChar_of_isPackageChar (hname d hd)
  have hkept : ∀ d ∈ c :: cs, (!Package.endsName d) = true := fun d hd => by
    rw [endsName_eq_false_of_isSchemeChar (hscheme d hd)]
    rfl
  -- what ends a name is no colon, so no address begins with the name
  have hstart : Package.startsWithScheme (c :: cs ++ rest) = false := by
    rw [startsWithScheme_append hscheme fun d hd => isSchemeChar_eq_false_of_endsName (hrest d hd)]
    cases rest with
    | nil => rfl
    | cons d ds =>
      have hd : d ≠ ':' := fun heq => by
        have hends := hrest d rfl
        rw [heq] at hends
        exact absurd hends (by decide)
      have hcolon : (':' == d) = false := beq_false_of_ne hd.symm
      show (true && ((':' == d) && "//".toList.isPrefixOf ds)) = false
      rw [hcolon]
      rfl
  have hstop : rest.takeWhile (!Package.endsName ·) = [] := by
    cases rest with
    | nil => rfl
    | cons d ds =>
      refine List.takeWhile_cons_of_neg ?_
      rw [hrest d rfl]
      exact Bool.false_ne_true
  have hplain : (c == '#' || c == '-' || Package.startsWithScheme (c :: cs ++ rest)) = false := by
    rw [hstart, Bool.or_false, Bool.or_eq_false_iff]
    exact ⟨beq_false_of_ne (Text.ne_of_class hc (by decide)),
      beq_false_of_ne (Text.ne_of_class hc (by decide))⟩
  have htake : (c :: cs ++ rest).takeWhile (!Package.endsName ·) = c :: cs := by
    rw [List.takeWhile_append_of_pos hkept, hstop, List.append_nil]
  unfold Package.nameOfRequirement?
  rw [htrim]
  show (if (c == '#' || c == '-' || Package.startsWithScheme (c :: cs ++ rest)) = true then none
    else _) = _
  rw [hplain, if_neg Bool.false_ne_true, htake]

/-- A row declares the name that it is written with. -/
theorem nameOfRequirement?_text {row : RequirementRow} (h : row.IsWritten) {blanks : List Char}
    (hblanks : ∀ c ∈ blanks, Text.isSpace c = true) :
    Package.nameOfRequirement? (blanks ++ row.text) = row.name? := by
  have htrim := Text.trim_isSpace_append hblanks row.text
  -- a row that names nothing begins with the sign of its kind, and a name is solid up to its demand
  cases h with
  | blank =>
    unfold Package.nameOfRequirement?
    rw [htrim]
    rfl
  | note text =>
    exact nameOfRequirement?_eq_none
      (htrim.trans (Text.trim_append_cons (by decide) [] text)) (Or.inl rfl)
  | option text =>
    exact nameOfRequirement?_eq_none
      (htrim.trans (Text.trim_append_cons (by decide) [] text)) (Or.inr (Or.inl rfl))
  | @address scheme hne hscheme text =>
    have hsolid : Text.Solid (scheme ++ "://".toList) := by
      refine ⟨List.append_ne_nil_of_left_ne_nil hne _, fun c hc => ?_⟩
      rcases List.mem_append.mp hc with hc | hc
      · exact isSpace_eq_false_of_isSchemeChar (hscheme c hc)
      · have hsigns : "://".toList.all (fun c => !Text.isSpace c) = true := by decide
        have hnot := List.all_eq_true.mp hsigns c hc
        rwa [Bool.not_eq_true'] at hnot
    have hwhole := htrim.trans (Text.trim_solid_append hsolid text)
    have hstart : Package.startsWithScheme (scheme ++ ("://".toList ++ Text.trimEnd text)) =
        true := by
      rw [startsWithScheme_append hscheme fun c hc => by cases hc; decide,
        List.isEmpty_eq_false_iff.mpr hne]
      exact Bool.and_eq_true_iff.mpr
        ⟨rfl, List.isPrefixOf_iff_prefix.mpr (List.prefix_append _ _)⟩
    obtain ⟨c, cs, rfl⟩ := List.exists_cons_of_ne_nil hne
    rw [List.append_assoc] at hwhole
    exact nameOfRequirement?_eq_none hwhole (Or.inr (Or.inr hstart))
  | @requirement first others demand hfirst hothers hdemand =>
    have hname : ∀ c ∈ first :: others, isPackageChar c = true := by
      intro c hc
      rcases List.mem_cons.mp hc with rfl | hc
      · rw [isPackageChar, Text.isWord, hfirst]
        rfl
      · exact hothers c hc
    have hsolid : Text.Solid (first :: others) :=
      ⟨List.cons_ne_nil first others, fun c hc =>
        isSpace_eq_false_of_isSchemeChar (isSchemeChar_of_isPackageChar (hname c hc))⟩
    refine nameOfRequirement?_of_name (htrim.trans (Text.trim_solid_append hsolid demand))
      ⟨first, others, rfl, hfirst⟩ hname fun c hc => hdemand c ?_
    obtain ⟨cs, hcs⟩ := List.head?_eq_some_iff.mp hc
    obtain ⟨more, hmore⟩ := Text.trimEndWhile_isPrefix Text.isSpace demand
    rw [← hmore, show Text.trimEndWhile Text.isSpace demand = c :: cs from hcs]
    rfl

end RequirementRow

/-! ## Files of rows -/

namespace Manifest

/-- A row of a file with the blanks before it. No line ends within it. -/
structure RowLine where
  blanks : List Char
  row : RequirementRow

namespace RowLine

/-- The line as it is written. -/
def text (line : RowLine) : List Char :=
  line.blanks ++ line.row.text

/-- The line is a row behind blanks, and no line ends within it. -/
structure IsWritten (line : RowLine) : Prop where
  blanks : ∀ c ∈ line.blanks, Text.isSpace c = true
  row : line.row.IsWritten
  isLine : ∀ c ∈ line.text, Text.isLineBoundary c = false

/-- A written row has the name that was written, or none. -/
theorem IsWritten.nameIn_eq {line : RowLine} (h : line.IsWritten) :
    nameIn line.text = (line.row.name?.map fun name => Value.string (.ofList name)).toList := by
  rw [nameIn, nameOf?_line, text, RequirementRow.nameOfRequirement?_text h.row h.blanks]

end RowLine

/-- The names that lines declare, as a manifest has them. -/
def namesOf (lines : List RowLine) : List Value :=
  (lines.filterMap fun line => line.row.name?).map fun name => .string (.ofList name)

/-- The name of the first row comes before those of the others. -/
theorem namesOf_cons (line : RowLine) (lines : List RowLine) : namesOf (line :: lines) =
    (line.row.name?.map fun name => Value.string (.ofList name)).toList ++ namesOf lines := by
  unfold namesOf
  rw [List.filterMap_cons]
  cases line.row.name? <;> rfl

/-- The text of lines with their line ends, and of a last line without one. -/
def fileText (lines : List (RowLine × List Char)) (last : RowLine) : List Char :=
  (lines.flatMap fun l => l.1.text ++ l.2) ++ last.text

/-- A text of lines declares the names of its requirements in order. -/
theorem declared_fileText {lines : List (RowLine × List Char)} {last : RowLine}
    (hlines : ∀ l ∈ lines, l.1.IsWritten ∧ l.2 ≠ [] ∧ ∀ c ∈ l.2, Text.isLineBoundary c = true)
    (hlast : last.IsWritten) :
    declared (fileText lines last) = namesOf (lines.map (·.1) ++ [last]) := by
  unfold fileText
  induction lines with
  | nil =>
    show declared last.text = namesOf [last]
    rw [declared_of_forall hlast.isLine, hlast.nameIn_eq, namesOf_cons, namesOf, List.filterMap_nil,
      List.map_nil, List.append_nil]
  | cons l lines ih =>
    obtain ⟨hline, hne, hending⟩ := hlines l List.mem_cons_self
    rw [List.flatMap_cons, List.append_assoc, declared_append_ending hline.isLine hne hending,
      hline.nameIn_eq, ih fun m hm => hlines m (List.mem_cons_of_mem l hm), List.map_cons,
      List.cons_append, namesOf_cons]

/-- A list of requirements is read to the names of its requirements in order; notes, options, bare
addresses and blank lines declare nothing. -/
theorem load_fileText {readers : DocumentReaders} {ws : Workspace} {path : Path}
    {bytes : List UInt8} {lines : List (RowLine × List Char)} {last : RowLine}
    (hname : Kind.isRequirements path.name = true) (hbytes : ws.readBytes path = .ok bytes)
    (htext : Text.decodeStrict? bytes = some (fileText lines last))
    (hlines : ∀ l ∈ lines, l.1.IsWritten ∧ l.2 ≠ [] ∧ ∀ c ∈ l.2, Text.isLineBoundary c = true)
    (hlast : last.IsWritten) :
    load readers ws path =
      .ok (some ⟨path.toString, .python, namesOf (lines.map (·.1) ++ [last])⟩) := by
  have hkind : Kind.ofName? path.name = some .requirements := if_pos hname
  have hread : ws.readStrict path = .ok (some (Text.unifyLineEnds (fileText lines last))) := by
    rw [Workspace.readStrict, hbytes]
    show Except.ok ((Text.decodeStrict? bytes).map Text.unifyLineEnds) = _
    rw [htext]
    rfl
  refine load_of_read hkind hread ?_
  rw [← declared_fileText hlines hlast]
  show Except.ok (some (ofRequirements (String.toList (.ofList _)))) = _
  rw [String.toList_ofList]
  rfl

/-- A list with rows of every kind: names that look like schemes, a requirement that names where it
comes from, line ends of three kinds, and none at the end. -/
def pinnedLines : List (RowLine × List Char) := [
  (⟨[], .note " pinned: http://".toList⟩, ['\r', '\n']),
  (⟨[], .option "r base.txt".toList⟩, ['\n']),
  (⟨[' '], .address "git+https".toList "example.com/pkg.git".toList⟩, ['\r']),
  (⟨['\t'], .requirement "zope.interface".toList " @ https://example.com/z.zip ".toList⟩, ['\n']),
  (⟨[' '], .blank⟩, ['\n']),
  (⟨[], .requirement "uvicorn_2".toList "[standard]>=0.30".toList⟩, ['\n', '\n'])]

theorem load_fileText_pinned :
    load .standard ⟨.dir [("requirements.txt", .file ((fileText pinnedLines
        ⟨[], .requirement "six".toList []⟩).map fun c => .ofNat c.toNat))], []⟩
      ⟨"", ["requirements.txt"]⟩ =
        .ok (some ⟨"requirements.txt", .python,
          [.string "zope.interface", .string "uvicorn_2", .string "six"]⟩) := by
  have hline : ∀ {text : List Char}, text.all (fun c => !Text.isLineBoundary c) = true →
      ∀ c ∈ text, Text.isLineBoundary c = false := fun h c hc => by
    have hnot := List.all_eq_true.mp h c hc
    rwa [Bool.not_eq_true'] at hnot
  have hnone : ∀ c ∈ ([] : List Char), Text.isSpace c = true := List.forall_mem_nil _
  have hblank : ∀ c ∈ [' '], Text.isSpace c = true := List.all_eq_true.mp rfl
  have htab : ∀ c ∈ ['\t'], Text.isSpace c = true := List.all_eq_true.mp rfl
  have hlines : ∀ l ∈ pinnedLines,
      l.1.IsWritten ∧ l.2 ≠ [] ∧ ∀ c ∈ l.2, Text.isLineBoundary c = true := by
    unfold pinnedLines
    simp only [List.forall_mem_cons]
    refine ⟨⟨⟨hnone, .note _, hline rfl⟩, List.cons_ne_nil _ _, rfl, rfl, List.forall_mem_nil _⟩,
      ⟨⟨hnone, .option _, hline rfl⟩, List.cons_ne_nil _ _, rfl, List.forall_mem_nil _⟩,
      ⟨⟨hblank, .address (List.cons_ne_nil _ _) (List.all_eq_true.mp rfl) _, hline rfl⟩,
        List.cons_ne_nil _ _, rfl, List.forall_mem_nil _⟩,
      ⟨⟨htab, .requirement rfl (List.all_eq_true.mp rfl) ?_, hline rfl⟩,
        List.cons_ne_nil _ _, rfl, List.forall_mem_nil _⟩,
      ⟨⟨hblank, .blank, hline rfl⟩, List.cons_ne_nil _ _, rfl, List.forall_mem_nil _⟩,
      ⟨⟨hnone, .requirement rfl (List.all_eq_true.mp rfl) ?_, hline rfl⟩,
        List.cons_ne_nil _ _, rfl, rfl, List.forall_mem_nil _⟩, List.forall_mem_nil _⟩
    · intro c hc
      cases hc
      rfl
    · intro c hc
      cases hc
      rfl
  have hlast : RowLine.IsWritten ⟨[], .requirement "six".toList []⟩ :=
    ⟨hnone, .requirement rfl (List.all_eq_true.mp rfl) (by simp), hline rfl⟩
  exact load_fileText (by decide) (Workspace.readBytes_of_lookup (by decide) rfl)
    (by decide +kernel) hlines hlast

end Manifest

end SourceSurvey
