import SourceSurvey.Proofs.Extract.Name
import SourceSurvey.Proofs.Extract.Shift
import SourceSurvey.Proofs.Finding.Line

/-!
# Findings below a blank line

A line feed before a text neither mentions a name nor calls it, so a blank line before a file moves
what is found in it and changes nothing else. For unused declarations this needs names that begin
with a character of a line.
-/

namespace SourceSurvey

/-! ## Names after a line feed -/

section LineFeed

variable {name : List Char}

/-- No name that begins in a line stands at a line feed. -/
theorem BeginsInLine.not_prefix (h : BeginsInLine name) (text : List Char) :
    name.isPrefixOf ('\n' :: text) = false := by
  obtain ⟨c, cs, rfl, hc⟩ := h.exists_cons
  rw [List.isPrefixOf, beq_false_of_ne hc, Bool.false_and]

theorem isMentionAt_after_lineFeed (name text : List Char) :
    isMentionAt name (some '\n') text = isMentionAt name none text := rfl

theorem hasMentionFrom_after_lineFeed (name text : List Char) :
    hasMentionFrom name (some '\n') text = hasMentionFrom name none text := by
  cases text with
  | nil => exact isMentionAt_after_lineFeed name []
  | cons c cs => rw [hasMentionFrom, hasMentionFrom, isMentionAt_after_lineFeed]

/-- A line feed at the front of a text changes no mention. -/
theorem hasMention_lineFeed (h : BeginsInLine name) (text : List Char) :
    hasMention name ('\n' :: text) = hasMention name text := by
  -- the name is not mentioned at the line feed, and after it as at the start of a text
  rw [hasMention, hasMentionFrom, isMentionAt, h.not_prefix, hasMentionFrom_after_lineFeed,
    Bool.and_false, Bool.false_and, Bool.false_or]
  rfl

theorem callLength?_after_lineFeed (name text : List Char) :
    callLength? name (some '\n') text = callLength? name none text := rfl

/-- No call begins with a line feed. -/
theorem callLength?_lineFeed (h : BeginsInLine name) (text : List Char) :
    callLength? name none ('\n' :: text) = none := by
  show (if (none : Option Char).any (fun p => Text.isNameChar p || p == '#') then none
    else applicationLength? name ('\n' :: text)) = none
  rw [applicationLength?, h.not_prefix]
  rfl

/-- A line feed at the front of a text changes no call. -/
theorem hasCall_lineFeed (h : BeginsInLine name) (text : List Char) :
    hasCall name ('\n' :: text) = hasCall name text := by
  rw [hasCall, hasCallFrom, callLength?_lineFeed h, Option.isSome_none, Bool.false_or, hasCall]
  cases text with
  | nil => rfl
  | cons c cs => rw [hasCallFrom, hasCallFrom, callLength?_after_lineFeed]

theorem dropDeclarations_lineFeed (text : List Char) :
    dropDeclarations ('\n' :: text) = '\n' :: dropDeclarations text := rfl

namespace Unused

/-- A line feed at the front of a text changes no use. -/
theorem isUsedIn_lineFeed (h : BeginsInLine name) (text : List Char) :
    isUsedIn name ('\n' :: text) = isUsedIn name text := by
  rw [isUsedIn, hasCall_lineFeed h, dropDeclarations_lineFeed, hasMention_lineFeed h]
  rfl

end Unused

end LineFeed

/-! ## Findings moved down -/

/-- The value so many lines further down. -/
def HardcodedLiteral.shift (k : Nat) (h : HardcodedLiteral) : HardcodedLiteral :=
  { h with line := h.line + k }

/-- The note so many lines further down. -/
def MarkerNote.shift (k : Nat) (m : MarkerNote) : MarkerNote :=
  { m with line := m.line + k }

/-- The unused declaration so many lines further down. -/
def UnusedName.shift (k : Nat) (u : UnusedName) : UnusedName :=
  { u with line := u.line + k }

theorem HardcodedLiteral.shift_zero (h : HardcodedLiteral) : h.shift 0 = h := rfl

theorem HardcodedLiteral.shift_shift (j k : Nat) (h : HardcodedLiteral) :
    (h.shift j).shift k = h.shift (j + k) := by
  rw [shift, shift, shift, Nat.add_assoc]

theorem MarkerNote.shift_zero (m : MarkerNote) : m.shift 0 = m := rfl

theorem MarkerNote.shift_shift (j k : Nat) (m : MarkerNote) :
    (m.shift j).shift k = m.shift (j + k) := by
  rw [shift, shift, shift, Nat.add_assoc]

theorem UnusedName.shift_zero (u : UnusedName) : u.shift 0 = u := rfl

theorem UnusedName.shift_shift (j k : Nat) (u : UnusedName) :
    (u.shift j).shift k = u.shift (j + k) := by
  rw [shift, shift, shift, Nat.add_assoc]

/-! ## Line by line -/

section Numbered

variable {α β : Type} {shift : β → β} {blank : α}

theorem zipIdx_two (as : List α) :
    as.zipIdx 2 = (as.zipIdx 1).map (Prod.map id (· + 1)) :=
  List.zipIdx_succ

/-- What is found on numbered lines moves down under a blank line on which nothing is found. -/
theorem zipIdx_flatMap_blank {found : α × Nat → List β} (hblank : found (blank, 1) = [])
    (h : ∀ q, found (q.1, q.2 + 1) = (found q).map shift) (as : List α) :
    ((blank :: as).zipIdx 1).flatMap found = ((as.zipIdx 1).flatMap found).map shift := by
  rw [List.zipIdx_cons, List.flatMap_cons, hblank, List.nil_append, zipIdx_two, List.flatMap_map,
    List.map_flatMap]
  exact congrArg (List.flatMap · _) (funext h)

end Numbered

namespace Hardcoded

theorem ofLine_succ (style : CommentRules) (n : Nat) (line code : Line) :
    ofLine style (n + 1) line code = (ofLine style n line code).map (·.shift 1) := by
  unfold ofLine
  rw [apply_ite (List.map _), List.map_map]
  rfl

theorem ofMarkupLine_succ (n : Nat) (code : Line) :
    ofMarkupLine (n + 1) code = (ofMarkupLine n code).map (·.shift 1) := by
  unfold ofMarkupLine
  rw [apply_ite (List.map _)]
  split
  · rfl
  · split
    · rw [← Option.toList_map, Option.map_map]
      rfl
    · rw [List.map_map]
      rfl

/-- A blank line at the top moves the hardcoded values of code. -/
theorem ofCode_blank (style : CommentRules) (lines : List Line) :
    ofCode style ([] :: lines) = (ofCode style lines).map (·.shift 1) := by
  unfold ofCode
  rw [style.strip_blank, List.zip_cons_cons]
  exact zipIdx_flatMap_blank rfl (fun q => ofLine_succ style q.2 q.1.1 q.1.2) _

/-- A blank line at the top moves the hardcoded values of markup. -/
theorem ofMarkup_blank (lines : List Line) :
    ofMarkup ([] :: lines) = (ofMarkup lines).map (·.shift 1) := by
  unfold ofMarkup
  rw [CommentRules.strip_blank]
  exact zipIdx_flatMap_blank rfl (fun q => ofMarkupLine_succ q.2 q.1) _

end Hardcoded

namespace Marker

theorem ofLine_succ (n : Nat) (line : Line) :
    ofLine (n + 1) line = (ofLine n line).map (·.shift 1) := by
  unfold ofLine
  rw [Option.map_map]
  rfl

/-- A blank line at the top moves the notes. -/
theorem ofLines_blank (lines : List Line) :
    ofLines ([] :: lines) = (ofLines lines).map (·.shift 1) := by
  unfold ofLines
  rw [List.zipIdx_cons, List.filterMap_cons_none rfl, zipIdx_two]
  exact Extract.filterMap_map_of_shift (fun q => ofLine_succ q.2 q.1) _

end Marker

/-! ## Unused declarations -/

/-- What a line feed at the front does not change, a blank line at the top does not change either.
-/
theorem apply_joinLines_blank {β : Type} {f : List Char → β}
    (h : ∀ text, f ('\n' :: text) = f text) (lines : List Line) :
    f (Text.joinLines ([] :: lines)) = f (Text.joinLines lines) := by
  cases lines with
  | nil => rfl
  | cons line lines =>
    rw [Text.joinLines, List.intercalate_cons_cons]
    exact h _

namespace Unused

/-- A reading that a line feed before the text does not change is not changed by a blank line before
the file. -/
theorem apply_textWithout_blank {β : Type} {f : List Char → β}
    (h : ∀ text, f ('\n' :: text) = f text) {isExcluded isExcluded' : Nat → Bool}
    (hfirst : isExcluded' 1 = false) (hsucc : ∀ n, isExcluded' (n + 1) = isExcluded n)
    (lines : List Line) :
    f (textWithout isExcluded' ([] :: lines)) = f (textWithout isExcluded lines) := by
  have hblank : (!isExcluded' 1) = true := by rw [hfirst]; rfl
  -- the blank line comes first among those kept, and the others have their numbers plus one
  have hkept : ((([] :: lines).zipIdx 1).filter fun q => !isExcluded' q.2).map (·.1) =
      [] :: ((lines.zipIdx 1).filter fun q => !isExcluded q.2).map (·.1) := by
    rw [List.zipIdx_cons, List.filter_cons, if_pos hblank, List.map_cons, zipIdx_two,
      List.filter_map, List.map_map]
    refine congrArg _ (congrArg₂ List.map rfl (List.filter_congr fun q _ => ?_))
    exact congrArg (!·) (hsucc q.2)
  show f (Text.joinLines (((([] :: lines).zipIdx 1).filter fun q => !isExcluded' q.2).map (·.1))) =
    f (textWithout isExcluded lines)
  rw [hkept]
  exact apply_joinLines_blank h _

/-- Moved imports stand on the moved lines. -/
theorem isImportLine_shift (declared : List ImportStatement) (n : Nat) :
    isImportLine (declared.map (·.shift 1)) (n + 1) = isImportLine declared n := by
  unfold isImportLine
  rw [List.any_map]
  refine congrArg (List.any _) (funext fun i => ?_)
  show (decide (i.line + 1 ≤ n + 1) && decide (n + 1 ≤ i.endLine + 1)) =
    (decide (i.line ≤ n) && decide (n ≤ i.endLine))
  simp only [Nat.add_le_add_iff_right]

/-- No moved import stands on the first line. -/
theorem isImportLine_shift_one {declared : List ImportStatement}
    (h : ∀ i ∈ declared, 1 ≤ i.line) : isImportLine (declared.map (·.shift 1)) 1 = false := by
  -- the first line would be line zero of the file without it
  rw [isImportLine_shift declared 0, isImportLine, List.any_eq_false]
  intro i hi
  have hline := h i hi
  simp
  omega

/-- A blank line at the top moves the unused imports. -/
theorem imports_blank {code : List Line} {declared : List ImportStatement}
    (hlines : ∀ i ∈ declared, 1 ≤ i.line)
    (hnames : ∀ i ∈ declared, ∀ name ∈ i.names, name.toList.head? ≠ some '\n') :
    imports ([] :: code) (declared.map (·.shift 1)) =
      (imports code declared).map (·.shift 1) := by
  have hmention : ∀ i ∈ declared, ∀ name ∈ i.names,
      (isChecked name && !hasMention name.toList
        (textWithout (isImportLine (declared.map (·.shift 1))) ([] :: code))) =
      (isChecked name && !hasMention name.toList (textWithout (isImportLine declared) code)) := by
    intro i hi name hname
    cases hchecked : isChecked name with
    | false => rfl
    | true =>
      -- names that are checked have two characters or more
      have hlength : 1 < name.length := by
        unfold isChecked at hchecked
        simp only [Bool.and_eq_true, decide_eq_true_eq] at hchecked
        exact hchecked.1.2
      have hbegins : BeginsInLine name.toList := by
        refine ⟨fun hnil => ?_, hnames i hi name hname⟩
        rw [← String.length_toList, hnil] at hlength
        cases hlength
      rw [apply_textWithout_blank (hasMention_lineFeed hbegins)
        (isImportLine_shift_one hlines) (isImportLine_shift declared)]
  unfold imports
  dsimp only
  rw [List.filter_map, List.flatMap_map, List.map_flatMap]
  refine List.flatMap_congr fun i hi => ?_
  rw [List.map_map]
  exact congrArg₂ List.map rfl
    (List.filter_congr fun name hname => hmention i (List.mem_filter.mp hi).1 name hname)

/-- The first line is no line of a moved declaration. -/
theorem isOwnLine_first (own : Nat) (h : 1 ≤ own) : (1 == own + 1) = false := by
  rw [beq_eq_false_iff_ne]
  omega

theorem isOwnLine_succ (own n : Nat) : (n + 1 == own + 1) = (n == own) := by
  rw [Bool.eq_iff_iff, beq_iff_eq, beq_iff_eq, Nat.add_right_cancel_iff]

/-- A blank line at the top moves the unused routines. -/
theorem routines_blank {lines : List Line} {declared : List Routine}
    (hlines : ∀ c ∈ declared, 1 ≤ c.line) (hnames : ∀ c ∈ declared, BeginsInLine c.name.toList) :
    routines ([] :: lines) (declared.map (·.shift 1)) =
      (routines lines declared).map (·.shift 1) := by
  unfold routines
  rw [List.filter_map, List.map_map, List.map_map]
  refine congrArg₂ List.map rfl (List.filter_congr fun c hc => ?_)
  have hline := hlines c hc
  have hexpected : isExpected (c.shift 1) = isExpected c := by
    have hzero : (c.line + 1 != 0) = (c.line != 0) := by
      rw [bne_iff_ne.mpr (Nat.succ_ne_zero c.line), bne_iff_ne.mpr (by omega)]
    show (_ && _ && (c.line + 1 != 0)) = (_ && _ && (c.line != 0))
    rw [hzero]
    rfl
  rw [Function.comp_apply, hexpected]
  exact congrArg (isExpected c && !·)
    (apply_textWithout_blank (isUsedIn_lineFeed (hnames c hc)) (isOwnLine_first c.line hline)
      (isOwnLine_succ c.line) lines)

/-- A blank line at the top moves the line that declares a constant. -/
theorem declaringLine?_blank {name : List Char} (h : BeginsInLine name) (lines code : List Line) :
    declaringLine? name ([] :: lines) ([] :: code) =
      (declaringLine? name lines code).map (· + 1) := by
  have hblank : declares name [] [] = false := by
    obtain ⟨c, cs, rfl, -⟩ := h.exists_cons
    rfl
  unfold declaringLine?
  rw [List.zip_cons_cons, List.zipIdx_cons, List.find?_cons_of_neg, zipIdx_two, List.find?_map,
    Option.map_map, Option.map_map]
  · rfl
  · dsimp only
    rw [hblank]
    exact Bool.false_ne_true

/-- A blank line at the top moves the unused constants. -/
theorem globals_blank {lines code : List Line} {declared : List Slot}
    (hnames : ∀ g ∈ declared, BeginsInLine g.name.toList) :
    globals ([] :: lines) ([] :: code) declared =
      (globals lines code declared).map (·.shift 1) := by
  unfold globals
  rw [List.map_filterMap]
  refine List.filterMap_congr fun slot hslot => ?_
  dsimp only
  rw [declaringLine?_blank (hnames slot hslot)]
  cases hline : declaringLine? slot.name.toList lines code with
  | none => rfl
  | some n =>
    -- the declaring line is a line of the file, so it is not the blank one
    have hpos : 1 ≤ n := (mem_lineNumbers.mp (declaringLine?_mem hline)).1
    dsimp only [Option.map_some]
    rw [apply_textWithout_blank (hasMention_lineFeed (hnames slot hslot))
      (isOwnLine_first n hpos) (isOwnLine_succ n), apply_ite (Option.map _)]
    rfl

/-- A blank line before a file moves the unused declarations in it. -/
theorem ofLines_blank {lines : List Line} {found : Extraction} (style : CommentRules)
    (hplaced : found.WellPlaced lines.length) (hnames : found.NamesBeginInLine) :
    ofLines ([] :: lines) (found.shift 1) style =
      (ofLines lines found style).map (·.shift 1) := by
  have hroutines : (found.shift 1).routines ++ (found.shift 1).types.flatMap (·.methods) =
      (found.routines ++ found.types.flatMap (·.methods)).map (·.shift 1) := by
    show found.routines.map (·.shift 1) ++ (found.types.map (·.shift 1)).flatMap (·.methods) = _
    rw [flatMap_methods_shift, List.map_append]
  have himportLines : ∀ i ∈ found.imports, 1 ≤ i.line := fun i hi =>
    (hplaced.imports_within i hi).1
  have hroutineLines : ∀ c ∈ found.routines ++ found.types.flatMap (·.methods), 1 ≤ c.line :=
    fun c hc => (mem_lineNumbers.mp (hplaced.routine_or_method_mem c hc)).1
  unfold ofLines
  dsimp only
  rw [style.strip_blank, hroutines, routines_blank hroutineLines hnames.routine_or_method,
    List.map_append, List.map_append]
  exact congrArg₂ (· ++ ·)
    (congrArg₂ (· ++ ·) (imports_blank himportLines hnames.imports) rfl)
    (globals_blank hnames.globals)

end Unused

end SourceSurvey
