import SourceSurvey.Extract.Css
import SourceSurvey.Extract.Html
import SourceSurvey.Extract.Php
import SourceSurvey.Extract.Python
import SourceSurvey.Proofs.Place.Append
import Mathlib.Data.List.Basic

/-!
# Extraction below a blank line

What an extractor finds at a place is found at the place moved down by a blank line, with its lines
moved down and unchanged otherwise. Main statement: a blank line before a file moves the lines of
what the file declares and changes nothing else, for each of the five extractors.
-/

namespace SourceSurvey

/-! ## Declarations moved down -/

/-- The routine so many lines further down. -/
def Routine.shift (k : Nat) (c : Routine) : Routine :=
  { c with line := c.line + k }

/-- The type so many lines further down, with its methods. -/
def TypeDeclaration.shift (k : Nat) (t : TypeDeclaration) : TypeDeclaration :=
  { t with methods := t.methods.map (·.shift k), line := t.line + k }

/-- The import so many lines further down. -/
def ImportStatement.shift (k : Nat) (i : ImportStatement) : ImportStatement :=
  { i with line := i.line + k, endLine := i.endLine + k }

/-- What is declared, so many lines further down. -/
def Extraction.shift (k : Nat) (e : Extraction) : Extraction :=
  { e with
    imports := e.imports.map (·.shift k)
    types := e.types.map (·.shift k)
    routines := e.routines.map (·.shift k)
    riskPoints := e.riskPoints.map (· + k) }

theorem map_shift_zero {α : Type} {shift : Nat → α → α} (h : ∀ a, shift 0 a = a) (as : List α) :
    as.map (shift 0) = as :=
  List.map_id'' h as

theorem map_shift_shift {α : Type} {shift : Nat → α → α}
    (h : ∀ j k a, shift k (shift j a) = shift (j + k) a) (j k : Nat) (as : List α) :
    (as.map (shift j)).map (shift k) = as.map (shift (j + k)) := by
  rw [List.map_map]
  exact List.map_congr_left fun a _ => h j k a

theorem Routine.shift_zero (c : Routine) : c.shift 0 = c := rfl

theorem Routine.shift_shift (j k : Nat) (c : Routine) : (c.shift j).shift k = c.shift (j + k) := by
  rw [shift, shift, shift, Nat.add_assoc]

theorem TypeDeclaration.shift_zero (t : TypeDeclaration) : t.shift 0 = t := by
  rw [shift, map_shift_zero Routine.shift_zero]
  rfl

theorem TypeDeclaration.shift_shift (j k : Nat) (t : TypeDeclaration) :
    (t.shift j).shift k = t.shift (j + k) := by
  rw [shift, shift, shift, map_shift_shift Routine.shift_shift, Nat.add_assoc]

theorem ImportStatement.shift_zero (i : ImportStatement) : i.shift 0 = i := rfl

theorem ImportStatement.shift_shift (j k : Nat) (i : ImportStatement) :
    (i.shift j).shift k = i.shift (j + k) := by
  rw [shift, shift, shift, Nat.add_assoc, Nat.add_assoc]

/-- An import over several lines moves with its first and its last line. -/
theorem ImportStatement.shift_spanning (module : String) (names : List String) (isFrom : Bool)
    (first last k : Nat) :
    (spanning module names isFrom first last).shift k =
      spanning module names isFrom (first + k) (last + k) := by
  have hmax : max first last + k = max (first + k) (last + k) := by omega
  rw [spanning, shift, hmax]
  rfl

/-- The methods of types that move are the methods of the types, moved. -/
theorem flatMap_methods_shift (k : Nat) (types : List TypeDeclaration) :
    (types.map (·.shift k)).flatMap (·.methods) = (types.flatMap (·.methods)).map (·.shift k) := by
  rw [List.flatMap_map, List.map_flatMap]
  rfl

/-- An extraction is another one moved when its lists with lines are moved and the rest is the same.
-/
theorem Extraction.eq_shift {e e' : Extraction} {k : Nat}
    (himports : e'.imports = e.imports.map (·.shift k))
    (htypes : e'.types = e.types.map (·.shift k))
    (hroutines : e'.routines = e.routines.map (·.shift k)) (hglobals : e'.globals = e.globals)
    (herrors : e'.errorNames = e.errorNames)
    (hrisks : e'.riskPoints = e.riskPoints.map (· + k)) : e' = e.shift k := by
  rw [shift, ← himports, ← htypes, ← hroutines, ← hglobals, ← herrors, ← hrisks]

namespace Extract

/-! ## Reading line by line -/

section Places

variable {α β γ : Type} {move : α → γ} {shift : β → β}

/-- A reader that finds the moved statements at moved places finds the moved list. -/
theorem readStatements_map {read : α → List β × Nat} {read' : γ → List β × Nat}
    (h : ∀ a, read' (move a) = ((read a).1.map shift, (read a).2)) (skip : Nat) (as : List α) :
    readStatements read' skip (as.map move) = (readStatements read skip as).map shift := by
  induction as generalizing skip with
  | nil => cases skip <;> rfl
  | cons a as ih =>
    cases skip with
    | zero => rw [List.map_cons, readStatements, readStatements, h, List.map_append, ← ih]
    | succ skip => rw [List.map_cons, readStatements, readStatements, ih]

/-- A blank line before the places that statements are read at. -/
theorem readStatements_blank {read : α → List β × Nat} {read' : γ → List β × Nat} {blank : γ}
    (hblank : read' blank = ([], 0)) (h : ∀ a, read' (move a) = ((read a).1.map shift, (read a).2))
    (as : List α) :
    readStatements read' 0 (blank :: as.map move) = (readStatements read 0 as).map shift := by
  rw [readStatements, hblank, ← readStatements_map h]
  rfl

/-- What finds the moved declaration at a moved place finds the moved list. -/
theorem filterMap_map_of_shift {find : α → Option β} {find' : γ → Option β}
    (h : ∀ a, find' (move a) = (find a).map shift) (as : List α) :
    (as.map move).filterMap find' = (as.filterMap find).map shift := by
  rw [List.filterMap_map, List.map_filterMap]
  exact List.filterMap_congr fun a _ => h a

/-- A blank line before the places that declarations are found at. -/
theorem filterMap_blank {find : α → Option β} {find' : γ → Option β} {blank : γ}
    (hblank : find' blank = none) (h : ∀ a, find' (move a) = (find a).map shift) (as : List α) :
    (blank :: as.map move).filterMap find' = (as.filterMap find).map shift := by
  rw [List.filterMap_cons_none hblank, filterMap_map_of_shift h]

/-- A blank line before the places that texts are found at. -/
theorem filterMap_blank_of_eq {find : α → Option β} {find' : γ → Option β} {blank : γ}
    (hblank : find' blank = none) (h : ∀ a, find' (move a) = find a) (as : List α) :
    (blank :: as.map move).filterMap find' = as.filterMap find := by
  rw [List.filterMap_cons_none hblank, List.filterMap_map]
  exact List.filterMap_congr fun a _ => h a

/-- A blank line before the places whose code is read. -/
theorem flatMap_code_blank {read : Line → List β} (h : read [] = []) (lines : List SourceLine)
    (ps : List Place) :
    (.atBlank lines :: ps.map Place.underBlank).flatMap (fun p => read p.code) =
      ps.flatMap fun p => read p.code := by
  have hnothing : read (Place.atBlank lines).code = [] := h
  rw [List.flatMap_cons, hnothing, List.nil_append, List.flatMap_map]
  rfl

/-- A pattern that no empty line has matches one line further down. -/
theorem linesMatching_underBlank {p : Pattern Unit} (h : p.matches? [] = false)
    (lines : List SourceLine) (ps : List Place) :
    linesMatching p (.atBlank lines :: ps.map Place.underBlank) =
      (linesMatching p ps).map (· + 1) := by
  have hblank : ¬ p.matches? (Text.trim (Place.atBlank lines).code) = true := by
    show ¬ p.matches? [] = true
    rw [h]
    exact Bool.false_ne_true
  unfold linesMatching
  rw [List.filter_cons, if_neg hblank, List.filter_map, List.map_map, List.map_map]
  exact List.map_congr_left fun p _ => p.number_underBlank

end Places

/-! ## Python files -/

namespace Python

theorem importsAt_atBlank (lines : List SourceLine) : importsAt (.atBlank lines) = ([], 0) := rfl

theorem importsAt_underBlank (p : Place) :
    importsAt p.underBlank = ((importsAt p).1.map (·.shift 1), (importsAt p).2) := by
  unfold importsAt
  dsimp only
  rw [Place.code_underBlank, Place.below_underBlank, Place.number_underBlank]
  split
  · rw [List.map_singleton, ImportStatement.shift_spanning, Nat.add_right_comm]
  · split
    · rw [List.map_filterMap]
      congr 1
      refine List.filterMap_congr fun entry _ => ?_
      rw [Option.map_map]
      refine Option.map_congr fun module _ => ?_
      rw [Function.comp_apply, ImportStatement.shift_spanning, Nat.add_right_comm]
    · rfl

theorem functionAt_underBlank (p : Place) (isAsync : Bool) (name : List Char) :
    functionAt p.underBlank isAsync name = (functionAt p isAsync name).shift 1 := by
  unfold functionAt Routine.shift
  rw [Place.header_underBlank, Place.decorators_underBlank (by decide), Place.number_underBlank,
    Place.indentedBody_underBlank, Place.map_code_map_underBlank]

theorem topLevelFunction?_atBlank (lines : List SourceLine) :
    topLevelFunction? (.atBlank lines) = none := rfl

theorem topLevelFunction?_underBlank (p : Place) :
    topLevelFunction? p.underBlank = (topLevelFunction? p).map (·.shift 1) := by
  unfold topLevelFunction?
  rw [Place.code_underBlank]
  split
  · rw [functionAt_underBlank]
    rfl
  · rfl

theorem methodAt?_underBlank (baseline : Nat) (p : Place) :
    methodAt? baseline p.underBlank = (methodAt? baseline p).map (·.shift 1) := by
  unfold methodAt?
  rw [Place.code_underBlank]
  split
  · split
    · rw [functionAt_underBlank]
      rfl
    · rfl
  · rfl

/-- The indentation of a class body does not change. -/
theorem baseline?_map_underBlank (body : List Place) :
    baseline? (body.map Place.underBlank) = baseline? body := by
  rw [baseline?, List.find?_map, Option.map_map]
  rfl

theorem classAt?_atBlank (lines : List SourceLine) : classAt? (.atBlank lines) = none := rfl

theorem classAt?_underBlank (p : Place) :
    classAt? p.underBlank = (classAt? p).map (·.shift 1) := by
  unfold classAt?
  rw [Place.code_underBlank, Place.header_underBlank, Place.decorators_underBlank (by decide),
    Place.number_underBlank, Place.indentedBody_underBlank]
  split
  · rfl
  · dsimp only
    rw [baseline?_map_underBlank]
    cases baseline? p.indentedBody with
    | none => rfl
    | some baseline =>
      have hmethods := filterMap_map_of_shift (methodAt?_underBlank baseline) p.indentedBody
      have hattributes : (p.indentedBody.map Place.underBlank).flatMap (attributesAt baseline) =
          p.indentedBody.flatMap (attributesAt baseline) := by
        rw [List.flatMap_map]
        rfl
      dsimp only
      rw [hmethods, hattributes]
      rfl

theorem constantAt?_atBlank (lines : List SourceLine) : constantAt? (.atBlank lines) = none := rfl

theorem constantAt?_underBlank (p : Place) : constantAt? p.underBlank = constantAt? p := rfl

/-- A blank line before a file moves what it declares. -/
theorem extract_blank (lines : List Line) : extract ([] :: lines) = (extract lines).shift 1 := by
  unfold extract
  rw [sourceLines_blank, places_blank]
  dsimp only
  refine Extraction.eq_shift ?_ ?_ ?_ ?_ ?_ ?_ <;> dsimp only
  · exact readStatements_blank (importsAt_atBlank _) importsAt_underBlank _
  · exact filterMap_blank (classAt?_atBlank _) classAt?_underBlank _
  · exact filterMap_blank (topLevelFunction?_atBlank _) topLevelFunction?_underBlank _
  · rw [filterMap_blank_of_eq (constantAt?_atBlank _) constantAt?_underBlank]
  · exact congrArg distinct (flatMap_code_blank rfl _ _)
  · exact linesMatching_underBlank rfl _ _

end Python

/-! ## Files of brace languages -/

/-- What a line of a type body declares, with its method further down. -/
def shiftMember (member : Option Routine × List Slot) : Option Routine × List Slot :=
  (member.1.map (·.shift 1), member.2)

/-- The members of a type body move as its lines do. -/
theorem membersOfBody_underBlank {membersAt : Int → Place → Option Routine × List Slot}
    (h : ∀ depth p, membersAt depth p.underBlank = shiftMember (membersAt depth p))
    (assignedSlots : Line → List Slot) (p : Place) :
    membersOfBody assignedSlots membersAt p.underBlank =
      (membersOfBody assignedSlots membersAt p).map shiftMember := by
  unfold membersOfBody
  rw [bodyWithDepths_underBlank]
  cases bodyWithDepths p with
  | nil => rfl
  | cons header body =>
    rw [List.map_cons]
    dsimp only
    rw [List.map_cons, List.map_map, List.map_map]
    exact congrArg₂ List.cons rfl (List.map_congr_left fun q _ => h q.1 q.2)

/-- The methods among moved members are the methods, moved. -/
theorem filterMap_map_shiftMember (members : List (Option Routine × List Slot)) :
    (members.map shiftMember).filterMap (·.1) = (members.filterMap (·.1)).map (·.shift 1) := by
  rw [List.filterMap_map, List.map_filterMap]
  rfl

/-- The attributes among moved members are the same attributes. -/
theorem flatMap_map_shiftMember (members : List (Option Routine × List Slot)) :
    (members.map shiftMember).flatMap (·.2) = members.flatMap (·.2) := by
  rw [List.flatMap_map]
  rfl

namespace JavaScript

theorem importsAt_atBlank (lines : List SourceLine) : importsAt (.atBlank lines) = ([], 0) := rfl

theorem importsAt_underBlank (p : Place) :
    importsAt p.underBlank = ((importsAt p).1.map (·.shift 1), (importsAt p).2) := by
  unfold importsAt
  dsimp only
  rw [Place.code_underBlank, Place.below_underBlank, Place.number_underBlank,
    Place.rawFromHere_underBlank]
  split
  · rfl
  · split
    · rw [List.map_singleton, ImportStatement.shift_spanning, Nat.add_right_comm]
    · split
      · rw [List.map_singleton, ImportStatement.shift_spanning]
      · split
        · rw [List.map_singleton, ImportStatement.shift_spanning]
        · rfl

theorem routineAt_underBlank (p : Place) (bound : List Char) (slots : List Slot) (type : String)
    (modifiers : List String) (isAsync : Bool) :
    routineAt p.underBlank bound slots type modifiers isAsync =
      (routineAt p bound slots type modifiers isAsync).shift 1 := by
  unfold routineAt Routine.shift
  rw [Place.decorators_underBlank (by decide), Place.number_underBlank, Place.braceBody_underBlank]

theorem topLevelFunction?_atBlank (lines : List SourceLine) :
    topLevelFunction? (.atBlank lines) = none := rfl

theorem topLevelFunction?_underBlank (p : Place) :
    topLevelFunction? p.underBlank = (topLevelFunction? p).map (·.shift 1) := by
  unfold topLevelFunction?
  rw [Place.code_underBlank, Place.header_underBlank]
  split
  · dsimp only
    rw [routineAt_underBlank]
    rfl
  · split
    · rw [routineAt_underBlank]
      rfl
    · dsimp only
      split
      · rw [routineAt_underBlank, apply_ite (Option.map _)]
        rfl
      · rfl
    · rfl

theorem member?_underBlank (p : Place) :
    member? p.underBlank = (member? p).map (·.shift 1) := by
  unfold member?
  rw [Place.code_underBlank, Place.header_underBlank]
  split
  · rw [routineAt_underBlank]
    rfl
  · dsimp only
    rw [routineAt_underBlank]
    rfl
  · split
    · rfl
    · dsimp only
      rw [routineAt_underBlank, apply_ite (Option.map _)]
      rfl

theorem membersAt_underBlank (depth : Int) (p : Place) :
    membersAt depth p.underBlank = shiftMember (membersAt depth p) := by
  unfold membersAt
  rw [Place.code_underBlank, member?_underBlank]
  dsimp only
  split
  · cases member? p with
    | none => rfl
    | some method => rfl
  · rfl

theorem classAt?_atBlank (lines : List SourceLine) : classAt? (.atBlank lines) = none := rfl

theorem classAt?_underBlank (p : Place) :
    classAt? p.underBlank = (classAt? p).map (·.shift 1) := by
  unfold classAt?
  rw [Place.code_underBlank, Place.decorators_underBlank (by decide), Place.number_underBlank,
    membersOfBody_underBlank membersAt_underBlank]
  split
  · rfl
  · dsimp only
    rw [filterMap_map_shiftMember, flatMap_map_shiftMember]
    rfl

/-- Functions outside all braces. -/
theorem topLevelFunctions_blank (ps : List Place) (lines : List SourceLine) :
    topLevelFunctions (.atBlank lines :: ps.map Place.underBlank) =
      (topLevelFunctions ps).map (·.shift 1) := by
  unfold topLevelFunctions
  rw [placesWithDepths_blank]
  refine filterMap_blank ?_ (fun q => ?_) _
  · exact topLevelFunction?_atBlank lines
  · dsimp only [Prod.map]
    rw [topLevelFunction?_underBlank, apply_ite (Option.map _)]
    rfl

/-- A blank line raises and catches nothing. -/
theorem errorNames_blank (ps : List Place) (lines : List SourceLine) :
    errorNames (.atBlank lines :: ps.map Place.underBlank) = errorNames ps := by
  unfold errorNames
  rw [flatMap_code_blank rfl]

theorem constantAt?_atBlank (lines : List SourceLine) : constantAt? (.atBlank lines) = none := rfl

theorem constantAt?_underBlank (p : Place) : constantAt? p.underBlank = constantAt? p := rfl

/-- A blank line before a file moves what it declares. -/
theorem extract_blank (lines : List Line) : extract ([] :: lines) = (extract lines).shift 1 := by
  unfold extract
  rw [sourceLines_blank, places_blank]
  dsimp only
  rw [placesWithDepths_blank]
  refine Extraction.eq_shift ?_ ?_ ?_ ?_ ?_ ?_ <;> dsimp only
  · exact readStatements_blank (importsAt_atBlank _) importsAt_underBlank _
  · exact filterMap_blank (classAt?_atBlank _) classAt?_underBlank _
  · exact topLevelFunctions_blank _ _
  · rw [filterMap_blank_of_eq]
    · exact constantAt?_atBlank (sourceLines .slash lines)
    · intro q
      obtain ⟨depth, p⟩ := q
      show (if depth = 0 then constantAt? p.underBlank else none) = _
      rw [constantAt?_underBlank]
  · exact errorNames_blank _ _
  · exact linesMatching_underBlank rfl _ _

end JavaScript

namespace Php

theorem importsAt_atBlank (lines : List SourceLine) : importsAt (0, .atBlank lines) = ([], 0) := rfl

theorem importsAt_underBlank (q : Nat × Place) :
    importsAt (Prod.map id Place.underBlank q) =
      ((importsAt q).1.map (·.shift 1), (importsAt q).2) := by
  obtain ⟨depth, p⟩ := q
  unfold importsAt
  dsimp only [Prod.map, id_eq]
  rw [Place.code_underBlank, Place.below_underBlank, Place.number_underBlank,
    Place.raw_underBlank]
  split
  · rw [List.map_map]
    congr 1
    refine List.map_congr_left fun pair _ => ?_
    rw [Function.comp_apply, ImportStatement.shift_spanning, Nat.add_right_comm]
  · split
    · split
      · rw [List.map_singleton, ImportStatement.shift_spanning]
      · rfl
    · rfl

theorem functionAt_underBlank (p : Place) (bound : List Char) (modifiers : List String) :
    functionAt p.underBlank bound modifiers = (functionAt p bound modifiers).shift 1 := by
  unfold functionAt Routine.shift
  rw [Place.decorators_underBlank (by decide), Place.number_underBlank, Place.braceBody_underBlank,
    Place.header_underBlank]

theorem membersAt_underBlank (depth : Int) (p : Place) :
    membersAt depth p.underBlank = shiftMember (membersAt depth p) := by
  unfold membersAt
  rw [Place.code_underBlank]
  dsimp only
  split
  · split
    · rw [functionAt_underBlank]
      rfl
    · rfl
  · rfl

theorem typeAt?_atBlank (lines : List SourceLine) : typeAt? (.atBlank lines) = none := rfl

theorem typeAt?_underBlank (p : Place) : typeAt? p.underBlank = (typeAt? p).map (·.shift 1) := by
  unfold typeAt?
  rw [Place.code_underBlank, Place.decorators_underBlank (by decide), Place.number_underBlank,
    membersOfBody_underBlank membersAt_underBlank]
  split
  · rfl
  · dsimp only
    rw [filterMap_map_shiftMember, flatMap_map_shiftMember]
    rfl

/-- The function declared at a place outside all braces. -/
def topLevelFunction? (q : Nat × Place) : Option Routine :=
  if q.1 = 0 then (functionStart.matchStart? q.2.code).map fun bound => functionAt q.2 bound []
  else none

theorem topLevelFunction?_atBlank (lines : List SourceLine) :
    topLevelFunction? (0, .atBlank lines) = none := rfl

theorem topLevelFunction?_underBlank (q : Nat × Place) :
    topLevelFunction? (Prod.map id Place.underBlank q) =
      (topLevelFunction? q).map (·.shift 1) := by
  unfold topLevelFunction?
  dsimp only [Prod.map, id_eq]
  rw [apply_ite (Option.map _), Option.map_map, Place.code_underBlank]
  simp only [functionAt_underBlank]
  rfl

theorem constantAt?_atBlank (lines : List SourceLine) :
    constantAt? (0, .atBlank lines) = none := rfl

theorem constantAt?_underBlank (q : Nat × Place) :
    constantAt? (Prod.map id Place.underBlank q) = constantAt? q := rfl

/-- A blank line before a file moves what it declares. -/
theorem extract_blank (lines : List Line) : extract ([] :: lines) = (extract lines).shift 1 := by
  unfold extract
  rw [sourceLines_blank, places_blank]
  dsimp only
  rw [placesWithDepths_blank]
  refine Extraction.eq_shift ?_ ?_ ?_ ?_ ?_ ?_ <;> dsimp only
  · exact readStatements_blank (importsAt_atBlank _) importsAt_underBlank _
  · exact filterMap_blank (typeAt?_atBlank _) typeAt?_underBlank _
  · exact filterMap_blank (topLevelFunction?_atBlank _) topLevelFunction?_underBlank _
  · rw [filterMap_blank_of_eq (constantAt?_atBlank _) constantAt?_underBlank]
  · exact congrArg distinct (flatMap_code_blank rfl _ _)
  · exact linesMatching_underBlank rfl _ _

end Php

namespace Css

theorem importAt?_atBlank (lines : List SourceLine) : importAt? (.atBlank lines) = none := rfl

theorem importAt?_underBlank (p : Place) :
    importAt? p.underBlank = (importAt? p).map (·.shift 1) := by
  unfold importAt?
  rw [apply_ite (Option.map _), Option.map_map, Place.code_underBlank, Place.raw_underBlank,
    Place.number_underBlank]
  simp only [Function.comp_def, ImportStatement.shift_spanning]
  rfl

theorem ruleAt?_atBlank (lines : List SourceLine) : ruleAt? (.atBlank lines) = none := rfl

theorem ruleAt?_underBlank (p : Place) : ruleAt? p.underBlank = (ruleAt? p).map (·.shift 1) := by
  unfold ruleAt?
  rw [Place.code_underBlank, bodyWithDepths_underBlank, Place.number_underBlank, Option.map_map,
    ← List.map_drop, List.flatMap_map]
  rfl

/-- A blank line before a file moves what it declares. -/
theorem extract_blank (lines : List Line) : extract ([] :: lines) = (extract lines).shift 1 := by
  unfold extract
  rw [sourceLines_blank, places_blank]
  dsimp only
  refine Extraction.eq_shift ?_ ?_ rfl rfl rfl rfl <;> dsimp only
  · exact filterMap_blank (importAt?_atBlank _) importAt?_underBlank _
  · exact filterMap_blank (ruleAt?_atBlank _) ruleAt?_underBlank _

end Css

namespace Html

theorem importsAt_atBlank (lines : List SourceLine) : importsAt (.atBlank lines) = [] := rfl

theorem linked_underBlank (p : Place) (kind : String) (target : List Char) :
    linked p.underBlank kind target = (linked p kind target).shift 1 := by
  rw [linked, linked, ImportStatement.shift_spanning, Place.number_underBlank]

theorem importsAt_underBlank (p : Place) :
    importsAt p.underBlank = (importsAt p).map (·.shift 1) := by
  have hfound : ∀ (kind : String) (found : Option (Pattern.Found (List Char))),
      (found.map fun f => linked p.underBlank kind f.value) =
        (found.map fun f => linked p kind f.value).map (·.shift 1) := by
    intro kind found
    rw [Option.map_map]
    exact Option.map_congr fun f _ => linked_underBlank p kind f.value
  have hlink : ∀ (accepts : Pattern.Found (List Char) → Bool)
      (found : Option (Pattern.Found (List Char))),
      (found.bind fun f => if accepts f then some (linked p.underBlank "stylesheet" f.value)
        else none) =
        (found.bind fun f => if accepts f then some (linked p "stylesheet" f.value)
          else none).map (·.shift 1) := by
    intro accepts found
    cases found with
    | none => rfl
    | some f =>
      dsimp only [Option.bind_some]
      rw [apply_ite (Option.map _), linked_underBlank]
      rfl
  unfold importsAt
  dsimp only
  rw [Place.code_underBlank]
  simp only [hfound, hlink, List.map_append, Option.toList_map]

theorem sectionAt?_atBlank (lines : List SourceLine) :
    sectionAt? (.atBlank lines) = .ok none := rfl

theorem sectionAt?_underBlank (p : Place) :
    sectionAt? p.underBlank = (sectionAt? p).map (Option.map (·.shift 1)) := by
  unfold sectionAt?
  rw [Place.code_underBlank, Place.number_underBlank]
  split
  · rfl
  · dsimp only
    cases sectionName _ _ with
    | error e => rfl
    | ok name => rfl

theorem inlineScripts_blank (code : List Line) :
    inlineScripts ([] :: code) = [] :: inlineScripts code := rfl

/-- The sections of a page move together, or fail together. -/
theorem mapM_sectionAt?_map_underBlank (ps : List Place) :
    (ps.map Place.underBlank).mapM sectionAt? =
      (ps.mapM sectionAt?).map (List.map (Option.map (·.shift 1))) := by
  induction ps with
  | nil => rfl
  | cons p ps ih =>
    rw [List.map_cons, List.mapM_cons, List.mapM_cons, sectionAt?_underBlank, ih]
    cases sectionAt? p with
    | error e => rfl
    | ok t =>
      cases ps.mapM sectionAt? with
      | error e => rfl
      | ok ts => rfl

/-- A blank line before a page moves what it declares. -/
theorem extract_blank (lines : List Line) :
    extract ([] :: lines) = (extract lines).map (·.shift 1) := by
  unfold extract
  rw [sourceLines_blank, places_blank]
  dsimp only
  rw [List.mapM_cons, sectionAt?_atBlank, mapM_sectionAt?_map_underBlank]
  cases (places (sourceLines .markup lines)).mapM sectionAt? with
  | error e => rfl
  | ok sections =>
    have hscripts : (Place.atBlank (sourceLines .markup lines) ::
        (places (sourceLines .markup lines)).map Place.underBlank).map (·.code) =
          [] :: (places (sourceLines .markup lines)).map (·.code) := by
      rw [List.map_cons, Place.map_code_map_underBlank]
      rfl
    refine congrArg Except.ok (Extraction.eq_shift ?_ ?_ ?_ rfl ?_ ?_) <;> dsimp only
    · rw [List.flatMap_cons, importsAt_atBlank, List.nil_append, List.flatMap_map, List.map_flatMap]
      exact congrArg (List.flatMap · _) (funext importsAt_underBlank)
    · rw [List.filterMap_cons_none rfl, List.filterMap_map, List.map_filterMap]
      rfl
    · rw [hscripts, inlineScripts_blank, sourceLines_blank, places_blank]
      exact JavaScript.topLevelFunctions_blank _ _
    · rw [hscripts, inlineScripts_blank, sourceLines_blank, places_blank]
      exact JavaScript.errorNames_blank _ _
    · rw [hscripts, inlineScripts_blank, sourceLines_blank, places_blank]
      exact linesMatching_underBlank rfl _ _

end Html

end Extract

end SourceSurvey
