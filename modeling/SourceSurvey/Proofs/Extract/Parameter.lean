import SourceSurvey.Extract.Python.Routine
import SourceSurvey.Proofs.Code.Expression

/-!
# Parameters as they are written

The written forms of the parameters of a Python function: a name with up to two stars before it,
perhaps a type and perhaps a default. Main statement: whatever groups and literals types and
defaults have, a list of parameters is read as the names, types and defaults that were written.
-/

namespace SourceSurvey.Extract.Python

open Nesting

/-! ## Written parameters -/

/-- An expression with no blanks around it. -/
structure ExpressionText (allowed quotable : Char → Bool) where
  text : List Char
  tight : Text.Tight text
  isExpression : IsExpression allowed quotable false text

/-- Every character is allowed. -/
def isAny (_ : Char) : Bool := true

/-- The equals sign would begin a default. -/
def isNoEquals (c : Char) : Bool := c != '='

/-- The stars before a parameter that takes all others. -/
inductive Marker where
  | none | star | twoStars

def Marker.text : Marker → List Char
  | .none => []
  | .star => ['*']
  | .twoStars => ['*', '*']

/-- A parameter as it is written. -/
structure Parameter where
  marker : Marker
  name : Word Text.isWord
  type : Option (ExpressionText isNoEquals isAny)
  default : Option (ExpressionText isAny isAny)

namespace Parameter

/-- The name with its type. -/
def main (p : Parameter) : List Char :=
  p.name.text ++ (p.type.map fun t => ": ".toList ++ t.text).getD []

/-- The name with its type and its default. -/
def declared (p : Parameter) : List Char :=
  p.main ++ (p.default.map fun d => " = ".toList ++ d.text).getD []

/-- The whole parameter. -/
def text (p : Parameter) : List Char :=
  p.marker.text ++ p.declared

/-- What is read from the parameter. -/
def slot (p : Parameter) : Slot where
  name := .ofList (p.marker.text ++ p.name.text)
  type := (p.type.map fun t => .ofList t.text).getD untyped
  default := p.default.map fun d => .ofList d.text

end Parameter

/-- An item of a list of parameters: a parameter, or a sign that separates others. -/
inductive ListItem where
  | parameter (p : Parameter)
  | star
  | slash

namespace ListItem

def text : ListItem → List Char
  | .parameter p => p.text
  | .star => ['*']
  | .slash => ['/']

def slot? : ListItem → Option Slot
  | .parameter p => some p.slot
  | .star | .slash => none

end ListItem

/-! ## Parameters are expressions -/

theorem isPlain_of_isWord {c : Char} (h : Text.isWord c = true) : isPlain c = true :=
  isPlain_of_class h (by decide)

theorem not_mem_word {d : Char} (hd : Text.isWord d = false) (word : Word Text.isWord) :
    d ∉ word.text :=
  Text.not_mem_of_class word.chars hd

/-- A text that begins with a plain character begins with no quote. -/
theorem beginsUnquoted_of_isPlain {c : Char} (hc : isPlain c = true) (cs : List Char) :
    BeginsUnquoted (c :: cs) :=
  beginsUnquoted_cons (isBare_of_isPlain hc) cs

namespace Parameter

variable (p : Parameter)

/-- A name with its type is an expression without open equals signs. -/
theorem isExpression_main : IsExpression isNoEquals isAny false p.main := by
  have hname : IsExpression isNoEquals isAny false p.name.text := by
    refine .of_isPlain fun c hc => ⟨isPlain_of_isWord (p.name.chars c hc), ?_⟩
    have hne : c ≠ '=' := fun h => not_mem_word (by decide) p.name (h ▸ hc)
    simpa [isNoEquals] using hne
  unfold main
  cases p.type with
  | none => exact hname.append .nil rfl
  | some t =>
    have htype : IsExpression isNoEquals isAny false (": ".toList ++ t.text) :=
      .char (by decide) (by decide) (.char (by decide) (by decide) t.isExpression)
    exact hname.append htype (beginsUnquoted_of_isPlain (by decide) _)

/-- A parameter without its stars is an expression. -/
theorem isExpression_declared : IsExpression isAny isAny false p.declared := by
  have hmain : IsExpression isAny isAny false p.main :=
    p.isExpression_main.imp (fun _ _ => rfl) (fun _ h => h) id
  unfold declared
  cases p.default with
  | none => exact hmain.append .nil rfl
  | some d =>
    have hdefault : IsExpression isAny isAny false (" = ".toList ++ d.text) :=
      .char (by decide) rfl (.char (by decide) rfl (.char (by decide) rfl d.isExpression))
    exact hmain.append hdefault (beginsUnquoted_of_isPlain (by decide) _)

theorem tight_main : Text.Tight p.main := by
  have hname := (p.name.solid fun _ => Text.isSpace_eq_false_of_isWord).tight
  unfold main
  cases p.type with
  | none =>
    rw [Option.map_none, Option.getD_none, List.append_nil]
    exact hname
  | some t =>
    have hcolon : Text.Tight [':'] := Text.Solid.tight (by decide)
    exact hname.append (hcolon.append t.tight [' ']) []

theorem tight_declared : Text.Tight p.declared := by
  unfold declared
  cases p.default with
  | none =>
    rw [Option.map_none, Option.getD_none, List.append_nil]
    exact p.tight_main
  | some d =>
    have hequals : Text.Tight ['='] := Text.Solid.tight (by decide)
    exact p.tight_main.append (hequals.append d.tight [' ']) [' ']

end Parameter

/-! ## Names, types and defaults -/

/-- No equals sign stands in a name with its type, outside brackets and quotes. -/
theorem avoids_equals {text : List Char} (h : IsExpression isNoEquals isAny false text) :
    Avoids '=' .start text :=
  h.avoids (fun _ => rfl) rfl (fun b => by cases b <;> decide) standsAt_start (Int.le_refl 0)
    fun h => nomatch h

namespace Parameter

variable {p : Parameter}

theorem main_of_none (h : p.type = none) : p.main = p.name.text := by
  rw [main, h]
  exact List.append_nil _

theorem main_of_some {t : ExpressionText isNoEquals isAny} (h : p.type = some t) :
    p.main = p.name.text ++ ':' :: ' ' :: t.text := by
  rw [main, h]
  rfl

theorem declared_of_none (h : p.default = none) : p.declared = p.main := by
  rw [declared, h]
  exact List.append_nil _

theorem declared_of_some {d : ExpressionText isAny isAny} (h : p.default = some d) :
    p.declared = (p.main ++ [' ']) ++ '=' :: ' ' :: d.text := by
  rw [declared, h, List.append_assoc]
  rfl

end Parameter

/-- A parameter without a default has no open equals sign. -/
theorem topLevelPosition?_equals_of_none {p : Parameter} (h : p.default = none) :
    topLevelPosition? '=' p.declared = none := by
  rw [Parameter.declared_of_none h]
  exact topLevelPositionFrom_of_avoids (avoids_equals p.isExpression_main)

/-- The first open equals sign is the one before the default. -/
theorem topLevelPosition?_equals_of_some {p : Parameter} {d : ExpressionText isAny isAny}
    (h : p.default = some d) :
    topLevelPosition? '=' p.declared = some (p.main ++ [' ']).length := by
  have hbefore : IsExpression isNoEquals isAny false (p.main ++ [' ']) :=
    p.isExpression_main.append (.char (by decide) (by decide) .nil) rfl
  rw [Parameter.declared_of_some h]
  -- the sign stands between blanks, so it is part of no longer operator
  refine topLevelPositionFrom_append_target (avoids_equals hbefore)
    (hbefore.run_standsAt standsAt_start) (by decide) fun _ => ?_
  simp [isOperatorPart, prev_run_concat]

/-- A name holds no colon. -/
theorem avoids_colon (p : Parameter) : Avoids ':' .start p.name.text :=
  avoids_of_not_mem (not_mem_word (by decide) p.name) _

/-- A parameter without a type has no open colon. -/
theorem topLevelPosition?_colon_of_none {p : Parameter} (h : p.type = none) :
    topLevelPosition? ':' p.main = none := by
  rw [Parameter.main_of_none h]
  exact topLevelPositionFrom_of_avoids (avoids_colon p)

/-- The first open colon is the one behind the name. -/
theorem topLevelPosition?_colon_of_some {p : Parameter} {t : ExpressionText isNoEquals isAny}
    (h : p.type = some t) : topLevelPosition? ':' p.main = some p.name.text.length := by
  have hname : IsExpression isAny isAny false p.name.text :=
    .of_isPlain fun c hc => ⟨isPlain_of_isWord (p.name.chars c hc), rfl⟩
  rw [Parameter.main_of_some h]
  exact topLevelPositionFrom_append_target (avoids_colon p) (hname.run_standsAt standsAt_start)
    (by decide) fun h => nomatch h

/-- A parameter without its default is read as its name and its type, if it has one. -/
theorem typedParts_main (p : Parameter) (default : Option (List Char)) :
    typedParts p.main untyped.toList default =
      (p.name.text, (p.type.map (·.text)).getD untyped.toList, default) := by
  have hname : Text.trim p.name.text = p.name.text :=
    (p.name.solid fun _ => Text.isSpace_eq_false_of_isWord).tight.trim
  unfold typedParts
  cases htype : p.type with
  | none =>
    rw [topLevelPosition?_colon_of_none htype, Parameter.main_of_none htype]
    rfl
  | some t =>
    have hne : ¬ t.text.isEmpty = true := by simpa using t.tight.ne_nil
    rw [topLevelPosition?_colon_of_some htype, Parameter.main_of_some htype]
    dsimp only
    rw [List.take_left, hname, drop_append_cons, trim_space_cons t.tight, if_neg hne]
    rfl

/-- The pieces of a parameter are read as they were written. -/
theorem annotatedParts_declared (p : Parameter) :
    annotatedParts p.declared untyped.toList =
      (p.name.text, (p.type.map (·.text)).getD untyped.toList, p.default.map (·.text)) := by
  have hwhole : Text.trim p.declared = p.declared := p.tight_declared.trim
  cases hdefault : p.default with
  | none =>
    have hnone := topLevelPosition?_equals_of_none hdefault
    rw [← hwhole] at hnone
    rw [annotatedParts_of_none hnone, hwhole, Parameter.declared_of_none hdefault, typedParts_main]
    rfl
  | some d =>
    have hmain : Text.trim ([] ++ (p.main ++ [' '])) = p.main :=
      p.tight_main.trim_eq (by simp) Text.isSpace_of_mem_blank
    have hsome := topLevelPosition?_equals_of_some hdefault
    rw [← hwhole] at hsome
    rw [annotatedParts_of_some hsome, hwhole, Parameter.declared_of_some hdefault, List.take_left,
      drop_append_cons, trim_space_cons d.tight]
    rw [List.nil_append] at hmain
    rw [hmain, typedParts_main]
    rfl

/-! ## Lists of parameters -/

/-- Every item of a list is an expression. -/
theorem ListItem.isExpression (item : ListItem) : IsExpression isAny isAny false item.text := by
  cases item with
  | parameter p =>
    have hdeclared := p.isExpression_declared
    show IsExpression isAny isAny false (p.marker.text ++ p.declared)
    cases p.marker with
    | none => exact hdeclared
    | star => exact .char (by decide) rfl hdeclared
    | twoStars => exact .char (by decide) rfl (.char (by decide) rfl hdeclared)
  | star => exact .char (by decide) rfl .nil
  | slash => exact .char (by decide) rfl .nil

theorem ListItem.tight (item : ListItem) : Text.Tight item.text := by
  cases item with
  | parameter p =>
    have hdeclared := p.tight_declared
    show Text.Tight (p.marker.text ++ p.declared)
    cases p.marker with
    | none => exact hdeclared
    | star => exact (Text.Solid.tight (by decide) : Text.Tight ['*']).append hdeclared []
    | twoStars =>
      exact (Text.Solid.tight (by decide) : Text.Tight ['*', '*']).append hdeclared []
  | star => exact Text.Solid.tight (by decide)
  | slash => exact Text.Solid.tight (by decide)

/-- A parameter begins with the first character of its name, behind its stars. -/
theorem Parameter.exists_declared_eq (p : Parameter) :
    ∃ c cs, p.declared = c :: cs ∧ Text.isWord c = true := by
  obtain ⟨c, cs, hcons⟩ := List.exists_cons_of_ne_nil p.name.ne_nil
  have hdeclared : ∃ rest, p.declared = c :: rest :=
    ⟨_, by rw [declared, main, hcons, List.append_assoc, List.cons_append]⟩
  obtain ⟨rest, hrest⟩ := hdeclared
  exact ⟨c, rest, hrest, p.name.chars c (hcons ▸ List.mem_cons_self)⟩

/-- The stars in front of a parameter are its marker. -/
theorem takeWhile_text (p : Parameter) : p.text.takeWhile (· == '*') = p.marker.text := by
  obtain ⟨c, cs, hcons, hword⟩ := p.exists_declared_eq
  have hne : ¬ (c == '*') = true := by
    rw [beq_iff_eq]
    exact Text.ne_of_class hword (by decide)
  have hmarker : ∀ c ∈ p.marker.text, (c == '*') = true := by
    cases p.marker <;> exact List.all_eq_true.mp (by decide)
  rw [Parameter.text, List.takeWhile_append_of_pos hmarker, hcons,
    List.takeWhile_cons_of_neg (p := (· == '*')) hne, List.append_nil]

/-- What is read from one part of a list. -/
def slotOf (part : List Char) : Slot :=
  let mark := (part.takeWhile (· == '*')).take 2
  let (name, type, default) := annotatedParts (part.drop mark.length) untyped.toList
  ⟨.ofList (mark ++ name), .ofList type, default.map .ofList⟩

/-- A list of parameters is read part by part, without the signs that separate them. -/
theorem params_eq_map_slotOf (text : List Char) :
    params text = ((topLevelParts ',' text).filter fun part =>
      part != ['*'] && part != ['/']).map slotOf := rfl

/-- A written parameter is read as what was written. -/
theorem slotOf_text (p : Parameter) : slotOf p.text = p.slot := by
  have hmark : (p.text.takeWhile (· == '*')).take 2 = p.marker.text := by
    rw [takeWhile_text]
    cases p.marker <;> rfl
  have hdrop : p.text.drop p.marker.text.length = p.declared := List.drop_left
  have htype : String.ofList ((p.type.map (·.text)).getD untyped.toList) =
      (p.type.map fun t => String.ofList t.text).getD untyped := by
    cases p.type with
    | none => exact String.ofList_toList
    | some t => rfl
  unfold slotOf
  dsimp only
  rw [hmark, hdrop, annotatedParts_declared]
  dsimp only
  rw [htype, Option.map_map]
  rfl

/-- The items of a list are read as the parameters among them, in order. -/
theorem params_of_topLevelParts {text : List Char} {items : List ListItem}
    (h : topLevelParts ',' text = items.map ListItem.text) :
    params text = items.filterMap ListItem.slot? := by
  rw [params_eq_map_slotOf, h]
  clear h
  induction items with
  | nil => rfl
  | cons item items ih =>
    cases item with
    | star => exact ih
    | slash => exact ih
    | parameter p =>
      obtain ⟨c, cs, hcons, hword⟩ := p.exists_declared_eq
      have hmem : c ∈ p.text := List.mem_append_right _ (hcons ▸ List.mem_cons_self)
      have hkept : (p.text != ['*'] && p.text != ['/']) = true := by
        rw [Bool.and_eq_true, bne_iff_ne, bne_iff_ne]
        refine ⟨?_, ?_⟩ <;>
        · intro htext
          rw [htext, List.mem_singleton] at hmem
          exact Text.ne_of_class hword (by decide) hmem
      show (List.filter _ (p.text :: items.map ListItem.text)).map slotOf = p.slot :: _
      rw [List.filter_cons, if_pos hkept, List.map_cons, slotOf_text, ih]

end SourceSurvey.Extract.Python
