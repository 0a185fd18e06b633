import SourceSurvey.Extract.JavaScript.Routine
import SourceSurvey.Proofs.Extract.Modifier
import SourceSurvey.Proofs.Text.Blank

/-!
# Parameters of a script as they are written

A parameter of a function in JavaScript or TypeScript: decorators and access words, a name with dots
before it or a question mark behind it, perhaps a type and perhaps a default. Main statements: a list
of parameters is read as the names, types and defaults that were written, whatever stands in front of
them; and the arguments of a decorator have to close what they open.
-/

namespace SourceSurvey.Extract.JavaScript

open Pattern

/-! ## Written parameters -/

/-- The words that say who may use a parameter. -/
def accessWords : List String := ["public", "private", "protected", "readonly", "override"]

/-- A character of a name with member accesses. -/
def isDottedChar (c : Char) : Bool := Text.isNameChar c || c == '.'

/-- Behind the parenthesis that opens the arguments of a decorator. -/
def insideArguments : Nesting := ⟨1, none, some '('⟩

/-- Arguments without a closing parenthesis. They close what they open, as brackets and quotes are
counted, so that the parenthesis behind them closes the one in front. -/
structure DecoratorArguments where
  text : List Char
  noParen : ')' ∉ text
  isInside : Nesting.Avoids ',' insideArguments text
  closes : (insideArguments.run text).StandsAt 1

/-- A nested text without a closing parenthesis closes what it opens. -/
def DecoratorArguments.ofNested {allowed : Char → Bool} {text : List Char}
    (h : IsNested allowed true text) (hparen : ')' ∉ text) : DecoratorArguments where
  text := text
  noParen := hparen
  isInside :=
    h.avoids (by decide) ⟨rfl, rfl⟩ (by decide : (0 : Int) ≤ 1) (fun _ => by decide)
      (.inl (by decide))
  closes := h.run_standsAt ⟨rfl, rfl⟩ (by decide)

/-- A decorator in front of a parameter. -/
structure Decorator where
  name : Word isDottedChar
  arguments : Option DecoratorArguments
  blanks : Spacing

def Decorator.argumentText (d : Decorator) : List Char :=
  (d.arguments.map fun a => '(' :: (a.text ++ [')'])).getD []

def Decorator.text (d : Decorator) : List Char :=
  '@' :: (d.name.text ++ (d.argumentText ++ d.blanks.text))

/-- A parameter as it is written. -/
structure Parameter where
  decorators : List Decorator
  modifiers : List (Modifier accessWords)
  isRest : Bool
  name : Word Text.isNameChar
  noAccessWord : ∀ w ∈ accessWords, w.toList ≠ name.text
  isOptional : Bool
  type : Option (NestedText isNoAssignment)
  default : Option (NestedText isNoComma)

namespace Parameter

/-- The name with the dots of a rest parameter. -/
def bound (p : Parameter) : List Char :=
  (if p.isRest then "...".toList else []) ++ p.name.text

/-- The name with its dots and its question mark. -/
def marked (p : Parameter) : List Char :=
  p.bound ++ if p.isOptional then ['?'] else []

/-- The parameter without what stands in front of it. -/
def declared (p : Parameter) : List Char :=
  withDefault (typedName p.marked p.type) p.default

def modifierText (p : Parameter) : List Char :=
  p.modifiers.flatMap Modifier.text

/-- The whole parameter. -/
def text (p : Parameter) : List Char :=
  p.decorators.flatMap Decorator.text ++ (p.modifierText ++ p.declared)

/-- What is read from the parameter. -/
def slot (p : Parameter) : Slot where
  name := .ofList p.bound
  type := (p.type.map fun t => .ofList t.text).getD untyped
  default := p.default.map fun d => .ofList d.text

end Parameter

/-! ## Names -/

theorem isDottedChar_eq_false_of_isSpace {c : Char} (h : Text.isSpace c = true) :
    isDottedChar c = false := by
  have hne : c ≠ '.' := Text.ne_of_class h (by decide)
  simp [isDottedChar, Text.isNameChar_eq_false_of_isSpace h, hne]

theorem isSpace_eq_false_of_isDottedChar {c : Char} (h : isDottedChar c = true) :
    Text.isSpace c = false := by
  by_contra hspace
  rw [isDottedChar_eq_false_of_isSpace (Bool.not_eq_false _ ▸ hspace)] at h
  cases h

namespace Parameter

variable (p : Parameter)

theorem bound_ne_nil : p.bound ≠ [] :=
  List.append_ne_nil_of_right_ne_nil _ p.name.ne_nil

/-- The dots of a rest parameter and its name are characters of names with member accesses. -/
theorem isDottedChar_of_mem_bound : ∀ c ∈ p.bound, isDottedChar c = true := by
  intro c hc
  rw [isDottedChar, Bool.or_eq_true, beq_iff_eq]
  rcases List.mem_append.mp hc with hc | hc
  · cases hrest : p.isRest with
    | false =>
      rw [hrest] at hc
      cases hc
    | true =>
      rw [hrest] at hc
      exact .inr (by simpa using hc)
  · exact .inl (p.name.chars c hc)

/-- A name with its marks has no open colon, comma or equals sign. -/
theorem isNested_marked : IsNested isNamePart false p.marked := by
  have hbound : IsNested isNamePart false p.bound := by
    refine .of_isFlat fun c hc => ?_
    have hdotted := p.isDottedChar_of_mem_bound c hc
    have hne : ∀ d, isDottedChar d = false → c ≠ d := fun d hd => Text.ne_of_class hdotted hd
    refine ⟨isFlat_of_class hdotted (by decide), ?_⟩
    simp [isNamePart, isNoAssignment, hne ',' (by decide), hne '=' (by decide),
      hne ':' (by decide)]
  unfold marked
  cases p.isOptional with
  | false => exact hbound.append .nil
  | true => exact hbound.append (.char (by decide) (.inr (by decide)) .nil)

theorem tight_bound : Text.Tight p.bound :=
  Text.Solid.tight ⟨p.bound_ne_nil, fun c hc =>
    isSpace_eq_false_of_isDottedChar (p.isDottedChar_of_mem_bound c hc)⟩

theorem tight_marked : Text.Tight p.marked := by
  have hmark : Text.Tight ['?'] := Text.Solid.tight (by decide)
  unfold marked
  cases p.isOptional with
  | false =>
    show Text.Tight (p.bound ++ [])
    rw [List.append_nil]
    exact p.tight_bound
  | true => exact p.tight_bound.append hmark []

/-- The question mark is cut from the name. -/
theorem trimEndWhile_marked : Text.trimEndWhile (· == '?') p.marked = p.bound := by
  have hbound : Text.trimEndWhile (· == '?') p.bound = p.bound := by
    obtain ⟨cs, c, hlast, -⟩ := p.tight_bound.last
    have hmem : c ∈ p.bound := hlast ▸ List.mem_append_right cs List.mem_cons_self
    have hne : c ≠ '?' := Text.ne_of_class (p.isDottedChar_of_mem_bound c hmem) (by decide)
    rw [hlast]
    exact Text.trimEndWhile_concat_of_neg (by simpa using hne) cs
  unfold marked
  cases p.isOptional with
  | false =>
    show Text.trimEndWhile _ (p.bound ++ []) = _
    rw [List.append_nil, hbound]
  | true =>
    show Text.trimEndWhile _ (p.bound ++ ['?']) = _
    rw [Text.trimEndWhile_append (by decide), hbound]

theorem tight_declared : Text.Tight p.declared :=
  tight_withDefault (tight_typedName p.tight_marked p.type) p.default

/-- A declared parameter has no open comma. -/
theorem isNested_declared : IsNested isNoComma false p.declared := by
  have hmain : IsNested isNoComma false (typedName p.marked p.type) :=
    (isNested_typedName p.isNested_marked p.type).imp fun c hc =>
      (Bool.and_eq_true _ _ ▸ hc : _ ∧ _).1
  exact isNested_withDefault hmain p.default

/-- The declaration begins with the name or its dots, and goes on with no character of a name. -/
theorem exists_declared_eq : ∃ tail, p.declared = p.bound ++ tail ∧
    tail.head?.any Text.isNameChar = false := by
  refine ⟨(if p.isOptional then ['?'] else []) ++
    ((p.type.map fun t => ": ".toList ++ t.text).getD [] ++
      (p.default.map fun d => " = ".toList ++ d.text).getD []), ?_, ?_⟩
  · simp [declared, withDefault, typedName, marked]
  · cases p.isOptional <;> cases p.type <;> cases p.default <;> rfl

/-- A declared parameter begins with a dot or with its name. -/
theorem beginsWith_declared : BeginsWith isDottedChar p.declared := by
  obtain ⟨tail, htail, -⟩ := p.exists_declared_eq
  rw [htail]
  exact beginsWith_append p.bound_ne_nil p.isDottedChar_of_mem_bound tail

end Parameter

/-! ## What stands in front of a parameter -/

/-- The words that say who may use a parameter can stand in a row. -/
theorem areModifiers_accessWords : AreModifiers accessWords :=
  ⟨by decide, by decide⟩

/-- The words that say who may use a parameter could be names. -/
theorem isNameChar_of_mem_accessWord : ∀ w ∈ accessWords, ∀ c ∈ w.toList,
    Text.isNameChar c = true :=
  forall_mem_toList_of_all (by decide)

/-- The pattern of one decorator. -/
def decoratorMark : Pattern Unit := do
  lit "@"
  let _ ← dottedName
  let _ ← opt do
    lit "("
    let _ ← run (· != ')') 0
    lit ")"
  blanks1

/-- In front of a parameter stand decorators, then words that say who may use it. -/
theorem paramMarks_eq : paramMarks = (do
    let _ ← many decoratorMark
    let _ ← modifierWords accessWords) :=
  rfl

namespace Decorator

variable (d : Decorator) {more : List Char}

/-- A decorator is its sign, its name, its arguments and the blanks behind them. -/
theorem text_append_eq (more : List Char) : d.text ++ more =
    "@".toList ++ (d.name.text ++ (d.argumentText ++ (d.blanks.text ++ more))) := by
  simp [text]

/-- A decorator begins with its sign. -/
theorem beginsSolid (more : List Char) : BeginsSolid (d.text ++ more) :=
  show Text.isSpace '@' = false by decide

/-- Behind its name a decorator goes on with its arguments or a blank. -/
theorem isDottedChar_head?_eq_false (more : List Char) :
    (d.argumentText ++ (d.blanks.text ++ more)).head?.any isDottedChar = false := by
  unfold argumentText
  cases d.arguments with
  | some a => rfl
  | none => exact d.blanks.head?_append isDottedChar_eq_false_of_isSpace more

/-- Arguments are read where there are some. -/
theorem takes_arguments {rest : List Char} (hrest : rest.head?.any (· == '(') = false) :
    ∃ arguments, (opt do
      lit "("
      let _ ← run (· != ')') 0
      lit ")").Takes (d.argumentText ++ rest) arguments rest := by
  unfold argumentText
  cases d.arguments with
  | none =>
    have hopener : ¬ "(".toList <+: rest := by
      rintro ⟨cs, rfl⟩
      cases hrest
    exact ⟨none, ((refuses_lit hopener).bind _).opt⟩
  | some a =>
    have hinside : ∀ c ∈ a.text, (c != ')') = true := fun c hc => by
      have hne : c ≠ ')' := fun heq => a.noParen (heq ▸ hc)
      simpa using hne
    have hclose : (lit ")").Takes (')' :: rest) () rest := takes_lit ")" rest
    have hrun := (takes_run hinside (Nat.zero_le _) rfl).bind (f := fun _ => lit ")") hclose
    refine ⟨some (), ?_⟩
    show (opt _).Takes ('(' :: (a.text ++ [')']) ++ rest) _ rest
    rw [List.cons_append, List.append_assoc, List.singleton_append]
    exact ((takes_lit "(" (a.text ++ ')' :: rest)).bind hrun).opt

/-- A decorator is read with the white space behind it. -/
theorem takes (hmore : BeginsSolid more) : decoratorMark.Takes (d.text ++ more) () more := by
  have hopener : (d.blanks.text ++ more).head?.any (· == '(') = false :=
    d.blanks.head?_append (fun hc => beq_false_of_ne (Text.ne_of_class hc (by decide))) more
  obtain ⟨arguments, harguments⟩ := d.takes_arguments hopener
  have hblanks := takes_blanks1 d.blanks.ne_nil d.blanks.isSpace hmore
  have hname := takes_run d.name.chars (List.length_pos_iff.mpr d.name.ne_nil)
    (d.isDottedChar_head?_eq_false more)
  rw [text_append_eq]
  exact (takes_lit "@" _).bind (hname.bind (harguments.bind hblanks))

/-- The arguments of a decorator are a part of a list, since they close what they open. -/
theorem isListPart_argumentText : IsListPart d.argumentText := by
  unfold argumentText
  cases d.arguments with
  | none => exact fun s hs => ⟨trivial, hs⟩
  | some a =>
    intro s hs
    have hopener : s.step '(' = insideArguments := by
      rw [hs.eq_mk]
      rfl
    have hinside : ((s.step '(').run a.text).StandsAt (0 + 1) := hopener ▸ a.closes
    refine ⟨Nesting.avoids_enclosed (hopener ▸ a.isInside) hinside (Int.le_refl 0) (by decide), ?_⟩
    show (s.run ('(' :: (a.text ++ [')']))).StandsAt 0
    rw [Nesting.run_enclosed]
    exact hinside.step_closer .round

/-- The name of a decorator with its sign has no open comma. -/
theorem isNested_name : IsNested isNoComma false ('@' :: d.name.text) := by
  refine .char (by decide) (.inr (by decide)) (.of_isFlat fun c hc => ?_)
  have hdotted := d.name.chars c hc
  have hne : c ≠ ',' := Text.ne_of_class hdotted (by decide)
  exact ⟨isFlat_of_class hdotted (by decide), by simpa [isNoComma] using hne⟩

theorem isNested_blanks : IsNested isNoComma false d.blanks.text :=
  d.blanks.isNested fun _ => isNoComma_of_isSpace

/-- A decorator is a part of a list. -/
theorem isListPart : IsListPart d.text :=
  d.isNested_name.isListPart.append
    (d.isListPart_argumentText.append d.isNested_blanks.isListPart)

/-- With nested arguments the decorator is a nested text. -/
theorem isNested_text (h : ∀ a ∈ d.arguments, IsNested isNoComma true a.text) :
    IsNested isNoComma false d.text := by
  have harguments : IsNested isNoComma false d.argumentText := by
    unfold argumentText
    cases hsome : d.arguments with
    | none => exact .nil
    | some a => exact .group .round (h a hsome) .nil
  exact d.isNested_name.append (harguments.append d.isNested_blanks)

end Decorator

namespace Parameter

variable (p : Parameter)

/-- The name of a parameter is no access word. -/
theorem refuses_modifierWord : (modifierWord accessWords).Refuses p.declared := by
  obtain ⟨tail, htail, hend⟩ := p.exists_declared_eq
  have hsolid := fun c => Text.isSpace_eq_false_of_isNameChar (c := c)
  rw [htail]
  cases hrest : p.isRest with
  | false =>
    have hbound : p.bound = p.name.text := by simp [bound, hrest]
    rw [hbound]
    exact SourceSurvey.Extract.refuses_modifierWord hsolid p.name.chars hend
      isNameChar_of_mem_accessWord p.noAccessWord
  | true =>
    -- no access word begins with a dot
    have hbound : p.bound = "...".toList ++ p.name.text := by simp [bound, hrest]
    have hnone : ∀ c ∈ ([] : List Char), Text.isNameChar c = true := fun c hc => nomatch hc
    rw [hbound, List.append_assoc]
    show (modifierWord accessWords).Refuses ([] ++ ("...".toList ++ (p.name.text ++ tail)))
    exact SourceSurvey.Extract.refuses_modifierWord hsolid hnone rfl isNameChar_of_mem_accessWord
      fun w hw => (areModifiers_accessWords.solid w hw).1

/-- What stands behind the decorators begins with an access word or the name. -/
theorem beginsWith_modifiers_append : BeginsWith isDottedChar (p.modifierText ++ p.declared) := by
  have hchars : ∀ w ∈ accessWords, ∀ c ∈ w.toList, isDottedChar c = true := fun w hw c hc => by
    rw [isDottedChar, isNameChar_of_mem_accessWord w hw c hc, Bool.true_or]
  exact areModifiers_accessWords.beginsWith hchars p.modifiers p.beginsWith_declared

/-- A whole parameter begins with no blank. -/
theorem beginsSolid_text : BeginsSolid p.text := by
  unfold text
  cases p.decorators with
  | nil => exact p.beginsWith_modifiers_append.beginsSolid fun _ => isSpace_eq_false_of_isDottedChar
  | cons d ds =>
    rw [List.flatMap_cons, List.append_assoc]
    exact d.beginsSolid _

/-- The pattern for decorators takes all those of a parameter. -/
theorem takes_decorators : (many decoratorMark).Takes p.text (p.decorators.map fun _ => ())
    (p.modifierText ++ p.declared) := by
  have hbegins := p.beginsWith_modifiers_append
  have hsolid := hbegins.beginsSolid fun _ => isSpace_eq_false_of_isDottedChar
  have hmark : ¬ "@".toList <+: p.modifierText ++ p.declared :=
    hbegins.not_isPrefix (by decide : isDottedChar '@' = false) []
  have hstop : decoratorMark.Refuses (p.modifierText ++ p.declared) := (refuses_lit hmark).bind _
  have hne : ∀ x ∈ p.decorators.map fun d => (d.text, ()), x.1 ≠ [] := by simp [Decorator.text]
  have hmany := takes_many hne
    (List.forall_mem_map.mpr fun d _ more (hmore : BeginsSolid more) => d.takes hmore)
    (List.forall_mem_map.mpr fun d _ more _ => d.beginsSolid more) hsolid hstop
  rw [List.flatMap_map, List.map_map] at hmany
  exact hmany

/-- What stands in front of a declaration is read up to it. -/
theorem dropStart_paramMarks : paramMarks.dropStart p.text = p.declared := by
  have hsolid := p.beginsWith_declared.beginsSolid fun _ => isSpace_eq_false_of_isDottedChar
  have hmodifiers := areModifiers_accessWords.takes_modifierWords p.modifiers hsolid
    p.refuses_modifierWord
  have hmarks : paramMarks.Takes p.text () p.declared := by
    rw [paramMarks_eq]
    exact p.takes_decorators.bind (hmodifiers.bind (takes_pure () p.declared))
  exact hmarks.dropStart

theorem tight_text : Text.Tight p.text := by
  have hbegins := p.beginsSolid_text
  unfold text at hbegins ⊢
  rw [← List.append_assoc] at hbegins ⊢
  exact BeginsSolid.tight_append hbegins p.tight_declared

/-- A parameter behind its decorators has no open comma. -/
theorem isNested_modifiers_append : IsNested isNoComma false (p.modifierText ++ p.declared) :=
  (isNested_modifiers (by decide) (fun _ => isNoComma_of_isSpace) p.modifiers).append
    p.isNested_declared

/-- A whole parameter is a part of a list. -/
theorem isListPart_text : IsListPart p.text := by
  have hdecorators : IsListPart (p.decorators.flatMap Decorator.text) := by
    induction p.decorators with
    | nil => exact fun s hs => ⟨trivial, hs⟩
    | cons d ds ih => exact d.isListPart.append ih
  exact hdecorators.append p.isNested_modifiers_append.isListPart

/-- The arguments of the decorators are nested texts, whatever they are for. -/
def HasNestedArguments : Prop :=
  ∀ d ∈ p.decorators, ∀ a ∈ d.arguments, IsNested isNoComma true a.text

/-- A parameter is a nested text when the arguments of its decorators are. -/
theorem isNested_text (h : p.HasNestedArguments) : IsNested isNoComma false p.text := by
  have hdecorators : IsNested isNoComma false (p.decorators.flatMap Decorator.text) := by
    unfold HasNestedArguments at h
    generalize p.decorators = decorators at h ⊢
    induction decorators with
    | nil => exact .nil
    | cons d ds ih =>
      exact (d.isNested_text (h d List.mem_cons_self)).append
        (ih fun e he => h e (List.mem_cons_of_mem d he))
  exact hdecorators.append p.isNested_modifiers_append

/-- A parameter is read as its name, type and default. -/
theorem annotatedParts_declared : annotatedParts p.declared untyped.toList =
    (p.marked, (p.type.map (·.text)).getD untyped.toList, p.default.map (·.text)) :=
  annotatedParts_withDefault p.tight_marked p.isNested_marked p.type p.default _

end Parameter

/-- A list of parameters is read as the names, types and defaults that were written, whatever
decorators and access words stand in front of them. -/
theorem scriptParams_joinCells (cells : List (Cell Parameter)) (trailing : Option WhiteSpace) :
    params (joinCells Parameter.text cells trailing) = cells.map fun cell => cell.part.slot := by
  have hparts := topLevelParts_joinCells Parameter.tight_text Parameter.isListPart_text cells trailing
  unfold params
  rw [hparts, List.filterMap_map, ← List.filterMap_eq_map]
  refine List.filterMap_congr fun cell _ => ?_
  have hne : ¬ cell.part.bound.isEmpty = true := by simpa using cell.part.bound_ne_nil
  simp only [Function.comp, cell.part.dropStart_paramMarks, cell.part.annotatedParts_declared,
    cell.part.trimEndWhile_marked, cell.part.tight_bound.trim, if_neg hne]
  have htype : (String.ofList ((cell.part.type.map (·.text)).getD untyped.toList)) =
      cell.part.slot.type := by
    cases htyped : cell.part.type <;> simp [Parameter.slot, htyped]
  rw [htype, Option.map_map]
  rfl

/-- The arguments have to close what they open. A comparison without blanks looks like the start of a
generic group, and then the comma between two parameters is taken for a part of the first one. -/
theorem not_forall_params_decorated : ¬ ∀ arguments : List Char, ')' ∉ arguments →
    params ("@Max(".toList ++ arguments ++ ") path: string, rest: string".toList) =
      [⟨"path", "string", none⟩, ⟨"rest", "string", none⟩] := fun h =>
  absurd (h "a<b".toList (by decide)) (by decide +kernel)

end SourceSurvey.Extract.JavaScript
