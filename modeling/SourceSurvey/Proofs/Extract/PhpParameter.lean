import SourceSurvey.Extract.Php.Routine
import SourceSurvey.Proofs.Extract.Modifier

/-!
# Parameters of a PHP function as they are written

A parameter of a function in PHP: words that declare a property, perhaps a type, perhaps the signs of
a reference and of a variadic parameter, a variable and perhaps a default. Main statement: a list of
parameters is read as the variables, types and defaults that were written.
-/

namespace SourceSurvey.Extract.Php

open Pattern

/-! ## Written parameters -/

/-- The words that make a parameter of a constructor a property. -/
def propertyWords : List String := ["public", "private", "protected", "readonly"]

/-- A type in front of a parameter, which is no word that declares a property. -/
structure TypeMark where
  isNullable : Bool
  word : Word isTypeChar
  blanks : Spacing
  noPropertyWord : isNullable = false → ∀ w ∈ propertyWords, w.toList ≠ word.text

def TypeMark.name (t : TypeMark) : List Char :=
  (if t.isNullable then ['?'] else []) ++ t.word.text

def TypeMark.text (t : TypeMark) : List Char :=
  t.name ++ t.blanks.text

/-- A sign with white space behind it, where it stands. -/
def signText (sign : String) (blanks : Option WhiteSpace) : List Char :=
  (blanks.map fun b => sign.toList ++ b.text).getD []

/-- A parameter as it is written. A reference and a variadic parameter may have white space behind
their signs. -/
structure Parameter where
  modifiers : List (Modifier propertyWords)
  type : Option TypeMark
  reference : Option WhiteSpace
  variadic : Option WhiteSpace
  name : Word Text.isWord
  default : Option (NestedText isNoComma)

namespace Parameter

/-- The variable with its dollar sign. -/
def variableText (p : Parameter) : List Char :=
  '$' :: p.name.text

/-- The variable, with the dots of a variadic parameter. -/
def named (p : Parameter) : List Char :=
  signText "..." p.variadic ++ p.variableText

/-- The parameter behind its type. -/
def signed (p : Parameter) : List Char :=
  signText "&" p.reference ++ p.named

/-- The parameter behind the words that declare a property. -/
def typed (p : Parameter) : List Char :=
  (p.type.map TypeMark.text).getD [] ++ p.signed

/-- The parameter without its default. -/
def main (p : Parameter) : List Char :=
  p.modifiers.flatMap Modifier.text ++ p.typed

/-- The whole parameter. -/
def text (p : Parameter) : List Char :=
  withDefault p.main p.default

/-- The variable with the dots of a variadic parameter. -/
def bound (p : Parameter) : List Char :=
  (if p.variadic.isSome then "...".toList else []) ++ p.variableText

/-- What is read from the parameter. -/
def slot (p : Parameter) : Slot where
  name := .ofList p.bound
  type := (p.type.map fun t => .ofList t.name).getD untyped
  default := p.default.map fun d => .ofList d.text

end Parameter

/-! ## Characters -/

/-- A character of a parameter that is no blank, outside its default. -/
def isSignChar (c : Char) : Bool :=
  isTypeChar c || "?&.$".toList.contains c

theorem isTypeChar_of_isWord {c : Char} (h : Text.isWord c = true) : isTypeChar c = true := by
  simp [isTypeChar, isPathChar, h]

theorem isSignChar_of_isTypeChar {c : Char} (h : isTypeChar c = true) : isSignChar c = true := by
  rw [isSignChar, h, Bool.true_or]

theorem isSignChar_eq_false_of_isSpace {c : Char} (h : Text.isSpace c = true) :
    isSignChar c = false := by
  have hword : Text.isWord c = false :=
    (Bool.or_eq_false_iff.mp (Text.isNameChar_eq_false_of_isSpace h)).1
  have hne : ∀ d, Text.isSpace d = false → c ≠ d := fun d hd => Text.ne_of_class h hd
  simp [isSignChar, isTypeChar, isPathChar, hword, hne '\\' (by decide), hne '|' (by decide),
    hne '?' (by decide), hne '&' (by decide), hne '.' (by decide), hne '$' (by decide)]

theorem isSpace_eq_false_of_isSignChar {c : Char} (h : isSignChar c = true) :
    Text.isSpace c = false := by
  by_contra hspace
  rw [isSignChar_eq_false_of_isSpace (Bool.not_eq_false _ ▸ hspace)] at h
  cases h

theorem isTypeChar_eq_false_of_isSpace {c : Char} (h : Text.isSpace c = true) :
    isTypeChar c = false :=
  (Bool.or_eq_false_iff.mp (isSignChar_eq_false_of_isSpace h)).1

/-- Signs open and close nothing and assign nothing. -/
theorem isFlat_of_isSignChar {c : Char} (h : isSignChar c = true) :
    isFlat c = true ∧ isNoAssignment c = true := by
  have hcomma : c ≠ ',' := Text.ne_of_class h (by decide)
  have hequals : c ≠ '=' := Text.ne_of_class h (by decide)
  exact ⟨isFlat_of_class h (by decide), by simp [isNoAssignment, hcomma, hequals]⟩

theorem isNoAssignment_of_isSpace {c : Char} (h : Text.isSpace c = true) :
    isNoAssignment c = true := by
  have hcomma : c ≠ ',' := Text.ne_of_class h (by decide)
  have hequals : c ≠ '=' := Text.ne_of_class h (by decide)
  simp [isNoAssignment, hcomma, hequals]

/-! ## Signs -/

section Sign

variable {sign : String} (blanks : Option WhiteSpace) {rest : List Char}

/-- The pattern for a sign that may be missing takes it, with the blanks behind it, where it stands.
-/
theorem takes_sign (hsolid : BeginsSolid rest) (hsign : ¬ sign.toList <+: rest) {α : Type}
    {f : Option Unit → Pattern α} {a : α} {rest' : List Char}
    (hf : (f (blanks.map fun _ => ())).Takes rest a rest') :
    (opt (lit sign) >>= fun mark => Pattern.blanks >>= fun _ => f mark).Takes
      (signText sign blanks ++ rest) a rest' := by
  cases blanks with
  | none =>
    have hnone : Pattern.blanks.Takes ([] ++ rest) () rest :=
      takes_blanks (fun _ hc => nomatch hc) hsolid
    exact (refuses_lit hsign).opt.bind (hnone.bind hf)
  | some b =>
    show (opt (lit sign) >>= _).Takes ((sign.toList ++ b.text) ++ rest) a rest'
    rw [List.append_assoc]
    exact (takes_lit sign (b.text ++ rest)).opt.bind ((takes_blanks b.isSpace hsolid).bind hf)

/-- With a sign of a class in front, or without it, a text begins in the class. -/
theorem beginsWith_sign {p : Char → Bool} (hne : sign.toList ≠ [])
    (hsign : sign.toList.all p = true) (hrest : BeginsWith p rest) :
    BeginsWith p (signText sign blanks ++ rest) := by
  cases blanks with
  | none => exact hrest
  | some b =>
    show BeginsWith p ((sign.toList ++ b.text) ++ rest)
    rw [List.append_assoc]
    exact beginsWith_append hne (List.all_eq_true.mp hsign) _

/-- A sign with its blanks is a nested text without open equals signs. -/
theorem isNested_sign (hsign : sign.toList.all isSignChar = true) :
    IsNested isNoAssignment false (signText sign blanks) := by
  cases blanks with
  | none => exact .nil
  | some b =>
    have hmark : IsNested isNoAssignment false sign.toList :=
      .of_isFlat fun c hc => isFlat_of_isSignChar (List.all_eq_true.mp hsign c hc)
    exact hmark.append (b.isNested fun _ => isNoAssignment_of_isSpace)

end Sign

/-! ## Parameters without their defaults -/

/-- The words that declare a property can stand in a row. -/
theorem areModifiers_propertyWords : AreModifiers propertyWords :=
  ⟨by decide, by decide⟩

/-- The words that declare a property could be types. -/
theorem isTypeChar_of_mem_propertyWord : ∀ w ∈ propertyWords, ∀ c ∈ w.toList,
    isTypeChar c = true :=
  forall_mem_toList_of_all (by decide)

namespace TypeMark

variable (t : TypeMark)

/-- The name of a type has signs of a parameter only. -/
theorem isSignChar_of_mem_name : ∀ c ∈ t.name, isSignChar c = true := by
  intro c hc
  rcases List.mem_append.mp hc with hc | hc
  · cases hnullable : t.isNullable with
    | false =>
      rw [hnullable] at hc
      cases hc
    | true =>
      rw [hnullable] at hc
      rw [List.mem_singleton.mp hc]
      decide
  · exact isSignChar_of_isTypeChar (t.word.chars c hc)

theorem name_ne_nil : t.name ≠ [] :=
  List.append_ne_nil_of_right_ne_nil _ t.word.ne_nil

/-- The pattern for a type takes the whole name of the type. -/
theorem takes_typeName {rest : List Char} (hrest : rest.head?.any isTypeChar = false) :
    typeName.Takes (t.name ++ rest) t.name rest := by
  have hword := takes_run t.word.chars (List.length_pos_iff.mpr t.word.ne_nil) hrest
  have hread : (opt (lit "?") >>= fun _ => run1 isTypeChar).Takes (t.name ++ rest) t.word.text
      rest := by
    unfold name
    cases t.isNullable with
    | true => exact (takes_lit "?" (t.word.text ++ rest)).opt.bind hword
    | false =>
      have hno : ¬ "?".toList <+: t.word.text ++ rest :=
        (beginsWith_append t.word.ne_nil t.word.chars rest).not_isPrefix
          (by decide : isTypeChar '?' = false) []
      exact (refuses_lit hno).opt.bind hword
  exact hread.textOf

end TypeMark

/-- A sign behind the type: of a reference, of a variadic parameter or of a variable. -/
def isMark (c : Char) : Bool := "&.$".toList.contains c

theorem isTypeChar_eq_false_of_isMark {c : Char} (h : isMark c = true) : isTypeChar c = false := by
  have hmarks : "&.$".toList.all (fun c => !isTypeChar c) = true := by decide
  simpa using List.all_eq_true.mp hmarks c (List.contains_iff_mem.mp h)

theorem isSignChar_of_isMark {c : Char} (h : isMark c = true) : isSignChar c = true := by
  have hmarks : "&.$".toList.all isSignChar = true := by decide
  exact List.all_eq_true.mp hmarks c (List.contains_iff_mem.mp h)

/-- In front of such a sign there is no type. -/
theorem refuses_typeName {text : List Char} (h : BeginsWith isMark text) :
    typeName.Refuses text := by
  have hword : (run1 isTypeChar).Refuses text := by
    obtain ⟨c, cs, rfl, hc⟩ := h.exists_cons
    exact refuses_run1 (isTypeChar_eq_false_of_isMark hc)
  refine Refuses.textOf ((reads_opt (reads_lit "?")).refuses_bind fun front back _ heq hread => ?_)
  rcases hread with rfl | rfl
  · rwa [heq] at hword
  · exact absurd ⟨back, heq.symm⟩ (h.not_isPrefix (by decide : isMark '?' = false) [])

namespace Parameter

variable (p : Parameter)

/-- A variable has signs of a parameter only. -/
theorem isSignChar_of_mem_variableText : ∀ c ∈ p.variableText, isSignChar c = true := by
  intro c hc
  rcases List.mem_cons.mp hc with rfl | hc
  · decide
  · exact isSignChar_of_isTypeChar (isTypeChar_of_isWord (p.name.chars c hc))

/-- Behind the ampersand a parameter begins with a dot or a dollar sign. -/
theorem beginsWith_named : BeginsWith (fun c => isMark c && c != '&') p.named :=
  beginsWith_sign p.variadic (by decide) (by decide)
    (by decide : (isMark '$' && '$' != '&') = true)

/-- Behind its type a parameter begins with a sign. -/
theorem beginsWith_signed : BeginsWith isMark p.signed :=
  beginsWith_sign p.reference (by decide) (by decide)
    (beginsWith_sign p.variadic (by decide) (by decide) (by decide : isMark '$' = true))

theorem tight_variableText : Text.Tight p.variableText :=
  Text.Solid.tight ⟨List.cons_ne_nil _ _, fun c hc =>
    isSpace_eq_false_of_isSignChar (p.isSignChar_of_mem_variableText c hc)⟩

/-- The pattern for a variable takes the whole variable. -/
theorem takes_variableName : variableName.Takes p.variableText p.variableText [] := by
  have hname : (run1 Text.isWord).Takes (p.name.text ++ []) p.name.text [] :=
    takes_run p.name.chars (List.length_pos_iff.mpr p.name.ne_nil) rfl
  have hread : (lit "$" >>= fun _ => run1 Text.isWord).Takes (p.variableText ++ []) p.name.text [] :=
    (takes_lit "$" (p.name.text ++ [])).bind hname
  have htext := hread.textOf
  rwa [List.append_nil] at htext

/-- The signs and the variable are read to the end. -/
theorem takes_signed (type : Option (List Char)) : (do
    let _ ← opt (lit "&")
    blanks
    let dots ← opt (lit "...")
    blanks
    let bound ← variableName
    atEnd
    return (type, (if dots.isSome then "...".toList else []) ++ bound)).Takes p.signed
      (type, p.bound) [] := by
  have hnamed := p.beginsWith_named
  have hreference : ¬ "&".toList <+: p.named := hnamed.not_isPrefix (by decide) []
  have hvariadic : ¬ "...".toList <+: p.variableText := by
    rintro ⟨cs, hcs⟩
    cases hcs
  have hdots : (if (p.variadic.map fun _ => ()).isSome then "...".toList else []) ++
      p.variableText = p.bound := by
    rw [bound, Option.isSome_map]
  have hsolid : BeginsSolid p.named := hnamed.beginsSolid fun c hc =>
    isSpace_eq_false_of_isSignChar (isSignChar_of_isMark (Bool.and_eq_true _ _ ▸ hc : _ ∧ _).1)
  have hvariable : BeginsSolid p.variableText := rfl
  refine takes_sign p.reference hsolid hreference (takes_sign p.variadic hvariable hvariadic ?_)
  rw [← hdots]
  exact p.takes_variableName.bind (takes_atEnd.bind (takes_pure _ []))

/-- The type in front of the signs is read if there is one. -/
theorem takes_type : (opt do
    let type ← typeName
    blanks1
    return type).Takes p.typed (p.type.map TypeMark.name) p.signed := by
  unfold typed
  cases p.type with
  | none => exact ((refuses_typeName p.beginsWith_signed).bind _).opt
  | some t =>
    have hsolid : BeginsSolid p.signed := p.beginsWith_signed.beginsSolid fun _ h =>
      isSpace_eq_false_of_isSignChar (isSignChar_of_isMark h)
    have hblanks := takes_blanks1 t.blanks.ne_nil t.blanks.isSpace hsolid
    have hname := t.takes_typeName
      (t.blanks.head?_append isTypeChar_eq_false_of_isSpace p.signed)
    show (opt _).Takes ((t.name ++ t.blanks.text) ++ p.signed) _ _
    rw [List.append_assoc]
    exact (hname.bind (hblanks.bind (takes_pure t.name p.signed))).opt

/-- The type is no word that declares a property, and neither is a sign. -/
theorem refuses_modifierWord : (modifierWord propertyWords).Refuses p.typed := by
  have hsolid : ∀ c, isTypeChar c = true → Text.isSpace c = false := fun c hc =>
    isSpace_eq_false_of_isSignChar (isSignChar_of_isTypeChar hc)
  have hnone : ∀ {tail : List Char}, tail.head?.any isTypeChar = false →
      (modifierWord propertyWords).Refuses tail := fun htail => by
    have hnothing : ∀ c ∈ ([] : List Char), isTypeChar c = true := fun c hc => nomatch hc
    exact SourceSurvey.Extract.refuses_modifierWord hsolid hnothing htail
      isTypeChar_of_mem_propertyWord fun w hw => (areModifiers_propertyWords.solid w hw).1
  unfold typed
  cases p.type with
  | none =>
    obtain ⟨c, cs, hcons, hc⟩ := p.beginsWith_signed.exists_cons
    refine hnone ?_
    show p.signed.head?.any isTypeChar = false
    rw [hcons]
    exact isTypeChar_eq_false_of_isMark hc
  | some t =>
    show (modifierWord propertyWords).Refuses ((t.name ++ t.blanks.text) ++ p.signed)
    unfold TypeMark.name
    cases hnullable : t.isNullable with
    | true => exact hnone rfl
    | false =>
      have htail := t.blanks.head?_append isTypeChar_eq_false_of_isSpace p.signed
      rw [List.append_assoc]
      exact SourceSurvey.Extract.refuses_modifierWord hsolid t.word.chars htail
        isTypeChar_of_mem_propertyWord (t.noPropertyWord hnullable)

/-- With its type or without it, a parameter begins with no blank. -/
theorem beginsWith_typed : BeginsWith isSignChar p.typed := by
  unfold typed
  cases p.type with
  | none =>
    obtain ⟨c, cs, hcons, hc⟩ := p.beginsWith_signed.exists_cons
    show BeginsWith isSignChar p.signed
    rw [hcons]
    exact isSignChar_of_isMark hc
  | some t =>
    show BeginsWith isSignChar ((t.name ++ t.blanks.text) ++ p.signed)
    rw [List.append_assoc]
    exact beginsWith_append t.name_ne_nil t.isSignChar_of_mem_name _

/-- With its property words or without them, a parameter begins with no blank. -/
theorem beginsWith_main : BeginsWith isSignChar p.main :=
  areModifiers_propertyWords.beginsWith
    (fun w hw c hc => isSignChar_of_isTypeChar (isTypeChar_of_mem_propertyWord w hw c hc))
    p.modifiers p.beginsWith_typed

/-- A parameter is read as its type and its variable. -/
theorem takes_param : param.Takes p.main (p.type.map TypeMark.name, p.bound) [] := by
  have hopener : ¬ "#[".toList <+: p.main :=
    p.beginsWith_main.not_isPrefix (by decide : isSignChar '#' = false) ['[']
  have hattribute : paramAttribute.Takes p.main () p.main :=
    ((refuses_lit hopener).bind _).opt.bind (takes_pure () p.main)
  have hsolid : BeginsSolid p.typed := p.beginsWith_typed.beginsSolid fun _ =>
    isSpace_eq_false_of_isSignChar
  have hmodifiers := areModifiers_propertyWords.takes_modifierWords p.modifiers hsolid
    p.refuses_modifierWord
  exact hattribute.bind (hmodifiers.bind (p.takes_type.bind (p.takes_signed _)))

/-- A parameter without its default has no open equals sign. -/
theorem isNested_main : IsNested isNoAssignment false p.main := by
  have htype : IsNested isNoAssignment false ((p.type.map TypeMark.text).getD []) := by
    cases p.type with
    | none => exact .nil
    | some t =>
      have hname : IsNested isNoAssignment false t.name :=
        .of_isFlat fun c hc => isFlat_of_isSignChar (t.isSignChar_of_mem_name c hc)
      exact hname.append (t.blanks.isNested fun _ => isNoAssignment_of_isSpace)
  have hvariable : IsNested isNoAssignment false p.variableText :=
    .of_isFlat fun c hc => isFlat_of_isSignChar (p.isSignChar_of_mem_variableText c hc)
  have hnamed : IsNested isNoAssignment false p.named :=
    (isNested_sign p.variadic (by decide)).append hvariable
  have hsigned : IsNested isNoAssignment false p.signed :=
    (isNested_sign p.reference (by decide)).append hnamed
  exact (isNested_modifiers (by decide) (fun _ => isNoAssignment_of_isSpace) p.modifiers).append
    (htype.append hsigned)

theorem tight_main : Text.Tight p.main := by
  have hsolid : BeginsSolid p.main := p.beginsWith_main.beginsSolid fun _ =>
    isSpace_eq_false_of_isSignChar
  unfold main typed signed named at hsolid ⊢
  simp only [← List.append_assoc] at hsolid ⊢
  exact hsolid.tight_append p.tight_variableText

theorem tight_text : Text.Tight p.text :=
  tight_withDefault p.tight_main p.default

/-- A whole parameter is a part of a list. -/
theorem isListPart_text : IsListPart p.text :=
  (isNested_withDefault (p.isNested_main.imp fun _ hc => (Bool.and_eq_true _ _ ▸ hc : _ ∧ _).1)
    p.default).isListPart

end Parameter

/-- What `params` makes of the part in front of a default. -/
def slotOf (main : List Char) (default : Option (List Char)) : Option Slot :=
  match param.matchStart? main with
  | some (type, bound) => some ⟨.ofList bound, (type.map .ofList).getD untyped, default.map .ofList⟩
  | none => (looseVariable.search? main).map fun f =>
    ⟨.ofList f.value, untyped, default.map .ofList⟩

/-- What is read from the part before the default is the parameter as it was written. -/
theorem Parameter.slotOf_main (p : Parameter) :
    slotOf p.main (p.default.map (·.text)) = some p.slot := by
  unfold slotOf
  rw [p.takes_param.matchStart?]
  simp only [Option.map_map]
  rfl

/-- A list of parameters is read part by part, each with what stands behind its equals sign. -/
theorem params_eq (text : List Char) : params text =
    (topLevelParts ',' text).filterMap fun part =>
      (topLevelPosition? '=' part).elim (slotOf part none) fun n =>
        slotOf (Text.trim (part.take n)) (some (Text.trim (part.drop (n + 1)))) := by
  unfold params
  refine List.filterMap_congr fun part _ => ?_
  cases topLevelPosition? '=' part <;> rfl

/-- A list of parameters is read as the variables, types and defaults that were written. -/
theorem phpParams_joinCells (cells : List (Cell Parameter)) (trailing : Option WhiteSpace) :
    params (joinCells Parameter.text cells trailing) = cells.map fun cell => cell.part.slot := by
  have hparts := topLevelParts_joinCells Parameter.tight_text Parameter.isListPart_text cells trailing
  rw [params_eq, hparts, List.filterMap_map, ← List.filterMap_eq_map]
  refine List.filterMap_congr fun cell _ => ?_
  have hslot := cell.part.slotOf_main
  have hmain := cell.part.isNested_main
  have htrim := cell.part.tight_main.trim_append Text.isSpace_of_mem_blank
  simp only [Function.comp, Parameter.text]
  cases hdefault : cell.part.default with
  | none =>
    have heq : withDefault cell.part.main none = cell.part.main := List.append_nil _
    rw [heq, hmain.topLevelPosition?_equals (by decide), Option.elim_none, ← hslot, hdefault]
    rfl
  | some d =>
    rw [withDefault_some, hmain.topLevelPosition?_default (by decide) d.text, Option.elim_some,
      List.take_left, drop_append_cons, htrim, trim_space_cons d.tight, ← hslot, hdefault]
    rfl

end SourceSurvey.Extract.Php
