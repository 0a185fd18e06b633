import SourceSurvey.Extract.Html
import SourceSurvey.Proofs.Pattern.AnyCase

/-!
# Tags of scripts

A script element has a start tag with attributes and an end tag, in any letter case. Main
statements: the patterns for the two tags take them from the front of a text, and whether a script
runs in its page is told by its attributes as they are written.
-/

namespace SourceSurvey.Extract.Html

open Pattern

-- a text is gone through by its own characters, not by all that there are
attribute [local instance (high)] List.decidableBAll

/-! ## Attributes of a tag -/

/-- An attribute as a tag has it written: blanks, a name, and a value in quotes. -/
structure WrittenAttribute where
  gap : List Char
  name : List Char
  quote : Char
  value : List Char

namespace WrittenAttribute

/-- What follows the name. -/
def assignment (a : WrittenAttribute) : List Char :=
  '=' :: a.quote :: (a.value ++ [a.quote])

def text (a : WrittenAttribute) : List Char :=
  a.gap ++ (a.name ++ a.assignment)

/-- The attribute is on one line, its name is made of ASCII letters, and neither quotes nor signs
of a tag are in its value. -/
structure IsWritten (a : WrittenAttribute) : Prop where
  gap : ∀ c ∈ a.gap, Text.isSpace c = true ∧ c ≠ '\n'
  named : a.name ≠ []
  name : ∀ c ∈ a.name, c.isAlpha = true
  quote : isPlainQuote a.quote = true
  value : ∀ c ∈ a.value, isPlainQuote c = false ∧ c ≠ '=' ∧ c ≠ '>' ∧ c ≠ '\n'

section IsWritten

variable {a : WrittenAttribute}

theorem IsWritten.quote_cases (h : a.IsWritten) : a.quote = '"' ∨ a.quote = '\'' := by
  have hquote := h.quote
  rwa [isPlainQuote, Bool.or_eq_true, beq_iff_eq, beq_iff_eq] at hquote

theorem IsWritten.isLetterLike_quote (h : a.IsWritten) : Text.isLetterLike a.quote = false := by
  rcases h.quote_cases with hquote | hquote <;> rw [hquote] <;> rfl

theorem IsWritten.isSpace_quote (h : a.IsWritten) : Text.isSpace a.quote = false := by
  rcases h.quote_cases with hquote | hquote <;> rw [hquote] <;> rfl

/-- The attribute ends in front of the end of its tag, on the line of the tag. -/
theorem IsWritten.ne_of_mem_text (h : a.IsWritten) : ∀ c ∈ a.text, c ≠ '>' ∧ c ≠ '\n' := by
  have hquote : a.quote ≠ '>' ∧ a.quote ≠ '\n' := by
    rcases h.quote_cases with hquote | hquote <;> rw [hquote] <;> decide
  intro c hc
  simp only [text, assignment, List.mem_append, List.mem_cons, List.not_mem_nil, or_false] at hc
  rcases hc with hc | hc | rfl | rfl | hc | rfl
  · exact ⟨Text.ne_of_class (h.gap c hc).1 rfl, (h.gap c hc).2⟩
  · exact ⟨Text.ne_of_class (h.name c hc) rfl, Text.ne_of_class (h.name c hc) rfl⟩
  · decide
  · exact hquote
  · exact (h.value c hc).2.2
  · exact hquote

theorem IsWritten.isWord_quote (h : a.IsWritten) : Text.isWord a.quote = false := by
  rcases h.quote_cases with hquote | hquote <;> rw [hquote] <;> rfl

theorem IsWritten.quote_ne (h : a.IsWritten) : a.quote ≠ '=' := by
  rcases h.quote_cases with hquote | hquote <;> rw [hquote] <;> decide

end IsWritten

/-- The attribute has this name, in any letter case. -/
def isNamed (name : String) (a : WrittenAttribute) : Bool :=
  a.name.map Char.toLower == name.toList

end WrittenAttribute

/-- The value of a type attribute is that of a program in the page. -/
def isProgramType (value : List Char) : Bool :=
  value.isEmpty || Text.lower value == "module".toList ||
    Text.contains (Text.lower value) "javascript".toList

/-- A script with these attributes stands in the page and is a program: none of them is a source,
and the first type, if there is one, is that of a program. -/
def isInline (attributes : List WrittenAttribute) : Bool :=
  !attributes.any (·.isNamed "src") &&
    (attributes.find? (·.isNamed "type")).all fun a => isProgramType a.value

/-! ## Attributes that are looked for -/

/-- The name of an attribute in front of what tells it from other text. -/
def mark {α : Type} (name : String) (rest : Pattern α) : Pattern α := do
  wordBoundary
  litAnyCase name
  rest

/-- Nothing is read unless only blanks stand in front of an equals sign. -/
def NeedsEquals {α : Type} (p : Pattern α) : Prop :=
  ∀ front c back, '=' ∉ front → Text.isSpace c = false → c ≠ '=' →
    p.Refuses (front ++ c :: back)

theorem sourceMark_eq : sourceMark = mark "src" (do blanks; lit "=") := rfl

theorem scriptType_eq : scriptType = mark "type" (do
    equals
    let _ ← char isPlainQuote
    let type ← run (fun c => !isPlainQuote c) 0
    let _ ← char isPlainQuote
    return type) := rfl

section Mark

variable {α β : Type} {name : String} {p : Pattern α} {t : List Char}

/-- Blanks may stand in front of what needs an equals sign. -/
theorem needsEquals_blanks_bind {f : Unit → Pattern α}
    (hf : ∀ t, t.head? ≠ some '=' → (f ()).Refuses t) : NeedsEquals (blanks >>= f) := by
  intro front c back hfront hc hne
  refine reads_blanks.refuses_bind fun blanks rest _ htext hblanks => hf rest ?_
  intro hhead
  obtain ⟨rest, rfl⟩ : ∃ more, rest = '=' :: more := by
    cases rest with
    | nil => cases hhead
    | cons d ds => exact ⟨ds, by rw [Option.some.inj hhead]⟩
  rcases List.append_eq_append_iff.mp htext with ⟨more, rfl, hmore⟩ | ⟨more, rfl, hmore⟩
  · cases more with
    | nil => exact hne (List.cons.inj hmore).1
    | cons d ds =>
      have hspace := hblanks d (List.mem_append_right _ List.mem_cons_self)
      rw [← (List.cons.inj hmore).1, hc] at hspace
      cases hspace
  · cases more with
    | nil => exact hne (List.cons.inj hmore).1.symm
    | cons d ds =>
      refine hfront (List.mem_append_right _ ?_)
      rw [(List.cons.inj hmore).1]
      exact List.mem_cons_self

/-- What needs an equals sign at its front needs it whatever follows. -/
theorem NeedsEquals.bind (hp : NeedsEquals p) (f : α → Pattern β) : NeedsEquals (p >>= f) :=
  fun front c back hfront hc hne => (hp front c back hfront hc hne).bind f

/-- A text that begins with another character has no equals sign. -/
theorem refuses_lit_equals (h : t.head? ≠ some '=') : (lit "=").Refuses t := by
  refine refuses_lit ?_
  rintro ⟨more, rfl⟩
  exact h rfl

/-- A mark is refused where its name is. -/
theorem refuses_mark (h : (litAnyCase name >>= fun _ => p).Refuses t) : (mark name p).Refuses t :=
  (reads_checkAt _).refuses_bind fun front back _ htext hfront => by
    rw [hfront, List.nil_append] at htext
    rwa [← htext]

/-- No name of an attribute begins inside a word. -/
theorem first?_mark_of_isWord {c d : Char} (hc : Text.isWord c = true) (hd : Text.isWord d = true) :
    (mark name p ⟨some c, d :: t⟩).first? = none := by
  have hinside : (wordBoundary ⟨some c, d :: t⟩).toList = [] := by
    have hcheck : ((some c).any Text.isWord != (d :: t).head?.any Text.isWord) = false := by
      rw [Option.any_some, List.head?_cons, Option.any_some, hc, hd]
      rfl
    rw [wordBoundary, checkAt, hcheck]
    rfl
  rw [Choices.first?_eq_head?, mark, toList_bind, hinside]
  rfl

section Letters

variable (hname : ∀ l ∈ name.toList, l.isLower = true)
include hname

/-- No name of letters stands at a character that is no letter. -/
theorem refuses_of_not_isLetterLike (hne : name.toList ≠ []) {c : Char}
    (hc : Text.isLetterLike c = false) (t : List Char) :
    (litAnyCase name >>= fun _ => p).Refuses (c :: t) := by
  obtain ⟨l, ls, hcons⟩ := List.exists_cons_of_ne_nil hne
  refine (refuses_litAnyCase ?_).bind _
  rw [hcons, beginsAnyCase, Bool.and_eq_false_iff]
  refine .inl (Bool.eq_false_iff.mpr fun hletter => ?_)
  have hl : l.isLower = true := hname l (hcons ▸ List.mem_cons_self)
  have hlike := Text.isLetterLike_of_isLetterOfAnyCase hl hletter
  rw [hc] at hlike
  cases hlike

/-- The name is read from what stands in front of a character that is no letter, or not at all. -/
theorem refuses_of_forall_spells {front : List Char} {c : Char} {back : List Char}
    (hc : Text.isLetterLike c = false)
    (h : ∀ word rest, front = word ++ rest → Spells name.toList word →
      p.Refuses (rest ++ c :: back)) :
    (litAnyCase name >>= fun _ => p).Refuses (front ++ c :: back) := by
  refine (reads_litAnyCase_spells name).refuses_bind fun word rest _ htext hword => ?_
  have hletters := hword.isLetterLike hname
  rcases List.append_eq_append_iff.mp htext with ⟨more, rfl, hmore⟩ | ⟨more, hfront, rfl⟩
  · cases more with
    | nil =>
      rw [List.append_nil] at hword
      rw [← List.nil_append rest, ← hmore]
      exact h front [] (List.append_nil _).symm hword
    | cons d ds =>
      have hd := hletters d (List.mem_append_right _ List.mem_cons_self)
      rw [← (List.cons.inj hmore).1, hc] at hd
      cases hd
  · exact h word more hfront hword

end Letters

/-! ## Attributes that are passed over and attributes that are found -/

/-- What a search yields, wherever it finds it. -/
def valueFrom? (p : Pattern α) (prev : Option Char) (t : List Char) : Option α :=
  (p.searchAt prev t).map (·.value)

/-- A search goes on behind a word in which it finds nothing. -/
theorem valueFrom?_append {word : List Char} {prev : Option Char}
    (h : ∀ front c back, word = front ++ c :: back →
      (p ⟨front.getLast?.or prev, c :: (back ++ t)⟩).first? = none) :
    valueFrom? p prev (word ++ t) = valueFrom? p (word.getLast?.or prev) t := by
  rw [valueFrom?, searchAt_append_of_first?_eq_none h, Option.map_map]
  rfl

/-- A search goes on behind a word that the pattern refuses from every character on. -/
theorem valueFrom?_append_of_refuses {word : List Char} {prev : Option Char}
    (h : ∀ c back, c :: back <:+ word → p.Refuses (c :: back ++ t)) :
    valueFrom? p prev (word ++ t) = valueFrom? p (word.getLast?.or prev) t :=
  valueFrom?_append fun front c back hword => (h c back ⟨front, hword.symm⟩).first? _

/-- A search ends where the pattern matches. -/
theorem valueFrom?_of_first? {prev : Option Char} {a : α} {c : Cursor}
    (h : (p ⟨prev, t⟩).first? = some (a, c)) : valueFrom? p prev t = some a := by
  cases t with
  | nil =>
    rw [valueFrom?, searchAt, h]
    rfl
  | cons x xs =>
    rw [valueFrom?, searchAt, h]
    rfl

section Attribute

variable {a : WrittenAttribute} (hname : ∀ l ∈ name.toList, l.isLower = true)
  (hne : name.toList ≠ [])
include hname hne

/-- Blanks are passed over. -/
theorem valueFrom?_mark_blanks {gap : List Char} (hgap : ∀ c ∈ gap, Text.isSpace c = true)
    (prev : Option Char) (t : List Char) :
    valueFrom? (mark name p) prev (gap ++ t) =
      valueFrom? (mark name p) (gap.getLast?.or prev) t := by
  refine valueFrom?_append_of_refuses fun c back hrest => refuses_mark ?_
  have hc : Text.isSpace c = true := hgap c (hrest.subset List.mem_cons_self)
  refine refuses_of_not_isLetterLike hname hne ?_ _
  refine Bool.eq_false_iff.mpr fun hlike => ?_
  rw [Text.isSpace_eq_false_of_isLetterLike hlike] at hc
  cases hc

/-- So is what follows the name of an attribute: its value has no equals sign. -/
theorem valueFrom?_mark_assignment (h : a.IsWritten) (hp : NeedsEquals p) (prev : Option Char)
    (t : List Char) : valueFrom? (mark name p) prev (a.assignment ++ t) =
      valueFrom? (mark name p) (some a.quote) t := by
  have hlast : a.assignment.getLast?.or prev = some a.quote := by
    rw [WrittenAttribute.assignment, ← List.cons_append, ← List.cons_append, List.getLast?_concat]
    rfl
  rw [← hlast]
  refine valueFrom?_append_of_refuses fun c back hrest => refuses_mark ?_
  -- at the equals sign, at the quote, and at each place of the value
  rcases List.suffix_cons_iff.mp hrest with heq | hrest
  · rw [(List.cons.inj heq).1]
    exact refuses_of_not_isLetterLike hname hne rfl _
  rcases List.suffix_cons_iff.mp hrest with heq | hrest
  · rw [(List.cons.inj heq).1]
    exact refuses_of_not_isLetterLike hname hne h.isLetterLike_quote _
  rcases List.suffix_concat_iff.mp hrest with hnil | ⟨more, hmore, hvalue⟩
  · cases hnil
  rw [hmore, List.append_assoc]
  refine refuses_of_forall_spells hname h.isLetterLike_quote fun word rest hword _ => ?_
  refine hp rest a.quote t (fun hequals => ?_) h.isSpace_quote h.quote_ne
  exact (h.value '=' (hvalue.subset (hword ▸ List.mem_append_right _ hequals))).2.1 rfl

/-- An attribute with another name is passed over. -/
theorem valueFrom?_mark_of_not_isNamed (h : a.IsWritten) (hp : NeedsEquals p)
    (hnot : a.isNamed name = false) (prev : Option Char) (t : List Char) :
    valueFrom? (mark name p) prev (a.text ++ t) =
      valueFrom? (mark name p) (some a.quote) t := by
  have hother : ¬ Spells name.toList a.name := by
    rw [spells_iff_map_toLower hname h.name]
    simpa [WrittenAttribute.isNamed] using hnot
  have hword : valueFrom? (mark name p) (a.gap.getLast?.or prev) (a.name ++ (a.assignment ++ t)) =
      valueFrom? (mark name p) (a.name.getLast?.or (a.gap.getLast?.or prev))
        (a.assignment ++ t) := by
    refine valueFrom?_append fun front c back hsplit => ?_
    have hletter : ∀ d ∈ front ++ c :: back, d.isAlpha = true := hsplit ▸ h.name
    rcases List.eq_nil_or_concat front with rfl | ⟨front, d, rfl⟩
    -- at the front of the name another one is not read, or its letters go on
    · rw [List.nil_append] at hsplit
      refine (refuses_mark ?_).first? _
      rw [← List.cons_append, ← hsplit]
      refine refuses_of_forall_spells hname rfl fun word rest hname hspells => ?_
      cases rest with
      | nil =>
        rw [hname, List.append_nil] at hother
        exact absurd hspells hother
      | cons e es =>
        have he := h.name e (hname ▸ List.mem_append_right _ List.mem_cons_self)
        exact hp [] e _ List.not_mem_nil (Text.isSpace_eq_false_of_isAlpha he)
          (by rintro rfl; cases he)
    · rw [List.concat_eq_append, List.getLast?_concat, Option.some_or]
      exact first?_mark_of_isWord
        (Text.isWord_of_isAlpha (hletter d (by simp)))
        (Text.isWord_of_isAlpha (hletter c (by simp)))
  rw [WrittenAttribute.text, List.append_assoc, List.append_assoc,
    valueFrom?_mark_blanks hname hne fun c hc => (h.gap c hc).1, hword,
    valueFrom?_mark_assignment hname hne h hp]

/-- An attribute with the name is found, unless a word goes on in front of it. -/
theorem valueFrom?_mark_of_isNamed {v : α} {rest : List Char} (h : a.IsWritten)
    (hnamed : a.isNamed name = true) (hp : p.Takes (a.assignment ++ t) v rest)
    {prev : Option Char} (hprev : prev.any Text.isWord = false) :
    valueFrom? (mark name p) prev (a.text ++ t) = some v := by
  have hspells : Spells name.toList a.name := by
    rw [spells_iff_map_toLower hname h.name]
    simpa [WrittenAttribute.isNamed] using hnamed
  have hblank : (a.gap.getLast?.or prev).any Text.isWord = false := by
    cases hlast : a.gap.getLast? with
    | none => exact hprev
    | some c =>
      exact Text.isWord_eq_false_of_isSpace (h.gap c (List.mem_of_getLast? hlast)).1
  have hbegins : ((a.gap.getLast?.or prev).any Text.isWord !=
      (a.name ++ (a.assignment ++ t)).head?.any Text.isWord) = true := by
    obtain ⟨c, cs, hcons⟩ := List.exists_cons_of_ne_nil h.named
    have hc : Text.isWord c = true := Text.isWord_of_isAlpha (h.name c (hcons ▸ List.mem_cons_self))
    rw [hblank, hcons, List.cons_append, List.head?_cons, Option.any_some, hc]
    rfl
  have htakes : (litAnyCase name >>= fun _ => p).Takes (a.name ++ (a.assignment ++ t)) v rest :=
    (takes_litAnyCase hspells _).bind hp
  obtain ⟨last, hfirst⟩ := htakes (a.gap.getLast?.or prev)
  rw [WrittenAttribute.text, List.append_assoc, List.append_assoc,
    valueFrom?_mark_blanks hname hne fun c hc => (h.gap c hc).1]
  exact valueFrom?_of_first? ((first?_checkAt_bind hbegins _).trans hfirst)

/-- The first attribute with the name is found among those of a tag. -/
theorem valueFrom?_mark_attributes {attributes : List WrittenAttribute} {gap : List Char}
    (h : ∀ a ∈ attributes, a.IsWritten) (hgap : ∀ c ∈ gap, Text.isSpace c = true)
    (hp : NeedsEquals p) {v : WrittenAttribute → α}
    (hv : ∀ a, a.IsWritten → ∀ t, ∃ rest, p.Takes (a.assignment ++ t) (v a) rest)
    {prev : Option Char} (hprev : prev.any Text.isWord = false) :
    valueFrom? (mark name p) prev (attributes.flatMap WrittenAttribute.text ++ gap) =
      (attributes.find? (·.isNamed name)).map v := by
  induction attributes generalizing prev with
  | nil =>
    have hend : (litAnyCase name >>= fun _ => p).Refuses [] := by
      obtain ⟨l, ls, hcons⟩ := List.exists_cons_of_ne_nil hne
      refine (refuses_litAnyCase ?_).bind _
      rw [hcons]
      rfl
    rw [List.flatMap_nil, List.nil_append, ← List.append_nil gap,
      valueFrom?_mark_blanks hname hne hgap, valueFrom?, (refuses_mark hend).searchAt_nil]
    rfl
  | cons a attributes ih =>
    obtain ⟨ha, hothers⟩ := List.forall_mem_cons.mp h
    rw [List.flatMap_cons, List.append_assoc, List.find?_cons]
    cases hnamed : a.isNamed name with
    | true =>
      obtain ⟨rest, htakes⟩ := hv a ha (attributes.flatMap WrittenAttribute.text ++ gap)
      exact valueFrom?_mark_of_isNamed hname hne ha hnamed htakes hprev
    | false =>
      rw [valueFrom?_mark_of_not_isNamed hname hne ha hp hnamed]
      exact ih hothers ha.isWord_quote

end Attribute

end Mark

/-- A script runs in the page when it has no source and its first type, if any, is that of a
program. -/
theorem runsInPage_eq (text : List Char) : runsInPage text =
    if (valueFrom? sourceMark none text).isSome then false
    else (valueFrom? scriptType none text).all fun value =>
      (let kind := Text.lower value
       Text.contains kind "javascript".toList || kind == "module".toList || kind.isEmpty) := by
  unfold runsInPage occursIn valueFrom?
  rw [Option.isSome_map]
  show (if (sourceMark.search? text).isSome then _ else _) =
    if (sourceMark.search? text).isSome then _ else ((scriptType.search? text).map (·.value)).all _
  cases scriptType.search? text <;> rfl

/-- Only the empty text is empty in small letters. -/
theorem lower_eq_nil_iff (text : List Char) : Text.lower text = [] ↔ text = [] := by
  cases text with
  | nil => exact iff_of_true rfl rfl
  | cons c cs =>
    have hne : Text.lowerChar c ≠ [] := by
      unfold Text.lowerChar
      split
      · exact List.cons_ne_nil _ _
      · split <;> exact List.cons_ne_nil _ _
    refine iff_of_false ?_ (List.cons_ne_nil _ _)
    rw [Text.lower, Text.lowerAfter]
    refine List.append_ne_nil_of_left_ne_nil ?_ _
    split
    · split <;> exact List.cons_ne_nil _ _
    · exact hne

section Takes

variable {a : WrittenAttribute} {t : List Char}

/-- No blanks stand between the name and the equals sign. -/
theorem takes_blanks_equals {α : Type} {f : Unit → Pattern α} {v : α} {rest : List Char}
    (hf : (f ()).Takes (a.assignment ++ t) v rest) :
    (blanks >>= f).Takes (a.assignment ++ t) v rest :=
  (skips_blanks rfl).takes.bind hf

/-- The pattern for an equals sign takes that of the attribute. -/
theorem takes_equals (h : a.IsWritten) :
    equals.Takes (a.assignment ++ t) () (a.quote :: (a.value ++ a.quote :: t)) := by
  have hbehind : a.assignment ++ t = "=".toList ++ a.quote :: (a.value ++ a.quote :: t) := by
    simp [WrittenAttribute.assignment]
  have hsolid : (a.quote :: (a.value ++ a.quote :: t)).head?.any Text.isSpace = false :=
    h.isSpace_quote
  refine takes_blanks_equals ?_
  rw [hbehind]
  exact (takes_lit "=" _).bind (skips_blanks hsolid).takes

/-- The pattern for a quoted value takes the value of the attribute. -/
theorem takes_quoted (h : a.IsWritten) :
    (do
      let _ ← char isPlainQuote
      let type ← run (fun c => !isPlainQuote c) 0
      let _ ← char isPlainQuote
      return type : Pattern (List Char)).Takes (a.quote :: (a.value ++ a.quote :: t)) a.value
        t := by
  have hrun : (run (fun c => !isPlainQuote c) 0).Takes (a.value ++ a.quote :: t) a.value
      (a.quote :: t) := by
    refine takes_run (fun c hc => ?_) (Nat.zero_le _) ?_
    · rw [(h.value c hc).1]
      rfl
    · rw [List.head?_cons, Option.any_some, h.quote]
      rfl
  exact (takes_char h.quote _).bind (hrun.bind ((takes_char h.quote t).bind
    (takes_pure a.value t)))

end Takes

/-- Whether a script runs in its page is told by its attributes as they are written. -/
theorem runsInPage_attributes {attributes : List WrittenAttribute} {gap : List Char}
    (h : ∀ a ∈ attributes, a.IsWritten) (hgap : ∀ c ∈ gap, Text.isSpace c = true) :
    runsInPage (attributes.flatMap WrittenAttribute.text ++ gap) = isInline attributes := by
  have hequals : NeedsEquals equals :=
    (needsEquals_blanks_bind fun t ht => (refuses_lit_equals ht).bind fun _ => blanks)
  have hsource : valueFrom? sourceMark none (attributes.flatMap WrittenAttribute.text ++ gap) =
      (attributes.find? (·.isNamed "src")).map fun _ => () := by
    have hneeds : NeedsEquals (do blanks; lit "=") :=
      needsEquals_blanks_bind fun t ht => refuses_lit_equals ht
    rw [sourceMark_eq]
    refine valueFrom?_mark_attributes (List.all_eq_true.mp (by decide)) (by decide) h hgap hneeds
      (fun a ha t => ⟨a.quote :: (a.value ++ [a.quote] ++ t), ?_⟩) rfl
    exact takes_blanks_equals (takes_lit "=" _)
  have htype : valueFrom? scriptType none (attributes.flatMap WrittenAttribute.text ++ gap) =
      (attributes.find? (·.isNamed "type")).map (·.value) := by
    rw [scriptType_eq]
    refine valueFrom?_mark_attributes (List.all_eq_true.mp (by decide)) (by decide) h hgap
      (hequals.bind _) (fun a ha t => ⟨t, (takes_equals ha).bind ?_⟩) rfl
    exact takes_quoted ha
  have hprogram : ∀ value : List Char, (Text.contains (Text.lower value) "javascript".toList ||
      Text.lower value == "module".toList || (Text.lower value).isEmpty) = isProgramType value := by
    intro value
    have hempty : (Text.lower value).isEmpty = value.isEmpty := by
      rw [Bool.eq_iff_iff, List.isEmpty_iff, List.isEmpty_iff, lower_eq_nil_iff]
    rw [isProgramType, hempty, Bool.or_comm, Bool.or_comm (Text.contains _ _), Bool.or_assoc]
  rw [runsInPage_eq, hsource, htype, isInline, Option.isSome_map, List.isSome_find?,
    Option.all_map]
  cases attributes.any (·.isNamed "src") with
  | true => rfl
  | false =>
    cases attributes.find? (·.isNamed "type") with
    | none => rfl
    | some a => exact hprogram a.value

/-! ## Script elements -/

/-- The line breaks of a text. -/
def breaks (text : List Char) : List Char :=
  text.filter (· == '\n')

/-- A script element as a page has it written. -/
structure ScriptElement where
  /-- The sign and the name that open the start tag. -/
  opening : List Char
  attributes : List WrittenAttribute
  /-- Blanks in front of the end of the start tag. -/
  gap : List Char
  body : List Char
  /-- The sign and the name that open the end tag. -/
  closing : List Char
  /-- Blanks in front of the end of the end tag. -/
  closingGap : List Char

namespace ScriptElement

/-- What stands between the name of the start tag and its end. -/
def attributesText (e : ScriptElement) : List Char :=
  e.attributes.flatMap WrittenAttribute.text ++ e.gap

def startTag (e : ScriptElement) : List Char :=
  e.opening ++ (e.attributesText ++ ['>'])

def endTag (e : ScriptElement) : List Char :=
  e.closing ++ (e.closingGap ++ ['>'])

def text (e : ScriptElement) : List Char :=
  e.startTag ++ (e.body ++ e.endTag)

/-- The body of a script that runs in the page, and the line breaks of any other one. -/
def shown (e : ScriptElement) : List Char :=
  if isInline e.attributes then e.body else breaks e.body

/-- The tags are on one line each, and the body holds no end tag, nor a start tag unless the script
runs in the page. -/
structure IsWritten (e : ScriptElement) : Prop where
  opening : Spells "<script".toList e.opening
  attributes : ∀ a ∈ e.attributes, a.IsWritten
  /-- A blank keeps the first attribute apart from the name of the tag. -/
  parted : ∀ a, e.attributes.head? = some a → a.gap ≠ []
  gap : ∀ c ∈ e.gap, Text.isSpace c = true ∧ c ≠ '\n'
  body : Lacks "</script".toList e.body
  foreign : isInline e.attributes = false → Lacks "<script".toList e.body
  closing : Spells "</script".toList e.closing
  closingGap : ∀ c ∈ e.closingGap, Text.isSpace c = true ∧ c ≠ '\n'

section IsWritten

variable {e : ScriptElement} (h : e.IsWritten)
include h

/-- A start tag begins with its sign and a name of letters. -/
theorem IsWritten.exists_opening : ∃ name, e.opening = '<' :: name ∧ name ≠ [] ∧
    ∀ c ∈ name, Text.isLetterLike c = true := by
  have hspells : Spells ('<' :: "script".toList) e.opening := h.opening
  obtain ⟨c, name, hcons, hc, hname⟩ := hspells.exists_cons
  refine ⟨name, ?_, ?_, hname.isLetterLike (List.all_eq_true.mp (by decide))⟩
  · rw [hcons, Text.eq_of_isLetterOfAnyCase rfl hc]
  · rintro rfl
    cases hname.1

/-- An end tag begins with its signs and a name of letters. -/
theorem IsWritten.exists_closing : ∃ name, e.closing = '<' :: '/' :: name ∧
    ∀ c ∈ name, Text.isLetterLike c = true := by
  have hspells : Spells ('<' :: '/' :: "script".toList) e.closing := h.closing
  obtain ⟨c, back, hcons, hc, hback⟩ := hspells.exists_cons
  obtain ⟨d, name, hcons', hd, hname⟩ := hback.exists_cons
  refine ⟨name, ?_, hname.isLetterLike (List.all_eq_true.mp (by decide))⟩
  rw [hcons, hcons', Text.eq_of_isLetterOfAnyCase rfl hc, Text.eq_of_isLetterOfAnyCase rfl hd]

/-- The attributes end in front of the end of the tag, on its line. -/
theorem IsWritten.ne_of_mem_attributesText :
    ∀ c ∈ e.attributesText, c ≠ '>' ∧ c ≠ '\n' := by
  intro c hc
  rcases List.mem_append.mp hc with hc | hc
  · obtain ⟨a, ha, hc⟩ := List.mem_flatMap.mp hc
    exact (h.attributes a ha).ne_of_mem_text c hc
  · exact ⟨Text.ne_of_class (h.gap c hc).1 rfl, (h.gap c hc).2⟩

/-- No word goes on behind the name of the start tag. -/
theorem IsWritten.head?_attributesText (t : List Char) :
    (e.attributesText ++ '>' :: t).head?.any Text.isWord = false := by
  have hblank : e.attributesText.head?.all Text.isSpace = true := by
    cases hattributes : e.attributes with
    | nil =>
      rw [attributesText, hattributes, List.flatMap_nil, List.nil_append]
      cases hgap : e.gap with
      | nil => rfl
      | cons c cs => exact (h.gap c (hgap ▸ List.mem_cons_self)).1
    | cons a others =>
      obtain ⟨c, cs, hcons⟩ := List.exists_cons_of_ne_nil (h.parted a (by rw [hattributes]; rfl))
      have ha := h.attributes a (hattributes ▸ List.mem_cons_self)
      rw [attributesText, hattributes, List.flatMap_cons, WrittenAttribute.text, hcons]
      exact (ha.gap c (hcons ▸ List.mem_cons_self)).1
  cases htext : e.attributesText with
  | nil => rfl
  | cons c cs =>
    rw [htext] at hblank
    exact Text.isWord_eq_false_of_isSpace hblank

theorem IsWritten.not_mem_startTag : '\n' ∉ e.startTag := by
  obtain ⟨name, hname, -, hletters⟩ := h.exists_opening
  rw [startTag, hname]
  simp only [List.mem_append, List.mem_cons, List.not_mem_nil, or_false, not_or]
  refine ⟨⟨by decide, Text.not_mem_of_class hletters rfl⟩, ⟨fun hmem => ?_, by decide⟩⟩
  exact (h.ne_of_mem_attributesText _ hmem).2 rfl

theorem IsWritten.not_mem_endTag : '\n' ∉ e.endTag := by
  obtain ⟨name, hname, hletters⟩ := h.exists_closing
  rw [endTag, hname]
  simp only [List.mem_append, List.mem_cons, List.not_mem_nil, or_false, not_or]
  refine ⟨⟨by decide, by decide, Text.not_mem_of_class hletters rfl⟩, ⟨fun hmem => ?_, by decide⟩⟩
  exact (h.closingGap _ hmem).2 rfl

/-- The pattern for a start tag takes it and yields its attributes. -/
theorem IsWritten.takes_scriptStart (t : List Char) :
    scriptStart.Takes (e.startTag ++ t) e.attributesText t := by
  obtain ⟨name, hname, hne, hletters⟩ := h.exists_opening
  have hlast : e.opening.getLast?.any Text.isWord = true := by
    rw [hname, List.getLast?_cons, List.getLast?_eq_some_getLast hne]
    exact Text.isWord_of_isLetterLike (hletters _ (List.getLast_mem hne))
  have hrun : (run inTag 0).Takes (e.attributesText ++ '>' :: t) e.attributesText ('>' :: t) :=
    takes_run (fun c hc => bne_iff_ne.mpr (h.ne_of_mem_attributesText c hc).1) (Nat.zero_le _) rfl
  have htag : e.startTag ++ t = e.opening ++ (e.attributesText ++ '>' :: t) := by
    simp [startTag]
  rw [htag]
  exact takes_wordBoundary_bind (fun prev => toList_litAnyCase h.opening prev _) hlast
    (h.head?_attributesText t)
    (hrun.bind ((takes_lit ">" t).bind (takes_pure e.attributesText t)))

theorem IsWritten.takes_scriptEnd (t : List Char) : scriptEnd.Takes (e.endTag ++ t) () t := by
  have htag : e.endTag ++ t = e.closing ++ (e.closingGap ++ '>' :: t) := by
    simp [endTag]
  rw [htag]
  exact (takes_litAnyCase h.closing _).bind
    ((takes_blanks (fun c hc => (h.closingGap c hc).1) rfl).bind (takes_lit ">" t))

end IsWritten

end ScriptElement

end SourceSurvey.Extract.Html
