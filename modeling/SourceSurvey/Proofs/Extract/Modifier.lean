import SourceSurvey.Extract.BraceLanguage
import SourceSurvey.Proofs.Code.Nested
import SourceSurvey.Proofs.Pattern.Repetition

/-!
# Modifiers in front of a declaration

Words of a given list, each with white space behind it, one after the other. Main statement: modifier
words are taken up to a name that is none of them.
-/

namespace SourceSurvey

/-! ## Modifier words -/

namespace Extract

open Pattern

/-- White space of any kind, at least one character. -/
structure Spacing extends WhiteSpace where
  ne_nil : text ≠ []

theorem Spacing.head?_append (space : Spacing) {p : Char → Bool}
    (hp : ∀ {c}, Text.isSpace c = true → p c = false) (more : List Char) :
    (space.text ++ more).head?.any p = false := by
  obtain ⟨c, cs, htext⟩ := List.exists_cons_of_ne_nil space.ne_nil
  rw [htext]
  exact hp (space.isSpace c (htext ▸ List.mem_cons_self))

/-- The first character of a text belongs to a class. -/
def BeginsWith (p : Char → Bool) (text : List Char) : Prop :=
  text.head?.any p = true

section BeginsWith

variable {p : Char → Bool} {text : List Char}

/-- A text that is not empty and of a class begins in the class, whatever follows. -/
theorem beginsWith_append (hne : text ≠ []) (hchars : ∀ c ∈ text, p c = true)
    (more : List Char) : BeginsWith p (text ++ more) := by
  obtain ⟨c, cs, rfl⟩ := List.exists_cons_of_ne_nil hne
  exact hchars c List.mem_cons_self

theorem BeginsWith.exists_cons (h : BeginsWith p text) :
    ∃ c cs, text = c :: cs ∧ p c = true := by
  cases text with
  | nil => cases h
  | cons c cs => exact ⟨c, cs, rfl, h⟩

/-- No sign outside a class stands where a text begins in it. -/
theorem BeginsWith.not_isPrefix (h : BeginsWith p text) {c : Char} (hc : p c = false)
    (cs : List Char) : ¬ c :: cs <+: text := by
  obtain ⟨d, ds, rfl, hd⟩ := h.exists_cons
  exact fun hfront => Text.ne_of_class hd hc (List.cons_prefix_cons.mp hfront).1.symm

end BeginsWith

/-- A text does not begin with a blank. -/
def BeginsSolid (text : List Char) : Prop :=
  text.head?.any Text.isSpace = false

theorem beginsSolid_append {text : List Char} (hne : text ≠ [])
    (hchars : ∀ c ∈ text, Text.isSpace c = false) (more : List Char) :
    BeginsSolid (text ++ more) := by
  obtain ⟨c, cs, rfl⟩ := List.exists_cons_of_ne_nil hne
  exact hchars c List.mem_cons_self

theorem BeginsWith.beginsSolid {p : Char → Bool} {text : List Char} (h : BeginsWith p text)
    (hp : ∀ c, p c = true → Text.isSpace c = false) : BeginsSolid text := by
  obtain ⟨c, cs, rfl, hc⟩ := h.exists_cons
  exact hp c hc

/-- A text that begins with no blank and ends in a text without blanks around it has none around it.
-/
theorem BeginsSolid.tight_append {front text : List Char} (h : BeginsSolid (front ++ text))
    (htext : Text.Tight text) : Text.Tight (front ++ text) := by
  obtain ⟨cs, c, hlast, hc⟩ := htext.last
  refine ⟨?_, front ++ cs, c, by rw [hlast, List.append_assoc], hc⟩
  obtain ⟨d, ds, hfirst⟩ :=
    List.exists_cons_of_ne_nil (List.append_ne_nil_of_right_ne_nil front htext.ne_nil)
  rw [hfirst] at h ⊢
  exact ⟨d, ds, rfl, h⟩

/-- One of several words with white space behind it. -/
structure Modifier (words : List String) where
  word : String
  mem : word ∈ words
  blanks : Spacing

def Modifier.text {words : List String} (modifier : Modifier words) : List Char :=
  modifier.word.toList ++ modifier.blanks.text

theorem forall_mem_toList_of_all {words : List String} {p : Char → Bool}
    (h : words.all (·.toList.all p) = true) : ∀ w ∈ words, ∀ c ∈ w.toList, p c = true :=
  fun w hw => List.all_eq_true.mp (List.all_eq_true.mp h w hw)

/-- The words have no blanks, and none of them begins another one. -/
structure AreModifiers (words : List String) : Prop where
  solid : ∀ w ∈ words, Text.Solid w.toList
  apart : ∀ v ∈ words, ∀ w ∈ words, v.toList <+: w.toList → v = w

/-- The pattern of one modifier. -/
def modifierWord (words : List String) : Pattern String := do
  let w ← oneOf words
  blanks1
  return w

variable {words : List String} {more : List Char}

/-- The pattern for a modifier takes the word and the blanks behind it. -/
theorem AreModifiers.takes (h : AreModifiers words) (modifier : Modifier words)
    (hmore : BeginsSolid more) :
    (modifierWord words).Takes (modifier.text ++ more) modifier.word more := by
  have hother : ∀ v ∈ words, v ≠ modifier.word →
      ¬ v.toList <+: modifier.word.toList ++ (modifier.blanks.text ++ more) := by
    intro v hv hne hfront
    rcases List.prefix_or_prefix_of_prefix hfront (List.prefix_append _ _) with hvw | hwv
    · exact hne (h.apart v hv _ modifier.mem hvw)
    · exact hne (h.apart _ modifier.mem v hv hwv).symm
  rw [Modifier.text, List.append_assoc]
  exact (takes_oneOf modifier.mem hother).bind
    ((takes_blanks1 modifier.blanks.ne_nil modifier.blanks.isSpace hmore).bind (takes_pure _ more))

/-- A modifier begins with no blank. -/
theorem AreModifiers.beginsSolid (h : AreModifiers words) (modifier : Modifier words)
    (more : List Char) : BeginsSolid (modifier.text ++ more) := by
  obtain ⟨hne, hchars⟩ := h.solid modifier.word modifier.mem
  rw [Modifier.text, List.append_assoc]
  exact beginsSolid_append hne hchars _

/-- In front of a run of characters that is none of the words, no word can be read that needs a blank
behind it: a longer run goes on behind the word. -/
theorem refuses_oneOf_bind {β : Type} {p : Char → Bool} {name tail : List Char}
    {f : String → Pattern β} (hp : ∀ c, p c = true → Text.isSpace c = false)
    (hname : ∀ c ∈ name, p c = true) (htail : tail.head?.any p = false)
    (hwords : ∀ w ∈ words, ∀ c ∈ w.toList, p c = true) (hne : ∀ w ∈ words, w.toList ≠ name)
    (hf : ∀ w {t}, BeginsSolid t → (f w).Refuses t) :
    (oneOf words >>= f).Refuses (name ++ tail) := by
  have hrun : ∀ {word rest : List Char}, (∀ c ∈ word, p c = true) →
      (word ++ rest).takeWhile p = word ++ rest.takeWhile p :=
    fun hword => List.takeWhile_append_of_pos hword
  have hstop : tail.takeWhile p = [] := by
    cases tail with
    | nil => rfl
    | cons c cs => exact List.takeWhile_cons_of_neg (by simpa using htail)
  refine (reads_oneOf words).refuses_bind fun front back w htext hread => ?_
  obtain ⟨rfl, hw⟩ := hread
  refine hf w ?_
  have hlonger : name = w.toList ++ back.takeWhile p := by
    rw [← hrun (hwords w hw), ← htext, hrun hname, hstop, List.append_nil]
  cases back with
  | nil => exact absurd (by rw [hlonger]; exact (List.append_nil _).symm) (hne w hw)
  | cons c cs =>
    by_cases hc : p c = true
    · exact hp c hc
    · rw [List.takeWhile_cons_of_neg hc, List.append_nil] at hlonger
      exact absurd hlonger.symm (hne w hw)

/-- So no modifier can be read there. -/
theorem refuses_modifierWord {p : Char → Bool} {name tail : List Char}
    (hp : ∀ c, p c = true → Text.isSpace c = false) (hname : ∀ c ∈ name, p c = true)
    (htail : tail.head?.any p = false) (hwords : ∀ w ∈ words, ∀ c ∈ w.toList, p c = true)
    (hne : ∀ w ∈ words, w.toList ≠ name) : (modifierWord words).Refuses (name ++ tail) :=
  refuses_oneOf_bind hp hname htail hwords hne fun _ _ h => (refuses_blanks1 h).bind _

/-- Modifiers are taken one after the other, up to what is none. -/
theorem AreModifiers.takes_modifierWords (h : AreModifiers words)
    (modifiers : List (Modifier words)) {rest : List Char} (hrest : BeginsSolid rest)
    (hstop : (modifierWord words).Refuses rest) :
    (modifierWords words).Takes (modifiers.flatMap Modifier.text ++ rest)
      (modifiers.map Modifier.word) rest := by
  have htaken : ∀ x ∈ modifiers.map fun m => (m.text, m.word), ∃ m : Modifier words,
      x = (m.text, m.word) := by
    intro x hx
    obtain ⟨m, -, rfl⟩ := List.mem_map.mp hx
    exact ⟨m, rfl⟩
  have hmany : (many (modifierWord words)).Takes
      ((modifiers.map fun m => (m.text, m.word)).flatMap Prod.fst ++ rest)
      ((modifiers.map fun m => (m.text, m.word)).map Prod.snd) rest := by
    refine takes_many ?_ (fun x hx more hmore => ?_) (fun x hx more hmore => ?_) hrest hstop
    · intro x hx
      obtain ⟨m, rfl⟩ := htaken x hx
      exact List.append_ne_nil_of_left_ne_nil (h.solid m.word m.mem).1 _
    · obtain ⟨m, rfl⟩ := htaken x hx
      exact h.takes m hmore
    · obtain ⟨m, rfl⟩ := htaken x hx
      exact h.beginsSolid m more
  rw [List.flatMap_map, List.map_map] at hmany
  exact hmany

/-- With modifiers of a class in front, or without any, a text begins in the class. -/
theorem AreModifiers.beginsWith (h : AreModifiers words) {p : Char → Bool}
    (hwords : ∀ w ∈ words, ∀ c ∈ w.toList, p c = true) (modifiers : List (Modifier words))
    {rest : List Char} (hrest : BeginsWith p rest) :
    BeginsWith p (modifiers.flatMap Modifier.text ++ rest) := by
  cases modifiers with
  | nil => exact hrest
  | cons m ms =>
    rw [List.flatMap_cons, Modifier.text, List.append_assoc, List.append_assoc]
    exact beginsWith_append (h.solid m.word m.mem).1 (hwords m.word m.mem) _

/-- Modifiers open and close nothing. -/
theorem isNested_modifiers {allowed : Char → Bool}
    (hwords : words.all (·.toList.all fun c => isFlat c && allowed c) = true)
    (hspace : ∀ c, Text.isSpace c = true → allowed c = true) (modifiers : List (Modifier words)) :
    IsNested allowed false (modifiers.flatMap Modifier.text) := by
  induction modifiers with
  | nil => exact .nil
  | cons m ms ih =>
    have hword : IsNested allowed false m.word.toList := .of_isFlat fun c hc =>
      Bool.and_eq_true _ _ ▸ forall_mem_toList_of_all hwords m.word m.mem c hc
    exact (hword.append (m.blanks.isNested hspace)).append ih

end Extract

end SourceSurvey
