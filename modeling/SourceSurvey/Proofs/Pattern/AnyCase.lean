import SourceSurvey.Proofs.Pattern.Repetition
import SourceSurvey.Proofs.Text.Blank
import Mathlib.Data.List.Infix

/-!
# Words in any letter case

A word of lower-case letters and signs is read in every spelling that differs from it in letter
case only. Main statements: a spelling of the word is taken from the front of a text, a search
passes over a text in which the word begins nowhere, and what is put behind a text does not make the
word begin in it unless the word goes on with what is put there.
-/

namespace SourceSurvey

namespace Text

/-! ## Letters -/

variable {l c : Char}

/-- An ASCII letter, or one of the few other characters that equal one when case is ignored. -/
def isLetterLike (c : Char) : Bool :=
  c.isAlpha || [0x130, 0x131, 0x17F, 0x212A].contains c.toNat

/-- What holds of all ASCII letters by their codes holds of a letter. -/
theorem forall_isAlpha {P : Char → Prop}
    (h : ∀ n < 128, (Char.ofNat n).isAlpha = true → P (Char.ofNat n)) (hc : c.isAlpha = true) :
    P c := by
  have hcode : c.toNat < 128 := by
    have hle : c.val ≤ 'Z'.val ∨ c.val ≤ 'z'.val := by
      rcases Bool.or_eq_true_iff.mp hc with hcapital | hsmall
      · exact .inl (of_decide_eq_true hcapital).2
      · exact .inr (of_decide_eq_true (Bool.and_eq_true_iff.mp hsmall).2)
    rw [UInt32.le_iff_toNat_le, UInt32.le_iff_toNat_le] at hle
    have hcapital : 'Z'.val.toNat = 90 := rfl
    have hsmall : 'z'.val.toNat = 122 := rfl
    show c.val.toNat < 128
    omega
  exact forall_ascii (P := fun c => c.isAlpha = true → P c) h hcode hc

theorem isAlpha_of_isLower (h : c.isLower = true) : c.isAlpha = true :=
  Bool.or_eq_true_iff.mpr (.inr h)

/-- A small letter is its own lower case. -/
theorem toLower_of_isLower (h : c.isLower = true) : c.toLower = c :=
  forall_isAlpha (P := fun c => c.isLower = true → c.toLower = c) (by decide)
    (isAlpha_of_isLower h) h

/-- The lower case of a letter is a small letter. -/
theorem isLower_toLower (h : c.isAlpha = true) : c.toLower.isLower = true :=
  forall_isAlpha (P := fun c => c.toLower.isLower = true) (by decide) h

theorem isWord_of_isAlpha (h : c.isAlpha = true) : isWord c = true :=
  forall_isAlpha (P := fun c => isWord c = true) (by decide) h

theorem isSpace_eq_false_of_isAlpha (h : c.isAlpha = true) : isSpace c = false :=
  isSpace_eq_false_of_isWord (isWord_of_isAlpha h)

/-- What is no letter is its own lower case. -/
theorem toLower_of_not_isAlpha (h : ¬ c.isAlpha = true) : c.toLower = c := by
  have hupper : ¬ c.isUpper = true := fun hupper => h (Bool.or_eq_true_iff.mpr (.inl hupper))
  exact dif_neg fun hcapital => hupper (decide_eq_true hcapital)

theorem isWord_of_isLetterLike (h : isLetterLike c = true) : isWord c = true := by
  have hcodes : ∀ n ∈ [0x130, 0x131, 0x17F, 0x212A], isWord (Char.ofNat n) = true := by
    decide +kernel
  rcases Bool.or_eq_true_iff.mp h with halpha | hfolded
  · exact isWord_of_isAlpha halpha
  · have hword := hcodes c.toNat (List.contains_iff_mem.mp hfolded)
    rwa [Char.ofNat_toNat] at hword

theorem isSpace_eq_false_of_isLetterLike (h : isLetterLike c = true) : isSpace c = false :=
  isSpace_eq_false_of_isWord (isWord_of_isLetterLike h)

/-- A letter is equalled by letters and the few other characters only. -/
theorem isLetterLike_of_isLetterOfAnyCase (hl : l.isLower = true)
    (h : isLetterOfAnyCase l c = true) : isLetterLike c = true := by
  have halpha : c.toLower = l → c.isAlpha = true := by
    intro heq
    by_contra hnot
    rw [toLower_of_not_isAlpha hnot] at heq
    rw [heq] at hnot
    exact hnot (isAlpha_of_isLower hl)
  unfold isLetterOfAnyCase at h
  unfold isLetterLike
  simp only [Bool.or_eq_true, Bool.and_eq_true, beq_iff_eq, List.contains_iff_mem, List.mem_cons,
    List.not_mem_nil, or_false] at h ⊢
  rcases h with (((rfl | heq) | ⟨-, hcode⟩) | ⟨-, hcode⟩) | ⟨-, hcode⟩
  · exact .inl (isAlpha_of_isLower hl)
  · exact .inl (halpha heq)
  · exact .inr (by omega)
  · exact .inr (by omega)
  · exact .inr (by omega)

/-- A sign is equalled by itself only. -/
theorem eq_of_isLetterOfAnyCase (hl : l.isLower = false) (h : isLetterOfAnyCase l c = true) :
    c = l := by
  have hsign : ∀ d : Char, d.isLower = true → ¬ l = d := by
    rintro d hd rfl
    rw [hl] at hd
    cases hd
  unfold isLetterOfAnyCase at h
  simp only [Bool.or_eq_true, Bool.and_eq_true, beq_iff_eq, hsign 'i' rfl, hsign 's' rfl,
    hsign 'k' rfl, false_and, or_false] at h
  rcases h with heq | heq
  · exact heq
  · by_cases halpha : c.isAlpha = true
    · exact absurd heq.symm (hsign _ (isLower_toLower halpha))
    · rwa [toLower_of_not_isAlpha halpha] at heq

/-- An ASCII letter equals a small one when its small form does. -/
theorem isLetterOfAnyCase_of_isAlpha (hl : l.isLower = true) (hc : c.isAlpha = true) :
    isLetterOfAnyCase l c = (c.toLower == l) := by
  have hcode := forall_isAlpha (P := fun c => c.toNat < 128) (by decide) hc
  have hself : (c == l) = true → (c.toLower == l) = true := by
    rw [beq_iff_eq, beq_iff_eq]
    rintro rfl
    exact toLower_of_isLower hl
  have hfolded : ∀ n, 128 ≤ n → (c.toNat == n) = false := fun n hn => by
    rw [beq_eq_false_iff_ne]
    omega
  unfold isLetterOfAnyCase
  rw [hfolded 0x130 (by decide), hfolded 0x131 (by decide), hfolded 0x17F (by decide),
    hfolded 0x212A (by decide)]
  simp only [Bool.or_false, Bool.and_false]
  cases hbeq : (c == l) with
  | false => rfl
  | true => rw [hself hbeq]; rfl

end Text

namespace Pattern

variable {α β : Type}

/-! ## Spellings -/

section Spelling

variable {word front text rest : List Char} {l c : Char}

/-- The text is the word in some letter case. -/
def Spells (word text : List Char) : Prop :=
  text.length = word.length ∧ beginsAnyCase word text = true

/-- Nowhere in the text does the word begin, in any letter case. -/
def Lacks (word text : List Char) : Prop :=
  ∀ rest, rest <:+ text → beginsAnyCase word rest = false

instance (word text : List Char) : Decidable (Spells word text) :=
  inferInstanceAs (Decidable (_ ∧ _))

instance (word text : List Char) : Decidable (Lacks word text) :=
  decidable_of_iff (∀ rest ∈ text.tails, beginsAnyCase word rest = false)
    (forall_congr' fun rest => imp_congr_left (List.mem_tails rest text))

/-- Whether a text begins with a word is settled by as many characters as the word has. -/
theorem beginsAnyCase_append_of_length_le (h : word.length ≤ front.length) (rest : List Char) :
    beginsAnyCase word (front ++ rest) = beginsAnyCase word front := by
  induction word generalizing front with
  | nil => cases front <;> rfl
  | cons l ls ih =>
    cases front with
    | nil => exact absurd h (Nat.not_succ_le_zero _)
    | cons x xs =>
      rw [List.cons_append, beginsAnyCase, beginsAnyCase, ih (Nat.le_of_succ_le_succ h)]

/-- A longer text begins with the words that its front begins with. -/
theorem beginsAnyCase_append (h : beginsAnyCase word front = true) (rest : List Char) :
    beginsAnyCase word (front ++ rest) = true := by
  rwa [beginsAnyCase_append_of_length_le (beginsAnyCase_length_le h)]

/-- A word does not go on with a character that is none of its letters. -/
theorem beginsAnyCase_append_cons (h : ∀ l ∈ word, Text.isLetterOfAnyCase l c = false)
    (front rest : List Char) :
    beginsAnyCase word (front ++ c :: rest) = beginsAnyCase word front := by
  induction word generalizing front with
  | nil => cases front <;> rfl
  | cons l ls ih =>
    cases front with
    | nil =>
      show (Text.isLetterOfAnyCase l c && beginsAnyCase ls rest) = false
      rw [h l List.mem_cons_self]
      rfl
    | cons x xs =>
      rw [List.cons_append, beginsAnyCase, beginsAnyCase,
        ih fun l hl => h l (List.mem_cons_of_mem _ hl)]

/-- What begins with the word begins with a spelling of it. -/
theorem exists_spells_of_beginsAnyCase (h : beginsAnyCase word text = true) :
    ∃ front rest, text = front ++ rest ∧ Spells word front := by
  have hfront : (text.take word.length).length = word.length := by
    rw [List.length_take, Nat.min_eq_left (beginsAnyCase_length_le h)]
  refine ⟨text.take word.length, text.drop word.length, (List.take_append_drop _ _).symm, hfront,
    ?_⟩
  rw [← List.take_append_drop word.length text,
    beginsAnyCase_append_of_length_le hfront.ge] at h
  exact h

/-- A text that spells a word spells its first letter first. -/
theorem Spells.exists_cons (h : Spells (l :: word) text) :
    ∃ c cs, text = c :: cs ∧ Text.isLetterOfAnyCase l c = true ∧ Spells word cs := by
  obtain ⟨hlength, hbegins⟩ := h
  cases text with
  | nil => cases hbegins
  | cons c cs =>
    obtain ⟨hc, hcs⟩ := Bool.and_eq_true_iff.mp hbegins
    exact ⟨c, cs, rfl, hc, Nat.succ.inj hlength, hcs⟩

/-- A spelling of a word of letters is made of letters. -/
theorem Spells.isLetterLike (h : Spells word text) (hword : ∀ l ∈ word, l.isLower = true) :
    ∀ c ∈ text, Text.isLetterLike c = true := by
  induction word generalizing text with
  | nil =>
    rw [List.length_eq_zero_iff.mp h.1]
    exact List.forall_mem_nil _
  | cons l ls ih =>
    obtain ⟨hl, hls⟩ := List.forall_mem_cons.mp hword
    obtain ⟨c, cs, rfl, hc, hcs⟩ := h.exists_cons
    exact List.forall_mem_cons.mpr ⟨Text.isLetterLike_of_isLetterOfAnyCase hl hc, ih hcs hls⟩

/-- A text of ASCII letters spells a word of small letters if its small form is the word. -/
theorem spells_iff_map_toLower (hword : ∀ l ∈ word, l.isLower = true)
    (htext : ∀ c ∈ text, c.isAlpha = true) : Spells word text ↔ text.map Char.toLower = word := by
  unfold Spells
  induction word generalizing text with
  | nil =>
    rw [List.map_eq_nil_iff, List.length_nil, List.length_eq_zero_iff]
    exact ⟨And.left, fun h => ⟨h, by rw [h]; rfl⟩⟩
  | cons l ls ih =>
    obtain ⟨hl, hls⟩ := List.forall_mem_cons.mp hword
    cases text with
    | nil => exact iff_of_false (fun h => absurd h.1 (by simp)) (by simp)
    | cons x xs =>
      obtain ⟨hx, hxs⟩ := List.forall_mem_cons.mp htext
      rw [beginsAnyCase, Text.isLetterOfAnyCase_of_isAlpha hl hx, Bool.and_eq_true, beq_iff_eq,
        List.map_cons, List.cons.injEq, ← ih hls hxs, List.length_cons, List.length_cons,
        Nat.succ_inj, and_left_comm]

/-- A part of a text lacks the words that the text lacks. -/
theorem Lacks.of_isInfix (h : Lacks word text) (hpart : front <:+: text) : Lacks word front := by
  rintro rest ⟨before, rfl⟩
  obtain ⟨left, right, rfl⟩ := hpart
  refine Bool.eq_false_iff.mpr fun hbegins => ?_
  have hlonger := beginsAnyCase_append hbegins right
  rw [h (rest ++ right) ⟨left ++ before, by simp⟩] at hlonger
  cases hlonger

end Spelling

/-! ## Readings -/

section Reading

variable {s : String} {word t : List Char}

/-- A word in any letter case is read in one way where it stands, and else in none. -/
theorem litAnyCase_eq (s : String) (c : Cursor) : litAnyCase s c =
    if beginsAnyCase s.toList c.rest then .one ((), c.advance s.toList.length) else .none := by
  rw [litAnyCase, String.length_toList]

/-- It is refused where the text begins with another one. -/
theorem refuses_litAnyCase (h : beginsAnyCase s.toList t = false) : (litAnyCase s).Refuses t := by
  intro prev
  rw [litAnyCase, h]
  rfl

/-- The one way to read a spelling takes it and nothing more. -/
theorem toList_litAnyCase (h : Spells s.toList word) (prev : Option Char) (rest : List Char) :
    (litAnyCase s ⟨prev, word ++ rest⟩).toList = [((), ⟨word.getLast?.or prev, rest⟩)] := by
  rw [litAnyCase_eq, if_pos (beginsAnyCase_append h.2 rest), ← h.1, Cursor.advance_append]
  rfl

/-- Every spelling of the word is taken. -/
theorem takes_litAnyCase (h : Spells s.toList word) (rest : List Char) :
    (litAnyCase s).Takes (word ++ rest) () rest := by
  intro prev
  refine ⟨word.getLast?.or prev, ?_⟩
  rw [Choices.first?_eq_head?, toList_litAnyCase h]
  rfl

/-- What is read spells the word. -/
theorem reads_litAnyCase_spells (s : String) :
    (litAnyCase s).Reads fun t _ => Spells s.toList t := by
  intro c r hr
  rw [litAnyCase_eq] at hr
  split at hr
  · next hbegins =>
    obtain ⟨front, rest, hrest, hspells⟩ := exists_spells_of_beginsAnyCase hbegins
    rw [List.mem_singleton.mp hr]
    refine ⟨front, ?_, hspells⟩
    rw [Cursor.rest_advance, hrest, ← hspells.1, List.drop_left]
  · cases hr

theorem ignoresBefore_litAnyCase (hs : s.toList ≠ []) : (litAnyCase s).IgnoresBefore := by
  obtain ⟨l, ls, hcons⟩ := List.exists_cons_of_ne_nil hs
  intro a b t
  rw [litAnyCase_eq, litAnyCase_eq, hcons]
  cases t with
  | nil => rfl
  | cons y ys => rfl

end Reading

/-! ## Searches -/

section Search

variable {s : String} {p : Pattern α} {word t : List Char} {prev : Option Char}

theorem getLast?_cons_or (c : Char) (cs : List Char) (prev : Option Char) :
    (c :: cs).getLast?.or prev = cs.getLast?.or (some c) := by
  rw [List.getLast?_cons]
  cases cs.getLast? <;> rfl

/-- A search passes over the places where the pattern cannot be read. -/
theorem searchAt_append_of_first?_eq_none (h : ∀ front c back, word = front ++ c :: back →
      (p ⟨front.getLast?.or prev, c :: (back ++ t)⟩).first? = none) :
    p.searchAt prev (word ++ t) = (p.searchAt (word.getLast?.or prev) t).map fun f =>
      { f with before := word ++ f.before } := by
  induction word generalizing prev with
  | nil =>
    show p.searchAt prev t = (p.searchAt prev t).map fun f => f
    rw [Option.map_id']
  | cons c cs ih =>
    have hhere : (p ⟨prev, c :: (cs ++ t)⟩).first? = none := h [] c cs rfl
    have hrest : p.searchAt (some c) (cs ++ t) = _ := ih fun front d back hcs => by
      have hthere := h (c :: front) d back (by rw [hcs, List.cons_append])
      rwa [getLast?_cons_or] at hthere
    rw [List.cons_append, searchAt, hhere, getLast?_cons_or]
    dsimp only
    rw [hrest, Option.map_map]
    rfl

/-- What does not look back is searched alike behind every character. -/
theorem IgnoresBefore.searchAt (h : p.IgnoresBefore) (prev prev' : Option Char) (t : List Char) :
    p.searchAt prev t = p.searchAt prev' t := by
  have hfirst : (p ⟨prev, t⟩).first? = (p ⟨prev', t⟩).first? := by
    rw [Choices.first?_eq_head?, Choices.first?_eq_head?, h prev prev' t]
  cases t with
  | nil => rw [Pattern.searchAt, Pattern.searchAt, hfirst]
  | cons x xs =>
    rw [Pattern.searchAt, Pattern.searchAt, hfirst]
    rfl

/-- A search for what begins with a word passes over the places where the word does not begin. -/
theorem search?_litAnyCase_append (hs : s.toList ≠ []) {f : Unit → Pattern α}
    (h : ∀ c back, c :: back <:+ word → beginsAnyCase s.toList (c :: back ++ t) = false) :
    (litAnyCase s >>= f).search? (word ++ t) =
      ((litAnyCase s >>= f).search? t).map fun g => { g with before := word ++ g.before } := by
  have hbefore : (litAnyCase s >>= f).IgnoresBefore := (ignoresBefore_litAnyCase hs).bind f
  unfold search?
  rw [searchAt_append_of_first?_eq_none, hbefore.searchAt _ none t]
  rintro front c back rfl
  exact ((refuses_litAnyCase (h c back (List.suffix_append _ _))).bind f).first? _

/-- A word that has its first character only once does not begin in a text that lacks it because of
what is put behind, if this begins with that character. -/
theorem search?_litAnyCase_append_of_lacks {l : Char} {ls : List Char} (hs : s.toList = l :: ls)
    (hls : ∀ k ∈ ls, Text.isLetterOfAnyCase k l = false) (hlacks : Lacks s.toList word)
    (ht : t = [] ∨ ∃ more, t = l :: more) (f : Unit → Pattern α) :
    (litAnyCase s >>= f).search? (word ++ t) =
      ((litAnyCase s >>= f).search? t).map fun g => { g with before := word ++ g.before } := by
  refine search?_litAnyCase_append (hs ▸ List.cons_ne_nil l ls) fun c back hback => ?_
  have hnot := hlacks _ hback
  rcases ht with rfl | ⟨more, rfl⟩
  · rwa [List.append_nil]
  -- the word would have to go on with what is put behind, which is no letter of it
  · rw [hs, beginsAnyCase] at hnot
    rw [hs, List.cons_append, beginsAnyCase, beginsAnyCase_append_cons hls]
    exact hnot

/-- In a text that lacks a word nothing is found that begins with it. -/
theorem search?_eq_none_of_lacks (h : Lacks s.toList t) (f : Unit → Pattern α) :
    (litAnyCase s >>= f).search? t = none := by
  have hs : s.toList ≠ [] := fun hnil => by
    have hempty := h [] List.nil_suffix
    rw [hnil] at hempty
    cases hempty
  have hpast : (litAnyCase s >>= f).search? (t ++ []) = _ :=
    search?_litAnyCase_append hs fun c back hback => by
      rw [List.append_nil]
      exact h _ hback
  have hend : (litAnyCase s >>= f).search? [] = none :=
    ((refuses_litAnyCase (h [] List.nil_suffix)).bind f).searchAt_nil none
  rwa [List.append_nil, hend] at hpast

end Search

end Pattern

end SourceSurvey
