import SourceSurvey.Description
import SourceSurvey.Proofs.Text.Field

/-!
# Spellings of a name

Naming conventions differ in what marks the beginning of a word: an underscore in front of it or a
capital. An underscore is always seen, a capital only behind a small ASCII letter or a digit; words
with nothing to tell them apart are read as one. Main statements: what is read of each spelling of
a name, whatever marks stand at its ends (`nameWords_spell`), and when the spellings of a method's
name agree on what is said of it (`exists_method_spell_iff`).
-/

namespace SourceSurvey

/-! ## Lower case and trimming -/

namespace Text

/-- Without a capital sigma each character has its lower case for itself. -/
theorem lower_of_forall_ne_sigma {text : List Char} (h : ∀ c ∈ text, c.toNat ≠ 0x3A3) :
    lower text = text.flatMap lowerChar := by
  have hafter : ∀ before, lowerAfter before text = text.flatMap lowerChar := by
    induction text with
    | nil => exact fun _ => rfl
    | cons c cs ih =>
      intro before
      have hsigma : ¬ (c.toNat == 0x3A3) = true := by
        rw [beq_iff_eq]
        exact h c List.mem_cons_self
      rw [lowerAfter, if_neg hsigma, ih fun d hd => h d (List.mem_cons_of_mem c hd),
        List.flatMap_cons]
  exact hafter []

/-- A text all of a class is trimmed away. -/
theorem trimEndWhile_of_forall {p : Char → Bool} {text : List Char} (h : ∀ c ∈ text, p c = true) :
    trimEndWhile p text = [] := by
  induction text with
  | nil => rfl
  | cons c cs ih =>
    rw [trimEndWhile, ih fun d hd => h d (List.mem_cons_of_mem c hd)]
    exact if_pos (h c List.mem_cons_self)

/-- What stands between two characters outside the class is kept. -/
theorem trimWhile_append {p : Char → Bool} {front back text : List Char}
    (hfront : ∀ c ∈ front, p c = true) (hback : ∀ c ∈ back, p c = true)
    (hfirst : ∃ c cs, text = c :: cs ∧ p c = false)
    (hlast : ∃ cs c, text = cs ++ [c] ∧ p c = false) :
    trimWhile p (front ++ text ++ back) = text := by
  have hstart : (front ++ text ++ back).dropWhile p = text ++ back := by
    obtain ⟨c, cs, rfl, hc⟩ := hfirst
    rw [List.append_assoc, List.dropWhile_append_of_pos hfront, List.cons_append,
      List.dropWhile_cons_of_neg (by rw [hc]; exact Bool.false_ne_true)]
  obtain ⟨cs, c, rfl, hc⟩ := hlast
  rw [trimWhile, hstart, List.append_assoc, List.singleton_append, trimEndWhile_append_cons hc,
    trimEndWhile_of_forall hback]

end Text

namespace Description

/-! ## Small letters and capitals -/

/-- A small ASCII letter. -/
def isSmallLetter (c : Char) : Bool := 'a' ≤ c && c ≤ 'z'

/-- A small ASCII letter or a digit. -/
def isSmall (c : Char) : Bool := ('a' ≤ c && c ≤ 'z') || ('0' ≤ c && c ≤ '9')

/-- An ASCII capital. -/
def isCapital (c : Char) : Bool := 'A' ≤ c && c ≤ 'Z'

/-- A mark that may stand at the ends of a name. -/
def isEdge (c : Char) : Bool := c == '_' || c == '#' || c == '$'

/-- What holds of all ASCII characters holds of a small letter or digit. -/
theorem forall_small {P : Char → Prop} (h : ∀ n < 128, isSmall (Char.ofNat n) = true →
    P (Char.ofNat n)) {c : Char} (hc : isSmall c = true) : P c := by
  have hcode : c.toNat < 128 := by
    simp only [isSmall, Bool.or_eq_true, Bool.and_eq_true, decide_eq_true_eq, Char.le_def,
      UInt32.le_iff_toNat_le] at hc
    have hz : 'z'.val.toNat = 122 := rfl
    have hnine : '9'.val.toNat = 57 := rfl
    show c.val.toNat < 128
    omega
  exact Text.forall_ascii (P := fun c => isSmall c = true → P c) h hcode hc

theorem isSmall_of_isSmallLetter {c : Char} (h : isSmallLetter c = true) : isSmall c = true :=
  Bool.or_eq_true_iff.mpr (Or.inl h)

/-- The capital of a small letter. -/
theorem toUpper_of_isSmallLetter {c : Char} (h : isSmallLetter c = true) :
    isCapital c.toUpper = true ∧ isEdge c.toUpper = false ∧ Text.lowerChar c.toUpper = [c] :=
  forall_small (P := fun c => isSmallLetter c = true → isCapital c.toUpper = true ∧
    isEdge c.toUpper = false ∧ Text.lowerChar c.toUpper = [c]) (by decide)
    (isSmall_of_isSmallLetter h) h

/-- A character that is its own lower case and no mark, as every small letter and every digit of any
script is. -/
def isPlain (c : Char) : Bool := Text.lowerChar c == [c] && !isEdge c

/-- A character is plain when it is its own lower case and no mark. -/
theorem isPlain_iff {c : Char} :
    isPlain c = true ↔ Text.lowerChar c = [c] ∧ isEdge c = false := by
  rw [isPlain, Bool.and_eq_true, beq_iff_eq, Bool.not_eq_true']

theorem toNat_lt_of_isCapital {c : Char} (h : isCapital c = true) : c.toNat < 128 := by
  simp only [isCapital, Bool.and_eq_true, decide_eq_true_eq, Char.le_def,
    UInt32.le_iff_toNat_le] at h
  have hz : 'Z'.val.toNat = 90 := rfl
  show c.val.toNat < 128
  omega

/-- An ASCII capital is not its own lower case. -/
theorem isCapital_eq_false_of_isPlain {c : Char} (h : isPlain c = true) : isCapital c = false := by
  by_contra hcapital
  rw [Bool.not_eq_false] at hcapital
  have hascii : ∀ n < 128, isPlain (Char.ofNat n) = true → ¬ isCapital (Char.ofNat n) = true := by
    decide
  exact Text.forall_ascii (P := fun c => isPlain c = true → ¬ isCapital c = true) hascii
    (toNat_lt_of_isCapital hcapital) h hcapital

/-- A capital sigma is not its own lower case. -/
theorem ne_sigma_of_isPlain {c : Char} (h : isPlain c = true) : c.toNat ≠ 0x3A3 := by
  intro hsigma
  have hplain : isPlain (Char.ofNat 0x3A3) = false := by decide +kernel
  rw [← Char.ofNat_toNat c, hsigma, hplain] at h
  cases h

/-! ## Conventions -/

/-- A word of a name: a small ASCII letter, then at least one more small letter or digit, which may
be of any script. -/
structure IsNameWord (word : List Char) : Prop where
  first : ∃ c cs, word = c :: cs ∧ isSmallLetter c = true
  plain : ∀ c ∈ word, isPlain c = true
  isLong : 2 ≤ word.length

/-- The word with a capital. -/
def capitalized : List Char → List Char
  | [] => []
  | c :: cs => c.toUpper :: cs

/-- What marks the words of a name: underscores between them, or capitals, which the first word may
have or not. -/
inductive Convention where
  | snake | camel | pascal
deriving Repr, DecidableEq

/-- The words as a convention writes them. -/
def Convention.parts : Convention → List (List Char) → List (List Char)
  | .snake, words => words
  | .camel, [] => []
  | .camel, word :: words => word :: words.map capitalized
  | .pascal, words => words.map capitalized

/-- What a convention writes between words. -/
def Convention.separator : Convention → List Char
  | .snake => ['_']
  | _ => []

/-- The name that words have by a convention. -/
def Convention.spell (convention : Convention) (words : List (List Char)) : List Char :=
  Text.join convention.separator (convention.parts words)

section Word

variable {word : List Char}

/-- A word is its first letter and others, of which there is at least one. -/
theorem IsNameWord.exists_cons (h : IsNameWord word) : ∃ c d cs, word = c :: d :: cs ∧
    isSmallLetter c = true ∧ ∀ e ∈ d :: cs, isPlain e = true := by
  obtain ⟨c, others, rfl, hc⟩ := h.first
  cases others with
  | nil => exact absurd h.isLong (Nat.lt_irrefl 1)
  | cons d cs => exact ⟨c, d, cs, rfl, hc, fun e he => h.plain e (List.mem_cons_of_mem c he)⟩

/-- A word of a name is not empty. -/
theorem IsNameWord.ne_nil (h : IsNameWord word) : word ≠ [] := by
  obtain ⟨c, cs, rfl, -⟩ := h.first
  exact List.cons_ne_nil c cs

/-- A word as a part of a spelled name, with a capital or without. -/
inductive IsPartOf (word : List Char) : List Char → Prop
  | plain : IsPartOf word word
  | capitalized : IsPartOf word (capitalized word)

variable {part : List Char}

/-- No mark stands at the front of a part. -/
theorem IsPartOf.exists_first (hpart : IsPartOf word part) (h : IsNameWord word) :
    ∃ c cs, part = c :: cs ∧ isEdge c = false := by
  obtain ⟨c, d, cs, rfl, hc, -⟩ := h.exists_cons
  cases hpart with
  | plain => exact ⟨c, d :: cs, rfl, (isPlain_iff.mp (h.plain c List.mem_cons_self)).2⟩
  | capitalized => exact ⟨c.toUpper, d :: cs, rfl, (toUpper_of_isSmallLetter hc).2.1⟩

/-- A word with a capital begins with one. -/
theorem IsNameWord.exists_capitalized (h : IsNameWord word) :
    ∃ c cs, capitalized word = c :: cs ∧ isCapital c = true := by
  obtain ⟨c, cs, rfl, hc⟩ := h.first
  exact ⟨c.toUpper, cs, rfl, (toUpper_of_isSmallLetter hc).1⟩

/-- No mark stands at the end of a part. -/
theorem IsPartOf.exists_last (hpart : IsPartOf word part) (h : IsNameWord word) :
    ∃ cs c, part = cs ++ [c] ∧ isEdge c = false := by
  obtain ⟨c, d, cs, rfl, -, hcs⟩ := h.exists_cons
  have hlast := (isPlain_iff.mp (hcs _ (List.getLast_mem (List.cons_ne_nil d cs)))).2
  have hconcat := List.dropLast_append_getLast (List.cons_ne_nil d cs)
  cases hpart with
  | plain => exact ⟨c :: (d :: cs).dropLast, _, by rw [List.cons_append, hconcat], hlast⟩
  | capitalized =>
    exact ⟨c.toUpper :: (d :: cs).dropLast, _, by rw [List.cons_append, hconcat]; rfl, hlast⟩

/-- Every character of a part is its own lower case or an ASCII capital. -/
theorem IsPartOf.plain_or_capital (hpart : IsPartOf word part) (h : IsNameWord word) {c : Char}
    (hc : c ∈ part) : isPlain c = true ∨ isCapital c = true ∧ isEdge c = false := by
  cases hpart with
  | plain => exact Or.inl (h.plain c hc)
  | capitalized =>
    obtain ⟨d, e, cs, rfl, hd, hcs⟩ := h.exists_cons
    rcases List.mem_cons.mp hc with rfl | hc
    · exact Or.inr ⟨(toUpper_of_isSmallLetter hd).1, (toUpper_of_isSmallLetter hd).2.1⟩
    · exact Or.inl (hcs c hc)

/-- A part of a spelled name holds no underscore. -/
theorem IsPartOf.underscore_not_mem (hpart : IsPartOf word part) (h : IsNameWord word) :
    '_' ∉ part := by
  intro hmem
  rcases hpart.plain_or_capital h hmem with hplain | ⟨-, hedge⟩
  · exact absurd hplain (by decide)
  · exact absurd hedge (by decide)

/-- A part of a spelled name holds no capital sigma. -/
theorem IsPartOf.ne_sigma (hpart : IsPartOf word part) (h : IsNameWord word) {c : Char}
    (hc : c ∈ part) : c.toNat ≠ 0x3A3 := by
  rcases hpart.plain_or_capital h hc with hplain | ⟨hcapital, -⟩
  · exact ne_sigma_of_isPlain hplain
  · have hcode := toNat_lt_of_isCapital hcapital
    omega

/-- By its lower case a part is its word. -/
theorem IsPartOf.flatMap_lowerChar (hpart : IsPartOf word part) (h : IsNameWord word) :
    part.flatMap Text.lowerChar = word := by
  have hkept : ∀ {text : List Char}, (∀ c ∈ text, isPlain c = true) →
      text.flatMap Text.lowerChar = text := fun htext =>
    (List.flatMap_congr fun c hc => (isPlain_iff.mp (htext c hc)).1).trans
      (List.flatMap_singleton' _)
  cases hpart with
  | plain => exact hkept h.plain
  | capitalized =>
    obtain ⟨c, d, cs, rfl, hc, hcs⟩ := h.exists_cons
    show (c.toUpper :: d :: cs).flatMap Text.lowerChar = c :: d :: cs
    rw [List.flatMap_cons, (toUpper_of_isSmallLetter hc).2.2, hkept hcs]
    rfl

end Word

/-! ## Words read as one -/

/-- A word that ends in a small ASCII letter or digit. -/
def endsSmall (word : List Char) : Bool := word.getLast?.any isSmall

theorem endsSmall_cons_cons (c d : Char) (cs : List Char) :
    endsSmall (c :: d :: cs) = endsSmall (d :: cs) := by
  rw [endsSmall, List.getLast?_cons_cons, endsSmall]

/-- A word of small letters and digits ends in one. -/
theorem endsSmall_of_forall {word : List Char} (hne : word ≠ [])
    (h : ∀ c ∈ word, isSmall c = true) : endsSmall word = true := by
  rw [endsSmall, List.getLast?_eq_some_getLast hne]
  exact h _ (List.getLast_mem hne)

/-- A capital at its front does not change how a word ends. -/
theorem IsPartOf.endsSmall_eq {word part : List Char} (hpart : IsPartOf word part)
    (h : IsNameWord word) : endsSmall part = endsSmall word := by
  cases hpart with
  | plain => rfl
  | capitalized =>
    obtain ⟨c, d, cs, rfl, -⟩ := h.exists_cons
    show endsSmall (c.toUpper :: d :: cs) = endsSmall (c :: d :: cs)
    rw [endsSmall_cons_cons, endsSmall_cons_cons]

/-- Words one after another of which those that end in no small ASCII letter or digit are read as
one with the word behind them. -/
def fused : List (List Char) → List (List Char)
  | [] => []
  | [word] => [word]
  | word :: next :: words =>
    if endsSmall word then word :: fused (next :: words)
    else (fused (next :: words)).modifyHead (word ++ ·)

section Fused

variable {word next : List Char} {words : List (List Char)}

/-- A word that ends small is read on its own. -/
theorem fused_cons_of_endsSmall (h : endsSmall word = true) :
    fused (word :: words) = word :: fused words := by
  cases words with
  | nil => rfl
  | cons next words => exact if_pos h

/-- Any other word is read as one with the word behind it. -/
theorem fused_cons_cons_of_not (h : endsSmall word = false) :
    fused (word :: next :: words) = (fused (next :: words)).modifyHead (word ++ ·) :=
  if_neg (by rw [h]; exact Bool.false_ne_true)

/-- The first of the words read begins with the first of the words. -/
theorem exists_fused_cons (word : List Char) (words : List (List Char)) :
    ∃ more others, fused (word :: words) = (word ++ more) :: others := by
  induction words generalizing word with
  | nil => exact ⟨[], [], by rw [List.append_nil]; rfl⟩
  | cons next words ih =>
    cases h : endsSmall word with
    | true => exact ⟨[], _, by rw [fused_cons_of_endsSmall h, List.append_nil]⟩
    | false =>
      obtain ⟨more, others, hnext⟩ := ih next
      exact ⟨next ++ more, others, by rw [fused_cons_cons_of_not h, hnext]; rfl⟩

/-- Nothing of the words is lost. -/
theorem flatten_fused (words : List (List Char)) : (fused words).flatten = words.flatten := by
  induction words with
  | nil => rfl
  | cons word words ih =>
    cases words with
    | nil => rfl
    | cons next words =>
      cases h : endsSmall word with
      | true => rw [fused_cons_of_endsSmall h, List.flatten_cons, ih, ← List.flatten_cons]
      | false =>
        obtain ⟨more, others, hnext⟩ := exists_fused_cons next words
        rw [fused_cons_cons_of_not h, hnext, List.flatten_cons, ← ih, hnext, List.modifyHead_cons,
          List.flatten_cons, List.flatten_cons, List.append_assoc]

/-- No empty word comes about. -/
theorem ne_nil_of_mem_fused (h : ∀ word ∈ words, word ≠ []) :
    ∀ piece ∈ fused words, piece ≠ [] := by
  induction words with
  | nil => exact fun piece hpiece => absurd hpiece List.not_mem_nil
  | cons word words ih =>
    have hrest := ih fun w hw => h w (List.mem_cons_of_mem word hw)
    cases words with
    | nil => exact h
    | cons next words =>
      cases hends : endsSmall word with
      | true =>
        rw [fused_cons_of_endsSmall hends]
        exact List.forall_mem_cons.mpr ⟨h word List.mem_cons_self, hrest⟩
      | false =>
        obtain ⟨more, others, hnext⟩ := exists_fused_cons next words
        rw [hnext] at hrest
        rw [fused_cons_cons_of_not hends, hnext, List.modifyHead_cons]
        exact List.forall_mem_cons.mpr
          ⟨List.append_ne_nil_of_left_ne_nil (h word List.mem_cons_self) _,
            (List.forall_mem_cons.mp hrest).2⟩

/-- What is done character by character may be done before or after. -/
theorem map_fused {f : List Char → List Char} (happend : ∀ a b, f (a ++ b) = f a ++ f b)
    (hends : ∀ word ∈ words, endsSmall (f word) = endsSmall word) :
    (fused words).map f = fused (words.map f) := by
  induction words with
  | nil => rfl
  | cons word words ih =>
    have hrest := ih fun w hw => hends w (List.mem_cons_of_mem word hw)
    have hword := hends word List.mem_cons_self
    cases words with
    | nil => rfl
    | cons next words =>
      rw [List.map_cons, List.map_cons] at *
      cases h : endsSmall word with
      | true =>
        rw [fused_cons_of_endsSmall h, fused_cons_of_endsSmall (hword.trans h), List.map_cons,
          hrest]
      | false =>
        obtain ⟨more, others, hnext⟩ := exists_fused_cons next words
        rw [fused_cons_cons_of_not h, fused_cons_cons_of_not (hword.trans h), ← hrest, hnext,
          List.modifyHead_cons, List.map_cons, happend, List.map_cons, List.modifyHead_cons]

/-- Fusing leaves no more words than there were. -/
theorem length_fused_le (words : List (List Char)) : (fused words).length ≤ words.length := by
  induction words with
  | nil => exact Nat.le_refl 0
  | cons word words ih =>
    cases words with
    | nil => exact Nat.le_refl 1
    | cons next words =>
      cases h : endsSmall word with
      | true =>
        rw [fused_cons_of_endsSmall h]
        exact Nat.succ_le_succ ih
      | false =>
        rw [fused_cons_cons_of_not h, List.length_modifyHead]
        exact Nat.le_succ_of_le ih

/-- All words are read apart exactly if every word but the last ends in a small ASCII letter or
digit. -/
theorem length_fused_eq_iff (words : List (List Char)) :
    (fused words).length = words.length ↔ ∀ word ∈ words.dropLast, endsSmall word = true := by
  induction words with
  | nil => exact iff_of_true rfl (List.forall_mem_nil _)
  | cons word words ih =>
    cases words with
    | nil => exact iff_of_true rfl (List.forall_mem_nil _)
    | cons next words =>
      rw [List.dropLast_cons_cons, List.forall_mem_cons, ← ih]
      cases h : endsSmall word with
      | true =>
        rw [fused_cons_of_endsSmall h, List.length_cons, List.length_cons, Nat.add_right_cancel_iff]
        exact (and_iff_right rfl).symm
      | false =>
        refine iff_of_false (fun hlength => ?_) fun hboth => Bool.false_ne_true hboth.1
        have hle := length_fused_le (next :: words)
        rw [fused_cons_cons_of_not h, List.length_modifyHead, List.length_cons] at hlength
        omega

/-- Words of which all but the last one end small stay apart. -/
theorem fused_eq_self (h : ∀ word ∈ words.dropLast, endsSmall word = true) :
    fused words = words := by
  induction words with
  | nil => rfl
  | cons word words ih =>
    cases words with
    | nil => rfl
    | cons next words =>
      rw [List.dropLast_cons_cons, List.forall_mem_cons] at h
      rw [fused_cons_of_endsSmall h.1, ih h.2]

end Fused

/-! ## Cuts at capitals -/

/-- A name is always split into something. -/
theorem splitCamel_ne_nil (text : List Char) : splitCamel text ≠ [] := by
  unfold splitCamel
  split
  · exact List.cons_ne_nil _ _
  · exact List.cons_ne_nil _ _
  · split
    · exact List.cons_ne_nil _ _
    · dsimp only
      split <;> exact List.cons_ne_nil _ _

/-- A text is cut between a small letter or digit and a capital. -/
theorem splitCamel_cons_cut {c d : Char} (hc : isSmall c = true) (hd : isCapital d = true)
    (cs : List Char) : splitCamel (c :: d :: cs) = [c] :: splitCamel (d :: cs) := by
  obtain ⟨word, words, hrest⟩ := List.exists_cons_of_ne_nil (splitCamel_ne_nil (d :: cs))
  have hcut : (isSmall c && isCapital d) = true := by rw [hc, hd]; rfl
  rw [splitCamel, hrest]
  exact if_pos hcut

/-- It is cut nowhere else. -/
theorem splitCamel_cons_keep {c d : Char} (h : (isSmall c && isCapital d) = false)
    (cs : List Char) :
    splitCamel (c :: d :: cs) = (splitCamel (d :: cs)).modifyHead (c :: ·) := by
  obtain ⟨word, words, hrest⟩ := List.exists_cons_of_ne_nil (splitCamel_ne_nil (d :: cs))
  rw [splitCamel, hrest]
  exact if_neg (by rw [Bool.not_eq_true]; exact h)

/-- Behind a text that is one piece a capital begins a new one exactly if the text ends in a small
letter or digit. -/
theorem splitCamel_append {front : List Char} {d : Char} (hne : front ≠ [])
    (hfront : splitCamel front = [front]) (hd : isCapital d = true) (rest : List Char) :
    splitCamel (front ++ d :: rest) =
      if endsSmall front then front :: splitCamel (d :: rest)
      else (splitCamel (d :: rest)).modifyHead (front ++ ·) := by
  induction front with
  | nil => exact absurd rfl hne
  | cons a front ih =>
    cases front with
    | nil =>
      show splitCamel (a :: d :: rest) = if isSmall a then _ else _
      cases ha : isSmall a with
      | true => exact splitCamel_cons_cut ha hd rest
      | false => exact splitCamel_cons_keep (by rw [ha, Bool.false_and]) rest
    | cons b front =>
      obtain ⟨word, words, hwords⟩ := List.exists_cons_of_ne_nil (splitCamel_ne_nil (b :: front))
      -- one piece is not cut behind its first character
      have hkeep : (isSmall a && isCapital b) = false := by
        by_contra hcut
        rw [Bool.not_eq_false, Bool.and_eq_true] at hcut
        rw [splitCamel_cons_cut hcut.1 hcut.2, hwords] at hfront
        cases hfront
      have hpiece : splitCamel (b :: front) = [b :: front] := by
        rw [splitCamel_cons_keep hkeep, hwords] at hfront
        rw [hwords]
        cases hfront
        rfl
      have ih : splitCamel (b :: (front ++ d :: rest)) = _ := ih (List.cons_ne_nil b front) hpiece
      show splitCamel (a :: b :: (front ++ d :: rest)) = _
      rw [splitCamel_cons_keep hkeep, ih, endsSmall_cons_cons]
      split
      · rfl
      · rw [List.modifyHead_modifyHead]
        rfl

/-- Without an ASCII capital behind its first character a text is one piece. -/
theorem splitCamel_eq_singleton {c : Char} {cs : List Char} (h : ∀ d ∈ cs, isCapital d = false) :
    splitCamel (c :: cs) = [c :: cs] := by
  induction cs generalizing c with
  | nil => rfl
  | cons d ds ih =>
    rw [splitCamel_cons_keep (by rw [h d List.mem_cons_self, Bool.and_false]),
      ih fun e he => h e (List.mem_cons_of_mem d he)]
    rfl

/-- A word is one piece, with or without a capital. -/
theorem IsPartOf.splitCamel_eq {word part : List Char} (hpart : IsPartOf word part)
    (h : IsNameWord word) : splitCamel part = [part] := by
  obtain ⟨c, d, cs, rfl, -, hcs⟩ := h.exists_cons
  have hcapital : ∀ e ∈ d :: cs, isCapital e = false := fun e he =>
    isCapital_eq_false_of_isPlain (hcs e he)
  cases hpart with
  | plain => exact splitCamel_eq_singleton hcapital
  | capitalized => exact splitCamel_eq_singleton hcapital

/-- Pieces written one after another are cut where a capital stands behind a small letter or digit,
which is where they meet or nowhere. -/
theorem splitCamel_flatten {part : List Char} {parts : List (List Char)}
    (hpieces : ∀ p ∈ part :: parts, p ≠ [] ∧ splitCamel p = [p])
    (hcapital : ∀ p ∈ parts, ∃ d ds, p = d :: ds ∧ isCapital d = true) :
    splitCamel (part :: parts).flatten = fused (part :: parts) := by
  induction parts generalizing part with
  | nil =>
    rw [List.flatten_singleton]
    exact (hpieces part List.mem_cons_self).2
  | cons next parts ih =>
    have hrest := ih (fun p hp => hpieces p (List.mem_cons_of_mem part hp))
      fun p hp => hcapital p (List.mem_cons_of_mem next hp)
    obtain ⟨hne, hpart⟩ := hpieces part List.mem_cons_self
    obtain ⟨d, ds, rfl, hd⟩ := hcapital next List.mem_cons_self
    rw [List.flatten_cons, List.flatten_cons, List.cons_append, splitCamel_append hne hpart hd,
      ← List.cons_append, ← List.flatten_cons, hrest]
    rfl

/-! ## The words of a spelled name -/

/-- What is read of words written by a convention: between underscores all of them, and by their
capitals those that can be told apart. -/
def Convention.read : Convention → List (List Char) → List (List Char)
  | .snake, words => words
  | _, words => fused words

section Spelling

variable {words : List (List Char)}

/-- Joining with nothing between is putting one behind the other. -/
theorem join_nil (parts : List (List Char)) : Text.join [] parts = parts.flatten := by
  unfold Text.join
  induction parts with
  | nil => rfl
  | cons part parts ih =>
    cases parts with
    | nil => rw [List.intercalate_singleton, List.flatten_singleton]
    | cons next parts =>
      rw [List.intercalate_cons_cons, ih, List.append_nil]
      rfl

/-- Every part of a spelled name is one of its words, perhaps with a capital. -/
theorem exists_of_mem_parts {convention : Convention} {part : List Char}
    (h : part ∈ convention.parts words) : ∃ word ∈ words, IsPartOf word part := by
  have hmap : ∀ {list : List (List Char)}, part ∈ list.map capitalized →
      ∃ word ∈ list, IsPartOf word part := by
    intro list hmem
    obtain ⟨word, hword, rfl⟩ := List.mem_map.mp hmem
    exact ⟨word, hword, .capitalized⟩
  cases convention with
  | snake => exact ⟨part, h, .plain⟩
  | pascal => exact hmap h
  | camel =>
    cases words with
    | nil => exact absurd h List.not_mem_nil
    | cons word words =>
      rcases List.mem_cons.mp h with rfl | h
      · exact ⟨part, List.mem_cons_self, .plain⟩
      · obtain ⟨w, hw, hpart⟩ := hmap h
        exact ⟨w, List.mem_cons_of_mem word hw, hpart⟩

/-- A spelled name is cut into its parts, as far as they can be told apart. -/
theorem flatMap_splitCamel_spell (hne : words ≠ []) (h : ∀ w ∈ words, IsNameWord w)
    (convention : Convention) :
    (Text.splitAt '_' (convention.spell words)).flatMap splitCamel =
      convention.read (convention.parts words) := by
  obtain ⟨word, words, rfl⟩ := List.exists_cons_of_ne_nil hne
  have hplain : ∀ part ∈ convention.parts (word :: words), '_' ∉ part := by
    intro part hpart
    obtain ⟨w, hw, hpart⟩ := exists_of_mem_parts hpart
    exact hpart.underscore_not_mem (h w hw)
  have hpieces : ∀ part ∈ convention.parts (word :: words), part ≠ [] ∧
      splitCamel part = [part] := by
    intro part hpart
    obtain ⟨w, hw, hpart⟩ := exists_of_mem_parts hpart
    obtain ⟨c, cs, hcons, -⟩ := hpart.exists_first (h w hw)
    exact ⟨hcons ▸ List.cons_ne_nil c cs, hpart.splitCamel_eq (h w hw)⟩
  have hcapital : ∀ part ∈ words.map capitalized, ∃ d ds, part = d :: ds ∧ isCapital d = true := by
    intro part hpart
    obtain ⟨w, hw, rfl⟩ := List.mem_map.mp hpart
    exact (h w (List.mem_cons_of_mem word hw)).exists_capitalized
  -- between capitals there is one text without an underscore, cut where parts meet
  have hcut : ∀ part, (∀ p ∈ part :: words.map capitalized, '_' ∉ p) →
      (∀ p ∈ part :: words.map capitalized, p ≠ [] ∧ splitCamel p = [p]) →
      (Text.splitAt '_' (Text.join [] (part :: words.map capitalized))).flatMap splitCamel =
        fused (part :: words.map capitalized) := by
    intro part hplain hpieces
    have hmem : '_' ∉ (part :: words.map capitalized).flatten := by
      intro hmem
      obtain ⟨p, hp, hmem⟩ := List.mem_flatten.mp hmem
      exact hplain p hp hmem
    rw [join_nil, Text.splitAt_of_not_mem hmem, List.flatMap_singleton,
      splitCamel_flatten hpieces hcapital]
  cases convention with
  | snake =>
    show (Text.splitAt '_' (['_'].intercalate (word :: words))).flatMap splitCamel = word :: words
    rw [Text.splitAt_intercalate hplain]
    exact (List.flatMap_congr fun w hw => (hpieces w hw).2).trans (List.flatMap_singleton' _)
  | camel => exact hcut word hplain hpieces
  | pascal => exact hcut (capitalized word) hplain hpieces

/-- Joined parts begin with the first one. -/
theorem exists_join_cons (separator part : List Char) (parts : List (List Char)) :
    ∃ rest, Text.join separator (part :: parts) = part ++ rest := by
  cases parts with
  | nil => exact ⟨[], by rw [Text.join, List.intercalate_singleton, List.append_nil]⟩
  | cons next parts => exact ⟨_, by rw [Text.join, List.intercalate_cons_cons, List.append_assoc]⟩

/-- Joined parts end with the last one. -/
theorem exists_join_concat (separator part : List Char) (parts : List (List Char)) :
    ∃ front, Text.join separator (parts ++ [part]) = front ++ part := by
  unfold Text.join
  induction parts with
  | nil => exact ⟨[], by rw [List.nil_append, List.intercalate_singleton]; rfl⟩
  | cons first parts ih =>
    obtain ⟨front, hfront⟩ := ih
    obtain ⟨next, more, hmore⟩ : ∃ next more, parts ++ [part] = next :: more :=
      List.exists_cons_of_ne_nil (List.append_ne_nil_of_right_ne_nil _ (List.cons_ne_nil part []))
    refine ⟨first ++ separator ++ front, ?_⟩
    rw [List.cons_append, hmore, List.intercalate_cons_cons, ← hmore, hfront]
    simp only [List.append_assoc]

/-- Marks at the ends of a spelled name are trimmed, and nothing of the name is. -/
theorem trimWhile_spell (hne : words ≠ []) (h : ∀ w ∈ words, IsNameWord w)
    (convention : Convention) {front back : List Char} (hfront : ∀ c ∈ front, isEdge c = true)
    (hback : ∀ c ∈ back, isEdge c = true) :
    Text.trimWhile isEdge (front ++ convention.spell words ++ back) = convention.spell words := by
  have hparts : convention.parts words ≠ [] := by
    obtain ⟨word, words, rfl⟩ := List.exists_cons_of_ne_nil hne
    cases convention <;> exact List.cons_ne_nil _ _
  refine Text.trimWhile_append hfront hback ?_ ?_
  · obtain ⟨part, parts, heq⟩ := List.exists_cons_of_ne_nil hparts
    obtain ⟨rest, hrest⟩ := exists_join_cons convention.separator part parts
    obtain ⟨word, hword, hpart⟩ := exists_of_mem_parts (heq ▸ List.mem_cons_self : part ∈ _)
    obtain ⟨c, cs, hcs, hc⟩ := hpart.exists_first (h word hword)
    exact ⟨c, cs ++ rest, by rw [Convention.spell, heq, hrest, hcs, List.cons_append], hc⟩
  · obtain ⟨parts, part, heq⟩ :=
      (List.eq_nil_or_concat' (convention.parts words)).resolve_left hparts
    obtain ⟨front, hjoin⟩ := exists_join_concat convention.separator part parts
    obtain ⟨word, hword, hpart⟩ :=
      exists_of_mem_parts (heq ▸ List.mem_append_right parts List.mem_cons_self : part ∈ _)
    obtain ⟨cs, c, hcs, hc⟩ := hpart.exists_last (h word hword)
    exact ⟨front ++ cs, c, by rw [Convention.spell, heq, hjoin, hcs, List.append_assoc], hc⟩

/-- By their lower case the parts of a name are its words. -/
theorem map_lowerChar_parts (h : ∀ w ∈ words, IsNameWord w) (convention : Convention) :
    (convention.parts words).map (·.flatMap Text.lowerChar) = words := by
  have hplain : ∀ {list : List (List Char)}, (∀ w ∈ list, IsNameWord w) →
      list.map (·.flatMap Text.lowerChar) = list := fun hlist =>
    (List.map_congr_left fun w hw => IsPartOf.plain.flatMap_lowerChar (hlist w hw)).trans
      (List.map_id _)
  have hcapitalized : ∀ {list : List (List Char)}, (∀ w ∈ list, IsNameWord w) →
      (list.map capitalized).map (·.flatMap Text.lowerChar) = list := by
    intro list hlist
    rw [List.map_map]
    exact (List.map_congr_left fun w hw =>
      IsPartOf.capitalized.flatMap_lowerChar (hlist w hw)).trans (List.map_id _)
  cases convention with
  | snake => exact hplain h
  | pascal => exact hcapitalized h
  | camel =>
    cases words with
    | nil => rfl
    | cons word words =>
      show word.flatMap Text.lowerChar :: (words.map capitalized).map _ = word :: words
      rw [IsPartOf.plain.flatMap_lowerChar (h word List.mem_cons_self),
        hcapitalized fun w hw => h w (List.mem_cons_of_mem word hw)]

/-- What is read of the parts of a name is in lower case what is read of its words. -/
theorem map_lower_read (h : ∀ w ∈ words, IsNameWord w) (convention : Convention) :
    (convention.read (convention.parts words)).map Text.lower = convention.read words := by
  have hflatten : (convention.read (convention.parts words)).flatten =
      (convention.parts words).flatten := by
    cases convention with
    | snake => rfl
    | camel => exact flatten_fused _
    | pascal => exact flatten_fused _
  have hlower : ∀ piece ∈ convention.read (convention.parts words),
      Text.lower piece = piece.flatMap Text.lowerChar := by
    intro piece hpiece
    refine Text.lower_of_forall_ne_sigma fun c hc => ?_
    have hmem : c ∈ (convention.parts words).flatten :=
      hflatten ▸ List.mem_flatten.mpr ⟨piece, hpiece, hc⟩
    obtain ⟨part, hpart, hc⟩ := List.mem_flatten.mp hmem
    obtain ⟨word, hword, hpart⟩ := exists_of_mem_parts hpart
    exact hpart.ne_sigma (h word hword) hc
  have hends : ∀ part ∈ convention.parts words,
      endsSmall (part.flatMap Text.lowerChar) = endsSmall part := by
    intro part hpart
    obtain ⟨word, hword, hpart⟩ := exists_of_mem_parts hpart
    rw [hpart.flatMap_lowerChar (h word hword), hpart.endsSmall_eq (h word hword)]
  -- lowering keeps how a part ends, so it goes through the fusing of parts
  have hfused := map_fused (f := (·.flatMap Text.lowerChar))
    (fun _ _ => List.flatMap_append) hends
  rw [map_lowerChar_parts h convention] at hfused
  rw [List.map_congr_left hlower]
  cases convention with
  | snake => exact map_lowerChar_parts h .snake
  | camel => exact hfused
  | pascal => exact hfused

/-- The words read of a spelled name, whatever marks stand at its ends. -/
theorem nameWords_spell (hne : words ≠ []) (h : ∀ w ∈ words, IsNameWord w)
    (convention : Convention) {front back : List Char} (hfront : ∀ c ∈ front, isEdge c = true)
    (hback : ∀ c ∈ back, isEdge c = true) :
    nameWords (front ++ convention.spell words ++ back) = convention.read words := by
  have hparts : ∀ part ∈ convention.parts words, part ≠ [] := by
    intro part hpart
    obtain ⟨word, hword, hpart⟩ := exists_of_mem_parts hpart
    obtain ⟨c, cs, rfl, -⟩ := hpart.exists_first (h word hword)
    exact List.cons_ne_nil c cs
  have hread : ∀ piece ∈ convention.read (convention.parts words), piece ≠ [] := by
    cases convention with
    | snake => exact hparts
    | camel => exact ne_nil_of_mem_fused hparts
    | pascal => exact ne_nil_of_mem_fused hparts
  have hkept : ∀ piece ∈ convention.read (convention.parts words), (!piece.isEmpty) = true := by
    intro piece hpiece
    rw [List.isEmpty_eq_false_iff.mpr (hread piece hpiece)]
    rfl
  unfold nameWords
  dsimp only
  rw [show (fun c => c == '_' || c == '#' || c == '$') = isEdge from rfl,
    trimWhile_spell hne h convention hfront hback, flatMap_splitCamel_spell hne h,
    List.filter_eq_self.mpr hkept, map_lower_read h]

end Spelling

/-! ## Descriptions of methods -/

/-- A word has no known meaning when it is no known verb. -/
theorem lookup_knownVerbs_eq_none_iff {verb : String} :
    knownVerbs.lookup verb = none ↔ verb ∉ knownVerbs.map Prod.fst := by
  rw [List.lookup_eq_none_iff, List.mem_map]
  constructor
  · rintro h ⟨entry, hentry, rfl⟩
    exact absurd (h entry hentry) (by simp)
  · intro h entry hentry
    rw [bne_iff_ne]
    exact fun heq => h ⟨entry, hentry, heq.symm⟩

/-- What is said of a method depends on the words of its name and on its result only. -/
theorem method_congr {name name' : String} (h : nameWords name.toList = nameWords name'.toList)
    (returnType : String) : method name returnType = method name' returnType := by
  rw [method, h]
  rfl

/-- Nothing is said of a method exactly if the first of the words of its name is no known verb. -/
theorem method_eq_empty_iff {name : String} {verb next : List Char} {others : List (List Char)}
    (h : nameWords name.toList = verb :: next :: others) (returnType : String) :
    method name returnType = "" ↔ String.ofList verb ∉ knownVerbs.map Prod.fst := by
  rw [← lookup_knownVerbs_eq_none_iff, method, h, List.map_cons, List.map_cons]
  dsimp only
  cases knownVerbs.lookup (String.ofList verb) with
  | none => exact iff_of_true rfl rfl
  | some phrase =>
    refine iff_of_false (fun hempty => ?_) (Option.some_ne_none phrase)
    -- the blank behind the phrase is always there
    have hlist := congrArg String.toList hempty
    simp at hlist

/-- Nothing is said of a method if the first of the words of its name is no known verb, also if it
is the only one. -/
theorem method_eq_empty {name : String} {verb : List Char} {words : List (List Char)}
    (h : nameWords name.toList = verb :: words)
    (hunknown : String.ofList verb ∉ knownVerbs.map Prod.fst) (returnType : String) :
    method name returnType = "" := by
  cases words with
  | nil => rw [method, h]; rfl
  | cons next others => exact (method_eq_empty_iff h returnType).mpr hunknown

/-- Methods of one known verb and one result of which the same is said have names that read the same
behind the verb. -/
theorem join_eq_of_method_eq {name name' : String} {verb next next' : List Char}
    {others others' : List (List Char)} {returnType : String}
    (h : nameWords name.toList = verb :: next :: others)
    (h' : nameWords name'.toList = verb :: next' :: others')
    (hknown : String.ofList verb ∈ knownVerbs.map Prod.fst)
    (heq : method name returnType = method name' returnType) :
    Text.join [' '] (next :: others) = Text.join [' '] (next' :: others') := by
  obtain ⟨phrase, hphrase⟩ := Option.ne_none_iff_exists'.mp
    (mt lookup_knownVerbs_eq_none_iff.mp (not_not_intro hknown))
  rw [method, method, h, h', List.map_cons, List.map_cons, List.map_cons, List.map_cons] at heq
  dsimp only at heq
  rw [hphrase] at heq
  have hlist := congrArg String.toList heq
  simp only [String.toList_append] at hlist
  have hwords := List.append_cancel_left (List.append_cancel_right hlist)
  have hback : ∀ words : List (List Char), (words.map String.ofList).map String.toList = words := by
    intro words
    rw [List.map_map]
    exact (List.map_congr_left fun w _ => String.toList_ofList).trans (List.map_id _)
  rwa [← List.map_cons, ← List.map_cons, String.toList_intercalate, String.toList_intercalate,
    hback, hback] at hwords

/-- The verbs are words of small ASCII letters. -/
theorem forall_isSmall_of_mem_knownVerbs {verb : List Char}
    (h : String.ofList verb ∈ knownVerbs.map Prod.fst) : ∀ c ∈ verb, isSmall c = true := by
  have hall : ∀ known ∈ knownVerbs.map Prod.fst, known.toList.all isSmall = true := by
    decide +kernel
  have hverb := hall _ h
  rw [String.toList_ofList] at hverb
  exact List.all_eq_true.mp hverb

/-! ## Spellings of a method's name -/

section Method

variable {verb : List Char} {others : List (List Char)}

/-- Of words that are written something is read. -/
theorem Convention.read_ne_nil (convention : Convention) (hothers : others ≠ []) :
    convention.read others ≠ [] := by
  obtain ⟨next, others, rfl⟩ := List.exists_cons_of_ne_nil hothers
  obtain ⟨more, rest, hfused⟩ := exists_fused_cons next others
  have hne : fused (next :: others) ≠ [] := hfused ▸ List.cons_ne_nil _ _
  cases convention with
  | snake => exact List.cons_ne_nil next others
  | camel => exact hne
  | pascal => exact hne

/-- Behind a word that ends in a small ASCII letter or digit the others are read for themselves. -/
theorem Convention.read_cons (convention : Convention) (h : endsSmall verb = true) :
    convention.read (verb :: others) = verb :: convention.read others := by
  cases convention with
  | snake => rfl
  | camel => exact fused_cons_of_endsSmall h
  | pascal => exact fused_cons_of_endsSmall h

/-- An unknown verb stays unknown with words read as one with it: it ends in what is in no verb. -/
theorem Convention.exists_read_unknown (convention : Convention) (others : List (List Char))
    (hverb : verb ≠ []) (hunknown : String.ofList verb ∉ knownVerbs.map Prod.fst) :
    ∃ word words, convention.read (verb :: others) = word :: words ∧
      String.ofList word ∉ knownVerbs.map Prod.fst := by
  cases h : endsSmall verb with
  | true => exact ⟨verb, _, convention.read_cons h, hunknown⟩
  | false =>
    have hmore : ∀ more, String.ofList (verb ++ more) ∉ knownVerbs.map Prod.fst := by
      intro more hknown
      have hsmall := forall_isSmall_of_mem_knownVerbs hknown
      rw [endsSmall_of_forall hverb fun c hc => hsmall c (List.mem_append_left more hc)] at h
      cases h
    obtain ⟨more, words, hfused⟩ := exists_fused_cons verb others
    cases convention with
    | snake => exact ⟨verb, others, rfl, hunknown⟩
    | camel => exact ⟨verb ++ more, words, hfused, hmore more⟩
    | pascal => exact ⟨verb ++ more, words, hfused, hmore more⟩

/-- A text of words with a blank between them has one character less than the words and as many
blanks. -/
theorem length_join_blank (hothers : others ≠ []) :
    (Text.join [' '] others).length + 1 = others.flatten.length + others.length := by
  unfold Text.join
  induction others with
  | nil => exact absurd rfl hothers
  | cons word words ih =>
    cases words with
    | nil =>
      rw [List.intercalate_singleton, List.flatten_singleton]
      rfl
    | cons next words =>
      have hrest := ih (List.cons_ne_nil next words)
      rw [List.intercalate_cons_cons, List.flatten_cons, List.length_append, List.length_append,
        List.length_append, List.length_cons (a := word), List.length_singleton]
      omega

/-- Words that read the same with blanks between those read of them are all read apart. -/
theorem forall_endsSmall_of_join_eq (hothers : others ≠ [])
    (h : Text.join [' '] others = Text.join [' '] (fused others)) :
    ∀ word ∈ others.dropLast, endsSmall word = true := by
  have hwords := length_join_blank hothers
  have hread := length_join_blank (Convention.camel.read_ne_nil hothers)
  rw [h] at hwords
  rw [show Convention.camel.read others = fused others from rfl, flatten_fused] at hread
  exact (length_fused_eq_iff others).mp (by omega)

variable (hothers : others ≠ []) (h : ∀ w ∈ verb :: others, IsNameWord w)

include hothers h

/-- Nothing is said of a method exactly if the first word of its name is no known verb, however the
words are marked. -/
theorem method_spell_eq_empty_iff (returnType : String) (convention : Convention)
    {front back : List Char} (hfront : ∀ c ∈ front, isEdge c = true)
    (hback : ∀ c ∈ back, isEdge c = true) :
    method (.ofList (front ++ convention.spell (verb :: others) ++ back)) returnType = "" ↔
      String.ofList verb ∉ knownVerbs.map Prod.fst := by
  have hwords := nameWords_spell (List.cons_ne_nil verb others) h convention hfront hback
  rw [← String.toList_ofList (l := front ++ convention.spell (verb :: others) ++ back)] at hwords
  have hverb := (h verb List.mem_cons_self).ne_nil
  by_cases hknown : String.ofList verb ∈ knownVerbs.map Prod.fst
  · have hends := endsSmall_of_forall hverb (forall_isSmall_of_mem_knownVerbs hknown)
    obtain ⟨next, rest, hread⟩ := List.exists_cons_of_ne_nil (convention.read_ne_nil hothers)
    rw [convention.read_cons hends, hread] at hwords
    exact method_eq_empty_iff hwords returnType
  · obtain ⟨word, words, hread, hunknown⟩ :=
      convention.exists_read_unknown others hverb hknown
    exact iff_of_true (method_eq_empty (hwords.trans hread) hunknown returnType) hknown

omit hothers in
/-- Of words that can all be told apart the same is said in every spelling. -/
theorem method_spell_eq (hall : ∀ word ∈ (verb :: others).dropLast, endsSmall word = true)
    (returnType : String) (convention : Convention) {front back : List Char}
    (hfront : ∀ c ∈ front, isEdge c = true) (hback : ∀ c ∈ back, isEdge c = true) :
    method (.ofList (front ++ convention.spell (verb :: others) ++ back)) returnType =
      method (.ofList (Convention.snake.spell (verb :: others))) returnType := by
  have hread : convention.read (verb :: others) = verb :: others := by
    cases convention with
    | snake => rfl
    | camel => exact fused_eq_self hall
    | pascal => exact fused_eq_self hall
  have hwords := nameWords_spell (List.cons_ne_nil verb others) h convention hfront hback
  have hplain := nameWords_spell (List.cons_ne_nil verb others) h .snake
    (List.forall_mem_nil _) (List.forall_mem_nil _)
  rw [List.nil_append, List.append_nil] at hplain
  refine method_congr ?_ returnType
  rw [String.toList_ofList, String.toList_ofList, hwords, hread, hplain]
  rfl

/-- If the same is said with underscores and with capitals, and something, the words behind the verb
can be told apart. -/
theorem forall_endsSmall_of_method_eq {returnType : String}
    (hknown : String.ofList verb ∈ knownVerbs.map Prod.fst)
    (heq : method (.ofList (Convention.snake.spell (verb :: others))) returnType =
      method (.ofList (Convention.camel.spell (verb :: others))) returnType) :
    ∀ word ∈ others.dropLast, endsSmall word = true := by
  have hends := endsSmall_of_forall (h verb List.mem_cons_self).ne_nil
    (forall_isSmall_of_mem_knownVerbs hknown)
  have hwords : ∀ convention : Convention,
      nameWords (String.ofList (convention.spell (verb :: others))).toList =
        verb :: convention.read others := by
    intro convention
    have hspell := nameWords_spell (List.cons_ne_nil verb others) h convention
      (List.forall_mem_nil _) (List.forall_mem_nil _)
    rw [List.nil_append, List.append_nil] at hspell
    rw [String.toList_ofList, hspell, convention.read_cons hends]
  obtain ⟨next, rest, hsnake⟩ := List.exists_cons_of_ne_nil (Convention.snake.read_ne_nil hothers)
  obtain ⟨next', rest', hcamel⟩ := List.exists_cons_of_ne_nil (Convention.camel.read_ne_nil hothers)
  have hjoin := join_eq_of_method_eq (hsnake ▸ hwords .snake) (hcamel ▸ hwords .camel) hknown heq
  rw [← hsnake, ← hcamel] at hjoin
  exact forall_endsSmall_of_join_eq hothers hjoin

/-- Nothing is said of a method exactly if the first word of its name is no known verb, however the
words are marked and whatever marks stand at the ends of the name. What is said does not depend on
that either, exactly if every word between the verb and the last word ends in a small ASCII letter
or digit, so that the capital behind it is seen to begin a word. -/
theorem exists_method_spell_iff (returnType : String) :
    (∀ (convention : Convention) (front back : List Char), (∀ c ∈ front, isEdge c = true) →
      (∀ c ∈ back, isEdge c = true) →
        (method (.ofList (front ++ convention.spell (verb :: others) ++ back)) returnType = "" ↔
          String.ofList verb ∉ knownVerbs.map Prod.fst)) ∧
      ((∃ text, ∀ (convention : Convention) (front back : List Char),
        (∀ c ∈ front, isEdge c = true) → (∀ c ∈ back, isEdge c = true) →
          method (.ofList (front ++ convention.spell (verb :: others) ++ back)) returnType = text) ↔
        (String.ofList verb ∈ knownVerbs.map Prod.fst →
          ∀ word ∈ others.dropLast, endsSmall word = true)) := by
  have hempty := fun convention (front back : List Char) hfront hback =>
    @method_spell_eq_empty_iff verb others hothers h returnType convention front back hfront hback
  refine ⟨hempty, fun ⟨text, htext⟩ hknown => ?_, fun hall => ?_⟩
  · have hnone : ∀ c ∈ ([] : List Char), isEdge c = true := List.forall_mem_nil _
    have hplain : ∀ convention : Convention,
        method (.ofList (convention.spell (verb :: others))) returnType = text := by
      intro convention
      have hspell := htext convention [] [] hnone hnone
      rwa [List.nil_append, List.append_nil] at hspell
    exact forall_endsSmall_of_method_eq hothers h hknown
      ((hplain .snake).trans (hplain .camel).symm)
  · by_cases hknown : String.ofList verb ∈ knownVerbs.map Prod.fst
    · have hends := endsSmall_of_forall (h verb List.mem_cons_self).ne_nil
        (forall_isSmall_of_mem_knownVerbs hknown)
      have hwords : ∀ word ∈ (verb :: others).dropLast, endsSmall word = true := by
        rw [List.dropLast_cons_of_ne_nil hothers]
        exact List.forall_mem_cons.mpr ⟨hends, hall hknown⟩
      exact ⟨_, fun convention front back => method_spell_eq h hwords returnType convention⟩
    · exact ⟨"", fun convention front back hfront hback =>
        (hempty convention front back hfront hback).mpr hknown⟩

end Method

/-- A digit at the end of a word, and marks of all kinds at the ends of the name. -/
theorem exists_method_spell_numbered :
    (∀ w ∈ ["get".toList, "user2".toList, "by".toList, "id".toList], IsNameWord w) ∧
      Convention.pascal.spell ["get".toList, "user2".toList, "by".toList, "id".toList] =
        "GetUser2ById".toList ∧
      ∃ text, method "get_user2_by_id" "User" = text ∧ method "#getUser2ById" "User" = text ∧
        method "__GetUser2ById$" "User" = text ∧ text ≠ "" := by
  have hwords : ∀ w ∈ ["get".toList, "user2".toList, "by".toList, "id".toList], IsNameWord w := by
    simp only [List.forall_mem_cons]
    exact ⟨⟨⟨'g', _, rfl, rfl⟩, List.all_eq_true.mp rfl, by decide⟩,
      ⟨⟨'u', _, rfl, rfl⟩, List.all_eq_true.mp rfl, by decide⟩,
      ⟨⟨'b', _, rfl, rfl⟩, List.all_eq_true.mp rfl, by decide⟩,
      ⟨⟨'i', _, rfl, rfl⟩, List.all_eq_true.mp rfl, by decide⟩, List.forall_mem_nil _⟩
  obtain ⟨hempty, hsame⟩ := exists_method_spell_iff (List.cons_ne_nil _ _) hwords "User"
  obtain ⟨text, hsame⟩ := hsame.mpr fun _ => List.all_eq_true.mp rfl
  refine ⟨hwords, rfl, text, ?_, ?_, ?_, ?_⟩
  · exact hsame .snake [] [] (List.forall_mem_nil _) (List.forall_mem_nil _)
  · exact hsame .camel ['#'] [] (List.all_eq_true.mp rfl) (List.forall_mem_nil _)
  · exact hsame .pascal ['_', '_'] ['$'] (List.all_eq_true.mp rfl) (List.all_eq_true.mp rfl)
  · rw [← hsame .snake [] [] (List.forall_mem_nil _) (List.forall_mem_nil _), Ne,
      hempty .snake [] [] (List.forall_mem_nil _) (List.forall_mem_nil _)]
    decide

/-- Behind a letter that is not in ASCII a capital is not seen to begin a word, and two words are
read as one. -/
theorem not_exists_method_spell_accented :
    (∀ w ∈ ["get".toList, "né".toList, "user".toList], IsNameWord w) ∧
      Convention.snake.spell ["get".toList, "né".toList, "user".toList] = "get_né_user".toList ∧
      Convention.camel.spell ["get".toList, "né".toList, "user".toList] = "getNéUser".toList ∧
      method "get_né_user" "" = "gets né user" ∧ method "getNéUser" "" = "gets néuser" := by
  refine ⟨?_, rfl, rfl, by decide +kernel, by decide +kernel⟩
  simp only [List.forall_mem_cons]
  exact ⟨⟨⟨'g', _, rfl, rfl⟩, List.all_eq_true.mp rfl, by decide⟩,
    ⟨⟨'n', _, rfl, rfl⟩, List.all_eq_true.mp (by decide +kernel), by decide⟩,
    ⟨⟨'u', _, rfl, rfl⟩, List.all_eq_true.mp rfl, by decide⟩, List.forall_mem_nil _⟩

end Description

end SourceSurvey
