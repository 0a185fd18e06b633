import SourceSurvey.Text.Search
import SourceSurvey.Text.Trim

/-!
# Blanks and the pieces of a text

A text of a class of characters has none outside the class, no character of a name is a blank,
trimming leaves no blank at the start, and the pieces of a text are made of its characters.
-/

namespace SourceSurvey.Text

/-! ## Characters of a class -/

/-- What holds of all ASCII characters, code by code, holds of each of them. -/
theorem forall_ascii {P : Char → Prop} (h : ∀ n < 128, P (Char.ofNat n)) {c : Char}
    (hc : c.toNat < 128) : P c := by
  rw [← Char.ofNat_toNat c]
  exact h c.toNat hc

/-- A character of a class is none of those outside it. -/
theorem ne_of_class {p : Char → Bool} {c d : Char} (hc : p c = true) (hd : p d = false) :
    c ≠ d := by
  rintro rfl
  rw [hd] at hc
  cases hc

/-- A text of a class has only characters of the class. -/
theorem not_mem_of_class {p : Char → Bool} {text : List Char} {d : Char}
    (htext : ∀ c ∈ text, p c = true) (hd : p d = false) : d ∉ text :=
  fun hmem => ne_of_class (htext d hmem) hd rfl

/-- Dropping ends at the first character that is not dropped. -/
theorem dropWhile_append_cons {p : Char → Bool} {before : List Char} {c : Char}
    (hbefore : ∀ d ∈ before, p d = true) (hc : p c = false) (more : List Char) :
    (before ++ c :: more).dropWhile p = c :: more := by
  rw [List.dropWhile_append_of_pos hbefore]
  exact List.dropWhile_cons_of_neg (by rw [hc]; exact Bool.false_ne_true)

/-- No character of a class is behind the longest run of the class. -/
theorem head?_dropWhile_any (p : Char → Bool) (text : List Char) :
    (text.dropWhile p).head?.any p = false := by
  cases h : text.dropWhile p with
  | nil => rfl
  | cons c rest =>
    have hhead := List.head?_dropWhile_not p text
    rw [h] at hhead
    exact hhead

/-- The run at the front of a text ends in front of a character of another kind. -/
theorem takeWhile_append_cons_of_neg {p : Char → Bool} {c : Char} (hc : p c = false)
    (front rest : List Char) : (front ++ c :: rest).takeWhile p = front.takeWhile p := by
  have hstop : (c :: rest).takeWhile p = [] :=
    List.takeWhile_cons_of_neg (by rw [hc]; exact Bool.false_ne_true)
  rw [List.takeWhile_append, hstop, List.append_nil]
  split
  · next hall => exact (List.IsPrefix.eq_of_length (List.takeWhile_prefix p) hall).symm
  · rfl

/-- A word is the run at the front of a text if it stands there and does not go on behind. -/
theorem eq_takeWhile_iff {p : Char → Bool} {word text : List Char} (h : ∀ c ∈ word, p c = true) :
    word = text.takeWhile p ↔ ∃ more, text = word ++ more ∧ more.head?.any p = false := by
  constructor
  · intro heq
    refine ⟨text.dropWhile p, ?_, head?_dropWhile_any p text⟩
    rw [heq, List.takeWhile_append_dropWhile]
  · rintro ⟨more, rfl, hmore⟩
    have hstop : more.takeWhile p = [] := by
      cases more with
      | nil => rfl
      | cons c cs => exact List.takeWhile_cons_of_neg (by simpa using hmore)
    rw [List.takeWhile_append_of_pos h, hstop, List.append_nil]

/-! ## Blanks -/

/-- The code points of the blanks. -/
def spaceCodes : List Nat :=
  [9, 10, 11, 12, 13, 28, 29, 30, 31, 32, 0x85, 0xA0, 0x1680, 0x2000, 0x2001, 0x2002, 0x2003,
    0x2004, 0x2005, 0x2006, 0x2007, 0x2008, 0x2009, 0x200A, 0x2028, 0x2029, 0x202F, 0x205F, 0x3000]

/-- Every blank is on the list of blanks. -/
theorem toNat_mem_spaceCodes {c : Char} (h : isSpace c = true) : c.toNat ∈ spaceCodes := by
  unfold isSpace at h
  simp only [spaceCodes, List.mem_cons, List.not_mem_nil, or_false]
  dsimp only at h
  split at h <;> simp only [Bool.or_eq_true, Bool.and_eq_true, decide_eq_true_eq, beq_iff_eq] at h
  · omega
  · omega

/-- No blank is a character of a name. -/
theorem isNameChar_eq_false_of_isSpace {c : Char} (h : isSpace c = true) :
    isNameChar c = false := by
  -- the blanks are few, so each of them is looked up
  have hcodes : ∀ n ∈ spaceCodes, isNameChar (Char.ofNat n) = false := by decide +kernel
  rw [← Char.ofNat_toNat c]
  exact hcodes c.toNat (toNat_mem_spaceCodes h)

theorem isSpace_eq_false_of_isNameChar {c : Char} (h : isNameChar c = true) :
    isSpace c = false := by
  rw [Bool.eq_false_iff]
  intro hspace
  rw [isNameChar_eq_false_of_isSpace hspace] at h
  cases h

theorem isWord_eq_false_of_isSpace {c : Char} (h : isSpace c = true) : isWord c = false := by
  have hname := isNameChar_eq_false_of_isSpace h
  rw [isNameChar, Bool.or_eq_false_iff] at hname
  exact hname.1

theorem isSpace_eq_false_of_isWord {c : Char} (h : isWord c = true) : isSpace c = false :=
  isSpace_eq_false_of_isNameChar (by rw [isNameChar, h, Bool.true_or])

/-! ## Trimming -/

/-- Trimming the end of a text leaves its front. -/
theorem trimEndWhile_isPrefix (p : Char → Bool) (text : List Char) :
    trimEndWhile p text <+: text := by
  induction text with
  | nil => exact List.prefix_rfl
  | cons c cs ih =>
    unfold trimEndWhile
    split
    · split
      · exact List.nil_prefix
      · exact (List.prefix_append [c] cs)
    · next hne =>
      rw [List.prefix_cons_inj]
      exact ih

/-- Trimming the end of a text takes only what may be trimmed. -/
theorem mem_trimEndWhile {p : Char → Bool} {text : List Char} {c : Char} (hmem : c ∈ text)
    (hc : p c = false) : c ∈ trimEndWhile p text := by
  induction text with
  | nil => cases hmem
  | cons d ds ih =>
    unfold trimEndWhile
    rcases List.mem_cons.mp hmem with rfl | hmem
    · split
      · rw [hc]
        exact List.mem_cons_self
      · exact List.mem_cons_self
    · have hrest := ih hmem
      split
      · next hnil =>
        rw [hnil] at hrest
        cases hrest
      · exact List.mem_cons_of_mem d hrest

/-- Dropping takes only what may be dropped. -/
theorem mem_dropWhile {p : Char → Bool} {text : List Char} {c : Char} (hmem : c ∈ text)
    (hc : p c = false) : c ∈ text.dropWhile p := by
  rw [← List.takeWhile_append_dropWhile (p := p) (l := text), List.mem_append] at hmem
  rcases hmem with hmem | hmem
  · rw [List.all_eq_true.mp List.all_takeWhile c hmem] at hc
    cases hc
  · exact hmem

/-- Trimming adds nothing to a text. -/
theorem trim_subset (text : List Char) : trim text ⊆ text :=
  List.Subset.trans (trimEndWhile_isPrefix isSpace _).subset (List.dropWhile_suffix isSpace).subset

/-- Trimming takes only blanks. -/
theorem mem_trim {text : List Char} {c : Char} (hmem : c ∈ text) (hc : isSpace c = false) :
    c ∈ trim text :=
  mem_trimEndWhile (mem_dropWhile hmem hc) hc

/-- A trimmed text does not begin with a blank. -/
theorem isSpace_eq_false_of_trim_eq_cons {text cs : List Char} {c : Char}
    (h : trim text = c :: cs) : isSpace c = false := by
  -- trimming the end leaves the first character where it is
  obtain ⟨rest, hrest⟩ : c :: cs <+: text.dropWhile isSpace :=
    h ▸ trimEndWhile_isPrefix isSpace _
  have hhead := head?_dropWhile_any isSpace text
  rw [← hrest] at hhead
  exact hhead

/-- Trimming the end stops at a character that stays. -/
theorem trimEndWhile_append_cons {p : Char → Bool} {c : Char} (hc : p c = false)
    (front rest : List Char) :
    trimEndWhile p (front ++ c :: rest) = front ++ c :: trimEndWhile p rest := by
  induction front with
  | nil =>
    show trimEndWhile p (c :: rest) = c :: trimEndWhile p rest
    rw [trimEndWhile]
    split
    · next hnil => rw [if_neg (by simp [hc]), hnil]
    · rfl
  | cons d ds ih =>
    rw [List.cons_append, trimEndWhile, ih]
    cases ds <;> rfl

/-- Before a character outside the class only those at the very start are dropped. -/
theorem dropWhile_append_cons_of_neg {p : Char → Bool} {c : Char} (hc : p c = false)
    (front rest : List Char) :
    (front ++ c :: rest).dropWhile p = front.dropWhile p ++ c :: rest := by
  have hstop : (c :: rest).dropWhile p = c :: rest :=
    List.dropWhile_cons_of_neg (by rw [hc]; exact Bool.false_ne_true)
  rw [List.dropWhile_append, hstop]
  split
  · next hnil => rw [List.isEmpty_iff.mp hnil, List.nil_append]
  · rfl

/-- Trimming the front stops at a character that is no blank. -/
theorem trimStart_append_cons {c : Char} (hc : isSpace c = false) (front rest : List Char) :
    trimStart (front ++ c :: rest) = trimStart front ++ c :: rest :=
  dropWhile_append_cons_of_neg hc front rest

/-- A text is trimmed on either side of a character that is no blank. -/
theorem trim_append_cons {c : Char} (hc : isSpace c = false) (front rest : List Char) :
    trim (front ++ c :: rest) = trimStart front ++ c :: trimEnd rest := by
  rw [trim, trimStart_append_cons hc]
  exact trimEndWhile_append_cons hc _ rest

/-! ## Pieces -/

/-- Every piece has only characters of the text. -/
theorem subset_of_mem_splitWhere {p : Char → Bool} {text piece : List Char}
    (h : piece ∈ splitWhere p text) : piece ⊆ text := by
  induction text generalizing piece with
  | nil =>
    rw [List.mem_singleton.mp h]
    exact List.Subset.refl []
  | cons c cs ih =>
    unfold splitWhere at h
    split at h
    · rcases List.mem_cons.mp h with rfl | h
      · exact List.nil_subset _
      · exact List.subset_cons_of_subset c (ih h)
    · split at h
      · rw [List.mem_singleton.mp h]
        exact List.cons_subset_cons c (List.nil_subset cs)
      · next first others hsplit =>
        rcases List.mem_cons.mp h with rfl | h
        · exact List.cons_subset_cons c (ih (by rw [hsplit]; exact List.mem_cons_self))
        · exact List.subset_cons_of_subset c
            (ih (by rw [hsplit]; exact List.mem_cons_of_mem first h))

/-- The pieces of a text have none of the characters that it is cut at. -/
theorem eq_false_of_mem_splitWhere {p : Char → Bool} {text piece : List Char}
    (h : piece ∈ splitWhere p text) : ∀ c ∈ piece, p c = false := by
  induction text generalizing piece with
  | nil =>
    rw [List.mem_singleton.mp h]
    exact List.forall_mem_nil _
  | cons d ds ih =>
    rw [splitWhere] at h
    split at h
    · rcases List.mem_cons.mp h with rfl | h
      · exact List.forall_mem_nil _
      · exact ih h
    · next hd =>
      have hd : p d = false := by simpa using hd
      split at h
      · rw [List.mem_singleton.mp h]
        simpa using hd
      · next first others hsplit =>
        rcases List.mem_cons.mp h with rfl | h
        · have hfirst := ih (hsplit ▸ List.mem_cons_self : first ∈ splitWhere p ds)
          simpa [hd] using hfirst
        · exact ih (hsplit ▸ List.mem_cons_of_mem first h)

/-- The first piece of a text runs up to the first character that it is cut at. -/
theorem exists_splitWhere (p : Char → Bool) (text : List Char) :
    ∃ others, splitWhere p text = text.takeWhile (fun c => !p c) :: others := by
  induction text with
  | nil => exact ⟨[], rfl⟩
  | cons c cs ih =>
    obtain ⟨others, hcs⟩ := ih
    rw [splitWhere, List.takeWhile_cons, hcs]
    cases p c with
    | true => exact ⟨_, rfl⟩
    | false => exact ⟨others, rfl⟩

/-- The first piece is what stands before the first separator. -/
theorem splitAt_eq_beforeFirst_cons (separator : Char) (text : List Char) :
    ∃ others, splitAt separator text = beforeFirst separator text :: others :=
  exists_splitWhere (· == separator) text

/-- The pieces that begin in a text, of which the first is none when one goes on from before. -/
def piecesFrom (p : Char → Bool) (inside : Bool) (text : List Char) : List (List Char) :=
  if inside then (splitWhere p text).tail else splitWhere p text

/-- A piece begins at the first character of a text or behind it. -/
theorem mem_piecesFrom_cons {p : Char → Bool} {inside : Bool} {c : Char} {cs piece : List Char} :
    piece ∈ piecesFrom p inside (c :: cs) ↔
      (inside = false ∧ piece = (c :: cs).takeWhile fun d => !p d) ∨
        piece ∈ piecesFrom p (!p c) cs := by
  obtain ⟨others, hcs⟩ := exists_splitWhere p cs
  rw [piecesFrom, piecesFrom, splitWhere, List.takeWhile_cons, hcs]
  cases p c <;> cases inside <;> simp

/-- A character that is not in the text is not found. -/
theorem find?_of_not_mem {c : Char} {text : List Char} (h : c ∉ text) :
    find? [c] text = none := by
  induction text with
  | nil => rfl
  | cons d ds ih =>
    rw [List.mem_cons, not_or] at h
    have hstarts : ¬ [c].isPrefixOf (d :: ds) = true := by simp [h.1]
    rw [find?, if_neg hstarts, ih h.2]
    rfl

/-- A character is found behind the text before it. -/
theorem find?_singleton_append {c : Char} {text : List Char} (h : c ∉ text) (more : List Char) :
    find? [c] (text ++ c :: more) = some text.length := by
  induction text with
  | nil =>
    have hstarts : [c].isPrefixOf (c :: more) = true := by simp
    rw [List.nil_append, find?, if_pos hstarts]
    rfl
  | cons d ds ih =>
    rw [List.mem_cons, not_or] at h
    have hstarts : ¬ [c].isPrefixOf (d :: (ds ++ c :: more)) = true := by simp [h.1]
    rw [List.cons_append, find?, if_neg hstarts, ih h.2]
    rfl

/-- From a place in front of it on, it is found where it stands. -/
theorem findFrom?_singleton_append {c : Char} {text : List Char} (h : c ∉ text) {start : Nat}
    (hstart : start ≤ text.length) (more : List Char) :
    findFrom? [c] (text ++ c :: more) start = some text.length := by
  have hdrop : c ∉ text.drop start := fun hmem => h (List.mem_of_mem_drop hmem)
  have hle : start ≤ (text ++ c :: more).length := by
    rw [List.length_append]
    omega
  rw [findFrom?, if_pos hle, List.drop_append_of_le_length hstart, find?_singleton_append hdrop,
    Option.map_some, List.length_drop, Nat.sub_add_cancel hstart]

/-- A part of a text is found where it stands at the latest. -/
theorem exists_find?_append (part before after : List Char) :
    ∃ n ≤ before.length, find? part (before ++ (part ++ after)) = some n := by
  have hhere : ∀ {text : List Char}, part <+: text → find? part text = some 0 := by
    intro text hpart
    cases text with
    | nil =>
      rw [List.prefix_nil.mp hpart]
      rfl
    | cons c cs => rw [find?, if_pos (List.isPrefixOf_iff_prefix.mpr hpart)]
  induction before with
  | nil => exact ⟨0, Nat.le_refl 0, hhere (List.prefix_append part after)⟩
  | cons c before ih =>
    by_cases hpart : part <+: c :: (before ++ (part ++ after))
    · exact ⟨0, Nat.zero_le _, hhere hpart⟩
    · obtain ⟨n, hn, hfind⟩ := ih
      refine ⟨n + 1, Nat.succ_le_succ hn, ?_⟩
      rw [List.cons_append, find?, if_neg (by rwa [List.isPrefixOf_iff_prefix]), hfind]
      rfl

/-- A word without a sign is at the front of a text up to the sign, or not at the front at all. -/
theorem isPrefix_append_cons_iff {stop : Char} {word front : List Char} (h : stop ∉ word)
    (rest : List Char) : word <+: front ++ stop :: rest ↔ word <+: front := by
  refine ⟨fun hword => ?_, fun hword => hword.trans (List.prefix_append front _)⟩
  rcases List.prefix_or_prefix_of_prefix hword (List.prefix_append front (stop :: rest)) with
    hshort | ⟨more, rfl⟩
  · exact hshort
  · cases more with
    | nil => simp
    | cons d more =>
      rw [List.prefix_append_right_inj, List.cons_prefix_cons] at hword
      rw [hword.1] at h
      exact absurd (by simp) h

/-- A text contains what stands somewhere in it. -/
theorem contains_iff_isInfix {part text : List Char} :
    contains text part = true ↔ part <:+: text := by
  unfold contains
  induction text with
  | nil =>
    rw [find?, List.infix_nil]
    cases part <;> simp
  | cons x text ih =>
    rw [find?, List.infix_cons_iff, ← ih, ← List.isPrefixOf_iff_prefix]
    by_cases hstart : part.isPrefixOf (x :: text) = true
    · simp [hstart]
    · simp [hstart]

/-- A text without the separator stays in one piece. -/
theorem splitAt_of_not_mem {separator : Char} {text : List Char} (h : separator ∉ text) :
    splitAt separator text = [text] := by
  unfold splitAt
  induction text with
  | nil => rfl
  | cons c cs ih =>
    rw [List.mem_cons, not_or] at h
    rw [splitWhere, if_neg (by simpa using Ne.symm h.1), ih h.2]

/-- A text is cut at every character of the class. -/
theorem splitWhere_append_cons {p : Char → Bool} {c : Char} (h : p c = true)
    (front rest : List Char) :
    splitWhere p (front ++ c :: rest) = splitWhere p front ++ splitWhere p rest := by
  induction front with
  | nil =>
    show splitWhere p (c :: rest) = [] :: splitWhere p rest
    rw [splitWhere, if_pos h]
  | cons d ds ih =>
    obtain ⟨others, hothers⟩ := exists_splitWhere p ds
    rw [List.cons_append, splitWhere, splitWhere, ih, hothers]
    split <;> rfl

/-- Two texts with a separator between them split one after the other. -/
theorem splitAt_append_separator (separator : Char) (front rest : List Char) :
    splitAt separator (front ++ separator :: rest) =
      splitAt separator front ++ splitAt separator rest :=
  splitWhere_append_cons (p := (· == separator)) (beq_self_eq_true separator) front rest

/-- A text is cut at its first separator. -/
theorem splitAt_append_cons {separator : Char} {text : List Char} (h : separator ∉ text)
    (more : List Char) :
    splitAt separator (text ++ separator :: more) = text :: splitAt separator more := by
  rw [splitAt_append_separator, splitAt_of_not_mem h]
  rfl

/-- Pieces with the separator between them are what their text is cut into. -/
theorem splitAt_intercalate {separator : Char} {piece : List Char} {pieces : List (List Char)}
    (h : ∀ p ∈ piece :: pieces, separator ∉ p) :
    splitAt separator ([separator].intercalate (piece :: pieces)) = piece :: pieces := by
  induction pieces generalizing piece with
  | nil =>
    rw [List.intercalate_singleton]
    exact splitAt_of_not_mem (h piece List.mem_cons_self)
  | cons next pieces ih =>
    rw [List.intercalate_cons_cons, List.append_assoc, List.singleton_append,
      splitAt_append_cons (h piece List.mem_cons_self),
      ih fun p hp => h p (List.mem_cons_of_mem piece hp)]

/-- What stands before the first separator ends there. -/
theorem beforeFirst_append_cons {c : Char} {front : List Char} (h : c ∉ front)
    (rest : List Char) : beforeFirst c (front ++ c :: rest) = front := by
  unfold beforeFirst
  rw [List.takeWhile_append_of_pos fun d hd => by simpa using ne_of_mem_of_not_mem hd h]
  simp

/-- No separator stands before the first one. -/
theorem not_mem_beforeFirst (c : Char) (text : List Char) : c ∉ beforeFirst c text := fun hmem => by
  simpa using List.all_eq_true.mp List.all_takeWhile c hmem

/-- What precedes the first occurrence of a character ends at or before each occurrence. -/
theorem beforeFirst_append_isPrefix (c : Char) (front rest : List Char) :
    beforeFirst c (front ++ c :: rest) ++ [c] <+: front ++ [c] := by
  induction front with
  | nil => simp [beforeFirst]
  | cons d ds ih =>
    by_cases hd : d = c
    · simp [beforeFirst, hd]
    · have hon : beforeFirst c (d :: (ds ++ c :: rest)) = d :: beforeFirst c (ds ++ c :: rest) :=
        List.takeWhile_cons_of_pos (by simpa using hd)
      rw [List.cons_append, hon, List.cons_append, List.cons_append, List.prefix_cons_inj]
      exact ih

/-- What stands behind the last separator is part of the text. -/
theorem afterLast_subset (separator : Char) (text : List Char) :
    afterLast separator text ⊆ text := by
  unfold afterLast
  cases hlast : (splitAt separator text).getLast? with
  | none => exact List.nil_subset text
  | some piece => exact subset_of_mem_splitWhere (List.mem_of_getLast? hlast)

/-- No separator stands behind the last one. -/
theorem not_mem_afterLast (separator : Char) (text : List Char) :
    separator ∉ afterLast separator text := by
  unfold afterLast
  cases hlast : (splitAt separator text).getLast? with
  | none => exact List.not_mem_nil
  | some piece =>
    intro hmem
    have hpiece := eq_false_of_mem_splitWhere (List.mem_of_getLast? hlast) separator hmem
    simp at hpiece

section Runs

variable {p : Char → Bool} {replacement : List Char} {c : Char}

theorem replaceRuns_cons_cons (c d : Char) (cs : List Char) :
    replaceRuns p replacement (c :: d :: cs) =
      if p c then
        if p d then replaceRuns p replacement (d :: cs)
        else replacement ++ replaceRuns p replacement (d :: cs)
      else c :: replaceRuns p replacement (d :: cs) := rfl

/-- A character that is not replaced stays. -/
theorem replaceRuns_cons (h : p c = false) (rest : List Char) :
    replaceRuns p replacement (c :: rest) = c :: replaceRuns p replacement rest := by
  cases rest with
  | nil =>
    show (if p c then replacement else [c]) = [c]
    rw [h, if_neg Bool.false_ne_true]
  | cons d ds => rw [replaceRuns_cons_cons, h, if_neg Bool.false_ne_true]

/-- No run reaches over a character that is not of its class. -/
theorem replaceRuns_append_cons (h : p c = false) (front rest : List Char) :
    replaceRuns p replacement (front ++ c :: rest) =
      replaceRuns p replacement front ++ c :: replaceRuns p replacement rest := by
  induction front with
  | nil => exact replaceRuns_cons h rest
  | cons d ds ih =>
    cases ds with
    | nil =>
      show replaceRuns p replacement (d :: c :: rest) =
        (if p d then replacement else [d]) ++ c :: replaceRuns p replacement rest
      rw [replaceRuns_cons_cons, h, if_neg Bool.false_ne_true, replaceRuns_cons h]
      split <;> rfl
    | cons e es =>
      rw [List.cons_append, List.cons_append, replaceRuns_cons_cons, replaceRuns_cons_cons,
        ← List.cons_append, ih]
      split
      · split
        · rfl
        · rw [List.append_assoc]
      · rfl

end Runs

/-- A text whose runs are replaced has the characters of the replacement and those of the text that
are not of their class. -/
theorem mem_replaceRuns {p : Char → Bool} {replacement text : List Char} {c : Char}
    (h : c ∈ replaceRuns p replacement text) : c ∈ replacement ∨ (c ∈ text ∧ p c = false) := by
  induction text with
  | nil => cases h
  | cons d ds ih =>
    have hkept : ¬ p d = true → d ∈ d :: ds ∧ p d = false := fun hd =>
      ⟨List.mem_cons_self, Bool.eq_false_iff.mpr hd⟩
    have hrest : c ∈ replaceRuns p replacement ds →
        c ∈ replacement ∨ (c ∈ d :: ds ∧ p c = false) := fun h =>
      (ih h).imp_right fun hc => ⟨List.mem_cons_of_mem d hc.1, hc.2⟩
    -- the recursion looks one character ahead for the end of a run
    cases ds with
    | nil =>
      unfold replaceRuns at h
      split at h
      · exact Or.inl h
      · next hd =>
        rw [List.mem_singleton.mp h]
        exact Or.inr (hkept hd)
    | cons e es =>
      unfold replaceRuns at h
      split at h
      · split at h
        · exact hrest h
        · rcases List.mem_append.mp h with h | h
          · exact Or.inl h
          · exact hrest h
      · next hd =>
        rcases List.mem_cons.mp h with rfl | h
        · exact Or.inr (hkept hd)
        · exact hrest h

end SourceSurvey.Text
