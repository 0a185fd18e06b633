import Mathlib.Data.List.Basic
import Mathlib.Data.List.TakeWhile
import SourceSurvey.Proofs.Finding.Word
import SourceSurvey.Proofs.Text.Blank

/-!
# Names apart from declaration heads

Before the mentions of a name are sought, the heads of declarations are taken out of a text, and a
head is found wherever the characters of a keyword stand, also at the end of a longer word. Main
statement: a name that stands in a text as a whole word still does without the heads, unless it
stands where the declared name of a head may stand, or ends in a keyword itself.
-/

namespace SourceSurvey

/-! ## What a head is made of -/

/-- The keywords that a declared name stands behind. -/
def namingKeywords : List String := ["def", "function"]

/-- The keywords that a declaration head begins with. -/
def headKeywords : List String := "async" :: namingKeywords

/-- Keywords and a name, with blanks between. -/
inductive IsHead : List Char → Prop where
  | plain {keyword : String} {blanks name : List Char} (hkeyword : keyword ∈ namingKeywords)
    (hne : blanks ≠ []) (hblanks : ∀ c ∈ blanks, Text.isSpace c = true)
    (hname : ∀ c ∈ name, isDeclaredChar c = true) : IsHead (keyword.toList ++ (blanks ++ name))
  | async {blanks head : List Char} (hne : blanks ≠ [])
    (hblanks : ∀ c ∈ blanks, Text.isSpace c = true) (h : IsHead head) :
    IsHead ("async".toList ++ (blanks ++ head))

/-- A head of a length begins the text. -/
def BeginsWithHead (text : List Char) (n : Nat) : Prop :=
  ∃ head rest, text = head ++ rest ∧ head.length = n ∧ IsHead head

/-- A head of a length begins the text, and it is read to the end of its name. -/
def BeginsWithWholeHead (text : List Char) (n : Nat) : Prop :=
  ∃ head rest, text = head ++ rest ∧ head.length = n ∧ IsHead head ∧
    head.getLast?.any isDeclaredChar = true ∧ rest.head?.any isDeclaredChar = false

theorem isNameChar_of_mem_headKeywords (keyword : String) (hkeyword : keyword ∈ headKeywords)
    (c : Char) (hc : c ∈ keyword.toList) : Text.isNameChar c = true := by
  have hall : headKeywords.all (·.toList.all Text.isNameChar) = true := by decide
  exact List.all_eq_true.mp (List.all_eq_true.mp hall keyword hkeyword) c hc

theorem ne_nil_of_mem_headKeywords : ∀ keyword ∈ headKeywords, keyword.toList ≠ [] := by decide

theorem isSpace_eq_false_of_isDeclaredChar {c : Char} (h : isDeclaredChar c = true) :
    Text.isSpace c = false := by
  rw [isDeclaredChar, Bool.or_eq_true, beq_iff_eq] at h
  rcases h with h | rfl
  · exact Text.isSpace_eq_false_of_isNameChar h
  · rfl

/-- Blanks have a length when there are any. -/
theorem blanksLength?_eq_some {text : List Char} {n : Nat} (h : blanksLength? text = some n) :
    ∃ blanks rest, text = blanks ++ rest ∧ blanks.length = n ∧ blanks ≠ [] ∧
      ∀ c ∈ blanks, Text.isSpace c = true := by
  unfold blanksLength? at h
  dsimp only at h
  split at h
  · cases h
  · next hne =>
    cases h
    exact ⟨_, _, List.takeWhile_append_dropWhile.symm, rfl, fun h => hne (List.isEmpty_iff.mpr h),
      fun c hc => List.mem_takeWhile_imp hc⟩

theorem beginsWithWholeHead_of_keywordAndName? {keyword : String} {text : List Char} {n : Nat}
    (hkeyword : keyword ∈ namingKeywords) (h : keywordAndName? keyword text = some n) :
    BeginsWithWholeHead text n := by
  unfold keywordAndName? at h
  dsimp only at h
  split at h
  · next hword =>
    obtain ⟨behind, rfl⟩ := List.isPrefixOf_iff_prefix.mp hword
    rw [List.drop_left] at h
    obtain ⟨gap, hgap, h⟩ := Option.bind_eq_some_iff.mp h
    obtain ⟨blanks, rest, rfl, rfl, hne, hblanks⟩ := blanksLength?_eq_some hgap
    rw [List.drop_left] at h
    split at h
    · cases h
    · next hname =>
      cases h
      have hname : rest.takeWhile isDeclaredChar ≠ [] := fun h => hname (List.isEmpty_iff.mpr h)
      refine ⟨keyword.toList ++ (blanks ++ rest.takeWhile isDeclaredChar),
        rest.dropWhile isDeclaredChar, ?_, ?_,
        .plain hkeyword hne hblanks fun c hc => List.mem_takeWhile_imp hc, ?_,
        Text.head?_dropWhile_any isDeclaredChar rest⟩
      · rw [List.append_assoc, List.append_assoc, List.takeWhile_append_dropWhile]
      · rw [List.length_append, List.length_append, Nat.add_assoc]
      · have hlast : isDeclaredChar ((rest.takeWhile isDeclaredChar).getLast hname) = true :=
          List.mem_takeWhile_imp (List.getLast_mem hname)
        rw [← List.append_assoc, List.getLast?_append_of_ne_nil _ hname,
          List.getLast?_eq_some_getLast hname]
        exact hlast
  · cases h

theorem beginsWithWholeHead_of_asyncAndName? {text : List Char} {n : Nat}
    (h : asyncAndName? text = some n) : BeginsWithWholeHead text n := by
  unfold asyncAndName? at h
  dsimp only at h
  split at h
  · next hword =>
    obtain ⟨behind, rfl⟩ := List.isPrefixOf_iff_prefix.mp hword
    obtain ⟨gap, hgap, h⟩ := Option.bind_eq_some_iff.mp h
    rw [List.drop_left] at hgap
    obtain ⟨blanks, rest, rfl, rfl, hne, hblanks⟩ := blanksLength?_eq_some hgap
    obtain ⟨m, hm, h⟩ := Option.bind_eq_some_iff.mp h
    rw [← List.drop_drop, List.drop_left, List.drop_left] at hm
    obtain ⟨head, behind, rfl, rfl, hhead, hlast, hbehind⟩ :=
      beginsWithWholeHead_of_keywordAndName? (by decide) hm
    cases h
    refine ⟨"async".toList ++ (blanks ++ head), behind, ?_, ?_, .async hne hblanks hhead, ?_, hbehind⟩
    · rw [List.append_assoc, List.append_assoc]
    · rw [List.length_append, List.length_append, Nat.add_assoc]
    · have hhead : head ≠ [] := by
        rintro rfl
        cases hlast
      rw [← List.append_assoc, List.getLast?_append_of_ne_nil _ hhead]
      exact hlast
  · cases h

/-- A head is read to the end of its name. -/
theorem beginsWithWholeHead_of_declarationLength? {text : List Char} {n : Nat}
    (h : declarationLength? text = some n) : BeginsWithWholeHead text n := by
  rcases Option.or_eq_some_iff.mp h with h | ⟨-, h⟩
  · exact beginsWithWholeHead_of_asyncAndName? h
  · rcases Option.or_eq_some_iff.mp h with h | ⟨-, h⟩
    · exact beginsWithWholeHead_of_keywordAndName? (by decide) h
    · exact beginsWithWholeHead_of_keywordAndName? (by decide) h

/-- What is dropped as a declaration is the head of one. -/
theorem beginsWithHead_of_declarationLength? {text : List Char} {n : Nat}
    (h : declarationLength? text = some n) : BeginsWithHead text n := by
  obtain ⟨head, rest, htext, hlength, hhead, -, -⟩ := beginsWithWholeHead_of_declarationLength? h
  exact ⟨head, rest, htext, hlength, hhead⟩

/-- A head begins with a keyword and a blank. -/
theorem IsHead.exists_keyword {head : List Char} (h : IsHead head) :
    ∃ keyword ∈ headKeywords, ∃ blank rest, head = keyword.toList ++ blank :: rest ∧
      Text.isSpace blank = true := by
  cases h with
  | @plain keyword blanks name hkeyword hne hblanks _ =>
    obtain ⟨blank, blanks, rfl⟩ := List.exists_cons_of_ne_nil hne
    exact ⟨keyword, List.mem_cons_of_mem _ hkeyword, blank, blanks ++ name, rfl,
      hblanks blank List.mem_cons_self⟩
  | @async blanks head hne hblanks _ =>
    obtain ⟨blank, blanks, rfl⟩ := List.exists_cons_of_ne_nil hne
    exact ⟨"async", List.mem_cons_self, blank, blanks ++ head, rfl,
      hblanks blank List.mem_cons_self⟩

/-! ## Where a head may reach into a name -/

/-- The text ends where the declared name of a head stands or may begin. -/
def LeadsIntoName (front : List Char) : Prop :=
  ∃ before, ∃ keyword ∈ namingKeywords, ∃ blanks name : List Char,
    front = before ++ (keyword.toList ++ (blanks ++ name)) ∧ blanks ≠ [] ∧
      (∀ c ∈ blanks, Text.isSpace c = true) ∧ ∀ c ∈ name, isDeclaredChar c = true

/-- The name ends in a keyword, and a blank is behind it. -/
def EndsInKeyword (name after : List Char) : Prop :=
  (∃ keyword ∈ headKeywords, keyword.toList <:+ name) ∧ after.head?.any Text.isSpace = true

/-- What leads into a name does so behind any text. -/
theorem LeadsIntoName.append_left {front : List Char} (h : LeadsIntoName front)
    (before : List Char) : LeadsIntoName (before ++ front) := by
  obtain ⟨first, keyword, hkeyword, blanks, name, rfl, hrest⟩ := h
  exact ⟨before ++ first, keyword, hkeyword, blanks, name, (List.append_assoc ..).symm, hrest⟩

/-- A text that ends in neither a blank nor a character of a declared name leads into none. -/
theorem not_leadsIntoName_of_getLast? {front : List Char} {c : Char}
    (hlast : front.getLast? = some c) (hspace : Text.isSpace c = false)
    (hdeclared : isDeclaredChar c = false) : ¬ LeadsIntoName front := by
  rintro ⟨before, keyword, -, blanks, name, rfl, hne, hblanks, hname⟩
  have htail : blanks ++ name ≠ [] := List.append_ne_nil_of_left_ne_nil hne name
  rw [← List.append_assoc, List.getLast?_append_of_ne_nil _ htail] at hlast
  rcases List.mem_append.mp (List.mem_of_getLast? hlast) with hc | hc
  · rw [hblanks c hc] at hspace
    cases hspace
  · rw [hname c hc] at hdeclared
    cases hdeclared

/-- A cut of a text that no name spans, and before no blank, is behind a word and the blanks behind
it, if it is not at the start of the word. -/
theorem cut_behind {word blanks rest front back : List Char}
    (hword : ∀ c ∈ word, Text.isNameChar c = true) (hblanks : ∀ c ∈ blanks, Text.isSpace c = true)
    (h : word ++ (blanks ++ rest) = front ++ back) (hne : front ≠ [])
    (hfront : front.getLast?.any Text.isNameChar = false)
    (hback : back.head?.any Text.isSpace = false) :
    ∃ more, front = word ++ (blanks ++ more) ∧ rest = more ++ back := by
  rcases List.append_eq_append_iff.mp h with ⟨behind, rfl, hbehind⟩ | ⟨inside, rfl, -⟩
  · rcases List.append_eq_append_iff.mp hbehind with ⟨more, rfl, hmore⟩ | ⟨gap, rfl, hgap⟩
    · exact ⟨more, rfl, hmore⟩
    · cases gap with
      | nil => exact ⟨[], by rw [List.append_nil, List.append_nil], hgap.symm⟩
      | cons blank gap =>
        have hblank := hblanks blank (List.mem_append_right _ List.mem_cons_self)
        rw [hgap, List.cons_append, List.head?_cons, Option.any_some, hblank] at hback
        cases hback
  · -- the cut is inside the word
    have hlast := hword (front.getLast hne) (List.mem_append_left _ (List.getLast_mem hne))
    rw [List.getLast?_eq_some_getLast hne, Option.any_some, hlast] at hfront
    cases hfront

/-- A cut of a head leads into its name, or a head begins behind it. -/
theorem IsHead.leadsIntoName_or {head front back : List Char} (h : IsHead head)
    (hsplit : head = front ++ back) (hne : front ≠ [])
    (hfront : front.getLast?.any Text.isNameChar = false)
    (hback : back.head?.any Text.isSpace = false) : LeadsIntoName front ∨ IsHead back := by
  induction h generalizing front with
  | @plain keyword blanks name hkeyword hblank hblanks hname =>
    have hword := isNameChar_of_mem_headKeywords keyword (List.mem_cons_of_mem _ hkeyword)
    obtain ⟨more, rfl, rfl⟩ := cut_behind hword hblanks hsplit hne hfront hback
    exact .inl ⟨[], keyword, hkeyword, blanks, more, rfl, hblank, hblanks,
      fun c hc => hname c (List.mem_append_left _ hc)⟩
  | @async blanks head _ hblanks hhead ih =>
    have hword := isNameChar_of_mem_headKeywords "async" List.mem_cons_self
    obtain ⟨more, rfl, hmore⟩ := cut_behind hword hblanks hsplit hne hfront hback
    cases more with
    | nil =>
      rw [List.nil_append] at hmore
      exact .inr (hmore ▸ hhead)
    | cons c more =>
      have hcons : c :: more ≠ [] := List.cons_ne_nil c more
      rw [← List.append_assoc, List.getLast?_append_of_ne_nil _ hcons] at hfront
      rw [← List.append_assoc]
      exact (ih hmore hcons hfront).imp_left (·.append_left _)

/-- A text without blanks that no name goes on from is a word that a blank is behind, if both begin
the same text. -/
theorem eq_of_append_eq {text after word rest : List Char} {blank : Char}
    (h : text ++ after = word ++ blank :: rest) (htext : ∀ c ∈ text, Text.isSpace c = false)
    (hafter : after.head?.any Text.isNameChar = false)
    (hword : ∀ c ∈ word, Text.isNameChar c = true) (hblank : Text.isSpace blank = true) :
    text = word ∧ after = blank :: rest := by
  rcases List.append_eq_append_iff.mp h with ⟨inside, rfl, rfl⟩ | ⟨inside, rfl, hinside⟩
  · cases inside with
    | nil => exact ⟨(List.append_nil text).symm, rfl⟩
    | cons c inside =>
      have hc := hword c (List.mem_append_right _ List.mem_cons_self)
      rw [List.cons_append, List.head?_cons, Option.any_some, hc] at hafter
      cases hafter
  · cases inside with
    | nil => exact ⟨List.append_nil word, hinside.symm⟩
    | cons c inside =>
      have hc := htext c (List.mem_append_right _ List.mem_cons_self)
      rw [← (List.cons.inj hinside).1, hblank] at hc
      cases hc

/-! ## Names that no head reaches into -/

/-- The name is made of characters that a declared name has. -/
structure IsIdentifier (name : List Char) : Prop where
  ne_nil : name ≠ []
  declared : ∀ c ∈ name, isDeclaredChar c = true

/-- A name stands in a text where it is neither a part of the declared name of a head nor one of its
keywords. -/
structure IsPlain (front name after : List Char) : Prop where
  identifier : IsIdentifier name
  apart : IsApart front after
  front : ¬ LeadsIntoName front
  name : ¬ EndsInKeyword name after

namespace IsPlain

variable {front name after : List Char}

/-- No head begins inside the name. -/
theorem not_isHead (h : IsPlain front name after) {first last head rest : List Char}
    (hname : name = first ++ last) (hsplit : last ++ after = head ++ rest) : ¬ IsHead head := by
  intro hhead
  obtain ⟨keyword, hkeyword, blank, more, rfl, hblank⟩ := hhead.exists_keyword
  rw [List.append_assoc] at hsplit
  have hlast : ∀ c ∈ last, Text.isSpace c = false := fun c hc =>
    isSpace_eq_false_of_isDeclaredChar
      (h.identifier.declared c (hname ▸ List.mem_append_right first hc))
  -- the name ends where the keyword does
  obtain ⟨rfl, rfl⟩ := eq_of_append_eq hsplit hlast h.apart.2
    (isNameChar_of_mem_headKeywords keyword hkeyword) hblank
  exact h.name ⟨⟨keyword, hkeyword, first, hname.symm⟩, hblank⟩

/-- A head that begins before the name ends before it. -/
theorem length_lt (h : IsPlain front name after) {first last : List Char} {n : Nat}
    (hfront : front = first ++ last) (hlast : last ≠ [])
    (hn : declarationLength? (last ++ (name ++ after)) = some n) : n < last.length := by
  obtain ⟨head, rest, hsplit, rfl, hhead⟩ := beginsWithHead_of_declarationLength? hn
  by_contra hge
  -- otherwise the head is cut where the name begins
  have hhere : last <+: head ++ rest := hsplit ▸ List.prefix_append last (name ++ after)
  have hcut : last <+: head :=
    List.prefix_of_prefix_length_le hhere (List.prefix_append head rest) (Nat.le_of_not_lt hge)
  obtain ⟨back, rfl⟩ := hcut
  rw [List.append_assoc] at hsplit
  have hbehind : name ++ after = back ++ rest := List.append_cancel_left hsplit
  have hapart := h.apart.1
  rw [hfront, List.getLast?_append_of_ne_nil _ hlast] at hapart
  have hback : back.head?.any Text.isSpace = false := by
    cases back with
    | nil => rfl
    | cons c back =>
      obtain ⟨d, ds, hd⟩ := List.exists_cons_of_ne_nil h.identifier.ne_nil
      rw [hd] at hbehind
      have hc : d = c := (List.cons.inj hbehind).1
      exact isSpace_eq_false_of_isDeclaredChar
        (h.identifier.declared c (by rw [hd, hc]; exact List.mem_cons_self))
  rcases hhead.leadsIntoName_or rfl hlast hapart hback with hleads | hinner
  · exact h.front (hfront ▸ hleads.append_left first)
  · exact h.not_isHead (List.nil_append name).symm hbehind hinner

end IsPlain

/-! ## The text without heads -/

theorem IsHead.ne_nil {head : List Char} (h : IsHead head) : head ≠ [] := by
  obtain ⟨keyword, -, blank, rest, rfl, -⟩ := h.exists_keyword
  exact List.append_ne_nil_of_right_ne_nil _ (List.cons_ne_nil blank rest)

theorem declarationLength?_ne_zero {text : List Char} : declarationLength? text ≠ some 0 := by
  intro h
  obtain ⟨head, rest, -, hlength, hhead⟩ := beginsWithHead_of_declarationLength? h
  exact hhead.ne_nil (List.eq_nil_of_length_eq_zero hlength)

/-- No head begins at a character that no name has. -/
theorem not_beginsWithHead {text : List Char} (h : text.head?.any Text.isNameChar = false) (n : Nat) :
    ¬ BeginsWithHead text n := by
  rintro ⟨head, rest, rfl, -, hhead⟩
  obtain ⟨keyword, hkeyword, blank, more, rfl, -⟩ := hhead.exists_keyword
  obtain ⟨d, ds, hd⟩ := List.exists_cons_of_ne_nil (ne_nil_of_mem_headKeywords keyword hkeyword)
  have hname := isNameChar_of_mem_headKeywords keyword hkeyword d (hd ▸ List.mem_cons_self)
  rw [hd, List.cons_append, List.cons_append, List.head?_cons, Option.any_some, hname] at h
  cases h

/-- No declaration begins with a sign. -/
theorem declarationLength?_eq_none {c : Char} (hc : Text.isNameChar c = false) (cs : List Char) :
    declarationLength? (c :: cs) = none := by
  cases h : declarationLength? (c :: cs) with
  | none => rfl
  | some n =>
    have hfirst : (c :: cs).head?.any Text.isNameChar = false := hc
    exact absurd (beginsWithHead_of_declarationLength? h) (not_beginsWithHead hfirst n)

/-- A part of a text in which no head begins stays. -/
theorem dropDeclarationsFrom_zero_append {part rest : List Char}
    (h : ∀ first last, part = first ++ last → last ≠ [] →
      declarationLength? (last ++ rest) = none) :
    dropDeclarationsFrom 0 (part ++ rest) = part ++ dropDeclarationsFrom 0 rest := by
  induction part with
  | nil => rfl
  | cons c part ih =>
    have hnone := h [] (c :: part) rfl (List.cons_ne_nil c part)
    rw [List.cons_append] at hnone
    rw [List.cons_append, dropDeclarationsFrom, hnone]
    refine congrArg (c :: ·) (ih fun first last hpart => h (c :: first) last ?_)
    rw [hpart, List.cons_append]

/-- Where every head that begins in the front of a text ends before the last character of the front,
this character stays. -/
theorem exists_dropDeclarationsFrom_append {front rest : List Char}
    (h : ∀ first last n, front = first ++ last → last ≠ [] →
      declarationLength? (last ++ rest) = some n → n < last.length)
    {skip : Nat} (hskip : skip = 0 ∨ skip < front.length) :
    ∃ kept, dropDeclarationsFrom skip (front ++ rest) = kept ++ dropDeclarationsFrom 0 rest ∧
      kept.getLast? = front.getLast? := by
  induction front generalizing skip with
  | nil =>
    obtain rfl : skip = 0 := hskip.resolve_right (Nat.not_lt_zero skip)
    exact ⟨[], rfl, rfl⟩
  | cons c front ih =>
    have hinner : ∀ first last n, front = first ++ last → last ≠ [] →
        declarationLength? (last ++ rest) = some n → n < last.length := by
      intro first last n hfront
      exact h (c :: first) last n (congrArg (c :: ·) hfront)
    -- a head that is being left out ends before the last character of what is to come
    have hdrop : ∀ k, k < front.length → ∃ kept, dropDeclarationsFrom k (front ++ rest) =
        kept ++ dropDeclarationsFrom 0 rest ∧ kept.getLast? = (c :: front).getLast? := by
      intro k hk
      obtain ⟨kept, hkept, hlast⟩ := ih hinner (.inr hk)
      have hne : front ≠ [] := List.ne_nil_of_length_pos (Nat.zero_lt_of_lt hk)
      refine ⟨kept, hkept, hlast.trans ?_⟩
      exact (List.getLast?_append_of_ne_nil [c] hne).symm
    cases skip with
    | succ k => exact hdrop k (Nat.lt_of_succ_lt_succ (hskip.resolve_left (Nat.succ_ne_zero k)))
    | zero =>
      cases hn : declarationLength? (c :: (front ++ rest)) with
      | none =>
        obtain ⟨kept, hkept, hlast⟩ := ih hinner (.inl rfl)
        refine ⟨c :: kept, ?_, ?_⟩
        · rw [List.cons_append, dropDeclarationsFrom, hn, List.cons_append]
          exact congrArg (c :: ·) hkept
        · rw [List.getLast?_cons, List.getLast?_cons, hlast]
      | some n =>
        have hlt := h [] (c :: front) n rfl (List.cons_ne_nil c front) hn
        rw [List.cons_append, dropDeclarationsFrom, hn]
        cases n with
        | zero => exact absurd hn declarationLength?_ne_zero
        | succ n => exact hdrop n (Nat.lt_of_succ_lt_succ hlt)

/-- A name that no head reaches into is mentioned in the text without the heads. -/
theorem IsPlain.hasMention_dropDeclarations {front name after : List Char}
    (h : IsPlain front name after) :
    hasMention name (dropDeclarations (front ++ (name ++ after))) = true := by
  obtain ⟨kept, hkept, hlast⟩ := exists_dropDeclarationsFrom_append
    (fun first last n hfront hne hn => h.length_lt hfront hne hn) (.inl rfl)
  have hname : dropDeclarationsFrom 0 (name ++ after) = name ++ dropDeclarationsFrom 0 after := by
    refine dropDeclarationsFrom_zero_append fun first last hsplit hne => ?_
    cases hn : declarationLength? (last ++ after) with
    | none => rfl
    | some n =>
      obtain ⟨head, rest, hhead, -, his⟩ := beginsWithHead_of_declarationLength? hn
      exact absurd his (h.not_isHead hsplit hhead)
  rw [hasMention_iff_standsIn]
  refine ⟨kept, dropDeclarationsFrom 0 after, ?_, ?_, ?_⟩
  · rw [dropDeclarations, hkept, hname]
  · rw [hlast]
    exact h.apart.1
  · have hafter := h.apart.2
    cases after with
    | nil => rfl
    | cons c after =>
      rw [dropDeclarationsFrom, declarationLength?_eq_none hafter]
      exact hafter

end SourceSurvey
