import SourceSurvey.Proofs.Finding.Reference

/-!
# Routines that are only declared again

A routine whose name stands on other lines only as the declared name of a head. The mentions are
sought without the heads, but the calls with them, and a declared name with a parenthesis behind it
looks like a call. Main statement: the routine is reported exactly if no such parenthesis is behind
one of the names.
-/

namespace SourceSurvey

/-! ## Calls -/

/-- Behind blanks stands the parenthesis that opens the arguments of a call. -/
def OpensArguments (after : List Char) : Prop :=
  (Text.trimStart after).head? = some '('

section Calls

variable {name text : List Char}

theorem isSome_applicationLength?_iff :
    (applicationLength? name text).isSome = true ↔
      ∃ after, text = name ++ after ∧ OpensArguments after := by
  have hdrop : ∀ after : List Char,
      after.drop (after.takeWhile Text.isSpace).length = Text.trimStart after := by
    intro after
    calc after.drop (after.takeWhile Text.isSpace).length
      _ = (after.takeWhile Text.isSpace ++ after.dropWhile Text.isSpace).drop
          (after.takeWhile Text.isSpace).length := by rw [List.takeWhile_append_dropWhile]
      _ = Text.trimStart after := List.drop_left
  unfold applicationLength?
  dsimp only
  constructor
  · intro h
    split at h
    · next hname =>
      obtain ⟨after, rfl⟩ := List.isPrefixOf_iff_prefix.mp hname
      rw [List.drop_left, hdrop] at h
      split at h
      · next hopens => exact ⟨after, rfl, beq_iff_eq.mp hopens⟩
      · cases h
    · cases h
  · rintro ⟨after, rfl, hopens⟩
    rw [if_pos (List.isPrefixOf_iff_prefix.mpr (List.prefix_append name after)), List.drop_left,
      hdrop, if_pos (beq_iff_eq.mpr hopens)]
    rfl

/-- No name goes on where the arguments of a call open. -/
theorem OpensArguments.head? {after : List Char} (h : OpensArguments after) :
    after.head?.any Text.isNameChar = false := by
  cases after with
  | nil => rfl
  | cons c after =>
    cases hc : Text.isNameChar c with
    | false => exact hc
    | true =>
      have htrim : Text.trimStart (c :: after) = c :: after := by
        rw [Text.trimStart, List.dropWhile_cons, Text.isSpace_eq_false_of_isNameChar hc]
        rfl
      rw [OpensArguments, htrim, List.head?_cons, Option.some.injEq] at h
      rw [h] at hc
      exact absurd hc (by decide)

theorem hasCallFrom_iff {prev : Option Char} :
    hasCallFrom name prev text = true ↔ ∃ before after, text = before ++ after ∧ after ≠ [] ∧
      (callLength? name (before.getLast?.or prev) after).isSome = true := by
  induction text generalizing prev with
  | nil =>
    rw [hasCallFrom]
    constructor
    · exact fun h => nomatch h
    · rintro ⟨before, after, htext, hne, -⟩
      exact absurd (List.append_eq_nil_iff.mp htext.symm).2 hne
  | cons c cs ih =>
    rw [hasCallFrom, Bool.or_eq_true, ih]
    constructor
    · rintro (h | ⟨before, after, rfl, hne, h⟩)
      · exact ⟨[], c :: cs, rfl, List.cons_ne_nil c cs, h⟩
      · exact ⟨c :: before, after, rfl, hne, (getLast?_cons_or c before prev).symm ▸ h⟩
    · rintro ⟨before, after, htext, hne, h⟩
      cases before with
      | nil =>
        rw [List.nil_append] at htext
        exact .inl (htext ▸ h)
      | cons d before =>
        rw [List.cons_append, List.cons.injEq] at htext
        obtain ⟨rfl, rfl⟩ := htext
        exact .inr ⟨before, after, rfl, hne, getLast?_cons_or c before prev ▸ h⟩

theorem getLast?_of_mem_receivers (receiver : List Char) (h : receiver ∈ receivers) :
    receiver ≠ [] ∧ receiver.getLast?.any Text.isNameChar = false := by
  have hall : receivers.all (fun r => !r.isEmpty && !(r.getLast?.any Text.isNameChar)) = true := by
    decide
  have hthis := List.all_eq_true.mp hall receiver h
  rw [Bool.and_eq_true, Bool.not_eq_true', Bool.not_eq_true', List.isEmpty_eq_false_iff] at hthis
  exact hthis

/-- What is called stands in the text as a whole word, and its arguments open behind it. -/
theorem exists_of_hasCall (h : hasCall name text = true) :
    ∃ before after, text = before ++ (name ++ after) ∧ IsApart before after ∧
      OpensArguments after := by
  obtain ⟨before, rest, rfl, -, hcall⟩ := hasCallFrom_iff.mp h
  rw [Option.or_none] at hcall
  unfold callLength? at hcall
  dsimp only at hcall
  -- the pattern tries the receivers first and the bare name where none of them fits
  split at hcall
  · -- behind a receiver, which ends in a sign
    next n hreceived =>
    obtain ⟨receiver, hreceiver, hn⟩ := List.exists_of_findSome?_eq_some hreceived
    split at hn
    · next hstarts =>
      obtain ⟨rest, rfl⟩ := List.isPrefixOf_iff_prefix.mp hstarts
      rw [List.drop_left] at hn
      obtain ⟨m, hm, -⟩ := Option.map_eq_some_iff.mp hn
      have hsome : (applicationLength? name rest).isSome = true := by
        rw [hm]
        rfl
      obtain ⟨after, rfl, hopens⟩ := isSome_applicationLength?_iff.mp hsome
      obtain ⟨hne, hsign⟩ := getLast?_of_mem_receivers receiver hreceiver
      refine ⟨before ++ receiver, after, (List.append_assoc ..).symm, ⟨?_, hopens.head?⟩, hopens⟩
      rw [List.getLast?_append_of_ne_nil _ hne]
      exact hsign
    · cases hn
  · split at hcall
    · cases hcall
    · -- without a receiver the name itself has to stand apart
      next hprev =>
      obtain ⟨after, rfl, hopens⟩ := isSome_applicationLength?_iff.mp hcall
      refine ⟨before, after, rfl, ⟨?_, hopens.head?⟩, hopens⟩
      cases hlast : before.getLast? with
      | none => rfl
      | some c =>
        rw [hlast, Option.any_some, Bool.or_eq_true, not_or, Bool.not_eq_true] at hprev
        exact hprev.1

/-- A name that no declared name goes on into is called where its arguments open. -/
theorem hasCall_of_opensArguments {before after : List Char} (hne : name ≠ [])
    (hbefore : before.getLast?.any isDeclaredChar = false) (hopens : OpensArguments after) :
    hasCall name (before ++ (name ++ after)) = true := by
  refine hasCallFrom_iff.mpr ⟨before, name ++ after, rfl, List.append_ne_nil_of_left_ne_nil hne _, ?_⟩
  rw [Option.or_none]
  unfold callLength?
  dsimp only
  split
  · rfl
  · rw [show (before.getLast?.any fun p => Text.isNameChar p || p == '#') = false from hbefore,
      if_neg Bool.false_ne_true]
    exact isSome_applicationLength?_iff.mpr ⟨after, rfl, hopens⟩

end Calls

/-! ## The places that a removal of heads comes to -/

theorem dropDeclarationsFrom_eq_drop (skip : Nat) (text : List Char) :
    dropDeclarationsFrom skip text = dropDeclarations (text.drop skip) := by
  induction skip generalizing text with
  | zero => rfl
  | succ skip ih =>
    cases text with
    | nil => rfl
    | cons c cs => exact ih cs

theorem dropDeclarations_of_none {c : Char} {cs : List Char}
    (h : declarationLength? (c :: cs) = none) :
    dropDeclarations (c :: cs) = c :: dropDeclarations cs := by
  rw [dropDeclarations, dropDeclarationsFrom, h]
  rfl

theorem dropDeclarations_of_some {text : List Char} {n : Nat}
    (h : declarationLength? text = some n) :
    dropDeclarations text = dropDeclarations (text.drop n) := by
  cases n with
  | zero => exact absurd h declarationLength?_ne_zero
  | succ n =>
    cases text with
    | nil => rfl
    | cons c cs =>
      rw [dropDeclarations, dropDeclarationsFrom, h]
      exact dropDeclarationsFrom_eq_drop n cs

/-- The removal of heads from a text comes to a place, given by the rest of the text, where no head
has been begun. -/
inductive ScansTo (text : List Char) : List Char → Prop where
  | start : ScansTo text text
  | keep {c : Char} {cs : List Char} (h : ScansTo text (c :: cs))
    (hnone : declarationLength? (c :: cs) = none) : ScansTo text cs
  | leave {rest : List Char} {n : Nat} (h : ScansTo text rest)
    (hsome : declarationLength? rest = some n) : ScansTo text (rest.drop n)

/-- No declared name goes on behind a head that is taken out. -/
theorem head?_drop_of_declarationLength? {text : List Char} {n : Nat}
    (h : declarationLength? text = some n) : (text.drop n).head?.any isDeclaredChar = false := by
  obtain ⟨head, rest, rfl, rfl, -, -, hrest⟩ := beginsWithWholeHead_of_declarationLength? h
  rw [List.drop_left]
  exact hrest

theorem isNameChar_eq_false_of_isDeclaredChar {c : Char} (h : isDeclaredChar c = false) :
    Text.isNameChar c = false := by
  rw [isDeclaredChar, Bool.or_eq_false_iff] at h
  exact h.1

theorem head?_dropDeclarations {text : List Char} (h : text.head?.any isDeclaredChar = false) :
    (dropDeclarations text).head?.any isDeclaredChar = false := by
  cases text with
  | nil => rfl
  | cons c cs =>
    rw [dropDeclarations_of_none
      (declarationLength?_eq_none (isNameChar_eq_false_of_isDeclaredChar h) cs)]
    exact h

/-- A word that is left over without the heads stands in the text, and behind it, if not the same
character as before, a head. -/
theorem exists_append_of_dropDeclarations {word after text : List Char}
    (hword : ∀ c ∈ word, isDeclaredChar c = true) (h : dropDeclarations text = word ++ after)
    (hafter : after.head?.any Text.isNameChar = false) :
    ∃ behind, text = word ++ behind ∧
      (behind.head?.any Text.isNameChar = false ∨ ∃ n, declarationLength? behind = some n) := by
  induction word generalizing text with
  | nil =>
    refine ⟨text, rfl, ?_⟩
    cases text with
    | nil => exact .inl rfl
    | cons c cs =>
      cases hn : declarationLength? (c :: cs) with
      | some n => exact .inr ⟨n, rfl⟩
      | none =>
        rw [dropDeclarations_of_none hn] at h
        rw [← show c :: dropDeclarations cs = after from h] at hafter
        exact .inl hafter
  | cons d word ih =>
    have hd := hword d List.mem_cons_self
    cases hn : declarationLength? text with
    | some n =>
      -- a declaration taken out here would leave a sign in front, and the word begins here
      have hbehind := head?_dropDeclarations (head?_drop_of_declarationLength? hn)
      rw [← dropDeclarations_of_some hn, h, List.cons_append, List.head?_cons, Option.any_some,
        hd] at hbehind
      cases hbehind
    | none =>
      cases text with
      | nil => cases h
      | cons c cs =>
        rw [dropDeclarations_of_none hn, List.cons_append, List.cons.injEq] at h
        obtain ⟨rfl, h⟩ := h
        obtain ⟨behind, rfl, hbehind⟩ := ih (fun c hc => hword c (List.mem_cons_of_mem _ hc)) h
        exact ⟨behind, rfl, hbehind⟩

/-! ## Heads that are taken out -/

/-- The declared name of a head stands behind: a keyword and blanks are before it, no name goes on
into the keyword, and the keyword is not itself where the declared name of a head may stand. -/
def IsHeaded (front : List Char) : Prop :=
  ∃ before, ∃ keyword ∈ namingKeywords, ∃ blanks : List Char,
    front = before ++ (keyword.toList ++ blanks) ∧ blanks ≠ [] ∧
      (∀ c ∈ blanks, Text.isSpace c = true) ∧
      before.getLast?.any Text.isNameChar = false ∧ ¬ LeadsIntoName before

/-- A blank is before the name. -/
theorem IsHeaded.getLast? {front : List Char} (h : IsHeaded front) :
    front.getLast?.any isDeclaredChar = false := by
  obtain ⟨before, keyword, -, blanks, rfl, hne, hblanks, -, -⟩ := h
  have hspace := hblanks (blanks.getLast hne) (List.getLast_mem hne)
  rw [← List.append_assoc, List.getLast?_append_of_ne_nil _ hne, List.getLast?_eq_some_getLast hne,
    Option.any_some]
  cases hdeclared : isDeclaredChar (blanks.getLast hne) with
  | false => rfl
  | true =>
    rw [isSpace_eq_false_of_isDeclaredChar hdeclared] at hspace
    cases hspace

section Headed

variable {keyword : String} {blanks name after : List Char}

/-- A head begins at a keyword with blanks and a declared name behind it. -/
theorem declarationLength?_isSome (hkeyword : keyword ∈ namingKeywords) (hne : blanks ≠ [])
    (hblanks : ∀ c ∈ blanks, Text.isSpace c = true) (hname : name.head?.any isDeclaredChar = true) :
    ∃ n, declarationLength? (keyword.toList ++ (blanks ++ name)) = some n := by
  obtain ⟨c, cs, rfl⟩ : ∃ c cs, name = c :: cs := by
    cases name with
    | nil => cases hname
    | cons c cs => exact ⟨c, cs, rfl⟩
  have hc : isDeclaredChar c = true := hname
  have hspace : (c :: cs).takeWhile Text.isSpace = [] := by
    rw [List.takeWhile_cons, isSpace_eq_false_of_isDeclaredChar hc]
    rfl
  have hgap : blanksLength? (blanks ++ c :: cs) = some blanks.length := by
    unfold blanksLength?
    rw [List.takeWhile_append_of_pos hblanks, hspace, List.append_nil]
    dsimp only
    rw [if_neg (fun h => hne (List.isEmpty_iff.mp h))]
  have hfound : (keywordAndName? keyword (keyword.toList ++ (blanks ++ c :: cs))).isSome = true := by
    unfold keywordAndName?
    dsimp only
    rw [if_pos (List.isPrefixOf_iff_prefix.mpr (List.prefix_append _ _)), List.drop_left, hgap]
    show (if ((blanks ++ c :: cs).drop blanks.length |>.takeWhile isDeclaredChar).isEmpty = true
      then none else some _).isSome = true
    rw [List.drop_left, List.takeWhile_cons, if_pos hc]
    rfl
  rw [← Option.isSome_iff_exists, declarationLength?, Option.isSome_or, Option.isSome_or]
  rw [namingKeywords, List.mem_cons, List.mem_singleton] at hkeyword
  -- either keyword settles one of the alternatives, whatever the others give
  rcases hkeyword with rfl | rfl
  · rw [hfound, Bool.or_true, Bool.or_true]
  · rw [hfound, Bool.true_or, Bool.or_true]

theorem not_isHead_keyword (hkeyword : keyword ∈ namingKeywords) : ¬ IsHead keyword.toList := by
  intro hhead
  obtain ⟨first, -, blank, rest, hsplit, hblank⟩ := hhead.exists_keyword
  have hmem : blank ∈ keyword.toList := by
    rw [hsplit]
    exact List.mem_append_right _ List.mem_cons_self
  rw [Text.isSpace_eq_false_of_isNameChar (isNameChar_of_mem_headKeywords keyword
    (List.mem_cons_of_mem _ hkeyword) blank hmem)] at hblank
  cases hblank

/-- No head ends with the keyword: its name would stand where the keyword does. -/
theorem not_isHead_append_keyword {last : List Char} (hkeyword : keyword ∈ namingKeywords)
    (hlast : last.getLast?.any Text.isNameChar = false) (hleads : ¬ LeadsIntoName last) :
    ¬ IsHead (last ++ keyword.toList) := by
  intro hhead
  by_cases hne : last = []
  · rw [hne, List.nil_append] at hhead
    exact not_isHead_keyword hkeyword hhead
  · have hspace : keyword.toList.head?.any Text.isSpace = false := by
      have hall : namingKeywords.all (fun k => !(k.toList.head?.any Text.isSpace)) = true := by decide
      exact (Bool.not_eq_true' _).mp (List.all_eq_true.mp hall keyword hkeyword)
    rcases hhead.leadsIntoName_or rfl hne hlast hspace with h | h
    · exact hleads h
    · exact not_isHead_keyword hkeyword h

/-- A head that reaches over the beginning of the keyword reaches over the declared name behind. -/
theorem le_of_length_lt {last : List Char} {n : Nat} (hkeyword : keyword ∈ namingKeywords)
    (hblanks : ∀ c ∈ blanks, Text.isSpace c = true) (hname : ∀ c ∈ name, isDeclaredChar c = true)
    (hlast : last.getLast?.any Text.isNameChar = false) (hleads : ¬ LeadsIntoName last)
    (hn : declarationLength? (last ++ (keyword.toList ++ (blanks ++ (name ++ after)))) = some n)
    (hlong : last.length < n) :
    last.length + (keyword.toList.length + (blanks.length + name.length)) ≤ n := by
  have hword := isNameChar_of_mem_headKeywords keyword (List.mem_cons_of_mem _ hkeyword)
  have hdeclared : ∀ c ∈ keyword.toList, isDeclaredChar c = true := fun c hc => by
    rw [isDeclaredChar, hword c hc, Bool.true_or]
  obtain ⟨head, rest, hsplit, rfl, hhead, hend, hrest⟩ := beginsWithWholeHead_of_declarationLength? hn
  -- no character of a declared name is behind the head
  have hstop : ∀ c more, rest = c :: more → isDeclaredChar c = false := by
    rintro c more rfl
    exact hrest
  have hcut : last <+: head :=
    List.prefix_of_prefix_length_le (hsplit ▸ List.prefix_append last _)
      (List.prefix_append head rest) (Nat.le_of_lt hlong)
  obtain ⟨back, rfl⟩ := hcut
  have hback : back ≠ [] := by
    rintro rfl
    rw [List.append_nil] at hlong
    exact Nat.lt_irrefl _ hlong
  rw [List.append_assoc] at hsplit
  have hsplit := List.append_cancel_left hsplit
  -- the head ends in the keyword, in the blanks, or behind them
  rcases List.append_eq_append_iff.mp hsplit with ⟨more, rfl, hmore⟩ | ⟨inside, hinside, rfl⟩
  · rcases List.append_eq_append_iff.mp hmore with ⟨tail, rfl, htail⟩ | ⟨gap, rfl, rfl⟩
    · rcases List.append_eq_append_iff.mp htail with ⟨beyond, rfl, -⟩ | ⟨left, rfl, rfl⟩
      · simp only [List.length_append]
        omega
      · cases left with
        | nil =>
          simp only [List.append_nil, List.length_append]
          omega
        | cons c left =>
          have hc := hstop c (left ++ after) rfl
          rw [hname c (List.mem_append_right _ List.mem_cons_self)] at hc
          cases hc
    · by_cases hmore : more = []
      · rw [hmore, List.append_nil] at hhead
        exact absurd hhead (not_isHead_append_keyword hkeyword hlast hleads)
      · have hspace := hblanks (more.getLast hmore) (List.mem_append_left _ (List.getLast_mem hmore))
        rw [← List.append_assoc, List.getLast?_append_of_ne_nil _ hmore,
          List.getLast?_eq_some_getLast hmore, Option.any_some] at hend
        rw [isSpace_eq_false_of_isDeclaredChar hend] at hspace
        cases hspace
  · cases inside with
    | nil =>
      rw [← List.append_nil back, ← hinside] at hhead
      exact absurd hhead (not_isHead_append_keyword hkeyword hlast hleads)
    | cons c inside =>
      have hc := hstop c _ rfl
      rw [hdeclared c (hinside ▸ List.mem_append_right _ List.mem_cons_self)] at hc
      cases hc

/-- The removal of heads passes over the declared name of a head. -/
theorem ScansTo.passes_over {text before rest : List Char} (hkeyword : keyword ∈ namingKeywords)
    (hne : blanks ≠ []) (hblanks : ∀ c ∈ blanks, Text.isSpace c = true) (hname : IsIdentifier name)
    (hbefore : before.getLast?.any Text.isNameChar = false) (hleads : ¬ LeadsIntoName before)
    (htext : text = before ++ (keyword.toList ++ (blanks ++ (name ++ after))))
    (h : ScansTo text rest) :
    (∃ first last, before = first ++ last ∧
      rest = last ++ (keyword.toList ++ (blanks ++ (name ++ after)))) ∨
      rest.length ≤ after.length := by
  -- the removal has not come to the head yet, or it is behind the declared name
  induction h with
  | start => exact .inl ⟨[], before, rfl, htext⟩
  | @keep c cs _ hnone ih =>
    rcases ih with ⟨first, last, rfl, hlast⟩ | hlength
    · cases last with
      | nil =>
        obtain ⟨d, ds, hd⟩ := List.exists_cons_of_ne_nil hname.ne_nil
        have hfirst : (name ++ after).head?.any isDeclaredChar = true := by
          rw [hd, List.cons_append, List.head?_cons, Option.any_some]
          exact hname.declared d (hd ▸ List.mem_cons_self)
        -- a character of the head is not kept, since the head is a declaration from there on
        obtain ⟨n, hn⟩ := declarationLength?_isSome hkeyword hne hblanks hfirst
        rw [hlast, List.nil_append, hn] at hnone
        cases hnone
      | cons d last =>
        rw [List.cons_append, List.cons.injEq] at hlast
        exact .inl ⟨first ++ [d], last, by rw [List.append_assoc]; rfl, hlast.2⟩
    · rw [List.length_cons] at hlength
      exact .inr (Nat.le_of_succ_le hlength)
  | @leave rest n _ hsome ih =>
    rcases ih with ⟨first, last, rfl, rfl⟩ | hlength
    · rcases Nat.lt_or_ge last.length n with hlong | hshort
      · right
        have hlast : last.getLast?.any Text.isNameChar = false := by
          cases last with
          | nil => rfl
          | cons d last => rwa [List.getLast?_append_of_ne_nil _ (List.cons_ne_nil d last)] at hbefore
        have hle := le_of_length_lt hkeyword hblanks hname.declared hlast
          (fun h => hleads (h.append_left first)) hsome hlong
        simp only [List.length_drop, List.length_append]
        omega
      · left
        refine ⟨first ++ last.take n, last.drop n, ?_, ?_⟩
        · rw [List.append_assoc, List.take_append_drop]
        · rw [List.drop_append_of_le_length hshort]
    · right
      rw [List.length_drop]
      omega

end Headed

/-! ## Names that only heads declare -/

section Declared

variable {name text : List Char}

/-- A declared name that is kept stands in the text, and it is not the name of a head. -/
theorem ScansTo.not_isMentionAt (hname : IsIdentifier name)
    (hheaded : ∀ before after, text = before ++ (name ++ after) → IsApart before after →
      IsHeaded before)
    (hlonger : ∀ before after, text = before ++ (name ++ after) →
      before.getLast?.any Text.isNameChar = false → ∀ n, ¬ BeginsWithHead after n)
    {done rest : List Char} {prev : Option Char} (hscan : ScansTo text rest)
    (htext : text = done ++ rest)
    (hprev : prev = done.getLast? ∨ rest.head?.any isDeclaredChar = false) :
    isMentionAt name prev (dropDeclarations rest) = false := by
  cases hmention : isMentionAt name prev (dropDeclarations rest) with
  | false => rfl
  | true =>
    obtain ⟨after, hdropped, hapart, hafter⟩ := isMentionAt_iff.mp hmention
    obtain ⟨behind, rfl, hbehind⟩ :=
      exists_append_of_dropDeclarations hname.declared hdropped hafter
    have hfirst : (name ++ behind).head?.any isDeclaredChar = true := by
      obtain ⟨d, ds, hd⟩ := List.exists_cons_of_ne_nil hname.ne_nil
      rw [hd, List.cons_append, List.head?_cons, Option.any_some]
      exact hname.declared d (hd ▸ List.mem_cons_self)
    have hdone : done.getLast?.any Text.isNameChar = false := by
      rcases hprev with rfl | h
      · exact hapart
      · rw [hfirst] at h
        cases h
    rcases hbehind with hbehind | ⟨n, hn⟩
    · -- the head that declares the name would have been taken out
      obtain ⟨before, keyword, hkeyword, blanks, rfl, hne, hblanks, hbefore, hleads⟩ :=
        hheaded done behind htext ⟨hdone, hbehind⟩
      rw [List.append_assoc, List.append_assoc] at htext
      have hpositive : 0 < name.length := List.length_pos_iff.mpr hname.ne_nil
      rcases hscan.passes_over hkeyword hne hblanks hname hbefore hleads htext with
        ⟨first, last, -, hrest⟩ | hlength
      · have hlength := congrArg List.length hrest
        have hblank : 0 < blanks.length := List.length_pos_iff.mpr hne
        simp only [List.length_append] at hlength
        omega
      · rw [List.length_append] at hlength
        omega
    · exact absurd (beginsWithHead_of_declarationLength? hn) (hlonger done behind htext hdone n)

/-- A name that stands in a text only as the declared name of heads, and that no head follows
directly, is not mentioned without the heads. -/
theorem hasMention_dropDeclarations_eq_false (hname : IsIdentifier name)
    (hheaded : ∀ before after, text = before ++ (name ++ after) → IsApart before after →
      IsHeaded before)
    (hlonger : ∀ before after, text = before ++ (name ++ after) →
      before.getLast?.any Text.isNameChar = false → ∀ n, ¬ BeginsWithHead after n) :
    hasMention name (dropDeclarations text) = false := by
  -- from every place that the removal comes to, nothing more is mentioned; the character before is
  -- kept, or no declared name goes on from it
  have hnone : ∀ (length : Nat) (done rest : List Char) (prev : Option Char), rest.length = length →
      ScansTo text rest → text = done ++ rest →
      (prev = done.getLast? ∨ rest.head?.any isDeclaredChar = false) →
      hasMentionFrom name prev (dropDeclarations rest) = false := by
    intro length
    induction length using Nat.strongRecOn with
    | ind length ih =>
    rintro done rest prev rfl hscan htext hprev
    have hhere := hscan.not_isMentionAt hname hheaded hlonger htext hprev
    cases rest with
    | nil => exact hhere
    | cons c cs =>
      cases hn : declarationLength? (c :: cs) with
      | some n =>
        have hdrop := head?_drop_of_declarationLength? hn
        have hlt : ((c :: cs).drop n).length < (c :: cs).length := by
          have hpos : n ≠ 0 := fun h => declarationLength?_ne_zero (h ▸ hn)
          rw [List.length_drop, List.length_cons]
          omega
        rw [dropDeclarations_of_some hn]
        refine ih _ hlt (done ++ (c :: cs).take n) _ prev rfl (.leave hscan hn) ?_ (.inr hdrop)
        rw [List.append_assoc, List.take_append_drop]
        exact htext
      | none =>
        rw [dropDeclarations_of_none hn] at hhere ⊢
        rw [hasMentionFrom, Bool.or_eq_false_iff]
        constructor
        · exact hhere
        · refine ih cs.length (Nat.lt_succ_self _) (done ++ [c]) cs (some c) rfl (.keep hscan hn) ?_ ?_
          · rw [List.append_assoc]
            exact htext
          · exact .inl List.getLast?_concat.symm
  exact hnone text.length [] text none rfl .start rfl (.inl rfl)

end Declared

/-! ## What is reported -/

namespace Unused

theorem mem_ofLines_routine_iff {lines : List Line} {found : Extraction} {style : CommentRules}
    {c : Routine} (hc : c ∈ found.routines ++ found.types.flatMap (·.methods))
    (hexpected : isExpected c = true) :
    ⟨c.name, .routine, c.line⟩ ∈ ofLines lines found style ↔
      isUsedIn c.name.toList (textWithout (· == c.line) lines) = false := by
  constructor
  · exact isUsedIn_eq_false_of_mem_ofLines
  · intro hunused
    rw [ofLines, List.mem_append, List.mem_append]
    refine .inl (.inr (List.mem_map_of_mem (List.mem_filter.mpr ⟨hc, ?_⟩)))
    rw [hexpected, hunused]
    rfl

/-- A routine whose name stands on the other lines only as the declared name of heads is reported
exactly if behind none of these names the arguments of a call could open. -/
theorem mem_ofLines_iff_of_isHeaded {lines : List Line} {found : Extraction} {style : CommentRules}
    {c : Routine} (hc : c ∈ found.routines ++ found.types.flatMap (·.methods))
    (hexpected : isExpected c = true) (hname : IsIdentifier c.name.toList)
    (hheaded : ∀ before after,
      textWithout (· == c.line) lines = before ++ (c.name.toList ++ after) →
      IsApart before after → IsHeaded before)
    (hlonger : ∀ before after,
      textWithout (· == c.line) lines = before ++ (c.name.toList ++ after) →
      before.getLast?.any Text.isNameChar = false → ∀ n, ¬ BeginsWithHead after n) :
    ⟨c.name, .routine, c.line⟩ ∈ ofLines lines found style ↔
      ∀ before after, textWithout (· == c.line) lines = before ++ (c.name.toList ++ after) →
        IsApart before after → ¬ OpensArguments after := by
  rw [mem_ofLines_routine_iff hc hexpected, isUsedIn,
    hasMention_dropDeclarations_eq_false hname hheaded hlonger, Bool.or_false]
  constructor
  · intro hcall before after htext hapart hopens
    have hfound := hasCall_of_opensArguments hname.ne_nil (hheaded before after htext hapart).getLast?
      hopens
    rw [← htext, hcall] at hfound
    cases hfound
  · intro hclosed
    cases hcall : hasCall c.name.toList (textWithout (· == c.line) lines) with
    | false => rfl
    | true =>
      obtain ⟨before, after, htext, hapart, hopens⟩ := exists_of_hasCall hcall
      exact absurd hopens (hclosed before after htext hapart)

instance : DecidablePred OpensArguments :=
  fun after => inferInstanceAs (Decidable ((Text.trimStart after).head? = some '('))

/-- The places of a name in a text, one position after the other. -/
theorem forall_places {name text : List Char} {P : List Char → List Char → Prop}
    (h : ∀ i ∈ List.range (text.length + 1), name.isPrefixOf (text.drop i) = true →
      P (text.take i) (text.drop (i + name.length))) :
    ∀ before after, text = before ++ (name ++ after) → P before after := by
  rintro before after rfl
  have hplace := h before.length (List.mem_range.mpr (by rw [List.length_append]; omega))
  rw [← List.drop_drop, List.take_left, List.drop_left, List.drop_left] at hplace
  exact hplace (List.isPrefixOf_iff_prefix.mpr (List.prefix_append name after))

/-- Two headers of one function, each with a parameter list of types behind the name. -/
def overloads : List Line :=
  ["function save<T>(item: T): void", "function save<T>(item: T, deep: boolean): void"].map
    String.toList

/-- The other header has no parenthesis behind the name. -/
theorem mem_ofLines_iff_of_isHeaded_overloads :
    ⟨"save", .routine, 1⟩ ∈ ofLines overloads
      { routines := [{ name := "save", line := 1 }, { name := "save", line := 2 }] } .slash := by
  have hplace : ∀ i ∈ List.range (textWithout (· == 1) overloads).length.succ,
      "save".toList.isPrefixOf ((textWithout (· == 1) overloads).drop i) = true → i = 9 := by
    decide
  have hleads : ¬ LeadsIntoName [] := by
    rintro ⟨before, keyword, -, blanks, name, h, hne, -⟩
    have hblanks := (List.append_eq_nil_iff.mp (List.append_eq_nil_iff.mp
      (List.append_eq_nil_iff.mp h.symm).2).2).1
    exact hne hblanks
  have hheaded : ∀ before after,
      textWithout (· == 1) overloads = before ++ ("save".toList ++ after) →
      IsApart before after → IsHeaded before := by
    refine forall_places fun i hi hstarts _ => ?_
    obtain rfl := hplace i hi hstarts
    exact ⟨[], "function", by decide, [' '], by decide, by decide,
      List.all_eq_true.mp (by decide), rfl, hleads⟩
  have hlonger : ∀ before after,
      textWithout (· == 1) overloads = before ++ ("save".toList ++ after) →
      before.getLast?.any Text.isNameChar = false → ∀ n, ¬ BeginsWithHead after n := by
    refine forall_places fun i hi hstarts _ => ?_
    obtain rfl := hplace i hi hstarts
    exact not_beginsWithHead (by decide)
  have hclosed : ∀ before after,
      textWithout (· == 1) overloads = before ++ ("save".toList ++ after) →
      IsApart before after → ¬ OpensArguments after := by
    refine forall_places fun i hi hstarts _ => ?_
    obtain rfl := hplace i hi hstarts
    decide
  exact (mem_ofLines_iff_of_isHeaded (c := { name := "save", line := 1 }) (by decide) (by decide)
    ⟨by decide, List.all_eq_true.mp (by decide)⟩ hheaded hlonger).mpr hclosed

/-- One method in two classes that is called nowhere. -/
def savingClasses : List Line :=
  ["class A:", "    def save(self):", "        pass", "", "class B:", "    def save(self):",
    "        pass"].map String.toList

/-- The header of the second method is taken for a call of the first. -/
theorem not_forall_mem_ofLines_of_followsKeyword :
    ¬ ∀ (lines : List Line) (found : Extraction) (style : CommentRules) (c : Routine),
      c ∈ found.routines ++ found.types.flatMap (·.methods) → isExpected c = true →
      IsIdentifier c.name.toList →
      (∀ before after, textWithout (· == c.line) lines = before ++ (c.name.toList ++ after) →
        IsApart before after → followsKeyword before = true) →
      ⟨c.name, .routine, c.line⟩ ∈ ofLines lines found style := by
  intro hclaim
  have hmem := hclaim savingClasses
    { types := [{ name := "A", methods := [{ name := "save", line := 2 }], line := 1 },
      { name := "B", methods := [{ name := "save", line := 6 }], line := 5 }] } .hash
    { name := "save", line := 2 } (by decide) (by decide)
    ⟨by decide, List.all_eq_true.mp (by decide)⟩ (forall_places (by decide))
  have hunused := isUsedIn_eq_false_of_mem_ofLines hmem
  revert hunused
  decide

end Unused

end SourceSurvey
