import SourceSurvey.Proofs.Text.Blank
import SourceSurvey.Proofs.Text.LineEnd

/-!
# Words between blanks

The fields of a text are its words, and the blanks between them only keep them apart. Main
statement: a text whose runs of blanks are made one blank each is, once trimmed, its words with one
blank between them. So it depends on the words alone, and neither on the kind of the blanks nor on
where lines end.
-/

namespace SourceSurvey.Text

/-! ## Pieces of a text -/

/-- What holds of texts without characters of a class, and of such a text in front of one of them
and of a text of which it holds, holds of every text. -/
theorem induction_at {P : List Char → Prop} (p : Char → Bool)
    (piece : ∀ text, (∀ c ∈ text, p c = false) → P text)
    (cut : ∀ front c rest, (∀ d ∈ front, p d = false) → p c = true → P rest →
      P (front ++ c :: rest)) (text : List Char) : P text := by
  -- the induction is on the text, with any front that has no character of the class
  suffices h : ∀ front, (∀ d ∈ front, p d = false) → P (front ++ text) from h [] (by simp)
  induction text with
  | nil =>
    intro front hfront
    rw [List.append_nil]
    exact piece front hfront
  | cons c cs ih =>
    intro front hfront
    cases hc : p c with
    | true => exact cut front c cs hfront hc (ih [] (by simp))
    | false =>
      have hlonger := ih (front ++ [c]) fun d hd => by
        rcases List.mem_append.mp hd with hd | hd
        · exact hfront d hd
        · rwa [List.mem_singleton.mp hd]
      rwa [List.append_assoc] at hlonger

/-- So it is with the pieces between two separators. -/
theorem induction_at_separator {P : List Char → Prop} (separator : Char)
    (piece : ∀ text, separator ∉ text → P text)
    (cut : ∀ front rest, separator ∉ front → P rest → P (front ++ separator :: rest))
    (text : List Char) : P text := by
  have hmem : ∀ {front : List Char}, (∀ d ∈ front, (d == separator) = false) → separator ∉ front :=
    fun hfront hmem => by simpa using hfront separator hmem
  induction text using induction_at (· == separator) with
  | piece text htext => exact piece text (hmem htext)
  | cut front c rest hfront hc ih =>
    obtain rfl : c = separator := beq_iff_eq.mp hc
    exact cut front rest (hmem hfront) ih

/-- Behind the last separator stands a word without separators. -/
theorem afterLast_append_cons {separator : Char} {word : List Char} (h : separator ∉ word)
    (front : List Char) : afterLast separator (front ++ separator :: word) = word := by
  rw [afterLast, splitAt_append_separator, splitAt_of_not_mem h, List.getLast?_concat]
  rfl

/-! ## Fields -/

/-- A blank ends a word, and what follows begins a new one. -/
theorem fields_append_cons {c : Char} (h : isSpace c = true) (front rest : List Char) :
    fields (front ++ c :: rest) = fields front ++ fields rest := by
  rw [fields, splitWhere_append_cons h, List.filter_append]
  rfl

/-- A blank at the front adds no field. -/
theorem fields_cons {c : Char} (h : isSpace c = true) (rest : List Char) :
    fields (c :: rest) = fields rest :=
  fields_append_cons h [] rest

/-- Blanks at the front add no field. -/
theorem fields_isSpace_append {blanks : List Char} (h : ∀ c ∈ blanks, isSpace c = true)
    (text : List Char) : fields (blanks ++ text) = fields text := by
  induction blanks with
  | nil => rfl
  | cons c cs ih =>
    rw [List.cons_append, fields_cons (h c List.mem_cons_self),
      ih fun d hd => h d (List.mem_cons_of_mem c hd)]

/-- Blanks alone have no field. -/
theorem fields_of_isSpace {blanks : List Char} (h : ∀ c ∈ blanks, isSpace c = true) :
    fields blanks = [] := by
  rw [← List.append_nil blanks, fields_isSpace_append h]
  rfl

/-- Blanks at the end add no field. -/
theorem fields_append_isSpace {blanks : List Char} (h : ∀ c ∈ blanks, isSpace c = true)
    (text : List Char) : fields (text ++ blanks) = fields text := by
  cases blanks with
  | nil => rw [List.append_nil]
  | cons c cs =>
    rw [fields_append_cons (h c List.mem_cons_self),
      fields_of_isSpace fun d hd => h d (List.mem_cons_of_mem c hd), List.append_nil]

/-- A text with no character to split at stays in one piece. -/
theorem splitWhere_of_forall {p : Char → Bool} {text : List Char} (h : ∀ c ∈ text, p c = false) :
    splitWhere p text = [text] := by
  induction text with
  | nil => rfl
  | cons c cs ih =>
    rw [splitWhere, h c List.mem_cons_self, ih fun d hd => h d (List.mem_cons_of_mem c hd)]
    rfl

/-- A word without blanks is one field. -/
theorem fields_of_solid {word : List Char} (h : Solid word) : fields word = [word] := by
  have hne : (!word.isEmpty) = true := by simp [h.1]
  rw [fields, splitWhere_of_forall h.2, List.filter_cons, if_pos hne, List.filter_nil]

/-- The first word of a text that does not begin with a blank. -/
theorem head?_fields {text : List Char} (hne : text ≠ [])
    (hsolid : text.head?.any isSpace = false) :
    (fields text).head? = some (text.takeWhile fun c => !isSpace c) := by
  obtain ⟨c, cs, rfl⟩ := List.exists_cons_of_ne_nil hne
  obtain ⟨others, hothers⟩ := exists_splitWhere isSpace (c :: cs)
  have hc : isSpace c = false := hsolid
  have hword : (c :: cs).takeWhile (fun c => !isSpace c) = c :: cs.takeWhile fun c => !isSpace c :=
    List.takeWhile_cons_of_pos (by simp [hc])
  rw [fields, hothers, hword]
  rfl

/-! ## Trimming -/

/-- Trimming takes characters of the class from the end, as long as there are any. -/
theorem exists_trimEndWhile_append (p : Char → Bool) (text : List Char) :
    ∃ after, text = trimEndWhile p text ++ after ∧ (∀ c ∈ after, p c = true) ∧
      ∀ c, (trimEndWhile p text).getLast? = some c → p c = false := by
  induction text with
  | nil => exact ⟨[], rfl, by simp, by simp [trimEndWhile]⟩
  | cons c cs ih =>
    obtain ⟨after, hcs, hafter, hlast⟩ := ih
    rw [trimEndWhile]
    cases htrim : trimEndWhile p cs with
    | nil =>
      rw [htrim, List.nil_append] at hcs
      dsimp only
      cases hc : p c with
      | true =>
        refine ⟨c :: cs, rfl, fun d hd => ?_, by simp⟩
        rcases List.mem_cons.mp hd with rfl | hd
        · exact hc
        · exact hafter d (hcs ▸ hd)
      | false =>
        refine ⟨after, by rw [hcs]; rfl, hafter, fun d hd => ?_⟩
        rwa [← Option.some.inj hd]
    | cons d ds =>
      rw [htrim] at hcs hlast
      exact ⟨after, congrArg (c :: ·) hcs, hafter, fun e he => hlast e he⟩

/-- A text is its trimmed text with blanks around it. -/
theorem exists_trim_append (text : List Char) :
    ∃ before after, text = before ++ (trim text ++ after) ∧ (∀ c ∈ before, isSpace c = true) ∧
      (∀ c ∈ after, isSpace c = true) ∧ ∀ c, (trim text).getLast? = some c → isSpace c = false := by
  obtain ⟨after, hend, hafter, hlast⟩ := exists_trimEndWhile_append isSpace (trimStart text)
  refine ⟨text.takeWhile isSpace, after, ?_, List.all_eq_true.mp List.all_takeWhile, hafter, hlast⟩
  have hstart : text.takeWhile isSpace ++ trimStart text = text := List.takeWhile_append_dropWhile
  rw [trim, trimEnd, ← hend, hstart]

/-- Trimming the front of a text keeps its fields. -/
theorem fields_trimStart (text : List Char) : fields (trimStart text) = fields text := by
  have hstart : text.takeWhile isSpace ++ trimStart text = text := List.takeWhile_append_dropWhile
  rw [← fields_isSpace_append (List.all_eq_true.mp List.all_takeWhile) (trimStart text), hstart]

/-- Trimming the end of a text keeps its fields. -/
theorem fields_trimEnd (text : List Char) : fields (trimEnd text) = fields text := by
  obtain ⟨after, htext, hafter, -⟩ := exists_trimEndWhile_append isSpace text
  rw [trimEnd, ← fields_append_isSpace hafter, ← htext]

/-- Trimming a text keeps its fields. -/
theorem fields_trim (text : List Char) : fields (trim text) = fields text := by
  rw [trim, fields_trimEnd, fields_trimStart]

/-- A blank at the front is trimmed away. -/
theorem trim_cons {c : Char} (h : isSpace c = true) (text : List Char) :
    trim (c :: text) = trim text := by
  rw [trim, trimStart, List.dropWhile_cons_of_pos h]
  rfl

/-- Blanks at the front are trimmed away. -/
theorem trim_isSpace_append {blanks : List Char} (h : ∀ c ∈ blanks, isSpace c = true)
    (text : List Char) : trim (blanks ++ text) = trim text := by
  rw [trim, trimStart, List.dropWhile_append_of_pos h]
  rfl

/-- Blanks at the end are trimmed away. -/
theorem trim_append_isSpace {blanks : List Char} (h : ∀ c ∈ blanks, isSpace c = true)
    (text : List Char) : trim (text ++ blanks) = trim text := by
  induction blanks generalizing text with
  | nil => rw [List.append_nil]
  | cons c cs ih =>
    have hcons : text ++ c :: cs = text ++ [c] ++ cs := by simp
    rw [hcons, ih fun d hd => h d (List.mem_cons_of_mem c hd), trim_append (h c List.mem_cons_self)]

/-- Trimming twice is trimming once. -/
theorem trim_trim (text : List Char) : trim (trim text) = trim text := by
  obtain ⟨before, after, htext, hbefore, hafter, -⟩ := exists_trim_append text
  conv_rhs => rw [htext, trim_isSpace_append hbefore, trim_append_isSpace hafter]

/-- Trimming the end stops at a text without characters to trim. -/
theorem trimEndWhile_forall_append {p : Char → Bool} {front : List Char}
    (h : ∀ c ∈ front, p c = false) (rest : List Char) :
    trimEndWhile p (front ++ rest) = front ++ trimEndWhile p rest := by
  induction front with
  | nil => rfl
  | cons c cs ih =>
    have hc : trimEndWhile p (c :: (cs ++ rest)) = c :: trimEndWhile p (cs ++ rest) :=
      trimEndWhile_append_cons (h c List.mem_cons_self) [] (cs ++ rest)
    rw [List.cons_append, hc, ih fun d hd => h d (List.mem_cons_of_mem c hd), List.cons_append]

/-- Behind a word only the end of the text is trimmed. -/
theorem trim_solid_append {word : List Char} (h : Solid word) (rest : List Char) :
    trim (word ++ rest) = word ++ trimEnd rest := by
  obtain ⟨c, cs, rfl⟩ := List.exists_cons_of_ne_nil h.1
  have hstart : trimStart (c :: cs ++ rest) = c :: cs ++ rest :=
    List.dropWhile_cons_of_neg (by simp [h.2 c List.mem_cons_self])
  rw [trim, hstart, trimEnd, trimEndWhile_forall_append h.2]
  rfl

/-- The pieces of two texts in a row are those of each, where the last and the first are one. -/
theorem exists_splitAt_append (separator : Char) (text more : List Char) :
    ∃ front last first others, splitAt separator text = front ++ [last] ∧
      splitAt separator more = first :: others ∧
      splitAt separator (text ++ more) = front ++ (last ++ first) :: others := by
  obtain ⟨first, others, hmore⟩ :=
    List.exists_cons_of_ne_nil (splitWhere_ne_nil (· == separator) more)
  induction text using induction_at_separator separator with
  | piece text hmem =>
    refine ⟨[], text, first, others, splitAt_of_not_mem hmem, hmore, ?_⟩
    induction text with
    | nil => exact hmore
    | cons c cs ih =>
      rw [List.mem_cons, not_or] at hmem
      have hrest : splitWhere (· == separator) (cs ++ more) = [] ++ (cs ++ first) :: others :=
        ih hmem.2
      have hc : ¬ (c == separator) = true := by simpa using Ne.symm hmem.1
      show splitWhere (· == separator) (c :: (cs ++ more)) = _
      rw [splitWhere, if_neg hc, hrest]
      rfl
  | cut front rest _ ih =>
    obtain ⟨inner, last, first', others', htext, hmore', hboth⟩ := ih
    refine ⟨splitAt separator front ++ inner, last, first', others', ?_, hmore', ?_⟩
    · rw [splitAt_append_separator, htext, List.append_assoc]
    · rw [List.append_assoc, List.cons_append, splitAt_append_separator, hboth, List.append_assoc]

/-- So it is where a character stands between the two texts that separates nothing. -/
theorem exists_splitAt_append_cons {separator c : Char} (hc : c ≠ separator)
    (text more : List Char) :
    ∃ front last first others, splitAt separator text = front ++ [last] ∧
      splitAt separator more = first :: others ∧
      splitAt separator (text ++ c :: more) = front ++ (last ++ c :: first) :: others := by
  obtain ⟨front, last, first, others, htext, hmore, hboth⟩ :=
    exists_splitAt_append separator text (c :: more)
  obtain ⟨first', others', hmore'⟩ :=
    List.exists_cons_of_ne_nil (splitWhere_ne_nil (· == separator) more)
  have hcons : splitAt separator (c :: more) = (c :: first') :: others' := by
    show splitWhere (· == separator) (c :: more) = _
    rw [splitWhere, if_neg (by simpa using hc), hmore']
  rw [hcons] at hmore
  obtain ⟨rfl, rfl⟩ := List.cons.inj hmore
  exact ⟨front, last, first', others', htext, hmore', hboth⟩

/-- A text has one piece more than separators. -/
theorem length_splitAt (separator : Char) (text : List Char) :
    (splitAt separator text).length = text.count separator + 1 := by
  induction text using induction_at_separator separator with
  | piece text hmem => rw [splitAt_of_not_mem hmem, List.count_eq_zero.mpr hmem, List.length_singleton]
  | cut front rest hmem ih =>
    rw [splitAt_append_cons hmem, List.length_cons, ih, List.count_append,
      List.count_eq_zero.mpr hmem, List.count_cons_self]
    omega

/-- Every piece stands in the text. -/
theorem isInfix_of_mem_splitAt {separator : Char} {text piece : List Char}
    (h : piece ∈ splitAt separator text) : piece <:+: text := by
  induction text using induction_at_separator separator with
  | piece text hmem =>
    rw [splitAt_of_not_mem hmem, List.mem_singleton] at h
    exact h ▸ List.infix_refl text
  | cut front rest hmem ih =>
    rw [splitAt_append_cons hmem, List.mem_cons] at h
    rcases h with rfl | h
    · exact (List.prefix_append _ _).isInfix
    · have hrest : rest <:+: front ++ separator :: rest := ⟨front ++ [separator], [], by simp⟩
      exact (ih h).trans hrest

/-! ## Trimmed pieces -/

/-- The trimmed pieces of a text that are not empty. -/
def trimmedPieces (separator : Char) (text : List Char) : List (List Char) :=
  ((splitAt separator text).map trim).filter (!·.isEmpty)

/-- A blank at the front changes no trimmed piece. -/
theorem map_trim_splitAt_cons {separator c : Char} (hseparator : isSpace separator = false)
    (h : isSpace c = true) (text : List Char) :
    (splitAt separator (c :: text)).map trim = (splitAt separator text).map trim := by
  have hc : ¬ (c == separator) = true := by simpa using ne_of_class h hseparator
  unfold splitAt
  rw [splitWhere, if_neg hc]
  cases hpieces : splitWhere (· == separator) text with
  | nil => exact absurd hpieces (splitWhere_ne_nil _ text)
  | cons piece pieces =>
    dsimp only
    rw [List.map_cons, List.map_cons, trim_cons h]

/-- Blanks at the end change no trimmed piece. -/
theorem map_trim_splitAt_append {separator : Char} (hseparator : isSpace separator = false)
    {blanks : List Char} (h : ∀ c ∈ blanks, isSpace c = true) (text : List Char) :
    (splitAt separator (text ++ blanks)).map trim = (splitAt separator text).map trim := by
  have hnone : separator ∉ blanks := not_mem_of_class h hseparator
  induction text using induction_at_separator separator with
  | piece text hmem =>
    have hmem' : separator ∉ text ++ blanks := by simp [hmem, hnone]
    rw [splitAt_of_not_mem hmem, splitAt_of_not_mem hmem', List.map_singleton, List.map_singleton,
      trim_append_isSpace h]
  | cut front rest _ ih =>
    rw [List.append_assoc, List.cons_append, splitAt_append_separator, splitAt_append_separator,
      List.map_append, List.map_append, ih]

/-- Trimming the text changes no trimmed piece. -/
theorem map_trim_splitAt_trim {separator : Char} (hseparator : isSpace separator = false)
    (text : List Char) :
    (splitAt separator (trim text)).map trim = (splitAt separator text).map trim := by
  obtain ⟨before, after, htext, hbefore, hafter, -⟩ := exists_trim_append text
  have hstart : ∀ more, (splitAt separator (before ++ more)).map trim =
      (splitAt separator more).map trim := by
    intro more
    clear htext
    induction before with
    | nil => rfl
    | cons c cs ih =>
      rw [List.cons_append, map_trim_splitAt_cons hseparator (hbefore c List.mem_cons_self),
        ih fun d hd => hbefore d (List.mem_cons_of_mem c hd)]
  conv_rhs => rw [htext]
  rw [hstart, map_trim_splitAt_append hseparator hafter]

/-- The blanks at the ends of a text belong to no trimmed piece. -/
theorem trimmedPieces_trim {separator : Char} (hseparator : isSpace separator = false)
    (text : List Char) : trimmedPieces separator (trim text) = trimmedPieces separator text := by
  rw [trimmedPieces, trimmedPieces, map_trim_splitAt_trim hseparator]

/-! ## Runs of blanks -/

/-- The text with one blank for every run of them. -/
def squeeze (text : List Char) : List Char :=
  replaceRuns isSpace [' '] text

theorem squeeze_cons_cons (c d : Char) (cs : List Char) :
    squeeze (c :: d :: cs) =
      if isSpace c then if isSpace d then squeeze (d :: cs) else ' ' :: squeeze (d :: cs)
      else c :: squeeze (d :: cs) := rfl

/-- A character that is no blank stays. -/
theorem squeeze_cons {c : Char} (h : isSpace c = false) (rest : List Char) :
    squeeze (c :: rest) = c :: squeeze rest :=
  replaceRuns_cons h rest

/-- No run of blanks reaches over another character. -/
theorem squeeze_append_cons {c : Char} (h : isSpace c = false) (front rest : List Char) :
    squeeze (front ++ c :: rest) = squeeze front ++ c :: squeeze rest :=
  replaceRuns_append_cons h front rest

/-- A text without blanks stays as it is. -/
theorem squeeze_append_of_forall {front : List Char} (h : ∀ c ∈ front, isSpace c = false)
    (rest : List Char) : squeeze (front ++ rest) = front ++ squeeze rest := by
  induction front with
  | nil => rfl
  | cons c cs ih =>
    rw [List.cons_append, squeeze_cons (h c List.mem_cons_self),
      ih fun d hd => h d (List.mem_cons_of_mem c hd), List.cons_append]

/-- A run of blanks at the front is one blank. -/
theorem squeeze_cons_of_isSpace {c : Char} (h : isSpace c = true) (rest : List Char) :
    squeeze (c :: rest) = ' ' :: squeeze (trimStart rest) := by
  induction rest generalizing c with
  | nil =>
    show (if isSpace c then [' '] else [c]) = [' ']
    rw [h, if_pos rfl]
  | cons d ds ih =>
    rw [squeeze_cons_cons, h, if_pos rfl]
    cases hd : isSpace d with
    | true => rw [if_pos rfl, ih hd, trimStart, trimStart, List.dropWhile_cons_of_pos hd]
    | false =>
      have hstop : trimStart (d :: ds) = d :: ds := List.dropWhile_cons_of_neg (by simp [hd])
      rw [if_neg Bool.false_ne_true, hstop]

/-- What stays of a text is in it, or is a blank. -/
theorem mem_squeeze {text : List Char} {c : Char} (h : c ∈ squeeze text) :
    c = ' ' ∨ c ∈ text :=
  (mem_replaceRuns h).imp List.mem_singleton.mp And.left

/-- The pieces of a squeezed text are the pieces of the text, squeezed. -/
theorem splitAt_squeeze {separator : Char} (h : isSpace separator = false) (text : List Char) :
    splitAt separator (squeeze text) = (splitAt separator text).map squeeze := by
  have hpiece : ∀ {piece : List Char}, separator ∉ piece →
      splitAt separator (squeeze piece) = (splitAt separator piece).map squeeze := by
    intro piece hmem
    have hmem' : separator ∉ squeeze piece := fun hmem' => by
      rcases mem_squeeze hmem' with rfl | hmem'
      · cases h
      · exact hmem hmem'
    rw [splitAt_of_not_mem hmem, splitAt_of_not_mem hmem', List.map_singleton]
  induction text using induction_at_separator separator with
  | piece text htext => exact hpiece htext
  | cut front rest hfront ih =>
    rw [squeeze_append_cons h, splitAt_append_separator, splitAt_append_separator, ih,
      List.map_append, hpiece hfront]

/-- A blank at the front of a squeezed text is trimmed away. -/
theorem trim_squeeze_cons {c : Char} (h : isSpace c = true) (rest : List Char) :
    trim (squeeze (c :: rest)) = trim (squeeze rest) := by
  rw [squeeze_cons_of_isSpace h, trim_cons (by decide)]
  cases rest with
  | nil => rfl
  | cons d ds =>
    cases hd : isSpace d with
    | true =>
      rw [squeeze_cons_of_isSpace hd, trim_cons (by decide), trimStart, trimStart,
        List.dropWhile_cons_of_pos hd]
    | false => rw [trimStart, List.dropWhile_cons_of_neg (by simp [hd])]

/-- Squeezing a text that is trimmed at its front leaves no blank there. -/
theorem trimStart_squeeze_trimStart (text : List Char) :
    trimStart (squeeze (trimStart text)) = squeeze (trimStart text) := by
  have hhead : (trimStart text).head?.any isSpace = false := head?_dropWhile_any isSpace text
  cases hstart : trimStart text with
  | nil => rfl
  | cons c cs =>
    rw [hstart] at hhead
    have hc : isSpace c = false := hhead
    rw [squeeze_cons hc]
    exact List.dropWhile_cons_of_neg (by simp [hc])

/-- Behind a word and a blank stands what is left of the text. -/
theorem trim_squeeze_solid_append {word : List Char} (h : Solid word) {c : Char}
    (hc : isSpace c = true) (rest : List Char) :
    trim (squeeze (word ++ c :: rest)) =
      if trim (squeeze rest) = [] then word else word ++ ' ' :: trim (squeeze rest) := by
  have hrest : trim (squeeze rest) = trimEnd (squeeze (trimStart rest)) := by
    rw [← trim_squeeze_cons hc, squeeze_cons_of_isSpace hc, trim_cons (by decide), trim,
      trimStart_squeeze_trimStart]
  rw [squeeze_append_of_forall h.2, squeeze_cons_of_isSpace hc, trim_solid_append h, hrest,
    trimEnd, trimEnd, trimEndWhile]
  cases trimEndWhile isSpace (squeeze (trimStart rest)) with
  | nil => exact List.append_nil word
  | cons d ds => rfl

/-- A trimmed text with one blank for every run of them is its words, one blank between them. -/
theorem trim_squeeze (text : List Char) :
    trim (squeeze text) = [' '].intercalate (fields text) := by
  -- by the pieces between blanks: an empty piece adds no word and a solid one adds itself
  induction text using induction_at isSpace with
  | piece text htext =>
    cases text with
    | nil => rfl
    | cons c cs =>
      have hsolid : Solid (c :: cs) := ⟨List.cons_ne_nil c cs, htext⟩
      have hsqueeze := squeeze_append_of_forall htext []
      have htrim := trim_solid_append hsolid []
      rw [List.append_nil] at hsqueeze htrim
      rw [hsqueeze, fields_of_solid hsolid, List.intercalate_singleton]
      exact (congrArg trim (List.append_nil (c :: cs))).trans (htrim.trans (List.append_nil _))
  | cut front c rest hfront hc ih =>
    cases front with
    | nil => rw [List.nil_append, trim_squeeze_cons hc, fields_cons hc, ih]
    | cons d ds =>
      have hsolid : Solid (d :: ds) := ⟨List.cons_ne_nil d ds, hfront⟩
      rw [trim_squeeze_solid_append hsolid hc, fields_append_cons hc, fields_of_solid hsolid, ih]
      cases hfields : fields rest with
      | nil =>
        rw [if_pos List.intercalate_nil, List.append_nil, List.intercalate_singleton]
      | cons word words =>
        have hword : word ≠ [] := by
          have hmem : word ∈ fields rest := hfields ▸ List.mem_cons_self
          simpa using (List.mem_filter.mp hmem).2
        have hne : [' '].intercalate (word :: words) ≠ [] := by
          cases words with
          | nil => rwa [List.intercalate_singleton]
          | cons =>
            rw [List.intercalate_cons_cons, List.append_assoc]
            exact List.append_ne_nil_of_left_ne_nil hword _
        rw [if_neg hne, List.singleton_append, List.intercalate_cons_cons, List.append_assoc,
          List.singleton_append]

end SourceSurvey.Text
