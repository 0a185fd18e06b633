import SourceSurvey.Proofs.Extract.ImportClause

/-!
# Import statements of a script

The written forms of the import statements of a script: a clause with the module that its names come
from, or the module alone. Main statement: whatever the clauses, the modules, the layouts, the
comments and the number of statements are, the imports that are read are those that were written,
in order and with their first and last lines.
-/

namespace SourceSurvey.Extract.JavaScript

open Pattern

/-! ## The module of an import -/

/-- The text holds neither of the two quotes. -/
def HasNoQuote (text : List Char) : Prop :=
  ∀ c ∈ text, isPlainQuote c = false

namespace HasNoQuote

/-- Two texts without quotes are one. -/
theorem append {text more : List Char} (h : HasNoQuote text) (hmore : HasNoQuote more) :
    HasNoQuote (text ++ more) := by
  intro c hc
  rcases List.mem_append.mp hc with hc | hc
  · exact h c hc
  · exact hmore c hc

/-- A text of a class without the quotes holds none. -/
theorem of_class {p : Char → Bool} (hdouble : p '"' = false) (hsingle : p '\'' = false)
    {text : List Char} (h : ∀ c ∈ text, p c = true) : HasNoQuote text := by
  intro c hc
  simp [isPlainQuote, Text.ne_of_class (h c hc) hdouble, Text.ne_of_class (h c hc) hsingle]

/-- Blanks are no quotes. -/
theorem of_isSpace {text : List Char} (h : ∀ c ∈ text, Text.isSpace c = true) : HasNoQuote text :=
  of_class (by decide) (by decide) h

/-- A word holds no quote. -/
theorem of_word {word : List Char} (h : word.all Text.isNameChar = true) : HasNoQuote word :=
  of_class (by decide) (by decide) (List.all_eq_true.mp h)

/-- A text without quotes counts none. -/
theorem countP {text : List Char} (h : HasNoQuote text) : text.countP isPlainQuote = 0 := by
  rw [List.countP_eq_zero]
  intro c hc
  rw [h c hc]
  exact Bool.false_ne_true

end HasNoQuote

/-- A module's name in quotes, without quotes and backslashes in it. -/
structure Specifier where
  quote : Char
  isQuote : isPlainQuote quote = true
  text : List Char
  ne_nil : text ≠ []
  noQuote : HasNoQuote text
  noEscape : '\\' ∉ text

namespace Specifier

/-- The name as it is written. -/
def written (module : Specifier) : List Char :=
  module.quote :: (module.text ++ [module.quote])

/-- What is no quote differs from the one around the module. -/
theorem ne_quote (module : Specifier) {d : Char} (hd : isPlainQuote d = false) : d ≠ module.quote :=
  (Text.ne_of_class module.isQuote hd).symm

/-- A written module begins with no blank. -/
theorem head?_any_isSpace (module : Specifier) (rest : List Char) :
    (module.written ++ rest).head?.any Text.isSpace = false := by
  show Text.isSpace module.quote = false
  rw [Bool.eq_false_iff]
  intro hspace
  have hnone : HasNoQuote [module.quote] := .of_isSpace fun c hc => by
    rwa [List.mem_singleton.mp hc]
  exact module.ne_quote (hnone module.quote List.mem_cons_self) rfl

/-- The pattern for a quoted text takes the module out of its quotes. -/
theorem takes_quotedText (module : Specifier) (rest : List Char) :
    quotedText.Takes (module.written ++ rest) module.text rest := by
  have hchars : ∀ c ∈ module.text, (!isPlainQuote c) = true := by
    intro c hc
    simp [module.noQuote c hc]
  have hstop : (module.quote :: rest).head?.any (fun c => !isPlainQuote c) = false := by
    simp [module.isQuote]
  have hne : 1 ≤ module.text.length := List.length_pos_iff.mpr module.ne_nil
  have hwritten : module.written ++ rest =
      module.quote :: (module.text ++ module.quote :: rest) := by
    simp [written]
  rw [hwritten]
  unfold quotedText
  exact (takes_char module.isQuote _).bind ((takes_run hchars hne hstop).bind
    ((takes_char module.isQuote rest).bind (takes_pure _ rest)))

/-- What is around the module is a quote. -/
theorem isQuote_quote (module : Specifier) : Nesting.isQuote module.quote = true := by
  have hquote := module.isQuote
  simp only [isPlainQuote, Bool.or_eq_true, beq_iff_eq] at hquote
  rcases hquote with hquote | hquote <;> (rw [hquote]; decide)

/-- Stripping keeps the quotes of the module and empties them. -/
theorem keepsCode (module : Specifier) :
    KeepsCode module.written [module.quote, module.quote] := by
  refine .literal module.isQuote_quote fun c hc => ⟨module.ne_quote (module.noQuote c hc), ?_⟩
  exact fun hescape => module.noEscape (hescape ▸ hc)

end Specifier

/-- The pattern for a quoted text matches nothing that begins without a quote. -/
theorem refuses_quotedText {t : List Char} (h : t.head?.any isPlainQuote = false) :
    quotedText.Refuses t := by
  unfold quotedText
  exact (refuses_char h).bind _

/-- A quoted text has a quote at its front and one more at its end. -/
theorem reads_quotedText : quotedText.Reads fun t _ =>
    ∃ q body q', t = q :: (body ++ [q']) ∧ isPlainQuote q = true ∧ isPlainQuote q' = true := by
  unfold quotedText
  refine (reads_char isPlainQuote).bind fun t q ht => ?_
  refine (reads_run _ 1).bind fun body _ _ => ?_
  refine (reads_char isPlainQuote).bind fun t' q' ht' => reads_pure ?_
  obtain ⟨rfl, hq⟩ := ht
  obtain ⟨rfl, hq'⟩ := ht'
  exact ⟨q, body, q', by simp, hq, hq'⟩

/-! ## Words before the first quote -/

/-- A text without its blanks. -/
def solidPart (text : List Char) : List Char :=
  text.filter fun c => !Text.isSpace c

/-- Blanks are dropped from two texts one by one. -/
theorem solidPart_append (text more : List Char) :
    solidPart (text ++ more) = solidPart text ++ solidPart more :=
  List.filter_append text more

/-- Nothing but blanks leaves nothing. -/
theorem solidPart_of_isSpace {text : List Char} (h : ∀ c ∈ text, Text.isSpace c = true) :
    solidPart text = [] := by
  rw [solidPart, List.filter_eq_nil_iff]
  intro c hc
  simp [h c hc]

/-- The text before the first character of a class is unique. -/
theorem eq_of_append_cons_eq {p : Char → Bool} {front front' back back' : List Char} {c d : Char}
    (hfront : ∀ x ∈ front, p x = false) (hfront' : ∀ x ∈ front', p x = false) (hc : p c = true)
    (hd : p d = true) (h : front ++ c :: back = front' ++ d :: back') : front = front' := by
  have htake : ∀ {front : List Char} {c : Char} (back : List Char), (∀ x ∈ front, p x = false) →
      p c = true → (front ++ c :: back).takeWhile (!p ·) = front := by
    intro front c back hfront hc
    rw [List.takeWhile_append_of_pos fun x hx => by simp [hfront x hx],
      List.takeWhile_cons_of_neg (by simp [hc]), List.append_nil]
  rw [← htake back hfront hc, h, htake back' hfront' hd]

/-- Where a text that is not blank stands before the word, the word and a quoted text cannot be
read. -/
theorem refuses_from {α : Type} {f : List Char → Pattern α} {text : List Char} {c : Char}
    (hmem : c ∈ text) (hc : Text.isSpace c = false) (hquotes : HasNoQuote text)
    (beforeFrom afterFrom : Space) (module : Specifier) (rest : List Char) :
    (do blanks1; lit "from"; blanks1; let t ← quotedText; f t).Refuses
      (text ++ (beforeFrom.text ++ ("from".toList ++ (afterFrom.text ++
        (module.written ++ rest))))) := by
  have hword : HasNoQuote "from".toList := .of_word (by decide)
  refine reads_blanks1.refuses_bind fun b₁ back₁ _ h₁ hb₁ => ?_
  refine (reads_lit "from").refuses_bind fun word back₂ _ h₂ hb₂ => ?_
  refine reads_blanks1.refuses_bind fun b₃ back₃ _ h₃ hb₃ => ?_
  refine Refuses.bind (refuses_quotedText ?_) f
  rw [Bool.eq_false_iff]
  intro hquote
  -- a quote here would be the first one, and the word would be all there is before it
  obtain ⟨d, x, rfl⟩ : ∃ d x, back₃ = d :: x := by
    cases back₃ with
    | nil => cases hquote
    | cons d x => exact ⟨d, x, rfl⟩
  subst hb₂
  have hread : b₁ ++ ("from".toList ++ b₃) ++ d :: x =
      text ++ (beforeFrom.text ++ ("from".toList ++ afterFrom.text)) ++
        module.quote :: (module.text ++ module.quote :: rest) := by
    rw [h₂, h₃] at h₁
    simp only [Specifier.written, List.append_assoc, List.cons_append, List.nil_append] at h₁
    simpa only [List.append_assoc] using h₁.symm
  have hfronts : b₁ ++ ("from".toList ++ b₃) =
      text ++ (beforeFrom.text ++ ("from".toList ++ afterFrom.text)) := by
    have hleft := (HasNoQuote.of_isSpace hb₁.2).append (hword.append (.of_isSpace hb₃.2))
    have hright := hquotes.append ((HasNoQuote.of_isSpace beforeFrom.isSpace).append
      (hword.append (.of_isSpace afterFrom.isSpace)))
    exact eq_of_append_cons_eq hleft hright hquote module.isQuote hread
  have hsolid := congrArg (fun text => (solidPart text).length) hfronts
  simp only [solidPart_append, solidPart_of_isSpace hb₁.2, solidPart_of_isSpace hb₃.2,
    solidPart_of_isSpace beforeFrom.isSpace, solidPart_of_isSpace afterFrom.isSpace,
    List.length_append, List.length_nil] at hsolid
  have hpos : 0 < (solidPart text).length :=
    List.length_pos_of_mem (List.mem_filter.mpr ⟨hmem, by simp [hc]⟩)
  omega

/-- A text whose quotes are those of one module has that module's first quote where two quotes are
read. -/
theorem eq_of_two_quotes {module : Specifier} {front lead rest body back : List Char} {q q' : Char}
    (hfront : HasNoQuote front) (hrest : HasNoQuote rest) (hq : isPlainQuote q = true)
    (hq' : isPlainQuote q' = true)
    (h : front ++ (module.written ++ rest) = lead ++ q :: (body ++ q' :: back)) : front = lead := by
  have htext : front ++ module.quote :: (module.text ++ module.quote :: rest) =
      lead ++ q :: (body ++ q' :: back) := by
    simpa only [Specifier.written, List.append_assoc, List.cons_append, List.nil_append] using h
  -- there are two quotes on both sides, so there is none before the first one
  have hcount := congrArg (List.countP isPlainQuote) htext
  simp only [List.countP_append, List.countP_cons, module.isQuote, hq, hq', if_pos, hfront.countP,
    hrest.countP, module.noQuote.countP] at hcount
  have hlead : HasNoQuote lead := by
    have hzero : lead.countP isPlainQuote = 0 := by omega
    intro c hc
    rw [Bool.eq_false_iff]
    exact List.countP_eq_zero.mp hzero c hc
  exact eq_of_append_cons_eq hfront hlead module.isQuote hq htext

/-! ## Reading the joined text -/

/-- The mark of types behind the first word of an import. -/
def typeText : Option Space → List Char
  | none => []
  | some space => "type".toList ++ space.text

/-- A clause begins with no blank, with the mark of types before it or not. -/
theorem Clause.head?_any_isSpace (clause : Clause) (typed : Option Space) (rest : List Char) :
    (typeText typed ++ (clause.text ++ rest)).head?.any Text.isSpace = false := by
  cases typed with
  | none =>
    obtain ⟨c, cs, htext, hc⟩ := clause.tight_text.first
    rw [typeText, htext]
    exact hc
  | some space => rfl

/-- The pattern for the mark of types takes it where it stands. -/
theorem takes_optWord_type (typed : Option Space) (clause : Clause) {rest : List Char}
    (hrest : rest.head?.any Text.isNameChar = false) :
    ∃ marked, (optWord "type").Takes (typeText typed ++ (clause.text ++ rest)) marked
      (clause.text ++ rest) := by
  unfold optWord
  cases typed with
  | none => exact ⟨_, (clause.refuses_typeMark hrest).opt.bind (takes_pure _ _)⟩
  | some space =>
    have hmark := takes_typeMark space (clause.head?_any_isSpace none rest)
    rw [typeText, List.append_assoc]
    exact ⟨_, hmark.opt.bind (takes_pure _ _)⟩

/-- An import is read up to its module: its clause ends where the word and the module follow. -/
theorem takes_importFrom (afterImport : Space) (typed : Option Space) (clause : Clause)
    (beforeFrom afterFrom : Space) (module : Specifier) (rest : List Char) :
    importFrom.Takes ("import".toList ++ (afterImport.text ++ (typeText typed ++ (clause.text ++
      (beforeFrom.text ++ ("from".toList ++ (afterFrom.text ++ (module.written ++ rest)))))))
      ) (clause.text, module.text) rest := by
  have hfrom := head?_any_isSpace_of_solid (show Text.Solid "from".toList by decide)
  have hchars : ∀ d, isEntryChar d = false → d ∉ ['*', ',', '\x7b', '\x7d'] → d ∉ clause.text :=
    fun _ hd hsigns => clause.not_mem_text hd hsigns
  obtain ⟨marked, hmark⟩ := takes_optWord_type typed clause
    (head?_any_space beforeFrom (fun _ => Text.isNameChar_eq_false_of_isSpace) _)
  unfold importFrom
  refine (takes_lit "import" _).bind ((takes_blanks1 afterImport.ne_nil afterImport.isSpace
    (clause.head?_any_isSpace typed _)).bind (hmark.bind ?_))
  obtain ⟨cs, d, hlast, hd⟩ := clause.tight_text.last
  refine takes_runLazy_bind ?_ ?_ ?_ ?_
  · intro c hc
    have hfeed : c ≠ '\n' := fun h => hchars '\n' (by decide) (by decide) (h ▸ hc)
    simpa [notLineFeed] using hfeed
  · exact List.length_pos_iff.mpr clause.tight_text.ne_nil
  -- a shorter clause leaves its last character before the word
  · intro n _ hn
    have hmem : d ∈ clause.text.drop n := by
      rw [hlast] at hn ⊢
      rw [List.length_append, List.length_singleton] at hn
      rw [List.drop_append_of_le_length (by omega)]
      simp
    refine refuses_from hmem hd (fun c hc => ?_) beforeFrom afterFrom module rest
    have hc := List.mem_of_mem_drop hc
    have hdouble : c ≠ '"' := fun h => hchars '"' (by decide) (by decide) (h ▸ hc)
    have hsingle : c ≠ '\'' := fun h => hchars '\'' (by decide) (by decide) (h ▸ hc)
    simp [isPlainQuote, hdouble, hsingle]
  · exact (takes_blanks1 beforeFrom.ne_nil beforeFrom.isSpace (hfrom _)).bind
      ((takes_lit "from" _).bind ((takes_blanks1 afterFrom.ne_nil afterFrom.isSpace
      (module.head?_any_isSpace rest)).bind ((module.takes_quotedText rest).bind
      (takes_pure _ rest))))

/-- A word that may be missing can always be read. -/
theorem reads_optWord (w : String) : (optWord w).Reads fun _ _ => True := by
  unfold optWord
  have hword : (do lit w; blanks1 : Pattern Unit).Reads fun _ _ => True :=
    (reads_lit w).bind fun _ _ _ => reads_blanks1.imp fun _ _ _ => trivial
  exact (reads_opt hword).bind fun _ _ _ => reads_pure trivial

/-- An import of a module alone has no clause: its text has two quotes, and before them there is one
word only. -/
theorem refuses_importFrom (space : Space) (module : Specifier) {rest : List Char}
    (hrest : HasNoQuote rest) :
    importFrom.Refuses ("import".toList ++ (space.text ++ (module.written ++ rest))) := by
  unfold importFrom
  refine (reads_lit "import").refuses_bind fun word back₁ _ h₁ hword => ?_
  refine reads_blanks1.refuses_bind fun b₂ back₂ _ h₂ _ => ?_
  refine (reads_optWord "type").refuses_bind fun mark back₃ _ h₃ _ => ?_
  refine (reads_runLazy notLineFeed 1).refuses_bind fun clause back₄ _ h₄ _ => ?_
  refine reads_blanks1.refuses_bind fun b₅ back₅ _ h₅ _ => ?_
  refine (reads_lit "from").refuses_bind fun word' back₆ _ h₆ hword' => ?_
  refine reads_blanks1.refuses_bind fun b₇ back₇ _ h₇ _ => ?_
  refine Refuses.bind (reads_quotedText.refuses ?_) _
  rintro front back _ h₈ ⟨q, body, q', rfl, hq, hq'⟩
  subst hword hword'
  have htext : ("import".toList ++ space.text) ++ (module.written ++ rest) =
      ("import".toList ++ (b₂ ++ (mark ++ (clause ++ (b₅ ++ ("from".toList ++ b₇)))))) ++
        q :: (body ++ q' :: back) := by
    rw [h₂, h₃, h₄, h₅, h₆, h₇, h₈] at h₁
    simpa only [List.append_assoc, List.cons_append, List.nil_append] using h₁
  have hfront : HasNoQuote ("import".toList ++ space.text) :=
    (HasNoQuote.of_word (by decide)).append (.of_isSpace space.isSpace)
  have hlead := eq_of_two_quotes hfront hrest hq hq' htext
  have hsolid := congrArg (fun text => (solidPart text).length) hlead
  have hfour : (solidPart "from".toList).length = 4 := by decide
  simp only [solidPart_append, solidPart_of_isSpace space.isSpace, List.length_append,
    List.length_nil, hfour] at hsolid
  omega

/-- The pattern for an import without names takes the module. -/
theorem takes_sideEffectImport (space : Space) (module : Specifier) (rest : List Char) :
    sideEffectImport.Takes ("import".toList ++ (space.text ++ (module.written ++ rest)))
      module.text rest := by
  unfold sideEffectImport
  exact (takes_lit "import" _).bind ((takes_blanks1 space.ne_nil space.isSpace
    (module.head?_any_isSpace rest)).bind (module.takes_quotedText rest))

/-! ## The rows of a statement -/

/-- The rows hold one import statement: the first one begins it, the others are those that its brace
list goes on over, and the text is what stands on them without comments. -/
structure IsStatement (row : Row) (rest : List Row) (statement : List Char) : Prop where
  isImport : "import".toList <+: Text.trim row.scriptCode
  extent : ∀ below : List Line,
    (if (Text.trim row.scriptCode).contains '\x7b' && !(Text.trim row.scriptCode).contains '\x7d'
      then listExtent row.scriptCode (rest.map Row.scriptCode ++ below) else 0) = rest.length
  joined : joinHeader (some .slash) ((row :: rest).map Row.scriptLine) = statement
  keeps : ∀ r ∈ row :: rest, ∃ kept, KeepsCode r.text kept

namespace IsStatement

variable {row : Row} {rest : List Row} {statement module : List Char}

/-- The place of the first row. -/
def place (row : Row) (rest : List Row) (above below : List SourceLine) : Place :=
  ⟨above, row.scriptSource, rest.map Row.scriptSource ++ below⟩

/-- The row that the statement starts in begins with `import`. -/
theorem isImport_place (h : IsStatement row rest statement) (above below : List SourceLine) :
    "import".toList.isPrefixOf (Text.trim (place row rest above below).code) = true :=
  List.isPrefixOf_iff_prefix.mpr h.isImport

/-- The brace list goes on over the other rows of the statement, and no further. -/
theorem extent_place (h : IsStatement row rest statement) (above below : List SourceLine) :
    (if (Text.trim (place row rest above below).code).contains '\x7b' &&
        !(Text.trim (place row rest above below).code).contains '\x7d' then
      listExtent (place row rest above below).code
        ((place row rest above below).below.map (·.code))
      else 0) = rest.length := by
  have hcodes : (place row rest above below).below.map (·.code) =
      rest.map Row.scriptCode ++ below.map (·.code) := by
    rw [place, List.map_append, List.map_map]
    rfl
  rw [hcodes]
  exact h.extent (below.map (·.code))

/-- The rows joined and stripped are the text of the statement. -/
theorem joined_place (h : IsStatement row rest statement) (above below : List SourceLine) :
    joinHeader (some .slash) ((place row rest above below).rawFromHere.take (rest.length + 1)) =
      statement := by
  have hraw : (place row rest above below).rawFromHere =
      (row :: rest).map Row.scriptLine ++ below.map (·.raw) := by
    rw [place, Place.rawFromHere, List.map_append, List.map_map]
    rfl
  have hlength : rest.length + 1 = ((row :: rest).map Row.scriptLine).length := by simp
  rw [hraw, hlength, List.take_left]
  exact h.joined

/-- What the place yields if the text is read as an import of names. -/
theorem importsAt_of_importFrom (h : IsStatement row rest statement) {clause : List Char}
    (hmatch : importFrom.matchStart? statement = some (clause, module))
    (above below : List SourceLine) :
    importsAt (place row rest above below) = ([⟨.ofList module, (importClause clause).map .ofList,
      true, above.length + 1, above.length + 1 + rest.length⟩], rest.length) := by
  have hspan : ∀ names, ImportStatement.spanning (.ofList module) names true (above.length + 1)
      (above.length + 1 + rest.length) =
      ⟨.ofList module, names, true, above.length + 1, above.length + 1 + rest.length⟩ := by
    intro names
    rw [ImportStatement.spanning, Nat.max_eq_right (by omega)]
  unfold importsAt
  dsimp only
  rw [h.isImport_place, Bool.true_or, Bool.not_true, if_neg Bool.false_ne_true, Bool.true_and,
    h.extent_place, h.joined_place, hmatch]
  exact Prod.ext (congrArg (fun i => [i]) (hspan _)) rfl

/-- What the place yields if the text is read as an import of a module alone. -/
theorem importsAt_of_sideEffectImport (h : IsStatement row rest statement)
    (hnot : importFrom.matchStart? statement = none)
    (hmatch : sideEffectImport.matchStart? statement = some module)
    (above below : List SourceLine) :
    importsAt (place row rest above below) =
      ([⟨.ofList module, [], false, above.length + 1, above.length + 1⟩], rest.length) := by
  unfold importsAt
  dsimp only
  rw [h.isImport_place, Bool.true_or, Bool.not_true, if_neg Bool.false_ne_true, Bool.true_and,
    h.extent_place, h.joined_place, hnot, hmatch]
  show ([ImportStatement.spanning _ _ false (above.length + 1) (above.length + 1)], _) = _
  rw [ImportStatement.spanning, Nat.max_self]

/-- A statement on one row. -/
theorem of_single {text kept : List Char} (hkept : KeepsCode text kept) (htext : Text.Tight text)
    (htight : Text.Tight kept) (himport : "import".toList <+: kept) (hbrace : '\x7b' ∉ kept)
    (indent : Blanks) (tail : LineTail) : IsStatement ⟨indent, text, .plain tail⟩ [] text := by
  have htrim : Text.trim (Row.scriptCode ⟨indent, text, .plain tail⟩) = kept := by
    rw [Row.scriptCode_eq hkept]
    exact htight.trim_eq indent.isSpace tail.blanks.isSpace
  refine ⟨?_, fun below => ?_, ?_, ?_⟩
  · rwa [htrim]
  · have hcontains : kept.contains '\x7b' = false := by
      rw [Bool.eq_false_iff, ne_eq, List.contains_iff_mem]
      exact hbrace
    rw [htrim, hcontains, Bool.false_and, if_neg Bool.false_ne_true]
    rfl
  · rw [joinHeader_slash]
    show [' '].intercalate [shownScriptLine _] = text
    rw [shownScriptLine_scriptLine hkept (.inr htext), List.intercalate_singleton]
  · intro r hr
    rw [List.mem_singleton.mp hr]
    exact ⟨kept, hkept⟩

/-- A statement whose brace list opens on its first row and is closed by its last piece. -/
theorem of_layOut {before : List Char} (himport : "import".toList <+: before)
    (hbrace : '\x7b' ∈ before) {inner : List (Gap × List Char)}
    (hinner : ∀ x ∈ inner, x.1.hasSlash = false ∧ IsOpenText x.2 ∧ IsScriptPart x.2)
    {closing : Gap} (hclosing : closing.hasSlash = false) {last : List Char}
    (hlast : IsClosingText last) (hpart : IsScriptPart last) {text : List Char}
    (hopen : IsOpenText text) (htext : IsScriptPart text) (hshows : ShowsFirst before text)
    (indent : Blanks) (tail : LineTail) :
    ∃ row rest, layOut indent text tail (inner ++ [(closing, last)]) = row :: rest ∧
      IsStatement row rest (text ++ spaced (inner ++ [(closing, last)])) := by
  have hpieces : ∀ x ∈ inner ++ [(closing, last)], x.1.hasSlash = false ∧ IsScriptPart x.2 := by
    intro x hx
    rcases List.mem_append.mp hx with hx | hx
    · exact ⟨(hinner x hx).1, (hinner x hx).2.2⟩
    · rw [List.mem_singleton.mp hx]
      exact ⟨hclosing, hpart⟩
  obtain ⟨row, rest, hrows, hfirst, hkeeps⟩ :=
    isPrefix_trim_scriptCode_layOut (fun x hx => (hpieces x hx).2) hshows indent tail
  obtain ⟨row', rest', hrows', hextent⟩ :=
    listExtent_layOut (fun x hx => ⟨(hinner x hx).1, (hinner x hx).2.1⟩) hclosing hlast hopen indent
      tail
  obtain ⟨rfl, rfl⟩ := List.cons.inj (hrows.symm.trans hrows')
  have hjoined := joinHeader_scriptLine hpieces htext indent tail
  rw [hrows] at hjoined
  refine ⟨row, rest, hrows, himport.trans hfirst, fun below => ?_, hjoined, hkeeps⟩
  have hopens : (Text.trim row.scriptCode).contains '\x7b' = true :=
    List.contains_iff_mem.mpr (hfirst.subset hbrace)
  rw [hopens, Bool.true_and]
  split
  · exact hextent below
  -- a list that is closed on its first row goes on over no others
  · next hcloses =>
    rw [Bool.not_eq_true, Bool.not_eq_false', List.contains_iff_mem] at hcloses
    have hmem := Text.trim_subset row.scriptCode hcloses
    rw [← hextent below, listExtent_of_mem hmem]

end IsStatement

/-! ## Written statements -/

/-- The characters of a word may stand in a brace list. -/
theorem isEntryChar_of_mem_word {word : List Char} (h : word.all Text.isNameChar = true) :
    ∀ c ∈ word, isEntryChar c = true := fun c hc =>
  isEntryChar_of_isNameChar (List.all_eq_true.mp h c hc)

/-- An import of names: `import a, { b as c } from "d";`. -/
structure NamesImport where
  indent : Blanks
  afterImport : Space
  typed : Option Space
  clause : Clause
  beforeFrom : Space
  afterFrom : Space
  module : Specifier
  tail : LineTail

namespace NamesImport

/-- The words before the clause. -/
def lead (s : NamesImport) : List Char :=
  "import".toList ++ (s.afterImport.text ++ typeText s.typed)

theorem lead_eq (s : NamesImport) :
    s.lead = "import".toList ++ (s.afterImport.text ++ typeText s.typed) := rfl

/-- The text up to the brace list, or up to the end of the clause. -/
def front (s : NamesImport) : List Char :=
  s.lead ++ s.clause.front

/-- The text between the clause and the module. -/
def link (s : NamesImport) : List Char :=
  s.beforeFrom.text ++ ("from".toList ++ s.afterFrom.text)

/-- The text behind the clause. -/
def ending (s : NamesImport) : List Char :=
  s.link ++ (s.module.written ++ [';'])

/-- The rows that the statement is written on. -/
def rows (s : NamesImport) : List Row :=
  match s.clause.list? with
  | none => layOut s.indent (s.front ++ s.ending) s.tail []
  | some list => layOut s.indent (s.front ++ ['\x7b']) s.tail
      (list.pieces ++ [(list.closing.gap, '\x7d' :: s.ending)])

/-- So may those of the words before the clause. -/
theorem isEntryChar_of_mem_lead (s : NamesImport) : ∀ c ∈ s.lead, isEntryChar c = true := by
  intro c hc
  unfold lead typeText at hc
  simp only [List.mem_append] at hc
  rcases hc with hc | hc | hc
  · exact isEntryChar_of_mem_word (by decide) c hc
  · exact isEntryChar_of_mem_blanks s.afterImport.toBlanks c hc
  · cases htyped : s.typed with
    | none =>
      rw [htyped] at hc
      cases hc
    | some space =>
      rw [htyped] at hc
      rcases List.mem_append.mp hc with hc | hc
      · exact isEntryChar_of_mem_word (by decide) c hc
      · exact isEntryChar_of_mem_blanks space.toBlanks c hc

/-- So may those between the clause and the module. -/
theorem isEntryChar_of_mem_link (s : NamesImport) : ∀ c ∈ s.link, isEntryChar c = true := by
  intro c hc
  unfold link at hc
  simp only [List.mem_append] at hc
  rcases hc with hc | hc | hc
  · exact isEntryChar_of_mem_blanks s.beforeFrom.toBlanks c hc
  · exact isEntryChar_of_mem_word (by decide) c hc
  · exact isEntryChar_of_mem_blanks s.afterFrom.toBlanks c hc

/-- What stripping keeps of the text behind the clause. -/
def keptEnding (s : NamesImport) : List Char :=
  s.link ++ ([s.module.quote, s.module.quote] ++ [';'])

/-- Stripping empties the module and keeps the rest behind the clause. -/
theorem keepsCode_ending (s : NamesImport) : KeepsCode s.ending s.keptEnding := by
  have hlink : KeepsCode s.link s.link :=
    .of_isClear fun c hc => isClear_of_isEntryChar (s.isEntryChar_of_mem_link c hc)
  exact hlink.append (s.module.keepsCode.append (.char (by decide)))

/-- What is kept behind the clause opens no brace. -/
theorem brace_not_mem_keptEnding (s : NamesImport) : '\x7b' ∉ s.keptEnding := by
  have hlink : '\x7b' ∉ s.link := Text.not_mem_of_class s.isEntryChar_of_mem_link (by decide)
  simp [keptEnding, hlink, s.module.ne_quote (d := '\x7b') (by decide)]

/-- The text up to the brace list holds no quote and no sign of a comment. -/
theorem isClear_of_mem_front (s : NamesImport) : ∀ c ∈ s.front, isClear c = true := by
  intro c hc
  rcases List.mem_append.mp hc with hc | hc
  · exact isClear_of_isEntryChar (s.isEntryChar_of_mem_lead c hc)
  · exact s.clause.isClear_of_mem_front c hc

/-- A sign that stands in no entry, no star and no comma, is not in the text up to the brace list.
-/
theorem not_mem_front (s : NamesImport) {d : Char} (hd : isEntryChar d = false) (hstar : d ≠ '*')
    (hcomma : d ≠ ',') : d ∉ s.front := by
  rw [front, List.mem_append, not_or]
  exact ⟨Text.not_mem_of_class s.isEntryChar_of_mem_lead hd,
    s.clause.not_mem_front hd hstar hcomma⟩

/-- The statement begins with `import`. -/
theorem import_isPrefix_front (s : NamesImport) (more : List Char) :
    "import".toList <+: s.front ++ more := by
  unfold front lead
  rw [List.append_assoc, List.append_assoc]
  exact List.prefix_append _ _

theorem tight_front_append (s : NamesImport) (body : List Char) {d : Char}
    (hd : Text.isSpace d = false) : Text.Tight (s.front ++ (body ++ [d])) := by
  have hends := Text.tight_of_ends (c := 'i') (by decide) hd
    ("mport".toList ++ (s.afterImport.text ++ (typeText s.typed ++ (s.clause.front ++ body))))
  simpa [front, lead_eq] using hends

/-- A statement without a brace list stands on one row. -/
theorem isStatement_single (s : NamesImport) :
    IsStatement ⟨s.indent, s.front ++ s.ending, .plain s.tail⟩ [] (s.front ++ s.ending) := by
  have hfront : KeepsCode s.front s.front := .of_isClear s.isClear_of_mem_front
  refine IsStatement.of_single (hfront.append s.keepsCode_ending) ?_ ?_ (s.import_isPrefix_front _)
    ?_ s.indent s.tail
  · have htight := s.tight_front_append (s.link ++ s.module.written) (d := ';') (by decide)
    simpa [ending] using htight
  · have htight := s.tight_front_append (s.link ++ [s.module.quote, s.module.quote]) (d := ';')
      (by decide)
    simpa [keptEnding] using htight
  · have hnone := s.not_mem_front (d := '\x7b') (by decide) (by decide) (by decide)
    rw [List.mem_append, not_or]
    exact ⟨hnone, s.brace_not_mem_keptEnding⟩

/-- The last piece of a statement closes its brace list. -/
theorem closing_piece (s : NamesImport) :
    IsClosingText ('\x7d' :: s.ending) ∧ IsScriptPart ('\x7d' :: s.ending) := by
  have hkept : KeepsCode ('\x7d' :: s.ending) ('\x7d' :: s.keptEnding) :=
    (KeepsCode.char (c := '\x7d') (by decide)).append s.keepsCode_ending
  have htext := Text.tight_of_ends (c := '\x7d') (d := ';') (by decide) (by decide)
    (s.link ++ s.module.written)
  have htight := Text.tight_of_ends (c := '\x7d') (d := ';') (by decide) (by decide)
    (s.link ++ [s.module.quote, s.module.quote])
  refine ⟨⟨_, hkept, List.mem_cons_self⟩, ?_, _, hkept, ?_⟩
  · simpa [ending] using htext
  · simpa [keptEnding] using htight

/-- A statement with a brace list stands on the rows of its layout. -/
theorem isStatement_layOut (s : NamesImport) (list : NameList) :
    ∃ row rest, layOut s.indent (s.front ++ ['\x7b']) s.tail
        (list.pieces ++ [(list.closing.gap, '\x7d' :: s.ending)]) = row :: rest ∧
      IsStatement row rest (s.front ++ ['\x7b'] ++
        spaced (list.pieces ++ [(list.closing.gap, '\x7d' :: s.ending)])) := by
  have hclear : ∀ c ∈ s.front ++ ['\x7b'], isClear c = true := by
    intro c hc
    rcases List.mem_append.mp hc with hc | hc
    · exact s.isClear_of_mem_front c hc
    · rw [List.mem_singleton.mp hc]
      decide
  have htight : Text.Tight (s.front ++ ['\x7b']) := s.tight_front_append [] (by decide)
  have hopen : '\x7d' ∉ s.front ++ ['\x7b'] := by
    have hnone := s.not_mem_front (d := '\x7d') (by decide) (by decide) (by decide)
    rw [List.mem_append, not_or]
    exact ⟨hnone, by decide⟩
  have hinner : ∀ x ∈ list.pieces, x.1.hasSlash = false ∧ IsOpenText x.2 ∧ IsScriptPart x.2 := by
    intro x hx
    have hpiece := list.isListPiece_of_mem_pieces x hx
    exact ⟨hpiece.hasSlash, hpiece.isOpenText, hpiece.isScriptPart⟩
  obtain ⟨hclosing, hpart⟩ := s.closing_piece
  exact IsStatement.of_layOut (s.import_isPrefix_front _) (by simp) hinner list.closing.hasSlash
    hclosing hpart (isOpenText_of_isClear hclear hopen) (isScriptPart_of_isClear htight hclear)
    ⟨_, .of_isClear hclear, htight, List.prefix_refl _⟩ s.indent s.tail

/-- The rows of a statement hold its text. -/
theorem isStatement (s : NamesImport) : ∃ row rest, s.rows = row :: rest ∧
    IsStatement row rest (s.lead ++ (s.clause.text ++ s.ending)) := by
  unfold rows Clause.text
  cases s.clause.list? with
  | none =>
    have htext : s.lead ++ (s.clause.front ++ s.ending) = s.front ++ s.ending :=
      (List.append_assoc s.lead s.clause.front s.ending).symm
    refine ⟨_, [], rfl, ?_⟩
    dsimp only
    rw [htext]
    exact s.isStatement_single
  | some list =>
    obtain ⟨row, rest, hrows, hstatement⟩ := s.isStatement_layOut list
    have htext : s.front ++ ['\x7b'] ++
        spaced (list.pieces ++ [(list.closing.gap, '\x7d' :: s.ending)]) =
        s.lead ++ (s.clause.front ++ '\x7b' :: (list.inside ++ ['\x7d']) ++ s.ending) := by
      rw [spaced_append]
      simp [front, NameList.inside, spaced]
    rw [htext] at hstatement
    exact ⟨row, rest, hrows, hstatement⟩

/-- The statement is matched as its clause and its module. -/
theorem matchStart?_importFrom (s : NamesImport) :
    importFrom.matchStart? (s.lead ++ (s.clause.text ++ s.ending)) =
      some (s.clause.text, s.module.text) := by
  have htakes := takes_importFrom s.afterImport s.typed s.clause s.beforeFrom s.afterFrom s.module
    [';']
  have htext : s.lead ++ (s.clause.text ++ s.ending) =
      "import".toList ++ (s.afterImport.text ++ (typeText s.typed ++ (s.clause.text ++
        (s.beforeFrom.text ++ ("from".toList ++ (s.afterFrom.text ++
          (s.module.written ++ [';']))))))) := by
    simp only [lead_eq, link, ending, List.append_assoc]
  rw [htext]
  exact htakes.matchStart?

end NamesImport

/-- An import of a module alone: `import "a";`. -/
structure ModuleImport where
  indent : Blanks
  afterImport : Space
  module : Specifier
  tail : LineTail

namespace ModuleImport

def text (s : ModuleImport) : List Char :=
  "import".toList ++ (s.afterImport.text ++ (s.module.written ++ [';']))

/-- The row that the statement is written on. -/
def row (s : ModuleImport) : Row :=
  ⟨s.indent, s.text, .plain s.tail⟩

/-- An import of a module alone is one statement on one row. -/
theorem isStatement (s : ModuleImport) : IsStatement s.row [] s.text := by
  have hword : KeepsCode "import".toList "import".toList :=
    .of_isClear (List.all_eq_true.mp (by decide))
  have hkept := hword.append (s.afterImport.keepsCode.append
    (s.module.keepsCode.append (.char (c := ';') (by decide))))
  refine IsStatement.of_single hkept ?_ ?_ (List.prefix_append _ _) ?_ s.indent s.tail
  · have htight := Text.tight_of_ends (c := 'i') (d := ';') (by decide) (by decide)
      ("mport".toList ++ (s.afterImport.text ++ s.module.written))
    simpa using htight
  · have htight := Text.tight_of_ends (c := 'i') (d := ';') (by decide) (by decide)
      ("mport".toList ++ (s.afterImport.text ++ [s.module.quote, s.module.quote]))
    simpa using htight
  · have hspace : '\x7b' ∉ s.afterImport.text :=
      Text.not_mem_of_class s.afterImport.isSpace (by decide)
    simp [hspace, s.module.ne_quote (d := '\x7b') (by decide)]

/-- An import of a module alone is not matched as one with a clause. -/
theorem matchStart?_importFrom (s : ModuleImport) : importFrom.matchStart? s.text = none :=
  (refuses_importFrom s.afterImport s.module (by simp [HasNoQuote, isPlainQuote])).matchStart?

end ModuleImport

/-- An import statement as it is written. -/
inductive ImportText where
  | names (s : NamesImport)
  | module (s : ModuleImport)

namespace ImportText

/-- The rows that a statement is written on. -/
def rows : ImportText → List Row
  | names s => s.rows
  | module s => [s.row]

/-- What a statement imports that is written on lines with these numbers. -/
def imports (first last : Nat) : ImportText → List ImportStatement
  | names s =>
    [⟨.ofList s.module.text, s.clause.bound.map .ofList, true, first, last⟩]
  | module s => [⟨.ofList s.module.text, [], false, first, last⟩]

/-- The imports of statements that are written one after the other, from a line on. -/
def importsFrom (first : Nat) : List ImportText → List ImportStatement
  | [] => []
  | s :: statements =>
    s.imports first (first + s.rows.length - 1) ++ importsFrom (first + s.rows.length) statements

/-- The statement is read from its rows, whatever lines are above and below. -/
theorem isRead (s : ImportText) : ∃ row rest, s.rows = row :: rest ∧
    ∀ above below : List SourceLine,
      importsAt ⟨above, row.scriptSource, rest.map Row.scriptSource ++ below⟩ =
        (s.imports (above.length + 1) (above.length + 1 + s.rows.length - 1), rest.length) := by
  cases s with
  | names s =>
    obtain ⟨row, rest, hrows, hstatement⟩ := s.isStatement
    refine ⟨row, rest, hrows, fun above below => ?_⟩
    have hlast : above.length + 1 + s.rows.length - 1 = above.length + 1 + rest.length := by
      rw [hrows, List.length_cons]
      omega
    have hread := hstatement.importsAt_of_importFrom s.matchStart?_importFrom above below
    rw [s.clause.importClause_text, ← hlast] at hread
    exact hread
  | module s =>
    have hread := s.isStatement.importsAt_of_sideEffectImport s.matchStart?_importFrom
      (takes_sideEffectImport s.afterImport s.module [';']).matchStart?
    exact ⟨s.row, [], rfl, hread⟩

/-- The scanners pass over all rows of a statement. -/
theorem keeps_of_mem_rows (s : ImportText) : ∀ row ∈ s.rows, ∃ kept, KeepsCode row.text kept := by
  cases s with
  | names s =>
    obtain ⟨row, rest, hrows, hstatement⟩ := s.isStatement
    show ∀ r ∈ s.rows, _
    rw [hrows]
    exact hstatement.keeps
  | module s => exact s.isStatement.keeps

end ImportText

/-! ## Statements one after the other -/

/-- The imports of a script of import statements are those that are written, whatever their layouts
and comments are, each with its first and last line. -/
theorem imports_extract_written (statements : List ImportText) :
    (extract (statements.flatMap fun s => s.rows.map Row.scriptLine)).imports =
      ImportText.importsFrom 1 statements := by
  have hlines : (statements.flatMap fun s => s.rows.map Row.scriptLine) =
      (statements.flatMap ImportText.rows).map Row.scriptLine ++ [] := by
    rw [List.map_flatMap, List.append_nil]
  have hkeeps : ∀ row ∈ statements.flatMap ImportText.rows, ∃ kept, KeepsCode row.text kept := by
    intro row hrow
    obtain ⟨s, -, hrow⟩ := List.mem_flatMap.mp hrow
    exact s.keeps_of_mem_rows row hrow
  have hempty : sourceLines .slash [] = [] := rfl
  show readStatements importsAt 0 (placesFrom [] (sourceLines .slash _)) = _
  rw [hlines, sourceLines_map_scriptLine hkeeps, hempty, List.append_nil]
  exact readStatements_flatMap ImportText.isRead (fun _ => rfl) (fun _ _ _ => rfl) statements []

end SourceSurvey.Extract.JavaScript
