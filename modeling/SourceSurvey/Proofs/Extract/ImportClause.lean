import SourceSurvey.Proofs.Extract.Alias
import SourceSurvey.Proofs.Extract.ScriptLayout

/-!
# Import clauses of a script

What stands between the words of an import statement: a default name, a name for everything, or a
brace list, with aliases and marks of types, on one line or on several. Main statement: the names
that are read from a clause are those that it binds, those outside its brace list first.
-/

namespace SourceSurvey.Extract.JavaScript

open Pattern

/-! ## Names and the mark of types -/

theorem solid_of_isNameChar (word : Word Text.isNameChar) : Text.Solid word.text :=
  word.solid fun _ => Text.isSpace_eq_false_of_isNameChar

/-- A name that is not the word by which types are marked. -/
structure PlainName extends Word Text.isNameChar where
  ne_type : text ≠ "type".toList

/-- The mark of types is a word of its own. -/
theorem refuses_typeMark {word rest : List Char} (hword : ∀ c ∈ word, Text.isNameChar c = true)
    (hne : word ≠ "type".toList) (hrest : rest.head?.any Text.isNameChar = false) :
    typeMark.Refuses (word ++ rest) := by
  have htype : ∀ c ∈ "type".toList, Text.isNameChar c = true :=
    List.all_eq_true.mp (by decide)
  unfold typeMark
  refine (reads_lit "type").refuses_bind fun front back _ htext hfront => ?_
  subst hfront
  apply refuses_blanks1
  -- where the mark ends, the word goes on, or else what is behind the word would go on with it
  rcases List.append_eq_append_iff.mp htext with ⟨more, hmark, hmore⟩ | ⟨more, hmark, hmore⟩
  · cases more with
    | nil =>
      rw [List.append_nil] at hmark
      exact absurd hmark.symm hne
    | cons d ds =>
      have hd := htype d (by rw [hmark]; simp)
      rw [hmore, List.cons_append, List.head?_cons, Option.any_some, hd] at hrest
      cases hrest
  · cases more with
    | nil =>
      rw [List.append_nil] at hmark
      exact absurd hmark hne
    | cons d ds =>
      have hd := hword d (by rw [hmark]; simp)
      rw [hmore]
      exact Text.isSpace_eq_false_of_isNameChar hd

/-- The pattern for the mark of types takes the mark and the blanks behind it. -/
theorem takes_typeMark (space : Space) {rest : List Char}
    (hrest : rest.head?.any Text.isSpace = false) :
    typeMark.Takes ("type".toList ++ (space.text ++ rest)) () rest := by
  unfold typeMark
  exact (takes_lit "type" _).bind (takes_blanks1 space.ne_nil space.isSpace hrest)

/-- After blanks no text begins with a character of a class without them. -/
theorem head?_any_space (space : Space) {p : Char → Bool}
    (hp : ∀ c, Text.isSpace c = true → p c = false) (rest : List Char) :
    (space.text ++ rest).head?.any p = false := by
  obtain ⟨c, cs, hcons⟩ := List.exists_cons_of_ne_nil space.ne_nil
  rw [hcons]
  exact hp c (space.isSpace c (hcons ▸ List.mem_cons_self))

/-! ## Entries of a brace list -/

/-- An entry of a brace list: a name, perhaps marked as a type, and perhaps with the alias that it
is bound to. -/
structure ListEntry where
  typed : Option Space
  name : PlainName
  renamed : Option (Space × Space × Word Text.isNameChar)

namespace ListEntry

/-- What stands behind the name: nothing, or the alias with its mark. -/
def aliasText (e : ListEntry) : List Char :=
  match e.renamed with
  | none => []
  | some (before, after, word) => before.text ++ ("as".toList ++ (after.text ++ word.text))

/-- The entry without the mark of types. -/
def unmarked (e : ListEntry) : List Char :=
  e.name.text ++ e.aliasText

/-- The entry as it is written. -/
def text (e : ListEntry) : List Char :=
  match e.typed with
  | none => e.unmarked
  | some space => "type".toList ++ (space.text ++ e.unmarked)

/-- The name that the entry binds. -/
def bound (e : ListEntry) : List Char :=
  match e.renamed with
  | none => e.name.text
  | some (_, _, word) => word.text

theorem tight_unmarked (e : ListEntry) : Text.Tight e.unmarked := by
  have hname := (solid_of_isNameChar e.name.toWord).tight
  unfold unmarked aliasText
  cases e.renamed with
  | none => rwa [List.append_nil]
  | some x =>
    obtain ⟨before, after, word⟩ := x
    have has : Text.Tight "as".toList := Text.Solid.tight (by decide)
    exact hname.append (has.append (solid_of_isNameChar word).tight after.text) before.text

theorem tight (e : ListEntry) : Text.Tight e.text := by
  unfold text
  cases e.typed with
  | none => exact e.tight_unmarked
  | some space =>
    have htype : Text.Tight "type".toList := Text.Solid.tight (by decide)
    exact htype.append e.tight_unmarked space.text

/-- The mark of types is taken from an entry, whatever blanks are around it. -/
theorem dropStart_typeMark (e : ListEntry) {before after : List Char}
    (hbefore : ∀ c ∈ before, Text.isSpace c = true) (hafter : ∀ c ∈ after, Text.isSpace c = true) :
    typeMark.dropStart (Text.trim (before ++ (e.text ++ after))) = e.unmarked := by
  rw [e.tight.trim_eq hbefore hafter]
  unfold text
  cases e.typed with
  | none =>
    have hbehind : e.aliasText.head?.any Text.isNameChar = false := by
      unfold aliasText
      cases e.renamed with
      | none => rfl
      | some x => exact head?_any_space x.1 (fun _ => Text.isNameChar_eq_false_of_isSpace) _
    exact (refuses_typeMark e.name.chars e.name.ne_type hbehind).dropStart
  | some space =>
    have hfirst := head?_any_isSpace_of_solid (solid_of_isNameChar e.name.toWord) e.aliasText
    exact (takes_typeMark space hfirst).dropStart

/-- A word has no default to cut off. -/
theorem withoutDefault_word (word : Word Text.isNameChar) :
    withoutDefault word.text = word.text := by
  have hequals : word.text.takeWhile (· != '=') = word.text := by
    rw [List.takeWhile_eq_self_iff]
    intro c hc
    rw [bne_iff_ne]
    exact Text.ne_of_class (word.chars c hc) (by decide)
  have htrim := (solid_of_isNameChar word).tight.trim
  rw [withoutDefault, htrim, Text.beforeFirst, hequals, htrim]

/-- The name that an entry binds is found. -/
theorem aliasedName_unmarked (e : ListEntry) : aliasedName e.unmarked = e.bound := by
  have hname := solid_of_isNameChar e.name.toWord
  rw [aliasedName, e.tight_unmarked.trim]
  unfold unmarked aliasText bound
  cases e.renamed with
  | none =>
    dsimp only
    rw [List.append_nil, splitOn_aliasMark_of_solid hname]
    exact withoutDefault_word e.name.toWord
  | some x =>
    obtain ⟨before, after, word⟩ := x
    dsimp only
    rw [splitOn_aliasMark hname before.ne_nil before.isSpace after.ne_nil after.isSpace
      (solid_of_isNameChar word)]
    exact withoutDefault_word word

end ListEntry

/-! ## Brace lists -/

/-- A gap that breaks the line, if it does, without a backslash. -/
structure PlainGap where
  gap : Gap
  hasSlash : gap.hasSlash = false

/-- The inside of a brace list: entries with a comma behind each, and perhaps one more entry without
a comma. Each entry has a gap before it, and so has each comma and the closing brace. -/
structure NameList where
  entries : List (PlainGap × ListEntry × PlainGap)
  last : Option (PlainGap × ListEntry)
  closing : PlainGap

namespace NameList

/-- The pieces up to the closing brace. -/
def pieces (list : NameList) : List (Gap × List Char) :=
  list.entries.flatMap (fun (gap, e, comma) => [(gap.gap, e.text), (comma.gap, [','])]) ++
    list.last.toList.map fun (gap, e) => (gap.gap, e.text)

/-- The inside of the list where lines are joined by blanks. -/
def inside (list : NameList) : List Char :=
  spaced list.pieces ++ list.closing.gap.spaces

/-- The names that the list binds. -/
def bound (list : NameList) : List (List Char) :=
  list.entries.map (·.2.1.bound) ++ list.last.toList.map (·.2.bound)

end NameList

/-- A character of a clause that is no sign of its own: one of names, or a blank within a line. -/
def isEntryChar (c : Char) : Bool :=
  Text.isNameChar c || (Text.isSpace c && c != '\n')

theorem isEntryChar_of_isNameChar {c : Char} (h : Text.isNameChar c = true) :
    isEntryChar c = true := by
  rw [isEntryChar, h, Bool.true_or]

theorem isClear_of_isEntryChar {c : Char} (h : isEntryChar c = true) : isClear c = true :=
  isClear_of_class (by decide) h

/-- Blanks within a line may stand in an entry. -/
theorem isEntryChar_of_mem_blanks (blanks : Blanks) : ∀ c ∈ blanks.text, isEntryChar c = true := by
  intro c hc
  have hfeed : c ≠ '\n' := fun h => blanks.noFeed (h ▸ hc)
  simp [isEntryChar, blanks.isSpace c hc, hfeed]

/-- So may the blanks that a gap leaves. -/
theorem isEntryChar_of_mem_spaces (gap : Gap) : ∀ c ∈ gap.spaces, isEntryChar c = true := by
  have hblank : isEntryChar ' ' = true := by decide
  intro c hc
  cases gap with
  | onLine blanks => exact isEntryChar_of_mem_blanks blanks c hc
  | slash blanks indent =>
    rcases List.mem_append.mp hc with hc | hc
    · exact isEntryChar_of_mem_blanks blanks c hc
    · rwa [List.mem_singleton.mp hc]
  | lines tail between indent => rwa [List.eq_of_mem_replicate hc]

/-- A written entry has characters of entries only. -/
theorem ListEntry.isEntryChar_of_mem_text (e : ListEntry) : ∀ c ∈ e.text, isEntryChar c = true := by
  have hword : ∀ word : Word Text.isNameChar, ∀ c ∈ word.text, isEntryChar c = true :=
    fun word c hc => isEntryChar_of_isNameChar (word.chars c hc)
  have hmarks : ∀ c ∈ "typeas".toList, isEntryChar c = true := List.all_eq_true.mp (by decide)
  have hunmarked : ∀ c ∈ e.unmarked, isEntryChar c = true := by
    intro c hc
    rcases List.mem_append.mp hc with hc | hc
    · exact hword e.name.toWord c hc
    · unfold aliasText at hc
      cases hrenamed : e.renamed with
      | none =>
        rw [hrenamed] at hc
        cases hc
      | some x =>
        obtain ⟨before, after, word⟩ := x
        rw [hrenamed] at hc
        simp only [List.mem_append] at hc
        rcases hc with hc | hc | hc | hc
        · exact isEntryChar_of_mem_blanks before.toBlanks c hc
        · exact hmarks c (List.mem_append_right "type".toList hc)
        · exact isEntryChar_of_mem_blanks after.toBlanks c hc
        · exact hword word c hc
  intro c hc
  unfold text at hc
  -- the mark of types and the word before an alias are letters and blanks
  cases htyped : e.typed with
  | none =>
    rw [htyped] at hc
    exact hunmarked c hc
  | some space =>
    rw [htyped] at hc
    simp only [List.mem_append] at hc
    rcases hc with hc | hc | hc
    · exact hmarks c (List.mem_append_left "as".toList hc)
    · exact isEntryChar_of_mem_blanks space.toBlanks c hc
    · exact hunmarked c hc

/-- A piece of a brace list: an entry or a comma, and no backslash before it. -/
structure IsListPiece (x : Gap × List Char) : Prop where
  hasSlash : x.1.hasSlash = false
  tight : Text.Tight x.2
  chars : ∀ c ∈ x.2, isEntryChar c = true ∨ c = ','

namespace IsListPiece

variable {x : Gap × List Char}

/-- A piece of a brace list quotes nothing and begins no comment. -/
theorem isClear (h : IsListPiece x) : ∀ c ∈ x.2, isClear c = true := by
  intro c hc
  rcases h.chars c hc with hentry | rfl
  · exact isClear_of_isEntryChar hentry
  · decide

/-- A piece of a brace list does not end in a backslash. -/
theorem isOpenText (h : IsListPiece x) : IsOpenText x.2 := by
  refine isOpenText_of_isClear h.isClear fun hmem => ?_
  rcases h.chars _ hmem with hentry | hsign
  · exact absurd hentry (by decide)
  · exact absurd hsign (by decide)

/-- A piece of a brace list is a part of a script. -/
theorem isScriptPart (h : IsListPiece x) : IsScriptPart x.2 :=
  isScriptPart_of_isClear h.tight h.isClear

end IsListPiece

/-- Everything up to the closing brace is a piece of a list. -/
theorem NameList.isListPiece_of_mem_pieces (list : NameList) :
    ∀ x ∈ list.pieces, IsListPiece x := by
  have hentry : ∀ (gap : PlainGap) (e : ListEntry), IsListPiece (gap.gap, e.text) := fun gap e =>
    ⟨gap.hasSlash, e.tight, fun c hc => .inl (e.isEntryChar_of_mem_text c hc)⟩
  have hcomma : ∀ gap : PlainGap, IsListPiece (gap.gap, [',']) := fun gap =>
    ⟨gap.hasSlash, (show Text.Solid [','] by decide).tight,
      fun c hc => .inr (List.mem_singleton.mp hc)⟩
  intro x hx
  rcases List.mem_append.mp hx with hx | hx
  · obtain ⟨⟨gap, e, comma⟩, -, hx⟩ := List.mem_flatMap.mp hx
    simp only [List.mem_cons, List.not_mem_nil, or_false] at hx
    rcases hx with rfl | rfl
    · exact hentry gap e
    · exact hcomma comma
  · obtain ⟨⟨gap, e⟩, -, rfl⟩ := List.mem_map.mp hx
    exact hentry gap e

/-- The names that are read from the inside of a brace list. -/
def listedNames (inside : List Char) : List (List Char) :=
  (((Text.splitAt ',' inside).map fun part => typeMark.dropStart (Text.trim part)).filter
    (!·.isEmpty)).map aliasedName

/-- Blanks between braces list no name. -/
theorem listedNames_blank {blanks : List Char} (h : ∀ c ∈ blanks, Text.isSpace c = true) :
    listedNames blanks = [] := by
  have hcomma : ',' ∉ blanks := Text.not_mem_of_class h (by decide)
  have hnothing : typeMark.dropStart [] = [] := rfl
  rw [listedNames, Text.splitAt_of_not_mem hcomma, List.map_singleton, Text.trim_eq_nil h,
    hnothing]
  rfl

/-- An entry holds no comma, nor do the gaps around it. -/
theorem ListEntry.comma_not_mem_cell (e : ListEntry) (before after : Gap) :
    ',' ∉ before.spaces ++ (e.text ++ after.spaces) := by
  have hspaces : ∀ gap : Gap, ',' ∉ gap.spaces := fun gap =>
    Text.not_mem_of_class (isEntryChar_of_mem_spaces gap) (by decide)
  have htext : ',' ∉ e.text := Text.not_mem_of_class e.isEntryChar_of_mem_text (by decide)
  simp only [List.mem_append, not_or]
  exact ⟨hspaces before, htext, hspaces after⟩

/-- An entry between blanks is read as one name. -/
theorem ListEntry.listedNames_cell (e : ListEntry) (before after : Gap) :
    listedNames (before.spaces ++ (e.text ++ after.spaces)) = [e.bound] := by
  have hnonempty : (!e.unmarked.isEmpty) = true := by simp [e.tight_unmarked.ne_nil]
  rw [listedNames, Text.splitAt_of_not_mem (e.comma_not_mem_cell before after), List.map_singleton,
    e.dropStart_typeMark Gap.isSpace_of_mem_spaces Gap.isSpace_of_mem_spaces, List.filter_cons,
    if_pos hnonempty, List.filter_nil, List.map_singleton, e.aliasedName_unmarked]

/-- A list is read cell by cell. -/
theorem listedNames_append (cell rest : List Char) :
    listedNames (cell ++ ',' :: rest) = listedNames cell ++ listedNames rest := by
  rw [listedNames, Text.splitAt_append_separator, List.map_append, List.filter_append, List.map_append]
  rfl

/-- The names that are read from a list are those that it binds. -/
theorem NameList.listedNames_inside (list : NameList) : listedNames list.inside = list.bound := by
  obtain ⟨entries, last, closing⟩ := list
  induction entries with
  | nil =>
    cases last with
    | none => exact listedNames_blank Gap.isSpace_of_mem_spaces
    | some x =>
      obtain ⟨gap, e⟩ := x
      have hinside : inside ⟨[], some (gap, e), closing⟩ =
          gap.gap.spaces ++ (e.text ++ closing.gap.spaces) := by
        simp [inside, pieces, spaced]
      rw [hinside, e.listedNames_cell]
      rfl
  | cons x entries ih =>
    obtain ⟨gap, e, comma⟩ := x
    have hinside : inside ⟨(gap, e, comma) :: entries, last, closing⟩ =
        (gap.gap.spaces ++ (e.text ++ comma.gap.spaces)) ++ ',' ::
          inside ⟨entries, last, closing⟩ := by
      simp [inside, pieces, spaced]
    rw [hinside, listedNames_append, e.listedNames_cell, ih]
    rfl

/-! ## Clauses -/

/-- What a clause binds beside a default: a name for everything, or a brace list. -/
inductive Bindings where
  | whole (beforeAs afterAs : Space) (name : Word Text.isNameChar)
  | listed (list : NameList)

namespace Bindings

/-- The text before the brace list. -/
def front : Bindings → List Char
  | whole beforeAs afterAs name =>
    '*' :: (beforeAs.text ++ ("as".toList ++ (afterAs.text ++ name.text)))
  | listed _ => []

def list? : Bindings → Option NameList
  | whole _ _ _ => none
  | listed list => some list

/-- The names outside the brace list. -/
def outer : Bindings → List (List Char)
  | whole _ _ name => [name.text]
  | listed _ => []

end Bindings

/-- An import clause: a default name, other bindings, or both with a comma between them. -/
inductive Clause where
  | default (name : PlainName)
  | others (bound : Bindings)
  | both (name : PlainName) (before after : Blanks) (bound : Bindings)

namespace Clause

/-- The text before the brace list. -/
def front : Clause → List Char
  | default name => name.text
  | others bound => bound.front
  | both name before after bound =>
    (name.text ++ before.text) ++ ',' :: (after.text ++ bound.front)

def list? : Clause → Option NameList
  | default _ => none
  | others bound | both _ _ _ bound => bound.list?

/-- The clause where lines are joined by blanks. -/
def text (clause : Clause) : List Char :=
  match clause.list? with
  | none => clause.front
  | some list => clause.front ++ '\x7b' :: (list.inside ++ ['\x7d'])

/-- The names outside the brace list. -/
def outer : Clause → List (List Char)
  | default name => [name.text]
  | others bound => bound.outer
  | both name _ _ bound => name.text :: bound.outer

/-- The names that the clause binds. -/
def bound (clause : Clause) : List (List Char) :=
  clause.outer ++ clause.list?.elim [] NameList.bound

end Clause

/-- The names that are read from the text outside a brace list. -/
def outerNames (outer : List Char) : List (List Char) :=
  (((Text.splitAt ',' outer).map Text.trim).filter (!·.isEmpty)).map fun part =>
    (namespaceImport.matchStart? part).getD part

/-- The names before a comma come before those behind it. -/
theorem outerNames_append (cell rest : List Char) :
    outerNames (cell ++ ',' :: rest) = outerNames cell ++ outerNames rest := by
  rw [outerNames, Text.splitAt_append_separator, List.map_append, List.filter_append, List.map_append]
  rfl

/-- A text between blanks is read as one name. -/
theorem outerNames_cell {text : List Char} (htext : Text.Tight text) (hcomma : ',' ∉ text)
    (before after : Blanks) : outerNames (before.text ++ (text ++ after.text)) =
      [(namespaceImport.matchStart? text).getD text] := by
  have hblanks : ∀ blanks : Blanks, ',' ∉ blanks.text := fun blanks =>
    Text.not_mem_of_class blanks.isSpace (by decide)
  have hcell : ',' ∉ before.text ++ (text ++ after.text) := by
    simp only [List.mem_append, not_or]
    exact ⟨hblanks before, hcomma, hblanks after⟩
  have hnonempty : (!text.isEmpty) = true := by simp [htext.ne_nil]
  rw [outerNames, Text.splitAt_of_not_mem hcell, List.map_singleton,
    htext.trim_eq before.isSpace after.isSpace, List.filter_cons, if_pos hnonempty]
  rfl

/-- A name is no name for everything. -/
theorem outerNames_name (name : PlainName) (after : Blanks) :
    outerNames (name.text ++ after.text) = [name.text] := by
  have hcomma : ',' ∉ name.text := Text.not_mem_of_class name.chars (by decide)
  have hcell := outerNames_cell (solid_of_isNameChar name.toWord).tight hcomma .none after
  have hnone : namespaceImport.matchStart? name.text = none := by
    refine Refuses.matchStart? (Refuses.bind (refuses_lit ?_) _)
    rintro ⟨rest, hrest⟩
    have hstar : '*' ∉ name.text := Text.not_mem_of_class name.chars (by decide)
    exact hstar (hrest ▸ List.mem_cons_self)
  rw [hnone] at hcell
  exact hcell

namespace Bindings

/-- A name for everything is matched as that name. -/
theorem matchStart?_whole (beforeAs afterAs : Space) (name : Word Text.isNameChar) :
    namespaceImport.matchStart? (whole beforeAs afterAs name).front = some name.text := by
  refine Takes.matchStart? (?_ : namespaceImport.Takes _ _ [])
  have hname : SourceSurvey.Extract.JavaScript.name.Takes (name.text ++ []) name.text [] :=
    takes_run name.chars (List.length_pos_iff.mpr name.ne_nil) rfl
  rw [List.append_nil] at hname
  unfold namespaceImport front
  exact (takes_lit "*" _).bind ((takes_aliasMark beforeAs.ne_nil beforeAs.isSpace afterAs.ne_nil
    afterAs.isSpace (solid_of_isNameChar name)).bind (hname.bind (takes_atEnd.bind
    (takes_pure _ _))))

theorem tight_whole (beforeAs afterAs : Space) (name : Word Text.isNameChar) :
    Text.Tight (whole beforeAs afterAs name).front := by
  have hstar : Text.Tight ['*'] := Text.Solid.tight (by decide)
  have has : Text.Tight "as".toList := Text.Solid.tight (by decide)
  exact hstar.append (has.append (solid_of_isNameChar name).tight afterAs.text) beforeAs.text

/-- A sign of a clause stands in it where the clause has it, and in no name or blank. -/
theorem not_mem_front (bindings : Bindings) {d : Char} (hd : isEntryChar d = false)
    (hstar : d ≠ '*') : d ∉ bindings.front := by
  cases bindings with
  | listed list => exact List.not_mem_nil
  | whole beforeAs afterAs name =>
    have hblanks : ∀ blanks : Blanks, d ∉ blanks.text := fun blanks =>
      Text.not_mem_of_class (isEntryChar_of_mem_blanks blanks) hd
    have hname : d ∉ name.text := Text.not_mem_of_class
      (fun c hc => isEntryChar_of_isNameChar (name.chars c hc)) hd
    have has : d ∉ "as".toList := Text.not_mem_of_class (p := isEntryChar)
      (List.all_eq_true.mp (by decide)) hd
    unfold front
    simp only [List.mem_cons, List.mem_append, not_or]
    exact ⟨hstar, hblanks beforeAs.toBlanks, has, hblanks afterAs.toBlanks, hname⟩

/-- The bindings are read behind blanks. -/
theorem outerNames_front (bindings : Bindings) (before : Blanks) :
    outerNames (before.text ++ bindings.front) = bindings.outer := by
  cases bindings with
  | listed list =>
    have hcomma : ',' ∉ before.text := Text.not_mem_of_class before.isSpace (by decide)
    unfold front
    rw [List.append_nil, outerNames, Text.splitAt_of_not_mem hcomma, List.map_singleton,
      Text.trim_eq_nil before.isSpace]
    rfl
  | whole beforeAs afterAs name =>
    have hcell := outerNames_cell (tight_whole beforeAs afterAs name)
      (not_mem_front _ (by decide) (by decide)) before .none
    rw [matchStart?_whole] at hcell
    show outerNames _ = [name.text]
    rwa [show Blanks.none.text = [] from rfl, List.append_nil] at hcell

end Bindings

namespace Clause

/-- From the text before the brace list the names outside it are read. -/
theorem outerNames_front (clause : Clause) : outerNames clause.front = clause.outer := by
  cases clause with
  | default name =>
    have hname := outerNames_name name .none
    rwa [show Blanks.none.text = [] from rfl, List.append_nil] at hname
  | others bound => exact bound.outerNames_front .none
  | both name before after bound =>
    unfold front
    rw [outerNames_append, outerNames_name name before, bound.outerNames_front after]
    rfl

/-- A sign that stands in no entry, no star and no comma, is not in the text before the brace list.
-/
theorem not_mem_front (clause : Clause) {d : Char} (hd : isEntryChar d = false) (hstar : d ≠ '*')
    (hcomma : d ≠ ',') : d ∉ clause.front := by
  have hname : ∀ name : PlainName, d ∉ name.text := fun name => Text.not_mem_of_class
    (fun c hc => isEntryChar_of_isNameChar (name.chars c hc)) hd
  have hblanks : ∀ blanks : Blanks, d ∉ blanks.text := fun blanks =>
    Text.not_mem_of_class (isEntryChar_of_mem_blanks blanks) hd
  cases clause with
  | default name => exact hname name
  | others bound => exact bound.not_mem_front hd hstar
  | both name before after bound =>
    unfold front
    simp only [List.mem_append, List.mem_cons, not_or]
    exact ⟨⟨hname name, hblanks before⟩, hcomma, hblanks after, bound.not_mem_front hd hstar⟩

end Clause

/-! ## Reading a clause -/

/-- A sign that stands in no entry and is no comma is not in the brace list. -/
theorem NameList.not_mem_inside (list : NameList) {d : Char} (hd : isEntryChar d = false)
    (hcomma : d ≠ ',') : d ∉ list.inside := by
  have hspaces : ∀ gap : Gap, d ∉ gap.spaces := fun gap =>
    Text.not_mem_of_class (isEntryChar_of_mem_spaces gap) hd
  unfold inside spaced
  simp only [List.mem_append, List.mem_flatMap, not_or, not_exists, not_and]
  refine ⟨fun x hx => ⟨hspaces x.1, fun hmem => ?_⟩, hspaces list.closing.gap⟩
  rcases (list.isListPiece_of_mem_pieces x hx).chars d hmem with hentry | hsign
  · rw [hd] at hentry
    cases hentry
  · exact hcomma hsign

/-- No brace list begins without a brace. -/
theorem refuses_braceList {c : Char} (hc : c ≠ '\x7b') (cs : List Char) :
    braceList.Refuses (c :: cs) := by
  refine Refuses.bind (refuses_lit ?_) _
  rintro ⟨rest, hrest⟩
  exact hc (List.cons.inj hrest).1.symm

/-- The pattern for a brace list takes all that stands between the braces. -/
theorem takes_braceList {inside : List Char} (hinside : '\x7d' ∉ inside) :
    braceList.Takes ('\x7b' :: (inside ++ ['\x7d'])) inside [] := by
  have hrun : ∀ c ∈ inside, (c != '\x7d') = true := by
    intro c hc
    rw [bne_iff_ne]
    exact fun h => hinside (h ▸ hc)
  unfold braceList
  exact (takes_lit "\x7b" _).bind ((takes_run hrun (Nat.zero_le _) rfl).bind
    ((takes_lit "\x7d" []).bind (takes_pure inside [])))

/-- The names that are read from a clause are those that it binds. -/
theorem Clause.importClause_text (clause : Clause) : importClause clause.text = clause.bound := by
  have hrefuses : ∀ c ∈ clause.front, ∀ cs, braceList.Refuses (c :: cs) := by
    intro c hc
    have hbrace := clause.not_mem_front (d := '\x7b') (by decide) (by decide) (by decide)
    exact refuses_braceList fun h => hbrace (h ▸ hc)
  unfold text bound
  cases clause.list? with
  | none =>
    obtain ⟨last, hpast⟩ := searchAt_append_of_refuses hrefuses none []
    have hnil : braceList.searchAt last [] = none :=
      (Refuses.bind (refuses_lit (by decide)) _).searchAt_nil last
    rw [List.append_nil, hnil, Option.map_none] at hpast
    show importClause clause.front = _
    rw [importClause, search?, hpast]
    show outerNames clause.front ++ [] = _
    rw [clause.outerNames_front]
    rfl
  | some list =>
    have hinside : '\x7d' ∉ list.inside := list.not_mem_inside (by decide) (by decide)
    obtain ⟨last, hpast⟩ := searchAt_append_of_refuses hrefuses none
      ('\x7b' :: (list.inside ++ ['\x7d']))
    obtain ⟨found, last', hfound⟩ := (takes_braceList hinside).searchAt last
    rw [hfound, Option.map_some] at hpast
    dsimp only
    rw [importClause, search?, hpast]
    show outerNames (clause.front ++ [] ++ []) ++ listedNames list.inside = _
    rw [List.append_nil, List.append_nil, clause.outerNames_front, list.listedNames_inside]
    rfl

/-! ## The text of a clause -/

theorem tight_braces (inside : List Char) : Text.Tight ('\x7b' :: (inside ++ ['\x7d'])) :=
  Text.tight_of_ends (by decide) (by decide) inside

namespace Clause

/-- The text before the brace list quotes nothing and begins no comment. -/
theorem isClear_of_mem_front (clause : Clause) : ∀ c ∈ clause.front, isClear c = true := by
  intro c hc
  by_contra hnot
  have hentry : isEntryChar c = false :=
    Bool.eq_false_iff.mpr fun h => hnot (isClear_of_isEntryChar h)
  refine clause.not_mem_front hentry ?_ ?_ hc
  · rintro rfl
    exact hnot (by decide)
  · rintro rfl
    exact hnot (by decide)

theorem tight_text (clause : Clause) : Text.Tight clause.text := by
  have hcomma : Text.Tight [','] := Text.Solid.tight (by decide)
  have hname : ∀ name : PlainName, Text.Tight name.text := fun name =>
    (solid_of_isNameChar name.toWord).tight
  cases clause with
  | default name => exact hname name
  | others bound =>
    cases bound with
    | whole beforeAs afterAs name => exact Bindings.tight_whole beforeAs afterAs name
    | listed list => exact tight_braces list.inside
  | both name before after bound =>
    cases bound with
    | whole beforeAs afterAs word =>
      have hall := (hname name).append
        (hcomma.append (Bindings.tight_whole beforeAs afterAs word) after.text) before.text
      simpa [text, list?, Bindings.list?, front] using hall
    | listed list =>
      have hall := (hname name).append
        (hcomma.append (tight_braces list.inside) after.text) before.text
      simpa [text, list?, Bindings.list?, front, Bindings.front] using hall

/-- No clause begins with the mark of types. -/
theorem refuses_typeMark (clause : Clause) {rest : List Char}
    (hrest : rest.head?.any Text.isNameChar = false) : typeMark.Refuses (clause.text ++ rest) := by
  have hsign : ∀ {c : Char} {cs : List Char}, c ≠ 't' → typeMark.Refuses (c :: cs) := by
    intro c cs hc
    refine Refuses.bind (refuses_lit ?_) _
    rintro ⟨more, hmore⟩
    exact hc (List.cons.inj hmore).1.symm
  cases clause with
  | default name => exact JavaScript.refuses_typeMark name.chars name.ne_type hrest
  | others bound => cases bound <;> exact hsign (by decide)
  | both name before after bound =>
    have hbehind : ∀ more, (before.text ++ ',' :: more).head?.any Text.isNameChar = false := by
      intro more
      cases hblanks : before.text with
      | nil => rfl
      | cons c cs =>
        have hc := before.isSpace c (hblanks ▸ List.mem_cons_self)
        exact Text.isNameChar_eq_false_of_isSpace hc
    have hname := fun more => JavaScript.refuses_typeMark name.chars name.ne_type (hbehind more)
    cases bound with
    | whole beforeAs afterAs word =>
      simpa [text, list?, Bindings.list?, front] using hname _
    | listed list =>
      simpa [text, list?, Bindings.list?, front] using hname _

/-- A clause is made of the characters of its entries and its signs. -/
theorem not_mem_text (clause : Clause) {d : Char} (hd : isEntryChar d = false)
    (hsigns : d ∉ ['*', ',', '\x7b', '\x7d']) : d ∉ clause.text := by
  simp only [List.mem_cons, List.not_mem_nil, or_false, not_or] at hsigns
  obtain ⟨hstar, hcomma, hopen, hclose⟩ := hsigns
  have hfront := clause.not_mem_front hd hstar hcomma
  unfold text
  cases clause.list? with
  | none => exact hfront
  | some list =>
    simp only [List.mem_append, List.mem_cons, List.not_mem_nil, or_false, not_or]
    exact ⟨hfront, hopen, list.not_mem_inside hd hcomma, hclose⟩

end Clause

end SourceSurvey.Extract.JavaScript
