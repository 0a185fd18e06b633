import SourceSurvey.Extract.Python
import SourceSurvey.Proofs.Extract.Alias
import SourceSurvey.Proofs.Extract.Continuation

/-!
# Entries of an import

The entries of an import statement, names with or without an alias, and lists of them with commas
between. Main statement: whatever blanks stand around the commas and whether a comma stands behind
the last entry, the names that are read from the list are those that its entries bind.
-/

namespace SourceSurvey.Extract.Python

open Pattern

/-! ## Entries -/

/-- A character of a module's name. -/
def isPathChar (c : Char) : Bool :=
  Text.isWord c || c == '.'

theorem isPathChar_of_isWord {c : Char} (h : Text.isWord c = true) : isPathChar c = true := by
  rw [isPathChar, h, Bool.true_or]

theorem isSpace_eq_false_of_isPathChar {c : Char} (h : isPathChar c = true) :
    Text.isSpace c = false := by
  rw [isPathChar, Bool.or_eq_true, beq_iff_eq] at h
  rcases h with h | rfl
  · exact Text.isSpace_eq_false_of_isNameChar (by rw [Text.isNameChar, h, Bool.true_or])
  · decide

/-- An entry of an import: a name, and perhaps the alias that it is bound to, with the blanks on
both sides of the word between them. -/
structure Entry (p : Char → Bool) where
  name : Word p
  renamed : Option (Space × Space × Word Text.isWord)

namespace Entry

variable {p : Char → Bool}

/-- The entry as it is written. -/
def text (e : Entry p) : List Char :=
  match e.renamed with
  | none => e.name.text
  | some (before, after, word) =>
    e.name.text ++ (before.text ++ ("as".toList ++ (after.text ++ word.text)))

/-- The name that the entry binds. -/
def bound (e : Entry p) : List Char :=
  match e.renamed with
  | none => e.name.text
  | some (_, _, word) => word.text

end Entry

theorem solid_of_isPathChar {p : Char → Bool} (hp : ∀ c, p c = true → isPathChar c = true)
    (word : Word p) : Text.Solid word.text :=
  word.solid fun c hc => isSpace_eq_false_of_isPathChar (hp c hc)

/-! ## The name that an entry binds -/

section Entries

variable {p : Char → Bool} (hp : ∀ c, p c = true → isPathChar c = true)

include hp

theorem Entry.tight (e : Entry p) : Text.Tight e.text := by
  have hname := (solid_of_isPathChar hp e.name).tight
  unfold Entry.text
  cases e.renamed with
  | none => exact hname
  | some x =>
    obtain ⟨before, after, word⟩ := x
    have hword := (solid_of_isPathChar (fun _ => isPathChar_of_isWord) word).tight
    have has : Text.Tight "as".toList := Text.Solid.tight (by decide)
    exact hname.append (has.append hword after.text) before.text

/-- An entry is made of the characters of names and of blanks. -/
theorem Entry.isPathChar_or_isSpace (e : Entry p) :
    ∀ c ∈ e.text, c ≠ '\n' ∧ (isPathChar c = true ∨ Text.isSpace c = true) := by
  have hpath : ∀ c, isPathChar c = true →
      c ≠ '\n' ∧ (isPathChar c = true ∨ Text.isSpace c = true) := fun c hc =>
    ⟨Text.ne_of_class hc (by decide), .inl hc⟩
  have hspace : ∀ (b : Blanks), ∀ c ∈ b.text,
      c ≠ '\n' ∧ (isPathChar c = true ∨ Text.isSpace c = true) := by
    intro b c hc
    refine ⟨?_, .inr (b.isSpace c hc)⟩
    rintro rfl
    exact b.noFeed hc
  intro c hc
  unfold Entry.text at hc
  cases hrenamed : e.renamed with
  | none =>
    rw [hrenamed] at hc
    exact hpath c (hp c (e.name.chars c hc))
  | some x =>
    obtain ⟨before, after, word⟩ := x
    rw [hrenamed] at hc
    simp only [List.mem_append] at hc
    rcases hc with hc | hc | hc | hc | hc
    · exact hpath c (hp c (e.name.chars c hc))
    · exact hspace before.toBlanks c hc
    · exact hpath c (List.all_eq_true.mp (by decide : "as".toList.all isPathChar = true) c hc)
    · exact hspace after.toBlanks c hc
    · exact hpath c (isPathChar_of_isWord (word.chars c hc))

/-- A character that is neither a blank nor one of names stands in no entry. -/
theorem Entry.not_mem_text (e : Entry p) {d : Char} (hd : isPathChar d = false)
    (hspace : Text.isSpace d = false) : d ∉ e.text := by
  intro hmem
  rcases (e.isPathChar_or_isSpace hp d hmem).2 with h | h
  · exact Text.ne_of_class h hd rfl
  · exact Text.ne_of_class h hspace rfl

/-- The name that an entry binds is found whatever blanks are around the entry. -/
theorem bindingName_entry (e : Entry p) {before after : List Char}
    (hbefore : ∀ c ∈ before, Text.isSpace c = true) (hafter : ∀ c ∈ after, Text.isSpace c = true) :
    bindingName (before ++ (e.text ++ after)) = e.bound := by
  have htight := e.tight hp
  have hslash : Text.trimWhile (· == '\\') e.text = e.text := by
    refine Text.trimWhile_of_forall fun c hc => ?_
    have hne : c ≠ '\\' := fun h => e.not_mem_text hp (by decide) (by decide) (h ▸ hc)
    simpa using hne
  have hname := solid_of_isPathChar hp e.name
  unfold bindingName
  rw [htight.trim_eq hbefore hafter, hslash, htight.trim]
  unfold Entry.text Entry.bound
  cases e.renamed with
  | none =>
    dsimp only
    rw [splitOn_aliasMark_of_solid hname]
    exact hname.tight.trim
  | some x =>
    obtain ⟨space, space', word⟩ := x
    have hword := solid_of_isPathChar (fun _ => isPathChar_of_isWord) word
    dsimp only
    rw [splitOn_aliasMark hname space.ne_nil space.isSpace space'.ne_nil space'.isSpace hword]
    exact hword.tight.trim

/-- The first field of an entry is its name. -/
theorem head?_fields_entry (e : Entry p) {before after : List Char}
    (hbefore : ∀ c ∈ before, Text.isSpace c = true) (hafter : ∀ c ∈ after, Text.isSpace c = true) :
    (Text.fields (before ++ (e.text ++ after))).head? = some e.name.text := by
  have hname := solid_of_isPathChar hp e.name
  -- behind the name there is a blank or nothing
  have hsplit : ∃ rest, e.text ++ after = e.name.text ++ rest ∧
      rest.head?.any (fun c => !Text.isSpace c) = false := by
    unfold Entry.text
    cases e.renamed with
    | none =>
      refine ⟨after, rfl, ?_⟩
      cases after with
      | nil => rfl
      | cons c cs => simpa using hafter c List.mem_cons_self
    | some x =>
      obtain ⟨space, space', word⟩ := x
      refine ⟨space.text ++ ("as".toList ++ (space'.text ++ word.text)) ++ after, by simp, ?_⟩
      obtain ⟨c, cs, hspace⟩ := List.exists_cons_of_ne_nil space.ne_nil
      have hc := space.isSpace c (hspace ▸ List.mem_cons_self)
      rw [hspace]
      simpa using hc
  obtain ⟨rest, htext, hrest⟩ := hsplit
  rw [htext]
  unfold Text.fields
  induction before with
  | nil =>
    obtain ⟨others, hothers⟩ := Text.exists_splitWhere Text.isSpace (e.name.text ++ rest)
    have htake : (e.name.text ++ rest).takeWhile (fun c => !Text.isSpace c) = e.name.text := by
      have hstop : rest.takeWhile (fun c => !Text.isSpace c) = [] := by
        cases rest with
        | nil => rfl
        | cons c cs => exact List.takeWhile_cons_of_neg (by simpa using hrest)
      rw [List.takeWhile_append_of_pos fun c hc => by simp [hname.2 c hc], hstop, List.append_nil]
    have hne : (!e.name.text.isEmpty) = true := by simp [hname.1]
    rw [List.nil_append, hothers, htake, List.filter_cons, if_pos hne, List.head?_cons]
  | cons c cs ih =>
    rw [List.cons_append, Text.splitWhere, if_pos (hbefore c List.mem_cons_self)]
    exact ih fun d hd => hbefore d (List.mem_cons_of_mem c hd)

end Entries

/-! ## Lists of entries -/

/-- Entries with commas between them, and what stands before and after each comma. -/
structure EntryList (p : Char → Bool) (G : Type) where
  first : Entry p
  others : List (G × G × Entry p)

namespace EntryList

variable {p : Char → Bool} {G : Type}

def entries (list : EntryList p G) : List (Entry p) :=
  list.first :: list.others.map (·.2.2)

/-- The pieces after the first entry: commas and entries. -/
def pieces (gap : G → Gap) (list : EntryList p G) : List (Gap × List Char) :=
  list.others.flatMap fun (before, after, e) => [(gap before, [',']), (gap after, e.text)]

end EntryList

/-- The text between two commas is an entry with blanks around it. -/
def IsCell {p : Char → Bool} (cell : List Char) (e : Entry p) : Prop :=
  ∃ before after, cell = before ++ (e.text ++ after) ∧
    (∀ c ∈ before, Text.isSpace c = true) ∧ ∀ c ∈ after, Text.isSpace c = true

section Lists

variable {p : Char → Bool} (hp : ∀ c, p c = true → isPathChar c = true) {G : Type}

include hp

/-- No cell of a list holds a comma. -/
theorem IsCell.comma_not_mem {cell : List Char} {e : Entry p} (h : IsCell cell e) : ',' ∉ cell := by
  have hspace : ∀ blanks : List Char, (∀ c ∈ blanks, Text.isSpace c = true) → ',' ∉ blanks :=
    fun blanks hblanks => Text.not_mem_of_class hblanks (by decide)
  obtain ⟨before, after, rfl, hbefore, hafter⟩ := h
  simp only [List.mem_append, not_or]
  exact ⟨hspace before hbefore, e.not_mem_text hp (by decide) (by decide), hspace after hafter⟩

/-- A list is cut at its commas into its entries. At the end there may be a comma, with nothing but
blanks behind it. -/
theorem splitAt_comma_spaced (gap : G → Gap) (others : List (G × G × Entry p)) (e : Entry p)
    {before : List Char} (hbefore : ∀ c ∈ before, Text.isSpace c = true) {ending : List Char}
    {last : List (List Char)} (hending : ∀ front, ',' ∉ front → ∃ blanks,
      (∀ c ∈ blanks, Text.isSpace c = true) ∧
        Text.splitAt ',' (front ++ ending) = (front ++ blanks) :: last) :
    ∃ cells, Text.splitAt ',' (before ++ (e.text ++
        (spaced (EntryList.pieces gap ⟨e, others⟩) ++ ending))) = cells ++ last ∧
      List.Forall₂ IsCell cells (EntryList.entries ⟨e, others⟩) := by
  induction others generalizing e before with
  | nil =>
    have hcell : IsCell (before ++ (e.text ++ [])) e := ⟨before, [], rfl, hbefore, by simp⟩
    obtain ⟨blanks, hblanks, hsplit⟩ := hending _ (hcell.comma_not_mem hp)
    refine ⟨[before ++ (e.text ++ blanks)], ?_, ?_⟩
    · show Text.splitAt ',' (before ++ (e.text ++ ending)) = _
      simpa using hsplit
    · exact List.Forall₂.cons ⟨before, blanks, rfl, hbefore, hblanks⟩ List.Forall₂.nil
  | cons x others ih =>
    obtain ⟨gapBefore, gapAfter, next⟩ := x
    have hcell : IsCell (before ++ (e.text ++ (gap gapBefore).spaces)) e :=
      ⟨before, _, rfl, hbefore, Gap.isSpace_of_mem_spaces⟩
    have hspaces : ∀ c ∈ (gap gapAfter).spaces, Text.isSpace c = true := Gap.isSpace_of_mem_spaces
    obtain ⟨cells, hcells, hentries⟩ := ih next hspaces
    refine ⟨_ :: cells, ?_, List.Forall₂.cons hcell hentries⟩
    have htext : before ++ (e.text ++ (spaced (EntryList.pieces gap
        ⟨e, (gapBefore, gapAfter, next) :: others⟩) ++ ending)) =
        (before ++ (e.text ++ (gap gapBefore).spaces)) ++ ',' :: ((gap gapAfter).spaces ++
          (next.text ++ (spaced (EntryList.pieces gap ⟨next, others⟩) ++ ending))) := by
      simp [EntryList.pieces, spaced]
    rw [htext, Text.splitAt_append_cons (hcell.comma_not_mem hp), hcells, List.cons_append]

end Lists

/-! ## Pieces of a list -/

/-- An entry is a piece of a statement. -/
theorem Entry.isPiece {p : Char → Bool} (hp : ∀ c, p c = true → isPathChar c = true)
    (e : Entry p) : IsPiece e.text := by
  refine ⟨e.tight hp, ?_, e.not_mem_text hp (by decide) (by decide), ?_⟩
  · intro c hc
    rcases (e.isPathChar_or_isSpace hp c hc).2 with hpath | hspace
    · have hne : ∀ d, isPathChar d = false → c ≠ d := fun d hd => Text.ne_of_class hpath hd
      simp [isBare, hne '#' (by decide), hne '"' (by decide), hne '\'' (by decide)]
    · exact isBare_of_isSpace hspace
  · intro hc
    exact (e.isPathChar_or_isSpace hp _ hc).1 rfl

theorem isPiece_of_isPathChar {word : List Char} (hne : word ≠ [])
    (hword : ∀ c ∈ word, isPathChar c = true) : IsPiece word :=
  Entry.isPiece (fun _ h => h) ⟨⟨word, hne, hword⟩, none⟩

/-! ## The names in a list -/

/-- Every entry binds a name. -/
theorem Entry.bound_ne_nil {p : Char → Bool} (e : Entry p) : e.bound ≠ [] := by
  unfold Entry.bound
  cases e.renamed with
  | none => exact e.name.ne_nil
  | some x => exact x.2.2.ne_nil

theorem bindingName_of_isSpace {text : List Char} (h : ∀ c ∈ text, Text.isSpace c = true) :
    bindingName text = [] := by
  unfold bindingName
  rw [Text.trim_eq_nil h]
  rfl

section Names

variable {p : Char → Bool} (hp : ∀ c, p c = true → isPathChar c = true) {G : Type} (gap : G → Gap)

include hp

/-- Everything in a list of entries is a piece of a statement. -/
theorem EntryList.isPiece_of_mem_pieces (list : EntryList p G) :
    ∀ x ∈ list.pieces gap, IsPiece x.2 := by
  intro x hx
  obtain ⟨⟨before, after, e⟩, -, hx⟩ := List.mem_flatMap.mp hx
  simp only [List.mem_cons, List.not_mem_nil, or_false] at hx
  rcases hx with rfl | rfl
  · exact isPiece_singleton (by decide) (by decide) (by decide) (by decide)
  · exact e.isPiece hp

/-- A list without its first entry has commas, entries and blanks. -/
theorem EntryList.not_mem_spaced (list : EntryList p G) {d : Char} (hd : isPathChar d = false)
    (hspace : Text.isSpace d = false) (hcomma : d ≠ ',') : d ∉ spaced (list.pieces gap) := by
  intro hmem
  obtain ⟨x, hx, hmem⟩ := List.mem_flatMap.mp hmem
  obtain ⟨⟨before, after, e⟩, -, hx⟩ := List.mem_flatMap.mp hx
  rcases List.mem_append.mp hmem with hmem | hmem
  · rw [Gap.isSpace_of_mem_spaces d hmem] at hspace
    cases hspace
  · simp only [List.mem_cons, List.not_mem_nil, or_false] at hx
    rcases hx with rfl | rfl
    · exact hcomma (List.mem_singleton.mp hmem)
    · exact e.not_mem_text hp hd hspace hmem

/-- The cells of a list bind the names of its entries. -/
theorem map_bindingName_cells {cells : List (List Char)} {entries : List (Entry p)}
    (h : List.Forall₂ IsCell cells entries) :
    cells.map bindingName = entries.map Entry.bound := by
  induction h with
  | nil => rfl
  | cons hcell _ ih =>
    obtain ⟨before, after, rfl, hbefore, hafter⟩ := hcell
    rw [List.map_cons, List.map_cons, bindingName_entry hp _ hbefore hafter, ih]

/-- The modules of a list are those of its entries, each with the name that it is bound to. -/
theorem filterMap_fields_cells {cells : List (List Char)} {entries : List (Entry p)}
    (h : List.Forall₂ IsCell cells entries) (first last : Nat) :
    (cells.filterMap fun cell => (Text.fields cell).head?.map fun module =>
      (⟨.ofList module, [.ofList (bindingName cell)], false, first, last⟩ : ImportStatement)) =
      entries.map fun e => ⟨.ofList e.name.text, [.ofList e.bound], false, first, last⟩ := by
  induction h with
  | nil => rfl
  | @cons cell e cells entries hcell _ ih =>
    obtain ⟨before, after, rfl, hbefore, hafter⟩ := hcell
    rw [List.filterMap_cons, head?_fields_entry hp e hbefore hafter, Option.map_some, ih,
      bindingName_entry hp e hbefore hafter, List.map_cons]

/-- The names of a list are those that its entries bind, whatever stands behind the last one:
blanks, or a comma between blanks. -/
theorem filter_map_bindingName_splitAt (list : EntryList p G) {before after : List Char}
    (hbefore : ∀ c ∈ before, Text.isSpace c = true) (hafter : ∀ c ∈ after, Text.isSpace c = true)
    (trailing : Option (List Char))
    (htrailing : ∀ blanks ∈ trailing, ∀ c ∈ blanks, Text.isSpace c = true) :
    ((Text.splitAt ',' (before ++ (list.first.text ++ (spaced (list.pieces gap) ++
        (trailing.elim [] (· ++ [',']) ++ after))))).map bindingName).filter (!·.isEmpty) =
      list.entries.map Entry.bound := by
  have hcomma : ∀ blanks : List Char, (∀ c ∈ blanks, Text.isSpace c = true) → ',' ∉ blanks :=
    fun blanks hblanks => Text.not_mem_of_class hblanks (by decide)
  have hbound : (list.entries.map Entry.bound).filter (!·.isEmpty) =
      list.entries.map Entry.bound := by
    rw [List.filter_eq_self]
    intro name hname
    obtain ⟨e, -, rfl⟩ := List.mem_map.mp hname
    simp [e.bound_ne_nil]
  -- behind the last comma there is nothing but blanks, which bind nothing
  have hlast : ∃ last : List (List Char), (last.map bindingName).filter (!·.isEmpty) = [] ∧
      ∀ front, ',' ∉ front → ∃ blanks, (∀ c ∈ blanks, Text.isSpace c = true) ∧
        Text.splitAt ',' (front ++ (trailing.elim [] (· ++ [',']) ++ after)) =
          (front ++ blanks) :: last := by
    cases trailing with
    | none =>
      refine ⟨[], rfl, fun front hfront => ⟨after, hafter, ?_⟩⟩
      refine Text.splitAt_of_not_mem ?_
      rw [Option.elim_none, List.nil_append, List.mem_append, not_or]
      exact ⟨hfront, hcomma after hafter⟩
    | some blanks =>
      have hblanks := htrailing blanks rfl
      refine ⟨[after], ?_, fun front hfront => ⟨blanks, hblanks, ?_⟩⟩
      · rw [List.map_singleton, bindingName_of_isSpace hafter]
        rfl
      · have htext : front ++ ((some blanks).elim [] (· ++ [',']) ++ after) =
            (front ++ blanks) ++ ',' :: after := by simp
        have hmem : ',' ∉ front ++ blanks := by
          rw [List.mem_append, not_or]
          exact ⟨hfront, hcomma blanks hblanks⟩
        rw [htext, Text.splitAt_append_cons hmem, Text.splitAt_of_not_mem (hcomma after hafter)]
  obtain ⟨last, hnothing, hending⟩ := hlast
  obtain ⟨cells, hcells, hentries⟩ :=
    splitAt_comma_spaced hp gap list.others list.first hbefore hending
  rw [hcells, List.map_append, List.filter_append, hnothing, List.append_nil,
    map_bindingName_cells hp hentries]
  exact hbound

end Names

end SourceSurvey.Extract.Python
