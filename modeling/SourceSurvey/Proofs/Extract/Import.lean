import SourceSurvey.Proofs.Extract.Entry

/-!
# Import statements as they are written

The written forms of the import statements of a Python file: modules with aliases, names from a
module, and names in parentheses, on one line or on several. Main statement: whatever the forms, the
names, the aliases, the layouts and the number of statements are, the imports that are read are
those that were written, in order and with their first and last lines.
-/

namespace SourceSurvey.Extract.Python

open Pattern

/-! ## The two statements -/

/-- A list of modules goes on only behind a backslash. -/
theorem continues_modulesGoOn : Continues modulesGoOn
    (fun t l => Text.trimEndWhile (· == '\\') (Text.trimEnd t) ++ ' ' :: Text.trim l)
    fun _ => False := by
  refine ⟨?_, fun _ hopen => hopen.elim, id⟩
  intro text hlast line
  have htrim : Text.trimEnd (text ++ ['\\']) = text ++ ['\\'] :=
    Text.trimEndWhile_concat_of_neg (by decide) text
  refine ⟨?_, ?_⟩
  · rw [modulesGoOn, htrim, List.getLast?_concat]
    rfl
  · rw [htrim, Text.trimEndWhile_append (by decide), trimEndWhile_slash hlast]

/-- The text of a list in parentheses that is not closed yet. -/
def IsOpenList (text : List Char) : Prop :=
  text.head? = some '(' ∧ ')' ∉ text

/-- A list of names goes on behind a backslash and within parentheses. -/
theorem continues_namesGoOn : Continues namesGoOn
    (fun t l => Text.trimEndWhile (· == '\\') t ++ ' ' :: Text.trim l) IsOpenList := by
  refine ⟨?_, ?_, ?_⟩
  · intro text hlast line
    refine ⟨?_, ?_⟩
    · rw [namesGoOn, List.getLast?_concat, beq_self_eq_true, Bool.or_true]
    · rw [Text.trimEndWhile_append (by decide), trimEndWhile_slash hlast]
  · rintro text hlast ⟨hfirst, hclosed⟩ line
    refine ⟨?_, ?_⟩
    · simp [namesGoOn, hfirst, hclosed]
    · rw [trimEndWhile_slash hlast]
  · rintro text ⟨hfirst, hclosed⟩
    cases text with
    | nil => cases hfirst
    | cons c cs =>
      refine ⟨hfirst, ?_⟩
      rw [List.mem_append, not_or]
      exact ⟨hclosed, by decide⟩

/-- The words of a statement up to the names that it imports. -/
structure FromHead where
  indent : Blanks
  afterFrom : Space
  module : Word isPathChar
  afterModule : Space
  afterImport : Space

def FromHead.text (head : FromHead) : List Char :=
  "from".toList ++ (head.afterFrom.text ++ (head.module.text ++ (head.afterModule.text ++
    ("import".toList ++ head.afterImport.text))))

/-- The pattern for names takes the rest of the statement. -/
theorem takes_names {names : List Char} (hne : names ≠ []) (hfeed : '\n' ∉ names) :
    (run1 notLineFeed).Takes names names [] := by
  have htakes : (run notLineFeed 1).Takes (names ++ []) names [] := takes_run
    (fun c hc => by
      have hc : c ≠ '\n' := fun h => hfeed (h ▸ hc)
      simpa [notLineFeed] using hc)
    (List.length_pos_iff.mpr hne) rfl
  rwa [List.append_nil] at htakes

/-- Where a blank follows, no character of a class without blanks does. -/
theorem head?_any_eq_false_of_isSpace {p : Char → Bool}
    (hp : ∀ c, p c = true → Text.isSpace c = false) {rest : List Char}
    (hrest : rest.head?.any Text.isSpace = true) : rest.head?.any p = false := by
  cases rest with
  | nil => rfl
  | cons c cs =>
    have hspace : Text.isSpace c = true := hrest
    show p c = false
    rw [Bool.eq_false_iff]
    exact fun hc => Text.ne_of_class hspace (hp c hc) rfl

/-- The pattern for a module takes the whole path. -/
theorem takes_modulePath (module : Word isPathChar) {rest : List Char}
    (hrest : rest.head?.any Text.isSpace = true) :
    modulePath.Takes (module.text ++ rest) module.text rest := by
  have hstop : rest.head?.any isPathChar = false :=
    head?_any_eq_false_of_isSpace (fun _ => isSpace_eq_false_of_isPathChar) hrest
  -- the dots at the front, and what is behind them
  obtain ⟨dots, more, htext, hdots, hmore⟩ : ∃ dots more, module.text = dots ++ more ∧
      (∀ c ∈ dots, (c == '.') = true) ∧ more.head?.any (· == '.') = false := by
    exact ⟨module.text.takeWhile (· == '.'), module.text.dropWhile (· == '.'),
      List.takeWhile_append_dropWhile.symm, List.all_eq_true.mp List.all_takeWhile,
      Text.head?_dropWhile_any (· == '.') module.text⟩
  have hchars : ∀ c ∈ more, isPathChar c = true := fun c hc =>
    module.chars c (htext ▸ List.mem_append_right dots hc)
  unfold modulePath
  -- a relative name is read by the first alternative, which needs a dot, any other by the second
  by_cases hnil : dots = []
  · have hword : module.text = more := by rw [htext, hnil, List.nil_append]
    have hnodot : (module.text ++ rest).head?.any (· == '.') = false := by
      obtain ⟨c, cs, hcons⟩ := List.exists_cons_of_ne_nil module.ne_nil
      rw [hcons] at hword ⊢
      rw [← hword] at hmore
      exact hmore
    refine Refuses.takes_orElse ((refuses_run1 hnodot).bind _).textOf ?_
    exact takes_run module.chars (List.length_pos_iff.mpr module.ne_nil) hstop
  · refine Takes.orElse ?_ _
    refine Takes.textOf (a := more) ?_
    have hfollow : (more ++ rest).head?.any (· == '.') = false := by
      cases more with
      | nil =>
        refine head?_any_eq_false_of_isSpace (fun c hc => ?_) hrest
        rw [beq_iff_eq.mp hc]
        decide
      | cons c cs => exact hmore
    rw [htext, List.append_assoc]
    exact (takes_run hdots (List.length_pos_iff.mpr hnil) hfollow).bind
      (takes_run hchars (Nat.zero_le _) hstop)

/-- A `from` statement is matched as its module and its names. -/
theorem fromStatement_matchStart? (head : FromHead) {names : List Char} (hne : names ≠ [])
    (hspace : names.head?.any Text.isSpace = false) (hfeed : '\n' ∉ names) :
    fromStatement.matchStart? (head.text ++ names) = some (head.module.text, names) := by
  have hmodule := head?_any_isSpace_of_solid (solid_of_isPathChar (fun _ h => h) head.module)
  have himport := head?_any_isSpace_of_solid
    (show Text.Solid "import".toList by decide)
  have hblank : ∀ (space : Space) (rest : List Char),
      (space.text ++ rest).head?.any Text.isSpace = true := by
    intro space rest
    obtain ⟨c, cs, hcons⟩ := List.exists_cons_of_ne_nil space.ne_nil
    rw [hcons]
    exact space.isSpace c (hcons ▸ List.mem_cons_self)
  refine Takes.matchStart? (?_ : fromStatement.Takes _ _ [])
  unfold fromStatement FromHead.text
  simp only [List.append_assoc]
  exact (takes_lit "from" _).bind ((takes_blanks1 head.afterFrom.ne_nil head.afterFrom.isSpace
    (hmodule _)).bind ((takes_modulePath head.module (hblank head.afterModule _)).bind
    ((takes_blanks1 head.afterModule.ne_nil head.afterModule.isSpace (himport _)).bind
    ((takes_lit "import" _).bind ((takes_blanks1 head.afterImport.ne_nil head.afterImport.isSpace
    hspace).bind ((takes_names hne hfeed).bind (takes_atEnd.bind (takes_pure _ _))))))))

/-- A plain `import` is matched as its modules, and as no `from` statement. -/
theorem importStatement_matchStart? (space : Space) {modules : List Char} (hne : modules ≠ [])
    (hspace : modules.head?.any Text.isSpace = false) (hfeed : '\n' ∉ modules) :
    fromStatement.matchStart? ("import".toList ++ (space.text ++ modules)) = none ∧
      importStatement.matchStart? ("import".toList ++ (space.text ++ modules)) = some modules := by
  constructor
  · refine Refuses.matchStart? (Refuses.bind (refuses_lit ?_) _)
    rintro ⟨rest, hrest⟩
    cases (List.cons.inj hrest).1
  · refine Takes.matchStart? (?_ : importStatement.Takes _ _ [])
    unfold importStatement
    exact (takes_lit "import" _).bind ((takes_blanks1 space.ne_nil space.isSpace hspace).bind
      ((takes_names hne hfeed).bind (takes_atEnd.bind (takes_pure _ _))))

/-! ## Reading a statement from its rows -/

/-- The head of a `from` statement joins its first piece. -/
theorem FromHead.isPiece_append (head : FromHead) {text : List Char} (h : IsPiece text) :
    IsPiece (head.text ++ text) := by
  have hfrom : IsPiece "from".toList :=
    isPiece_of_isPathChar (by decide) (List.all_eq_true.mp (by decide))
  have himport : IsPiece "import".toList :=
    isPiece_of_isPathChar (by decide) (List.all_eq_true.mp (by decide))
  have hmodule := isPiece_of_isPathChar head.module.ne_nil head.module.chars
  have hall := hfrom.append (hmodule.append (himport.append h head.afterImport.toBlanks)
    head.afterModule.toBlanks) head.afterFrom.toBlanks
  unfold FromHead.text
  simpa only [List.append_assoc] using hall

/-- The names of a list between optional parentheses. -/
def namesOf (text : List Char) : List (List Char) :=
  ((Text.splitAt ',' (Text.trimWhile (fun c => c == '(' || c == ')') text)).map bindingName).filter
    (!·.isEmpty)

/-- What a place yields whose line begins to import names. -/
theorem importsAt_of_fromStatement {p : Place} {module rest text : List Char} {taken : Nat}
    (hmatch : fromStatement.matchStart? (Text.trim p.code) = some (module, rest))
    (htext : extendWhile namesGoOn
      (fun t l => Text.trimEndWhile (· == '\\') t ++ ' ' :: Text.trim l) (Text.trim rest)
      (p.below.map (·.code)) = (text, taken)) :
    importsAt p = ([⟨.ofList module, (namesOf text).map .ofList, true, p.number,
      p.number + taken⟩], taken) := by
  have hmax : max p.number (p.number + taken) = p.number + taken := by omega
  unfold importsAt
  dsimp only
  rw [hmatch]
  dsimp only
  rw [htext, ImportStatement.spanning, hmax]
  rfl

/-- What a place yields whose line begins to import modules. -/
theorem importsAt_of_importStatement {p : Place} {rest text : List Char} {taken : Nat}
    (hnot : fromStatement.matchStart? (Text.trim p.code) = none)
    (hmatch : importStatement.matchStart? (Text.trim p.code) = some rest)
    (htext : extendWhile modulesGoOn
      (fun t l => Text.trimEndWhile (· == '\\') (Text.trimEnd t) ++ ' ' :: Text.trim l) rest
      (p.below.map (·.code)) = (text, taken)) :
    importsAt p = ((Text.splitAt ',' text).filterMap fun entry =>
      (Text.fields entry).head?.map fun module =>
        ⟨.ofList module, [.ofList (bindingName entry)], false, p.number, p.number + taken⟩,
      taken) := by
  have hmax : max p.number (p.number + taken) = p.number + taken := by omega
  unfold importsAt
  dsimp only
  rw [hnot, hmatch]
  dsimp only
  rw [htext]
  simp only [ImportStatement.spanning, hmax]

section Reading

variable {first : List Char} {pieces : List (Gap × List Char)} (hfirst : IsPiece first)
  (hpieces : ∀ x ∈ pieces, IsPiece x.2)

include hfirst hpieces

/-- A statement that imports names is read from the rows that it is laid out on. -/
theorem importsAt_layOut_names (head : FromHead) (tail : LineTail)
    (hopen : OpenAtLineEnds IsOpenList first pieces)
    (hstop : namesGoOn (first ++ spaced pieces) = false) :
    ∃ row rows, layOut head.indent (head.text ++ first) tail pieces = row :: rows ∧
      ∀ (p : Place) (below : List Line), p.code = row.code →
        p.below.map (·.code) = rows.map Row.code ++ below →
        importsAt p = ([⟨.ofList head.module.text, (namesOf (first ++ spaced pieces)).map .ofList,
          true, p.number, p.number + rows.length⟩], rows.length) := by
  obtain ⟨row, rows, hrows, shown, htrim, htight, hfeed, hextend⟩ :=
    exists_trim_code_layOut continues_namesGoOn (fun _ h => head.isPiece_append h) hfirst hpieces
      hopen hstop head.indent tail
  refine ⟨row, rows, hrows, fun p below hcode hbelow => ?_⟩
  obtain ⟨c, cs, hcons, hspace⟩ := htight.first
  have hmatch := fromStatement_matchStart? head htight.ne_nil (by rw [hcons]; exact hspace) hfeed
  rw [← htrim, ← hcode] at hmatch
  refine importsAt_of_fromStatement hmatch ?_
  rw [htight.trim, hbelow, hextend]

/-- A statement that imports modules is read from the rows that it is laid out on. -/
theorem importsAt_layOut_modules (space : Space) (indent : Blanks) (tail : LineTail)
    (hslash : ∀ x ∈ pieces, x.1.endsLine = false)
    (hstop : modulesGoOn (first ++ spaced pieces) = false) :
    ∃ row rows, layOut indent ("import".toList ++ space.text ++ first) tail pieces = row :: rows ∧
      ∀ (p : Place) (below : List Line), p.code = row.code →
        p.below.map (·.code) = rows.map Row.code ++ below →
        importsAt p = ((Text.splitAt ',' (first ++ spaced pieces)).filterMap fun entry =>
          (Text.fields entry).head?.map fun module =>
            ⟨.ofList module, [.ofList (bindingName entry)], false, p.number,
              p.number + rows.length⟩, rows.length) := by
  have hbefore : ∀ text, IsPiece text → IsPiece ("import".toList ++ space.text ++ text) := by
    intro text htext
    rw [List.append_assoc]
    exact (isPiece_of_isPathChar (by decide) (List.all_eq_true.mp (by decide))).append htext
      space.toBlanks
  obtain ⟨row, rows, hrows, shown, htrim, htight, hfeed, hextend⟩ :=
    exists_trim_code_layOut continues_modulesGoOn hbefore hfirst hpieces
      (.of_endsLine_eq_false hslash) hstop indent tail
  refine ⟨row, rows, hrows, fun p below hcode hbelow => ?_⟩
  obtain ⟨c, cs, hcons, hspace⟩ := htight.first
  obtain ⟨hnot, hmatch⟩ := importStatement_matchStart? space htight.ne_nil
    (by rw [hcons]; exact hspace) hfeed
  rw [← List.append_assoc, ← htrim, ← hcode] at hnot hmatch
  refine importsAt_of_importStatement hnot hmatch ?_
  rw [hbelow, hextend]

end Reading

/-! ## Written statements -/

/-- A gap that ends no line, unless by a backslash. -/
structure LineGap where
  gap : Gap
  endsLine : gap.endsLine = false

/-- An import statement as it is written. -/
inductive ImportText where
  /-- `import a.b, c as d`. -/
  | modules (indent : Blanks) (space : Space) (list : EntryList isPathChar LineGap)
      (tail : LineTail)
  /-- `from a.b import c, d as e`. -/
  | names (head : FromHead) (list : EntryList Text.isWord LineGap) (tail : LineTail)
  /-- `from a.b import (c, d as e,)`, where a trailing comma has a gap before it. -/
  | parenthesised (head : FromHead) (opening : Gap) (list : EntryList Text.isWord Gap)
      (trailing : Option Gap) (closing : Gap) (tail : LineTail)

namespace ImportText

/-- The pieces behind the opening parenthesis, up to the closing one. -/
def inside (opening : Gap) (list : EntryList Text.isWord Gap) (trailing : Option Gap) :
    List (Gap × List Char) :=
  (opening, list.first.text) :: (list.pieces id ++ trailing.toList.map fun gap => (gap, [',']))

/-- The rows that a statement is written on. -/
def rows : ImportText → List Row
  | .modules indent space list tail =>
    layOut indent ("import".toList ++ space.text ++ list.first.text) tail (list.pieces LineGap.gap)
  | .names head list tail =>
    layOut head.indent (head.text ++ list.first.text) tail (list.pieces LineGap.gap)
  | .parenthesised head opening list trailing closing tail =>
    layOut head.indent (head.text ++ ['(']) tail
      (inside opening list trailing ++ [(closing, [')'])])

/-- What a statement imports that is written on lines with these numbers. -/
def imports (s : ImportText) (first last : Nat) : List ImportStatement :=
  match s with
  | .modules _ _ list _ => list.entries.map fun e =>
      ⟨.ofList e.name.text, [.ofList e.bound], false, first, last⟩
  | .names head list _ | .parenthesised head _ list _ _ _ =>
    [⟨.ofList head.module.text, list.entries.map fun e => .ofList e.bound, true, first, last⟩]

/-- The imports of statements that are written one after the other, from a line on. -/
def importsFrom (first : Nat) : List ImportText → List ImportStatement
  | [] => []
  | s :: statements =>
    s.imports first (first + s.rows.length - 1) ++ importsFrom (first + s.rows.length) statements

/-- Everything between parentheses is a piece of a statement. -/
theorem isPiece_of_mem_inside {opening : Gap} {list : EntryList Text.isWord Gap}
    {trailing : Option Gap} : ∀ x ∈ inside opening list trailing, IsPiece x.2 := by
  intro x hx
  rcases List.mem_cons.mp hx with rfl | hx
  · exact list.first.isPiece fun _ => isPathChar_of_isWord
  · rcases List.mem_append.mp hx with hx | hx
    · exact list.isPiece_of_mem_pieces (fun _ => isPathChar_of_isWord) id x hx
    · obtain ⟨gap, -, rfl⟩ := List.mem_map.mp hx
      exact isPiece_singleton (by decide) (by decide) (by decide) (by decide)

/-- Inside parentheses there are no parentheses. -/
theorem not_mem_spaced_inside (opening : Gap) (list : EntryList Text.isWord Gap)
    (trailing : Option Gap) {d : Char} (hd : isPathChar d = false)
    (hspace : Text.isSpace d = false) (hcomma : d ≠ ',') :
    d ∉ spaced (inside opening list trailing) := by
  have hp : ∀ c, Text.isWord c = true → isPathChar c = true := fun _ => isPathChar_of_isWord
  have hgap : ∀ gap : Gap, d ∉ gap.spaces := by
    intro gap hmem
    rw [Gap.isSpace_of_mem_spaces d hmem] at hspace
    cases hspace
  unfold inside spaced
  rw [List.flatMap_cons, List.flatMap_append]
  simp only [List.mem_append, not_or]
  refine ⟨⟨hgap opening, list.first.not_mem_text hp hd hspace⟩,
    list.not_mem_spaced hp id hd hspace hcomma, ?_⟩
  intro hmem
  obtain ⟨x, hx, hmem⟩ := List.mem_flatMap.mp hmem
  obtain ⟨gap, -, rfl⟩ := List.mem_map.mp hx
  rcases List.mem_append.mp hmem with hmem | hmem
  · exact hgap gap hmem
  · exact hcomma (List.mem_singleton.mp hmem)

/-- Up to a gap inside parentheses the list is open. -/
theorem isOpenList_of_eq_append {opening closing : Gap} {list : EntryList Text.isWord Gap}
    {trailing : Option Gap} {front back : List (Gap × List Char)} {gap : Gap} {piece : List Char}
    (h : inside opening list trailing ++ [(closing, [')'])] = front ++ (gap, piece) :: back) :
    IsOpenList (['('] ++ spaced front) := by
  have hfront : front <+: inside opening list trailing := by
    refine List.prefix_of_prefix_length_le (h ▸ List.prefix_append front _)
      (List.prefix_append _ [(closing, [')'])]) ?_
    have hlength := congrArg List.length h
    simp only [List.length_append, List.length_cons, List.length_nil] at hlength
    omega
  obtain ⟨more, hmore⟩ := hfront
  have hclosed := not_mem_spaced_inside opening list trailing
    (show isPathChar ')' = false by decide) (by decide) (by decide)
  rw [← hmore, spaced_append, List.mem_append, not_or] at hclosed
  refine ⟨rfl, ?_⟩
  rw [List.mem_append, not_or]
  exact ⟨by decide, hclosed.1⟩

theorem isParen_eq_false {text : List Char} (hopen : '(' ∉ text) (hclose : ')' ∉ text) :
    ∀ c ∈ text, (c == '(' || c == ')') = false := by
  intro c hc
  rw [Bool.or_eq_false_iff, beq_eq_false_iff_ne, beq_eq_false_iff_ne]
  exact ⟨fun h => hopen (h ▸ hc), fun h => hclose (h ▸ hc)⟩

/-- A list of names in parentheses binds its entries. -/
theorem namesOf_parenthesised (opening closing : Gap) (list : EntryList Text.isWord Gap)
    (trailing : Option Gap) :
    namesOf (['('] ++ spaced (inside opening list trailing ++ [(closing, [')'])])) =
      list.entries.map Entry.bound := by
  have hp : ∀ c, Text.isWord c = true → isPathChar c = true := fun _ => isPathChar_of_isWord
  have hinner : ['('] ++ spaced (inside opening list trailing ++ [(closing, [')'])]) =
      '(' :: ((spaced (inside opening list trailing) ++ closing.spaces) ++ [')']) := by
    rw [spaced_append]
    simp [spaced]
  have hnone : ∀ d, isPathChar d = false → Text.isSpace d = false → d ≠ ',' →
      d ∉ spaced (inside opening list trailing) ++ closing.spaces := by
    intro d hd hspace hcomma hmem
    rcases List.mem_append.mp hmem with hmem | hmem
    · exact not_mem_spaced_inside opening list trailing hd hspace hcomma hmem
    · rw [Gap.isSpace_of_mem_spaces d hmem] at hspace
      cases hspace
  -- the only parentheses are the outer two, so trimming them keeps the list whole
  have hparen := isParen_eq_false (hnone '(' (by decide) (by decide) (by decide))
    (hnone ')' (by decide) (by decide) (by decide))
  have hne : spaced (inside opening list trailing) ++ closing.spaces ≠ [] := by
    have hfirst := (list.first.tight hp).ne_nil
    simp [inside, spaced, hfirst]
  have htext : spaced (inside opening list trailing) ++ closing.spaces =
      opening.spaces ++ (list.first.text ++ (spaced (list.pieces id) ++
        ((trailing.map Gap.spaces).elim [] (· ++ [',']) ++ closing.spaces))) := by
    cases trailing <;> simp [inside, spaced]
  rw [namesOf, hinner, Text.trimWhile_enclosed (by decide) (by decide) hne hparen, htext]
  refine filter_map_bindingName_splitAt hp id list Gap.isSpace_of_mem_spaces
    Gap.isSpace_of_mem_spaces _ ?_
  intro blanks hblanks
  obtain ⟨gap, -, rfl⟩ := Option.map_eq_some_iff.mp hblanks
  exact Gap.isSpace_of_mem_spaces

/-- A list of names without parentheses binds its entries. -/
theorem namesOf_list (list : EntryList Text.isWord LineGap) :
    namesOf (list.first.text ++ spaced (list.pieces LineGap.gap)) =
      list.entries.map Entry.bound := by
  have hp : ∀ c, Text.isWord c = true → isPathChar c = true := fun _ => isPathChar_of_isWord
  have hnone : ∀ d, isPathChar d = false → Text.isSpace d = false → d ≠ ',' →
      d ∉ list.first.text ++ spaced (list.pieces LineGap.gap) := by
    intro d hd hspace hcomma
    rw [List.mem_append, not_or]
    exact ⟨list.first.not_mem_text hp hd hspace, list.not_mem_spaced hp _ hd hspace hcomma⟩
  have hparen := isParen_eq_false (hnone '(' (by decide) (by decide) (by decide))
    (hnone ')' (by decide) (by decide) (by decide))
  have hnothing : ∀ c ∈ ([] : List Char), Text.isSpace c = true := by simp
  have hnames := filter_map_bindingName_splitAt hp LineGap.gap list hnothing hnothing none (by simp)
  rw [namesOf, Text.trimWhile_of_forall hparen]
  simpa using hnames

/-- No line ends in a list without parentheses but behind a backslash. -/
theorem endsLine_of_mem_pieces {p : Char → Bool} (list : EntryList p LineGap) :
    ∀ x ∈ list.pieces LineGap.gap, x.1.endsLine = false := by
  intro x hx
  obtain ⟨⟨before, after, e⟩, -, hx⟩ := List.mem_flatMap.mp hx
  simp only [List.mem_cons, List.not_mem_nil, or_false] at hx
  rcases hx with rfl | rfl
  · exact before.endsLine
  · exact after.endsLine

/-- A list that is not in parentheses has no backslash behind its last entry. -/
theorem slash_not_mem_list {p : Char → Bool} (hp : ∀ c, p c = true → isPathChar c = true)
    (list : EntryList p LineGap) : '\\' ∉ list.first.text ++ spaced (list.pieces LineGap.gap) := by
  rw [List.mem_append, not_or]
  exact ⟨list.first.not_mem_text hp (by decide) (by decide),
    list.not_mem_spaced hp _ (by decide) (by decide) (by decide)⟩

/-- The statement is read from its rows, whatever lines are below. -/
def IsRead (s : ImportText) : Prop :=
  ∃ row rows, s.rows = row :: rows ∧
    ∀ (p : Place) (below : List Line), p.code = row.code →
      p.below.map (·.code) = rows.map Row.code ++ below →
      importsAt p = (s.imports p.number (p.number + rows.length), rows.length)

/-- A plain `import` is read as it was written. -/
theorem isRead_modules (indent : Blanks) (space : Space) (list : EntryList isPathChar LineGap)
    (tail : LineTail) : (modules indent space list tail).IsRead := by
  have hp : ∀ c, isPathChar c = true → isPathChar c = true := fun _ h => h
  have hstop : modulesGoOn (list.first.text ++ spaced (list.pieces LineGap.gap)) = false := by
    rw [modulesGoOn, beq_eq_false_iff_ne]
    intro hlast
    have hmem := (Text.trimEndWhile_isPrefix Text.isSpace _).subset (List.mem_of_getLast? hlast)
    exact slash_not_mem_list hp list hmem
  obtain ⟨row, rows, hrows, hread⟩ := importsAt_layOut_modules (list.first.isPiece hp)
    (list.isPiece_of_mem_pieces hp LineGap.gap) space indent tail
    (endsLine_of_mem_pieces list) hstop
  refine ⟨row, rows, hrows, fun p below hcode hbelow => ?_⟩
  have hnothing : ∀ c ∈ ([] : List Char), Text.isSpace c = true := by simp
  obtain ⟨cells, hcells, hentries⟩ := splitAt_comma_spaced hp LineGap.gap list.others list.first
    hnothing fun front hfront =>
      ⟨[], by simp, by rw [List.append_nil, Text.splitAt_of_not_mem hfront]⟩
  rw [List.nil_append, List.append_nil, List.append_nil] at hcells
  have hmodules := filterMap_fields_cells hp hentries p.number (p.number + rows.length)
  rw [← hcells] at hmodules
  rw [hread p below hcode hbelow]
  exact Prod.ext hmodules rfl

/-- A `from` statement without parentheses is read as it was written. -/
theorem isRead_names (head : FromHead) (list : EntryList Text.isWord LineGap) (tail : LineTail) :
    (names head list tail).IsRead := by
  have hp : ∀ c, Text.isWord c = true → isPathChar c = true := fun _ => isPathChar_of_isWord
  have hstop : namesGoOn (list.first.text ++ spaced (list.pieces LineGap.gap)) = false := by
    obtain ⟨c, cs, hcons, -⟩ := (list.first.tight hp).first
    have hparen : c ≠ '(' := by
      rintro rfl
      exact list.first.not_mem_text hp (by decide) (by decide) (hcons ▸ List.mem_cons_self)
    rw [namesGoOn, Bool.or_eq_false_iff]
    refine ⟨by simp [hcons, hparen], ?_⟩
    rw [beq_eq_false_iff_ne]
    exact fun hlast => slash_not_mem_list hp list (List.mem_of_getLast? hlast)
  obtain ⟨row, rows, hrows, hread⟩ := importsAt_layOut_names (list.first.isPiece hp)
    (list.isPiece_of_mem_pieces hp LineGap.gap) head tail
    (.of_endsLine_eq_false (endsLine_of_mem_pieces list)) hstop
  refine ⟨row, rows, hrows, fun p below hcode hbelow => ?_⟩
  rw [hread p below hcode hbelow, namesOf_list, List.map_map]
  rfl

theorem isPiece_of_mem_parenthesised {opening closing : Gap} {list : EntryList Text.isWord Gap}
    {trailing : Option Gap} :
    ∀ x ∈ inside opening list trailing ++ [(closing, [')'])], IsPiece x.2 := by
  intro x hx
  rcases List.mem_append.mp hx with hx | hx
  · exact isPiece_of_mem_inside x hx
  · rw [List.mem_singleton.mp hx]
    exact isPiece_singleton (by decide) (by decide) (by decide) (by decide)

/-- A `from` statement with parentheses is read as it was written. -/
theorem isRead_parenthesised (head : FromHead) (opening : Gap) (list : EntryList Text.isWord Gap)
    (trailing : Option Gap) (closing : Gap) (tail : LineTail) :
    (parenthesised head opening list trailing closing tail).IsRead := by
  have hstop : namesGoOn (['('] ++ spaced (inside opening list trailing ++
      [(closing, [')'])])) = false := by
    have hend : ['('] ++ spaced (inside opening list trailing ++ [(closing, [')'])]) =
        ('(' :: (spaced (inside opening list trailing) ++ closing.spaces)) ++ [')'] := by
      rw [spaced_append]
      simp [spaced]
    rw [hend, namesGoOn, List.getLast?_concat]
    simp
  have hfirst : IsPiece ['('] :=
    isPiece_singleton (by decide) (by decide) (by decide) (by decide)
  obtain ⟨row, rows, hrows, hread⟩ := importsAt_layOut_names hfirst isPiece_of_mem_parenthesised
    head tail (fun front gap piece back h _ => isOpenList_of_eq_append h) hstop
  refine ⟨row, rows, hrows, fun p below hcode hbelow => ?_⟩
  rw [hread p below hcode hbelow, namesOf_parenthesised, List.map_map]
  rfl

/-- Every import is read as it was written. -/
theorem isRead (s : ImportText) : s.IsRead := by
  cases s with
  | modules indent space list tail => exact isRead_modules indent space list tail
  | names head list tail => exact isRead_names head list tail
  | parenthesised head opening list trailing closing tail =>
    exact isRead_parenthesised head opening list trailing closing tail

/-- No row of a statement opens a literal. -/
theorem closesLiterals_of_mem_rows (s : ImportText) : ∀ row ∈ s.rows, ClosesLiterals row.text := by
  -- the three forms differ in their pieces only
  have hlayOut : ∀ {before first : List Char} {pieces : List (Gap × List Char)} {indent : Blanks}
      {tail : LineTail}, IsPiece (before ++ first) → (∀ x ∈ pieces, IsPiece x.2) →
      ∀ row ∈ layOut indent (before ++ first) tail pieces, ClosesLiterals row.text := by
    intro before first pieces indent tail hfirst hpieces row hrow
    obtain ⟨row', rows', hrows, hpiece, hall⟩ :=
      layOut_texts (fun _ _ h h' => h.append h') (fun _ _ h h' => h.append h') hpieces hfirst
        indent tail
    rw [hrows] at hrow
    rcases List.mem_cons.mp hrow with rfl | hrow
    · exact closesLiterals_of_isBare hpiece.isBare
    · rcases hall row hrow with hnil | hpiece
      · rw [hnil]
        exact closesLiterals_of_isBare (by simp)
      · exact closesLiterals_of_isBare hpiece.isBare
  have hword : ∀ c, Text.isWord c = true → isPathChar c = true := fun _ => isPathChar_of_isWord
  cases s with
  | modules indent space list tail =>
    have hp : ∀ c, isPathChar c = true → isPathChar c = true := fun _ h => h
    refine hlayOut ?_ (list.isPiece_of_mem_pieces hp LineGap.gap)
    rw [List.append_assoc]
    exact (isPiece_of_isPathChar (by decide) (List.all_eq_true.mp (by decide))).append
      (list.first.isPiece hp) space.toBlanks
  | names head list tail =>
    exact hlayOut (head.isPiece_append (list.first.isPiece hword))
      (list.isPiece_of_mem_pieces hword LineGap.gap)
  | parenthesised head opening list trailing closing tail =>
    exact hlayOut (head.isPiece_append (isPiece_singleton (by decide) (by decide) (by decide)
      (by decide))) isPiece_of_mem_parenthesised

end ImportText

/-! ## Statements one after the other -/

/-- The imports of a file of import statements are those that are written, whatever their layouts
are, each with its first and last line. -/
theorem imports_extract (statements : List ImportText) :
    (extract (statements.flatMap fun s => s.rows.map Row.line)).imports =
      ImportText.importsFrom 1 statements := by
  have hlines : (statements.flatMap fun s => s.rows.map Row.line) =
      (statements.flatMap ImportText.rows).map Row.line ++ [] := by
    rw [List.map_flatMap, List.append_nil]
  have hcloses : ∀ row ∈ statements.flatMap ImportText.rows, ClosesLiterals row.text := by
    intro row hrow
    obtain ⟨s, -, hrow⟩ := List.mem_flatMap.mp hrow
    exact s.closesLiterals_of_mem_rows row hrow
  -- one statement is read wherever it stands; the sequence follows by induction over the places
  have hread : ∀ s : ImportText, ∃ row rest, s.rows = row :: rest ∧
      ∀ above below : List SourceLine,
        importsAt ⟨above, row.source, rest.map Row.source ++ below⟩ =
          (s.imports (above.length + 1) (above.length + 1 + s.rows.length - 1), rest.length) := by
    intro s
    obtain ⟨row, rest, hrows, himports⟩ := s.isRead
    refine ⟨row, rest, hrows, fun above below => ?_⟩
    have hcodes : (rest.map Row.source ++ below).map (·.code) =
        rest.map Row.code ++ below.map (·.code) := by
      rw [List.map_append, List.map_map]
      rfl
    have hlast : above.length + 1 + s.rows.length - 1 = above.length + 1 + rest.length := by
      rw [hrows, List.length_cons]
      omega
    rw [hlast]
    exact himports _ _ rfl hcodes
  show readStatements importsAt 0 (placesFrom [] (sourceLines .hash _)) = _
  have hempty : sourceLines .hash [] = [] := rfl
  rw [hlines, sourceLines_map_line hcloses, hempty, List.append_nil]
  exact readStatements_flatMap hread (fun _ => rfl) (fun _ _ _ => rfl) statements []

end SourceSurvey.Extract.Python
