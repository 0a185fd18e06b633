import SourceSurvey.Proofs.Extract.Rule

/-!
# Rules with line breaks anywhere

A line break may stand between any two words of a rule. The lines of the rule are then the pieces of
its text between the breaks, and each line is read by itself. Main statement: a rule is found if words
of its selector stand on the line of its brace, and of its declarations those are read that begin
below this line and have their colon on one line with the property and the front of the value. All of
them are read, with their values, exactly if each begins below the brace, is not broken and has no
other value of its name in front of it on its line.
-/

namespace SourceSurvey.Extract.Css

open Pattern

-- a text is gone through by its own characters, not by all that there are
attribute [local instance (high)] List.decidableBAll

/-! ## Lines on which nothing is read -/

/-- Nothing is declared where no colon stands. -/
theorem matchStart?_of_not_mem {part : List Char} (h : ':' ∉ part) :
    declaration.matchStart? (Text.trim part) = none := by
  rw [Option.eq_none_iff_forall_not_mem]
  intro r hmatch
  obtain ⟨t, rest, htext, -, gap, gap', more, -, -, -, rfl⟩ :=
    declaration_reads.of_matchStart? hmatch
  have hmem : ':' ∈ Text.trim part := by
    rw [htext]
    simp
  exact h (Text.trim_subset part hmem)

/-- Nothing is declared behind a colon without a property. -/
theorem matchStart?_of_isSpace_front {gap rest : List Char}
    (hgap : ∀ c ∈ gap, Text.isSpace c = true) :
    declaration.matchStart? (Text.trim (gap ++ ':' :: rest)) = none := by
  have hstart : Text.trimStart gap = [] := List.dropWhile_eq_nil_iff.mpr hgap
  rw [Text.trim_append_cons (by decide), hstart, Option.eq_none_iff_forall_not_mem]
  intro r hmatch
  obtain ⟨t, rest', htext, hproperty, before, after, more, -, -, -, rfl⟩ :=
    declaration_reads.of_matchStart? hmatch
  obtain ⟨c, cs, hcons⟩ := List.exists_cons_of_ne_nil hproperty.ne_nil
  rw [hcons] at htext
  have hfirst := (List.cons.inj htext).1
  cases (hproperty.chars ':' (by rw [hcons, hfirst]; exact List.mem_cons_self))

/-- Nothing is declared in front of a colon without a value. -/
theorem matchStart?_of_isSpace_behind {front gap : List Char} (hfront : ':' ∉ front)
    (hgap : ∀ c ∈ gap, Text.isSpace c = true) :
    declaration.matchStart? (Text.trim (front ++ ':' :: gap)) = none := by
  have hend : Text.trimEnd gap = [] := by
    have h := Text.trimEndWhile_append_of_pos hgap []
    rwa [List.nil_append] at h
  rw [Text.trim_append_cons (by decide), hend, Option.eq_none_iff_forall_not_mem]
  intro r hmatch
  obtain ⟨t, rest, htext, hproperty, gap', gap'', more, hgap', hgap'', hvalue, rfl⟩ :=
    declaration_reads.of_matchStart? hmatch
  -- the colon that is read is the only one, and a value would stand behind it
  have hnone : ':' ∉ r.1 ++ gap' := by
    rw [List.mem_append, not_or]
    exact ⟨hproperty.not_mem (by decide), Text.not_mem_of_class hgap' (by decide)⟩
  have hnone' : ':' ∉ Text.trimStart front := fun hmem =>
    hfront ((List.dropWhile_sublist _).subset hmem)
  have hsame : Text.trimStart front ++ ':' :: [] =
      (r.1 ++ gap') ++ ':' :: (gap'' ++ (r.2 ++ more) ++ rest) := by
    rw [htext]
    simp
  have hwords := congrArg (Text.beforeFirst ':') hsame
  rw [Text.beforeFirst_append_cons hnone', Text.beforeFirst_append_cons hnone] at hwords
  rw [hwords] at hsame
  have hrest := (List.cons.inj (List.append_cancel_left hsame)).2
  simp [hvalue] at hrest

/-- What is read of a part has its value in the part. -/
theorem mention?_ne_none_of_matchStart? {part : List Char} {r : List Char × List Char}
    (hpart : ∀ c ∈ part, isValueChar c = true)
    (h : declaration.matchStart? (Text.trim part) = some r) : mention? r.1 part ≠ none := by
  obtain ⟨t, rest, htext, hproperty, gap, gap', more, hgap, -, hvalue, rfl⟩ :=
    declaration_reads.of_matchStart? h
  obtain ⟨before, after, hwhole, -⟩ := Text.exists_trim_append part
  have hstands : r.1 ++ (gap ++ ':' :: (gap' ++ (r.2 ++ more) ++ rest)) <:+: part := by
    refine ⟨before, after, ?_⟩
    rw [hwhole, htext]
    simp
  obtain ⟨c, cs, hbehind⟩ := List.exists_cons_of_ne_nil
    (by simp [hvalue] : gap' ++ (r.2 ++ more) ++ rest ≠ [])
  rw [hbehind] at hstands
  intro hnone
  have hread := hproperty.mention?_of_isInfix hnone hstands
  have hfirst : value? (c :: cs) = some (c :: cs.takeWhile isValueChar) := by
    rw [value?_cons, if_pos (hpart c (hstands.subset (by simp)))]
  rw [hproperty.mention?_of_property hproperty.chars hgap hfirst, if_pos (List.suffix_refl _)] at hread
  cases hread

/-! ## Texts read line by line -/

/-- What is read of the rest of a line, which goes on behind a text and a semicolon: a name is found
in the text first. -/
def slotsBehind (ahead line : Line) : List Slot :=
  (Text.splitAt ';' line).filterMap
    (slotOf? fun bound => (mention? bound ahead).or (mention? bound line))

/-- What is read of lines, the first of which goes on behind a text and a semicolon. Without such a
text it is the line of the brace, of which nothing is read. -/
def readLines (ahead : Option Line) : List Line → List Slot
  | [] => []
  | first :: others => ahead.elim [] (slotsBehind · first) ++ others.flatMap slotsIn

/-- What stands on the last line of a text that goes on behind another one. -/
def lineBehind (ahead : Option Line) (text : List Char) : Option Line :=
  if '\n' ∈ text then some (Text.afterLast '\n' text) else ahead.map (· ++ ';' :: text)

/-- The rest of a line without a colon declares nothing. -/
theorem slotsBehind_of_not_mem {line : Line} (h : ':' ∉ line) (ahead : Line) :
    slotsBehind ahead line = [] := by
  rw [slotsBehind, List.filterMap_eq_nil_iff]
  intro part hpart
  have hnone : ':' ∉ part := fun hmem => h (Text.subset_of_mem_splitWhere hpart hmem)
  rw [slotOf?, matchStart?_of_not_mem hnone]
  rfl

/-- With nothing in front of it the rest of a line is a whole line. -/
theorem slotsBehind_nil (line : Line) : slotsBehind [] line = slotsIn line := by
  rw [slotsBehind, slotsIn]
  refine List.filterMap_congr fun part _ => slotOf?_congr (fun bound hbound => ?_) part
  rw [hbound.mention?_nil, Option.none_or]

/-- A line without a colon declares nothing. -/
theorem slotsIn_of_not_mem {line : Line} (h : ':' ∉ line) : slotsIn line = [] := by
  rw [← slotsBehind_nil, slotsBehind_of_not_mem h]

/-- Where two texts meet on a line, the first is read as if it stood alone, and the second behind
it. -/
theorem slotsBehind_append_cons {last first : Line} (hlast : ∀ c ∈ last, isValueChar c = true)
    (ahead : Line) : slotsBehind ahead (last ++ ';' :: first) =
      slotsBehind ahead last ++ slotsBehind (ahead ++ ';' :: last) first := by
  rw [slotsBehind, slotsBehind, slotsBehind, Text.splitAt_append_separator, List.filterMap_append]
  congr 1
  · refine List.filterMap_congr fun part hpart => ?_
    have hmem : ';' ∉ last := fun hmem => by cases hlast ';' hmem
    rw [Text.splitAt_of_not_mem hmem, List.mem_singleton] at hpart
    rw [hpart, slotOf?, slotOf?]
    refine Option.map_congr fun r hread => ?_
    obtain ⟨-, -, -, hproperty, -⟩ := declaration_reads.of_matchStart? hread
    obtain ⟨value, hvalue⟩ := Option.ne_none_iff_exists'.mp
      (mention?_ne_none_of_matchStart? hlast hread)
    rw [hproperty.mention?_append_cons (by decide), hvalue, Option.some_or]
  · refine List.filterMap_congr fun part _ => slotOf?_congr (fun bound hbound => ?_) part
    rw [hbound.mention?_append_cons (by decide), hbound.mention?_append_cons (by decide),
      Option.or_assoc]

/-- A line declares what stands before a semicolon, then what is read behind it. -/
theorem slotsIn_append_cons {last first : Line} (hlast : ∀ c ∈ last, isValueChar c = true) :
    slotsIn (last ++ ';' :: first) = slotsIn last ++ slotsBehind last first := by
  have hsame : slotsBehind ([] ++ ';' :: last) first = slotsBehind last first := by
    rw [slotsBehind, slotsBehind]
    refine List.filterMap_congr fun part _ => slotOf?_congr (fun bound hbound => ?_) part
    rw [hbound.mention?_append_cons (by decide), hbound.mention?_nil, Option.none_or]
  rw [← slotsBehind_nil, slotsBehind_append_cons hlast, slotsBehind_nil, hsame]

/-- Two texts with a semicolon between them are read one after the other, wherever their line breaks
stand. -/
theorem readLines_append_cons {text more : List Char} (htext : ∀ c ∈ text, isValueChar c = true)
    (ahead : Option Line) : readLines ahead (Text.splitAt '\n' (text ++ ';' :: more)) =
      readLines ahead (Text.splitAt '\n' text) ++
        readLines (lineBehind ahead text) (Text.splitAt '\n' more) := by
  obtain ⟨front, last, first, others, hlines, hbehind, hboth⟩ :=
    Text.exists_splitAt_append_cons (by decide : ';' ≠ '\n') text more
  have hmem : last ∈ Text.splitAt '\n' text := hlines ▸ by simp
  have hlast : ∀ c ∈ last, isValueChar c = true := fun c hc =>
    htext c (Text.subset_of_mem_splitWhere hmem hc)
  have hlength := Text.length_splitAt '\n' text
  rw [hlines, List.length_append, List.length_singleton, Nat.add_right_cancel_iff] at hlength
  rw [hboth, hlines, hbehind, lineBehind]
  -- whether the semicolon is on the first line decides what lies ahead of the text behind it
  cases front with
  | nil =>
    have hfeed : '\n' ∉ text := List.count_eq_zero.mp hlength.symm
    rw [Text.splitAt_of_not_mem hfeed] at hlines
    obtain ⟨rfl, -⟩ := List.cons.inj hlines
    rw [if_neg hfeed]
    cases ahead with
    | none => rfl
    | some ahead =>
      show slotsBehind ahead (text ++ ';' :: first) ++ others.flatMap slotsIn = _
      rw [slotsBehind_append_cons hlast, List.append_assoc]
      exact congrArg (· ++ _) (List.append_nil _).symm
  | cons line lines =>
    have hfeed : '\n' ∈ text := List.count_pos_iff.mp (hlength ▸ Nat.succ_pos _)
    have hbelow : Text.afterLast '\n' text = last := by
      rw [Text.afterLast, hlines, List.getLast?_concat, Option.getD_some]
    rw [if_pos hfeed, hbelow, List.cons_append, List.cons_append]
    simp only [readLines, List.flatMap_append, List.flatMap_cons, List.flatMap_nil,
      slotsIn_append_cons hlast, List.append_assoc, List.append_nil, Option.elim_some]

/-! ## Declarations over several lines -/

namespace Declaration

variable (d : Declaration)

/-- The colon stands on one line with the property and with the front of the value. -/
def IsJoined : Prop :=
  '\n' ∉ d.beforeColon ∧ '\n' ∉ d.afterColon

instance : DecidablePred IsJoined := fun d =>
  inferInstanceAs (Decidable ('\n' ∉ d.beforeColon ∧ '\n' ∉ d.afterColon))

/-- What stands of the value on its first line. -/
def shown : List Char :=
  Text.trim (Text.beforeFirst '\n' (d.value ++ d.after))

/-- No line on which the value goes on, or on which it begins alone, has a colon. -/
def IsClear : Prop :=
  '\n' ∈ d.afterColon ∨ '\n' ∈ d.value → ':' ∉ d.value

instance : DecidablePred IsClear := fun d =>
  inferInstanceAs (Decidable ('\n' ∈ d.afterColon ∨ '\n' ∈ d.value → ':' ∉ d.value))

/-- What is shown of a value is on one line. -/
theorem not_mem_shown : '\n' ∉ d.shown := fun hmem =>
  Text.not_mem_beforeFirst '\n' _ (Text.trim_subset _ hmem)

/-- What is shown of a value is a value. -/
theorem isValue_shown : IsValue d.shown := by
  obtain ⟨c, cs, hvalue, hc⟩ := d.isValue.tight.first
  have hfirst : c ∈ Text.beforeFirst '\n' (d.value ++ d.after) := by
    have hne : c ≠ '\n' := fun heq => by
      rw [heq] at hc
      cases hc
    rw [hvalue, List.cons_append, Text.beforeFirst, List.takeWhile_cons_of_pos (by simpa using hne)]
    exact List.mem_cons_self
  refine ⟨Text.tight_trim hfirst hc, fun c hc => ?_⟩
  have hmem : c ∈ d.value ++ d.after :=
    (List.takeWhile_sublist _).subset (Text.trim_subset _ hc)
  rcases List.mem_append.mp hmem with hmem | hmem
  · exact d.isValue.chars c hmem
  · exact ⟨isValueChar_of_isSpace (d.isSpace_after c hmem),
      Text.ne_of_class (d.isSpace_after c hmem) (by decide)⟩

/-- A value is shown whole when it is on one line. -/
theorem shown_eq_value_iff : d.shown = d.value ↔ '\n' ∉ d.value := by
  refine ⟨fun h => h ▸ d.not_mem_shown, fun h => ?_⟩
  have hfirst : Text.beforeFirst '\n' (d.value ++ d.after) =
      d.value ++ Text.beforeFirst '\n' d.after :=
    List.takeWhile_append_of_pos fun c hc => by simpa using ne_of_mem_of_not_mem hc h
  rw [shown, hfirst]
  exact d.isValue.tight.trim_append fun c hc =>
    d.isSpace_after c ((List.takeWhile_sublist _).subset hc)

/-- A declaration is what stands before its colon and behind it. -/
theorem text_eq_append_colon :
    d.text = d.before ++ (d.property ++ d.beforeColon) ++ ':' :: d.behindColon := by
  simp [text]

section Lines

variable {front rest : List Line} {last first : Line}
  (hfront : Text.splitAt '\n' (d.before ++ (d.property ++ d.beforeColon)) = front ++ [last])
  (hrest : Text.splitAt '\n' d.behindColon = first :: rest)

/-- There is no colon before the one of the declaration. -/
theorem colon_not_mem_property : ':' ∉ d.before ++ (d.property ++ d.beforeColon) := by
  simp [Text.not_mem_of_class d.isSpace_before (by decide : Text.isSpace ':' = false),
    Text.not_mem_of_class d.isSpace_beforeColon (by decide : Text.isSpace ':' = false),
    d.isProperty.not_mem (by decide : isPropertyChar ':' = false)]

include hfront in
/-- The lines before the colon have none. -/
theorem not_mem_of_mem_front : ∀ line ∈ front ++ [last], ':' ∉ line := fun _ hline hmem =>
  d.colon_not_mem_property (Text.subset_of_mem_splitWhere (hfront ▸ hline) hmem)

include hrest in
/-- The lines below the one of the colon have none, if the value is clear. -/
theorem not_mem_of_mem_rest (hclear : d.IsClear) : ∀ line ∈ rest, ':' ∉ line := by
  intro line hline
  by_cases hbroken : '\n' ∈ d.afterColon ∨ '\n' ∈ d.value
  · have hmem : line ∈ Text.splitAt '\n' d.behindColon := hrest ▸ List.mem_cons_of_mem first hline
    refine fun hcolon => absurd (Text.subset_of_mem_splitWhere hmem hcolon) ?_
    simp [behindColon, hclear hbroken,
      Text.not_mem_of_class d.isSpace_afterColon (by decide : Text.isSpace ':' = false),
      Text.not_mem_of_class d.isSpace_after (by decide : Text.isSpace ':' = false)]
  -- only blanks stand below the line of the value
  · have hfeed : '\n' ∉ d.afterColon ++ d.value := by simpa using hbroken
    obtain ⟨front', last', first', others, hlines, hafter, hboth⟩ :=
      Text.exists_splitAt_append '\n' (d.afterColon ++ d.value) d.after
    rw [Text.splitAt_of_not_mem hfeed] at hlines
    rw [List.append_assoc, ← behindColon, hrest] at hboth
    cases front' with
    | cons l ls => simp at hlines
    | nil =>
      obtain ⟨-, rfl⟩ := List.cons.inj hboth
      have hmem : line ∈ Text.splitAt '\n' d.after := hafter ▸ List.mem_cons_of_mem first' hline
      exact fun hcolon => Text.not_mem_of_class d.isSpace_after (by decide)
        (Text.subset_of_mem_splitWhere hmem hcolon)

include hfront hrest in
/-- On the line of its colon a declaration that is joined there is read, with what that line shows
of the value. -/
theorem exists_text_eq_of_isJoined (h : d.IsJoined) :
    ∃ d' : Declaration, d'.text = last ++ ':' :: first ∧ d'.property = d.property ∧
      d'.value = d.shown := by
  obtain ⟨hbefore, hafter⟩ := h
  obtain ⟨front', last', first', others, hlines, hproperty, hboth⟩ :=
    Text.exists_splitAt_append '\n' d.before (d.property ++ d.beforeColon)
  have hword : '\n' ∉ d.property ++ d.beforeColon := by
    simp [hbefore, d.isProperty.not_mem (by decide : isPropertyChar '\n' = false)]
  rw [Text.splitAt_of_not_mem hword] at hproperty
  obtain ⟨rfl, rfl⟩ := List.cons.inj hproperty
  rw [hboth] at hfront
  obtain ⟨-, hlast⟩ := List.append_inj' hfront rfl
  obtain ⟨rfl, -⟩ := List.cons.inj hlast
  have hfirst : first = d.afterColon ++ Text.beforeFirst '\n' (d.value ++ d.after) := by
    obtain ⟨others', hothers⟩ := Text.splitAt_eq_beforeFirst_cons '\n' d.behindColon
    rw [hrest] at hothers
    rw [(List.cons.inj hothers).1, behindColon]
    exact List.takeWhile_append_of_pos fun c hc => by simpa using ne_of_mem_of_not_mem hc hafter
  obtain ⟨before, after, hvalue, hspace, hspace', -⟩ :=
    Text.exists_trim_append (Text.beforeFirst '\n' (d.value ++ d.after))
  have hmem : last' ∈ Text.splitAt '\n' d.before := hlines ▸ by simp
  -- its blanks are what the line has of the old ones, and what is trimmed off the value
  refine ⟨⟨last', d.property, d.beforeColon, d.afterColon ++ before, d.shown, after, ?_, d.isProperty,
    d.isValue_shown⟩, ?_, rfl, rfl⟩
  · simp only [List.forall_mem_cons, List.forall_mem_append]
    exact ⟨fun c hc => d.isSpace_before c (Text.subset_of_mem_splitWhere hmem hc),
      d.isSpace_beforeColon, ⟨d.isSpace_afterColon, hspace⟩, hspace',
      List.forall_mem_nil _⟩
  · rw [hfirst, hvalue]
    simp [text, behindColon, shown]

include hfront hrest in
/-- On the line of its colon nothing is read of a declaration that is not joined there. -/
theorem matchStart?_of_not_isJoined (h : ¬ d.IsJoined) :
    declaration.matchStart? (Text.trim (last ++ ':' :: first)) = none := by
  by_cases hbefore : '\n' ∈ d.beforeColon
  -- the property stands above the colon
  · refine matchStart?_of_isSpace_front fun c hc => ?_
    obtain ⟨front', last', first', others, hlines, hcolon, hboth⟩ :=
      Text.exists_splitAt_append '\n' (d.before ++ d.property) d.beforeColon
    have hlength := Text.length_splitAt '\n' d.beforeColon
    have hcount := List.count_pos_iff.mpr hbefore
    rw [List.append_assoc, hfront] at hboth
    cases others using List.reverseRecOn with
    | nil =>
      rw [hcolon, List.length_singleton] at hlength
      omega
    | append_singleton lines line =>
      rw [← List.cons_append, ← List.append_assoc] at hboth
      obtain ⟨-, hlast⟩ := List.append_inj' hboth rfl
      obtain ⟨rfl, -⟩ := List.cons.inj hlast
      have hmem : last ∈ Text.splitAt '\n' d.beforeColon := hcolon ▸ by simp
      exact d.isSpace_beforeColon c (Text.subset_of_mem_splitWhere hmem hc)
  -- the value stands below the colon
  · have hafter : '\n' ∈ d.afterColon := by
      by_contra hafter
      exact h ⟨hbefore, hafter⟩
    have hlast : ':' ∉ last := d.not_mem_of_mem_front hfront last (by simp)
    refine matchStart?_of_isSpace_behind hlast fun c hc => ?_
    obtain ⟨front', last', first', others, hlines, -, hboth⟩ :=
      Text.exists_splitAt_append '\n' d.afterColon (d.value ++ d.after)
    have hlength := Text.length_splitAt '\n' d.afterColon
    have hcount := List.count_pos_iff.mpr hafter
    rw [← behindColon, hrest] at hboth
    cases front' with
    | nil =>
      rw [hlines, List.length_append, List.length_nil, List.length_singleton] at hlength
      omega
    | cons line lines =>
      obtain ⟨rfl, -⟩ := List.cons.inj hboth
      have hmem : first ∈ Text.splitAt '\n' d.afterColon := hlines ▸ by simp
      exact d.isSpace_afterColon c (Text.subset_of_mem_splitWhere hmem hc)

include hfront hrest

/-- The lines of a declaration are those before its colon, the one with it and those below. -/
theorem splitAt_text : Text.splitAt '\n' d.text = front ++ (last ++ ':' :: first) :: rest := by
  obtain ⟨front', last', first', rest', hfront', hrest', htext⟩ := Text.exists_splitAt_append_cons
    (by decide : ':' ≠ '\n') (d.before ++ (d.property ++ d.beforeColon)) d.behindColon
  obtain ⟨rfl, hlast⟩ := List.append_inj' (hfront.symm.trans hfront') rfl
  obtain ⟨rfl, -⟩ := List.cons.inj hlast
  obtain ⟨rfl, rfl⟩ := List.cons.inj (hrest.symm.trans hrest')
  rw [d.text_eq_append_colon, htext]

/-- What is read on the line of the colon, if it goes on behind a text. -/
theorem slotsBehind_colonLine (ahead : Line) : slotsBehind ahead (last ++ ':' :: first) =
    if d.IsJoined then [slot d.property ((mention? d.property ahead).getD d.shown)] else [] := by
  have hmem : last ++ ':' :: first ∈ Text.splitAt '\n' d.text := by
    simp [d.splitAt_text hfront hrest]
  have hsemicolon : ';' ∉ last ++ ':' :: first := fun h =>
    d.not_mem_text_of_sign (by decide) (Text.subset_of_mem_splitWhere hmem h)
  rw [slotsBehind, Text.splitAt_of_not_mem hsemicolon, List.filterMap_cons, List.filterMap_nil]
  by_cases hjoined : d.IsJoined
  · obtain ⟨d', hline, hproperty, hvalue⟩ := d.exists_text_eq_of_isJoined hfront hrest hjoined
    have hfeed : '\n' ∉ d'.value := hvalue ▸ d.not_mem_shown
    have hown : mention? d.property d'.text = some d.shown := by
      rw [d'.mention?_text d.isProperty, readFor, hproperty, if_pos (List.suffix_refl _), hvalue]
    rw [if_pos hjoined, ← hline, d'.slotOf?_text hfeed, hproperty, hown]
    cases mention? d.property ahead <;> rfl
  · rw [if_neg hjoined, slotOf?, d.matchStart?_of_not_isJoined hfront hrest hjoined]
    rfl

omit hrest in
/-- The colon stands on the first line if nothing is broken in front of it. -/
theorem front_eq_nil_iff : front = [] ↔ '\n' ∉ d.before ∧ '\n' ∉ d.beforeColon := by
  have hlength := Text.length_splitAt '\n' (d.before ++ (d.property ++ d.beforeColon))
  have hproperty := List.count_eq_zero.mpr
    (d.isProperty.not_mem (by decide : isPropertyChar '\n' = false))
  rw [hfront, List.length_append, List.length_singleton, Nat.add_right_cancel_iff,
    List.count_append, List.count_append, hproperty] at hlength
  rw [← List.length_eq_zero_iff, hlength, ← List.count_eq_zero, ← List.count_eq_zero]
  omega

/-- The line of the colon is the only one on which something is read. -/
theorem readLines_splitAt_text (hclear : d.IsClear) (ahead : Option Line) :
    readLines ahead (Text.splitAt '\n' d.text) =
      if front = [] then ahead.elim [] (slotsBehind · (last ++ ':' :: first))
      else slotsIn (last ++ ':' :: first) := by
  have hnone : ∀ {lines : List Line}, (∀ line ∈ lines, ':' ∉ line) → lines.flatMap slotsIn = [] :=
    fun hlines => List.flatMap_eq_nil_iff.mpr fun line hline => slotsIn_of_not_mem (hlines line hline)
  have habove : ∀ line ∈ front, ':' ∉ line := fun line hline =>
    d.not_mem_of_mem_front hfront line (List.mem_append_left _ hline)
  have hunder := hnone (d.not_mem_of_mem_rest hrest hclear)
  rw [d.splitAt_text hfront hrest]
  cases front with
  | nil =>
    rw [if_pos rfl, List.nil_append, readLines, hunder, List.append_nil]
  | cons line lines =>
    rw [List.forall_mem_cons] at habove
    have hfirst : ahead.elim [] (slotsBehind · line) = [] := by
      cases ahead with
      | none => rfl
      | some ahead => exact slotsBehind_of_not_mem habove.1 ahead
    rw [if_neg (List.cons_ne_nil line lines), List.cons_append, readLines, hfirst,
      List.flatMap_append, List.flatMap_cons, hnone habove.2, hunder, List.append_nil]
    rfl

end Lines

end Declaration

/-- A declaration with what stands in front of it on the line on which it begins; nothing is given
if this is the line of the brace. -/
structure Placed where
  ahead : Option Line
  declaration : Declaration

namespace Placed

variable {p : Placed}

/-- What is read of a declaration, if it begins below the line of the brace and is joined: the value
is that of a mention in front of it, or else what is shown of its own. -/
def read? (p : Placed) : Option Slot :=
  if p.declaration.IsJoined then p.ahead.map fun ahead =>
    slot p.declaration.property ((mention? p.declaration.property ahead).getD p.declaration.shown)
  else none

/-- The declaration begins below the line of the brace, it is joined and its value is not broken,
and no other value stands behind a mention of its name in front of it on its line. -/
structure IsKept (p : Placed) : Prop where
  joined : p.declaration.IsJoined
  unbroken : '\n' ∉ p.declaration.value
  own : p.ahead.map (fun ahead => (mention? p.declaration.property ahead).getD p.declaration.value) =
    some p.declaration.value

instance : DecidablePred IsKept := fun p =>
  decidable_of_iff (p.declaration.IsJoined ∧ '\n' ∉ p.declaration.value ∧
      p.ahead.map (fun ahead => (mention? p.declaration.property ahead).getD p.declaration.value) =
        some p.declaration.value)
    ⟨fun h => ⟨h.1, h.2.1, h.2.2⟩, fun h => ⟨h.joined, h.unbroken, h.own⟩⟩

/-- A declaration is read with its value exactly if it is kept. -/
theorem read?_eq_some_iff (hahead : ∀ ahead ∈ p.ahead, '\n' ∉ ahead) :
    p.read? = some (slot p.declaration.property p.declaration.value) ↔ p.IsKept := by
  obtain ⟨ahead, d⟩ := p
  rw [read?]
  by_cases hjoined : d.IsJoined
  · rw [if_pos hjoined]
    cases ahead with
    | none => exact iff_of_false (Option.some_ne_none _).symm fun h => Option.some_ne_none _ h.own.symm
    | some ahead =>
      rw [Option.map_some, Option.some_inj, slot_inj]
      constructor
      · intro hvalue
        -- neither the line in front nor the first line of the value has a line break
        have hfeed : '\n' ∉ d.value := by
          rw [← hvalue]
          cases hmention : mention? d.property ahead with
          | none => exact d.not_mem_shown
          | some value => exact fun hmem => hahead ahead rfl (mention?_subset hmention hmem)
        refine ⟨hjoined, hfeed, ?_⟩
        rwa [d.shown_eq_value_iff.mpr hfeed, ← Option.some_inj] at hvalue
      · intro h
        rw [d.shown_eq_value_iff.mpr h.unbroken]
        exact Option.some_inj.mp h.own
  · rw [if_neg hjoined]
    exact iff_of_false (Option.some_ne_none _).symm fun h => hjoined h.joined

end Placed

/-- The place of a declaration in a text that goes on behind another one. -/
def Declaration.place (d : Declaration) (ahead : Option Line) : Placed :=
  ⟨if '\n' ∈ d.before then some [] else ahead, d⟩

/-- Of a declaration over lines the property is read if the colon joins it to its value. -/
theorem Declaration.readLines_text (d : Declaration) (hclear : d.IsClear) (ahead : Option Line) :
    readLines ahead (Text.splitAt '\n' d.text) = (d.place ahead).read?.toList := by
  obtain ⟨front, last, first, rest, hfront, hrest, -⟩ := Text.exists_splitAt_append_cons
    (by decide : ':' ≠ '\n') (d.before ++ (d.property ++ d.beforeColon)) d.behindColon
  have hcolon := d.slotsBehind_colonLine hfront hrest
  rw [d.readLines_splitAt_text hfront hrest hclear, ← slotsBehind_nil, Placed.read?, place]
  by_cases hjoined : d.IsJoined
  · have hfirst : front = [] ↔ '\n' ∉ d.before :=
      (d.front_eq_nil_iff hfront).trans (and_iff_left hjoined.1)
    by_cases hbefore : '\n' ∈ d.before
    · rw [if_neg fun h => hfirst.mp h hbefore, hcolon, if_pos hjoined, if_pos hjoined,
        if_pos hbefore]
      rfl
    · rw [if_pos (hfirst.mpr hbefore), if_pos hjoined, if_neg hbefore]
      cases ahead with
      | none => rfl
      | some ahead => exact (hcolon ahead).trans (if_pos hjoined)
  · have hnone : ∀ ahead, slotsBehind ahead (last ++ ':' :: first) = [] := fun ahead =>
      (hcolon ahead).trans (if_neg hjoined)
    rw [if_neg hjoined, hnone]
    cases ahead with
    | none => exact ite_self _
    | some ahead => exact (if_congr Iff.rfl (hnone ahead) rfl).trans (ite_self _)

/-! ## Rows over several lines -/

namespace Cell

/-- The declarations of a row with their places, where the row goes on behind a text. -/
def placed (ahead : Option Line) : List Cell → List Placed
  | [] => []
  | cell :: cells =>
    cell.declaration?.toList.map (·.place ahead) ++ placed (lineBehind ahead cell.text) cells

/-- The placed declarations of a row are its declarations. -/
theorem map_declaration_placed (ahead : Option Line) (cells : List Cell) :
    (placed ahead cells).map Placed.declaration = declarations cells := by
  induction cells generalizing ahead with
  | nil => rfl
  | cons cell cells ih =>
    rw [placed, List.map_append, ih]
    cases cell <;> rfl

/-- What stands in front of a declaration stands on one line. -/
theorem no_feed_of_mem_placed {ahead : Option Line} (hahead : ∀ line ∈ ahead, '\n' ∉ line)
    {cells : List Cell} : ∀ p ∈ placed ahead cells, ∀ line ∈ p.ahead, '\n' ∉ line := by
  induction cells generalizing ahead with
  | nil => exact fun p hp => absurd hp List.not_mem_nil
  | cons cell cells ih =>
    rw [placed, List.forall_mem_append]
    constructor
    · intro p hp line hline
      obtain ⟨d, -, rfl⟩ := List.mem_map.mp hp
      by_cases hbefore : '\n' ∈ d.before
      · rw [Declaration.place, if_pos hbefore] at hline
        rw [← Option.some.inj hline]
        exact List.not_mem_nil
      · rw [Declaration.place, if_neg hbefore] at hline
        exact hahead line hline
    · refine ih fun line hline => ?_
      rw [lineBehind] at hline
      split at hline
      · rw [← Option.some.inj hline]
        exact Text.not_mem_afterLast '\n' cell.text
      · next hfeed =>
        obtain ⟨front, hfront, rfl⟩ := Option.map_eq_some_iff.mp hline
        simp [hahead front hfront, hfeed]

/-- What is read of one cell. -/
theorem readLines_text (cell : Cell) (hclear : ∀ d ∈ cell.declaration?, d.IsClear)
    (ahead : Option Line) : readLines ahead (Text.splitAt '\n' cell.text) =
      (cell.declaration?.toList.map (·.place ahead)).filterMap Placed.read? := by
  cases cell with
  | blank gap hgap =>
    have hcolon : ∀ line ∈ Text.splitAt '\n' gap, ':' ∉ line := fun line hline hmem =>
      Text.not_mem_of_class hgap (by decide) (Text.subset_of_mem_splitWhere hline hmem)
    obtain ⟨others, hlines⟩ := Text.splitAt_eq_beforeFirst_cons '\n' gap
    rw [hlines, List.forall_mem_cons] at hcolon
    have hothers : others.flatMap slotsIn = [] :=
      List.flatMap_eq_nil_iff.mpr fun line hline => slotsIn_of_not_mem (hcolon.2 line hline)
    rw [text, hlines, readLines, hothers, List.append_nil]
    cases ahead with
    | none => rfl
    | some ahead => exact slotsBehind_of_not_mem hcolon.1 ahead
  | declared d =>
    show readLines ahead (Text.splitAt '\n' d.text) = [d.place ahead].filterMap Placed.read?
    rw [d.readLines_text (hclear d rfl), List.filterMap_cons, List.filterMap_nil]
    cases (d.place ahead).read? <;> rfl

/-- All that stands between two semicolons could be read as a value. -/
theorem isValueChar_of_mem_text (cell : Cell) : ∀ c ∈ cell.text, isValueChar c = true := by
  intro c hc
  rw [isValueChar, Bool.and_eq_true, bne_iff_ne, bne_iff_ne]
  constructor <;> rintro rfl <;> exact cell.not_mem_text_of_sign (by decide) hc

/-- A row is read as its cells are. -/
theorem readLines_row {cells : List Cell} (hclear : ∀ d ∈ declarations cells, d.IsClear)
    (ahead : Option Line) : readLines ahead (Text.splitAt '\n' (row cells)) =
      (placed ahead cells).filterMap Placed.read? := by
  induction cells generalizing ahead with
  | nil => cases ahead <;> rfl
  | cons cell cells ih =>
    have hcell : ∀ d ∈ cell.declaration?, d.IsClear := fun d hd =>
      hclear d (List.mem_filterMap.mpr ⟨cell, List.mem_cons_self, hd⟩)
    have hcells : ∀ d ∈ declarations cells, d.IsClear := by
      intro d hd
      obtain ⟨c, hc, hd⟩ := List.mem_filterMap.mp hd
      exact hclear d (List.mem_filterMap.mpr ⟨c, List.mem_cons_of_mem cell hc, hd⟩)
    rw [placed, List.filterMap_append, ← cell.readLines_text hcell, ← ih hcells]
    cases cells with
    | nil =>
      have hnone : ∀ ahead, readLines ahead (Text.splitAt '\n' (row [])) = [] := fun ahead => by
        cases ahead <;> rfl
      rw [row_singleton, hnone, List.append_nil]
    | cons next cells =>
      rw [row_cons_cons]
      exact readLines_append_cons cell.isValueChar_of_mem_text ahead

end Cell

/-! ## Rules over several lines -/

/-- Line breaks do not move a scan for a closing brace. -/
theorem scan_splitAt (text : List Char) (s : BraceScan) :
    s.scan (Text.splitAt '\n' text) = s.line text := by
  induction text using Text.induction_at_separator '\n' generalizing s with
  | piece text hmem => rw [Text.splitAt_of_not_mem hmem, BraceScan.scan_cons, BraceScan.scan_nil]
  | cut front rest hmem ih =>
    have hfeed : ∀ c ∈ ['\n'], Text.isSpace c = true := by decide
    rw [Text.splitAt_append_cons hmem, BraceScan.scan_cons, ih, ← List.singleton_append,
      BraceScan.line_append, BraceScan.line_append, BraceScan.line_of_isSpace hfeed]

/-- A part of a plain line is plain. -/
theorem IsPlain.of_isInfix {text line : Line} (h : IsPlain text) (hline : line <:+: text) :
    IsPlain line :=
  ⟨fun c hc => h.no_quote c (hline.subset hc), fun hin => h.no_comment (hin.trans hline)⟩

/-- A rule with line breaks between any words of it. Its last line ends with its closing brace. -/
structure LooseRule where
  front : List Char
  cells : List Cell
  trail : Line
  isSelectorChar_front : ∀ c ∈ front, isSelectorChar c = true
  isSpace_trail : ∀ c ∈ trail, Text.isSpace c = true
  no_feed_trail : '\n' ∉ trail
  isPlain : IsPlain (front ++ '\x7b' :: (Cell.row cells ++ '\x7d' :: trail))
  parens_front : (BraceScan.start.line (Text.afterLast '\n' front)).parens = 0
  parens_cells : (BraceScan.start.line (Cell.row cells)).parens = 0
  isClear : ∀ d ∈ Cell.declarations cells, d.IsClear

namespace LooseRule

variable (r : LooseRule)

def text : List Char :=
  r.front ++ '\x7b' :: (Cell.row r.cells ++ '\x7d' :: r.trail)

def lines : List Line :=
  Text.splitAt '\n' r.text

/-- What stands in front of the opening brace on its line. -/
def selectorLine : Line :=
  Text.afterLast '\n' r.front

/-- The lines of a rule are those of its selector and those of its declarations, with the braces
where they meet. -/
theorem exists_lines_eq : ∃ lead front last,
    Text.splitAt '\n' r.front = lead ++ [r.selectorLine] ∧
    Text.splitAt '\n' (Cell.row r.cells) = front ++ [last] ∧
    r.lines = lead ++ match front with
      | [] => [r.selectorLine ++ '\x7b' :: (last ++ '\x7d' :: r.trail)]
      | first :: body =>
        (r.selectorLine ++ '\x7b' :: first) :: (body ++ [last ++ '\x7d' :: r.trail]) := by
  obtain ⟨front, last, trail, others, hcells, htrail, hinside⟩ := Text.exists_splitAt_append_cons
    (by decide : '\x7d' ≠ '\n') (Cell.row r.cells) r.trail
  rw [Text.splitAt_of_not_mem r.no_feed_trail] at htrail
  obtain ⟨rfl, rfl⟩ := List.cons.inj htrail
  obtain ⟨lead, selector, first, body, hfront, hfirst, hlines⟩ := Text.exists_splitAt_append_cons
    (by decide : '\x7b' ≠ '\n') r.front (Cell.row r.cells ++ '\x7d' :: r.trail)
  have hselector : r.selectorLine = selector := by
    rw [selectorLine, Text.afterLast, hfront, List.getLast?_concat, Option.getD_some]
  rw [hselector]
  refine ⟨lead, front, last, hfront, hcells, hlines.trans ?_⟩
  rw [hinside] at hfirst
  cases front with
  | nil =>
    obtain ⟨rfl, rfl⟩ := List.cons.inj hfirst
    rfl
  | cons line lines =>
    obtain ⟨rfl, rfl⟩ := List.cons.inj hfirst
    rfl

/-- The attributes that the declarations of the rule declare. -/
def declared : List Slot :=
  Cell.slots r.cells

/-- The attributes that are read. Of what stands on the line of the brace nothing is. -/
def readSlots : List Slot :=
  (Cell.placed none r.cells).filterMap Placed.read?

/-- A rule declares one type with what is read on its lines, or none if no word of the selector
stands on the line of the brace. -/
theorem typesWithin_lines {before : List Line}
    (hbefore : CommentRules.stylesheet.regionAfter .code before = .code) (after : List Line) :
    typesWithin before r.lines after = if Text.isBlank r.selectorLine then []
      else [ruleBehind r.selectorLine r.readSlots (before.length + r.front.count '\n' + 1)] := by
  obtain ⟨lead, front, last, hfront, hcells, hlines⟩ := r.exists_lines_eq
  have hplain : ∀ line ∈ r.lines, IsPlain line := fun line hline =>
    r.isPlain.of_isInfix (Text.isInfix_of_mem_splitAt hline)
  have hselector : ∀ line ∈ lead ++ [r.selectorLine], ∀ c ∈ line, isSelectorChar c = true :=
    fun line hline c hc =>
      r.isSelectorChar_front c (Text.subset_of_mem_splitWhere (hfront ▸ hline) hc)
  have hlead : ∀ line ∈ lead, IsPlain line ∧ '\x7b' ∉ line := fun line hline =>
    ⟨hplain line (hlines ▸ List.mem_append_left _ hline),
      (braceless_of_isSelectorChar (hselector line (List.mem_append_left _ hline))).no_opening⟩
  have hchars : ∀ c ∈ r.selectorLine, isSelectorChar c = true := hselector _ (by simp)
  have hbraceless : ∀ line ∈ front ++ [last], Braceless line := fun line hline =>
    (Cell.braceless_row r.cells).of_subset (Text.subset_of_mem_splitWhere (hcells ▸ hline))
  have hbody : ∀ line ∈ front, Braceless line := fun line hline =>
    hbraceless line (List.mem_append_left _ hline)
  have hlast : Braceless last := hbraceless last (by simp)
  have hparens := r.parens_cells
  rw [← scan_splitAt, hcells] at hparens
  have hlength := Text.length_splitAt '\n' r.front
  rw [hfront, List.length_append, List.length_singleton, Nat.add_right_cancel_iff] at hlength
  have hread := Cell.readLines_row r.isClear none
  rw [hcells] at hread
  rw [readSlots, ← hread, ← hlength]
  -- the rule closes on the line of its brace or on one below it
  cases front with
  | nil =>
    have hheader :=
      stripLine_of_isPlain (hplain _ (hlines ▸ List.mem_append_right _ List.mem_cons_self))
    rw [hlines]
    exact typesWithin_closed hbefore hlead hchars r.parens_front hlast r.isSpace_trail hheader rfl
      hparens after
  | cons first body =>
    rw [List.forall_mem_cons] at hbody
    have hheader :=
      stripLine_of_isPlain (hplain _ (hlines ▸ List.mem_append_right _ List.mem_cons_self))
    have hmem : ∀ line ∈ body ++ [last ++ '\x7d' :: r.trail], IsPlain line := fun line hline =>
      hplain line (hlines ▸ List.mem_append_right _ (List.mem_cons_of_mem _ hline))
    rw [List.forall_mem_append, List.forall_mem_singleton] at hmem
    rw [hlines]
    exact typesWithin_opening hbefore hlead hchars r.parens_front hbody.1 r.isSpace_trail hheader rfl
      (fun line hline => ⟨hmem.1 line hline, hbody.2 line hline⟩) hlast hmem.2 hparens after

/-- Words of the selector stand on the line of the brace, and every declaration is kept. -/
structure IsKept : Prop where
  selector : Text.isBlank r.selectorLine = false
  declarations : ∀ p ∈ Cell.placed none r.cells, p.IsKept

/-- What is read is what was declared when every declaration is kept. -/
theorem readSlots_eq_declared_iff :
    r.readSlots = r.declared ↔ ∀ p ∈ Cell.placed none r.cells, p.IsKept := by
  have hnone : ∀ line ∈ (none : Option Line), '\n' ∉ line := fun line hline => by cases hline
  rw [readSlots, declared, Cell.slots, ← Cell.map_declaration_placed none, List.map_map,
    List.filterMap_eq_map_iff_forall_eq_some]
  exact forall₂_congr fun p hp => p.read?_eq_some_iff (Cell.no_feed_of_mem_placed hnone p hp)

/-- Wherever the line breaks of a rule stand, it is found by the line of its brace, and of its
declarations those are read that begin below this line and have their colon on one line with the
property and with the front of the value; what is read of the value ends with the line, or is that
of an earlier mention of the name on it. So the rule is one type with all its declarations exactly
if these begin below the brace, none of them is broken and no name has another value in front of it.
-/
theorem types_of_lines {before : List Line}
    (hbefore : CommentRules.stylesheet.regionAfter .code before = .code) (after : List Line) :
    typesWithin before r.lines after = (if Text.isBlank r.selectorLine then []
        else [ruleBehind r.selectorLine r.readSlots (before.length + r.front.count '\n' + 1)]) ∧
      ((∃ t, typesWithin before r.lines after = [t] ∧ t.attributes = r.declared) ↔ r.IsKept) := by
  have htypes := r.typesWithin_lines hbefore after
  refine ⟨htypes, ?_⟩
  rw [htypes]
  cases hblank : Text.isBlank r.selectorLine with
  | true =>
    refine iff_of_false (fun h => ?_) fun h => ?_
    · obtain ⟨t, ht, -⟩ := h
      cases ht
    · rw [h.selector] at hblank
      cases hblank
  | false =>
    refine ⟨fun h => ?_, fun h => ⟨_, rfl, r.readSlots_eq_declared_iff.mpr h.declarations⟩⟩
    obtain ⟨t, ht, hattributes⟩ := h
    obtain ⟨rfl, -⟩ := List.cons.inj ht
    exact ⟨hblank, r.readSlots_eq_declared_iff.mp hattributes⟩

/-! Two rules: one with its selector on two lines and its last declaration in front of the closing
brace, and one on one line, `a \x7b color: red; \x7d`. -/

def navigation : LooseRule where
  front := "nav,\na ".toList
  cells :=
    [.declared (.spaced "\n  ".toList "color".toList "red".toList [] (by decide)
        Block.isProperty_color Block.isValue_red),
      .declared (.spaced "\n  ".toList "margin".toList "0 auto".toList [' '] (by decide)
        Block.isProperty_margin Block.isValue_auto)]
  trail := []
  isSelectorChar_front := by decide
  isSpace_trail := by decide
  no_feed_trail := by decide
  isPlain := isPlain_of_forall (by decide +kernel)
  parens_front := by decide +kernel
  parens_cells := by decide +kernel
  isClear := by decide +kernel

def oneLine : LooseRule where
  front := "a ".toList
  cells := [Block.spacedCell "color".toList "red".toList Block.isProperty_color Block.isValue_red,
    .blank [' '] (by decide)]
  trail := []
  isSelectorChar_front := by decide
  isSpace_trail := by decide
  no_feed_trail := by decide
  isPlain := isPlain_of_forall (by decide +kernel)
  parens_front := by decide +kernel
  parens_cells := by decide +kernel
  isClear := by decide +kernel

theorem types_of_lines_navigation :
    navigation.lines = ["nav,", "a \x7b", "  color: red;", "  margin: 0 auto \x7d"].map String.toList ∧
      ∃ t, typesWithin ["/* links */".toList] navigation.lines ["p \x7b".toList] = [t] ∧
        t.attributes = navigation.declared := by
  have hbefore : CommentRules.stylesheet.regionAfter .code ["/* links */".toList] = .code := by
    decide +kernel
  have hkept : navigation.IsKept := ⟨by decide +kernel, by decide +kernel⟩
  exact ⟨by decide +kernel, (navigation.types_of_lines hbefore ["p \x7b".toList]).2.mpr hkept⟩

/-- On the line of the brace nothing is read. -/
theorem not_forall_types_of_lines :
    ¬ ∀ r : LooseRule, ∃ t, typesWithin [] r.lines [] = [t] ∧ t.attributes = r.declared := by
  intro h
  obtain ⟨t, ht, hattributes⟩ := h oneLine
  have htypes : typesWithin [] oneLine.lines [] = [{ name := "a", line := 1 }] := by decide +kernel
  rw [htypes] at ht
  obtain ⟨rfl, -⟩ := List.cons.inj ht
  exact absurd hattributes (by decide +kernel)

end LooseRule

end SourceSurvey.Extract.Css
