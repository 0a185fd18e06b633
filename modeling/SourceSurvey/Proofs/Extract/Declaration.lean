import SourceSurvey.Extract.Css
import SourceSurvey.Proofs.Extract.Layout
import SourceSurvey.Proofs.Pattern.Preferred
import SourceSurvey.Proofs.Pattern.Search
import SourceSurvey.Proofs.Text.Field

/-!
# Declarations of a stylesheet

A line of a rule is cut at its semicolons, and each part that has the form of a declaration is read.
Its value is sought again by the name of its property in the whole line. Main statements: the search
yields what stands behind the first mention of the name that a colon follows, so that a declaration
gets the value of the first one on its line whose property ends with the name of its own.
-/

namespace SourceSurvey.Extract.Css

open Pattern

-- a text is gone through by its own characters, not by all that there are
attribute [local instance (high)] List.decidableBAll

/-! ## The search for a value -/

/-- A character that a value has. -/
def isValueChar (c : Char) : Bool :=
  c != ';' && c != '\x7d'

/-- The value at the front of a text: what stands there up to the end of the declaration, if anything
does. -/
def value? (text : List Char) : Option (List Char) :=
  match text.takeWhile isValueChar with
  | [] => none
  | c :: cs => some (c :: cs)

/-- The value behind a colon at the front of a text. -/
def valueBehindColon? (text : List Char) : Option (List Char) :=
  if ":".toList.isPrefixOf text then (value? (text.drop 1)).map Text.trim else none

/-- The value that follows a name at the front of a text. -/
def valueAt? (bound text : List Char) : Option (List Char) :=
  if bound.isPrefixOf text then valueBehindColon? (Text.trimStart (text.drop bound.length)) else none

/-- The value that follows the first mention of a name with one. -/
def mention? (bound : List Char) : List Char → Option (List Char)
  | [] => valueAt? bound []
  | c :: cs => (valueAt? bound (c :: cs)).or (mention? bound cs)

/-- The pattern for a run of value characters finds the value. -/
theorem finds_value : (run1 isValueChar).Finds value? := by
  intro prev t
  unfold value?
  show ((longestFirst 1 (t.takeWhile isValueChar).length ⟨prev, t⟩).first?).map (·.1) = _
  cases hlongest : t.takeWhile isValueChar with
  | nil => rfl
  | cons c cs =>
    have htake : t.take (cs.length + 1) = c :: cs := by
      have hfront := take_eq_take_takeWhile (Nat.le_refl (t.takeWhile isValueChar).length)
      rwa [hlongest, List.take_length] at hfront
    rw [List.length_cons, longestFirst, if_neg (by omega)]
    exact congrArg some htake

theorem isValueChar_of_isSpace {c : Char} (h : Text.isSpace c = true) : isValueChar c = true := by
  rw [isValueChar, Bool.and_eq_true, bne_iff_ne, bne_iff_ne]
  exact ⟨Text.ne_of_class h (by decide), Text.ne_of_class h (by decide)⟩

/-- Blanks in front of a value may be left to it, since it is trimmed. -/
theorem map_trim_findSome?_afterBlanks (text : List Char) :
    ((afterBlanks text).findSome? value?).map Text.trim = (value? text).map Text.trim := by
  have hone : ∀ t : List Char, [t].findSome? value? = value? t := fun t => by
    rw [List.findSome?_cons]
    cases value? t <;> rfl
  induction text with
  | nil => rw [afterBlanks, hone]
  | cons c cs ih =>
    rw [afterBlanks]
    by_cases hspace : Text.isSpace c = true
    · have hrun : (c :: cs).takeWhile isValueChar = c :: cs.takeWhile isValueChar :=
        List.takeWhile_cons_of_pos (isValueChar_of_isSpace hspace)
      rw [if_pos hspace, List.findSome?_append, Option.map_or, ih, hone, value?, value?, hrun]
      cases cs.takeWhile isValueChar with
      | nil => rfl
      | cons d ds => simp [Text.trim_cons hspace]
    · rw [if_neg hspace, hone]

/-- What is read behind a colon at the front of a text, before it is trimmed. -/
def readBehindColon? (text : List Char) : Option (List Char) :=
  if ":".toList.isPrefixOf text then (afterBlanks (text.drop 1)).findSome? value? else none

/-- The pattern for a name with a value finds what is read behind the colon. -/
theorem finds_writtenValue (bound : List Char) : (writtenValue bound).Finds fun t =>
    if bound.isPrefixOf t then readBehindColon? (Text.trimStart (t.drop bound.length)) else none := by
  have hcolon : (do lit ":"; blanks; run1 isValueChar).Finds readBehindColon? :=
    finds_value.blanks_bind.lit_bind ":"
  have hblank : ∀ c cs, Text.isSpace c = true → readBehindColon? (c :: cs) = none := by
    intro c cs hc
    rw [readBehindColon?, isPrefixOf_eq_false_of_space (by decide) hc cs]
    rfl
  have hgap : (do blanks; lit ":"; blanks; run1 isValueChar).Finds fun t =>
      readBehindColon? (Text.trimStart t) :=
    hcolon.blanks_bind.congr (findSome?_afterBlanks hblank)
  refine ((readsAs_text bound).bind_finds fun _ => hgap).congr fun t => ?_
  split
  · rw [List.findSome?_cons]
    cases readBehindColon? (Text.trimStart (t.drop bound.length)) <;> rfl
  · rfl

/-- A value is read where the name stands in front of it, blanks and a colon. -/
theorem map_trim_writtenValue (bound : List Char) (prev : Option Char) (t : List Char) :
    (((writtenValue bound) ⟨prev, t⟩).first?.map (·.1)).map Text.trim = valueAt? bound t := by
  refine (congrArg (Option.map Text.trim) (finds_writtenValue bound prev t)).trans ?_
  unfold valueAt? readBehindColon? valueBehindColon?
  rw [← map_trim_findSome?_afterBlanks]
  dsimp only
  split_ifs <;> rfl

/-- The search for a name takes the value behind its first mention. -/
theorem map_trim_search_writtenValue (bound text : List Char) :
    ((writtenValue bound).search? text).map (fun f => Text.trim f.value) = mention? bound text := by
  have hfrom : ∀ prev, ((writtenValue bound).searchAt prev text).map (fun f => Text.trim f.value) =
      mention? bound text := by
    induction text with
    | nil =>
      intro prev
      rw [mention?, ← map_trim_writtenValue bound prev, searchAt, Option.map_map, Option.map_map]
      rfl
    | cons c cs ih =>
      intro prev
      rw [mention?, ← map_trim_writtenValue bound prev, ← ih (some c), searchAt]
      cases ((writtenValue bound) ⟨prev, c :: cs⟩).first? with
      | none =>
        dsimp only
        rw [Option.map_map]
        rfl
      | some r => rfl
  exact hfrom none

/-- A text has a value when its first character belongs to one. -/
theorem value?_cons (c : Char) (cs : List Char) :
    value? (c :: cs) = if isValueChar c then some (c :: cs.takeWhile isValueChar) else none := by
  rw [value?, List.takeWhile_cons]
  cases isValueChar c <;> rfl

/-- Where a text is followed by more, a value that was read at its front is still read, or a longer
one. -/
theorem valueAt?_of_append {bound text more : List Char} (h : valueAt? bound (text ++ more) = none) :
    valueAt? bound text = none := by
  rw [valueAt?] at h ⊢
  split
  · next hbound =>
    obtain ⟨rest, rfl⟩ := List.isPrefixOf_iff_prefix.mp hbound
    rw [if_pos (List.isPrefixOf_iff_prefix.mpr ⟨rest ++ more, (List.append_assoc ..).symm⟩),
      List.append_assoc, List.drop_left, Text.trimStart, List.dropWhile_append] at h
    rw [List.drop_left]
    cases hstart : Text.trimStart rest with
    | nil => rfl
    | cons c cs =>
      rw [Text.trimStart] at hstart
      rw [hstart, List.isEmpty_cons, if_neg Bool.false_ne_true, valueBehindColon?] at h
      rw [valueBehindColon?]
      split
      · next hcolon =>
        rw [if_pos (by simpa using hcolon), Option.map_eq_none_iff] at h
        rw [Option.map_eq_none_iff]
        cases cs with
        | nil => rfl
        | cons d ds =>
          rw [List.drop_one, List.tail_cons, value?_cons]
          rw [List.drop_one, List.cons_append, List.tail_cons, List.cons_append, value?_cons] at h
          split at h
          · cases h
          · next hd => rw [if_neg hd]
      · rfl
  · rfl

/-- The value that follows a name stands in the text. -/
theorem valueAt?_subset {bound text value : List Char} (h : valueAt? bound text = some value) :
    value ⊆ text := by
  unfold valueAt? valueBehindColon? at h
  split_ifs at h
  obtain ⟨written, hwritten, rfl⟩ := Option.map_eq_some_iff.mp h
  have hstart : Text.trimStart (text.drop bound.length) ⊆ text := fun c hc =>
    List.mem_of_mem_drop (i := bound.length) ((List.dropWhile_sublist _).subset hc)
  have hrun : written ⊆ (Text.trimStart (text.drop bound.length)).drop 1 := by
    rw [value?] at hwritten
    split at hwritten
    · cases hwritten
    · next hrun =>
      rw [← Option.some.inj hwritten, ← hrun]
      exact (List.takeWhile_sublist _).subset
  exact fun c hc => hstart (List.mem_of_mem_drop (hrun (Text.trim_subset written hc)))

/-- A value that is found stands in the text. -/
theorem mention?_subset {bound text value : List Char} (h : mention? bound text = some value) :
    value ⊆ text := by
  induction text with
  | nil => exact valueAt?_subset h
  | cons c cs ih =>
    rw [mention?] at h
    cases hhere : valueAt? bound (c :: cs) with
    | some found =>
      rw [hhere, Option.some_or] at h
      exact valueAt?_subset (hhere.trans h)
    | none =>
      rw [hhere, Option.none_or] at h
      exact List.subset_cons_of_subset c (ih h)

/-! ## Mentions of a property -/

/-- A character of the name of a property. -/
def isPropertyChar (c : Char) : Bool :=
  Text.isWord c || c == '-'

theorem isSpace_eq_false_of_isPropertyChar {c : Char} (h : isPropertyChar c = true) :
    Text.isSpace c = false := by
  rw [isPropertyChar, Bool.or_eq_true, beq_iff_eq] at h
  rcases h with hword | rfl
  · exact Text.isSpace_eq_false_of_isWord hword
  · decide

theorem isPropertyChar_eq_false_of_isSpace {c : Char} (h : Text.isSpace c = true) :
    isPropertyChar c = false := by
  rw [Bool.eq_false_iff]
  intro hproperty
  rw [isSpace_eq_false_of_isPropertyChar hproperty] at h
  cases h

/-- The name of a property. -/
structure IsProperty (bound : List Char) : Prop where
  ne_nil : bound ≠ []
  chars : ∀ c ∈ bound, isPropertyChar c = true

namespace IsProperty

variable {bound text rest : List Char} {c : Char}

/-- A property holds only characters of properties. -/
theorem not_mem (h : IsProperty bound) (hc : isPropertyChar c = false) : c ∉ bound :=
  Text.not_mem_of_class h.chars hc

/-- An empty text mentions nothing. -/
theorem mention?_nil (h : IsProperty bound) : mention? bound [] = none := by
  obtain ⟨c, cs, rfl⟩ := List.exists_cons_of_ne_nil h.ne_nil
  rfl

/-- No mention begins at a character that no property has. -/
theorem mention?_cons (h : IsProperty bound) (hc : isPropertyChar c = false) (text : List Char) :
    mention? bound (c :: text) = mention? bound text := by
  obtain ⟨d, ds, rfl⟩ := List.exists_cons_of_ne_nil h.ne_nil
  have hne : d ≠ c := Text.ne_of_class (h.chars d List.mem_cons_self) hc
  have hstarts : (d :: ds).isPrefixOf (c :: text) = false := by
    rw [List.isPrefixOf, beq_false_of_ne hne, Bool.false_and]
  rw [mention?, valueAt?, hstarts, if_neg Bool.false_ne_true, Option.none_or]

/-- Characters that no property has hide no mention behind them. -/
theorem mention?_append (h : IsProperty bound) {front : List Char}
    (hfront : ∀ c ∈ front, isPropertyChar c = false) (text : List Char) :
    mention? bound (front ++ text) = mention? bound text := by
  induction front with
  | nil => rfl
  | cons c cs ih =>
    rw [List.cons_append, h.mention?_cons (hfront c List.mem_cons_self),
      ih fun d hd => hfront d (List.mem_cons_of_mem c hd)]

/-- Blanks hide no mention behind them. -/
theorem mention?_isSpace_append (h : IsProperty bound) {gap : List Char}
    (hgap : ∀ c ∈ gap, Text.isSpace c = true) (text : List Char) :
    mention? bound (gap ++ text) = mention? bound text :=
  h.mention?_append (fun c hc => isPropertyChar_eq_false_of_isSpace (hgap c hc)) text

/-- Blanks mention nothing. -/
theorem mention?_of_isSpace (h : IsProperty bound) {gap : List Char}
    (hgap : ∀ c ∈ gap, Text.isSpace c = true) : mention? bound gap = none := by
  have hnone := h.mention?_isSpace_append hgap []
  rwa [List.append_nil, h.mention?_nil] at hnone

/-- What is not found in a text is not found in a part of it. -/
theorem mention?_of_isInfix (h : IsProperty bound) {part : List Char}
    (hnone : mention? bound text = none) (hpart : part <:+: text) : mention? bound part = none := by
  obtain ⟨before, after, rfl⟩ := hpart
  have hbehind : mention? bound (part ++ after) = none := by
    rw [List.append_assoc] at hnone
    induction before with
    | nil => exact hnone
    | cons c cs ih =>
      rw [List.cons_append, mention?, Option.or_eq_none_iff] at hnone
      exact ih hnone.2
  clear hnone
  induction part with
  | nil => exact h.mention?_nil
  | cons c cs ih =>
    rw [List.cons_append, mention?, Option.or_eq_none_iff] at hbehind
    rw [mention?, ih hbehind.2, Option.or_none]
    exact valueAt?_of_append hbehind.1

/-! A value ends at the end of its declaration, so a mention is found in one of the declarations. -/

/-- A value ends before the first character that no value has, whatever follows. -/
theorem valueAt?_append_cons (h : IsProperty bound) (hc : isValueChar c = false)
    (text rest : List Char) : valueAt? bound (text ++ c :: rest) = valueAt? bound text := by
  have hsign : c = ';' ∨ c = '\x7d' := by
    rw [isValueChar, Bool.and_eq_false_iff, bne_eq_false_iff_eq, bne_eq_false_iff_eq] at hc
    exact hc
  have hproperty : isPropertyChar c = false := by rcases hsign with rfl | rfl <;> decide
  have hspace : Text.isSpace c = false := by rcases hsign with rfl | rfl <;> decide
  have hcolon : c ≠ ':' := by rcases hsign with rfl | rfl <;> decide
  have hstarts : bound.isPrefixOf (text ++ c :: rest) = bound.isPrefixOf text := by
    rw [Bool.eq_iff_iff, List.isPrefixOf_iff_prefix, List.isPrefixOf_iff_prefix,
      Text.isPrefix_append_cons_iff (h.not_mem hproperty)]
  rw [valueAt?, valueAt?, hstarts]
  split
  · next hbound =>
    obtain ⟨more, rfl⟩ := List.isPrefixOf_iff_prefix.mp hbound
    rw [List.append_assoc, List.drop_left, List.drop_left, Text.trimStart_append_cons hspace]
    cases Text.trimStart more with
    | nil =>
      rw [List.nil_append, valueBehindColon?, if_neg (by simpa using Ne.symm hcolon)]
      rfl
    | cons d ds =>
      have hvalue : value? (ds ++ c :: rest) = value? ds := by
        rw [value?, value?, Text.takeWhile_append_cons_of_neg hc]
      rw [valueBehindColon?, valueBehindColon?, List.cons_append, List.drop_one, List.drop_one,
        List.tail_cons, List.tail_cons, hvalue]
      rfl
  · rfl

/-- A mention is found in front of a character that no value has, or else behind it. -/
theorem mention?_append_cons (h : IsProperty bound) (hc : isValueChar c = false)
    (text rest : List Char) :
    mention? bound (text ++ c :: rest) = (mention? bound text).or (mention? bound rest) := by
  have hhere := h.valueAt?_append_cons hc
  induction text with
  | nil =>
    have hnone : valueAt? bound (c :: rest) = none := by
      rw [← List.nil_append (c :: rest), hhere]
      exact h.mention?_nil
    rw [List.nil_append, h.mention?_nil, Option.none_or, mention?, hnone, Option.none_or]
  | cons d ds ih =>
    rw [List.cons_append, mention?, ← List.cons_append, hhere, ih, mention?, Option.or_assoc]

/-- A mention in a declaration is the end of its property, or stands in its value. -/
theorem mention?_of_property (h : IsProperty bound) {property gap value : List Char}
    (hproperty : ∀ c ∈ property, isPropertyChar c = true)
    (hgap : ∀ c ∈ gap, Text.isSpace c = true) (hvalue : value? rest = some value) :
    mention? bound (property ++ (gap ++ ':' :: rest)) =
      if bound <:+ property then some (Text.trim value) else mention? bound rest := by
  induction property with
  | nil =>
    rw [if_neg fun hsuffix => h.ne_nil (List.suffix_nil.mp hsuffix), List.nil_append,
      h.mention?_isSpace_append hgap, h.mention?_cons (by decide)]
  | cons c cs ih =>
    have hcolon : ':' ∉ bound := h.not_mem (by decide)
    -- the sign behind the property is a blank or the colon
    have hfront : bound <+: c :: cs ++ (gap ++ ':' :: rest) ↔ bound <+: c :: cs := by
      cases gap with
      | nil => exact Text.isPrefix_append_cons_iff hcolon _
      | cons d ds =>
        have hspace := isPropertyChar_eq_false_of_isSpace (hgap d List.mem_cons_self)
        exact Text.isPrefix_append_cons_iff (h.not_mem hspace) _
    have hhere : valueAt? bound (c :: cs ++ (gap ++ ':' :: rest)) =
        if bound = c :: cs then some (Text.trim value) else none := by
      rw [valueAt?, if_congr (List.isPrefixOf_iff_prefix.trans hfront) rfl rfl]
      by_cases hbound : bound <+: c :: cs
      · rw [if_pos hbound]
        obtain ⟨more, hmore⟩ := hbound
        rw [← hmore, List.append_assoc, List.drop_left]
        cases more with
        | nil =>
          have hbehind : Text.trimStart (gap ++ ':' :: rest) = ':' :: rest :=
            Text.dropWhile_append_cons hgap (by decide) rest
          rw [List.nil_append, hbehind, if_pos (List.append_nil bound).symm]
          exact congrArg (Option.map Text.trim) hvalue
        | cons d ds =>
          have hd : isPropertyChar d = true := hproperty d (hmore ▸ by simp)
          have hspace : ¬ Text.isSpace d = true := by
            rw [isSpace_eq_false_of_isPropertyChar hd]
            exact Bool.false_ne_true
          have hbehind : Text.trimStart (d :: ds ++ (gap ++ ':' :: rest)) =
              d :: (ds ++ (gap ++ ':' :: rest)) := List.dropWhile_cons_of_neg hspace
          have hne : ':' ≠ d := by
            rintro rfl
            cases hd
          rw [hbehind, valueBehindColon?, if_neg (by simpa using hne), if_neg (by simp)]
      · rw [if_neg hbound, if_neg]
        rintro rfl
        exact hbound (List.prefix_refl _)
    have hrest := ih fun d hd => hproperty d (List.mem_cons_of_mem c hd)
    have hsuffix : bound <:+ c :: cs ↔ bound = c :: cs ∨ bound <:+ cs := List.suffix_cons_iff
    rw [List.cons_append, mention?, ← List.cons_append, hhere, hrest, if_congr hsuffix rfl rfl]
    by_cases hall : bound = c :: cs
    · simp [hall]
    · simp [hall]

end IsProperty

/-! ## The form of a declaration -/

/-- The value of a declaration: no blanks around it, and no sign in it that ends a declaration or opens
a block. -/
structure IsValue (value : List Char) : Prop where
  tight : Text.Tight value
  chars : ∀ c ∈ value, isValueChar c = true ∧ c ≠ '\x7b'

/-- The pattern for a declaration reads a property, a colon and a value, with blanks between them.
-/
theorem declaration_reads : declaration.Reads fun t r => IsProperty r.1 ∧
    ∃ gap gap' more, (∀ c ∈ gap, Text.isSpace c = true) ∧ (∀ c ∈ gap', Text.isSpace c = true) ∧
      r.2 ≠ [] ∧ t = r.1 ++ (gap ++ ':' :: (gap' ++ (r.2 ++ more))) := by
  unfold declaration
  refine (reads_run isPropertyChar 1).bind fun bound _ hbound => ?_
  refine reads_blanks.bind fun gap _ hgap => (reads_lit ":").bind fun colon _ hcolon => ?_
  refine reads_blanks.bind fun gap' _ hgap' => (reads_runLazy notLineFeed 1).bind ?_
  intro value _ hvalue
  refine reads_blanks.bind fun after _ _ => ?_
  have hmark : (lit ";").Reads fun _ _ => True := (reads_lit ";").imp fun _ _ _ => trivial
  refine (reads_opt hmark).bind fun mark _ _ => reads_blanks.bind fun after' _ _ => ?_
  refine (reads_checkAt _).bind fun last _ _ => reads_pure ?_
  obtain ⟨rfl, hlength, hchars⟩ := hbound
  obtain ⟨rfl, hlength', -⟩ := hvalue
  refine ⟨⟨List.ne_nil_of_length_pos hlength, hchars⟩, gap, gap', after ++ (mark ++ (after' ++ last)),
    hgap, hgap', List.ne_nil_of_length_pos hlength', ?_⟩
  rw [hcolon]
  simp

/-- What stands in front of a last sign ends with it. -/
theorem exists_concat_of_append {front back text : List Char} {c : Char}
    (h : text ++ [c] = front ++ back) (hc : c ∉ front) : ∃ rest, back = rest ++ [c] := by
  cases back using List.reverseRecOn with
  | nil =>
    rw [List.append_nil] at h
    exact absurd (h ▸ List.mem_append_right text List.mem_cons_self) hc
  | append_singleton rest d =>
    rw [← List.append_assoc] at h
    obtain ⟨-, hlast⟩ := List.append_inj' h rfl
    exact ⟨rest, by rw [List.cons.inj hlast |>.1]⟩

/-- The end of a declaration is not read in front of a sign of its value. -/
theorem refuses_ending {text : List Char} {c : Char} {β : Type} (f : Unit → Pattern β)
    (hspace : Text.isSpace c = false) (hc : isValueChar c = true) (hfeed : '\n' ∉ text ++ [c]) :
    Pattern.Refuses (do blanks; let _ ← opt (lit ";"); blanks; atEnd >>= f) (text ++ [c]) := by
  refine reads_blanks.refuses_bind fun front back _ htext hfront => ?_
  obtain ⟨rest, rfl⟩ := exists_concat_of_append htext (Text.not_mem_of_class hfront hspace)
  have hmark : (lit ";").Reads fun t _ => t = [';'] := reads_lit ";"
  refine (reads_opt hmark).refuses_bind fun mark back' _ htext' hmark' => ?_
  have hnot : c ∉ mark := by
    rcases hmark' with rfl | rfl
    · exact List.not_mem_nil
    · rw [List.mem_singleton]
      rintro rfl
      cases hc
  obtain ⟨rest', rfl⟩ := exists_concat_of_append htext' hnot
  refine reads_blanks.refuses_bind fun front' back'' _ htext'' hfront' => ?_
  obtain ⟨rest'', rfl⟩ := exists_concat_of_append htext'' (Text.not_mem_of_class hfront' hspace)
  refine (refuses_atEnd (by simp) ?_).bind f
  intro heq
  have hmem : '\n' ∈ rest'' ++ [c] := heq ▸ List.mem_cons_self
  apply hfeed
  rw [htext, htext', htext'']
  simp only [List.mem_append] at hmem ⊢
  exact .inr (.inr (.inr hmem))

/-- A declaration is read where it is written, with blanks around its colon, if its value stands on one
line. -/
theorem takes_declaration {property gap gap' value : List Char} (hproperty : IsProperty property)
    (hgap : ∀ c ∈ gap, Text.isSpace c = true) (hgap' : ∀ c ∈ gap', Text.isSpace c = true)
    (hvalue : IsValue value) (hfeed : '\n' ∉ value) :
    declaration.Takes (property ++ (gap ++ (":".toList ++ (gap' ++ value)))) (property, value) [] := by
  obtain ⟨c, cs, hfirst, hc⟩ := hvalue.tight.first
  have hends : (gap ++ (":".toList ++ (gap' ++ value))).head?.any isPropertyChar = false := by
    cases gap with
    | nil => rfl
    | cons d ds => exact isPropertyChar_eq_false_of_isSpace (hgap d List.mem_cons_self)
  have hbehind : value.head?.any Text.isSpace = false := by
    rw [hfirst]
    exact hc
  have hword : ∀ c ∈ value, notLineFeed c = true := fun c hc => by
    simpa [notLineFeed] using ne_of_mem_of_not_mem hc hfeed
  have hlength : 1 ≤ value.length := by
    rw [hfirst]
    exact Nat.succ_pos _
  have hnothing : blanks.Takes ([] ++ []) () [] := takes_blanks (List.forall_mem_nil _) rfl
  -- no shorter value leads on, since the last sign of the whole one ends no declaration
  have hrest : Pattern.Takes (do
      let value ← runLazy notLineFeed 1
      blanks
      let _ ← opt (lit ";")
      blanks
      atEnd
      return (property, value)) (value ++ []) (property, value) [] := by
    refine takes_runLazy_bind hword hlength (fun n _ hn => ?_) (hnothing.bind
      ((refuses_lit (by decide)).opt.bind (hnothing.bind (takes_atEnd.bind (takes_pure _ _)))))
    obtain ⟨ds, d, hlast, hd⟩ := hvalue.tight.last
    have hdrop : value.drop n = ds.drop n ++ [d] := by
      rw [hlast, List.length_append, List.length_singleton] at hn
      rw [hlast, List.drop_append_of_le_length (by omega)]
    rw [List.append_nil, hdrop]
    refine refuses_ending _ hd (hvalue.chars d (by rw [hlast]; simp)).1 fun hmem => ?_
    exact hfeed (List.mem_of_mem_drop (hdrop ▸ hmem))
  rw [List.append_nil] at hrest
  unfold declaration
  exact (takes_run hproperty.chars (List.length_pos_iff.mpr hproperty.ne_nil) hends).bind
    ((takes_blanks hgap rfl).bind ((takes_lit ":" _).bind ((takes_blanks hgap' hbehind).bind hrest)))

/-! ## The declarations of a line -/

/-- The attribute that a part of a line declares, where the value of its property is known. -/
def slotOf? (valueOf : List Char → Option (List Char)) (part : List Char) : Option Slot :=
  (declaration.matchStart? (Text.trim part)).map fun r =>
    ⟨.ofList r.1, "property", some (.ofList ((valueOf r.1).getD r.2))⟩

/-- The attributes that the parts of a text declare, with the values that its mentions have. -/
def slotsIn (text : List Char) : List Slot :=
  (Text.splitAt ';' text).filterMap (slotOf? (mention? · text))

/-- What a part declares depends on the values of properties only. -/
theorem slotOf?_congr {valueOf valueOf' : List Char → Option (List Char)}
    (h : ∀ bound, IsProperty bound → valueOf bound = valueOf' bound) (part : List Char) :
    slotOf? valueOf part = slotOf? valueOf' part := by
  unfold slotOf?
  cases hmatch : declaration.matchStart? (Text.trim part) with
  | none => rfl
  | some r =>
    obtain ⟨-, -, -, hproperty, -⟩ := declaration_reads.of_matchStart? hmatch
    rw [Option.map_some, Option.map_some, h r.1 hproperty]

/-- What is read of a part, with the braces behind it that close the rule. -/
theorem declarationsAt_eq {p : Place} {text : List Char} (hcode : p.code = text)
    (hopen : '\x7b' ∉ text) : declarationsAt p = (Text.splitAt ';' text).filterMap fun part =>
      slotOf? (mention? · p.raw) (Text.trimEndWhile (· == '\x7d') (Text.trim part)) := by
  have hlast : ((Text.trim text).getLast? == some '\x7b') = false := by
    rw [beq_eq_false_iff_ne]
    intro hlast
    exact hopen (Text.trim_subset text (List.mem_of_getLast? hlast))
  -- blanks at the ends of the line belong to no part, since each part is trimmed
  let read (part : List Char) := slotOf? (mention? · p.raw) (Text.trimEndWhile (· == '\x7d') part)
  have hparts : declarationsAt p =
      if (Text.trim p.code).getLast? == some '\x7b' then []
      else ((Text.splitAt ';' (Text.trim p.code)).map Text.trim).filterMap read := by
    unfold declarationsAt
    dsimp only
    rw [List.filterMap_map]
    congr 1
    refine List.filterMap_congr fun part _ => ?_
    dsimp only [Function.comp, read, slotOf?]
    congr 1
    funext r
    rw [← map_trim_search_writtenValue]
    cases (writtenValue r.1).search? p.raw <;> rfl
  rw [hparts, hcode, hlast, if_neg Bool.false_ne_true, Text.map_trim_splitAt_trim (by decide),
    List.filterMap_map]
  rfl

/-- Nothing is trimmed from a part without closing braces. -/
theorem trimEndWhile_of_not_mem {part : List Char} (h : '\x7d' ∉ part) :
    Text.trimEndWhile (· == '\x7d') part = part := by
  have hnone : ∀ c ∈ part, (c == '\x7d') = false := fun c hc => by
    rw [beq_eq_false_iff_ne]
    rintro rfl
    exact h hc
  have htrim := Text.trimEndWhile_forall_append hnone []
  rwa [List.append_nil, Text.trimEndWhile, List.append_nil] at htrim

/-- A part without the brace is read as it stands. -/
theorem slotOf?_trim (valueOf : List Char → Option (List Char)) {part : List Char}
    (h : '\x7d' ∉ part) :
    slotOf? valueOf (Text.trimEndWhile (· == '\x7d') (Text.trim part)) = slotOf? valueOf part := by
  rw [trimEndWhile_of_not_mem fun hmem => h (Text.trim_subset part hmem)]
  unfold slotOf?
  rw [Text.trim_trim]

section Line

variable {p : Place} {text : List Char} (hopen : '\x7b' ∉ text) (hclose : '\x7d' ∉ text)
include hopen hclose

/-- A line without braces is read as it stands. -/
theorem declarationsAt_of_line (hcode : p.code = text) (hraw : p.raw = text) :
    declarationsAt p = slotsIn text := by
  rw [declarationsAt_eq hcode hopen, hraw, slotsIn]
  exact List.filterMap_congr fun part hpart => slotOf?_trim _ fun hmem =>
    hclose (Text.subset_of_mem_splitWhere hpart hmem)

/-- In front of the brace that closes the rule a line is read as it would be without it. -/
theorem declarationsAt_of_closing {trail : List Char} (htrail : ∀ c ∈ trail, Text.isSpace c = true)
    (hcode : p.code = text ++ '\x7d' :: trail) (hraw : p.raw = text ++ '\x7d' :: trail) :
    declarationsAt p = slotsIn text := by
  have hopen' : '\x7b' ∉ text ++ '\x7d' :: trail := by
    have hnone : '\x7b' ∉ trail := Text.not_mem_of_class htrail (by decide)
    simp [hopen, hnone]
  have hvalues : ∀ bound, IsProperty bound → mention? bound p.raw = mention? bound text := by
    intro bound hbound
    rw [hraw, hbound.mention?_append_cons (by decide), hbound.mention?_of_isSpace htrail,
      Option.or_none]
  -- the brace stands behind the last part
  have hmore : ';' ∉ '\x7d' :: trail := by
    have hnone : ';' ∉ trail := Text.not_mem_of_class htrail (by decide)
    simp [hnone]
  obtain ⟨front, last, first, others, htext, hfirst, hboth⟩ :=
    Text.exists_splitAt_append ';' text ('\x7d' :: trail)
  rw [Text.splitAt_of_not_mem hmore] at hfirst
  obtain ⟨rfl, rfl⟩ := List.cons.inj hfirst
  have hpart : ∀ part ∈ front ++ [last], '\x7d' ∉ part := fun part hmem hbrace =>
    hclose (Text.subset_of_mem_splitWhere (htext ▸ hmem) hbrace)
  have hlast : Text.trimEndWhile (· == '\x7d') (Text.trim (last ++ '\x7d' :: trail)) =
      Text.trimEndWhile (· == '\x7d') (Text.trimStart last) := by
    have hend : Text.trimEnd ([] ++ trail) = [] := Text.trimEndWhile_append_of_pos htrail []
    rw [Text.trim_append_cons (by decide), ← List.nil_append trail, hend,
      Text.trimEndWhile_append rfl]
  have hsame : ∀ part, slotOf? (mention? · p.raw) part = slotOf? (mention? · text) part := fun part =>
    slotOf?_congr hvalues part
  have hkept : slotOf? (mention? · text)
      (Text.trimEndWhile (· == '\x7d') (Text.trim (last ++ '\x7d' :: trail))) =
        slotOf? (mention? · text) last := by
    have hbrace : '\x7d' ∉ Text.trimStart last := fun hmem =>
      hpart last (by simp) ((List.dropWhile_sublist _).subset hmem)
    rw [hlast, trimEndWhile_of_not_mem hbrace]
    unfold slotOf?
    rw [Text.trim_trimStart]
  rw [declarationsAt_eq hcode hopen', hboth, slotsIn, htext, List.filterMap_append,
    List.filterMap_append]
  congr 1
  · refine List.filterMap_congr fun part hmem => ?_
    rw [hsame, slotOf?_trim _ (hpart part (List.mem_append_left _ hmem))]
  · rw [List.filterMap_cons, List.filterMap_cons, hsame, hkept]
    rfl

end Line

/-! ## Declarations as they are written -/

/-- A declaration with the blanks around it and around its colon. -/
structure Declaration where
  before : List Char
  property : List Char
  beforeColon : List Char
  afterColon : List Char
  value : List Char
  after : List Char
  isSpace : ∀ gap ∈ [before, beforeColon, afterColon, after], ∀ c ∈ gap, Text.isSpace c = true
  isProperty : IsProperty property
  isValue : IsValue value

/-- A declaration with one blank behind its colon and none in front of it. -/
def Declaration.spaced (before property value after : List Char)
    (hspace : ∀ c ∈ before ++ after, Text.isSpace c = true) (hproperty : IsProperty property)
    (hvalue : IsValue value) : Declaration where
  before := before
  property := property
  beforeColon := []
  afterColon := [' ']
  value := value
  after := after
  isSpace := by
    rw [List.forall_mem_append] at hspace
    simp only [List.forall_mem_cons]
    exact ⟨hspace.1, List.forall_mem_nil _, ⟨by decide, List.forall_mem_nil _⟩, hspace.2,
      List.forall_mem_nil _⟩
  isProperty := hproperty
  isValue := hvalue

/-- An attribute with a value. -/
def slot (property value : List Char) : Slot :=
  ⟨.ofList property, "property", some (.ofList value)⟩

namespace Declaration

variable (d : Declaration) {bound : List Char}

/-- What stands behind the colon. -/
def behindColon : List Char :=
  d.afterColon ++ (d.value ++ d.after)

def text : List Char :=
  d.before ++ (d.property ++ (d.beforeColon ++ ':' :: d.behindColon))

/-- What the search for a name finds in the declaration: its value, if the property ends with the
name, or else what the value itself mentions. -/
def readFor (bound : List Char) : Option (List Char) :=
  if bound <:+ d.property then some d.value else mention? bound (d.value ++ d.after)

theorem isSpace_before : ∀ c ∈ d.before, Text.isSpace c = true :=
  d.isSpace d.before (by simp)

theorem isSpace_beforeColon : ∀ c ∈ d.beforeColon, Text.isSpace c = true :=
  d.isSpace d.beforeColon (by simp)

theorem isSpace_afterColon : ∀ c ∈ d.afterColon, Text.isSpace c = true :=
  d.isSpace d.afterColon (by simp)

theorem isSpace_after : ∀ c ∈ d.after, Text.isSpace c = true :=
  d.isSpace d.after (by simp)

/-- What stands behind the colon can be read as a value. -/
theorem isValueChar_behindColon : ∀ c ∈ d.behindColon, isValueChar c = true := by
  intro c hc
  rw [behindColon, List.mem_append, List.mem_append] at hc
  rcases hc with hc | hc | hc
  · exact isValueChar_of_isSpace (d.isSpace_afterColon c hc)
  · exact (d.isValue.chars c hc).1
  · exact isValueChar_of_isSpace (d.isSpace_after c hc)

/-- A sign that is no blank, no colon and in no property stands in a declaration only if it stands
in the value. -/
theorem not_mem_text {c : Char} (hspace : Text.isSpace c = false)
    (hproperty : isPropertyChar c = false) (hcolon : c ≠ ':') (hvalue : c ∉ d.value) :
    c ∉ d.text := by
  have hgap : ∀ gap ∈ [d.before, d.beforeColon, d.afterColon, d.after], c ∉ gap := fun gap hmem =>
    Text.not_mem_of_class (d.isSpace gap hmem) hspace
  simp only [List.forall_mem_cons] at hgap
  obtain ⟨hbefore, hbeforeColon, hafterColon, hafter, -⟩ := hgap
  simp [text, behindColon, hbefore, d.isProperty.not_mem hproperty, hbeforeColon, hcolon,
    hafterColon, hvalue, hafter]

/-- No sign that ends a value stands in a declaration, and none that opens a block. -/
theorem not_mem_text_of_sign {c : Char} (hc : c ∈ [';', '\x7b', '\x7d']) : c ∉ d.text := by
  have hclass : ∀ c ∈ [';', '\x7b', '\x7d'], Text.isSpace c = false ∧ isPropertyChar c = false ∧
      c ≠ ':' := by decide
  obtain ⟨hspace, hproperty, hcolon⟩ := hclass c hc
  refine d.not_mem_text hspace hproperty hcolon fun hmem => ?_
  obtain ⟨hvalue, hopen⟩ := d.isValue.chars c hmem
  simp only [List.mem_cons, List.not_mem_nil, or_false] at hc
  rcases hc with rfl | rfl | rfl
  · cases hvalue
  · exact hopen rfl
  · cases hvalue

/-- The search for a name in a declaration finds the value, or what the value itself mentions. -/
theorem mention?_text (h : IsProperty bound) : mention? bound d.text = d.readFor bound := by
  have htrim : Text.trim d.behindColon = d.value :=
    d.isValue.tight.trim_eq d.isSpace_afterColon d.isSpace_after
  have hvalue : value? d.behindColon = some d.behindColon := by
    obtain ⟨c, cs, hcons⟩ := List.exists_cons_of_ne_nil
      (fun hnil => d.isValue.tight.ne_nil (htrim.symm.trans (by rw [hnil]; rfl)) :
        d.behindColon ≠ [])
    have hall : d.behindColon.takeWhile isValueChar = c :: cs := by
      rw [List.takeWhile_eq_self_iff.mpr d.isValueChar_behindColon, hcons]
    rw [value?, hall, hcons]
  rw [text, h.mention?_isSpace_append d.isSpace_before,
    h.mention?_of_property d.isProperty.chars d.isSpace_beforeColon hvalue, htrim, behindColon,
    h.mention?_isSpace_append d.isSpace_afterColon, readFor]

/-- A declaration is matched as its property and its value. -/
theorem matchStart?_text (hfeed : '\n' ∉ d.value) :
    declaration.matchStart? (Text.trim d.text) = some (d.property, d.value) := by
  have htight : Text.Tight (d.property ++ (d.beforeColon ++
      (":".toList ++ (d.afterColon ++ d.value)))) := by
    have hproperty : Text.Solid d.property := ⟨d.isProperty.ne_nil, fun c hc =>
      isSpace_eq_false_of_isPropertyChar (d.isProperty.chars c hc)⟩
    have hcolon : Text.Tight ":".toList := Text.Solid.tight (by decide)
    exact hproperty.tight.append (hcolon.append d.isValue.tight _) _
  have htrim : Text.trim d.text = d.property ++ (d.beforeColon ++
      (":".toList ++ (d.afterColon ++ d.value))) := by
    rw [← htight.trim_eq d.isSpace_before d.isSpace_after, text, behindColon]
    simp
  rw [htrim, (takes_declaration d.isProperty d.isSpace_beforeColon d.isSpace_afterColon
    d.isValue hfeed).matchStart?]

/-- A declaration declares its property, with the value known for it or else its own. -/
theorem slotOf?_text (hfeed : '\n' ∉ d.value) (valueOf : List Char → Option (List Char)) :
    slotOf? valueOf d.text = some (slot d.property ((valueOf d.property).getD d.value)) := by
  rw [slotOf?, d.matchStart?_text hfeed]
  rfl

end Declaration

/-- What stands between two semicolons: nothing but blanks, or a declaration. -/
inductive Cell where
  | blank (gap : List Char) (isSpace : ∀ c ∈ gap, Text.isSpace c = true)
  | declared (d : Declaration)

namespace Cell

def text : Cell → List Char
  | blank gap _ => gap
  | declared d => d.text

def declaration? : Cell → Option Declaration
  | blank _ _ => none
  | declared d => some d

/-- Texts in a row, with semicolons between them. -/
def row (cells : List Cell) : List Char :=
  [';'].intercalate (cells.map text)

/-- The declarations of a row. -/
def declarations (cells : List Cell) : List Declaration :=
  cells.filterMap declaration?

/-- What the first declaration of a row has in which a name is found. -/
def found (cells : List Cell) (bound : List Char) : Option (List Char) :=
  (declarations cells).findSome? (·.readFor bound)

/-- A semicolon stands between the first text and the others. -/
theorem row_cons_cons (cell next : Cell) (cells : List Cell) :
    row (cell :: next :: cells) = cell.text ++ ';' :: row (next :: cells) := by
  show [';'].intercalate (cell.text :: next.text :: cells.map text) = _
  rw [List.intercalate_cons_cons]
  simp [row]

theorem row_singleton (cell : Cell) : row [cell] = cell.text := by
  simp [row]

theorem declarations_declared (d : Declaration) (cells : List Cell) :
    declarations (declared d :: cells) = d :: declarations cells := rfl

/-- A name is found in the first text or in one of the others. -/
theorem found_cons (cell : Cell) (cells : List Cell) (bound : List Char) :
    found (cell :: cells) bound = (found [cell] bound).or (found cells bound) := by
  have hcells : declarations (cell :: cells) = declarations [cell] ++ declarations cells := by
    rw [declarations, ← List.singleton_append, List.filterMap_append]
    rfl
  rw [found, hcells, List.findSome?_append]
  rfl

/-- The search for a name in one text finds what its declaration has. -/
theorem mention?_text {bound : List Char} (h : IsProperty bound) (cell : Cell) :
    mention? bound cell.text = found [cell] bound := by
  cases cell with
  | blank gap hgap => exact h.mention?_of_isSpace hgap
  | declared d =>
    rw [text, d.mention?_text h, found, declarations_declared, List.findSome?_cons]
    cases d.readFor bound <;> rfl

/-- In a row the search for a name goes through the declarations. -/
theorem mention?_row {bound : List Char} (h : IsProperty bound) (cells : List Cell) :
    mention? bound (row cells) = found cells bound := by
  induction cells with
  | nil => exact h.mention?_nil
  | cons cell cells ih =>
    cases cells with
    | nil => rw [row_singleton, cell.mention?_text h]
    | cons next cells =>
      rw [row_cons_cons, h.mention?_append_cons (by decide), ih, cell.mention?_text h, ← found_cons]

/-- No text between semicolons holds a semicolon or a brace. -/
theorem not_mem_text_of_sign (cell : Cell) {c : Char} (hc : c ∈ [';', '\x7b', '\x7d']) :
    c ∉ cell.text := by
  cases cell with
  | blank gap hgap =>
    have hclass : ∀ c ∈ [';', '\x7b', '\x7d'], Text.isSpace c = false := by decide
    exact Text.not_mem_of_class hgap (hclass c hc)
  | declared d => exact d.not_mem_text_of_sign hc

/-- Splitting a row at its semicolons gives its texts. -/
theorem splitAt_row {cells : List Cell} (hne : cells ≠ []) :
    Text.splitAt ';' (row cells) = cells.map text := by
  obtain ⟨cell, cells, rfl⟩ := List.exists_cons_of_ne_nil hne
  refine Text.splitAt_intercalate fun piece hpiece => ?_
  obtain ⟨c, -, rfl⟩ := List.mem_map.mp (List.map_cons ▸ hpiece : piece ∈ (cell :: cells).map text)
  exact c.not_mem_text_of_sign (by decide)

/-- A text declares what its declaration does, and nothing without one. -/
theorem slotOf?_text (valueOf : List Char → Option (List Char)) {cell : Cell}
    (hfeed : ∀ d ∈ cell.declaration?, '\n' ∉ d.value) : slotOf? valueOf cell.text =
      cell.declaration?.map fun d => slot d.property ((valueOf d.property).getD d.value) := by
  cases cell with
  | blank gap hgap =>
    have htrim : Text.trim gap = [] := Text.trim_eq_nil hgap
    rw [text, slotOf?, htrim]
    rfl
  | declared d => exact d.slotOf?_text (hfeed d rfl) valueOf

/-- Each declaration of a row is read, with the value of the first one that is found for it. -/
theorem slotsIn_row {cells : List Cell} (hfeed : ∀ d ∈ declarations cells, '\n' ∉ d.value) :
    slotsIn (row cells) = (declarations cells).map fun d =>
      slot d.property ((found cells d.property).getD d.value) := by
  cases cells with
  | nil => rfl
  | cons cell others =>
    rw [slotsIn, splitAt_row (List.cons_ne_nil _ _), List.filterMap_map, declarations,
      List.map_filterMap]
    refine List.filterMap_congr fun c hc => ?_
    have hline : ∀ d ∈ c.declaration?, '\n' ∉ d.value := fun d hd =>
      hfeed d (List.mem_filterMap.mpr ⟨c, hc, hd⟩)
    rw [Function.comp_apply, slotOf?_text _ hline]
    refine Option.map_congr fun d _ => ?_
    rw [mention?_row d.isProperty]

end Cell

end SourceSurvey.Extract.Css
