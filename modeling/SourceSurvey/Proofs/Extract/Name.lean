import SourceSurvey.Extract.Css
import SourceSurvey.Extract.Html
import SourceSurvey.Extract.Php
import SourceSurvey.Extract.Python
import SourceSurvey.Proofs.Place.Number
import SourceSurvey.Proofs.Pattern.Reading
import SourceSurvey.Proofs.Text.Blank

/-!
# Names of what is extracted

Routines and constants have names, and neither they nor imported names begin with a line feed: names
are runs of name characters, trimmed texts, or pieces of a text without line feeds.
-/

namespace SourceSurvey

/-- The name is not empty and does not begin with a line feed. -/
def BeginsInLine (name : List Char) : Prop :=
  name ≠ [] ∧ name.head? ≠ some '\n'

/-- Such a name has a first character, and it is no line feed. -/
theorem BeginsInLine.exists_cons {name : List Char} (h : BeginsInLine name) :
    ∃ c cs, name = c :: cs ∧ c ≠ '\n' := by
  cases name with
  | nil => exact absurd rfl h.1
  | cons c cs => exact ⟨c, cs, rfl, fun hc => h.2 (congrArg some hc)⟩

/-- What a character of a line begins, begins in a line. -/
theorem beginsInLine_cons {c : Char} (h : c ≠ '\n') (cs : List Char) : BeginsInLine (c :: cs) :=
  ⟨List.cons_ne_nil c cs, fun hhead => h (Option.some.inj hhead)⟩

theorem beginsInLine_ofList {name : List Char} (h : BeginsInLine name) :
    BeginsInLine (String.ofList name).toList := by
  rw [String.toList_ofList]
  exact h

/-- The names that a file declares begin with a character of a line; an imported name may be
empty. -/
structure Extraction.NamesBeginInLine (e : Extraction) : Prop where
  imports : ∀ i ∈ e.imports, ∀ name ∈ i.names, name.toList.head? ≠ some '\n'
  routines : ∀ c ∈ e.routines, BeginsInLine c.name.toList
  methods : ∀ t ∈ e.types, ∀ c ∈ t.methods, BeginsInLine c.name.toList
  globals : ∀ g ∈ e.globals, BeginsInLine g.name.toList

/-- Functions and methods alike have names that begin in a line. -/
theorem Extraction.NamesBeginInLine.routine_or_method {e : Extraction}
    (h : e.NamesBeginInLine) :
    ∀ c ∈ e.routines ++ e.types.flatMap (·.methods), BeginsInLine c.name.toList := by
  intro c hc
  rcases List.mem_append.mp hc with hc | hc
  · exact h.routines c hc
  · obtain ⟨t, ht, hct⟩ := List.mem_flatMap.mp hc
    exact h.methods t ht c hct

/-! ## Where names come from -/

/-- No trimmed text begins with a line feed. -/
theorem head?_trim_ne_lineFeed (text : List Char) : (Text.trim text).head? ≠ some '\n' := by
  cases htrim : Text.trim text with
  | nil => exact nofun
  | cons c cs =>
    intro hhead
    have hspace := Text.isSpace_eq_false_of_trim_eq_cons htrim
    rw [Option.some.inj hhead] at hspace
    cases hspace

/-- A text of one line begins with no line feed. -/
theorem head?_ne_lineFeed_of_not_mem {text : List Char} (h : '\n' ∉ text) :
    text.head? ≠ some '\n' :=
  fun hhead => h (List.mem_of_mem_head? hhead)

/-- A run of a class without the line feed begins in a line, if it is not empty. -/
theorem beginsInLine_of_run {p : Char → Bool} (hp : p '\n' = false) {t : List Char}
    (hlength : 1 ≤ t.length) (hall : ∀ x ∈ t, p x = true) : BeginsInLine t := by
  cases t with
  | nil => cases hlength
  | cons c cs =>
    refine beginsInLine_cons (fun hc => ?_) cs
    rw [hc] at hall
    rw [hall '\n' List.mem_cons_self] at hp
    cases hp

/-- A run of a class without the line feed matches texts that begin in a line. -/
theorem Pattern.yields_run1 {p : Char → Bool} (hp : p '\n' = false) :
    (run1 p).Yields BeginsInLine :=
  (yields_run p 1).imp fun _ ht => beginsInLine_of_run hp ht.1 ht.2

namespace Extract

open Pattern

/-- A piece between separators has only characters of the text that is split. -/
theorem subset_of_mem_topLevelPieces {separator : Char} {s : Nesting} {text piece : List Char}
    (h : piece ∈ topLevelPieces separator s text) : piece ⊆ text := by
  induction text generalizing s piece with
  | nil =>
    rw [List.mem_singleton.mp h]
    exact List.Subset.refl []
  | cons c cs ih =>
    unfold topLevelPieces at h
    split at h
    · rcases List.mem_cons.mp h with rfl | h
      · exact List.nil_subset _
      · exact List.subset_cons_of_subset c (ih h)
    · split at h
      · rw [List.mem_singleton.mp h]
        exact List.cons_subset_cons c (List.nil_subset cs)
      · next first others hpieces =>
        rcases List.mem_cons.mp h with rfl | h
        · exact List.cons_subset_cons c (ih (by rw [hpieces]; exact List.mem_cons_self))
        · exact List.subset_cons_of_subset c
            (ih (by rw [hpieces]; exact List.mem_cons_of_mem first h))

/-- A trimmed part has only characters of the text that is split. -/
theorem subset_of_mem_topLevelParts {separator : Char} {text part : List Char}
    (h : part ∈ topLevelParts separator text) : part ⊆ text := by
  obtain ⟨piece, hpiece, rfl⟩ := List.mem_map.mp (List.mem_filter.mp h).1
  exact List.Subset.trans (Text.trim_subset piece) (subset_of_mem_topLevelPieces hpiece)

/-- The name of a constant begins in a line. -/
theorem yields_constantName : constantName.Yields BeginsInLine := by
  refine yields_textOf ((reads_char _).bind fun t c hc => ?_)
  obtain ⟨rfl, hupper⟩ := hc
  refine (reads_run _ 0).imp fun t' _ _ => beginsInLine_cons ?_ t'
  rintro rfl
  cases hupper

/-- What is kept of a list without repetitions was in the list. -/
theorem distinctBy_subset {α β : Type} [BEq β] (key : α → β) (as : List α) :
    distinctBy key as ⊆ as := by
  induction as with
  | nil => exact List.Subset.refl []
  | cons a as ih =>
    exact List.cons_subset_cons a (List.Subset.trans List.filter_sublist.subset ih)

/-- The methods of a brace body are named if those that its lines declare are. -/
theorem membersOfBody_names {assignedSlots : Line → List Slot} {p : Place}
    (membersAt : Int → Place → Option Routine × List Slot)
    (h : ∀ depth q c, (membersAt depth q).1 = some c → BeginsInLine c.name.toList) :
    ∀ c ∈ (membersOfBody assignedSlots membersAt p).filterMap (·.1),
      BeginsInLine c.name.toList := by
  intro c hc
  obtain ⟨member, hmember, hmethod⟩ := List.mem_filterMap.mp hc
  unfold membersOfBody at hmember
  split at hmember
  · cases hmember
  · rcases List.mem_cons.mp hmember with rfl | hmember
    · cases hmethod
    · obtain ⟨q, -, rfl⟩ := List.mem_map.mp hmember
      exact h q.1 q.2 c hmethod

/-! ## Python files -/

namespace Python

theorem functionStart_yields : functionStart.Yields fun r => BeginsInLine r.2.2 := by
  unfold functionStart
  refine yields_bind fun indent => yields_bind fun isAsync => yields_bind fun _ =>
    yields_bind fun _ => (yields_run1 rfl).bind fun name hname => ?_
  exact yields_bind fun _ => yields_bind fun _ => yields_pure hname

theorem constantStart_yields : constantStart.Yields fun r => BeginsInLine r.1 := by
  unfold constantStart
  exact yields_constantName.bind fun name hname => yields_bind fun _ => yields_pure hname

theorem topLevelFunction?_name {p : Place} {c : Routine} (h : topLevelFunction? p = some c) :
    BeginsInLine c.name.toList := by
  unfold topLevelFunction? at h
  split at h
  · next isAsync name hmatch =>
    cases h
    refine beginsInLine_ofList ?_
    exact functionStart_yields.of_matchStart? hmatch
  · cases h

theorem methodAt?_name {baseline : Nat} {p : Place} {c : Routine}
    (h : methodAt? baseline p = some c) : BeginsInLine c.name.toList := by
  unfold methodAt? at h
  split at h
  · next indent isAsync name hmatch =>
    obtain ⟨-, h⟩ := Option.ite_none_right_eq_some.mp h
    cases h
    refine beginsInLine_ofList ?_
    exact functionStart_yields.of_matchStart? hmatch
  · cases h

theorem classAt?_names {p : Place} {t : TypeDeclaration} (h : classAt? p = some t) :
    ∀ c ∈ t.methods, BeginsInLine c.name.toList := by
  unfold classAt? at h
  split at h
  · cases h
  · cases h
    dsimp only
    cases baseline? p.indentedBody with
    | none => exact fun c hc => nomatch hc
    | some baseline =>
      intro c hc
      obtain ⟨q, -, hq⟩ := List.mem_filterMap.mp hc
      exact methodAt?_name hq

theorem constantAt?_name {p : Place} {g : Slot} (h : constantAt? p = some g) :
    BeginsInLine g.name.toList := by
  unfold constantAt? at h
  split at h
  · cases h
  · next name type hmatch =>
    cases h
    refine beginsInLine_ofList ?_
    exact constantStart_yields.of_matchStart? hmatch

/-- An imported name begins with no line feed. -/
theorem importsAt_names (p : Place) :
    ∀ i ∈ (importsAt p).1, ∀ name ∈ i.names, name.toList.head? ≠ some '\n' := by
  have hbinding : ∀ entry, (String.ofList (bindingName entry)).toList.head? ≠ some '\n' := by
    intro entry
    rw [String.toList_ofList]
    exact head?_trim_ne_lineFeed _
  intro i hi name hname
  unfold importsAt at hi
  dsimp only at hi
  split at hi
  · rw [List.mem_singleton] at hi
    subst hi
    obtain ⟨text, htext, rfl⟩ := List.mem_map.mp hname
    obtain ⟨entry, -, rfl⟩ := List.mem_map.mp (List.mem_filter.mp htext).1
    exact hbinding entry
  · split at hi
    · obtain ⟨entry, -, hentry⟩ := List.mem_filterMap.mp hi
      obtain ⟨module, -, rfl⟩ := Option.map_eq_some_iff.mp hentry
      rw [List.mem_singleton.mp hname]
      exact hbinding entry
    · cases hi

/-- All names that a Python file declares begin in a line. -/
theorem namesBeginInLine_extract (lines : List Line) : (extract lines).NamesBeginInLine := by
  refine ⟨?_, ?_, ?_, ?_⟩
  · intro i hi
    obtain ⟨p, -, hip⟩ := List.mem_flatMap.mp ((readStatements_sublist importsAt 0 _).subset hi)
    exact importsAt_names p i hip
  · intro c hc
    obtain ⟨p, -, hp⟩ := List.mem_filterMap.mp hc
    exact topLevelFunction?_name hp
  · intro t ht
    obtain ⟨p, -, hp⟩ := List.mem_filterMap.mp ht
    exact classAt?_names hp
  · intro g hg
    obtain ⟨p, -, hp⟩ := List.mem_filterMap.mp (distinctBy_subset _ _ hg)
    exact constantAt?_name hp

end Python

/-! ## Scripts -/

namespace JavaScript

theorem functionStart_yields : functionStart.Yields fun r => BeginsInLine r.2 := by
  unfold functionStart
  refine yields_bind fun _ => yields_bind fun _ => yields_bind fun _ => yields_bind fun _ =>
    yields_bind fun isAsync => yields_bind fun _ => yields_bind fun _ => yields_bind fun _ =>
    yields_bind fun _ => (yields_run1 rfl).bind fun bound hbound => ?_
  exact yields_bind fun _ => yields_bind fun _ => yields_bind fun _ => yields_bind fun _ =>
    yields_pure hbound

theorem functionConstant_yields : functionConstant.Yields fun r => BeginsInLine r.1 := by
  unfold functionConstant
  refine yields_bind fun _ => yields_bind fun _ => yields_bind fun _ => yields_bind fun _ =>
    (yields_run1 rfl).bind fun bound hbound => ?_
  exact yields_bind fun _ => yields_bind fun _ => yields_bind fun _ => yields_bind fun _ =>
    yields_bind fun isAsync => yields_bind fun kind => yields_pure hbound

theorem constantStart_yields : constantStart.Yields fun r => BeginsInLine r.1 := by
  unfold constantStart
  refine yields_bind fun _ => yields_bind fun _ => yields_bind fun _ => yields_bind fun _ => ?_
  exact yields_constantName.bind fun bound hbound => yields_bind fun _ => yields_pure hbound

theorem memberName_yields : memberName.Yields BeginsInLine := by
  refine yields_textOf ((reads_opt (reads_text _)).bind fun t _ ht => ?_)
  refine (reads_run Text.isNameChar 1).imp fun t' _ ht' => ?_
  rcases ht with rfl | rfl
  · exact beginsInLine_of_run rfl ht'.2.1 ht'.2.2
  · exact beginsInLine_cons (by decide) t'

theorem fieldArrow_yields : fieldArrow.Yields fun r => BeginsInLine r.2.1 := by
  unfold fieldArrow
  refine yields_bind fun _ => yields_bind fun modifiers =>
    memberName_yields.bind fun bound hbound => ?_
  exact yields_bind fun _ => yields_bind fun _ => yields_bind fun _ => yields_bind fun _ =>
    yields_bind fun isAsync => yields_bind fun parameter => yields_pure hbound

/-- A method's name has a name character, perhaps after a star and a hash. -/
theorem methodStart_yields :
    methodStart.Yields fun r => ∃ c ∈ r.2, Text.isNameChar c = true := by
  unfold methodStart
  refine yields_bind fun _ => yields_bind fun modifiers => ?_
  have hstarred : (textOf (do
      let _ ← opt (lit "*")
      blanks
      let _ ← opt (lit "#")
      name)).Yields fun starred => ∃ c ∈ starred, Text.isNameChar c = true := by
    refine yields_textOf ((reads_opt (reads_text _)).bind fun star _ _ =>
      reads_blanks.bind fun gap _ _ => (reads_opt (reads_text _)).bind fun hash _ _ => ?_)
    -- the name is read last and is not empty, so its first character is among those read
    refine (reads_run Text.isNameChar 1).imp fun bound _ hbound => ?_
    obtain ⟨-, hlength, hall⟩ := hbound
    have hmem := List.getElem_mem hlength
    refine ⟨bound[0], ?_, hall _ hmem⟩
    rw [List.mem_append, List.mem_append, List.mem_append]
    exact Or.inr (Or.inr (Or.inr hmem))
  refine hstarred.bind fun starred hname => ?_
  exact yields_bind fun _ => yields_bind fun _ => yields_bind fun _ => yields_bind fun _ =>
    yields_bind fun _ => yields_bind fun _ => yields_pure hname

theorem namespaceImport_yields : namespaceImport.Yields BeginsInLine := by
  unfold namespaceImport
  refine yields_bind fun _ => yields_bind fun _ => (yields_run1 rfl).bind fun bound hbound => ?_
  exact yields_bind fun _ => yields_pure hbound

theorem requireCall_yields : requireCall.Yields fun r => BeginsInLine r.1 := by
  unfold requireCall
  have htarget : (textOf (do lit "\x7b"; let _ ← run (· != '\x7d') 0; lit "\x7d") <|> name).Yields
      BeginsInLine := by
    refine Yields.orElse ?_ (yields_run1 rfl)
    refine yields_textOf ((reads_text _).bind fun opener _ hopener => ?_)
    refine (reads_run _ 0).bind fun inside _ _ => (reads_text _).imp fun closer _ _ => ?_
    rw [hopener]
    exact beginsInLine_cons (by decide) (inside ++ closer)
  refine yields_bind fun _ => yields_bind fun _ => yields_bind fun _ =>
    htarget.bind fun target htarget => ?_
  exact yields_bind fun _ => yields_bind fun _ => yields_bind fun _ => yields_bind fun _ =>
    yields_bind fun _ => yields_bind fun _ => yields_bind fun _ => yields_bind fun module =>
    yields_bind fun _ => yields_bind fun _ => yields_pure htarget

theorem topLevelFunction?_name {p : Place} {c : Routine} (h : topLevelFunction? p = some c) :
    BeginsInLine c.name.toList := by
  unfold topLevelFunction? at h
  dsimp only at h
  split at h
  · next isAsync bound hmatch =>
    cases h
    refine beginsInLine_ofList ?_
    exact functionStart_yields.of_matchStart? hmatch
  · split at h
    · next bound isAsync parameter hmatch =>
      cases h
      refine beginsInLine_ofList ?_
      exact functionConstant_yields.of_matchStart? hmatch
    · next bound isAsync kind hmatch hshort =>
      split at h
      · obtain ⟨-, h⟩ := Option.ite_none_right_eq_some.mp h
        cases h
        refine beginsInLine_ofList ?_
        exact functionConstant_yields.of_matchStart? hshort
      · cases h
    · cases h

/-- Without the star and the blanks of a generator a name still begins in a line. -/
theorem beginsInLine_bound {starred : List Char} (h : ∃ c ∈ starred, Text.isNameChar c = true) :
    BeginsInLine (Text.trim (starred.dropWhile (· == '*'))) := by
  obtain ⟨c, hmem, hname⟩ := h
  have hstar : (c == '*') = false := by
    rw [beq_eq_false_iff_ne]
    rintro rfl
    cases hname
  -- neither dropping stars nor trimming takes the name character away
  have hdropped : c ∈ starred.dropWhile (· == '*') := Text.mem_dropWhile hmem hstar
  have hkept := Text.mem_trim hdropped (Text.isSpace_eq_false_of_isNameChar hname)
  exact ⟨List.ne_nil_of_mem hkept, head?_trim_ne_lineFeed _⟩

theorem member?_name {p : Place} {c : Routine} (h : member? p = some c) :
    BeginsInLine c.name.toList := by
  unfold member? at h
  dsimp only at h
  split at h
  · next modifiers bound isAsync parameter hmatch =>
    cases h
    refine beginsInLine_ofList ?_
    exact fieldArrow_yields.of_matchStart? hmatch
  · next modifiers bound isAsync hmatch =>
    cases h
    refine beginsInLine_ofList ?_
    exact fieldArrow_yields.of_matchStart? hmatch
  · split at h
    · cases h
    · next modifiers starred hmatch =>
      obtain ⟨-, h⟩ := Option.ite_none_left_eq_some.mp h
      cases h
      refine beginsInLine_ofList ?_
      exact beginsInLine_bound (methodStart_yields.of_matchStart? hmatch)

theorem membersAt_name {depth : Int} {p : Place} {c : Routine}
    (h : (membersAt depth p).1 = some c) : BeginsInLine c.name.toList := by
  unfold membersAt at h
  dsimp only at h
  split at h
  · split at h
    · next hmember =>
      cases h
      exact member?_name hmember
    · cases h
  · cases h

theorem classAt?_names {p : Place} {t : TypeDeclaration} (h : classAt? p = some t) :
    ∀ c ∈ t.methods, BeginsInLine c.name.toList := by
  unfold classAt? at h
  dsimp only at h
  split at h
  · cases h
  · cases h
    dsimp only
    exact membersOfBody_names membersAt fun _ _ _ => membersAt_name

theorem constantAt?_name {p : Place} {g : Slot} (h : constantAt? p = some g) :
    BeginsInLine g.name.toList := by
  unfold constantAt? at h
  obtain ⟨-, h⟩ := Option.ite_none_left_eq_some.mp h
  split at h
  · cases h
  · next bound type hmatch =>
    cases h
    refine beginsInLine_ofList ?_
    exact constantStart_yields.of_matchStart? hmatch

theorem importClause_names {clause name : List Char} (h : name ∈ importClause clause) :
    name.head? ≠ some '\n' := by
  unfold importClause at h
  dsimp only at h
  rcases List.mem_append.mp h with h | h
  · obtain ⟨part, hpart, rfl⟩ := List.mem_map.mp h
    obtain ⟨piece, -, rfl⟩ := List.mem_map.mp (List.mem_filter.mp hpart).1
    cases hmatch : namespaceImport.matchStart? (Text.trim piece) with
    | none => exact head?_trim_ne_lineFeed piece
    | some bound => exact (namespaceImport_yields.of_matchStart? hmatch).2
  · split at h
    · obtain ⟨entry, -, rfl⟩ := List.mem_map.mp h
      exact head?_trim_ne_lineFeed _
    · cases h

/-- A name that a script imports begins with no line feed. -/
theorem importsAt_names (p : Place) :
    ∀ i ∈ (importsAt p).1, ∀ name ∈ i.names, name.toList.head? ≠ some '\n' := by
  intro i hi name hname
  unfold importsAt at hi
  dsimp only at hi
  split at hi
  · cases hi
  · dsimp only at hi
    split at hi
    · rw [List.mem_singleton] at hi
      subst hi
      obtain ⟨text, htext, rfl⟩ := List.mem_map.mp hname
      rw [String.toList_ofList]
      exact importClause_names htext
    · split at hi
      · rw [List.mem_singleton] at hi
        subst hi
        cases hname
      · split at hi
        · next target module hmatch =>
          rw [List.mem_singleton] at hi
          subst hi
          obtain ⟨text, htext, rfl⟩ := List.mem_map.mp hname
          rw [String.toList_ofList]
          have hlisted := (List.mem_filter.mp htext).1
          split at hlisted
          · obtain ⟨part, -, rfl⟩ := List.mem_map.mp hlisted
            exact head?_trim_ne_lineFeed _
          · rw [List.mem_singleton.mp hlisted]
            exact (requireCall_yields.of_matchStart? hmatch).2
        · cases hi

/-- All names that a script declares begin in a line. -/
theorem namesBeginInLine_extract (lines : List Line) : (extract lines).NamesBeginInLine := by
  refine ⟨?_, ?_, ?_, ?_⟩
  · intro i hi
    obtain ⟨p, -, hip⟩ := List.mem_flatMap.mp ((readStatements_sublist importsAt 0 _).subset hi)
    exact importsAt_names p i hip
  · intro c hc
    obtain ⟨q, -, hq⟩ := List.mem_filterMap.mp hc
    obtain ⟨-, hq⟩ := Option.ite_none_right_eq_some.mp hq
    exact topLevelFunction?_name hq
  · intro t ht
    obtain ⟨p, -, hp⟩ := List.mem_filterMap.mp ht
    exact classAt?_names hp
  · intro g hg
    obtain ⟨q, -, hq⟩ := List.mem_filterMap.mp (distinctBy_subset _ _ hg)
    obtain ⟨-, hq⟩ := Option.ite_none_right_eq_some.mp hq
    exact constantAt?_name hq

end JavaScript

/-! ## PHP files -/

namespace Php

theorem functionName_yields : functionName.Yields BeginsInLine := by
  unfold functionName
  refine yields_bind fun _ => yields_bind fun _ => yields_bind fun _ => yields_bind fun _ =>
    (yields_run1 rfl).bind fun bound hbound => ?_
  exact yields_bind fun _ => yields_bind fun _ => yields_pure hbound

theorem functionStart_yields : functionStart.Yields BeginsInLine :=
  yields_bind fun _ => functionName_yields

theorem methodStart_yields : methodStart.Yields fun r => BeginsInLine r.2 := by
  unfold methodStart
  exact yields_bind fun _ => yields_bind fun modifiers =>
    functionName_yields.bind fun bound hbound => yields_pure hbound

theorem defineCall_yields : defineCall.Yields fun r => BeginsInLine r.1 := by
  unfold defineCall
  refine yields_bind fun _ => yields_bind fun _ => yields_bind fun _ => yields_bind fun _ =>
    yields_bind fun _ => (yields_run1 rfl).bind fun bound hbound => ?_
  exact yields_bind fun _ => yields_bind fun _ => yields_bind fun _ => yields_bind fun _ =>
    yields_bind fun value => yields_bind fun _ => yields_bind fun _ => yields_bind fun _ =>
    yields_bind fun _ => yields_bind fun _ => yields_pure hbound

theorem constantStart_yields : constantStart.Yields BeginsInLine := by
  unfold constantStart
  refine yields_bind fun _ => yields_bind fun _ => yields_bind fun _ =>
    (yields_run1 rfl).bind fun bound hbound => ?_
  exact yields_bind fun _ => yields_bind fun _ => yields_bind fun _ => yields_pure hbound

theorem membersAt_name {depth : Int} {p : Place} {c : Routine}
    (h : (membersAt depth p).1 = some c) : BeginsInLine c.name.toList := by
  unfold membersAt at h
  dsimp only at h
  split at h
  · split at h
    · next modifiers bound hmatch =>
      cases h
      refine beginsInLine_ofList ?_
      exact methodStart_yields.of_matchStart? hmatch
    · cases h
  · cases h

theorem typeAt?_names {p : Place} {t : TypeDeclaration} (h : typeAt? p = some t) :
    ∀ c ∈ t.methods, BeginsInLine c.name.toList := by
  unfold typeAt? at h
  dsimp only at h
  split at h
  · cases h
  · cases h
    dsimp only
    exact membersOfBody_names membersAt fun _ _ _ => membersAt_name

theorem constantAt?_name {q : Nat × Place} {g : Slot} (h : constantAt? q = some g) :
    BeginsInLine g.name.toList := by
  obtain ⟨depth, p⟩ := q
  unfold constantAt? at h
  obtain ⟨⟨bound, value⟩, hdeclared, rfl⟩ := Option.map_eq_some_iff.mp h
  refine beginsInLine_ofList ?_
  split at hdeclared
  · exact defineCall_yields.of_matchStart? hdeclared
  · obtain ⟨-, hdeclared⟩ := Option.ite_none_right_eq_some.mp hdeclared
    obtain ⟨bound', hmatch, hpair⟩ := Option.map_eq_some_iff.mp hdeclared
    cases hpair
    exact constantStart_yields.of_matchStart? hmatch

theorem aliasMark_reads : aliasMark.Reads fun _ _ => True := by
  unfold aliasMark
  exact reads_blanks1.bind fun _ _ _ => (reads_text _).bind fun _ _ _ =>
    reads_blanks1.imp fun _ _ _ => trivial

/-- Blanks in a clause are single spaces, so its paths have no line feed. -/
theorem lineFeed_not_mem_usedPaths {clause path : List Char} (h : path ∈ usedPaths clause) :
    '\n' ∉ path := by
  have htext : '\n' ∉ Text.trim (Text.replaceRuns Text.isSpace [' '] clause) := by
    intro hmem
    rcases Text.mem_replaceRuns (Text.trim_subset _ hmem) with hmem | ⟨-, hspace⟩
    · cases List.mem_singleton.mp hmem
    · cases hspace
  unfold usedPaths at h
  dsimp only at h
  generalize Text.trim (Text.replaceRuns Text.isSpace [' '] clause) = text at h htext
  split at h
  · exact fun hmem => htext (subset_of_mem_topLevelParts h hmem)
  · next n hopening =>
    split at h
    -- a path of a group is the root before the brace and a member from inside it
    · obtain ⟨member, hmember, rfl⟩ := List.mem_map.mp h
      have hinside := Text.subset_of_mem_splitWhere (List.mem_filter.mp hmember).1
      intro hmem
      rcases List.mem_append.mp hmem with hmem | hmem
      · have hroot := (Text.trimEndWhile_isPrefix _ _).subset (Text.trim_subset _ hmem)
        exact htext (List.mem_of_mem_take (Text.trim_subset _ hroot))
      · rcases List.mem_cons.mp hmem with hmem | hmem
        · cases hmem
        · have hdropped := (List.dropLast_sublist _).subset (hinside (Text.trim_subset _ hmem))
          exact htext (List.mem_of_mem_drop hdropped)
    · exact fun hmem => htext (subset_of_mem_topLevelParts h hmem)

theorem usedModules_names {clause module bound : List Char}
    (h : (module, bound) ∈ usedModules clause) : bound.head? ≠ some '\n' := by
  obtain ⟨member, hmember, h⟩ := List.mem_filterMap.mp h
  have hpath := lineFeed_not_mem_usedPaths hmember
  split at h
  · cases h
  · next path aliases hpieces =>
    obtain ⟨-, h⟩ := Option.ite_none_left_eq_some.mp h
    cases h
    cases aliases with
    -- without an alias a module is bound to the last part of its path
    | nil =>
      have hpiece : path ⊆ Text.trim member :=
        aliasMark_reads.subset_of_mem_splitOn (by rw [hpieces]; exact List.mem_cons_self)
      refine head?_ne_lineFeed_of_not_mem fun hmem => hpath ?_
      have hmodule := (List.dropWhile_suffix _).subset (Text.afterLast_subset _ _ hmem)
      exact Text.trim_subset _ (hpiece (Text.trim_subset _ hmodule))
    | cons bound others => exact head?_trim_ne_lineFeed bound

/-- A name that a PHP file imports begins with no line feed. -/
theorem importsAt_names (q : Nat × Place) :
    ∀ i ∈ (importsAt q).1, ∀ name ∈ i.names, name.toList.head? ≠ some '\n' := by
  obtain ⟨depth, p⟩ := q
  intro i hi name hname
  unfold importsAt at hi
  dsimp only at hi
  split at hi
  · obtain ⟨⟨module, bound⟩, hpair, rfl⟩ := List.mem_map.mp hi
    rw [List.mem_singleton.mp hname, String.toList_ofList]
    generalize useClause.matchStart? _ = clause? at hpair
    cases clause? with
    | none => cases hpair
    | some clause => exact usedModules_names hpair
  · split at hi
    · split at hi
      · rw [List.mem_singleton] at hi
        subst hi
        cases hname
      · cases hi
    · cases hi

/-- All names that a PHP file declares begin in a line. -/
theorem namesBeginInLine_extract (lines : List Line) : (extract lines).NamesBeginInLine := by
  refine ⟨?_, ?_, ?_, ?_⟩
  · intro i hi
    obtain ⟨q, -, hiq⟩ := List.mem_flatMap.mp ((readStatements_sublist importsAt 0 _).subset hi)
    exact importsAt_names q i hiq
  · intro c hc
    obtain ⟨q, -, hq⟩ := List.mem_filterMap.mp hc
    obtain ⟨-, hq⟩ := Option.ite_none_right_eq_some.mp hq
    obtain ⟨bound, hmatch, rfl⟩ := Option.map_eq_some_iff.mp hq
    refine beginsInLine_ofList ?_
    exact functionStart_yields.of_matchStart? hmatch
  · intro t ht
    obtain ⟨p, -, hp⟩ := List.mem_filterMap.mp ht
    exact typeAt?_names hp
  · intro g hg
    obtain ⟨q, -, hq⟩ := List.mem_filterMap.mp (distinctBy_subset _ _ hg)
    exact constantAt?_name hq

end Php

end Extract

end SourceSurvey
