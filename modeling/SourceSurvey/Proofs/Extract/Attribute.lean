import SourceSurvey.Proofs.Extract.Ownership
import SourceSurvey.Proofs.Pattern.Search
import SourceSurvey.Proofs.Summary.Distinct

/-!
# The class of an attribute

The attributes of a class are its fields, which stand at the indentation of its body, and what the
deeper lines of the body assign on `self`. Main statement: what a line assigns is among the
attributes of every class that has the line in its body, a class around a nested one included. The
nested lines make no difference only where the outer class declares the same names above them.
-/

namespace SourceSurvey.Extract.Python

open Pattern

/-! ## Assignments on the instance -/

/-- What may stand between a name and the equals sign of its assignment: blanks, or a type behind a
colon. -/
def IsTypeMark (mark : List Char) : Prop :=
  (∀ c ∈ mark, Text.isSpace c = true) ∨
    ∃ gap type, mark = gap ++ ':' :: type ∧ (∀ c ∈ gap, Text.isSpace c = true) ∧ type ≠ [] ∧
      '=' ∉ type

/-- `self.` with this name stands at the place, apart from any word before it, and this text behind
it. -/
structure NamesAttribute (name : List Char) (c : Cursor) (after : List Char) : Prop where
  text : c.rest = "self.".toList ++ (name ++ after)
  apart : c.prev.any Text.isWord = false
  nonempty : name ≠ []
  word : ∀ d ∈ name, Text.isWord d = true

/-- An attribute of this name is assigned at the place, and this text follows the equals sign. -/
def AssignsAt (name : List Char) (c : Cursor) (value : List Char) : Prop :=
  ∃ mark, NamesAttribute name c (mark ++ '=' :: value) ∧ IsTypeMark mark ∧ value.head? ≠ some '='

/-- A type begins behind a name on `self` and no equals sign stands behind its colon. -/
def LeavesTypeOpen (text : List Char) : Prop :=
  ∃ front back name gap type, text = front ++ back ∧
    NamesAttribute name ⟨front.getLast?, back⟩ (gap ++ ':' :: type) ∧
    (∀ c ∈ gap, Text.isSpace c = true) ∧ '=' ∉ type

/-- The line assigns an attribute of this name, and not in what reads as the type of another one. -/
def AssignsAttribute (name : List Char) (code : Line) : Prop :=
  ∃ before here value, code = before ++ here ∧ AssignsAt name ⟨before.getLast?, here⟩ value ∧
    ¬ LeavesTypeOpen before

/-- The mark of a type holds no equals sign. -/
theorem IsTypeMark.not_mem {mark : List Char} (h : IsTypeMark mark) : '=' ∉ mark := by
  rcases h with hblank | ⟨gap, type, rfl, hgap, -, htype⟩
  · exact Text.not_mem_of_class hblank (by decide)
  · have hnot := Text.not_mem_of_class (d := '=') hgap (by decide)
    simp [hnot, htype]

/-- No word character follows a name that is assigned, so that the longest name is the whole one. -/
theorem head?_typeMark {mark : List Char} (h : IsTypeMark mark) (value : List Char) :
    (mark ++ '=' :: value).head?.any Text.isWord = false := by
  have hspace : ∀ c, Text.isSpace c = true → Text.isWord c = false := fun c hc => by
    have hname := Text.isNameChar_eq_false_of_isSpace hc
    rw [Text.isNameChar, Bool.or_eq_false_iff] at hname
    exact hname.1
  have hmark : ∀ gap more : List Char, (∀ c ∈ gap, Text.isSpace c = true) →
      more.head?.any Text.isWord = false → (gap ++ more).head?.any Text.isWord = false := by
    rintro (_ | ⟨c, gap⟩) more hgap hmore
    · exact hmore
    · exact hspace c (hgap c List.mem_cons_self)
  rcases h with hblank | ⟨gap, type, rfl, hgap, -, -⟩
  · exact hmark mark _ hblank (by decide : Text.isWord '=' = false)
  · rw [List.append_assoc]
    exact hmark gap _ hgap (by decide : Text.isWord ':' = false)

/-! ## The readings of an assignment -/

/-- An assignment is read up to an equals sign that no other follows. -/
theorem exists_of_mem_annotatedAssignment {c : Cursor} {r : Option (List Char) × Cursor}
    (h : r ∈ (annotatedAssignment c).toList) :
    ∃ mark, IsTypeMark mark ∧ c.rest = mark ++ '=' :: r.2.rest ∧ r.2.rest.head? ≠ some '=' := by
  have htype : Pattern.Reads (do lit ":"; blanks; runLazy (· != '=') 1) fun t _ =>
      ∃ type, t = ':' :: type ∧ type ≠ [] ∧ '=' ∉ type := by
    refine (reads_lit ":").bind fun colon _ hcolon => reads_blanks.bind fun gap _ hgap =>
      (reads_runLazy _ 1).imp fun t _ ht => ?_
    have hne : t ≠ [] := List.ne_nil_of_length_pos ht.2.1
    have hnot : '=' ∉ t := Text.not_mem_of_class ht.2.2 (by decide)
    have hgap : '=' ∉ gap := Text.not_mem_of_class hgap (by decide)
    exact ⟨gap ++ t, by simp [hcolon], by simp [hne], by simp [hgap, hnot]⟩
  -- the five parts of the pattern, taken apart in their order
  unfold annotatedAssignment at h
  obtain ⟨r₁, h₁, h⟩ := mem_bind h
  obtain ⟨r₂, h₂, h⟩ := mem_bind h
  obtain ⟨r₃, h₃, h⟩ := mem_bind h
  obtain ⟨r₄, h₄, h⟩ := mem_bind h
  obtain ⟨r₅, h₅, h⟩ := mem_bind h
  obtain rfl := List.mem_singleton.mp h
  obtain ⟨gap, hrest₁, hgap⟩ := reads_blanks _ _ h₁
  obtain ⟨typed, hrest₂, htyped⟩ := reads_opt htype _ _ h₂
  obtain ⟨gap', hrest₃, hgap'⟩ := reads_blanks _ _ h₃
  obtain ⟨sign, hrest₄, rfl⟩ := reads_lit "=" _ _ h₄
  obtain ⟨hvalue, rfl⟩ := mem_checkAt.mp h₅
  refine ⟨gap ++ (typed ++ gap'), ?_, ?_, ?_⟩
  · rcases htyped with rfl | ⟨type, rfl, hne, hnot⟩
    · left
      simpa [or_imp, forall_and] using ⟨hgap, hgap'⟩
    · right
      have hgap' : '=' ∉ gap' := Text.not_mem_of_class hgap' (by decide)
      exact ⟨gap, type ++ gap', by simp, hgap, by simp [hne], by simp [hnot, hgap']⟩
  · rw [hrest₁, hrest₂, hrest₃, hrest₄]
    simp
  · intro heq
    simp [heq] at hvalue

/-- An equals sign that no other follows can be taken as an assignment. -/
theorem exists_canTake_annotatedAssignment {mark value : List Char} (hmark : IsTypeMark mark)
    (hvalue : value.head? ≠ some '=') :
    ∃ type, annotatedAssignment.CanTake (mark ++ '=' :: value) type value := by
  have hcheck : (notBefore (· == '=')).Takes value () value := by
    refine takes_notBefore ?_
    cases value with
    | nil => rfl
    | cons c cs => simpa using hvalue
  have hend : ∀ type : Option (List Char), Pattern.CanTake
      (do blanks; lit "="; notBefore (· == '='); return type) ('=' :: value) type value := by
    intro type
    refine (canTake_no_blanks _).bind ?_
    exact ((takes_lit "=" value).bind (hcheck.bind (takes_pure type value))).canTake
  unfold annotatedAssignment
  rcases hmark with hblank | ⟨gap, type, rfl, hgap, hne, hnot⟩
  · exact ⟨none, (canTake_blanks hblank _).bind ((canTake_opt_none _ _).bind (hend none))⟩
  · refine ⟨some type, ?_⟩
    rw [List.append_assoc]
    have htype : Pattern.CanTake (do lit ":"; blanks; runLazy (· != '=') 1)
        (':' :: (type ++ '=' :: value)) type ('=' :: value) := by
      refine (takes_lit ":" _).canTake.bind ((canTake_no_blanks _).bind (canTake_runLazy ?_ ?_ _))
      · intro c hc
        have hsign : c ≠ '=' := fun heq => hnot (heq ▸ hc)
        simpa using hsign
      · exact List.length_pos_iff.mpr hne
    exact (canTake_blanks hgap _).bind (htype.opt.bind (hend (some type)))

/-- Where the pattern for an attribute matches, one is assigned. -/
theorem assignsAt_of_mem {c : Cursor} {r : (List Char × Option (List Char)) × Cursor}
    (h : r ∈ (selfAttribute c).toList) : AssignsAt r.1.1 c r.2.rest := by
  unfold selfAttribute at h
  obtain ⟨r₁, h₁, h⟩ := mem_bind h
  obtain ⟨r₂, h₂, h⟩ := mem_bind h
  obtain ⟨r₃, h₃, h⟩ := mem_bind h
  obtain ⟨r₄, h₄, h⟩ := mem_bind h
  obtain rfl := List.mem_singleton.mp h
  obtain ⟨self, hrest₂, rfl⟩ := reads_lit "self." _ _ h₂
  obtain ⟨name, hrest₃, hname, hlength, hword⟩ := reads_run _ 1 _ _ h₃
  obtain ⟨mark, hmark, hrest₄, hvalue⟩ := exists_of_mem_annotatedAssignment h₄
  obtain ⟨hboundary, rfl⟩ := mem_checkAt.mp h₁
  dsimp only at hrest₂ hname hboundary ⊢
  have hself : c.rest.head?.any Text.isWord = true := by
    rw [hrest₂]
    exact (by decide : Text.isWord 's' = true)
  rw [hself] at hboundary
  subst hname
  refine ⟨mark, ⟨?_, by simpa using hboundary, List.ne_nil_of_length_pos hlength, hword⟩, hmark,
    hvalue⟩
  rw [hrest₂, hrest₃, hrest₄]

/-- The longest name is the one that is read. -/
theorem AssignsAt.exists_first? {name value : List Char} {c : Cursor} (h : AssignsAt name c value) :
    ∃ r, (selfAttribute c).first? = some r ∧ r.1.1 = name := by
  obtain ⟨prev, rest⟩ := c
  obtain ⟨mark, ⟨htext, hapart, hne, hword⟩, hmark, hvalue⟩ := h
  dsimp only at htext hapart
  subst htext
  obtain ⟨type, htype⟩ := exists_canTake_annotatedAssignment hmark hvalue
  have hname : (run1 Text.isWord).Takes (name ++ (mark ++ '=' :: value)) name
      (mark ++ '=' :: value) :=
    takes_run hword (List.length_pos_iff.mpr hne) (head?_typeMark hmark value)
  have hassigned : (annotatedAssignment >>= fun type => pure (name, type)).CanTake
      (mark ++ '=' :: value) (name, type) value :=
    htype.bind (takes_pure (name, type) value).canTake
  have hboundary : (prev.any Text.isWord !=
      ("self.".toList ++ (name ++ (mark ++ '=' :: value))).head?.any Text.isWord) = true := by
    rw [hapart]
    exact (by decide : (false != Text.isWord 's') = true)
  obtain ⟨last, hself⟩ := (takes_lit "self." (name ++ (mark ++ '=' :: value))).first?_bind (fun _ =>
    run1 Text.isWord >>= fun name => annotatedAssignment >>= fun type => pure (name, type)) prev
  obtain ⟨last', hlongest⟩ := hname.first?_bind
    (fun name => annotatedAssignment >>= fun type => pure (name, type)) last
  obtain ⟨r, hr⟩ := hassigned.exists_first? last'
  refine ⟨r, (first?_checkAt_bind hboundary _).trans (hself r (hlongest r hr)), ?_⟩
  have hyields : (annotatedAssignment >>= fun type => pure (name, type)).Yields
      fun a => a.1 = name :=
    yields_bind fun _ => yields_pure rfl
  exact hyields _ r (mem_toList_of_first? hr)

/-- An assignment takes at least one character. -/
theorem advances_annotatedAssignment : annotatedAssignment.Advances := by
  unfold annotatedAssignment
  refine advances_blanks.bind fun _ => Advances.bind ?_ fun _ => advances_blanks.bind fun _ =>
    (advances_lit _).bind fun _ => (advances_checkAt _).bind fun _ => advances_pure _
  exact ((advances_lit _).bind fun _ => advances_blanks.bind fun _ => advances_runLazy _ _).opt

/-- A reading ends behind the equals sign. -/
theorem exists_advance_of_mem_selfAttribute {c : Cursor}
    {r : (List Char × Option (List Char)) × Cursor} (h : r ∈ (selfAttribute c).toList) :
    ∃ n, 0 < n ∧ n ≤ c.rest.length ∧ r.2 = c.advance n ∧ c.rest[n - 1]? = some '=' ∧
      AssignsAt r.1.1 c (c.rest.drop n) := by
  have hadvances : selfAttribute.Advances :=
    (advances_checkAt _).bind fun _ => (advances_lit _).bind fun _ => (advances_run _ _).bind
      fun _ => advances_annotatedAssignment.bind fun _ => advances_pure _
  obtain ⟨n, hn, hend⟩ := hadvances c r h
  have hassigns := assignsAt_of_mem h
  rw [hend, Cursor.rest_advance] at hassigns
  obtain ⟨mark, hnames, hmark, hvalue⟩ := hassigns
  have htext : c.rest = ("self.".toList ++ (r.1.1 ++ mark)) ++ '=' :: c.rest.drop n := by
    rw [List.append_assoc, List.append_assoc]
    exact hnames.text
  have hlength := congrArg List.length htext
  simp only [List.length_append, List.length_cons, List.length_drop] at hlength
  have hsign : n - 1 = ("self.".toList ++ (r.1.1 ++ mark)).length := by
    simp only [List.length_append]
    omega
  refine ⟨n, by omega, hn, hend, ?_, mark, hnames, hmark, hvalue⟩
  rw [hsign, htext]
  simp

/-! ## Assignments one after the other -/

section Overlap

variable {v t m z : List Char} {d : Char}

theorem self_append_ne (hm : '.' ∉ m) (hd : d ∉ "self.".toList) :
    "self.".toList ++ t ≠ m ++ d :: z := by
  intro h
  rcases List.append_eq_append_iff.mp h with ⟨front, rfl, -⟩ | ⟨back, hself, hback⟩
  · exact hm (List.mem_append_left _ (by decide))
  · cases back with
    | nil =>
      rw [List.append_nil] at hself
      exact hm (hself ▸ by decide)
    | cons x xs =>
      obtain ⟨rfl, -⟩ := List.cons.inj hback
      exact hd (by rw [hself]; exact List.mem_append_right _ List.mem_cons_self)

/-- A text without a dot ends before `self.` begins. -/
theorem exists_append_of_append_self (hm : '.' ∉ m) (hd : d ∉ "self.".toList)
    (h : v ++ ("self.".toList ++ t) = m ++ d :: z) :
    ∃ v', v = m ++ d :: v' ∧ z = v' ++ ("self.".toList ++ t) := by
  rcases List.append_eq_append_iff.mp h with ⟨front, rfl, hself⟩ | ⟨back, rfl, hback⟩
  · exact absurd hself (self_append_ne (fun hdot => hm (List.mem_append_right _ hdot)) hd)
  · cases back with
    | nil => exact absurd hback.symm (self_append_ne (m := []) List.not_mem_nil hd)
    | cons x xs =>
      obtain ⟨rfl, rfl⟩ := List.cons.inj hback
      exact ⟨xs, rfl, rfl⟩

/-- One `self.` does not begin inside another. -/
theorem exists_eq_self_append (hv : v ≠ [])
    (h : v ++ ("self.".toList ++ t) = "self.".toList ++ z) :
    ∃ v', v = "self.".toList ++ v' ∧ v' ++ ("self.".toList ++ t) = z := by
  rcases v with _ | ⟨a, _ | ⟨b, _ | ⟨c, _ | ⟨d, _ | ⟨e, v⟩⟩⟩⟩⟩ <;> simp_all

end Overlap

/-- What is assigned at an earlier place ends before a later `self.`, unless its type is open
there. -/
theorem AssignsAt.exists_append {front v here name value : List Char}
    (h : AssignsAt name ⟨front.getLast?, v ++ ("self.".toList ++ here)⟩ value) (hv : v ≠ [])
    (hclosed : ¬ LeavesTypeOpen (front ++ v)) : ∃ v', value = v' ++ ("self.".toList ++ here) := by
  obtain ⟨mark, ⟨htext, hapart, hne, hword⟩, hmark, -⟩ := h
  obtain ⟨w, rfl, hw⟩ := exists_eq_self_append hv htext
  have hname : '.' ∉ name := Text.not_mem_of_class hword (by decide)
  rcases hmark with hblank | ⟨gap, type, rfl, hgap, -, hnot⟩
  · have hmark : '.' ∉ mark := Text.not_mem_of_class hblank (by decide)
    have hfront : '.' ∉ name ++ mark := by simp [hname, hmark]
    rw [← List.append_assoc name] at hw
    obtain ⟨v', -, hvalue⟩ := exists_append_of_append_self hfront (d := '=') (by decide) hw
    exact ⟨v', hvalue⟩
  · have hdot : '.' ∉ gap := Text.not_mem_of_class hgap (by decide)
    have hfront : '.' ∉ name ++ gap := by simp [hname, hdot]
    rw [List.append_assoc, List.cons_append, ← List.append_assoc name] at hw
    obtain ⟨v', rfl, hvalue⟩ := exists_append_of_append_self hfront (d := ':') (by decide) hw
    -- the type is closed by an equals sign before the later place
    have hsign : '=' ∈ v' := by
      by_contra hnone
      refine hclosed ⟨front, _, name, gap, v', rfl, ⟨?_, hapart, hne, hword⟩, hgap, hnone⟩
      rw [List.append_assoc]
    rcases List.append_eq_append_iff.mp hvalue with ⟨back, rfl, hback⟩ | ⟨back, rfl, hback⟩
    · cases back with
      | nil => simp [hnot] at hsign
      | cons x xs =>
        obtain ⟨rfl, rfl⟩ := List.cons.inj hback
        exact ⟨xs, rfl⟩
    · exact absurd (List.mem_append_left back hsign) hnot

/-- A type that is open before an assignment is closed by its equals sign. -/
theorem AssignsAt.openType {front back here name other value gap type : List Char}
    {prev : Option Char} (h : AssignsAt other ⟨prev, here⟩ value)
    (hnames : NamesAttribute name ⟨front.getLast?, back⟩ (gap ++ ':' :: type))
    (hgap : ∀ c ∈ gap, Text.isSpace c = true) (hnot : '=' ∉ type) :
    AssignsAt name ⟨front.getLast?, back ++ here⟩ value := by
  obtain ⟨htext, hapart, hne, hword⟩ := hnames
  obtain ⟨mark, ⟨htext', -, -, hword'⟩, hmark, hvalue⟩ := h
  dsimp only at htext htext'
  subst htext htext'
  have hother : '=' ∉ other := Text.not_mem_of_class hword' (by decide)
  refine ⟨gap ++ ':' :: (type ++ ("self.".toList ++ (other ++ mark))), ⟨?_, hapart, hne, hword⟩,
    Or.inr ⟨gap, _, rfl, hgap, ?_, ?_⟩, hvalue⟩
  · simp
  · simp
  · simp [hnot, hother, hmark.not_mem]

theorem advance_start_append (before here : List Char) :
    (Cursor.start (before ++ here)).advance before.length = ⟨before.getLast?, here⟩ := by
  rw [Cursor.start, Cursor.advance_append, Option.or_none]

/-- An attribute is assigned within its line. -/
theorem lt_length_of_assignsAt {code : Line} {name value : List Char} {k : Nat}
    (h : AssignsAt name ((Cursor.start code).advance k) value) : k < code.length := by
  obtain ⟨mark, ⟨htext, -, -, -⟩, -, -⟩ := h
  rw [Cursor.rest_advance] at htext
  have hlength := congrArg List.length htext
  simp [Cursor.start] at hlength
  omega

/-- A reading from the first of three pieces that ends in the second one leaves its equals sign
there. -/
theorem mem_of_ends_within {front back here : List Char} {i n : Nat}
    {r : (List Char × Option (List Char)) × Cursor}
    (hr : r ∈ (selfAttribute ((Cursor.start (front ++ back ++ here)).advance i)).toList)
    (hend : r.2 = (Cursor.start (front ++ back ++ here)).advance n) (hlt : front.length < n)
    (hle : n ≤ (front ++ back).length) : '=' ∈ back := by
  obtain ⟨m, hpos, hm, hend', hsign, -⟩ := exists_advance_of_mem_selfAttribute hr
  have hreach : n = i + m := by
    rw [hend', Cursor.advance_advance] at hend
    have hlength := congrArg (fun c => c.rest.length) hend
    simp only [Cursor.start, Cursor.rest_advance, List.length_drop, List.length_append] at *
    omega
  rw [List.length_append] at hle
  rw [Cursor.rest_advance, Cursor.start, List.getElem?_drop, List.append_assoc,
    List.getElem?_append_right (by omega), List.getElem?_append_left (by omega)] at hsign
  exact List.mem_of_getElem? hsign

/-- What the search for attributes finds is assigned on the line. -/
theorem assignsAttribute_of_mem_searchAll {code : Line}
    {f : Found (List Char × Option (List Char))} (hf : f ∈ selfAttribute.searchAll code) :
    AssignsAttribute f.value.1 code := by
  have hproceeds : ∀ c r, (selfAttribute c).first? = some r → ∃ n, 0 < n ∧ r.2 = c.advance n := by
    intro c r hr
    obtain ⟨n, hpos, -, hend, -, -⟩ := exists_advance_of_mem_selfAttribute (mem_toList_of_first? hr)
    exact ⟨n, hpos, hend⟩
  obtain ⟨k, hk, hcovers⟩ := exists_advance_of_mem_searchUpTo hproceeds hf
  have hassigns := assignsAt_of_mem (mem_toList_of_first? hk)
  obtain ⟨before, here, rfl, rfl⟩ : ∃ before here, code = before ++ here ∧ before.length = k :=
    ⟨code.take k, code.drop k, (List.take_append_drop k code).symm,
      List.length_take_of_le (Nat.le_of_lt (lt_length_of_assignsAt hassigns))⟩
  rw [advance_start_append] at hassigns
  refine ⟨before, here, _, rfl, hassigns, ?_⟩
  -- an open type would be read with the assignment, or in part by a reading before it
  rintro ⟨front, back, name, gap, type, rfl, hnames, hgap, hnot⟩
  obtain ⟨s, hs, -⟩ := (hassigns.openType hnames hgap hnot).exists_first?
  rw [← advance_start_append, ← List.append_assoc] at hs
  obtain ⟨htext, -, -, hword⟩ := hnames
  dsimp only at htext
  have hback : '=' ∉ back := by
    have hname : '=' ∉ name := Text.not_mem_of_class hword (by decide)
    have hgap : '=' ∉ gap := Text.not_mem_of_class hgap (by decide)
    simp [htext, hname, hgap, hnot]
  have hinside : front.length < (front ++ back).length := by simp [htext]
  obtain ⟨i, -, r, n, hr, hend, hin, hnk⟩ := hcovers front.length hinside s hs
  exact hback (mem_of_ends_within (mem_toList_of_first? hr) hend hin hnk)

/-- What is assigned on the line is found by the search. -/
theorem exists_mem_searchAll_of_assignsAttribute {name : List Char} {code : Line}
    (h : AssignsAttribute name code) : ∃ f ∈ selfAttribute.searchAll code, f.value.1 = name := by
  obtain ⟨before, here, value, rfl, hassigns, hclosed⟩ := h
  obtain ⟨r, hr, rfl⟩ := hassigns.exists_first?
  obtain ⟨mark, ⟨htext, -, -, -⟩, -, -⟩ := hassigns
  dsimp only at htext
  have hends : ∀ j < before.length, ∀ s,
      (selfAttribute ((Cursor.start (before ++ here)).advance j)).first? = some s →
      ∃ n, j < n ∧ n ≤ before.length ∧ s.2 = (Cursor.start (before ++ here)).advance n := by
    intro j hj s hs
    obtain ⟨n, hpos, hn, hend, -, hearlier⟩ :=
      exists_advance_of_mem_selfAttribute (mem_toList_of_first? hs)
    obtain ⟨front, v, rfl, rfl⟩ : ∃ front v, before = front ++ v ∧ front.length = j :=
      ⟨before.take j, before.drop j, (List.take_append_drop j before).symm,
        List.length_take_of_le (Nat.le_of_lt hj)⟩
    rw [List.length_append] at hj ⊢
    rw [List.append_assoc, advance_start_append, htext] at hearlier hn
    obtain ⟨v', hv'⟩ := hearlier.exists_append (List.ne_nil_of_length_pos (by omega)) hclosed
    have hlength := congrArg List.length hv'
    simp only [List.length_drop, List.length_append] at hlength hn
    refine ⟨front.length + n, by omega, by omega, ?_⟩
    rw [hend, Cursor.advance_advance]
  have hlimit : before.length < (before ++ here).length := by
    rw [List.length_append, htext]
    simp
  rw [← advance_start_append] at hr
  obtain ⟨f, hf, hvalue⟩ := exists_mem_searchUpTo hlimit hends hr
  exact ⟨f, hf, congrArg Prod.fst hvalue⟩

/-- The attributes that a line assigns are those that are read in it. -/
theorem exists_mem_searchAll_iff {name : List Char} {code : Line} :
    (∃ f ∈ selfAttribute.searchAll code, f.value.1 = name) ↔ AssignsAttribute name code := by
  constructor
  · rintro ⟨f, hf, rfl⟩
    exact assignsAttribute_of_mem_searchAll hf
  · exact exists_mem_searchAll_of_assignsAttribute

/-! ## The lines of a body -/

/-- The indentation of the body of a class: that of its first line that is not blank. -/
def bodyIndentation (p : Place) : Nat :=
  (baseline? p.indentedBody).getD 0

/-- The names of the attributes that a line of a body declares. -/
def declaredNames (baseline : Nat) (p : Place) : List String :=
  (attributesAt baseline p).map (·.name)

/-- Among these places, a class that begins in the body of this one has the line in its own body. -/
def IsNested (ps : List Place) (p r : Place) : Prop :=
  ∃ q ∈ ps, BeginsClass q ∧ q.number ∈ p.span ∧ r.number ∈ q.span

instance (ps : List Place) (p r : Place) : Decidable (IsNested ps p r) :=
  inferInstanceAs (Decidable (∃ q ∈ ps, _))

/-- A line that assigns an attribute is not blank. -/
theorem AssignsAttribute.isBlank_eq_false {name : List Char} {code : Line}
    (h : AssignsAttribute name code) : Text.isBlank code = false := by
  obtain ⟨before, here, value, rfl, ⟨mark, ⟨htext, -, -, -⟩, -, -⟩, -⟩ := h
  dsimp only at htext
  subst htext
  exact Text.isBlank_append_cons (c := 's') (by decide) _ _

/-- A blank line has no attributes. -/
theorem attributesAt_of_isBlank {baseline : Nat} {p : Place} (h : Text.isBlank p.code = true) :
    attributesAt baseline p = [] := by
  rw [attributesAt, if_pos h]

/-- A line that is no field declares what it assigns on the instance. -/
theorem mem_declaredNames_iff {baseline : Nat} {p : Place} {name : String}
    (hfield : Text.isBlank p.code = false → isFieldLine baseline p.code = false) :
    name ∈ declaredNames baseline p ↔ AssignsAttribute name.toList p.code := by
  cases hblank : Text.isBlank p.code with
  | true =>
    rw [declaredNames, attributesAt_of_isBlank hblank]
    refine ⟨fun h => (nomatch h), fun h => ?_⟩
    rw [h.isBlank_eq_false] at hblank
    cases hblank
  | false =>
    rw [declaredNames, attributesAt, hblank, hfield hblank, if_neg Bool.false_ne_true,
      if_neg Bool.false_ne_true, List.map_map, List.mem_map, ← exists_mem_searchAll_iff]
    refine exists_congr fun f => and_congr_right fun _ => ?_
    show String.ofList f.value.1 = name ↔ _
    rw [← String.toList_inj, String.toList_ofList]

/-- A class lists what the lines of its body declare, each name where it comes first. -/
theorem attributes_of_classAt? {p : Place} {t : TypeDeclaration} (h : classAt? p = some t) :
    t.attributes =
      distinctBy (·.name) (p.indentedBody.flatMap (attributesAt (bodyIndentation p))) := by
  unfold classAt? at h
  split at h
  · cases h
  · rw [Option.some_inj] at h
    subst h
    dsimp only
    unfold bodyIndentation
    cases hbaseline : baseline? p.indentedBody with
    | some baseline => rfl
    | none =>
      have hblank : ∀ r ∈ p.indentedBody, attributesAt 0 r = [] := fun r hr => by
        refine attributesAt_of_isBlank ?_
        rw [baseline?, Option.map_eq_none_iff, List.find?_eq_none] at hbaseline
        simpa using hbaseline r hr
      show distinctBy _ [] = _
      rw [Option.getD_none, List.flatMap_eq_nil_iff.mpr hblank]

section Nested

variable {lines : List SourceLine} {p r : Place} {t : TypeDeclaration}

/-- The lines of an indented body are lines of the file. -/
theorem mem_places_of_mem_indentedBody (hp : p ∈ places lines) (hr : r ∈ p.indentedBody) :
    r ∈ places lines :=
  following_subset hp (List.mem_of_mem_drop (List.mem_of_mem_take hr))

/-- The lines of nested bodies are deeper than the fields of the outer class. -/
theorem isFieldLine_of_isNested (heven : IsEven (places lines)) (hp : p ∈ places lines)
    (hclass : BeginsClass p) (hr : r ∈ places lines) (hnested : IsNested (places lines) p r)
    (hblank : Text.isBlank r.code = false) : isFieldLine (bodyIndentation p) r.code = false := by
  obtain ⟨q, hq, hqclass, hqspan, hrspan⟩ := hnested
  have hinner : Text.indentWidth q.code < Text.indentWidth r.code :=
    Place.lt_indentWidth_of_mem_indentedBody (mem_indentedBody_of_mem_span hq hr hrspan) hblank
  have houter : bodyIndentation p ≤ Text.indentWidth q.code := by
    unfold bodyIndentation
    cases hbaseline : baseline? p.indentedBody with
    | none => exact Nat.zero_le _
    | some baseline =>
      exact heven.deep p hp hclass baseline hbaseline q (mem_indentedBody_of_mem_span hp hq hqspan)
        hqclass.isBlank_eq_false
  rw [isFieldLine, beq_false_of_ne (by omega), Bool.false_and]

/-- A class has the attributes that the lines of its body declare. -/
theorem mem_attributes_iff (h : classAt? p = some t) {name : String} :
    name ∈ t.attributes.map (·.name) ↔
      ∃ r ∈ p.indentedBody, name ∈ declaredNames (bodyIndentation p) r := by
  rw [attributes_of_classAt? h, mem_map_distinctBy, List.map_flatMap, List.mem_flatMap]
  rfl

/-- Nested lines may be left out if what they assign is declared above them in the outer class. -/
theorem attributes_of_declared_above (heven : IsEven (places lines)) (hp : p ∈ places lines)
    (h : classAt? p = some t)
    (habove : ∀ r ∈ p.indentedBody, IsNested (places lines) p r → ∀ name : String,
      AssignsAttribute name.toList r.code → ∃ above ∈ p.indentedBody, above.number < r.number ∧
        name ∈ declaredNames (bodyIndentation p) above) :
    t.attributes = distinctBy (·.name)
      ((p.indentedBody.filter fun r => ¬ IsNested (places lines) p r).flatMap
        (attributesAt (bodyIndentation p))) := by
  rw [attributes_of_classAt? h]
  refine distinctBy_flatMap_filter _ _ _ fun before r after hbody hkeep a ha => ?_
  have hnested : IsNested (places lines) p r := by simpa using hkeep
  have hr : r ∈ p.indentedBody := by rw [hbody]; simp
  have hname : a.name ∈ declaredNames (bodyIndentation p) r := List.mem_map_of_mem ha
  rw [mem_declaredNames_iff (isFieldLine_of_isNested heven hp (beginsClass_of_classAt? h)
    (mem_places_of_mem_indentedBody hp hr) hnested)] at hname
  obtain ⟨above, habove, hlt, hdeclared⟩ := habove r hr hnested a.name hname
  refine ⟨above, ?_, hdeclared⟩
  have hsorted := p.pairwise_indentedBody
  rw [hbody] at habove hsorted
  rcases List.mem_append.mp habove with hbefore | hafter
  · exact hbefore
  · rcases List.mem_cons.mp hafter with rfl | hafter
    · exact absurd hlt (Nat.lt_irrefl _)
    · have hbelow := (List.pairwise_cons.mp (List.pairwise_append.mp hsorted).2.1).1 above hafter
      omega

end Nested

/-- Every class lists what the lines of its body assign on the instance, except for the lines at the
indentation of the body, which are read as fields. It lists nothing else than what its lines declare,
but the lines of nested classes count as its own: they may be left out if what they assign is
declared above them. -/
theorem attributes_declared_in_body {lines : List Line}
    (heven : IsEven (places (sourceLines .hash lines))) :
    ∀ t ∈ (extract lines).types, ∃ p ∈ places (sourceLines .hash lines),
      BeginsClass p ∧ p.number = t.line ∧
      (∀ r ∈ p.indentedBody, isFieldLine (bodyIndentation p) r.code = false → ∀ name : String,
        AssignsAttribute name.toList r.code → name ∈ t.attributes.map (·.name)) ∧
      (∀ name : String, name ∈ t.attributes.map (·.name) ↔
        (∃ r ∈ p.indentedBody, ¬ IsNested (places (sourceLines .hash lines)) p r ∧
          name ∈ declaredNames (bodyIndentation p) r) ∨
        ∃ r ∈ p.indentedBody, IsNested (places (sourceLines .hash lines)) p r ∧
          AssignsAttribute name.toList r.code) ∧
      ((∀ r ∈ p.indentedBody, IsNested (places (sourceLines .hash lines)) p r → ∀ name : String,
          AssignsAttribute name.toList r.code → ∃ above ∈ p.indentedBody, above.number < r.number ∧
            name ∈ declaredNames (bodyIndentation p) above) →
        t.attributes = distinctBy (·.name)
          ((p.indentedBody.filter fun r =>
            ¬ IsNested (places (sourceLines .hash lines)) p r).flatMap
              (attributesAt (bodyIndentation p)))) := by
  intro t ht
  obtain ⟨p, hp, h⟩ := List.mem_filterMap.mp ht
  have hclass := beginsClass_of_classAt? h
  refine ⟨p, hp, hclass, (classAt?_line h).symm, fun r hr hfield name hassigns => ?_,
    fun name => ?_, attributes_of_declared_above heven hp h⟩
  · exact (mem_attributes_iff h).mpr ⟨r, hr, (mem_declaredNames_iff fun _ => hfield).mpr hassigns⟩
  · have hnested : ∀ r ∈ p.indentedBody, IsNested (places (sourceLines .hash lines)) p r →
        (name ∈ declaredNames (bodyIndentation p) r ↔ AssignsAttribute name.toList r.code) :=
      fun r hr hnested => mem_declaredNames_iff
        (isFieldLine_of_isNested heven hp hclass (mem_places_of_mem_indentedBody hp hr) hnested)
    rw [mem_attributes_iff h]
    constructor
    · rintro ⟨r, hr, hname⟩
      -- a line of a nested class is no field line, so it declares just what it assigns
      by_cases hin : IsNested (places (sourceLines .hash lines)) p r
      · exact Or.inr ⟨r, hr, hin, (hnested r hr hin).mp hname⟩
      · exact Or.inl ⟨r, hr, hin, hname⟩
    · rintro (⟨r, hr, -, hname⟩ | ⟨r, hr, hin, hassigns⟩)
      · exact ⟨r, hr, hname⟩
      · exact ⟨r, hr, (hnested r hr hin).mpr hassigns⟩

/-- A class with a class in its body that assigns an attribute of the same name. -/
def sharedAttribute : List Line :=
  ["class Outer:", "    def __init__(self):", "        self.size = 1", "", "    class Inner:",
    "        def __init__(self):", "            self.size: int = 2"].map String.toList

theorem attributes_declared_in_body_shared :
    IsEven (places (sourceLines .hash sharedAttribute)) ∧
    (extract sharedAttribute).types.map (fun t => t.attributes.map (·.name)) =
      [["size"], ["size"]] ∧
    ∀ t ∈ (extract sharedAttribute).types, ∃ p ∈ places (sourceLines .hash sharedAttribute),
      p.number = t.line ∧ t.attributes = distinctBy (·.name)
        ((p.indentedBody.filter fun r =>
          ¬ IsNested (places (sourceLines .hash sharedAttribute)) p r).flatMap
            (attributesAt (bodyIndentation p))) := by
  have heven : IsEven (places (sourceLines .hash sharedAttribute)) :=
    ⟨by decide +kernel, by decide +kernel⟩
  have hread : ∀ p ∈ places (sourceLines .hash sharedAttribute), BeginsClass p →
      ∀ r ∈ p.indentedBody, IsNested (places (sourceLines .hash sharedAttribute)) p r →
      ∀ f ∈ selfAttribute.searchAll r.code, ∃ above ∈ p.indentedBody, above.number < r.number ∧
        String.ofList f.value.1 ∈ declaredNames (bodyIndentation p) above := by
    decide +kernel
  refine ⟨heven, by decide +kernel, fun t ht => ?_⟩
  obtain ⟨p, hp, hclass, hline, -, -, hsame⟩ := attributes_declared_in_body heven t ht
  refine ⟨p, hp, hline, hsame fun r hr hnested name hassigns => ?_⟩
  obtain ⟨f, hf, hname⟩ := exists_mem_searchAll_of_assignsAttribute hassigns
  have habove := hread p hp hclass r hr hnested f hf
  rwa [hname, String.ofList_toList] at habove

/-- A class in the body of one that has no attributes. -/
def innerAttribute : List Line :=
  ["class Outer:", "    class Inner:", "        def __init__(self):",
    "            self.x = 1"].map String.toList

/-- Nothing keeps the attributes of a class out of the one around it: these need not be declared on
any line outside the nested classes. -/
theorem not_forall_attributes_declared_outside :
    ¬ ∀ lines : List Line, IsEven (places (sourceLines .hash lines)) →
      ∀ p ∈ places (sourceLines .hash lines), ∀ t ∈ classAt? p, ∀ name ∈ t.attributes.map (·.name),
        ∃ r ∈ p.indentedBody, ¬ IsNested (places (sourceLines .hash lines)) p r ∧
          name ∈ declaredNames (bodyIndentation p) r := by
  intro h
  have hlisted := h innerAttribute ⟨by decide +kernel, by decide +kernel⟩
  have hnot : ¬ ∀ p ∈ places (sourceLines .hash innerAttribute), ∀ t ∈ classAt? p,
      ∀ name ∈ t.attributes.map (·.name), ∃ r ∈ p.indentedBody,
        ¬ IsNested (places (sourceLines .hash innerAttribute)) p r ∧
          name ∈ declaredNames (bodyIndentation p) r := by
    decide +kernel
  exact hnot hlisted

end SourceSurvey.Extract.Python
