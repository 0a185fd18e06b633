import SourceSurvey.Proofs.Code.Indentation
import SourceSurvey.Proofs.Extract.Line
import SourceSurvey.Proofs.Pattern.Reading
import SourceSurvey.Proofs.Place.Append
import Mathlib.Data.List.Nodup

/-!
# The class of a method

The body of a class is the span of lines that are indented deeper than its header, and its methods
are the functions at the indentation of the first line of the body. Classes may stand in the bodies
of other classes. Main statement: if no line of a body is less deep than its first one, each method
lies in the span of its class and in that of no class nested there, so that no two classes share a
method.
-/

namespace SourceSurvey

/-! ## Indented lines -/

/-- A line is indented by the blanks before its first other character. -/
theorem Text.indentWidth_append_cons {blanks : List Char} {c : Char}
    (hblanks : ∀ x ∈ blanks, isSpace x = true) (hc : isSpace c = false) (cs : List Char) :
    indentWidth (blanks ++ c :: cs) = blanks.length := by
  unfold indentWidth indentation
  rw [List.takeWhile_append_of_pos hblanks, List.takeWhile_cons_of_neg (by simp [hc]),
    List.append_nil]

/-- A text with a character that is no blank is not blank. -/
theorem Text.isBlank_append_cons {c : Char} (hc : isSpace c = false) (text cs : List Char) :
    isBlank (text ++ c :: cs) = false := by
  simp [isBlank, hc]

/-! ## Spans -/

namespace Place

/-- The numbers of the lines of the body after the header. -/
def span (p : Place) : List Nat :=
  p.indentedBody.map number

/-- A span has no gaps and begins below the header. -/
theorem span_eq_range' (p : Place) :
    p.span = List.range' (p.number + p.headerExtent + 1) p.indentedBody.length := by
  have hfollowing : p.following.map number = List.range' (p.number + 1) p.below.length :=
    map_number_placesFrom _ _
  apply List.ext_getElem
  · rw [span, List.length_map, List.length_range']
  · intro i hspan hrange
    have hlength := congrArg List.length hfollowing
    rw [List.length_map, List.length_range'] at hlength
    have hi : p.headerExtent + i < (p.following.map number).length := by
      simp only [span, indentedBody, List.length_map, List.length_take, List.length_drop] at hspan
      rw [List.length_map]
      omega
    have hat : (p.following.map number)[p.headerExtent + i] =
        p.number + 1 + (p.headerExtent + i) := by
      simp [hfollowing]
    rw [List.getElem_map] at hat
    simp only [span, indentedBody, List.getElem_map, List.getElem_take, List.getElem_drop,
      List.getElem_range', hat]
    omega

/-- The lines of a body follow one another. -/
theorem pairwise_indentedBody (p : Place) :
    p.indentedBody.Pairwise fun q r => q.number < r.number := by
  rw [← List.pairwise_map]
  show p.span.Pairwise (· < ·)
  rw [span_eq_range']
  exact List.pairwise_lt_range'

/-- The span of a body lies below its header. -/
theorem lt_of_mem_span {p : Place} {n : Nat} (h : n ∈ p.span) : p.number + p.headerExtent < n := by
  rw [span_eq_range', List.mem_range'_1] at h
  omega

/-- The span of a body has no gaps. -/
theorem mem_span_of_le {p : Place} {m n : Nat} (h : n ∈ p.span)
    (hm : p.number + p.headerExtent < m) (hmn : m ≤ n) : m ∈ p.span := by
  rw [span_eq_range', List.mem_range'_1] at h ⊢
  omega

/-- A line of a body that is not blank is indented deeper than the header. -/
theorem lt_indentWidth_of_mem_indentedBody {p q : Place} (h : q ∈ p.indentedBody)
    (hblank : Text.isBlank q.code = false) : Text.indentWidth p.code < Text.indentWidth q.code := by
  have hcode := List.mem_map_of_mem (f := code) h
  unfold indentedBody at hcode
  rw [List.map_take] at hcode
  obtain ⟨k, hk, hline⟩ := List.mem_take_iff_getElem.mp hcode
  exact lt_indentWidth_of_lt_indentedExtent (Nat.lt_of_lt_of_le hk (Nat.min_le_left _ _))
    (List.getElem?_eq_some_iff.mpr ⟨_, hline⟩) hblank

end Place

/-- The number of a line tells its place. -/
theorem eq_of_number_eq {lines : List SourceLine} {p q : Place} (hp : p ∈ places lines)
    (hq : q ∈ places lines) (h : p.number = q.number) : p = q := by
  have hnodup : ((places lines).map Place.number).Nodup := by
    rw [map_number_places]
    exact (pairwise_lineNumbers _).imp Nat.ne_of_lt
  exact List.inj_on_of_nodup_map hnodup hp hq h

/-- A place with a number in the span is a place of the body. -/
theorem mem_indentedBody_of_mem_span {lines : List SourceLine} {p q : Place}
    (hp : p ∈ places lines) (hq : q ∈ places lines) (h : q.number ∈ p.span) :
    q ∈ p.indentedBody := by
  obtain ⟨r, hr, hnumber⟩ := List.mem_map.mp h
  have hplace : r ∈ places lines :=
    following_subset hp (List.mem_of_mem_drop (List.mem_of_mem_take hr))
  rw [← eq_of_number_eq hplace hq hnumber]
  exact hr

namespace Extract.Python

open Pattern

/-! ## Headers of classes and functions -/

/-- A class begins on the line. -/
def BeginsClass (p : Place) : Prop :=
  (classStart.matchStart? p.code).isSome

instance (p : Place) : Decidable (BeginsClass p) :=
  inferInstanceAs (Decidable (_ = true))

/-- The pattern for the start of a class reads blanks, the word and a gap behind it. -/
theorem classStart_reads : classStart.Reads fun t _ => ∃ indent gap more,
    (∀ x ∈ indent, Text.isSpace x = true) ∧ gap ≠ [] ∧ (∀ x ∈ gap, Text.isSpace x = true) ∧
      t = indent ++ ("class".toList ++ (gap ++ more)) := by
  unfold classStart
  refine reads_blanks.bind fun indent _ hindent => ?_
  refine (reads_lit "class").bind fun word _ hword => ?_
  refine reads_blanks1.bind fun gap _ hgap => ?_
  refine (reads_run Text.isWord 1).bind fun name _ _ => ?_
  refine reads_blanks.bind fun blanks _ _ => ?_
  refine (reads_char _).bind fun opener _ _ => reads_pure ?_
  exact ⟨indent, gap, name ++ (blanks ++ (opener ++ [])), hindent,
    List.ne_nil_of_length_pos hgap.1, hgap.2, by simp [hword]⟩

/-- A line that begins a class is not blank. -/
theorem BeginsClass.isBlank_eq_false {p : Place} (h : BeginsClass p) :
    Text.isBlank p.code = false := by
  obtain ⟨found, hfound⟩ := Option.isSome_iff_exists.mp h
  obtain ⟨t, rest, hcode, indent, gap, more, -, -, -, rfl⟩ := classStart_reads.of_matchStart? hfound
  rw [hcode, List.append_assoc]
  exact Text.isBlank_append_cons (by decide) _ _

/-- The pattern for the start of a function reads the whole indentation. -/
theorem functionStart_reads_indent : functionStart.Reads fun t start =>
    (∀ x ∈ start.1, Text.isSpace x = true) ∧
      ∃ c more, t = start.1 ++ c :: more ∧ Text.isSpace c = false := by
  have hasync : Pattern.Reads (do lit "async"; blanks1) fun t _ => ∃ more, t = 'a' :: more :=
    (reads_lit "async").bind fun t _ ht => reads_blanks1.imp fun space _ _ =>
      ⟨"sync".toList ++ space, by simp [ht]⟩
  unfold functionStart
  refine (reads_run Text.isSpace 0).bind fun t indent hindent => ?_
  refine (reads_opt hasync).bind fun async isAsync hasync => ?_
  refine (reads_lit "def").bind fun word _ hword => ?_
  refine reads_blanks1.bind fun gap _ _ => ?_
  refine (reads_run Text.isWord 1).bind fun name _ _ => ?_
  refine reads_blanks.bind fun blanks _ _ => ?_
  refine (reads_lit "(").bind fun paren _ _ => reads_pure ?_
  obtain ⟨rfl, -, hspace⟩ := hindent
  refine ⟨hspace, ?_⟩
  rcases hasync with rfl | ⟨more, rfl⟩
  · exact ⟨'d', "ef".toList ++ (gap ++ (name ++ (blanks ++ paren))), by simp [hword], by decide⟩
  · exact ⟨'a', more ++ (word ++ (gap ++ (name ++ (blanks ++ paren)))), by simp, by decide⟩

/-! ## Methods -/

/-- A method stands exactly as deep as its class says. -/
theorem indentWidth_of_methodAt? {baseline : Nat} {p : Place} {m : Routine}
    (h : methodAt? baseline p = some m) :
    Text.indentWidth p.code = baseline ∧ Text.isBlank p.code = false := by
  unfold methodAt? at h
  split at h
  · next indent isAsync name hstart =>
    obtain ⟨hbaseline, -⟩ := Option.ite_none_right_eq_some.mp h
    obtain ⟨t, rest, hcode, hspace, c, more, rfl, hc⟩ :=
      functionStart_reads_indent.of_matchStart? hstart
    rw [hcode, List.append_assoc, List.cons_append]
    refine ⟨?_, Text.isBlank_append_cons hc _ _⟩
    rw [Text.indentWidth_append_cons hspace hc, hbaseline]
  · cases h

/-- A class that is found begins on its line. -/
theorem beginsClass_of_classAt? {p : Place} {t : TypeDeclaration} (h : classAt? p = some t) :
    BeginsClass p := by
  unfold classAt? at h
  unfold BeginsClass
  split at h
  · cases h
  · next hstart =>
    rw [hstart]
    rfl

/-- A method of a class is declared in the body, at the indentation of its first line. -/
theorem exists_methodAt?_of_mem_methods {p : Place} {t : TypeDeclaration}
    (h : classAt? p = some t) {m : Routine} (hm : m ∈ t.methods) :
    ∃ baseline r, baseline? p.indentedBody = some baseline ∧ r ∈ p.indentedBody ∧
      methodAt? baseline r = some m := by
  unfold classAt? at h
  split at h
  · cases h
  · rw [Option.some_inj] at h
    subst h
    dsimp only at hm
    cases hbaseline : baseline? p.indentedBody with
    | none => simp [hbaseline] at hm
    | some baseline =>
      rw [hbaseline] at hm
      obtain ⟨r, hr, hmethod⟩ := List.mem_filterMap.mp hm
      exact ⟨baseline, r, rfl, hr, hmethod⟩

/-! ## Files of classes -/

/-- No line in the body of a class is less deep than the first one, and no class begins in the
header of another. The headers of functions may hold anything. -/
structure IsEven (ps : List Place) : Prop where
  deep : ∀ p ∈ ps, BeginsClass p → ∀ baseline ∈ baseline? p.indentedBody,
    ∀ q ∈ p.indentedBody, Text.isBlank q.code = false → baseline ≤ Text.indentWidth q.code
  apart : ∀ p ∈ ps, BeginsClass p → ∀ q ∈ ps, BeginsClass q →
    p.number < q.number → p.number + p.headerExtent < q.number

section Even

variable {lines : List SourceLine} {p q : Place} {t : TypeDeclaration} {m : Routine}

/-- A method stands in the span of its class. -/
theorem line_mem_span (h : classAt? p = some t) (hm : m ∈ t.methods) : m.line ∈ p.span := by
  obtain ⟨baseline, r, -, hr, hmethod⟩ := exists_methodAt?_of_mem_methods h hm
  rw [methodAt?_line hmethod]
  exact List.mem_map_of_mem hr

/-- What is nested in a body starts at its indentation or deeper, so the lines of the nested body are
deeper than the methods of the outer one. -/
theorem line_not_mem_span_of_nested (heven : IsEven (places lines)) (hp : p ∈ places lines)
    (hq : q ∈ places lines) (hclass : BeginsClass q) (hnested : q.number ∈ p.span)
    (h : classAt? p = some t) (hm : m ∈ t.methods) : m.line ∉ q.span := by
  intro hspan
  obtain ⟨baseline, r, hbaseline, hr, hmethod⟩ := exists_methodAt?_of_mem_methods h hm
  obtain ⟨hwidth, hblank⟩ := indentWidth_of_methodAt? hmethod
  have hrplace : r ∈ places lines :=
    following_subset hp (List.mem_of_mem_drop (List.mem_of_mem_take hr))
  rw [methodAt?_line hmethod] at hspan
  have hinner : Text.indentWidth q.code < Text.indentWidth r.code :=
    Place.lt_indentWidth_of_mem_indentedBody (mem_indentedBody_of_mem_span hq hrplace hspan) hblank
  have houter : baseline ≤ Text.indentWidth q.code :=
    heven.deep p hp (beginsClass_of_classAt? h) baseline hbaseline q
      (mem_indentedBody_of_mem_span hp hq hnested) hclass.isBlank_eq_false
  omega

/-- Of two classes that share a line the later one begins in the body of the earlier one. -/
theorem number_mem_span_of_shared (heven : IsEven (places lines)) (hp : p ∈ places lines)
    (hq : q ∈ places lines) (hpclass : BeginsClass p) (hqclass : BeginsClass q)
    (hlt : p.number < q.number) {n : Nat} (hpn : n ∈ p.span) (hqn : n ∈ q.span) :
    q.number ∈ p.span := by
  have hbelow := Place.lt_of_mem_span hqn
  apply Place.mem_span_of_le hpn
  · exact heven.apart p hp hpclass q hq hqclass hlt
  · omega

end Even

/-- Where the indentation is even no line is a method of two classes. -/
theorem pairwise_methods {lines : List SourceLine} (heven : IsEven (places lines)) :
    ((places lines).filterMap classAt?).Pairwise fun t u =>
      ∀ m ∈ t.methods, ∀ m' ∈ u.methods, m.line ≠ m'.line := by
  have hnumbers : (places lines).Pairwise fun p q => p.number < q.number := by
    rw [← List.pairwise_map, map_number_places]
    exact pairwise_lineNumbers _
  rw [List.pairwise_filterMap]
  refine hnumbers.imp_of_mem fun {p q} hp hq hlt t ht u hu m hm m' hm' heq => ?_
  have hmspan := line_mem_span ht hm
  have hm'span := line_mem_span hu hm'
  rw [← heq] at hm'span
  have hnested := number_mem_span_of_shared heven hp hq (beginsClass_of_classAt? ht)
    (beginsClass_of_classAt? hu) hlt hmspan hm'span
  exact line_not_mem_span_of_nested heven hp hq (beginsClass_of_classAt? hu) hnested ht hm hm'span

/-- Every method belongs to one class: no two classes of a file share one, and each stands in the
span of its class, outside the spans of the classes that are nested there. -/
theorem methods_of_one_class {lines : List Line}
    (heven : IsEven (places (sourceLines .hash lines))) :
    ((extract lines).types.Pairwise fun t u =>
      ∀ m ∈ t.methods, ∀ m' ∈ u.methods, m.line ≠ m'.line) ∧
    ∀ t ∈ (extract lines).types, ∃ p ∈ places (sourceLines .hash lines),
      BeginsClass p ∧ p.number = t.line ∧
      ∀ m ∈ t.methods, m.line ∈ p.span ∧
        ∀ q ∈ places (sourceLines .hash lines), BeginsClass q → q.number ∈ p.span →
          m.line ∉ q.span := by
  refine ⟨pairwise_methods heven, ?_⟩
  intro t ht
  obtain ⟨p, hp, hclass⟩ := List.mem_filterMap.mp ht
  refine ⟨p, hp, beginsClass_of_classAt? hclass, (classAt?_line hclass).symm, fun m hm => ?_⟩
  refine ⟨line_mem_span hclass hm, fun q hq hqclass hnested => ?_⟩
  exact line_not_mem_span_of_nested heven hp hq hqclass hnested hclass hm

/-- A class with bases on lines of their own, and a class in its body. -/
def nestedClasses : List Line :=
  ["class Outer(", "    Base,", "):", "    \"\"\"Doc.\"\"\"", "", "    class Inner:",
    "        def run(self):", "            pass", "", "    def run(self):", "        pass"].map
    String.toList

theorem methods_of_one_class_nested :
    IsEven (places (sourceLines .hash nestedClasses)) ∧
    (extract nestedClasses).types.map (fun t => t.methods.map (·.line)) = [[10], [7]] ∧
    (extract nestedClasses).types.Pairwise fun t u =>
      ∀ m ∈ t.methods, ∀ m' ∈ u.methods, m.line ≠ m'.line := by
  have heven : IsEven (places (sourceLines .hash nestedClasses)) :=
    ⟨by decide +kernel, by decide +kernel⟩
  refine ⟨heven, by decide +kernel, (methods_of_one_class heven).1⟩

end Extract.Python

end SourceSurvey
