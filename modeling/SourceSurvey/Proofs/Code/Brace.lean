import SourceSurvey.Proofs.Place.Append
import SourceSurvey.Proofs.Text.Blank

/-!
# Bodies in braces

A scan for the end of a body counts braces outside parentheses, line by line. A scan that begins
inside another one counts the same braces from another depth on as soon as both are outside
parentheses. Main statement: a body that opens inside another one ends inside it, the end of a body
lies in the file, and it does not depend on lines above it nor on lines below its end. A body without
braces of its own ends with the brace behind it.
-/

namespace SourceSurvey

namespace BraceScan

/-! ## One scan inside another -/

/-- The scan over some lines. -/
def scan (s : BraceScan) (lines : List Line) : BraceScan :=
  lines.foldl line s

/-- What a scan has come to outside parentheses, and after it an inner scan from there on. -/
def andThen (outer inner : BraceScan) : BraceScan :=
  ⟨outer.depth + inner.depth, inner.parens, outer.opened || inner.opened⟩

@[simp] theorem scan_nil (s : BraceScan) : s.scan [] = s := rfl

@[simp] theorem scan_cons (s : BraceScan) (l : Line) (lines : List Line) :
    s.scan (l :: lines) = (s.line l).scan lines := rfl

/-- A scan over two lists of lines is one over the first list, then one over the second. -/
theorem scan_append (s : BraceScan) (lines more : List Line) :
    s.scan (lines ++ more) = (s.scan lines).scan more :=
  List.foldl_append

/-- A scan over lines is a scan over their text. -/
theorem scan_eq_line_flatten (s : BraceScan) (lines : List Line) :
    s.scan lines = s.line lines.flatten := by
  rw [scan, line, List.foldl_flatten]
  rfl

/-- Outside parentheses a scan that is just beginning adds nothing. -/
theorem andThen_start {s : BraceScan} (h : s.parens = 0) : s.andThen start = s := by
  obtain ⟨depth, parens, opened⟩ := s
  cases h
  simp [andThen, start]

/-- One character moves the inner scan as it moves the scan that holds it. -/
theorem char_andThen (outer inner : BraceScan) (c : Char) :
    (outer.andThen inner).char c = outer.andThen (inner.char c) := by
  by_cases hparen : c = '(' ∨ c = ')'
  · rcases hparen with rfl | rfl <;> rfl
  · obtain ⟨hopen, hclose⟩ := not_or.mp hparen
    by_cases hinside : inner.parens = 0
    · by_cases hbrace : c = '\x7b'
      · simp [char, andThen, hinside, hbrace, Int.add_assoc]
      · by_cases hend : c = '\x7d'
        · simp [char, andThen, hinside, hend, Int.add_sub_assoc]
        · simp [char, andThen, hopen, hclose, hinside, hbrace, hend]
    · simp [char, andThen, hopen, hclose, hinside]

/-- One line moves the inner scan as it moves the scan that holds it. -/
theorem line_andThen (outer inner : BraceScan) (l : Line) :
    (outer.andThen inner).line l = outer.andThen (inner.line l) := by
  induction l generalizing inner with
  | nil => rfl
  | cons c l ih =>
    show ((outer.andThen inner).char c).line l = outer.andThen ((inner.char c).line l)
    rw [char_andThen, ih]

/-- Any lines move the inner scan as they move the scan that holds it. -/
theorem scan_andThen (outer inner : BraceScan) (lines : List Line) :
    (outer.andThen inner).scan lines = outer.andThen (inner.scan lines) := by
  induction lines generalizing inner with
  | nil => rfl
  | cons l lines ih => rw [scan_cons, scan_cons, line_andThen, ih]

/-- A brace counts as open when one stood outside parentheses, now or before. -/
theorem opened_char (s : BraceScan) (c : Char) :
    (s.char c).opened = true ↔ s.opened = true ∨ c = '\x7b' ∧ s.parens = 0 := by
  by_cases hparen : c = '(' ∨ c = ')'
  · rcases hparen with rfl | rfl <;> simp [char]
  · obtain ⟨hopen, hclose⟩ := not_or.mp hparen
    by_cases hinside : s.parens = 0
    · by_cases hbrace : c = '\x7b'
      · simp [char, hinside, hbrace]
      · by_cases hend : c = '\x7d' <;> simp [char, hopen, hclose, hinside, hbrace, hend]
    · simp [char, hopen, hclose, hinside]

/-- After a text a brace counts as open when one stands in it outside parentheses, or stood before
it. -/
theorem opened_line (s : BraceScan) (text : Line) :
    (s.line text).opened = true ↔ s.opened = true ∨
      ∃ before after, text = before ++ '\x7b' :: after ∧ (s.line before).parens = 0 := by
  induction text generalizing s with
  | nil => simp [line]
  | cons c text ih =>
    show ((s.char c).line text).opened = true ↔ _
    rw [ih, opened_char, or_assoc]
    refine or_congr_right ⟨?_, ?_⟩
    · rintro (⟨rfl, hparens⟩ | ⟨before, after, rfl, hparens⟩)
      · exact ⟨[], text, rfl, hparens⟩
      · exact ⟨c :: before, after, rfl, hparens⟩
    · rintro ⟨before, after, htext, hparens⟩
      cases before with
      | nil =>
        obtain ⟨rfl, -⟩ := List.cons.inj htext
        exact .inl ⟨rfl, hparens⟩
      | cons d before =>
        obtain ⟨rfl, rfl⟩ := List.cons.inj htext
        exact .inr ⟨before, after, rfl, hparens⟩

end BraceScan

/-- An opening brace stands in the text outside the parentheses that open before it. -/
def OpensBrace (text : List Char) : Prop :=
  ∃ before after, text = before ++ '\x7b' :: after ∧ (BraceScan.start.line before).parens = 0

/-- A text opens a brace when the scan over it does. -/
theorem opensBrace_iff {text : List Char} :
    OpensBrace text ↔ (BraceScan.start.line text).opened = true := by
  simp [BraceScan.opened_line, OpensBrace, BraceScan.start]

instance (text : List Char) : Decidable (OpensBrace text) :=
  decidable_of_iff _ opensBrace_iff.symm

/-- A brace that is opened stays so, whatever follows. -/
theorem OpensBrace.append {text : List Char} (h : OpensBrace text) (more : List Char) :
    OpensBrace (text ++ more) := by
  obtain ⟨before, after, rfl, hparens⟩ := h
  exact ⟨before, after ++ more, by simp, hparens⟩

/-- What opens on the first lines opens on more of them. -/
theorem OpensBrace.flatten_take_mono {lines : List Line} {k m : Nat} (hk : k ≤ m)
    (h : OpensBrace (lines.take k).flatten) : OpensBrace (lines.take m).flatten := by
  have hsplit := List.take_append_drop k (lines.take m)
  rw [List.take_take, Nat.min_eq_left hk] at hsplit
  rw [← hsplit, List.flatten_append]
  exact h.append _

/-! ## Where a scan stops -/

/-- The scan for the end of a body that begins with these lines can stop at the line with this
index: what was opened is closed, or nothing is opened and the statement is at its end. -/
def StopsAt (lines : List Line) (k : Nat) : Prop :=
  ∃ line, lines[k]? = some line ∧
    ((BraceScan.start.scan (lines.take (k + 1))).opened = true ∧
        (BraceScan.start.scan (lines.take (k + 1))).depth ≤ 0 ∨
      (BraceScan.start.scan (lines.take (k + 1))).opened = false ∧
        (endsStatement line = true ∨ k = 0 ∧ isWholeArrow line = true))

instance (lines : List Line) (k : Nat) : Decidable (StopsAt lines k) :=
  inferInstanceAs (Decidable (∃ line ∈ lines[k]?, _ ∨ _))

/-- A scan stops when its brace is closed, or when no brace is open at the end of a statement. -/
theorem stopsAfter_eq_true {s : BraceScan} {isFirst : Bool} {line : Line} :
    stopsAfter s isFirst line = true ↔
      (s.line line).opened = true ∧ (s.line line).depth ≤ 0 ∨
      (s.line line).opened = false ∧
        (endsStatement line = true ∨ isFirst = true ∧ isWholeArrow line = true) := by
  simp [stopsAfter]

/-- A body ends within some lines when the scan can stop on one of them. -/
theorem braceExtentFrom_le_iff {s : BraceScan} {isFirst : Bool} {lines : List Line} {n : Nat}
    (h : n + 1 < lines.length) :
    braceExtentFrom s isFirst lines ≤ n ↔
      ∃ k ≤ n, ∃ line, lines[k]? = some line ∧
        stopsAfter (s.scan (lines.take k)) (isFirst && k == 0) line = true := by
  induction lines generalizing s isFirst n with
  | nil => simp at h
  | cons line lines ih =>
    -- the last line ends the extent in any case, so two lines have to be left
    cases lines with
    | nil => simp at h
    | cons next lines =>
      rw [braceExtentFrom_cons_cons]
      by_cases hstops : stopsAfter s isFirst line = true
      · rw [if_pos hstops]
        exact iff_of_true (Nat.zero_le n) ⟨0, Nat.zero_le n, line, rfl, by simpa using hstops⟩
      · rw [if_neg hstops]
        constructor
        · intro hle
          obtain ⟨m, rfl⟩ : ∃ m, n = m + 1 := ⟨n - 1, by omega⟩
          obtain ⟨k, hk, l, hl, hrest⟩ := (ih (by simpa using h)).mp (Nat.le_of_succ_le_succ hle)
          exact ⟨k + 1, by omega, l, hl, by simpa using hrest⟩
        · rintro ⟨k, hk, l, hl, hrest⟩
          cases k with
          | zero =>
            obtain rfl : line = l := by simpa using hl
            exact absurd (by simpa using hrest) hstops
          | succ k =>
            obtain ⟨m, rfl⟩ : ∃ m, n = m + 1 := ⟨n - 1, by omega⟩
            refine Nat.succ_le_succ ((ih (by simpa using h)).mpr ⟨k, by omega, l, hl, ?_⟩)
            simpa using hrest

section Extent

variable {lines : List Line} {n : Nat}

/-- The same for a scan from the start. -/
theorem braceExtent_le_iff (h : n + 1 < lines.length) :
    braceExtent lines ≤ n ↔ ∃ k ≤ n, StopsAt lines k := by
  rw [braceExtent, braceExtentFrom_le_iff h]
  refine exists_congr fun k => and_congr_right fun hk => exists_congr fun line =>
    and_congr_right fun hline => ?_
  have hscan : (BraceScan.start.scan (lines.take k)).line line =
      BraceScan.start.scan (lines.take (k + 1)) := by
    rw [List.take_add_one, hline, BraceScan.scan_append]
    rfl
  rw [stopsAfter_eq_true, hscan]
  simp

/-- A body ends on one of the lines. -/
theorem braceExtentFrom_lt (s : BraceScan) (isFirst : Bool) (line : Line) (lines : List Line) :
    braceExtentFrom s isFirst (line :: lines) < lines.length + 1 := by
  induction lines generalizing s isFirst line with
  | nil => exact Nat.zero_lt_one
  | cons next lines ih =>
    rw [braceExtentFrom_cons_cons]
    split
    · exact Nat.succ_pos _
    · exact Nat.succ_lt_succ (ih _ _ _)

/-- A body that begins on some line ends on one. -/
theorem braceExtent_lt (lines : List Line) (h : 0 < lines.length) :
    braceExtent lines < lines.length := by
  cases lines with
  | nil => cases h
  | cons line lines => exact braceExtentFrom_lt _ _ _ _

/-- A body ends no later than a line that the scan can stop at. -/
theorem StopsAt.braceExtent_le (h : StopsAt lines n) : braceExtent lines ≤ n := by
  by_cases hlast : n + 1 < lines.length
  · exact (braceExtent_le_iff hlast).mpr ⟨n, Nat.le_refl n, h⟩
  · obtain ⟨line, hline, -⟩ := h
    obtain ⟨hlt, -⟩ := List.getElem?_eq_some_iff.mp hline
    have := braceExtent_lt lines (by omega)
    omega

/-- The scan that begins with these lines stops on one of them, and does not just end with them. -/
def Closes (lines : List Line) : Prop :=
  ∃ k, StopsAt lines k

/-- Before the last line a scan ends only where it stops. -/
theorem closes_of_lt (h : braceExtent lines + 1 < lines.length) : Closes lines := by
  obtain ⟨k, -, hstops⟩ := (braceExtent_le_iff h).mp (Nat.le_refl _)
  exact ⟨k, hstops⟩

/-- A scan that stops on a line stops at the end of the body. -/
theorem Closes.stopsAt (h : Closes lines) : StopsAt lines (braceExtent lines) := by
  obtain ⟨k, hk⟩ := h
  obtain ⟨line, hline, -⟩ := id hk
  obtain ⟨hlength, -⟩ := List.getElem?_eq_some_iff.mp hline
  rcases Nat.lt_or_eq_of_le hk.braceExtent_le with hlt | heq
  · have hbefore : braceExtent lines + 1 < lines.length := by omega
    obtain ⟨j, hj, hstops⟩ := (braceExtent_le_iff hbefore).mp (Nat.le_refl _)
    rwa [Nat.le_antisymm hj hstops.braceExtent_le] at hstops
  · rwa [heq]

/-- Where a scan can stop does not depend on the lines that follow. -/
theorem stopsAt_append {more : List Line} {k : Nat} (h : k < lines.length) :
    StopsAt (lines ++ more) k ↔ StopsAt lines k := by
  rw [StopsAt, StopsAt, List.getElem?_append_left h,
    List.take_append_of_le_length (Nat.succ_le_of_lt h)]

/-- A scan that stops on some lines stops there whatever follows them. -/
theorem braceExtent_append {more other : List Line} (h : Closes (lines ++ more))
    (hlt : braceExtent (lines ++ more) < lines.length) :
    braceExtent (lines ++ other) = braceExtent (lines ++ more) := by
  have hstops : StopsAt (lines ++ other) (braceExtent (lines ++ more)) := by
    rw [stopsAt_append hlt, ← stopsAt_append hlt]
    exact h.stopsAt
  have hle := hstops.braceExtent_le
  have hother : StopsAt (lines ++ other) (braceExtent (lines ++ other)) :=
    Closes.stopsAt ⟨_, hstops⟩
  rw [stopsAt_append (by omega)] at hother
  exact Nat.le_antisymm hle ((stopsAt_append (by omega)).mpr hother).braceExtent_le

/-- Something on the lines can end a scan that begins with them: an opening brace outside
parentheses, whose body ends somewhere, a line with a semicolon at its end, or a first line that
holds a whole arrow. -/
def CanEnd (lines : List Line) : Prop :=
  OpensBrace lines.flatten ∨ (∃ line ∈ lines, endsStatement line = true) ∨
    ∃ line, lines.head? = some line ∧ isWholeArrow line = true

instance (lines : List Line) : Decidable (CanEnd lines) :=
  inferInstanceAs (Decidable (_ ∨ _ ∨ ∃ line ∈ lines.head?, isWholeArrow line = true))

/-- After some lines a brace is open when their text opens one. -/
theorem opened_scan_take_iff {k : Nat} :
    (BraceScan.start.scan (lines.take k)).opened = true ↔ OpensBrace (lines.take k).flatten := by
  rw [BraceScan.scan_eq_line_flatten, opensBrace_iff]

/-- Where the scan can stop, the lines up to there can end it. -/
theorem StopsAt.canEnd {m : Nat} (h : StopsAt lines n) (hlt : n < m) : CanEnd (lines.take m) := by
  obtain ⟨line, hline, hstops⟩ := h
  rcases hstops with ⟨hopened, -⟩ | ⟨-, hstatement | ⟨rfl, harrow⟩⟩
  · exact .inl ((opened_scan_take_iff.mp hopened).flatten_take_mono hlt)
  · refine .inr (.inl ⟨line, List.mem_of_getElem? (i := n) ?_, hstatement⟩)
    rw [List.getElem?_take_of_lt hlt, hline]
  · refine .inr (.inr ⟨line, ?_, harrow⟩)
    rw [List.head?_eq_getElem?, List.getElem?_take_of_lt hlt, hline]

/-- A scan that opens nothing stops on the lines that can end it. -/
theorem CanEnd.exists_stopsAt {m : Nat} (h : CanEnd (lines.take m))
    (hopens : ¬ OpensBrace (lines.take m).flatten) : ∃ k < m, StopsAt lines k := by
  have hclosed : ∀ k ≤ m, (BraceScan.start.scan (lines.take k)).opened = false := fun k hk =>
    Bool.eq_false_iff.mpr fun hopened =>
      hopens ((opened_scan_take_iff.mp hopened).flatten_take_mono hk)
  rcases h with hopened | ⟨line, hmem, hstatement⟩ | ⟨line, hhead, harrow⟩
  · exact absurd hopened hopens
  · obtain ⟨k, hk, hline⟩ := List.mem_take_iff_getElem.mp hmem
    exact ⟨k, by omega, line, List.getElem?_eq_some_iff.mpr ⟨by omega, hline⟩,
      .inr ⟨hclosed (k + 1) (by omega), .inl hstatement⟩⟩
  · have hpos : 0 < m := by
      refine Nat.pos_of_ne_zero ?_
      rintro rfl
      cases hhead
    refine ⟨0, hpos, line, ?_, .inr ⟨hclosed 1 hpos, .inr ⟨rfl, harrow⟩⟩⟩
    rw [← hhead, List.head?_eq_getElem?, List.getElem?_take_of_lt hpos]

/-! ## Bodies inside bodies -/

/-- A body that is open at the start of a line is not closed above it. -/
theorem depth_pos_of_opened (hn : 0 < n) (hle : n ≤ braceExtent lines) (hlt : n < lines.length)
    (hopened : (BraceScan.start.scan (lines.take n)).opened = true) :
    0 < (BraceScan.start.scan (lines.take n)).depth := by
  refine Int.lt_of_not_ge fun hclosed => ?_
  have hstops : StopsAt lines (n - 1) := by
    refine ⟨lines[n - 1], List.getElem?_eq_getElem (by omega), .inl ?_⟩
    rw [Nat.sub_add_cancel hn]
    exact ⟨hopened, hclosed⟩
  have := hstops.braceExtent_le
  omega

/-- Where a body closes, one that opens inside it, outside parentheses, is closed too. -/
theorem Closes.stopsAt_drop (h : Closes lines) (hle : n ≤ braceExtent lines)
    (hparens : (BraceScan.start.scan (lines.take n)).parens = 0)
    (hdepth : 0 ≤ (BraceScan.start.scan (lines.take n)).depth)
    (hopens : OpensBrace ((lines.drop n).take (braceExtent lines + 1 - n)).flatten) :
    StopsAt (lines.drop n) (braceExtent lines - n) := by
  obtain ⟨line, hline, hstops⟩ := h.stopsAt
  -- at the end of the outer body both scans have read the same braces, one from a depth on
  have hsplit : lines.take (braceExtent lines + 1) =
      lines.take n ++ (lines.drop n).take (braceExtent lines + 1 - n) := by
    rw [← List.take_add]
    congr 1
    omega
  have hboth := BraceScan.scan_andThen (BraceScan.start.scan (lines.take n)) .start
    ((lines.drop n).take (braceExtent lines + 1 - n))
  rw [BraceScan.andThen_start hparens, ← BraceScan.scan_append, ← hsplit] at hboth
  rw [← opened_scan_take_iff] at hopens
  rw [hboth] at hstops
  refine ⟨line, ?_, .inl ?_⟩
  · rw [List.getElem?_drop, ← hline]
    congr 1
    omega
  · rw [← Nat.sub_add_comm hle]
    refine ⟨hopens, ?_⟩
    simp only [BraceScan.andThen, hopens, Bool.or_true, true_and, Bool.true_eq_false, false_and,
      or_false] at hstops
    omega

/-- A body that opens inside another one, outside parentheses, ends inside it. -/
theorem add_braceExtent_drop_le (hle : n ≤ braceExtent lines) (hlt : n < lines.length)
    (hparens : (BraceScan.start.scan (lines.take n)).parens = 0)
    (hdepth : 0 ≤ (BraceScan.start.scan (lines.take n)).depth)
    (hopens : OpensBrace ((lines.drop n).take (braceExtent lines + 1 - n)).flatten) :
    n + braceExtent (lines.drop n) ≤ braceExtent lines := by
  have hlength : (lines.drop n).length = lines.length - n := List.length_drop
  by_cases hlast : braceExtent lines + 1 < lines.length
  · have hstops := (closes_of_lt hlast).stopsAt_drop hle hparens hdepth hopens
    have := hstops.braceExtent_le
    omega
  · have := braceExtent_lt (lines.drop n) (by omega)
    omega

section Inside

variable (hn : 0 < n) (hle : n ≤ braceExtent lines) (hlt : n < lines.length)
  (hbody : (BraceScan.start.scan (lines.take n)).opened = true ∧
      (BraceScan.start.scan (lines.take n)).parens = 0 ∨
    (BraceScan.start.scan ((lines.drop n).take (braceExtent lines + 1 - n))).depth ≤ 0)
include hn hle hlt hbody

/-- A scan that begins in an outer body stops there if something on the lines up to that body's end
can end it. -/
theorem Closes.exists_stopsAt_drop (h : Closes lines)
    (hcan : CanEnd ((lines.drop n).take (braceExtent lines + 1 - n))) :
    ∃ k, n + k ≤ braceExtent lines ∧ StopsAt (lines.drop n) k := by
  by_cases hopens : OpensBrace ((lines.drop n).take (braceExtent lines + 1 - n)).flatten
  · refine ⟨braceExtent lines - n, by omega, ?_⟩
    rcases hbody with ⟨hopened, hparens⟩ | hdepth
    · exact h.stopsAt_drop hle hparens
        (Int.le_of_lt (depth_pos_of_opened hn hle hlt hopened)) hopens
    · have hlast := braceExtent_lt lines (by omega)
      rw [← opened_scan_take_iff] at hopens
      rw [Nat.sub_add_comm hle] at hopens hdepth
      refine ⟨lines[braceExtent lines], ?_, .inl ⟨hopens, hdepth⟩⟩
      rw [List.getElem?_drop, Nat.add_sub_cancel' hle, List.getElem?_eq_getElem hlast]
  · obtain ⟨k, hk, hstops⟩ := hcan.exists_stopsAt hopens
    exact ⟨k, by omega, hstops⟩

/-- The end of a scan that begins in an outer body, with or without a body of its own: it lies in the
outer body exactly if something on the lines up to that body's end can end the scan. -/
theorem add_braceExtent_drop_le_iff :
    n + braceExtent (lines.drop n) ≤ braceExtent lines ↔
      braceExtent lines + 1 = lines.length ∨
        CanEnd ((lines.drop n).take (braceExtent lines + 1 - n)) := by
  have hlength : (lines.drop n).length = lines.length - n := List.length_drop
  have hall := braceExtent_lt lines (by omega)
  have hinner := braceExtent_lt (lines.drop n) (by omega)
  by_cases hlast : braceExtent lines + 1 = lines.length
  · exact iff_of_true (by omega) (.inl hlast)
  · rw [or_iff_right hlast]
    constructor
    · intro hends
      have hcloses : Closes (lines.drop n) := closes_of_lt (by omega)
      exact hcloses.stopsAt.canEnd (by omega)
    · intro hcan
      have hcloses : Closes lines := closes_of_lt (by omega)
      obtain ⟨k, hk, hstops⟩ := hcloses.exists_stopsAt_drop hn hle hlt hbody hcan
      have := hstops.braceExtent_le
      omega

end Inside

end Extent

/-! ## Bodies with no braces in them -/

/-- No brace stands in the text. -/
structure Braceless (text : List Char) : Prop where
  no_opening : '\x7b' ∉ text
  no_closing : '\x7d' ∉ text

namespace Braceless

variable {text more : List Char}

/-- A text with only characters of a text without braces has none. -/
theorem of_subset (h : Braceless text) (hsubset : more ⊆ text) : Braceless more :=
  ⟨fun hmem => h.no_opening (hsubset hmem), fun hmem => h.no_closing (hsubset hmem)⟩

/-- Blanks are no braces. -/
theorem of_isSpace (h : ∀ c ∈ text, Text.isSpace c = true) : Braceless text :=
  ⟨Text.not_mem_of_class h (by decide), Text.not_mem_of_class h (by decide)⟩

end Braceless

namespace BraceScan

/-- The scan behind the brace that opens a body. -/
def inBody : BraceScan := ⟨1, 0, true⟩

/-- A scan over two texts is one over the first, then one over the second. -/
theorem line_append (s : BraceScan) (text more : Line) :
    s.line (text ++ more) = (s.line text).line more :=
  List.foldl_append

/-- Characters that are no parentheses and no braces leave a scan as it is. -/
theorem line_of_forall {text : List Char} (h : ∀ c ∈ text, c ∉ "()\x7b\x7d".toList)
    (s : BraceScan) : s.line text = s := by
  induction text with
  | nil => rfl
  | cons c cs ih =>
    have hc := h c List.mem_cons_self
    have hchar : s.char c = s := by
      simp at hc
      simp [char, hc]
    show (s.char c).line cs = s
    rw [hchar, ih fun d hd => h d (List.mem_cons_of_mem c hd)]

/-- Blanks do not move a scan. -/
theorem line_of_isSpace {gap : List Char} (h : ∀ c ∈ gap, Text.isSpace c = true) (s : BraceScan) :
    s.line gap = s :=
  line_of_forall (fun c hc hmem => List.any_eq_false.mp
    (by decide : "()\x7b\x7d".toList.any Text.isSpace = false) c hmem (h c hc)) s

/-- What has no braces leaves the depth as it is. -/
theorem line_of_braceless {text : Line} (h : Braceless text) (s : BraceScan) :
    s.line text = ⟨s.depth, (s.line text).parens, s.opened⟩ := by
  induction text generalizing s with
  | nil => rfl
  | cons c text ih =>
    have hopen : c ≠ '\x7b' := fun hc => h.no_opening (hc ▸ List.mem_cons_self)
    have hclose : c ≠ '\x7d' := fun hc => h.no_closing (hc ▸ List.mem_cons_self)
    have hchar : s.char c = ⟨s.depth, (s.char c).parens, s.opened⟩ := by
      simp only [char, beq_iff_eq, if_neg hopen, if_neg hclose]
      repeat' split
      all_goals rfl
    show (s.char c).line text = ⟨s.depth, ((s.char c).line text).parens, s.opened⟩
    rw [ih (h.of_subset (List.subset_cons_self c text)), hchar]

/-- Behind the brace that opens it a body is scanned from there on. -/
theorem line_opening {front : Line} (h : Braceless front) (hparens : (start.line front).parens = 0)
    (rest : Line) : start.line (front ++ '\x7b' :: rest) = inBody.andThen (start.line rest) := by
  have hfront := line_of_braceless h start
  rw [hparens] at hfront
  rw [line_append, hfront, ← line_andThen]
  rfl

/-- A brace outside parentheses closes the body. -/
theorem line_closing {s : BraceScan} {last trail : Line} (h : Braceless last)
    (hparens : (s.line last).parens = 0) (htrail : Braceless trail) :
    (s.line (last ++ '\x7d' :: trail)).depth = s.depth - 1 ∧
      (s.line (last ++ '\x7d' :: trail)).opened = s.opened := by
  have hlast := line_of_braceless h s
  rw [hparens] at hlast
  have hbrace : s.line (last ++ '\x7d' :: trail) =
      (⟨s.depth - 1, 0, s.opened⟩ : BraceScan).line trail := by
    rw [line_append, hlast]
    rfl
  rw [hbrace, line_of_braceless htrail]
  exact ⟨rfl, rfl⟩

end BraceScan

section Body

variable {front first last trail : Line} {body : List Line}

/-- An open body ends where the brace behind its last text closes it. -/
theorem braceExtentFrom_closing {s : BraceScan} (hdepth : s.depth = 1) (hopened : s.opened = true)
    (hbody : ∀ line ∈ body, Braceless line) (hlast : Braceless last)
    (hparens : ((s.scan body).line last).parens = 0) (htrail : Braceless trail)
    (below : List Line) :
    braceExtentFrom s false (body ++ (last ++ '\x7d' :: trail) :: below) = body.length := by
  induction body generalizing s with
  | nil =>
    cases below with
    | nil => rfl
    | cons next below =>
      obtain ⟨hclosed, hstill⟩ := BraceScan.line_closing (s := s) hlast hparens htrail
      rw [List.nil_append, braceExtentFrom_cons_cons, if_pos]
      · rfl
      · rw [stopsAfter_eq_true, hclosed, hstill, hdepth]
        exact .inl ⟨hopened, Int.le_refl 0⟩
  | cons line body ih =>
    have hline := BraceScan.line_of_braceless (hbody line List.mem_cons_self) s
    have hrest := ih (s := s.line line) (by rw [hline, hdepth]) (by rw [hline, hopened])
      (fun l hl => hbody l (List.mem_cons_of_mem line hl)) hparens
    obtain ⟨next, lines, hnext⟩ := List.exists_cons_of_ne_nil
      (by simp : body ++ (last ++ '\x7d' :: trail) :: below ≠ [])
    rw [hnext] at hrest
    rw [List.cons_append, hnext, braceExtentFrom_cons_cons, if_neg, hrest, List.length_cons]
    rw [stopsAfter_eq_true, hline, hdepth, hopened]
    rintro (⟨-, hclosed⟩ | ⟨hnot, -⟩)
    · exact absurd hclosed (by decide)
    · cases hnot

section Opening

variable (hfront : Braceless front) (hopen : (BraceScan.start.line front).parens = 0)
  (hfirst : Braceless first)
include hfront hopen hfirst

/-- A body without braces ends on the line of the brace that closes it. -/
theorem braceExtent_opening (hbody : ∀ line ∈ body, Braceless line) (hlast : Braceless last)
    (hparens : (BraceScan.start.scan (first :: (body ++ [last]))).parens = 0)
    (htrail : Braceless trail) (below : List Line) :
    braceExtent ((front ++ '\x7b' :: first) :: (body ++ (last ++ '\x7d' :: trail) :: below)) =
      body.length + 1 := by
  have hinside := BraceScan.line_opening hfront hopen first
  have hscan : ∀ lines, (BraceScan.inBody.andThen (BraceScan.start.line first)).scan lines =
      BraceScan.inBody.andThen ((BraceScan.start.line first).scan lines) :=
    BraceScan.scan_andThen _ _
  have hstart := BraceScan.line_of_braceless hfirst .start
  have hdepth : (BraceScan.inBody.andThen (BraceScan.start.line first)).depth = 1 := by
    rw [hstart]
    rfl
  have hrest := braceExtentFrom_closing hdepth rfl hbody hlast
    (by rw [hscan, BraceScan.line_andThen]
        rw [BraceScan.scan_cons, BraceScan.scan_append] at hparens
        exact hparens) htrail below
  obtain ⟨next, lines, hnext⟩ := List.exists_cons_of_ne_nil
    (by simp : body ++ (last ++ '\x7d' :: trail) :: below ≠ [])
  rw [hnext] at hrest
  rw [braceExtent, hnext, braceExtentFrom_cons_cons, if_neg, hinside, hrest]
  rw [stopsAfter_eq_true, hinside, hdepth]
  rintro (⟨-, hclosed⟩ | ⟨hnot, -⟩)
  · exact absurd hclosed (by decide)
  · cases hnot

/-- A body that closes on the line on which it opens ends there. -/
theorem braceExtent_closed (hparens : (BraceScan.start.line first).parens = 0)
    (htrail : Braceless trail) (below : List Line) :
    braceExtent ((front ++ '\x7b' :: (first ++ '\x7d' :: trail)) :: below) = 0 := by
  cases below with
  | nil => rfl
  | cons next below =>
    obtain ⟨hclosed, -⟩ := BraceScan.line_closing hfirst hparens htrail
    rw [braceExtent, braceExtentFrom_cons_cons, if_pos]
    rw [stopsAfter_eq_true, BraceScan.line_opening hfront hopen]
    refine .inl ⟨rfl, ?_⟩
    show 1 + _ ≤ (0 : Int)
    rw [hclosed]
    decide

end Opening

end Body

/-! ## Ends -/

/-- Within the file the end of a body is counted from its first line. -/
theorem braceEnd_of_lt {lines : List Line} {start : Nat} (h : start < lines.length) :
    braceEnd lines start = start + braceExtent (lines.drop start) :=
  if_pos h

/-- What opens on the first one of some lines opens on these lines. -/
theorem OpensBrace.flatten_take_drop {lines : List Line} {first count : Nat}
    {hfirst : first < lines.length} (h : OpensBrace lines[first]) (hcount : 0 < count) :
    OpensBrace ((lines.drop first).take count).flatten := by
  obtain ⟨more, rfl⟩ : ∃ more, count = more + 1 := ⟨count - 1, by omega⟩
  rw [List.drop_eq_getElem_cons hfirst, List.take_succ_cons, List.flatten_cons]
  exact h.append _

/-- Bodies nest: what opens in a body, outside parentheses, ends in it. A body ends in its file, and
nothing above it or below its end has a part in where it ends. -/
theorem braceEnd_nested_and_local (lines : List Line) :
    (∀ i j, (hij : i < j) → (hj : j < lines.length) → j ≤ braceEnd lines i →
      OpensBrace lines[i] → OpensBrace lines[j] →
      (BraceScan.start.scan ((lines.drop i).take (j - i))).parens = 0 →
      braceEnd lines j ≤ braceEnd lines i) ∧
    ∀ start, start < lines.length →
      start ≤ braceEnd lines start ∧ braceEnd lines start < lines.length ∧
        (braceEnd lines start + 1 < lines.length → ∀ above below : List Line,
          braceEnd (above ++ lines.drop start ++ below) above.length - above.length =
            braceEnd lines start - start) := by
  refine ⟨fun i j hij hj hle hopensOuter hopensInner hparens => ?_, fun start hstart => ?_⟩
  · have hlength : (lines.drop i).length = lines.length - i := List.length_drop
    have hdrop : (lines.drop i).drop (j - i) = lines.drop j := by
      rw [List.drop_drop, Nat.add_sub_cancel' (Nat.le_of_lt hij)]
    rw [braceEnd_of_lt (Nat.lt_trans hij hj)] at hle
    rw [braceEnd_of_lt (Nat.lt_trans hij hj), braceEnd_of_lt hj]
    -- the outer body is open above the line on which the inner one opens
    have hopened : (BraceScan.start.scan ((lines.drop i).take (j - i))).opened = true := by
      rw [BraceScan.scan_eq_line_flatten, ← opensBrace_iff]
      exact hopensOuter.flatten_take_drop (by omega)
    have hdepth := depth_pos_of_opened (by omega) (by omega) (by omega) hopened
    have hinner : OpensBrace (((lines.drop i).drop (j - i)).take
        (braceExtent (lines.drop i) + 1 - (j - i))).flatten := by
      rw [hdrop]
      exact hopensInner.flatten_take_drop (by omega)
    have hnested := add_braceExtent_drop_le (by omega) (by omega) hparens (Int.le_of_lt hdepth) hinner
    rw [hdrop] at hnested
    omega
  · have hlength : (lines.drop start).length = lines.length - start := List.length_drop
    have hlt := braceExtent_lt (lines.drop start) (by omega)
    rw [braceEnd_of_lt hstart]
    refine ⟨by omega, by omega, fun hlast above below => ?_⟩
    have hsame : braceExtent (lines.drop start ++ below) = braceExtent (lines.drop start) := by
      have hcloses : Closes (lines.drop start ++ []) := by
        rw [List.append_nil]
        exact closes_of_lt (by omega)
      have h : braceExtent (lines.drop start ++ below) = braceExtent (lines.drop start ++ []) :=
        braceExtent_append hcloses (by rwa [List.append_nil])
      rwa [List.append_nil] at h
    have hstart' : above.length < (above ++ (lines.drop start ++ below)).length := by
      simp only [List.length_append]
      omega
    rw [List.append_assoc, braceEnd_of_lt hstart', List.drop_left, hsame]
    omega

/-- A function whose parameters and body hold braces, and a call behind it. -/
def nestedBraces : List Line :=
  ["function f(\x7b a \x7d = \x7b\x7d) \x7b", "  if (a) \x7b", "    g();", "  \x7d", "\x7d",
    "h();"].map String.toList

theorem braceEnd_nested_and_local_conditional :
    braceEnd nestedBraces 0 = 4 ∧ braceEnd nestedBraces 1 = 3 ∧
      braceEnd nestedBraces 1 ≤ braceEnd nestedBraces 0 ∧
      ∀ above below : List Line,
        braceEnd (above ++ nestedBraces.drop 1 ++ below) above.length - above.length = 2 := by
  obtain ⟨hnested, hlocal⟩ := braceEnd_nested_and_local nestedBraces
  have hend : braceEnd nestedBraces 1 = 3 := by decide +kernel
  refine ⟨by decide +kernel, hend, ?_, fun above below => ?_⟩
  · exact hnested 0 1 (by decide) (by decide) (by decide +kernel) (by decide +kernel)
      (by decide +kernel) (by decide +kernel)
  · rw [(hlocal 1 (by decide)).2.2 (by decide +kernel) above below, hend]
    rfl

end SourceSurvey
