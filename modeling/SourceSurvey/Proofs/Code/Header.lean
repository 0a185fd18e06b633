import SourceSurvey.Code.Header
import SourceSurvey.Proofs.Extract.Layout
import SourceSurvey.Proofs.Place.Number
import Mathlib.Order.Bounds.Image

/-!
# Where a header ends

A header is read on from the line that it starts on, as long as more parentheses are open than are
closed. Main statement: it ends with the first line that closes all of them, or on its own line if it
opens none or no line of the window closes them, and its text is made of the lines up to there.
-/

namespace SourceSurvey

/-! ## The first line that closes what is open -/

/-- The balances of two texts add up. -/
theorem parenBalance_append (text more : List Char) :
    parenBalance (text ++ more) = parenBalance text + parenBalance more := by
  simp only [parenBalance, List.count_append]
  omega

/-- The lines with which the balance, from a given one on, comes down to zero. -/
def closedAt (balance : Int) (lines : List Line) : Set Nat :=
  {index | index < lines.length ∧ balance + parenBalance (lines.take (index + 1)).flatten ≤ 0}

section Scan

variable {balance : Int} {line : Line} {lines : List Line} {index : Nat}

/-- A line closes a header when the balance up to its end is not positive. -/
theorem mem_closedAt_iff :
    index ∈ closedAt balance lines ↔
      index < lines.length ∧ balance + parenBalance (lines.take (index + 1)).flatten ≤ 0 := Iff.rfl

theorem zero_mem_closedAt_cons_iff :
    0 ∈ closedAt balance (line :: lines) ↔ balance + parenBalance line ≤ 0 := by
  have hfirst : ((line :: lines).take (0 + 1)).flatten = line := List.flatten_singleton
  rw [mem_closedAt_iff, hfirst]
  exact and_iff_right (Nat.succ_pos lines.length)

/-- Behind its first line a scan goes on with the balance of that line. -/
theorem succ_mem_closedAt_cons_iff :
    index + 1 ∈ closedAt balance (line :: lines) ↔
      index ∈ closedAt (balance + parenBalance line) lines := by
  rw [mem_closedAt_iff, mem_closedAt_iff, List.length_cons, Nat.add_lt_add_iff_right,
    List.take_succ_cons, List.flatten_cons, parenBalance_append, Int.add_assoc]

/-- The line that a header ends with is the first one that closes what is open. -/
theorem isLeast_closedAt (h : headerExtentFrom balance lines = some index) :
    IsLeast (closedAt balance lines) index := by
  induction lines generalizing balance index with
  | nil => cases h
  | cons line lines ih =>
    rw [headerExtentFrom] at h
    by_cases hclosed : balance + parenBalance line ≤ 0
    · rw [if_pos hclosed, Option.some_inj] at h
      subst h
      exact ⟨zero_mem_closedAt_cons_iff.mpr hclosed, fun _ _ => Nat.zero_le _⟩
    · rw [if_neg hclosed] at h
      obtain ⟨before, hbefore, rfl⟩ := Option.map_eq_some_iff.mp h
      obtain ⟨hmem, hlower⟩ := ih hbefore
      refine ⟨succ_mem_closedAt_cons_iff.mpr hmem, fun other hother => ?_⟩
      cases other with
      | zero => exact absurd (zero_mem_closedAt_cons_iff.mp hother) hclosed
      | succ other => exact Nat.succ_le_succ (hlower (succ_mem_closedAt_cons_iff.mp hother))

/-- A header without an end has no line that closes what is open. -/
theorem closedAt_eq_empty (h : headerExtentFrom balance lines = none) :
    closedAt balance lines = ∅ := by
  induction lines generalizing balance with
  | nil => exact Set.eq_empty_of_forall_notMem fun _ hmem => absurd hmem.1 (Nat.not_lt_zero _)
  | cons line lines ih =>
    rw [headerExtentFrom] at h
    by_cases hclosed : balance + parenBalance line ≤ 0
    · rw [if_pos hclosed] at h
      cases h
    · rw [if_neg hclosed, Option.map_eq_none_iff] at h
      refine Set.eq_empty_of_forall_notMem fun index hmem => ?_
      cases index with
      | zero => exact hclosed (zero_mem_closedAt_cons_iff.mp hmem)
      | succ index =>
        have hrest := succ_mem_closedAt_cons_iff.mp hmem
        rw [ih h] at hrest
        exact hrest

end Scan

/-- A header takes no more lines than there are. -/
theorem headerExtent_lt (window : Nat) {lines : List Line} (hne : lines ≠ []) :
    headerExtent window lines < lines.length := by
  have hpos : 0 < lines.length := List.length_pos_iff.mpr hne
  cases lines with
  | nil => exact absurd rfl hne
  | cons first lines =>
    rw [headerExtent]
    by_cases hopens : first.contains '(' = true
    · rw [if_pos hopens]
      cases hextent : headerExtentFrom 0 ((first :: lines).take window) with
      | none => exact hpos
      | some n =>
        have hlt := (isLeast_closedAt hextent).1.1
        rw [List.length_take] at hlt
        rw [Option.getD_some]
        omega
    · rw [if_neg hopens]
      exact hpos

/-! ## Lines of a file -/

/-- Opening less closing parentheses from one line of a file through another one. -/
def parenSurplus (code : List Line) (start last : Nat) : Int :=
  parenBalance (code.extract start (last + 1)).flatten

/-- The lines of a window, from its start on, through which no more parentheses are opened than
closed. -/
def closingLines (window : Nat) (code : List Line) (start : Nat) : Set Nat :=
  {last | start ≤ last ∧ last < start + window ∧ last < code.length ∧
    parenSurplus code start last ≤ 0}

section Window

variable {window start index : Nat} {code : List Line}

theorem take_window (h : index < window) :
    ((code.drop start).take window).take (index + 1) = code.extract start (start + index + 1) := by
  have hcount : start + index + 1 - start = index + 1 := by omega
  rw [List.take_take, Nat.min_eq_left h, List.extract_eq_take_drop, hcount]

/-- The closing lines of a window are those of a scan that begins at its start. -/
theorem image_closedAt_window (window : Nat) (code : List Line) (start : Nat) :
    (start + ·) '' closedAt 0 ((code.drop start).take window) = closingLines window code start := by
  ext last
  constructor
  · rintro ⟨index, ⟨hlength, hclosed⟩, rfl⟩
    rw [List.length_take, List.length_drop] at hlength
    rw [take_window (by omega), Int.zero_add] at hclosed
    have hwindow : start + index < start + window := by omega
    have hlast : start + index < code.length := by omega
    exact ⟨Nat.le_add_right start index, hwindow, hlast, hclosed⟩
  · rintro ⟨hstart, hwindow, hlast, hclosed⟩
    obtain ⟨index, rfl⟩ := Nat.exists_eq_add_of_le hstart
    refine ⟨index, ⟨?_, ?_⟩, rfl⟩
    · rw [List.length_take, List.length_drop]
      omega
    · rw [take_window (by omega), Int.zero_add]
      exact hclosed

/-- A header extends to the line that closes it, if its first line opens a parenthesis. -/
theorem headerExtent_drop (hstart : start < code.length) :
    headerExtent window (code.drop start) = if code[start].contains '(' then
      (headerExtentFrom 0 ((code.drop start).take window)).getD 0 else 0 := by
  rw [List.drop_eq_getElem_cons hstart]
  rfl

theorem headerExtent_of_not_mem (hstart : start < code.length) (h : '(' ∉ code[start]) :
    headerExtent window (code.drop start) = 0 := by
  rw [headerExtent_drop hstart, if_neg fun hopens => h (List.contains_iff_mem.mp hopens)]

/-- The header of a line that opens a parenthesis ends with the first closing line, if there is
one. -/
theorem isLeast_closingLines_or (hstart : start < code.length) (h : '(' ∈ code[start]) :
    IsLeast (closingLines window code start) (start + headerExtent window (code.drop start)) ∨
      closingLines window code start = ∅ ∧ headerExtent window (code.drop start) = 0 := by
  rw [headerExtent_drop hstart, if_pos (List.contains_iff_mem.mpr h), ← image_closedAt_window]
  cases hextent : headerExtentFrom 0 ((code.drop start).take window) with
  | none => exact .inr ⟨by rw [closedAt_eq_empty hextent, Set.image_empty], rfl⟩
  | some index =>
    have hmono : Monotone (start + ·) := fun _ _ hle => Nat.add_le_add_left hle start
    exact .inl (hmono.map_isLeast (isLeast_closedAt hextent))

end Window

/-! ## The text of a header -/

/-- The line up to its line comment, where a style is given. -/
def uncommented (style : Option CommentRules) (line : Line) : Line :=
  (style.bind (·.lineCommentAt? line)).elim line line.take

theorem joinHeader_eq_join (style : Option CommentRules) (lines : List Line) :
    joinHeader style lines =
      Text.join [' '] (lines.map fun line => Text.trim (uncommented style line)) := by
  cases style with
  | none => rfl
  | some style =>
    have hshown : ∀ line, Text.trim (style.cutLineComment line) =
        Text.trim (uncommented (some style) line) := by
      intro line
      rw [CommentRules.cutLineComment, Text.trim_trimEnd, uncommented, Option.bind_some]
      cases style.lineCommentAt? line <;> rfl
    rw [joinHeader, List.map_map]
    exact congrArg (Text.join [' ']) (List.map_congr_left fun line _ => hshown line)

/-! ## Headers -/

/-- A header ends on its first line if this opens no parenthesis, and else with the first line of the
window that closes all that are open, or on its first line if there is none. Its text is made of the
lines up to there, trimmed and without their comments where a style is given. -/
theorem headerFrom_isLeast (style : Option CommentRules) (window : Nat) {code raw : List Line}
    {start : Nat} (hlength : code.length = raw.length) (hstart : start < code.length) :
    ∃ last, headerFrom style window code raw start =
        (Text.join [' '] ((raw.extract start (last + 1)).map fun line =>
          Text.trim (uncommented style line)), last) ∧
      start ≤ last ∧ last < raw.length ∧
      ('(' ∉ code[start] → last = start) ∧
      ('(' ∈ code[start] → IsLeast (closingLines window code start) last ∨
        closingLines window code start = ∅ ∧ last = start) := by
  have hne : code.drop start ≠ [] := List.ne_nil_of_length_pos (by rw [List.length_drop]; omega)
  have hextent := headerExtent_lt window hne
  rw [List.length_drop] at hextent
  have hcount : start + headerExtent window (code.drop start) + 1 - start =
      headerExtent window (code.drop start) + 1 := by omega
  refine ⟨start + headerExtent window (code.drop start), ?_, Nat.le_add_right start _, by omega,
    fun hnone => ?_, fun hopens => ?_⟩
  · rw [headerFrom, joinHeader_eq_join, List.extract_eq_take_drop, hcount]
  · rw [headerExtent_of_not_mem hstart hnone, Nat.add_zero]
  · rcases isLeast_closingLines_or hstart hopens with hleast | ⟨hempty, hzero⟩
    · exact .inl hleast
    · exact .inr ⟨hempty, by rw [hzero, Nat.add_zero]⟩

/-- A parameter list over several lines, with a parenthesis in a comment and one in a literal. -/
def spanningHeader : List Line :=
  ["x = 1", "def f(", "    a,  # :)", "    b=g(1),", "    c=\")\"", "):", "    pass"].map (·.toList)

/-- Its stripped copy. -/
def spanningCode : List Line :=
  CommentRules.hash.strip spanningHeader

theorem headerFrom_isLeast_spanning :
    headerFrom (some .hash) 20 spanningCode spanningHeader 1 =
        ("def f( a, b=g(1), c=\")\" ):".toList, 5) ∧ IsLeast (closingLines 20 spanningCode 1) 5 := by
  have hread : headerFrom (some .hash) 20 spanningCode spanningHeader 1 =
      ("def f( a, b=g(1), c=\")\" ):".toList, 5) := by decide +kernel
  have hlength : spanningCode.length = spanningHeader.length :=
    CommentRules.hash.length_strip spanningHeader
  obtain ⟨hstart, hline⟩ : ∃ h : 1 < spanningCode.length, spanningCode[1] = "def f(".toList :=
    List.getElem?_eq_some_iff.mp (by decide +kernel)
  have hopens : '(' ∈ spanningCode[1] := by
    rw [hline]
    decide
  obtain ⟨last, heq, -, -, -, hclosed⟩ := headerFrom_isLeast (some .hash) 20 hlength hstart
  obtain rfl : 5 = last := (Prod.mk.inj (hread.symm.trans heq)).2
  refine ⟨hread, (hclosed hopens).resolve_right ?_⟩
  rintro ⟨-, hfirst⟩
  cases hfirst

end SourceSurvey
