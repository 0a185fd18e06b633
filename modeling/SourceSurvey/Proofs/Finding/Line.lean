import SourceSurvey.Finding.Hardcoded
import SourceSurvey.Finding.Marker
import SourceSurvey.Finding.Unused
import SourceSurvey.Proofs.Extract.Line

/-!
# Lines of findings

A finding has the number of the line that it is found on, and an unused declaration has the line of
the declaration.
-/

namespace SourceSurvey

/-! ## Line by line -/

section Numbered

variable {α β : Type} {found : α × Nat → List β} {line : β → Nat}

theorem map_snd_zipIdx (as : List α) : (as.zipIdx 1).map Prod.snd = lineNumbers as.length :=
  List.zipIdx_map_snd 1 as

/-- What numbered lines yield has numbers of lines that do not decrease. -/
theorem lines_of_zipIdx_flatMap (h : ∀ q, ∀ b ∈ found q, line b = q.2) (as : List α) :
    (((as.zipIdx 1).flatMap found).map line).Pairwise (· ≤ ·) ∧
      ∀ b ∈ (as.zipIdx 1).flatMap found, line b ∈ lineNumbers as.length := by
  have hnumbers := map_snd_zipIdx as
  constructor
  · refine pairwise_map_flatMap (fun q _ => h q) ?_
    rw [hnumbers]
    exact pairwise_lineNumbers _
  · intro b hb
    rw [← hnumbers]
    exact mem_map_of_mem_flatMap (fun q _ => h q) hb

/-- Of what numbered lines yield, that with one number is what the line with this number yields. -/
theorem filter_zipIdx_flatMap (h : ∀ q, ∀ b ∈ found q, line b = q.2) (as : List α) (k n : Nat) :
    ((as.zipIdx k).flatMap found).filter (fun b => line b == n) =
      ((as.zipIdx k).find? fun q => q.2 == n).toList.flatMap found := by
  induction as generalizing k with
  | nil => rfl
  | cons a as ih =>
    rw [List.zipIdx_cons, List.flatMap_cons, List.filter_append, ih, List.find?_cons]
    by_cases hn : k = n
    · have hthis : (found (a, k)).filter (fun b => line b == n) = found (a, k) := by
        rw [List.filter_eq_self]
        intro b hb
        exact beq_iff_eq.mpr ((h _ b hb).trans hn)
      -- the lines below have greater numbers
      have hbelow : (as.zipIdx (k + 1)).find? (fun q => q.2 == n) = none := by
        rw [List.find?_eq_none]
        intro q hq
        have hle := List.le_snd_of_mem_zipIdx hq
        rw [beq_iff_eq]
        omega
      rw [hthis, hbelow, beq_iff_eq.mpr hn, Option.toList_none, List.flatMap_nil, List.append_nil,
        Option.toList_some, List.flatMap_singleton]
    · have hnone : (found (a, k)).filter (fun b => line b == n) = [] := by
        rw [List.filter_eq_nil_iff]
        intro b hb
        rw [beq_iff_eq, h _ b hb]
        exact hn
      rw [hnone, List.nil_append, beq_eq_false_iff_ne.mpr hn]

end Numbered

namespace Hardcoded

/-- A value has the number of its line. -/
theorem ofLine_line {style : CommentRules} {n : Nat} {line code : Line} :
    ∀ h ∈ ofLine style n line code, h.line = n := by
  intro h hh
  unfold ofLine at hh
  split at hh
  · obtain ⟨finding, -, rfl⟩ := List.mem_map.mp hh
    rfl
  · cases hh

/-- An address has the number of its line. -/
theorem ofMarkupLine_line {n : Nat} {code : Line} : ∀ h ∈ ofMarkupLine n code, h.line = n := by
  intro h hh
  unfold ofMarkupLine at hh
  split at hh
  · cases hh
  · split at hh
    · rw [Option.mem_toList] at hh
      obtain ⟨f, -, rfl⟩ := Option.map_eq_some_iff.mp hh
      rfl
    · obtain ⟨f, -, rfl⟩ := List.mem_map.mp hh
      rfl

/-- Hardcoded values in code are listed line by line. -/
theorem ofCode_lines (style : CommentRules) (lines : List Line) :
    ((ofCode style lines).map (·.line)).Pairwise (· ≤ ·) ∧
      ∀ h ∈ ofCode style lines, h.line ∈ lineNumbers lines.length := by
  unfold ofCode
  rw [← style.length_zip_strip lines]
  exact lines_of_zipIdx_flatMap (fun _ => ofLine_line) _

/-- Hardcoded values in markup are listed line by line. -/
theorem ofMarkup_lines (lines : List Line) :
    ((ofMarkup lines).map (·.line)).Pairwise (· ≤ ·) ∧
      ∀ h ∈ ofMarkup lines, h.line ∈ lineNumbers lines.length := by
  unfold ofMarkup
  rw [← CommentRules.length_strip .markup lines]
  exact lines_of_zipIdx_flatMap (fun _ => ofMarkupLine_line) _

end Hardcoded

/-- The notes of a text stand on some of its lines, in their order. -/
theorem Marker.ofLines_sublist (lines : List Line) :
    ((ofLines lines).map (·.line)).Sublist (lineNumbers lines.length) := by
  rw [← map_snd_zipIdx]
  refine map_filterMap_sublist fun q _ m hm => ?_
  obtain ⟨f, -, rfl⟩ := Option.map_eq_some_iff.mp hm
  rfl

namespace Unused

theorem declaringLine?_mem {name : List Char} {lines code : List Line} {n : Nat}
    (h : declaringLine? name lines code = some n) : n ∈ lineNumbers (lines.zip code).length := by
  obtain ⟨q, hfind, rfl⟩ := Option.map_eq_some_iff.mp h
  rw [← map_snd_zipIdx]
  exact List.mem_map_of_mem (List.mem_of_find?_eq_some hfind)

/-- An unused declaration has the line of the declaration. -/
theorem ofLines_mem {lines : List Line} {found : Extraction} (style : CommentRules)
    (hfound : found.WellPlaced lines.length) :
    ∀ u ∈ ofLines lines found style, u.line ∈ lineNumbers lines.length := by
  intro u hu
  unfold ofLines at hu
  dsimp only at hu
  rw [List.mem_append, List.mem_append] at hu
  -- imports and routines keep their lines, and the line of a constant is searched for
  rcases hu with (hu | hu) | hu
  · obtain ⟨i, hi, hu⟩ := List.mem_flatMap.mp hu
    obtain ⟨name, -, rfl⟩ := List.mem_map.mp hu
    have hwithin := hfound.imports_within i (List.mem_filter.mp hi).1
    rw [mem_lineNumbers]
    show 1 ≤ i.line ∧ i.line ≤ lines.length
    omega
  · obtain ⟨c, hc, rfl⟩ := List.mem_map.mp hu
    exact hfound.routine_or_method_mem c (List.mem_filter.mp hc).1
  · obtain ⟨slot, -, hu⟩ := List.mem_filterMap.mp hu
    dsimp only at hu
    cases hline : declaringLine? slot.name.toList lines (style.strip lines) with
    | none =>
      rw [hline] at hu
      cases hu
    | some n =>
      rw [hline] at hu
      obtain ⟨-, hu⟩ := Option.ite_none_left_eq_some.mp hu
      cases hu
      rw [← style.length_zip_strip lines]
      exact declaringLine?_mem hline

end Unused

end SourceSurvey
