import SourceSurvey.Proofs.Code.Brace
import SourceSurvey.Proofs.Extract.Line
import SourceSurvey.Proofs.Place.Append

/-!
# The lines of a member

The branches of a class member are counted from the line below its own down to the line that ends
its scan for a body. Main statement: that line lies in the class exactly if something up to the end
of the class can end the scan, and then the branches counted do not depend on what follows the
class. A member without a body and without a semicolon is counted beyond its class.
-/

namespace SourceSurvey

/-! ## Lines by their numbers -/

/-- The lines of a file from one number to another. -/
def lineRange (code : List Line) (first last : Nat) : List Line :=
  (code.drop (first - 1)).take (last + 1 - first)

/-- The number of the line that ends the scan for a body begun on the line with the given number. -/
def closingLine (code : List Line) (number : Nat) : Nat :=
  number + braceExtent (code.drop (number - 1))

/-- Where one line stands in what was begun on another: in a body in braces that is open there,
outside all parentheses. -/
def StandsInBody (code : List Line) (declaration number : Nat) : Prop :=
  let scan := BraceScan.start.scan (lineRange code declaration (number - 1))
  scan.opened = true ∧ scan.parens = 0

instance (code : List Line) (declaration number : Nat) :
    Decidable (StandsInBody code declaration number) :=
  inferInstanceAs (Decidable (_ = true ∧ _ = 0))

/-- A body closes on a line of the file. -/
theorem closingLine_le_length {code : List Line} {number : Nat} (hpos : 0 < number)
    (hle : number ≤ code.length) : closingLine code number ≤ code.length := by
  have hlength : (code.drop (number - 1)).length = code.length - (number - 1) := List.length_drop
  have := braceExtent_lt (code.drop (number - 1)) (by omega)
  rw [closingLine]
  omega

/-- The lines close the braces that they open, counted outside parentheses. -/
def LeavesNoneOpen (lines : List Line) : Prop :=
  (BraceScan.start.scan lines).depth ≤ 0

/-- The scan for a body begun on a line stops, and does not just end with the file. -/
def ClosesInFile (code : List Line) (number : Nat) : Prop :=
  Closes (code.drop (number - 1))

/-- Where the scan for a body ends that begins on a line of what was declared above. -/
theorem closingLine_le_closingLine_iff {code : List Line} {declaration number : Nat}
    (hpos : 0 < declaration) (hbelow : declaration < number)
    (hwithin : number ≤ closingLine code declaration) (hlength : number ≤ code.length)
    (hbody : StandsInBody code declaration number ∨
      LeavesNoneOpen (lineRange code number (closingLine code declaration))) :
    (closingLine code number ≤ closingLine code declaration ↔
      closingLine code declaration = code.length ∨
        CanEnd (lineRange code number (closingLine code declaration))) ∧
    (ClosesInFile code declaration →
      CanEnd (lineRange code number (closingLine code declaration)) →
        ClosesInFile code number) := by
  rw [closingLine] at hwithin
  -- everything is counted from the line of the declaration, where the scan for its body begins
  have hdrop : (code.drop (declaration - 1)).drop (number - declaration) =
      code.drop (number - 1) := by
    rw [List.drop_drop]
    congr 1
    omega
  have hrange : lineRange code number (closingLine code declaration) =
      ((code.drop (declaration - 1)).drop (number - declaration)).take
        (braceExtent (code.drop (declaration - 1)) + 1 - (number - declaration)) := by
    rw [hdrop, lineRange, closingLine]
    congr 1
    omega
  have hscan : lineRange code declaration (number - 1) =
      (code.drop (declaration - 1)).take (number - declaration) := by
    rw [lineRange]
    congr 1
    omega
  have hlt : number - declaration < (code.drop (declaration - 1)).length := by
    rw [List.length_drop]
    omega
  have hn : 0 < number - declaration := by omega
  have hle : number - declaration ≤ braceExtent (code.drop (declaration - 1)) := by omega
  rw [StandsInBody, LeavesNoneOpen, hscan, hrange] at hbody
  constructor
  · have hiff := add_braceExtent_drop_le_iff hn hle hlt hbody
    rw [← hrange, hdrop, List.length_drop] at hiff
    have hends : closingLine code number ≤ closingLine code declaration ↔
        number - declaration + braceExtent (code.drop (number - 1)) ≤
          braceExtent (code.drop (declaration - 1)) := by
      rw [closingLine, closingLine]
      omega
    have hlast : closingLine code declaration = code.length ↔
        braceExtent (code.drop (declaration - 1)) + 1 = code.length - (declaration - 1) := by
      rw [closingLine]
      omega
    rw [hends, hlast, hiff]
  · rw [hrange, ClosesInFile, ClosesInFile, ← hdrop]
    intro hcloses hcan
    obtain ⟨k, -, hstops⟩ := Closes.exists_stopsAt_drop hn hle hlt hbody hcloses hcan
    exact ⟨k, hstops⟩

namespace Place

variable {style : CommentRules} {lines : List Line} {p q : Place}

/-- A body closes where the scan over its lines ends. -/
theorem closingLine_number (h : p ∈ places (sourceLines style lines)) :
    closingLine (style.strip lines) p.number = p.number + p.braceExtent := by
  rw [closingLine, ← codeFromHere_eq_drop h, braceExtent]

theorem closingLine_number_le_length (h : p ∈ places (sourceLines style lines)) :
    closingLine (style.strip lines) p.number ≤ lines.length := by
  have hnumber := number_mem_lineNumbers p
  rw [fileLength_of_mem_places h, length_sourceLines, mem_lineNumbers] at hnumber
  have hlength := style.length_strip lines
  have hle := closingLine_le_length hnumber.1 (hlength ▸ hnumber.2)
  rwa [hlength] at hle

/-- A brace body is the lines from its header to its closing line. -/
theorem braceBody_eq_lineRange (h : p ∈ places (sourceLines style lines)) :
    p.braceBody = lineRange (style.strip lines) (p.number + 1)
      (closingLine (style.strip lines) p.number) := by
  have hbelow : p.below.map (·.code) = (style.strip lines).drop p.number := by
    have hdrop := congrArg (List.drop 1) (codeFromHere_eq_drop h)
    rw [List.drop_drop] at hdrop
    exact hdrop
  rw [closingLine_number h, braceBody, hbelow, lineRange, Nat.add_sub_cancel]
  congr 1
  omega

theorem number_of_mem_take_following {n : Nat} (h : q ∈ p.following.take n) :
    p.number < q.number ∧ q.number ≤ p.number + n := by
  obtain ⟨i, hi, hq⟩ := List.mem_take_iff_getElem.mp h
  have hnumbers : p.following.map number = List.range' (p.number + 1) p.below.length :=
    map_number_placesFrom _ _
  have hnumber : q.number = p.number + 1 + i := by
    have hat : (p.following.map number)[i]? = some q.number := by
      rw [List.getElem?_map, List.getElem?_eq_some_iff.mpr ⟨by omega, hq⟩, Option.map_some]
    rw [hnumbers, List.getElem?_eq_some_iff] at hat
    obtain ⟨_, hat⟩ := hat
    rw [← hat, List.getElem_range', Nat.one_mul]
  omega

/-! ## What follows a body -/

section Over

variable {more other : List SourceLine}

/-- A body that closes on the first lines of a file closes there whatever follows these lines. -/
theorem braceExtent_overLines (h : Closes (p.overLines more).codeFromHere)
    (hwithin : (p.overLines more).braceExtent ≤ p.below.length) :
    (p.overLines other).braceExtent = (p.overLines more).braceExtent := by
  rw [codeFromHere_overLines] at h
  rw [braceExtent, codeFromHere_overLines] at hwithin ⊢
  rw [braceExtent, codeFromHere_overLines]
  refine braceExtent_append h ?_
  rw [length_codeFromHere]
  omega

/-- A body that closes on its lines does not depend on those below. -/
theorem braceBody_overLines (h : Closes (p.overLines more).codeFromHere)
    (hwithin : (p.overLines more).braceExtent ≤ p.below.length) :
    (p.overLines other).braceBody = (p.overLines more).braceBody := by
  have hlong : (p.overLines more).braceExtent ≤ (p.below.map (·.code)).length := by
    rwa [List.length_map]
  rw [braceBody, braceBody, braceExtent_overLines h hwithin, below_overLines, below_overLines,
    List.map_append, List.map_append, List.take_append_of_le_length hlong,
    List.take_append_of_le_length hlong]

end Over

end Place

/-- Over more lines a body that ends within its file has the same lines and depths. -/
theorem Extract.bodyWithDepths_overLines {p : Place} {more : List SourceLine}
    (hwithin : (p.overLines more).braceExtent ≤ p.below.length) :
    bodyWithDepths (p.overLines more) =
      (withDepths 0 (p :: p.following.take (p.overLines more).braceExtent)).map
        (Prod.map id (Place.overLines more)) := by
  have hlong : (p.overLines more).braceExtent ≤
      (p.following.map (Place.overLines more)).length := by
    rw [List.length_map, Place.following, ← List.length_map (f := Place.number),
      map_number_placesFrom, List.length_range']
    exact hwithin
  rw [← withDepths_map (Place.code_overLines more), bodyWithDepths, Place.following_overLines,
    List.take_append_of_le_length hlong, List.map_cons, List.map_take]

namespace Extract.JavaScript

/-! ## Members of a class -/

/-- The complexity of a member is that of its body. -/
theorem member?_complexity {q : Place} {m : Routine} (h : member? q = some m) :
    m.complexity = branchCount branchStart conditional q.braceBody := by
  unfold member? at h
  dsimp only at h
  split at h
  · cases h
    rfl
  · cases h
    rfl
  · split at h
    · cases h
    · split at h
      · cases h
      · cases h
        rfl

/-- Whether a line declares a member shows in the line itself. -/
theorem exists_member?_of_code_eq {q r : Place} (hcode : q.code = r.code) {m : Routine}
    (h : member? q = some m) : ∃ m', member? r = some m' := by
  unfold member? at h ⊢
  rw [hcode] at h
  dsimp only at h ⊢
  split at h
  · exact ⟨_, rfl⟩
  · exact ⟨_, rfl⟩
  · split at h
    · cases h
    · split at h
      · cases h
      · next hname =>
        rw [if_neg hname]
        exact ⟨_, rfl⟩

/-- A line declares a method directly in the class, if it may declare one at all. -/
theorem membersAt_eq_some_iff {depth : Int} {q : Place} {m : Routine} :
    (membersAt depth q).1 = some m ↔
      depth = 1 ∧ mayDeclareMember q.code = true ∧ member? q = some m := by
  unfold membersAt
  dsimp only
  by_cases hmay : (decide (depth = 1) && mayDeclareMember q.code) = true
  · rw [if_pos hmay]
    rw [Bool.and_eq_true, decide_eq_true_eq] at hmay
    cases hmember : member? q <;> simp [hmay]
  · rw [if_neg hmay]
    rw [Bool.and_eq_true, decide_eq_true_eq] at hmay
    simp only [reduceCtorEq, false_iff]
    exact fun h => hmay ⟨h.1, h.2.1⟩

/-- The methods of a class are those that the lines of its body declare. -/
theorem methods_of_classAt? {p : Place} {t : TypeDeclaration} (h : classAt? p = some t) :
    t.methods = ((bodyWithDepths p).drop 1).filterMap fun q => (membersAt q.1 q.2).1 := by
  unfold classAt? at h
  dsimp only at h
  split at h
  · cases h
  · cases h
    dsimp only
    unfold membersOfBody
    cases bodyWithDepths p with
    | nil => rfl
    | cons header body =>
      dsimp only
      rw [List.filterMap_cons_none rfl, List.filterMap_map]
      rfl

/-- A method of a class is declared on a line of its body. -/
theorem exists_place_of_mem_methods {p : Place} {t : TypeDeclaration} (h : classAt? p = some t)
    {m : Routine} (hm : m ∈ t.methods) :
    ∃ q ∈ p.following.take p.braceExtent, q.number = m.line ∧
      m.complexity = branchCount branchStart conditional q.braceBody := by
  rw [methods_of_classAt? h] at hm
  obtain ⟨⟨depth, q⟩, hq, hmember⟩ := List.mem_filterMap.mp hm
  refine ⟨q, ?_, (membersAt_line hmember).symm, ?_⟩
  · have hplace := List.mem_map_of_mem (f := Prod.snd) hq
    rw [List.map_drop, bodyWithDepths, map_snd_withDepths] at hplace
    exact hplace
  · exact member?_complexity (membersAt_eq_some_iff.mp hmember).2.2

/-- Whether a class starts on a line depends on the line only. -/
theorem exists_classAt?_of_code_eq {p q : Place} (hcode : p.code = q.code) {t : TypeDeclaration}
    (h : classAt? p = some t) : ∃ t', classAt? q = some t' := by
  unfold classAt? at h ⊢
  rw [hcode] at h
  dsimp only at h ⊢
  split at h
  · cases h
  · exact ⟨_, rfl⟩

/-- A class that closes on the first lines of a file declares there the same methods whatever follows
these lines, and those that close there too have the same branches. -/
theorem exists_method_overLines {p : Place} {more : List SourceLine} {t : TypeDeclaration}
    (h : classAt? (p.overLines more) = some t) (hcloses : Closes (p.overLines more).codeFromHere)
    (hwithin : (p.overLines more).braceExtent ≤ p.below.length) {m : Routine} (hm : m ∈ t.methods)
    (other : List SourceLine) :
    ∃ t', classAt? (p.overLines other) = some t' ∧ ∃ m' ∈ t'.methods, m'.line = m.line ∧
      ∃ q ∈ p.following, q.number = m.line ∧
        (Closes (q.overLines more).codeFromHere → (q.overLines more).braceExtent ≤ q.below.length →
          m'.complexity = m.complexity) := by
  have hcode : ∀ r : Place, (r.overLines more).code = (r.overLines other).code := fun _ => rfl
  obtain ⟨t', ht'⟩ := exists_classAt?_of_code_eq (hcode p) h
  refine ⟨t', ht', ?_⟩
  have hsame : (p.overLines other).braceExtent = (p.overLines more).braceExtent :=
    Place.braceExtent_overLines hcloses hwithin
  rw [methods_of_classAt? h, bodyWithDepths_overLines hwithin] at hm
  rw [methods_of_classAt? ht', bodyWithDepths_overLines (by rwa [hsame]), hsame]
  obtain ⟨⟨depth, r⟩, hr, hmember⟩ := List.mem_filterMap.mp hm
  rw [← List.map_drop] at hr
  obtain ⟨⟨depth', q⟩, hq, hover⟩ := List.mem_map.mp hr
  obtain ⟨rfl, rfl⟩ := Prod.mk.inj hover
  obtain ⟨hdepth, hmay, hdeclares⟩ := membersAt_eq_some_iff.mp hmember
  -- the line declares a member over other lines as well
  obtain ⟨m', hm'⟩ := exists_member?_of_code_eq (hcode q) hdeclares
  refine ⟨m', ?_, ?_, q, ?_, (member?_line hdeclares).symm, fun hqcloses hqwithin => ?_⟩
  · refine List.mem_filterMap.mpr ⟨(depth', q.overLines other), ?_, ?_⟩
    · rw [← List.map_drop]
      exact List.mem_map.mpr ⟨(depth', q), hq, rfl⟩
    · exact membersAt_eq_some_iff.mpr ⟨hdepth, hmay, hm'⟩
  · rw [member?_line hm', member?_line hdeclares]
    rfl
  · have hplace := List.mem_map_of_mem (f := Prod.snd) hq
    rw [List.map_drop, map_snd_withDepths] at hplace
    exact List.mem_of_mem_take hplace
  · rw [member?_complexity hm', member?_complexity hdeclares,
      Place.braceBody_overLines hqcloses hqwithin]

/-! ## Classes of a file -/

/-- What follows a class that closes has no part in the branches of a method that closes in it. -/
theorem exists_method_of_same_start {lines : List Line} {t : TypeDeclaration}
    (ht : t ∈ (extract lines).types) {m : Routine} (hm : m ∈ t.methods)
    (hcloses : ClosesInFile (CommentRules.slash.strip lines) t.line)
    (hmethod : ClosesInFile (CommentRules.slash.strip lines) m.line)
    (hwithin : closingLine (CommentRules.slash.strip lines) m.line ≤
      closingLine (CommentRules.slash.strip lines) t.line) (after : List Line) :
    ∃ t' ∈ (extract (lines.take (closingLine (CommentRules.slash.strip lines) t.line) ++
        after)).types,
      t'.line = t.line ∧ ∃ m' ∈ t'.methods, m'.line = m.line ∧ m'.complexity = m.complexity := by
  obtain ⟨p, hp, hclass⟩ := List.mem_filterMap.mp ht
  have hpline : p.number = t.line := (classAt?_line hclass).symm
  have hpcloses : Closes p.codeFromHere := by
    rw [codeFromHere_eq_drop hp, hpline]
    exact hcloses
  have hclosing := Place.closingLine_number hp
  have hle := Place.closingLine_number_le_length hp
  rw [hpline] at hclosing hle
  have hlength : (lines.take (closingLine (CommentRules.slash.strip lines) t.line)).length =
      closingLine (CommentRules.slash.strip lines) t.line := by
    rw [List.length_take, Nat.min_eq_left hle]
  -- both files begin with the lines down to the end of the class
  obtain ⟨rest, hrest⟩ := sourceLines_append .slash
    (lines.take (closingLine (CommentRules.slash.strip lines) t.line))
    (lines.drop (closingLine (CommentRules.slash.strip lines) t.line))
  rw [List.take_append_drop] at hrest
  obtain ⟨rest', hrest'⟩ := sourceLines_append .slash
    (lines.take (closingLine (CommentRules.slash.strip lines) t.line)) after
  have hplace := hp
  rw [hrest] at hplace
  obtain ⟨p, hp', rfl⟩ := exists_overLines_of_mem_places hplace
    (by rw [length_sourceLines, hlength]; omega)
  have hfile : ∀ q ∈ places (sourceLines .slash
      (lines.take (closingLine (CommentRules.slash.strip lines) t.line))),
      q.number + q.below.length = closingLine (CommentRules.slash.strip lines) t.line := by
    intro q hq
    rw [q.number_add_below, Place.fileLength_of_mem_places hq, length_sourceLines, hlength]
  have hpfile := hfile p hp'
  rw [Place.number_overLines] at hpline
  obtain ⟨t', ht', m', hm', hline, q, hq, hqline, hsame⟩ :=
    exists_method_overLines hclass hpcloses (by omega) hm rest'
  have hqplace := following_subset hp' hq
  have hqover := overLines_mem_places hqplace rest
  rw [← hrest] at hqover
  have hqclosing := Place.closingLine_number hqover
  have hqfile := hfile q hqplace
  rw [Place.number_overLines, hqline] at hqclosing
  refine ⟨t', List.mem_filterMap.mpr ⟨p.overLines rest', ?_, ht'⟩, ?_, m', hm', hline, hsame ?_ ?_⟩
  · rw [hrest']
    exact overLines_mem_places hp' rest'
  · rw [classAt?_line ht', Place.number_overLines, hpline]
  · rw [codeFromHere_eq_drop hqover, Place.number_overLines, hqline]
    exact hmethod
  · omega

/-- A member is counted within its class exactly if something up to the end of the class can end its
scan, and then its branches do not depend on what follows the class. -/
theorem methods_counted_in_class (lines : List Line) :
    let code := CommentRules.slash.strip lines
    ∀ t ∈ (extract lines).types, ∀ m ∈ t.methods,
      t.line < m.line ∧ m.line ≤ closingLine code t.line ∧
      m.complexity = branchCount branchStart conditional
        (lineRange code (m.line + 1) (closingLine code m.line)) ∧
      (StandsInBody code t.line m.line ∨
          LeavesNoneOpen (lineRange code m.line (closingLine code t.line)) →
        (closingLine code m.line ≤ closingLine code t.line ↔
          closingLine code t.line = lines.length ∨
            CanEnd (lineRange code m.line (closingLine code t.line))) ∧
        (ClosesInFile code t.line → CanEnd (lineRange code m.line (closingLine code t.line)) →
          ∀ after : List Line,
            ∃ t' ∈ (extract (lines.take (closingLine code t.line) ++ after)).types,
              t'.line = t.line ∧
              ∃ m' ∈ t'.methods, m'.line = m.line ∧ m'.complexity = m.complexity)) := by
  intro code t ht m hm
  have hlength : code.length = lines.length := CommentRules.length_strip _ _
  obtain ⟨p, hp, hclass⟩ := List.mem_filterMap.mp ht
  have hpline : p.number = t.line := (classAt?_line hclass).symm
  obtain ⟨q, hq, hqline, hcomplexity⟩ := exists_place_of_mem_methods hclass hm
  have hqplace : q ∈ places (sourceLines .slash lines) :=
    following_subset hp (List.mem_of_mem_take hq)
  have hpclosing := Place.closingLine_number hp
  obtain ⟨hbelow, hwithin⟩ := Place.number_of_mem_take_following hq
  rw [← hpclosing, hqline, hpline] at hwithin
  rw [hqline, hpline] at hbelow
  refine ⟨hbelow, hwithin, ?_, fun hbody => ?_⟩
  · rw [hcomplexity, Place.braceBody_eq_lineRange hqplace, hqline]
  have hqlength : m.line ≤ code.length := by
    have hin := Place.number_mem_lineNumbers q
    rw [Place.fileLength_of_mem_places hqplace, length_sourceLines, mem_lineNumbers] at hin
    omega
  have hpos : 0 < t.line := hpline ▸ Nat.succ_pos _
  obtain ⟨hends, hstops⟩ := closingLine_le_closingLine_iff hpos hbelow hwithin hqlength hbody
  rw [hlength] at hends
  refine ⟨hends, fun hcloses hcan after => ?_⟩
  exact exists_method_of_same_start ht hm hcloses (hstops hcloses hcan) (hends.mpr (.inr hcan))
    after

/-- A class with a signature and a method, and a condition below it. -/
def signedClass : List Line :=
  ["class Shape \x7b", "  abstract area(): number;", "  scale(by) \x7b", "    if (by) \x7b",
    "      return by", "    \x7d", "  \x7d", "\x7d", "if (ready) \x7b", "\x7d"].map String.toList

theorem methods_counted_in_class_signed :
    ∃ t ∈ (extract signedClass).types, ∃ m ∈ t.methods, m.line = 3 ∧
      closingLine (CommentRules.slash.strip signedClass) m.line ≤
        closingLine (CommentRules.slash.strip signedClass) t.line ∧
      ∀ after : List Line, ∃ t' ∈ (extract (signedClass.take 8 ++ after)).types, t'.line = t.line ∧
        ∃ m' ∈ t'.methods, m'.line = 3 ∧ m'.complexity = 1 := by
  have hfile : ∃ t ∈ (extract signedClass).types, ∃ m ∈ t.methods,
      m.line = 3 ∧ m.complexity = 1 ∧
      closingLine (CommentRules.slash.strip signedClass) t.line = 8 ∧
      StandsInBody (CommentRules.slash.strip signedClass) t.line m.line ∧
      StopsAt ((CommentRules.slash.strip signedClass).drop (t.line - 1)) 7 ∧
      CanEnd (lineRange (CommentRules.slash.strip signedClass) m.line 8) := by decide +kernel
  obtain ⟨t, ht, m, hm, hline, hcomplexity, hclosing, hbody, hstops, hcan⟩ := hfile
  obtain ⟨-, -, -, hwithin⟩ := methods_counted_in_class signedClass t ht m hm
  obtain ⟨hends, hsame⟩ := hwithin (.inl hbody)
  rw [hclosing] at hends hsame
  refine ⟨t, ht, m, hm, hline, by rw [hclosing]; exact hends.mpr (.inr hcan), fun after => ?_⟩
  have hafter := hsame ⟨7, hstops⟩ hcan after
  rwa [hline, hcomplexity] at hafter

/-- Every closing brace of a text closes an opening one, and none stays open. -/
def BracesBalance (text : List Char) : Prop :=
  (∀ n ≤ text.length, (text.take n).count '\x7d' ≤ (text.take n).count '\x7b') ∧
    text.count '\x7d' = text.count '\x7b'

instance (text : List Char) : Decidable (BracesBalance text) :=
  inferInstanceAs (Decidable (_ ∧ _))

/-- A class with a signature that no semicolon ends, and a condition below it. -/
def unendedSignature : List Line :=
  ["abstract class Shape \x7b", "  abstract area(): number", "\x7d", "if (ready) \x7b", "  start()",
    "\x7d"].map String.toList

/-- A member without a body and without a semicolon is counted beyond its class, with the branches
that stand there. -/
theorem not_forall_closingLine_le :
    ¬ ∀ lines : List Line, BracesBalance (CommentRules.slash.strip lines).flatten →
      ∀ t ∈ (extract lines).types, ∀ m ∈ t.methods,
        closingLine (CommentRules.slash.strip lines) m.line ≤
          closingLine (CommentRules.slash.strip lines) t.line := by
  intro h
  have hbeyond : ∃ t ∈ (extract unendedSignature).types, ∃ m ∈ t.methods,
      m.complexity = 1 ∧ ¬ closingLine (CommentRules.slash.strip unendedSignature) m.line ≤
        closingLine (CommentRules.slash.strip unendedSignature) t.line := by decide +kernel
  obtain ⟨t, ht, m, hm, -, hnot⟩ := hbeyond
  exact hnot (h unendedSignature (by decide +kernel) t ht m hm)

end Extract.JavaScript

end SourceSurvey
