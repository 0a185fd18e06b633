import SourceSurvey.Language
import SourceSurvey.Proofs.Finding.Comment
import SourceSurvey.Proofs.Finding.Constant
import SourceSurvey.Proofs.Finding.Line
import SourceSurvey.Proofs.Pattern.Repetition
import SourceSurvey.Proofs.Pattern.Search

/-!
# Hardcoded values of one line

What a line of code can be found to hold. A credential excludes everything else, a web address
excludes the network addresses and paths, and a text is reported only where nothing else is. What is
reported is copied from the line, up to its trailing comment, and comments, annotations and imports
hold nothing. Main statement: `Hardcoded.ofCode_exclusive`.
-/

namespace SourceSurvey.Hardcoded

open Pattern

/-! ## Lines that are passed over -/

/-- A text begins as a comment: not with the sign of an attribute. -/
def BeginsComment (text : List Char) : Prop :=
  ("#".toList <+: text ∧ ¬ "#[".toList <+: text) ∨
    ∃ opener ∈ ["//", "/*", "*", "<!--"], opener.toList <+: text

/-- A text begins as an import: with a word and a blank, or with a word that may go on. -/
def BeginsImport (text : List Char) : Prop :=
  (∃ word ∈ ["import", "from", "use"], ∃ blank rest,
      Text.isSpace blank = true ∧ text = word.toList ++ blank :: rest) ∨
    ∃ word ∈ ["require", "include"], word.toList <+: text

/-- A line is passed over as a comment when it begins one. -/
theorem isCommentLine_iff {text : List Char} : isCommentLine text = true ↔ BeginsComment text := by
  simp only [isCommentLine, BeginsComment, Bool.or_eq_true, Bool.and_eq_true, Bool.not_eq_true',
    List.any_eq_true, List.isPrefixOf_iff_prefix, ← Bool.not_eq_true]

/-- A line begins with a word when a blank follows the word. -/
theorem beginsWithWord_iff {word : String} {text : List Char} :
    (word.toList.isPrefixOf text && (text.drop word.length).head?.any Text.isSpace) = true ↔
      ∃ blank rest, Text.isSpace blank = true ∧ text = word.toList ++ blank :: rest := by
  rw [Bool.and_eq_true, List.isPrefixOf_iff_prefix]
  constructor
  · rintro ⟨⟨rest, rfl⟩, hblank⟩
    rw [← String.length_toList, List.drop_left] at hblank
    cases rest with
    | nil => cases hblank
    | cons blank rest => exact ⟨blank, rest, hblank, rfl⟩
  · rintro ⟨blank, rest, hblank, rfl⟩
    rw [← String.length_toList, List.drop_left]
    exact ⟨List.prefix_append _ _, hblank⟩

/-- A line is passed over as an import when it begins one. -/
theorem isImportLine_iff {text : List Char} : isImportLine text = true ↔ BeginsImport text := by
  simp only [isImportLine, BeginsImport, Bool.or_eq_true, beginsWithWord_iff,
    List.isPrefixOf_iff_prefix, List.exists_mem_cons_iff, List.not_mem_nil, false_and, exists_false,
    or_false, or_assoc]

/-- Trimming a line takes no dashes away. -/
theorem dashes_infix_trim_iff (line : Line) :
    "---".toList <:+: Text.trim line ↔ "---".toList <:+: line := by
  have hend : ∀ t : List Char, ['-', '-'] ++ ['-'] <:+: Text.trimEnd t ↔
      ['-', '-'] ++ ['-'] <:+: t :=
    fun t => infix_trimEnd_iff (by decide)
  have hblank : '-' ∉ line.takeWhile Text.isSpace := by
    intro hmem
    have hspace := List.all_eq_true.mp List.all_takeWhile '-' hmem
    revert hspace
    decide
  calc "---".toList <:+: Text.trim line
    _ ↔ "---".toList <:+: Text.trimStart line := hend _
    _ ↔ "---".toList <:+: line.takeWhile Text.isSpace ++ Text.trimStart line :=
      (dashes_append_iff hblank).symm
    _ ↔ "---".toList <:+: line := by
      rw [show line.takeWhile Text.isSpace ++ Text.trimStart line = line from
        List.takeWhile_append_dropWhile]

/-- A line that is looked at has code, holds no dashes, and begins neither as a comment nor as an
import. -/
theorem isRelevant_iff {line code : Line} :
    isRelevant line code = true ↔
      Text.trim line ≠ [] ∧ Text.isBlank code = false ∧ ¬ "---".toList <:+: line ∧
        ¬ BeginsComment (Text.trim line) ∧ ¬ BeginsImport (Text.trim line) := by
  have hdashes : Text.contains (Text.trim line) "---".toList = true ↔ "---".toList <:+: line :=
    Text.contains_iff_isInfix.trans (dashes_infix_trim_iff line)
  simp only [isRelevant, Bool.and_eq_true, Bool.not_eq_true', Bool.or_eq_false_iff,
    List.isEmpty_eq_false_iff]
  rw [← hdashes, ← isCommentLine_iff, ← isImportLine_iff, Bool.not_eq_true, Bool.not_eq_true,
    Bool.not_eq_true]
  tauto

/-! ## What one line holds -/

/-- The kinds that may be found together on a line: one that excludes all others, or some of those
that a web address allows beside it, or some of those that are sought where there is none. -/
inductive StandTogether : List HardcodedKind → Prop
  | nothing : StandTogether []
  | credential : StandTogether [.credential]
  | string : StandTogether [.string]
  | web {kinds : List HardcodedKind} :
    kinds ≠ [] → kinds ⊆ [.url, .number] → StandTogether kinds
  | host {kinds : List HardcodedKind} :
    kinds ≠ [] → kinds ⊆ [.ip, .path, .number] → StandTogether kinds

/-- What a pattern finds first, as a value of a kind. -/
def foundBy (p : Pattern (List Char)) (kind : HardcodedKind) (text : List Char) :
    List (HardcodedKind × List Char) :=
  ((p.search? text).map fun f => (kind, f.value)).toList

/-- An address in a text hides the other addresses and the paths, but no number. -/
theorem plainFindings_eq (text : List Char) :
    plainFindings text = foundBy url .url text ++
      (if (foundBy url .url text).isEmpty then foundBy ip .ip text ++ foundBy path .path text
        else []) ++ foundBy socketNumber .number text :=
  rfl

/-- A search finds values of its own kind only. -/
theorem foundBy_kinds (p : Pattern (List Char)) (kind : HardcodedKind) (text : List Char) :
    ((foundBy p kind text).map Prod.fst).Sublist [kind] := by
  unfold foundBy
  cases p.search? text with
  | none => exact List.nil_sublist _
  | some f => exact List.Sublist.refl _

/-- A web address is sought first, and what may stand inside one only where there is none. -/
theorem plainFindings_kinds (text : List Char) :
    ((plainFindings text).map Prod.fst).Sublist [.url, .number] ∨
      ((plainFindings text).map Prod.fst).Sublist [.ip, .path, .number] := by
  have hnumber := foundBy_kinds socketNumber .number text
  rw [plainFindings_eq, List.map_append, List.map_append]
  split
  · next hnone =>
    right
    rw [List.isEmpty_iff.mp hnone, List.map_nil, List.nil_append, List.map_append]
    exact ((foundBy_kinds ip .ip text).append (foundBy_kinds path .path text)).append hnumber
  · left
    rw [List.map_nil, List.append_nil]
    exact (foundBy_kinds url .url text).append hnumber

/-- The kinds found on a text are different, and may stand together. -/
theorem findingsOf_kinds (text : List Char) :
    ((findingsOf text).map Prod.fst).Nodup ∧ StandTogether ((findingsOf text).map Prod.fst) := by
  unfold findingsOf
  cases credential.search? text with
  | some f => exact ⟨List.nodup_cons.mpr ⟨List.not_mem_nil, List.nodup_nil⟩, .credential⟩
  | none =>
    have hkinds := plainFindings_kinds text
    cases hplain : plainFindings text with
    | nil =>
      dsimp only
      cases assignedString? text with
      | none => exact ⟨List.nodup_nil, .nothing⟩
      | some t => exact ⟨List.nodup_cons.mpr ⟨List.not_mem_nil, List.nodup_nil⟩, .string⟩
    | cons q found =>
      rw [hplain] at hkinds
      have hne : (q :: found).map Prod.fst ≠ [] := List.cons_ne_nil _ _
      rcases hkinds with h | h
      · exact ⟨List.Nodup.sublist h (by decide), .web hne h.subset⟩
      · exact ⟨List.Nodup.sublist h (by decide), .host hne h.subset⟩

/-! ## What is reported is copied -/

/-- The text of a literal is copied from the line. -/
theorem quoted_copies (least : Nat) : (quoted least).Copies id := by
  refine (reads_char _).bind_copies fun quote => ?_
  exact (copies_run _ _).bind fun t => yields_bind fun _ => yields_pure rfl

/-- A path is copied from the line. -/
theorem path_copies : path.Copies id := by
  refine (reads_char _).bind_copies fun quote => ?_
  exact (copies_textOf _).bind fun p => yields_bind fun _ => yields_pure rfl

/-- A number is copied from the line. -/
theorem socketNumber_copies : socketNumber.Copies id := by
  have hquote : (opt (char fun c => c == '\'' || c == '"')).Reads fun t _ => t = [] ∨ True :=
    reads_opt ((reads_char _).imp fun _ _ _ => trivial)
  refine (reads_litAnyCase "port").bind_copies fun _ => ?_
  refine hquote.bind_copies fun _ => ?_
  refine reads_blanks.bind_copies fun _ => ?_
  refine (reads_char _).bind_copies fun _ => ?_
  exact reads_blanks.bind_copies fun _ => copies_run _ _

/-- The text that a line assigns stands in the line; what stands before it may be anything. -/
theorem stringAssignment_copies : stringAssignment.Copies Prod.snd := by
  have hexport : (do lit "export"; blanks1).Reads fun _ _ => True :=
    (reads_lit "export").bind fun _ _ _ => reads_blanks1.imp fun _ _ _ => trivial
  have hkeyword : (do
      let _ ← opt (do lit "export"; blanks1)
      let _ ← oneOf ["const", "let", "var"]
      blanks1).Reads fun _ _ => True :=
    (reads_opt hexport).bind fun _ _ _ => (reads_oneOf _).bind fun _ _ _ =>
      reads_blanks1.imp fun _ _ _ => trivial
  refine (reads_opt hkeyword).bind_copies fun _ => ?_
  refine (reads_opt (reads_lit "$")).bind_copies fun _ => ?_
  refine (reads_run _ 1).bind_copies fun bound => ?_
  refine reads_blanks.bind_copies fun _ => ?_
  refine (reads_lit "=").bind_copies fun _ => ?_
  refine reads_blanks.bind_copies fun _ => ?_
  refine (quoted_copies 8).bind fun t => ?_
  exact yields_bind fun _ => yields_bind fun _ => yields_bind fun _ => yields_bind fun _ =>
    yields_pure rfl

/-- What such a search finds stands in the text. -/
theorem infix_of_mem_foundBy {p : Pattern (List Char)} (hp : p.Copies id) {kind : HardcodedKind}
    {text : List Char} : ∀ q ∈ foundBy p kind text, q.2 <:+: text := by
  intro q hq
  rw [foundBy, Option.mem_toList] at hq
  obtain ⟨f, hf, rfl⟩ := Option.map_eq_some_iff.mp hq
  exact hp.of_search? hf

/-- A value outside literals stands in the text. -/
theorem infix_of_mem_plainFindings {text : List Char} :
    ∀ q ∈ plainFindings text, q.2 <:+: text := by
  intro q hq
  rw [plainFindings_eq, List.mem_append, List.mem_append] at hq
  rcases hq with (hq | hq) | hq
  · exact infix_of_mem_foundBy (copies_textOf _) q hq
  · split at hq
    · rcases List.mem_append.mp hq with hq | hq
      · exact infix_of_mem_foundBy (copies_textOf _) q hq
      · exact infix_of_mem_foundBy path_copies q hq
    · cases hq
  · exact infix_of_mem_foundBy socketNumber_copies q hq

/-- An assigned text stands in the line. -/
theorem infix_of_assignedString? {text t : List Char} (h : assignedString? text = some t) :
    t <:+: text := by
  obtain ⟨⟨bound, t'⟩, hmatch, hsome⟩ := Option.bind_eq_some_iff.mp h
  obtain ⟨-, hsome⟩ := Option.ite_none_left_eq_some.mp hsome
  cases hsome
  exact (stringAssignment_copies.of_matchStart? hmatch).trans (trim_isInfix text)

/-- Every value found on a text stands in it. -/
theorem infix_of_mem_findingsOf {text : List Char} : ∀ q ∈ findingsOf text, q.2 <:+: text := by
  intro q hq
  unfold findingsOf at hq
  split at hq
  · next f hf =>
    rw [List.mem_singleton.mp hq]
    exact (copies_textOf _).of_search? hf
  · split at hq
    · rw [Option.mem_toList] at hq
      obtain ⟨t, ht, rfl⟩ := Option.map_eq_some_iff.mp hq
      exact infix_of_assignedString? ht
    · exact infix_of_mem_plainFindings q hq

/-! ## Lines of code and files -/

section File

variable {style : CommentRules}

/-- A line has at most one value of each kind, and its kinds are such as stand together. -/
theorem ofLine_kinds (n : Nat) (line code : Line) :
    ((ofLine style n line code).map (·.kind)).Nodup ∧
      StandTogether ((ofLine style n line code).map (·.kind)) := by
  unfold ofLine
  split
  · rw [List.map_map]
    exact findingsOf_kinds (style.cutLineComment line)
  · exact ⟨List.nodup_nil, .nothing⟩

/-- A value stands in its line, in front of the comment. -/
theorem infix_of_mem_ofLine {n : Nat} {line code : Line} {h : HardcodedLiteral}
    (hh : h ∈ ofLine style n line code) : h.value.toList <:+: style.cutLineComment line := by
  unfold ofLine at hh
  split at hh
  · obtain ⟨q, hq, rfl⟩ := List.mem_map.mp hh
    show (String.ofList q.2).toList <:+: style.cutLineComment line
    rw [String.toList_ofList]
    exact infix_of_mem_findingsOf q hq
  · cases hh

/-- A line with a value is not passed over. -/
theorem isRelevant_of_mem_ofLine {n : Nat} {line code : Line} {h : HardcodedLiteral}
    (hh : h ∈ ofLine style n line code) : isRelevant line code = true := by
  unfold ofLine at hh
  split at hh
  · assumption
  · cases hh

/-- What is found in a file with one line number is what this line holds, and nothing if there is no
such line. -/
theorem filter_line_ofCode (style : CommentRules) (lines : List Line) (n : Nat) :
    ((ofCode style lines).filter (·.line == n) = []) ∨
      ∃ line code, (ofCode style lines).filter (·.line == n) = ofLine style n line code := by
  rw [ofCode, filter_zipIdx_flatMap (fun _ => ofLine_line)]
  cases hfind : ((lines.zip (style.strip lines)).zipIdx 1).find? (fun q => q.2 == n) with
  | none => exact .inl rfl
  | some q =>
    have hn := (List.find?_eq_some_iff_append.mp hfind).1
    refine .inr ⟨q.1.1, q.1.2, ?_⟩
    rw [Option.toList_some, List.flatMap_singleton, beq_iff_eq.mp hn]

/-- What is found in a file stands on a line of it. -/
theorem exists_mem_ofLine {lines : List Line} {h : HardcodedLiteral} (hh : h ∈ ofCode style lines) :
    ∃ i line code, h.line = i + 1 ∧ lines[i]? = some line ∧ (style.strip lines)[i]? = some code ∧
      h ∈ ofLine style (i + 1) line code := by
  obtain ⟨⟨⟨line, code⟩, n⟩, hq, hmem⟩ := List.mem_flatMap.mp hh
  obtain ⟨i, rfl⟩ := Nat.exists_eq_add_of_le' (List.le_snd_of_mem_zipIdx hq)
  have hpair := (List.mk_mem_zipIdx_iff_le_and_getElem?_sub.mp hq).2
  rw [Nat.add_sub_cancel] at hpair
  obtain ⟨hline, hcode⟩ := List.getElem?_zip_eq_some.mp hpair
  exact ⟨i, line, code, ofLine_line h hmem, hline, hcode, hmem⟩

end File

/-- The kinds that are found on the line with a number. -/
def kindsOn (style : CommentRules) (lines : List Line) (n : Nat) : List HardcodedKind :=
  ((ofCode style lines).filter (·.line == n)).map (·.kind)

/-- The kinds that are reported on a line are such as stand together. -/
theorem kindsOn_standTogether (style : CommentRules) (lines : List Line) (n : Nat) :
    (kindsOn style lines n).Nodup ∧ StandTogether (kindsOn style lines n) := by
  unfold kindsOn
  rcases filter_line_ofCode style lines n with hnone | ⟨line, code, hline⟩
  · rw [hnone]
    exact ⟨List.nodup_nil, .nothing⟩
  · rw [hline]
    exact ofLine_kinds n line code

/-- Hardcoded values are listed line by line. Those of one line are of different kinds that may stand
together. Each is copied from its line, up to the trailing comment, and this line has code, holds no
dashes, and begins neither as a comment nor as an import. -/
theorem ofCode_exclusive (tag : String) (lines : List Line) :
    ((ofCode (Language.codeStyle tag) lines).map (·.line)).Pairwise (· ≤ ·) ∧
      (∀ n, (kindsOn (Language.codeStyle tag) lines n).Nodup ∧
        StandTogether (kindsOn (Language.codeStyle tag) lines n)) ∧
      ∀ h ∈ ofCode (Language.codeStyle tag) lines, ∃ i line code,
        h.line = i + 1 ∧ lines[i]? = some line ∧
        ((Language.codeStyle tag).strip lines)[i]? = some code ∧
        h.value.toList <:+: (Language.codeStyle tag).cutLineComment line ∧
        Text.isBlank code = false ∧ ¬ "---".toList <:+: line ∧
        ¬ BeginsComment (Text.trim line) ∧ ¬ BeginsImport (Text.trim line) := by
  refine ⟨(ofCode_lines _ lines).1, kindsOn_standTogether _ lines, fun h hh => ?_⟩
  obtain ⟨i, line, code, hnumber, hline, hcode, hmem⟩ := exists_mem_ofLine hh
  exact ⟨i, line, code, hnumber, hline, hcode, infix_of_mem_ofLine hmem,
    (isRelevant_iff.mp (isRelevant_of_mem_ofLine hmem)).2⟩

end SourceSurvey.Hardcoded
