import SourceSurvey.Extract.Python
import SourceSurvey.Proofs.Extract.Function
import SourceSurvey.Proofs.Extract.Ownership
import SourceSurvey.Proofs.Pattern.Word
import SourceSurvey.Proofs.Place.Append

/-!
# Complexity by words

The branches of a line are meant to depend on its words: on its first word, and on whether the word
`if` stands in it. Main statements: they do, but on lines whose first word only begins with the letters
of a condition, where an `if` behind it is left out; two names at the front of a line therefore give
functions and methods the same complexities unless exactly one of them begins so.
-/

namespace SourceSurvey.Extract.Python

open Pattern

attribute [local instance (high)] Zero.ofOfNat0

-- a text is gone through by its own characters, not by all that there are
attribute [local instance (high)] List.decidableBAll

/-! ## The law -/

/-- The words with which a line branches. -/
def branchWords : List String := ["if", "elif", "else", "for", "while", "except", "case"]

/-- The words that open a condition. -/
def conditionWords : List String := ["if", "elif"]

/-- The word that a line begins with, empty where a sign stands first. -/
def firstWord (code : Line) : List Char :=
  (Text.trim code).takeWhile Text.isWord

/-- The comparison of words is lawful. -/
theorem lawfulBEq_word : LawfulBEq (List Char) :=
  inferInstance

attribute [local instance (high)] lawfulBEq_word

/-- The branches of a line as its words have them: one if the first word branches, and one for a
condition behind another first word. -/
def branchesByWords (code : Line) : Nat :=
  (if String.ofList (firstWord code) ∈ branchWords then 1 else 0) +
    (if "if".toList ∈ Text.words code ∧ String.ofList (firstWord code) ∉ conditionWords then 1 else 0)

/-- The word has the letters of a condition at its front, and maybe more behind them. -/
def BeginsLikeCondition (word : List Char) : Prop :=
  ∃ w ∈ conditionWords, w.toList <+: word

instance (word : List Char) : Decidable (BeginsLikeCondition word) :=
  inferInstanceAs (Decidable (∃ w ∈ conditionWords, w.toList <+: word))

/-- The first word of the line is not a condition but has the letters of one at its front, and a
condition stands behind it. -/
def HidesCondition (code : Line) : Prop :=
  "if".toList ∈ Text.words code ∧ BeginsLikeCondition (firstWord code) ∧
    String.ofList (firstWord code) ∉ conditionWords

instance (code : Line) : Decidable (HidesCondition code) :=
  inferInstanceAs (Decidable (_ ∧ _ ∧ _))

/-- The words with which a line branches are words. -/
theorem isWord_of_mem_branchWords : ∀ w ∈ branchWords, w.toList ≠ [] ∧
    ∀ c ∈ w.toList, Text.isWord c = true := by
  decide

/-- A text of a class begins with a word of the class where the run of the class does. -/
theorem isPrefix_takeWhile_iff {p : Char → Bool} {word : List Char} (h : ∀ c ∈ word, p c = true)
    (text : List Char) : word <+: text.takeWhile p ↔ word <+: text := by
  refine ⟨fun hword => hword.trans (List.takeWhile_prefix p), ?_⟩
  rintro ⟨more, rfl⟩
  rw [List.takeWhile_append_of_pos h]
  exact List.prefix_append word _

/-- What is counted on a line: the condition is left out where the first word begins like one. -/
theorem branchesOf_eq (code : Line) : branchesOf code =
    (if String.ofList (firstWord code) ∈ branchWords then 1 else 0) +
      (if "if".toList ∈ Text.words code ∧ ¬ BeginsLikeCondition (firstWord code) then 1 else 0) := by
  have hstart : branchStart.matches? (Text.trim code) = true ↔
      String.ofList (firstWord code) ∈ branchWords := by
    refine (matches?_oneOf_wordBoundary isWord_of_mem_branchWords (Text.trim code)).trans ?_
    constructor
    · rintro ⟨w, hw, hfirst⟩
      rwa [firstWord, ← hfirst, String.ofList_toList]
    · intro hmem
      exact ⟨_, hmem, String.toList_ofList⟩
  have hword : conditionWord.occursIn (Text.trim code) = true ↔ "if".toList ∈ Text.words code := by
    rw [← Text.words_trim]
    exact occursIn_between_iff (by decide) (by decide) _
  have hbegins : ("if".toList.isPrefixOf (Text.trim code) ||
      "elif".toList.isPrefixOf (Text.trim code)) = true ↔ BeginsLikeCondition (firstWord code) := by
    rw [Bool.or_eq_true, List.isPrefixOf_iff_prefix, List.isPrefixOf_iff_prefix,
      ← isPrefix_takeWhile_iff (p := Text.isWord) (by decide) (Text.trim code),
      ← isPrefix_takeWhile_iff (p := Text.isWord) (by decide) (Text.trim code)]
    simp [BeginsLikeCondition, conditionWords, firstWord]
  have hcondition : (conditionWord.occursIn (Text.trim code) &&
      !("if".toList.isPrefixOf (Text.trim code) || "elif".toList.isPrefixOf (Text.trim code))) =
        true ↔ "if".toList ∈ Text.words code ∧ ¬ BeginsLikeCondition (firstWord code) := by
    rw [Bool.and_eq_true, hword, Bool.not_eq_true', ← Bool.not_eq_true, hbegins]
  unfold branchesOf
  exact congrArg₂ (· + ·) (if_congr hstart rfl rfl) (if_congr hcondition rfl rfl)

/-- A condition begins like one. -/
theorem beginsLikeCondition_of_mem {word : List Char} (h : String.ofList word ∈ conditionWords) :
    BeginsLikeCondition word :=
  ⟨_, h, by simp [String.toList_ofList]⟩

/-- The branches of a line are those of its words, unless its first word hides a condition. -/
theorem branchesOf_eq_branchesByWords_iff (code : Line) :
    branchesOf code = branchesByWords code ↔ ¬ HidesCondition code := by
  have hmem : String.ofList (firstWord code) ∈ conditionWords → BeginsLikeCondition (firstWord code) :=
    beginsLikeCondition_of_mem
  rw [branchesOf_eq, branchesByWords, Nat.add_left_cancel_iff, HidesCondition]
  by_cases hbegins : BeginsLikeCondition (firstWord code) <;>
    by_cases hword : "if".toList ∈ Text.words code <;>
      by_cases hfirst : String.ofList (firstWord code) ∈ conditionWords <;> simp_all

/-! ## Names at the front of a line -/

/-- The words that are no names, and the one with which a case of a choice begins. -/
def reservedWords : List String :=
  ["False", "None", "True", "and", "as", "assert", "async", "await", "break", "class", "continue",
    "def", "del", "elif", "else", "except", "finally", "for", "from", "global", "if", "import", "in",
    "is", "lambda", "nonlocal", "not", "or", "pass", "raise", "return", "try", "while", "with",
    "yield", "case"]

/-- A name in word characters. -/
structure IsName (word : List Char) : Prop where
  ne_nil : word ≠ []
  isWord : ∀ c ∈ word, Text.isWord c = true
  notReserved : String.ofList word ∉ reservedWords

/-- The line begins with the word: blanks before it, and no word character behind it. -/
structure BeginsWith (indent rest : List Char) : Prop where
  isSpace : ∀ c ∈ indent, Text.isSpace c = true
  ends : rest.head?.any Text.isWord = false

section Named

variable {a b indent rest : List Char}

/-- The first word of a line is the one that it begins with. -/
theorem firstWord_append (hline : BeginsWith indent rest) (hne : a ≠ [])
    (ha : ∀ c ∈ a, Text.isWord c = true) : firstWord (indent ++ (a ++ rest)) = a := by
  have hsolid : Text.Solid a := ⟨hne, fun c hc => Text.isSpace_eq_false_of_isWord (ha c hc)⟩
  have hends : (Text.trimEnd rest).head?.any Text.isWord = false := by
    obtain ⟨more, hmore⟩ := Text.trimEndWhile_isPrefix Text.isSpace rest
    rw [Text.trimEnd]
    cases htrim : Text.trimEndWhile Text.isSpace rest with
    | nil => rfl
    | cons c cs =>
      rw [htrim] at hmore
      have hrest := hline.ends
      rw [← hmore] at hrest
      exact hrest
  rw [firstWord, Text.trim_isSpace_append hline.isSpace, Text.trim_solid_append hsolid]
  exact ((Text.eq_takeWhile_iff ha).mpr ⟨_, rfl, hends⟩).symm

/-- A line that begins with a name branches at a condition behind it, unless the name hides it. -/
theorem IsName.branchesOf (ha : IsName a) (hline : BeginsWith indent rest) :
    branchesOf (indent ++ (a ++ rest)) =
      if "if".toList ∈ Text.words rest ∧ ¬ BeginsLikeCondition a then 1 else 0 := by
  have hbranch : String.ofList a ∉ branchWords := fun hmem =>
    ha.notReserved ((by decide : branchWords ⊆ reservedWords) hmem)
  have hif : "if".toList ≠ a := by
    rintro rfl
    exact ha.notReserved (by decide)
  have hwords : "if".toList ∈ Text.words (indent ++ (a ++ rest)) ↔
      "if".toList ∈ Text.words rest := by
    rw [Text.words_isSpace_append hline.isSpace, Text.words_append ha.ne_nil ha.isWord hline.ends,
      List.mem_cons, or_iff_right hif]
  rw [branchesOf_eq, firstWord_append hline ha.ne_nil ha.isWord, if_neg hbranch, Nat.zero_add,
    if_congr (and_congr_left' hwords) rfl rfl]

/-- Two names make the same line branch alike if both begin like a condition or none does, or if no
condition stands behind them. -/
theorem IsName.branchesOf_eq_iff (ha : IsName a) (hb : IsName b) (hline : BeginsWith indent rest) :
    Python.branchesOf (indent ++ (a ++ rest)) = Python.branchesOf (indent ++ (b ++ rest)) ↔
      ("if".toList ∈ Text.words rest → (BeginsLikeCondition a ↔ BeginsLikeCondition b)) := by
  rw [ha.branchesOf hline, hb.branchesOf hline]
  by_cases hword : "if".toList ∈ Text.words rest <;> by_cases hfirst : BeginsLikeCondition a <;>
    by_cases hsecond : BeginsLikeCondition b <;> simp_all

/-- The branches of lines add up. -/
theorem branchCount_append (before after : List Line) :
    branchCount (before ++ after) = branchCount before + branchCount after := by
  rw [branchCount, List.map_append, List.sum_append]
  rfl

/-! ## Lines of one shape -/

/-- Nothing from which functions, classes and their bodies are read tells the lines apart. -/
structure SameShape (code code' : Line) : Prop where
  function : functionStart.matchStart? code = functionStart.matchStart? code'
  type : classStart.matchStart? code = classStart.matchStart? code'
  isBlank : Text.isBlank code = Text.isBlank code'
  indentWidth : Text.indentWidth code = Text.indentWidth code'
  opens : code.contains '(' = code'.contains '('
  balance : parenBalance code = parenBalance code'
  branches : Python.branchesOf code = Python.branchesOf code'

theorem SameShape.refl (code : Line) : SameShape code code :=
  ⟨rfl, rfl, rfl, rfl, rfl, rfl, rfl⟩

/-- The word in front of the first gap of a line is its first word. -/
theorem firstWord_eq_of_gap {code : Line} {gap more : List Char} (ha : a ≠ [])
    (hword : ∀ c ∈ a, Text.isWord c = true) (hindent : ∀ c ∈ indent, Text.isSpace c = true)
    (hne : gap ≠ []) (hgap : ∀ c ∈ gap, Text.isSpace c = true)
    (hcode : code = indent ++ (a ++ (gap ++ more))) : firstWord code = a := by
  obtain ⟨d, ds, rfl⟩ := List.exists_cons_of_ne_nil hne
  have hends : (d :: ds ++ more).head?.any Text.isWord = false :=
    Text.isWord_eq_false_of_isSpace (hgap d List.mem_cons_self)
  rw [hcode, firstWord_append ⟨hindent, hends⟩ ha hword]

/-- No function begins on a line whose first word opens none. -/
theorem functionStart_of_firstWord {code : Line} (hdef : firstWord code ≠ "def".toList)
    (hasync : firstWord code ≠ "async".toList) : functionStart.matchStart? code = none := by
  cases hmatch : functionStart.matchStart? code with
  | none => rfl
  | some start =>
    exfalso
    obtain ⟨-, rest, hcode, async, gap, c, more, hword, hne, hgap, -, rfl⟩ :=
      functionStart_reads.of_matchStart? hmatch
    obtain ⟨-, -, -, hindent, -⟩ := functionStart_reads_indent.of_matchStart? hmatch
    rcases hword with rfl | ⟨space, rfl, hspace, hspaces⟩
    · exact hdef (firstWord_eq_of_gap (by decide) (by decide) hindent hne hgap
        (by rw [hcode]; simp : code = start.1 ++ ("def".toList ++ (gap ++ (c :: more ++ rest)))))
    · exact hasync (firstWord_eq_of_gap (by decide) (by decide) hindent hspace hspaces
        (by rw [hcode]; simp : code = start.1 ++ ("async".toList ++
          (space ++ ("def".toList ++ (gap ++ (c :: more ++ rest)))))))

/-- So it is with classes. -/
theorem classStart_of_firstWord {code : Line} (hclass : firstWord code ≠ "class".toList) :
    classStart.matchStart? code = none := by
  cases hmatch : classStart.matchStart? code with
  | none => rfl
  | some start =>
    exfalso
    obtain ⟨-, rest, hcode, space, gap, more, hspace, hne, hgap, rfl⟩ :=
      classStart_reads.of_matchStart? hmatch
    exact hclass (firstWord_eq_of_gap (by decide) (by decide) hspace hne hgap
      (by rw [hcode]; simp : code = space ++ ("class".toList ++ (gap ++ (more ++ rest)))))

/-- A name has word characters only. -/
theorem IsName.not_mem (ha : IsName a) {c : Char} (hc : Text.isWord c = false) : c ∉ a :=
  Text.not_mem_of_class ha.isWord hc

/-- A name has no parentheses. -/
theorem IsName.parenBalance (ha : IsName a) : SourceSurvey.parenBalance a = 0 := by
  rw [SourceSurvey.parenBalance, List.count_eq_zero_of_not_mem (ha.not_mem (by decide)),
    List.count_eq_zero_of_not_mem (ha.not_mem (by decide))]
  rfl

/-- Two names at the front of a line that branches alike with them leave its shape as it is. -/
theorem IsName.sameShape (ha : IsName a) (hb : IsName b) (hline : BeginsWith indent rest)
    (h : "if".toList ∈ Text.words rest → (BeginsLikeCondition a ↔ BeginsLikeCondition b)) :
    SameShape (indent ++ (a ++ rest)) (indent ++ (b ++ rest)) := by
  -- no name begins a function or a class, and the rest of the shape is that of the line without it
  have hnone : ∀ {a : List Char}, IsName a →
      functionStart.matchStart? (indent ++ (a ++ rest)) = none ∧
        classStart.matchStart? (indent ++ (a ++ rest)) = none := by
    intro a ha
    have hfirst := firstWord_append hline ha.ne_nil ha.isWord
    have hother : ∀ w : List Char, String.ofList w ∈ reservedWords →
        firstWord (indent ++ (a ++ rest)) ≠ w := by
      rintro w hw heq
      exact ha.notReserved (hfirst ▸ heq ▸ hw)
    exact ⟨functionStart_of_firstWord (hother _ (by decide)) (hother _ (by decide)),
      classStart_of_firstWord (hother _ (by decide))⟩
  have hsolid : ∀ {a : List Char}, IsName a →
      Text.isBlank (indent ++ (a ++ rest)) = false ∧
        Text.indentWidth (indent ++ (a ++ rest)) = indent.length := by
    intro a ha
    obtain ⟨c, cs, rfl⟩ := List.exists_cons_of_ne_nil ha.ne_nil
    have hc := Text.isSpace_eq_false_of_isWord (ha.isWord c List.mem_cons_self)
    exact ⟨Text.isBlank_append_cons hc _ _, Text.indentWidth_append_cons hline.isSpace hc _⟩
  have hopens : ∀ {a : List Char}, IsName a →
      (indent ++ (a ++ rest)).contains '(' = (indent ++ rest).contains '(' := by
    intro a ha
    rw [Bool.eq_iff_iff, List.contains_iff_mem, List.contains_iff_mem]
    simp [ha.not_mem (by decide : Text.isWord '(' = false)]
  have hbalance : ∀ {a : List Char}, IsName a →
      SourceSurvey.parenBalance (indent ++ (a ++ rest)) =
        SourceSurvey.parenBalance (indent ++ rest) := by
    intro a ha
    rw [parenBalance_append, parenBalance_append, ha.parenBalance, Int.zero_add,
      parenBalance_append]
  exact {
    function := (hnone ha).1.trans (hnone hb).1.symm
    type := (hnone ha).2.trans (hnone hb).2.symm
    isBlank := (hsolid ha).1.trans (hsolid hb).1.symm
    indentWidth := (hsolid ha).2.trans (hsolid hb).2.symm
    opens := (hopens ha).trans (hopens hb).symm
    balance := (hbalance ha).trans (hbalance hb).symm
    branches := (ha.branchesOf_eq_iff hb hline).mpr h }

end Named

/-! ## Extents -/

section Extents

variable {codes codes' : List Line}

theorem headerExtentFrom_congr (h : List.Forall₂ SameShape codes codes') (balance : Int) :
    headerExtentFrom balance codes = headerExtentFrom balance codes' := by
  induction h generalizing balance with
  | nil => rfl
  | cons hline _ ih => rw [headerExtentFrom, headerExtentFrom, hline.balance, ih]

theorem headerExtent_congr (h : List.Forall₂ SameShape codes codes') (window : Nat) :
    headerExtent window codes = headerExtent window codes' := by
  -- the window is cut first, since the count of parentheses runs over the lines in it only
  have hwindow := headerExtentFrom_congr (List.forall₂_take window h) 0
  cases h with
  | nil => rfl
  | cons hline _ => rw [headerExtent, headerExtent, hline.opens, hwindow]

theorem indentedExtent_congr (h : List.Forall₂ SameShape codes codes') (base : Nat) :
    indentedExtent base codes = indentedExtent base codes' := by
  induction h with
  | nil => rfl
  | cons hline _ ih =>
    rw [indentedExtent, indentedExtent, hline.isBlank, hline.indentWidth, ih]

theorem branchCount_congr (h : List.Forall₂ SameShape codes codes') :
    branchCount codes = branchCount codes' := by
  induction h with
  | nil => rfl
  | cons hline _ ih => rw [branchCount_cons, branchCount_cons, hline.branches, ih]

end Extents

/-! ## Places -/

/-- Two places of two files have the same number, and lines of the same shapes from there on. -/
structure SamePlace (p q : Place) : Prop where
  number : p.number = q.number
  here : SameShape p.code q.code
  below : List.Forall₂ (fun l l' => SameShape l.code l'.code) p.below q.below

section Places

variable {p q : Place} {ps qs : List Place}

/-- Two files with lines of the same shapes have the same places. -/
theorem forall₂_placesFrom {lines lines' above above' : List SourceLine}
    (hlength : above.length = above'.length)
    (h : List.Forall₂ (fun l l' => SameShape l.code l'.code) lines lines') :
    List.Forall₂ SamePlace (placesFrom above lines) (placesFrom above' lines') := by
  induction h generalizing above above' with
  | nil => exact .nil
  | cons hline hlines ih =>
    have hnext : ∀ l l' : SourceLine, (l :: above).length = (l' :: above').length := fun _ _ =>
      congrArg (· + 1) hlength
    exact .cons ⟨congrArg (· + 1) hlength, hline, hlines⟩ (ih (hnext _ _))

/-- The lines at the same places have the same shapes. -/
theorem forall₂_code (h : List.Forall₂ SamePlace ps qs) :
    List.Forall₂ SameShape (ps.map (·.code)) (qs.map (·.code)) := by
  rw [List.forall₂_map_left_iff, List.forall₂_map_right_iff]
  exact h.imp fun _ _ hplace => hplace.here

theorem SamePlace.indentedBody (h : SamePlace p q) :
    List.Forall₂ SamePlace p.indentedBody q.indentedBody := by
  have hextent : p.headerExtent = q.headerExtent := by
    refine headerExtent_congr (.cons h.here ?_) _
    rw [List.forall₂_map_left_iff, List.forall₂_map_right_iff]
    exact h.below
  have hafter : List.Forall₂ SamePlace (p.following.drop p.headerExtent)
      (q.following.drop q.headerExtent) := by
    rw [hextent]
    exact List.forall₂_drop _ (forall₂_placesFrom h.number h.below)
  have hend := indentedExtent_congr (forall₂_code hafter) (Text.indentWidth p.code)
  unfold Place.indentedBody
  dsimp only
  rw [hend, h.here.indentWidth]
  exact List.forall₂_take _ hafter

theorem SamePlace.complexity (h : SamePlace p q) :
    branchCount (p.indentedBody.map (·.code)) = branchCount (q.indentedBody.map (·.code)) :=
  branchCount_congr (forall₂_code h.indentedBody)

theorem baseline?_congr (h : List.Forall₂ SamePlace ps qs) : baseline? ps = baseline? qs := by
  induction h with
  | nil => rfl
  | cons hplace _ ih =>
    unfold baseline? at ih ⊢
    rw [List.find?_cons, List.find?_cons, hplace.here.isBlank]
    split
    · exact congrArg some hplace.here.indentWidth
    · exact ih

theorem map_filterMap_congr {α β : Type} {find find' : Place → Option α} {key : α → β}
    (hfind : ∀ p q, SamePlace p q → (find p).map key = (find' q).map key)
    (h : List.Forall₂ SamePlace ps qs) :
    (ps.filterMap find).map key = (qs.filterMap find').map key := by
  rw [List.map_filterMap, List.map_filterMap]
  induction h with
  | nil => rfl
  | cons hplace _ ih =>
    rw [List.filterMap_cons, List.filterMap_cons, hfind _ _ hplace, ih]

end Places

/-! ## Files -/

/-- What tells how complex a routine is, and which one it is. -/
def measure (r : Routine) : String × Nat × Nat :=
  (r.name, r.line, r.complexity)

/-- The complexities of the functions of a file, and of the methods of each of its classes. -/
def complexities (e : Extraction) : List (String × Nat × Nat) × List (List (String × Nat × Nat)) :=
  (e.routines.map measure, e.types.map fun t => t.methods.map measure)

theorem SamePlace.topLevelFunction? {p q : Place} (h : SamePlace p q) :
    (Python.topLevelFunction? p).map measure = (Python.topLevelFunction? q).map measure := by
  unfold Python.topLevelFunction?
  rw [h.here.function]
  split
  · exact congrArg some (by simp only [measure, functionAt, h.number, h.complexity])
  · rfl

theorem SamePlace.methodAt? {p q : Place} (h : SamePlace p q) (baseline : Nat) :
    (Python.methodAt? baseline p).map measure = (Python.methodAt? baseline q).map measure := by
  unfold Python.methodAt?
  rw [h.here.function]
  split
  · split
    · exact congrArg some (by simp only [measure, functionAt, h.number, h.complexity])
    · rfl
  · rfl

theorem SamePlace.classAt? {p q : Place} (h : SamePlace p q) :
    (Python.classAt? p).map (fun t => t.methods.map measure) =
      (Python.classAt? q).map fun t => t.methods.map measure := by
  have hbody := h.indentedBody
  unfold Python.classAt?
  rw [h.here.type]
  split
  · rfl
  · refine congrArg some ?_
    dsimp only
    rw [baseline?_congr hbody]
    split
    · exact map_filterMap_congr (fun _ _ hplace => hplace.methodAt? _) hbody
    · rfl

theorem complexities_congr {lines lines' : List Line}
    (h : List.Forall₂ (fun l l' => SameShape l.code l'.code) (sourceLines .hash lines)
      (sourceLines .hash lines')) :
    complexities (extract lines) = complexities (extract lines') := by
  have hplaces : List.Forall₂ SamePlace (places (sourceLines .hash lines))
      (places (sourceLines .hash lines')) := forall₂_placesFrom rfl h
  exact congrArg₂ Prod.mk (map_filterMap_congr (fun _ _ hplace => hplace.topLevelFunction?) hplaces)
    (map_filterMap_congr (fun _ _ hplace => hplace.classAt?) hplaces)

/-- Where no word goes on, none goes on in what stripping keeps. -/
theorem head?_stripped {rest : List Char} (h : rest.head?.any Text.isWord = false) :
    (stripped rest).head?.any Text.isWord = false := by
  cases rest with
  | nil => rfl
  | cons c cs =>
    have hc : Text.isWord c = false := h
    have hopening : CommentRules.hash.openingAt c cs = .lineComment ∨
        (∃ quotes, CommentRules.hash.openingAt c cs = .literal (c :: quotes)) ∨
          CommentRules.hash.openingAt c cs = .plain := by
      have hrules : CommentRules.hash.openingAt c cs =
          if CommentRules.hash.opensLineComment (c :: cs) then .lineComment
          else if CommentRules.hash.startsTriple (c :: cs) then .literal [c, c, c]
          else if CommentRules.hash.isQuote c then .literal [c] else .plain := rfl
      rw [hrules]
      split_ifs <;> simp
    rw [stripped, CommentRules.stripFrom_code]
    rcases hopening with hopening | ⟨quotes, hopening⟩ | hopening <;> rw [hopening]
    · rfl
    · exact hc
    · exact hc

section File

variable {a b indent rest : List Char}

/-- A name and the blanks before it are kept, and the rest of the line is stripped as it is alone. -/
theorem IsName.stripLine (ha : IsName a) (hline : BeginsWith indent rest) :
    CommentRules.hash.stripLine .code (indent ++ (a ++ rest)) =
      (indent ++ (a ++ stripped rest), (CommentRules.hash.stripFrom 0 .code rest).2) := by
  have hbare : ∀ c ∈ indent ++ a, isBare c = true := by
    intro c hc
    rcases List.mem_append.mp hc with hc | hc
    · exact isBare_of_isSpace (hline.isSpace c hc)
    · exact isBare_of_isPlain (isPlain_of_isWord (ha.isWord c hc))
  show CommentRules.hash.stripFrom 0 .code _ = _
  rw [← List.append_assoc, stripFrom_of_isBare hbare, List.append_assoc]
  rfl

/-- On a line of a file that begins in code, one name stands for the other. -/
theorem complexities_extract_of_name (ha : IsName a) (hb : IsName b)
    (hline : BeginsWith indent rest)
    (h : "if".toList ∈ Text.words (stripped rest) →
      (BeginsLikeCondition a ↔ BeginsLikeCondition b))
    {before : List Line} (hbefore : CommentRules.hash.regionAfter .code before = .code)
    (after : List Line) :
    complexities (extract (before ++ (indent ++ (a ++ rest)) :: after)) =
      complexities (extract (before ++ (indent ++ (b ++ rest)) :: after)) := by
  refine complexities_congr ?_
  -- stripping keeps the name and what may be read of the rest, so the lines differ in shape no more
  have hkept : BeginsWith indent (stripped rest) := ⟨hline.isSpace, head?_stripped hline.ends⟩
  have hrefl : ∀ lines : List SourceLine,
      List.Forall₂ (fun l l' => SameShape l.code l'.code) lines lines := fun lines =>
    List.forall₂_same.mpr fun l _ => .refl l.code
  have hlines : ∀ {a : List Char}, IsName a →
      sourceLines .hash (before ++ (indent ++ (a ++ rest)) :: after) = sourceLines .hash before ++
        ⟨indent ++ (a ++ rest), indent ++ (a ++ stripped rest)⟩ ::
          List.zipWith SourceLine.mk after (CommentRules.hash.stripLines
            (CommentRules.carried (CommentRules.hash.stripFrom 0 .code rest).2) after) := by
    intro a ha
    rw [sourceLines_append_eq, hbefore, CommentRules.stripLines, ha.stripLine hline]
    rfl
  rw [hlines ha, hlines hb]
  exact List.rel_append (hrefl _) (.cons (ha.sameShape hb hkept h) (hrefl _))

/-- The branches of a line are those of its words, unless its first word only begins like a condition
and a condition stands behind it. So a name at the front of a line may stand for another one, in the
count of any lines and in the complexities of a file, unless just one of the two begins so. -/
theorem branches_by_words (code : Line) :
    (branchesOf code = branchesByWords code ↔ ¬ HidesCondition code) ∧
    ∀ {a b indent rest : List Char}, IsName a → IsName b → BeginsWith indent rest →
      (∀ before after,
        branchCount (before ++ (indent ++ (a ++ rest)) :: after) =
            branchCount (before ++ (indent ++ (b ++ rest)) :: after) ↔
          ("if".toList ∈ Text.words rest →
            (BeginsLikeCondition a ↔ BeginsLikeCondition b))) ∧
      (∀ before after, CommentRules.hash.regionAfter .code before = .code →
        ("if".toList ∈ Text.words (stripped rest) →
          (BeginsLikeCondition a ↔ BeginsLikeCondition b)) →
        complexities (extract (before ++ (indent ++ (a ++ rest)) :: after)) =
          complexities (extract (before ++ (indent ++ (b ++ rest)) :: after))) := by
  refine ⟨branchesOf_eq_branchesByWords_iff code, fun {a b indent rest} ha hb hline => ⟨?_, ?_⟩⟩
  · intro before after
    rw [← ha.branchesOf_eq_iff hb hline, branchCount_append, branchCount_append, branchCount_cons,
      branchCount_cons]
    omega
  · exact fun before after hbefore h => complexities_extract_of_name ha hb hline h hbefore after

end File

theorem isName_value : IsName "value".toList := ⟨by decide, by decide, by decide⟩

theorem isName_iffy : IsName "iffy".toList := ⟨by decide, by decide, by decide⟩

theorem beginsWith_conditional : BeginsWith "    ".toList " = 1 if x else 2".toList :=
  ⟨by decide, by decide⟩

/-- A file of one function, whose only line assigns a conditional expression to the name. -/
def assignment (name : List Char) : List Line :=
  ["def f(x):".toList] ++ ("    ".toList ++ (name ++ " = 1 if x else 2".toList)) :: []

/-- Two names that do not begin like a condition. -/
theorem branches_by_words_otherName :
    branchesOf "for x in y if z".toList = branchesByWords "for x in y if z".toList ∧
      branchCount (assignment "value".toList) = branchCount (assignment "other".toList) ∧
        complexities (extract (assignment "value".toList)) =
          complexities (extract (assignment "other".toList)) := by
  have hother : IsName "other".toList := ⟨by decide, by decide, by decide⟩
  have hboth : BeginsLikeCondition "value".toList ↔ BeginsLikeCondition "other".toList := by decide
  obtain ⟨hlaw, hnames⟩ := branches_by_words "for x in y if z".toList
  obtain ⟨hcount, hfile⟩ := hnames isName_value hother beginsWith_conditional
  exact ⟨hlaw.mpr (by decide), (hcount _ _).mpr fun _ => hboth,
    hfile _ _ (by decide) fun _ => hboth⟩

/-- A name that begins like a condition hides the one behind it. -/
theorem not_forall_branches_by_words :
    (¬ ∀ code, branchesOf code = branchesByWords code) ∧
      ¬ ∀ {a b indent rest : List Char}, IsName a → IsName b → BeginsWith indent rest →
        ∀ before after, branchCount (before ++ (indent ++ (a ++ rest)) :: after) =
          branchCount (before ++ (indent ++ (b ++ rest)) :: after) := by
  constructor
  · intro h
    have hhides : HidesCondition "iffy = 1 if x else 2".toList := by decide
    exact (branchesOf_eq_branchesByWords_iff _).mp (h _) hhides
  · intro h
    have hline := h isName_value isName_iffy beginsWith_conditional [] []
    rw [List.nil_append, List.nil_append, branchCount_cons, branchCount_cons,
      Nat.add_right_cancel_iff, isName_value.branchesOf_eq_iff isName_iffy beginsWith_conditional]
      at hline
    exact absurd (hline (by decide)) (by decide)

end SourceSurvey.Extract.Python
