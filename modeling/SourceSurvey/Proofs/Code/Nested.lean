import SourceSurvey.Proofs.Code.Quoting

/-!
# Nested texts

The texts that may stand between the commas of a list: characters that open and close nothing, groups
in brackets, generic groups, arrows and literals. Over such a text the scanners of brackets and quotes
come back to the depth that they began with. Main statement: a list of nested texts, joined by commas
with any blanks around them, is cut into exactly these texts.
-/

namespace SourceSurvey

open BodyPart Nesting

/-! ## The grammar -/

/-- Texts of characters that open and close nothing, groups in brackets, generic groups directly
behind a word character, arrows, and literals that do not end in an escaped backslash. Outside groups
only the characters of a class stand for themselves. -/
inductive IsNested (allowed : Char → Bool) : Bool → List Char → Prop where
  | nil {inGroup : Bool} : IsNested allowed inGroup []
  | char {inGroup : Bool} {c : Char} {rest : List Char} (hflat : isFlat c = true)
      (hc : inGroup = true ∨ allowed c = true) (hrest : IsNested allowed inGroup rest) :
      IsNested allowed inGroup (c :: rest)
  | group {inGroup : Bool} (b : Bracket) {inner rest : List Char}
      (hinner : IsNested allowed true inner) (hrest : IsNested allowed inGroup rest) :
      IsNested allowed inGroup (b.opener :: (inner ++ b.closer :: rest))
  | generic {inGroup : Bool} {c : Char} {inner rest : List Char} (hc : Text.isWord c = true)
      (hinner : IsNested allowed true inner)
      (hlast : ∀ d, inner.getLast? = some d → d ≠ '=' ∧ d ≠ '-')
      (hrest : IsNested allowed inGroup rest) :
      IsNested allowed inGroup (c :: '<' :: (inner ++ '>' :: rest))
  | arrow {inGroup : Bool} {rest : List Char} (hrest : IsNested allowed inGroup rest) :
      IsNested allowed inGroup ('=' :: '>' :: rest)
  | literal {inGroup : Bool} {q : Char} (hq : isQuote q = true) (body : List (BodyPart q))
      (hbody : ¬ EndsEscaped body) {rest : List Char} (hrest : IsNested allowed inGroup rest) :
      IsNested allowed inGroup (q :: (writtenBody body ++ q :: rest))

/-- A character is flat if it belongs to a class without those that are not flat. -/
theorem isFlat_of_class {p : Char → Bool} {c : Char} (hc : p c = true)
    (hp : "\"'\x60()[]\x7b\x7d<>".toList.all (fun d => !p d) = true) : isFlat c = true := by
  by_contra hflat
  have hmem : c ∈ "\"'\x60()[]\x7b\x7d<>".toList := by
    simp [isFlat] at hflat ⊢
    tauto
  have hoff : p c = false := by simpa using List.all_eq_true.mp hp c hmem
  exact Text.ne_of_class hc hoff rfl

theorem isFlat_of_isWord {c : Char} (h : Text.isWord c = true) : isFlat c = true :=
  isFlat_of_class h (by decide)

theorem isFlat_of_isSpace {c : Char} (h : Text.isSpace c = true) : isFlat c = true :=
  isFlat_of_class h (by decide)

theorem isQuote_of_isFlat {c : Char} (h : isFlat c = true) : isQuote c = false := by
  simp [isFlat] at h
  simp [isQuote, h]

namespace IsNested

variable {allowed : Char → Bool} {inGroup : Bool} {text more : List Char}

/-- Two nested texts in a row are one. -/
theorem append (h : IsNested allowed inGroup text) (hmore : IsNested allowed inGroup more) :
    IsNested allowed inGroup (text ++ more) := by
  induction h with
  | nil => exact hmore
  | char hflat hc _ ih => exact .char hflat hc (ih hmore)
  | group b hinner _ _ ih =>
    rw [List.cons_append, List.append_assoc, List.cons_append]
    exact .group b hinner (ih hmore)
  | generic hc hinner hlast _ _ ih =>
    rw [List.cons_append, List.cons_append, List.append_assoc, List.cons_append]
    exact .generic hc hinner hlast (ih hmore)
  | arrow _ ih => exact .arrow (ih hmore)
  | literal hq body hbody _ ih =>
    rw [List.cons_append, List.append_assoc, List.cons_append]
    exact .literal hq body hbody (ih hmore)

/-- What is nested is so with more characters allowed. -/
theorem imp {allowed' : Char → Bool} (h : IsNested allowed inGroup text)
    (hallowed : ∀ c, allowed c = true → allowed' c = true) : IsNested allowed' inGroup text := by
  induction h with
  | nil => exact .nil
  | char hflat hc _ ih => exact .char hflat (hc.imp id (hallowed _)) ih
  | group b _ _ ihinner ih => exact .group b ihinner ih
  | generic hc _ hlast _ ihinner ih => exact .generic hc ihinner hlast ih
  | arrow _ ih => exact .arrow ih
  | literal hq body hbody _ ih => exact .literal hq body hbody ih

/-- Flat characters of the class are a nested text. -/
theorem of_isFlat (h : ∀ c ∈ text, isFlat c = true ∧ allowed c = true) :
    IsNested allowed inGroup text := by
  induction text with
  | nil => exact .nil
  | cons c cs ih =>
    obtain ⟨hflat, hc⟩ := h c List.mem_cons_self
    exact .char hflat (.inr hc) (ih fun d hd => h d (List.mem_cons_of_mem c hd))

end IsNested

/-! ## The depth behind a part -/

namespace Nesting

variable {s : Nesting} {depth : Int} {target opener closer : Char} {inner : List Char}

/-- Surroundings outside quotes are their depth and the character before. -/
theorem StandsAt.eq_mk (h : s.StandsAt depth) : s = ⟨depth, none, s.prev⟩ := by
  rw [← h.1, ← h.2]

/-- An angle bracket behind a word character leads one level deeper. -/
theorem StandsAt.step_angle (h : s.StandsAt depth) (hprev : s.prev.any Text.isWord = true) :
    (s.step '<').StandsAt (depth + 1) := by
  rw [step, h.1]
  simp [isQuote, depthChange, hprev, StandsAt, h.2]

/-- An angle bracket that ends no arrow leads one level back. -/
theorem StandsAt.step_closingAngle (h : s.StandsAt (depth + 1)) (hdepth : 0 ≤ depth)
    (hprev : s.prev.any (fun p => p != '=' && p != '-') = true) :
    (s.step '>').StandsAt depth := by
  have hchange : s.depthChange '>' = -1 := by
    have hpos : 0 < s.depth := by
      rw [h.2]
      omega
    simp [depthChange, hprev, hpos]
  rw [step, h.1]
  simp only [isQuote, hchange, h.2, StandsAt]
  exact ⟨rfl, Int.add_sub_cancel depth 1⟩

/-- The second sign of an arrow closes nothing. -/
theorem StandsAt.run_arrow (h : s.StandsAt depth) : (s.run ['=', '>']).StandsAt depth := by
  have hequals : (s.step '=').StandsAt depth := h.step_of_isFlat (by decide)
  show ((s.step '=').step '>').StandsAt depth
  rw [step, hequals.1]
  simp [isQuote, depthChange, prev_step, StandsAt, hequals.2]

/-- A literal that does not end escaped leaves the depth as it is. -/
theorem StandsAt.run_written {q : Char} (h : s.StandsAt depth) (hq : isQuote q = true)
    {body : List (BodyPart q)} (hbody : ¬ EndsEscaped body) :
    (s.run (q :: (writtenBody body ++ [q]))).StandsAt depth := by
  rw [h.eq_mk, (LinePart.run_literal_part hq body depth s.prev).2.1 hbody]
  exact ⟨rfl, rfl⟩

/-- A group is read as its opener, what is in it and its closer. -/
theorem run_enclosed : s.run (opener :: (inner ++ [closer])) =
    ((s.step opener).run inner).step closer :=
  run_append (s.step opener) inner [closer]

/-- Between an opener and its closer no place is outside brackets. -/
theorem avoids_enclosed (havoids : Avoids target (s.step opener) inner)
    (hstands : ((s.step opener).run inner).StandsAt (depth + 1)) (hdepth : 0 ≤ depth)
    (hne : opener ≠ target) : Avoids target s (opener :: (inner ++ [closer])) := by
  have hclosing : ((s.step opener).run inner).isTop = true → closer ≠ target := fun htop => by
    rw [hstands.isTop_eq_false (by omega)] at htop
    cases htop
  exact ⟨fun _ => hne, avoids_append havoids ⟨hclosing, trivial⟩⟩

/-- Within a literal no target stands openly. -/
theorem avoids_of_quoted {text : List Char} (h : Quoted s text)
    (htarget : isQuote target = false) : Avoids target s text := by
  induction text generalizing s with
  | nil => trivial
  | cons c cs ih =>
    refine ⟨fun htop => ?_, ih h.2⟩
    rintro rfl
    have hplace := isTop_and_not_isQuote h.1
    rw [htop, htarget] at hplace
    cases hplace

end Nesting

theorem enclosed_eq_append (opener closer : Char) (inner rest : List Char) :
    opener :: (inner ++ closer :: rest) = opener :: (inner ++ [closer]) ++ rest := by
  simp

namespace IsNested

variable {allowed : Char → Bool} {inGroup : Bool} {text : List Char} {s : Nesting} {depth : Int}

/-- Behind the content of a generic group its closing sign counts. -/
theorem prev_run_content {inner : List Char}
    (hlast : ∀ d, inner.getLast? = some d → d ≠ '=' ∧ d ≠ '-') (hs : s.prev = some '<') :
    (s.run inner).prev.any (fun p => p != '=' && p != '-') = true := by
  rw [prev_run, hs]
  cases hend : inner.getLast? with
  | none => rfl
  | some d => simpa using hlast d hend

/-- An angle bracket behind a written word character opens a generic group. -/
theorem standsAt_step_angle {c : Char} (hc : Text.isWord c = true) (hs : s.StandsAt depth) :
    ((s.step c).step '<').StandsAt (depth + 1) :=
  (hs.step_of_isFlat (isFlat_of_isWord hc)).step_angle (by rw [prev_step]; exact hc)

/-- Over a nested text the depth comes back. -/
theorem run_standsAt (h : IsNested allowed inGroup text) (hs : s.StandsAt depth)
    (hdepth : 0 ≤ depth) : (s.run text).StandsAt depth := by
  induction h generalizing s depth with
  | nil => exact hs
  | char hflat _ _ ih => exact ih (hs.step_of_isFlat hflat) hdepth
  | group b _ _ ihinner ih =>
    rw [enclosed_eq_append, run_append, run_enclosed]
    have hclosed := (ihinner (hs.step_opener b) (by omega)).step_closer b
    rw [Int.add_sub_cancel] at hclosed
    exact ih hclosed hdepth
  | @generic _ c inner rest hc _ hlast _ ihinner ih =>
    have hinside := ihinner (standsAt_step_angle hc hs) (by omega)
    have hclosed := hinside.step_closingAngle hdepth (prev_run_content hlast (prev_step _ _))
    show ((s.step c).run ('<' :: (inner ++ '>' :: rest))).StandsAt depth
    rw [enclosed_eq_append, run_append, run_enclosed]
    exact ih hclosed hdepth
  | arrow _ ih => exact ih hs.run_arrow hdepth
  | literal hq body hbody _ ih =>
    rw [enclosed_eq_append, run_append]
    exact ih (hs.run_written hq hbody) hdepth

/-- Between the brackets of a group the depth is one more, and behind them it comes back. -/
theorem run_group {inner : List Char} (h : IsNested allowed true inner) (b : Bracket)
    (hs : s.StandsAt depth) (hdepth : 0 ≤ depth) :
    ((s.step b.opener).run inner).StandsAt (depth + 1) ∧
      (s.run (b.opener :: (inner ++ [b.closer]))).StandsAt depth := by
  have hinside := h.run_standsAt (hs.step_opener b) (by omega)
  have hclosed := hinside.step_closer b
  rw [Int.add_sub_cancel] at hclosed
  exact ⟨hinside, by rwa [run_enclosed]⟩

/-- So it is with the angle brackets of a generic group. -/
theorem run_generic {c : Char} {inner : List Char} (h : IsNested allowed true inner)
    (hc : Text.isWord c = true) (hlast : ∀ d, inner.getLast? = some d → d ≠ '=' ∧ d ≠ '-')
    (hs : s.StandsAt depth) (hdepth : 0 ≤ depth) :
    (((s.step c).step '<').run inner).StandsAt (depth + 1) ∧
      ((s.step c).run ('<' :: (inner ++ ['>']))).StandsAt depth := by
  have hinside := h.run_standsAt (standsAt_step_angle hc hs) (by omega)
  have hclosed := hinside.step_closingAngle hdepth (prev_run_content hlast (prev_step _ _))
  exact ⟨hinside, by rwa [run_enclosed]⟩

/-- A character that no part of a nested text has outside groups. -/
structure IsApart (allowed : Char → Bool) (target : Char) : Prop where
  flat : isFlat target = true
  noWord : Text.isWord target = false
  noArrow : target ≠ '='
  refused : allowed target = false

/-- A target stands apart where it counts, in a group because nothing counts there. -/
theorem isApart_of_isTop {target : Char} (htarget : 0 < depth ∨ IsApart allowed target)
    (hs : s.StandsAt depth) (htop : s.isTop = true) : IsApart allowed target := by
  refine htarget.resolve_left fun hpos => ?_
  rw [hs.isTop_eq_false (by omega)] at htop
  cases htop

/-- Outside groups only what is allowed stands for itself. -/
theorem ne_of_isTop {c target : Char} (hc : inGroup = true ∨ allowed c = true)
    (hgroup : inGroup = true → 0 < depth) (hs : s.StandsAt depth) (htop : s.isTop = true)
    (htarget : allowed target = false) : c ≠ target := by
  rcases hc with hin | hallowed
  · have hpos := hgroup hin
    rw [hs.isTop_eq_false (by omega)] at htop
    cases htop
  · exact Text.ne_of_class hallowed htarget

/-- In a group any character is passed over, and outside groups one that no part has there. -/
theorem avoids (h : IsNested allowed inGroup text) {target : Char} (hflat : isFlat target = true)
    (hs : s.StandsAt depth) (hdepth : 0 ≤ depth) (hgroup : inGroup = true → 0 < depth)
    (htarget : 0 < depth ∨ IsApart allowed target) : Avoids target s text := by
  have hbracket : ∀ {c : Char}, isFlat c = false → c ≠ target := fun hc =>
    (Text.ne_of_class hflat hc).symm
  -- a group leads one level deeper, where any character may stand, and back
  induction h generalizing s depth with
  | nil => trivial
  | char hchar hc _ ih =>
    refine ⟨fun htop => ?_, ih (hs.step_of_isFlat hchar) hdepth hgroup htarget⟩
    exact ne_of_isTop hc hgroup hs htop (isApart_of_isTop htarget hs htop).refused
  | group b hinner _ ihinner ih =>
    obtain ⟨hinside, hclosed⟩ := hinner.run_group b hs hdepth
    have hin := ihinner (hs.step_opener b) (by omega) (fun _ => by omega) (.inl (by omega))
    rw [enclosed_eq_append]
    refine avoids_append (avoids_enclosed hin hinside hdepth (hbracket ?_))
      (ih hclosed hdepth hgroup htarget)
    cases b <;> decide
  | @generic _ c inner rest hc hinner hlast _ ihinner ih =>
    obtain ⟨hinside, hclosed⟩ := hinner.run_generic hc hlast hs hdepth
    have hin := ihinner (standsAt_step_angle hc hs) (by omega) (fun _ => by omega) (.inl (by omega))
    refine ⟨fun htop => ?_, ?_⟩
    · exact Text.ne_of_class hc (isApart_of_isTop htarget hs htop).noWord
    · rw [enclosed_eq_append]
      exact avoids_append (avoids_enclosed hin hinside hdepth (hbracket (by decide)))
        (ih hclosed hdepth hgroup htarget)
  | arrow _ ih =>
    have hequals : (s.step '=').StandsAt depth := hs.step_of_isFlat (by decide)
    refine ⟨fun htop => ?_, fun _ => hbracket (by decide), ih hs.run_arrow hdepth hgroup htarget⟩
    exact (isApart_of_isTop htarget hs htop).noArrow.symm
  | literal hq body hbody _ ih =>
    have hquoted := (LinePart.run_literal_part hq body depth s.prev).1
    rw [← hs.eq_mk] at hquoted
    rw [enclosed_eq_append]
    exact avoids_append (avoids_of_quoted hquoted (isQuote_of_isFlat hflat))
      (ih (hs.run_written hq hbody) hdepth hgroup htarget)

end IsNested

/-! ## Lists -/

/-- The comma would begin a new part. -/
def isNoComma (c : Char) : Bool := c != ','

/-- A part of a list: wherever it begins outside groups, it has no comma outside groups and ends
outside them. -/
def IsListPart (text : List Char) : Prop :=
  ∀ s : Nesting, s.StandsAt 0 → Avoids ',' s text ∧ (s.run text).StandsAt 0

/-- A nested text without open commas is a part of a list. -/
theorem IsNested.isListPart {text : List Char} (h : IsNested isNoComma false text) :
    IsListPart text := fun _ hs =>
  ⟨h.avoids (by decide) hs (Int.le_refl 0) (fun h => nomatch h)
    (.inr ⟨by decide, by decide, by decide, by decide⟩), h.run_standsAt hs (Int.le_refl 0)⟩

/-- Two parts of a list with no comma between them are one. -/
theorem IsListPart.append {text more : List Char} (h : IsListPart text)
    (hmore : IsListPart more) : IsListPart (text ++ more) := by
  intro s hs
  obtain ⟨havoids, hrun⟩ := h s hs
  obtain ⟨havoids', hrun'⟩ := hmore (s.run text) hrun
  exact ⟨avoids_append havoids havoids', by rwa [run_append]⟩

/-- Parts with commas between them are the pieces that they are cut into. -/
theorem topLevelPieces_intercalate {cell : List Char} {cells : List (List Char)}
    (h : ∀ c ∈ cell :: cells, IsListPart c) {s : Nesting} (hs : s.StandsAt 0) :
    topLevelPieces ',' s ([','].intercalate (cell :: cells)) = cell :: cells := by
  obtain ⟨havoids, hrun⟩ := h cell List.mem_cons_self s hs
  induction cells generalizing cell s with
  | nil =>
    rw [List.intercalate_singleton]
    exact topLevelPieces_of_avoids havoids
  | cons next cells ih =>
    have hrest : ∀ c ∈ next :: cells, IsListPart c := fun c hc =>
      h c (List.mem_cons_of_mem cell hc)
    have hnext : Nesting.StandsAt { s.run cell with prev := some ',' } 0 := hrun
    obtain ⟨havoids', hrun'⟩ := hrest next List.mem_cons_self _ hnext
    rw [List.intercalate_cons_cons, List.append_assoc, List.singleton_append,
      topLevelPieces_append_separator havoids hrun.isTop rfl, ih hrest hnext havoids' hrun']

/-- Parts joined by commas split into themselves, trimmed and without the empty ones. -/
theorem topLevelParts_intercalate {cells : List (List Char)} (h : ∀ cell ∈ cells, IsListPart cell) :
    topLevelParts ',' ([','].intercalate cells) =
      (cells.map Text.trim).filter (!·.isEmpty) := by
  cases cells with
  | nil => rfl
  | cons cell cells => rw [topLevelParts, topLevelPieces_intercalate h standsAt_start]

/-- White space of any kind, perhaps none. -/
structure WhiteSpace where
  text : List Char
  isSpace : ∀ c ∈ text, Text.isSpace c = true

/-- A part of a list with the white space around it. -/
structure Cell (α : Type) where
  before : WhiteSpace
  part : α
  after : WhiteSpace

/-- The text of a cell whose part is written in a certain way. -/
def Cell.text {α : Type} (write : α → List Char) (cell : Cell α) : List Char :=
  cell.before.text ++ (write cell.part ++ cell.after.text)

/-- Cells joined by commas. Behind a trailing comma there is nothing but white space. -/
def joinCells {α : Type} (write : α → List Char) (cells : List (Cell α))
    (trailing : Option WhiteSpace) : List Char :=
  [','].intercalate (cells.map (Cell.text write) ++ trailing.toList.map WhiteSpace.text)

/-- White space is a nested text of every class that has it. -/
theorem WhiteSpace.isNested (space : WhiteSpace) {allowed : Char → Bool}
    (h : ∀ c, Text.isSpace c = true → allowed c = true) : IsNested allowed false space.text :=
  .of_isFlat fun c hc => ⟨isFlat_of_isSpace (space.isSpace c hc), h c (space.isSpace c hc)⟩

theorem isNoComma_of_isSpace {c : Char} (h : Text.isSpace c = true) : isNoComma c = true := by
  have hne : c ≠ ',' := Text.ne_of_class h (by decide)
  simpa [isNoComma] using hne

/-- A list of nested parts is nested, but for its commas. -/
theorem isNested_joinCells {α : Type} {write : α → List Char} {cells : List (Cell α)}
    {allowed : Char → Bool} (h : ∀ cell ∈ cells, IsNested allowed false (write cell.part))
    (trailing : Option WhiteSpace) :
    IsNested (fun _ => true) false (joinCells write cells trailing) := by
  have hall : ∀ text ∈ cells.map (Cell.text write) ++ trailing.toList.map WhiteSpace.text,
      IsNested (fun _ => true) false text := by
    intro text htext
    rcases List.mem_append.mp htext with htext | htext
    · obtain ⟨cell, hcell, rfl⟩ := List.mem_map.mp htext
      exact (cell.before.isNested fun _ _ => rfl).append
        (((h cell hcell).imp fun _ _ => rfl).append (cell.after.isNested fun _ _ => rfl))
    · obtain ⟨space, -, rfl⟩ := List.mem_map.mp htext
      exact space.isNested fun _ _ => rfl
  unfold joinCells
  generalize cells.map (Cell.text write) ++ trailing.toList.map WhiteSpace.text = texts at hall ⊢
  induction texts with
  | nil => exact .nil
  | cons text texts ih =>
    have hrest := ih fun t ht => hall t (List.mem_cons_of_mem text ht)
    cases texts with
    | nil => exact List.intercalate_singleton ▸ hall text List.mem_cons_self
    | cons next texts =>
      rw [List.intercalate_cons_cons, List.append_assoc]
      exact (hall text List.mem_cons_self).append (.char (by decide) (.inr rfl) hrest)

/-- A list of parts is cut into them, in order, whatever white space stands around the commas. -/
theorem topLevelParts_joinCells {α : Type} {write : α → List Char}
    (htight : ∀ a, Text.Tight (write a)) (hpart : ∀ a, IsListPart (write a))
    (cells : List (Cell α)) (trailing : Option WhiteSpace) :
    topLevelParts ',' (joinCells write cells trailing) = cells.map fun cell => write cell.part := by
  have hspace : ∀ space : WhiteSpace, IsListPart space.text := fun space =>
    (space.isNested fun _ => isNoComma_of_isSpace).isListPart
  have hall : ∀ text ∈ cells.map (Cell.text write) ++ trailing.toList.map WhiteSpace.text,
      IsListPart text := by
    intro text htext
    rcases List.mem_append.mp htext with htext | htext
    · obtain ⟨cell, -, rfl⟩ := List.mem_map.mp htext
      exact (hspace cell.before).append ((hpart cell.part).append (hspace cell.after))
    · obtain ⟨space, -, rfl⟩ := List.mem_map.mp htext
      exact hspace space
  have htrim : ∀ cell : Cell α, Text.trim (cell.text write) = write cell.part := fun cell =>
    (htight cell.part).trim_eq cell.before.isSpace cell.after.isSpace
  have hcells : ((cells.map (Cell.text write)).map Text.trim).filter (!·.isEmpty) =
      cells.map fun cell => write cell.part := by
    rw [List.map_map, List.filter_eq_self.mpr]
    · exact List.map_congr_left fun cell _ => htrim cell
    · intro part hpart
      obtain ⟨cell, -, rfl⟩ := List.mem_map.mp hpart
      have hne := (htight cell.part).ne_nil
      simpa [htrim cell] using hne
  -- a trailing comma has only white space behind it, which is no part
  have hnone : ((trailing.toList.map WhiteSpace.text).map Text.trim).filter (!·.isEmpty) = [] := by
    cases trailing with
    | none => rfl
    | some space =>
      show ([Text.trim space.text]).filter (!·.isEmpty) = []
      rw [Text.trim_eq_nil space.isSpace]
      rfl
  rw [joinCells, topLevelParts_intercalate hall, List.map_append, List.filter_append, hcells, hnone,
    List.append_nil]

/-- A nested text with no blanks around it. -/
structure NestedText (allowed : Char → Bool) where
  text : List Char
  tight : Text.Tight text
  isNested : IsNested allowed false text

/-- Cutting a list at its commas undoes joining its parts. -/
theorem topLevelParts_join_nestedTexts (cells : List (Cell (NestedText isNoComma)))
    (trailing : Option WhiteSpace) :
    topLevelParts ',' (joinCells NestedText.text cells trailing) =
      cells.map fun cell => cell.part.text :=
  topLevelParts_joinCells NestedText.tight (fun text => text.isNested.isListPart) cells trailing

/-! ## Names, types and defaults -/

namespace Nesting

variable {s : Nesting} {depth : Int} {target : Char} {text more : List Char}

/-- The search for a target goes on behind the text, whatever follows. -/
def PassesOver (target : Char) (s : Nesting) (text : List Char) : Prop :=
  ∀ more, topLevelPositionFrom target s (text ++ more) =
    (topLevelPositionFrom target (s.run text) more).map (· + text.length)

/-- The search for a target passes over a text that avoids it. -/
theorem Avoids.passesOver (h : Avoids target s text) : PassesOver target s text :=
  fun more => topLevelPositionFrom_append h more

/-- The search passes over two texts if it passes over each in turn. -/
theorem PassesOver.append (h : PassesOver target s text)
    (hmore : PassesOver target (s.run text) more) : PassesOver target s (text ++ more) := by
  intro rest
  rw [List.append_assoc, h, hmore, Option.map_map, ← run_append, List.length_append]
  refine congrArg (Option.map · _) (funext fun n => ?_)
  simp only [Function.comp]
  omega

/-- The sign before the tip of an arrow assigns nothing. -/
theorem passesOver_arrow (s : Nesting) : PassesOver '=' s ['=', '>'] := by
  intro more
  have hfirst : ¬ (s.isPlainTop '=' && '=' == '=' &&
      !('=' == '=' && isOperatorPart s ('>' :: more))) = true := by
    simp [isOperatorPart]
  have hsecond : ¬ ((s.step '=').isPlainTop '>' && '>' == '=' &&
      !('=' == '=' && isOperatorPart (s.step '=') more)) = true := by
    simp
  show topLevelPositionFrom '=' s ('=' :: '>' :: more) = _
  rw [topLevelPositionFrom, if_neg hfirst, topLevelPositionFrom, if_neg hsecond, Option.map_map]
  rfl

/-- A text that the search passes over holds no target. -/
theorem PassesOver.eq_none (h : PassesOver target s text) :
    topLevelPositionFrom target s text = none := by
  have hnone := h []
  rwa [List.append_nil] at hnone

end Nesting

/-- No equals sign outside groups and literals but those of arrows. -/
def isNoAssignment (c : Char) : Bool := c != ',' && c != '='

/-- No colon in addition. -/
def isNamePart (c : Char) : Bool := isNoAssignment c && c != ':'

namespace IsNested

variable {allowed : Char → Bool} {inGroup : Bool} {text : List Char} {s : Nesting} {depth : Int}

/-- The search for an assignment goes on behind a nested text without one. -/
theorem passesOver_equals (h : IsNested allowed inGroup text) (hallowed : allowed '=' = false)
    (hs : s.StandsAt depth) (hdepth : 0 ≤ depth) (hgroup : inGroup = true → 0 < depth) :
    PassesOver '=' s text := by
  -- the only equals signs outside groups are those of arrows
  induction h generalizing s depth with
  | nil => exact Avoids.passesOver trivial
  | @char _ c rest hflat hc _ ih =>
    have hfirst : PassesOver '=' s [c] :=
      Avoids.passesOver ⟨fun htop => ne_of_isTop hc hgroup hs htop hallowed, trivial⟩
    exact hfirst.append (ih (hs.step_of_isFlat hflat) hdepth hgroup)
  | group b hinner _ _ ih =>
    obtain ⟨hinside, hclosed⟩ := hinner.run_group b hs hdepth
    have hin : Avoids '=' (s.step b.opener) _ := hinner.avoids (by decide) (hs.step_opener b)
      (by omega) (fun _ => by omega) (.inl (by omega))
    rw [enclosed_eq_append]
    refine (avoids_enclosed hin hinside hdepth ?_).passesOver.append (ih hclosed hdepth hgroup)
    cases b <;> decide
  | @generic _ c inner rest hc hinner hlast _ _ ih =>
    obtain ⟨hinside, hclosed⟩ := hinner.run_generic hc hlast hs hdepth
    have hin : Avoids '=' ((s.step c).step '<') inner := hinner.avoids (by decide)
      (standsAt_step_angle hc hs) (by omega) (fun _ => by omega) (.inl (by omega))
    have hfirst : PassesOver '=' s [c] :=
      Avoids.passesOver ⟨fun _ => Text.ne_of_class hc (by decide), trivial⟩
    show PassesOver '=' s ([c] ++ '<' :: (inner ++ '>' :: rest))
    refine hfirst.append ?_
    rw [enclosed_eq_append]
    exact (avoids_enclosed hin hinside hdepth (by decide)).passesOver.append
      (ih hclosed hdepth hgroup)
  | arrow _ ih => exact (passesOver_arrow s).append (ih hs.run_arrow hdepth hgroup)
  | literal hq body hbody _ ih =>
    have hquoted := (LinePart.run_literal_part hq body depth s.prev).1
    rw [← hs.eq_mk] at hquoted
    rw [enclosed_eq_append]
    exact (avoids_of_quoted hquoted (by decide)).passesOver.append
      (ih (hs.run_written hq hbody) hdepth hgroup)

/-- No name has a colon. -/
theorem avoids_colon (h : IsNested isNamePart false text) (hs : s.StandsAt 0) :
    Avoids ':' s text :=
  h.avoids (by decide) hs (Int.le_refl 0) (fun h => nomatch h)
    (.inr ⟨by decide, by decide, by decide, by decide⟩)

/-- Without a default there is no assignment. -/
theorem topLevelPosition?_equals (h : IsNested allowed false text)
    (hallowed : allowed '=' = false) : topLevelPosition? '=' text = none :=
  (h.passesOver_equals hallowed standsAt_start (Int.le_refl 0) fun h => nomatch h).eq_none

/-- The assignment of a default is found before it, whatever the default is. -/
theorem topLevelPosition?_default (h : IsNested allowed false text)
    (hallowed : allowed '=' = false) (default : List Char) :
    topLevelPosition? '=' ((text ++ [' ']) ++ '=' :: ' ' :: default) =
      some (text ++ [' ']).length := by
  have hpasses := h.passesOver_equals hallowed standsAt_start (Int.le_refl 0) fun h => nomatch h
  have hrun := h.run_standsAt standsAt_start (Int.le_refl 0)
  have hblank : Avoids '=' (start.run text) [' '] := ⟨fun _ => by decide, trivial⟩
  have hstands : (start.run (text ++ [' '])).StandsAt 0 := by
    rw [run_append]
    exact hrun.step_of_isFlat (by decide)
  have hplace : isOperatorPart (start.run (text ++ [' '])) (' ' :: default) = false := by
    simp [isOperatorPart, prev_run_concat]
  -- the sign stands between blanks, so it is part of no longer operator
  have hnothing : Avoids '=' (start.run (text ++ [' '])) [] := trivial
  have hfound : topLevelPositionFrom '=' (start.run (text ++ [' '])) ('=' :: ' ' :: default) =
      some 0 := topLevelPositionFrom_append_target hnothing hstands (by decide) fun _ => hplace
  rw [topLevelPosition?, (hpasses.append hblank.passesOver), hfound]
  rw [Option.map_some, Nat.zero_add]

/-- A name has no open colon. -/
theorem topLevelPosition?_colon_of_name (h : IsNested isNamePart false text) :
    topLevelPosition? ':' text = none :=
  topLevelPositionFrom_of_avoids (h.avoids_colon standsAt_start)

/-- The first open colon is the one behind the name. -/
theorem topLevelPosition?_colon_of_type (h : IsNested isNamePart false text) (type : List Char) :
    topLevelPosition? ':' (text ++ ':' :: ' ' :: type) = some text.length :=
  topLevelPositionFrom_append_target (h.avoids_colon standsAt_start)
    (h.run_standsAt standsAt_start (Int.le_refl 0)) (by decide) fun h => nomatch h

end IsNested

section Annotation

variable {name : List Char}

/-- A name with its type, as it is written. -/
def typedName (name : List Char) (type : Option (NestedText isNoAssignment)) : List Char :=
  name ++ (type.map fun t => ": ".toList ++ t.text).getD []

/-- A declaration with its default, as it is written. -/
def withDefault (main : List Char) (default : Option (NestedText isNoComma)) : List Char :=
  main ++ (default.map fun d => " = ".toList ++ d.text).getD []

/-- A name with its type is a nested text without open equals signs. -/
theorem isNested_typedName (h : IsNested isNamePart false name)
    (type : Option (NestedText isNoAssignment)) :
    IsNested isNoAssignment false (typedName name type) := by
  have hname : IsNested isNoAssignment false name :=
    h.imp fun c hc => (Bool.and_eq_true _ _ ▸ hc : _ ∧ _).1
  cases type with
  | none => exact hname.append .nil
  | some t =>
    exact hname.append (.char (by decide) (.inr (by decide)) (.char (by decide) (.inr (by decide))
      t.isNested))

/-- A declaration with its default is a nested text without open commas. -/
theorem isNested_withDefault {main : List Char} (h : IsNested isNoComma false main)
    (default : Option (NestedText isNoComma)) :
    IsNested isNoComma false (withDefault main default) := by
  cases default with
  | none => exact h.append .nil
  | some d =>
    exact h.append (.char (by decide) (.inr (by decide)) (.char (by decide) (.inr (by decide))
      (.char (by decide) (.inr (by decide)) d.isNested)))

theorem tight_typedName (h : Text.Tight name) (type : Option (NestedText isNoAssignment)) :
    Text.Tight (typedName name type) := by
  cases type with
  | none =>
    show Text.Tight (name ++ [])
    rwa [List.append_nil]
  | some t =>
    have hcolon : Text.Tight [':'] := Text.Solid.tight (by decide)
    exact h.append (hcolon.append t.tight [' ']) []

theorem tight_withDefault (h : Text.Tight name) (default : Option (NestedText isNoComma)) :
    Text.Tight (withDefault name default) := by
  cases default with
  | none =>
    show Text.Tight (name ++ [])
    rwa [List.append_nil]
  | some d =>
    have hequals : Text.Tight ['='] := Text.Solid.tight (by decide)
    exact h.append (hequals.append d.tight [' ']) [' ']

theorem withDefault_some (main : List Char) (d : NestedText isNoComma) :
    withDefault main (some d) = (main ++ [' ']) ++ '=' :: ' ' :: d.text := by
  simp [withDefault]

/-- The type is read in what stands before the default. -/
theorem typedParts_typedName (htight : Text.Tight name) (hname : IsNested isNamePart false name)
    (type : Option (NestedText isNoAssignment)) (untyped : List Char)
    (default : Option (List Char)) :
    typedParts (typedName name type) untyped default =
      (name, (type.map (·.text)).getD untyped, default) := by
  unfold typedParts
  cases type with
  | none =>
    have heq : typedName name none = name := List.append_nil name
    rw [heq, hname.topLevelPosition?_colon_of_name]
    rfl
  | some t =>
    have heq : typedName name (some t) = name ++ ':' :: ' ' :: t.text := rfl
    have hne : ¬ t.text.isEmpty = true := by simpa using t.tight.ne_nil
    rw [heq, hname.topLevelPosition?_colon_of_type]
    dsimp only
    rw [List.take_left, htight.trim, drop_append_cons, trim_space_cons t.tight, if_neg hne]
    rfl

/-- The pieces of `name: type = default` are read as they were written. -/
theorem annotatedParts_withDefault (htight : Text.Tight name)
    (hname : IsNested isNamePart false name) (type : Option (NestedText isNoAssignment))
    (default : Option (NestedText isNoComma)) (untyped : List Char) :
    annotatedParts (withDefault (typedName name type) default) untyped =
      (name, (type.map (·.text)).getD untyped, default.map (·.text)) := by
  have hwhole := (tight_withDefault (tight_typedName htight type) default).trim
  have hmain := isNested_typedName hname type
  cases default with
  | none =>
    have heq : withDefault (typedName name type) none = typedName name type := List.append_nil _
    have hnone := hmain.topLevelPosition?_equals (by decide)
    rw [heq] at hwhole ⊢
    rw [← hwhole] at hnone
    rw [annotatedParts_of_none hnone, hwhole, typedParts_typedName htight hname]
    rfl
  | some d =>
    have hsome := hmain.topLevelPosition?_default (by decide) d.text
    have htrim : Text.trim (typedName name type ++ [' ']) = typedName name type :=
      (tight_typedName htight type).trim_append Text.isSpace_of_mem_blank
    rw [withDefault_some] at hwhole ⊢
    rw [← hwhole] at hsome
    rw [annotatedParts_of_some hsome, hwhole, List.take_left, drop_append_cons, htrim,
      trim_space_cons d.tight, typedParts_typedName htight hname]
    rfl

end Annotation

end SourceSurvey
