import SourceSurvey.Code.Nesting
import SourceSurvey.Code.Span
import SourceSurvey.Proofs.Code.Header
import SourceSurvey.Proofs.Extract.Literal

/-!
# Expressions

The texts of types and values in a declaration: characters that stand for themselves, literals, and
groups in brackets, which may hold commas. Main statements: over an expression the scanners of
brackets and quotes come back to the depth that they began with, and find nothing outside its groups
and literals that it may not have there.
-/

namespace SourceSurvey

/-! ## The grammar -/

/-- A character that neither opens nor closes anything. -/
def isFlat (c : Char) : Bool :=
  !"\"'\x60()[]\x7b\x7d<>".toList.contains c

/-- A character that stands for itself: it opens and closes nothing, separates nothing, begins no
comment, escapes nothing and ends no line. -/
def isPlain (c : Char) : Bool :=
  isFlat c && !",#\\\n".toList.contains c

/-- The kinds of brackets that enclose a group. -/
inductive Bracket where
  | round | square | curly

def Bracket.opener : Bracket → Char
  | .round => '('
  | .square => '['
  | .curly => '\x7b'

def Bracket.closer : Bracket → Char
  | .round => ')'
  | .square => ']'
  | .curly => '\x7d'

/-- Texts of plain characters of a class, of groups, and of literals with characters of another
class that have no quote directly behind them. Commas stand only in groups. -/
inductive IsExpression (allowed quotable : Char → Bool) : Bool → List Char → Prop where
  | nil {inGroup : Bool} : IsExpression allowed quotable inGroup []
  | char {inGroup : Bool} {c : Char} {rest : List Char} (hplain : isPlain c = true)
      (hc : allowed c = true) (hrest : IsExpression allowed quotable inGroup rest) :
      IsExpression allowed quotable inGroup (c :: rest)
  | comma {rest : List Char} (hrest : IsExpression allowed quotable true rest) :
      IsExpression allowed quotable true (',' :: rest)
  | group {inGroup : Bool} (b : Bracket) {inner rest : List Char}
      (hinner : IsExpression allowed quotable true inner)
      (hrest : IsExpression allowed quotable inGroup rest) :
      IsExpression allowed quotable inGroup (b.opener :: (inner ++ b.closer :: rest))
  | literal {inGroup : Bool} {q : Char} {body rest : List Char}
      (hq : CommentRules.hash.isQuote q = true)
      (hbody : ∀ c ∈ body, (c ≠ q ∧ c ≠ '\\') ∧ quotable c = true) (hnext : BeginsUnquoted rest)
      (hrest : IsExpression allowed quotable inGroup rest) :
      IsExpression allowed quotable inGroup (q :: (body ++ q :: rest))

theorem isFlat_of_isPlain {c : Char} (h : isPlain c = true) : isFlat c = true := by
  rw [isPlain, Bool.and_eq_true] at h
  exact h.1

/-- A character is plain if it belongs to a class without those that are not plain. -/
theorem isPlain_of_class {p : Char → Bool} {c : Char} (hc : p c = true)
    (hp : "\"'\x60()[]\x7b\x7d<>,#\\\n".toList.all (fun d => !p d) = true) : isPlain c = true := by
  by_contra hplain
  have hmem : c ∈ "\"'\x60()[]\x7b\x7d<>,#\\\n".toList := by
    simp [isPlain, isFlat] at hplain ⊢
    tauto
  have hoff : p c = false := by simpa using List.all_eq_true.mp hp c hmem
  exact Text.ne_of_class hc hoff rfl

theorem isBare_of_isPlain {c : Char} (h : isPlain c = true) : isBare c = true := by
  have hne : ∀ d, isPlain d = false → c ≠ d := fun d hd => Text.ne_of_class h hd
  simp [isBare, hne '#' (by decide), hne '"' (by decide), hne '\'' (by decide)]

theorem Bracket.isBare_opener (b : Bracket) : isBare b.opener = true := by
  cases b <;> decide

theorem Bracket.isBare_closer (b : Bracket) : isBare b.closer = true := by
  cases b <;> decide

namespace IsExpression

variable {allowed quotable : Char → Bool} {inGroup : Bool} {text more : List Char}

/-- Two expressions in a row are one, unless the second one begins with a quote. -/
theorem append (h : IsExpression allowed quotable inGroup text)
    (hmore : IsExpression allowed quotable inGroup more) (hnext : BeginsUnquoted more) :
    IsExpression allowed quotable inGroup (text ++ more) := by
  induction h with
  | nil => exact hmore
  | char hplain hc _ ih => exact .char hplain hc (ih hmore)
  | comma _ ih => exact .comma (ih hmore)
  | group b hinner _ _ ih =>
    rw [List.cons_append, List.append_assoc, List.cons_append]
    exact .group b hinner (ih hmore)
  | literal hq hbody hrest _ ih =>
    rw [List.cons_append, List.append_assoc, List.cons_append]
    exact .literal hq hbody (hrest.append hnext) (ih hmore)

/-- What is an expression is one with more characters allowed, and in a group too. -/
theorem imp {allowed' quotable' : Char → Bool} {inGroup' : Bool}
    (h : IsExpression allowed quotable inGroup text)
    (hallowed : ∀ c, allowed c = true → allowed' c = true)
    (hquotable : ∀ c, quotable c = true → quotable' c = true)
    (hgroup : inGroup = true → inGroup' = true) :
    IsExpression allowed' quotable' inGroup' text := by
  induction h generalizing inGroup' with
  | nil => exact .nil
  | char hplain hc _ ih => exact .char hplain (hallowed _ hc) (ih hgroup)
  | comma _ ih =>
    obtain rfl := hgroup rfl
    exact .comma (ih hgroup)
  | group b _ _ ihinner ih => exact .group b (ihinner fun _ => rfl) (ih hgroup)
  | literal hq hbody hnext _ ih =>
    exact .literal hq (fun c hc => ⟨(hbody c hc).1, hquotable c (hbody c hc).2⟩) hnext (ih hgroup)

/-- Plain characters of the class are an expression. -/
theorem of_isPlain (h : ∀ c ∈ text, isPlain c = true ∧ allowed c = true) :
    IsExpression allowed quotable inGroup text := by
  induction text with
  | nil => exact .nil
  | cons c cs ih =>
    obtain ⟨hplain, hc⟩ := h c List.mem_cons_self
    exact .char hplain hc (ih fun d hd => h d (List.mem_cons_of_mem c hd))

/-- In an expression every literal is closed. -/
theorem isClosed (h : IsExpression allowed quotable inGroup text) : IsClosed text := by
  induction h with
  | nil => exact .nil
  | char hplain _ _ ih => exact .char (isBare_of_isPlain hplain) ih
  | comma _ ih => exact .char (by decide) ih
  | group b _ _ ihinner ih =>
    exact .char b.isBare_opener (ihinner.append (.char b.isBare_closer ih)
      (beginsUnquoted_cons b.isBare_closer _))
  | literal hq hbody hnext _ ih => exact .literal hq (fun c hc => (hbody c hc).1) hnext ih

/-- A character that is not plain stands in no expression if it is no comma, quote or bracket and
no literal may have it. -/
theorem not_mem (h : IsExpression allowed quotable inGroup text) {d : Char}
    (hplain : isPlain d = true → allowed d = false) (hquotable : quotable d = false)
    (hquote : CommentRules.hash.isQuote d = false) (hcomma : d ≠ ',')
    (hopener : ∀ b : Bracket, d ≠ b.opener) (hcloser : ∀ b : Bracket, d ≠ b.closer) :
    d ∉ text := by
  induction h with
  | nil => exact List.not_mem_nil
  | char hc hallowed _ ih =>
    rw [List.mem_cons, not_or]
    refine ⟨?_, ih⟩
    rintro rfl
    exact Text.ne_of_class hallowed (hplain hc) rfl
  | comma _ ih =>
    rw [List.mem_cons, not_or]
    exact ⟨hcomma, ih⟩
  | group b _ _ ihinner ih =>
    simp only [List.mem_cons, List.mem_append, not_or]
    exact ⟨hopener b, ihinner, hcloser b, ih⟩
  | @literal _ q _ _ hq hbody _ _ ih =>
    have hne : d ≠ q := (Text.ne_of_class hq hquote).symm
    simp only [List.mem_cons, List.mem_append, not_or]
    exact ⟨hne, Text.not_mem_of_class (fun c hc => (hbody c hc).2) hquotable, hne, ih⟩

end IsExpression

/-! ## Brackets and quotes -/

namespace Nesting

/-- The surroundings after a text. -/
def run (s : Nesting) (text : List Char) : Nesting :=
  text.foldl step s

/-- The target stands nowhere in the text outside brackets and quotes. -/
def Avoids (target : Char) : Nesting → List Char → Prop
  | _, [] => True
  | s, c :: cs => (s.isTop = true → c ≠ target) ∧ Avoids target (s.step c) cs

/-- The surroundings after two texts are those after the second one, from the end of the first. -/
theorem run_append (s : Nesting) (text more : List Char) :
    s.run (text ++ more) = (s.run text).run more :=
  List.foldl_append

/-- A target that stands openly in neither of two texts stands openly nowhere in both. -/
theorem avoids_append {target : Char} {s : Nesting} {text more : List Char}
    (h : Avoids target s text) (hmore : Avoids target (s.run text) more) :
    Avoids target s (text ++ more) := by
  induction text generalizing s with
  | nil => exact hmore
  | cons c cs ih => exact ⟨h.1, ih h.2 hmore⟩

/-- No character of the text is the target. -/
theorem avoids_of_not_mem {target : Char} {text : List Char} (h : target ∉ text) (s : Nesting) :
    Avoids target s text := by
  induction text generalizing s with
  | nil => trivial
  | cons c cs ih =>
    rw [List.mem_cons, not_or] at h
    exact ⟨fun _ => Ne.symm h.1, ih h.2 _⟩

theorem prev_step (s : Nesting) (c : Char) : (s.step c).prev = some c := by
  unfold step
  split
  · rfl
  · split <;> rfl

theorem prev_run_concat (s : Nesting) (text : List Char) (c : Char) :
    (s.run (text ++ [c])).prev = some c := by
  rw [run_append]
  exact prev_step _ c

/-- The surroundings lie outside quotes at a depth. -/
def StandsAt (s : Nesting) (depth : Int) : Prop :=
  s.quote = none ∧ s.depth = depth

/-- A text starts at depth zero outside quotes. -/
theorem standsAt_start : start.StandsAt 0 :=
  ⟨rfl, rfl⟩

theorem StandsAt.isTop {s : Nesting} (h : s.StandsAt 0) : s.isTop = true := by
  simp [Nesting.isTop, h.1, h.2]

theorem StandsAt.isTop_eq_false {s : Nesting} {depth : Int} (h : s.StandsAt depth)
    (hdepth : depth ≠ 0) : s.isTop = false := by
  simp [Nesting.isTop, h.1, h.2, hdepth]

theorem StandsAt.step_of_isFlat {s : Nesting} {depth : Int} (h : s.StandsAt depth) {c : Char}
    (hc : isFlat c = true) : (s.step c).StandsAt depth := by
  simp [isFlat] at hc
  have hquote : isQuote c = false := by simp [isQuote, hc]
  have hchange : s.depthChange c = 0 := by simp [depthChange, hc]
  rw [step, h.1]
  simp [hquote, hchange, StandsAt, h.2]

theorem StandsAt.step_opener {s : Nesting} {depth : Int} (h : s.StandsAt depth) (b : Bracket) :
    (s.step b.opener).StandsAt (depth + 1) := by
  cases b <;> simp [step, h.1, h.2, isQuote, depthChange, Bracket.opener, StandsAt]

theorem StandsAt.step_closer {s : Nesting} {depth : Int} (h : s.StandsAt depth) (b : Bracket) :
    (s.step b.closer).StandsAt (depth - 1) := by
  cases b <;>
    simp [step, h.1, h.2, isQuote, depthChange, Bracket.closer, StandsAt, Int.sub_eq_add_neg]

/-- What quotes in Python quotes here too. -/
theorem isQuote_of_hash {q : Char} (hq : CommentRules.hash.isQuote q = true) :
    isQuote q = true := by
  simp [CommentRules.isQuote, CommentRules.hash] at hq
  simp [isQuote]
  tauto

/-- Up to the quote that closes it a literal leaves the depth. -/
theorem run_body {s : Nesting} {q : Char} (hquote : s.quote = some q) (hprev : s.prev ≠ some '\\')
    {body : List Char} (hbody : ∀ c ∈ body, c ≠ q ∧ c ≠ '\\') (target : Char) :
    (s.run (body ++ [q])).StandsAt s.depth ∧ Avoids target s (body ++ [q]) := by
  have htop : s.isTop = true → ∀ c, c ≠ target := by
    intro htop
    rw [isTop, hquote] at htop
    cases htop
  induction body generalizing s with
  | nil =>
    refine ⟨?_, fun h => htop h q, trivial⟩
    show (s.step q).StandsAt s.depth
    rw [step, hquote]
    simp [StandsAt, hprev]
  | cons c cs ih =>
    obtain ⟨hc, hslash⟩ := hbody c List.mem_cons_self
    have hstep : s.step c = { s with quote := some q, prev := some c } := by
      rw [step, hquote]
      simp [hc]
    obtain ⟨hrun, havoids⟩ := ih (s := s.step c) (by rw [hstep]) (by simpa [hstep] using hslash)
      (fun d hd => hbody d (List.mem_cons_of_mem c hd)) (by simp [hstep, isTop])
    refine ⟨?_, fun h => htop h c, havoids⟩
    have hdepth : (s.step c).depth = s.depth := by rw [hstep]
    rw [hdepth] at hrun
    exact hrun

/-- Over a literal the depth comes back. -/
theorem StandsAt.run_literal {s : Nesting} {depth : Int} (h : s.StandsAt depth) {q : Char}
    (hq : CommentRules.hash.isQuote q = true) {body : List Char}
    (hbody : ∀ c ∈ body, c ≠ q ∧ c ≠ '\\') {target : Char} (htarget : q ≠ target) :
    (s.run (q :: (body ++ [q]))).StandsAt depth ∧ Avoids target s (q :: (body ++ [q])) := by
  have hstep : s.step q = { s with quote := some q, prev := some q } := by
    rw [step, h.1]
    simp [isQuote_of_hash hq]
  have hescape : q ≠ '\\' := Text.ne_of_class hq (by decide)
  -- the opening quote is no backslash, so the first character of the body is not escaped
  obtain ⟨hrun, havoids⟩ := run_body (s := s.step q) (by rw [hstep])
    (by simpa [hstep] using hescape) hbody target
  have hdepth : (s.step q).depth = depth := by rw [hstep, ← h.2]
  rw [hdepth] at hrun
  exact ⟨hrun, fun _ => htarget, havoids⟩

end Nesting

namespace IsExpression

open Nesting

variable {allowed quotable : Char → Bool} {inGroup : Bool} {text : List Char}

theorem literal_eq_append (q : Char) (body rest : List Char) :
    q :: (body ++ q :: rest) = q :: (body ++ [q]) ++ rest := by
  simp

theorem group_eq_append (b : Bracket) (inner rest : List Char) :
    b.opener :: (inner ++ b.closer :: rest) = [b.opener] ++ (inner ++ ([b.closer] ++ rest)) := by
  simp

/-- Over an expression the depth comes back. -/
theorem run_standsAt (h : IsExpression allowed quotable inGroup text) {s : Nesting} {depth : Int}
    (hs : s.StandsAt depth) : (s.run text).StandsAt depth := by
  induction h generalizing s depth with
  | nil => exact hs
  | char hplain _ _ ih => exact ih (hs.step_of_isFlat (isFlat_of_isPlain hplain))
  | comma _ ih => exact ih (hs.step_of_isFlat (by decide))
  | group b _ _ ihinner ih =>
    rw [group_eq_append, run_append, run_append, run_append]
    have hclosed := (ihinner (hs.step_opener b)).step_closer b
    rw [Int.add_sub_cancel] at hclosed
    exact ih hclosed
  | @literal _ q body rest hq hbody _ _ ih =>
    have hne : q ≠ ',' := Text.ne_of_class hq (by decide)
    rw [literal_eq_append, run_append]
    exact ih (hs.run_literal hq (fun c hc => (hbody c hc).1) hne).1

/-- Outside its groups and literals an expression has only the characters that it may have there. -/
theorem avoids (h : IsExpression allowed quotable inGroup text) {target : Char}
    (hplain : isPlain target = true → allowed target = false)
    (hquote : CommentRules.hash.isQuote target = false) (hopener : ∀ b : Bracket, b.opener ≠ target)
    {s : Nesting} {depth : Int} (hs : s.StandsAt depth) (hdepth : 0 ≤ depth)
    (hgroup : inGroup = true → depth ≠ 0) : Avoids target s text := by
  induction h generalizing s depth with
  | nil => trivial
  | @char _ c _ hc hallowed _ ih =>
    refine ⟨?_, ih (hs.step_of_isFlat (isFlat_of_isPlain hc)) hdepth hgroup⟩
    rintro - rfl
    exact Text.ne_of_class hallowed (hplain hc) rfl
  | comma _ ih =>
    refine ⟨fun htop => ?_, ih (hs.step_of_isFlat (by decide)) hdepth hgroup⟩
    rw [hs.isTop_eq_false (hgroup rfl)] at htop
    cases htop
  | group b hinner _ ihinner ih =>
    have hopened := hs.step_opener b
    have hinside := hinner.run_standsAt hopened
    have hclosed := hinside.step_closer b
    rw [Int.add_sub_cancel] at hclosed
    -- the closing bracket itself stands at a depth of at least one
    have htop : ((s.step b.opener).run _).isTop = true → b.closer ≠ target := fun htop => by
      rw [hinside.isTop_eq_false (by omega)] at htop
      cases htop
    exact ⟨fun _ => hopener b, avoids_append
      (ihinner hopened (by omega) (fun _ => by omega)) ⟨htop, ih hclosed hdepth hgroup⟩⟩
  | @literal _ q body rest hq hbody _ _ ih =>
    have hne : q ≠ target := Text.ne_of_class hq hquote
    obtain ⟨hrun, havoids⟩ := hs.run_literal hq (fun c hc => (hbody c hc).1) hne
    rw [literal_eq_append]
    exact avoids_append havoids (ih hrun hdepth hgroup)

end IsExpression

/-! ## Separators outside brackets -/

section TopLevel

open Nesting

variable {separator target : Char} {s : Nesting} {text : List Char}

/-- A character that does not separate belongs to the first piece. -/
theorem topLevelPieces_cons_of_ne {c : Char} {cs piece : List Char} {pieces : List (List Char)}
    (hc : s.isTop = true → c ≠ separator)
    (h : topLevelPieces separator (s.step c) cs = piece :: pieces) :
    topLevelPieces separator s (c :: cs) = (c :: piece) :: pieces := by
  have hnot : ¬ (s.isTop && !isQuote c && c == separator) = true := by
    simp only [Bool.and_eq_true, beq_iff_eq]
    exact fun h => hc h.1.1 h.2
  rw [topLevelPieces, if_neg hnot, h]

/-- Up to its first separator a text is one piece. -/
theorem topLevelPieces_append_separator (h : Avoids separator s text)
    (htop : (s.run text).isTop = true) (hquote : isQuote separator = false) (more : List Char) :
    topLevelPieces separator s (text ++ separator :: more) =
      text :: topLevelPieces separator { s.run text with prev := some separator } more := by
  induction text generalizing s with
  | nil =>
    have hpos : (s.isTop && !isQuote separator && separator == separator) = true := by
      simpa [hquote, run] using htop
    rw [List.nil_append, topLevelPieces, if_pos hpos]
    rfl
  | cons c cs ih =>
    rw [List.cons_append]
    exact topLevelPieces_cons_of_ne h.1 (ih h.2 htop)

/-- A text without separators is one piece. -/
theorem topLevelPieces_of_avoids (h : Avoids separator s text) :
    topLevelPieces separator s text = [text] := by
  induction text generalizing s with
  | nil => rfl
  | cons c cs ih => exact topLevelPieces_cons_of_ne h.1 (ih h.2)

/-- A target that a text avoids is searched for behind the text. -/
theorem topLevelPositionFrom_append (h : Avoids target s text) (more : List Char) :
    topLevelPositionFrom target s (text ++ more) =
      (topLevelPositionFrom target (s.run text) more).map (· + text.length) := by
  induction text generalizing s with
  | nil => simp [run]
  | cons c cs ih =>
    have hnot : ¬ (s.isPlainTop c && c == target &&
        !(target == '=' && isOperatorPart s (cs ++ more))) = true := by
      simp only [isPlainTop, Bool.and_eq_true, beq_iff_eq]
      exact fun hall => h.1 hall.1.1.1.1 hall.1.2
    rw [List.cons_append, topLevelPositionFrom, if_neg hnot, ih h.2, Option.map_map]
    rfl

/-- A target that the text avoids has no position in it. -/
theorem topLevelPositionFrom_of_avoids (h : Avoids target s text) :
    topLevelPositionFrom target s text = none := by
  have hnone := topLevelPositionFrom_append h []
  rwa [List.append_nil] at hnone

/-- The first target outside brackets and quotes is found behind the text before it. -/
theorem topLevelPositionFrom_append_target (h : Avoids target s text)
    (hstands : (s.run text).StandsAt 0) (hflat : isFlat target = true) {more : List Char}
    (hoperator : target = '=' → isOperatorPart (s.run text) more = false) :
    topLevelPositionFrom target s (text ++ target :: more) = some text.length := by
  have hquote : isQuote target = false := by
    simp [isFlat] at hflat
    simp [isQuote, hflat]
  have hchange : (s.run text).depthChange target = 0 := by
    simp [isFlat] at hflat
    simp [depthChange, hflat]
  have hpos : ((s.run text).isPlainTop target && target == target &&
      !(target == '=' && isOperatorPart (s.run text) more)) = true := by
    by_cases heq : target = '='
    · simp [isPlainTop, hstands.isTop, hquote, hchange, hoperator heq]
    · simp [isPlainTop, hstands.isTop, hquote, hchange, heq]
  rw [topLevelPositionFrom_append h, topLevelPositionFrom, if_pos hpos]
  simp

end TopLevel

/-! ## Parentheses -/

section Parentheses

variable {opener closer : Char} {depth : Int} {prev : Option Char}

/-- Within quotes the search for the closing bracket only looks for the closing quote. -/
theorem closingFrom_quoted (q c : Char) (cs : List Char) :
    closingFrom opener closer depth (some q) prev (c :: cs) =
      (closingFrom opener closer depth (if c == q && prev != some '\\' then none else some q)
        (some c) cs).map (· + 1) := rfl

/-- Outside quotes a character opens a literal, counts as a bracket or is passed over. -/
theorem closingFrom_unquoted (c : Char) (cs : List Char) :
    closingFrom opener closer depth none prev (c :: cs) =
      if Nesting.isQuote c then (closingFrom opener closer depth (some c) (some c) cs).map (· + 1)
      else if c == opener then
        (closingFrom opener closer (depth + 1) none (some c) cs).map (· + 1)
      else if c == closer then
        if depth == 1 then some 0
        else (closingFrom opener closer (depth - 1) none (some c) cs).map (· + 1)
      else (closingFrom opener closer depth none (some c) cs).map (· + 1) := rfl

theorem closingFrom_of_ne {c : Char} (hquote : Nesting.isQuote c = false) (hopener : c ≠ '(')
    (hcloser : c ≠ ')') (cs : List Char) :
    closingFrom '(' ')' depth none prev (c :: cs) =
      (closingFrom '(' ')' depth none (some c) cs).map (· + 1) := by
  simp [closingFrom_unquoted, hquote, hopener, hcloser]

/-- The search for the closing bracket passes over a literal without its quote and escapes in it. -/
theorem closingFrom_body {q : Char} (hprev : prev ≠ some '\\') {body : List Char}
    (hbody : ∀ c ∈ body, c ≠ q ∧ c ≠ '\\') (rest : List Char) :
    closingFrom '(' ')' depth (some q) prev (body ++ q :: rest) =
      (closingFrom '(' ')' depth none (some q) rest).map (· + (body.length + 1)) := by
  induction body generalizing prev with
  | nil => simp [closingFrom_quoted, hprev]
  | cons c cs ih =>
    obtain ⟨hc, hslash⟩ := hbody c List.mem_cons_self
    have hprev' : some c ≠ some '\\' := fun h => hslash (Option.some.inj h)
    rw [List.cons_append, closingFrom_quoted, if_neg (by simp [hc]),
      ih hprev' fun d hd => hbody d (List.mem_cons_of_mem c hd), Option.map_map]
    rfl

/-- The search for the closing bracket passes over a flat character. -/
theorem closingFrom_of_isFlat {c : Char} (hc : isFlat c = true) (cs : List Char) :
    closingFrom '(' ')' depth none prev (c :: cs) =
      (closingFrom '(' ')' depth none (some c) cs).map (· + 1) := by
  refine closingFrom_of_ne ?_ (Text.ne_of_class hc (by decide)) (Text.ne_of_class hc (by decide)) cs
  simp [isFlat] at hc
  simp [Nesting.isQuote, hc]

/-- A round group counts one deeper, the others are passed over. -/
theorem Bracket.exists_closingFrom (b : Bracket) (hdepth : 0 < depth) (prev : Option Char) :
    ∃ inside, 0 < inside ∧
      (∀ cs, closingFrom '(' ')' depth none prev (b.opener :: cs) =
        (closingFrom '(' ')' inside none (some b.opener) cs).map (· + 1)) ∧
      ∀ prev cs, closingFrom '(' ')' inside none prev (b.closer :: cs) =
        (closingFrom '(' ')' depth none (some b.closer) cs).map (· + 1) := by
  cases b with
  | round =>
    have hne : ¬ (depth + 1 == 1) = true := by
      rw [beq_iff_eq]
      omega
    refine ⟨depth + 1, by omega, fun cs => rfl, fun prev cs => ?_⟩
    show (if depth + 1 == 1 then some 0
      else (closingFrom '(' ')' (depth + 1 - 1) none (some ')') cs).map (· + 1)) = _
    rw [if_neg hne, Int.add_sub_cancel]
    rfl
  | square => exact ⟨depth, hdepth, fun cs => rfl, fun prev cs => rfl⟩
  | curly => exact ⟨depth, hdepth, fun cs => rfl, fun prev cs => rfl⟩

/-- No parenthesis of an expression closes one that is open before it. -/
theorem IsExpression.closingFrom {allowed quotable : Char → Bool} {inGroup : Bool}
    {text : List Char} (h : IsExpression allowed quotable inGroup text) (hdepth : 0 < depth)
    (prev : Option Char) (rest : List Char) :
    ∃ last, closingFrom '(' ')' depth none prev (text ++ rest) =
      (closingFrom '(' ')' depth none last rest).map (· + text.length) := by
  -- every construct returns to the depth it began at, so the depth never falls to zero inside
  induction h generalizing depth prev rest with
  | nil => exact ⟨prev, by simp⟩
  | @char _ c cs hplain _ _ ih =>
    obtain ⟨last, hlast⟩ := ih hdepth (some c) rest
    refine ⟨last, ?_⟩
    rw [List.cons_append, closingFrom_of_isFlat (isFlat_of_isPlain hplain), hlast, Option.map_map]
    rfl
  | @comma cs _ ih =>
    obtain ⟨last, hlast⟩ := ih hdepth (some ',') rest
    refine ⟨last, ?_⟩
    rw [List.cons_append, closingFrom_of_isFlat (by decide), hlast, Option.map_map]
    rfl
  | @group _ b inner cs _ _ ihinner ih =>
    obtain ⟨inside, hinside, hopen, hclose⟩ := b.exists_closingFrom hdepth prev
    obtain ⟨before, hbefore⟩ := ihinner hinside (some b.opener) (b.closer :: (cs ++ rest))
    obtain ⟨last, hlast⟩ := ih hdepth (some b.closer) rest
    refine ⟨last, ?_⟩
    rw [List.cons_append, List.append_assoc, List.cons_append, hopen, hbefore, hclose, hlast,
      Option.map_map, Option.map_map, Option.map_map]
    refine congrArg (Option.map · _) (funext fun n => ?_)
    simp only [Function.comp, List.length_cons, List.length_append]
    omega
  | @literal _ q body cs hq hbody _ _ ih =>
    have hescape : some q ≠ some '\\' := fun h => Text.ne_of_class hq (by decide) (Option.some.inj h)
    obtain ⟨last, hlast⟩ := ih hdepth (some q) rest
    refine ⟨last, ?_⟩
    rw [List.cons_append, List.append_assoc, List.cons_append, closingFrom_unquoted,
      if_pos (Nesting.isQuote_of_hash hq), closingFrom_body hescape fun c hc => (hbody c hc).1,
      hlast, Option.map_map, Option.map_map]
    refine congrArg (Option.map · _) (funext fun n => ?_)
    simp only [Function.comp, List.length_cons, List.length_append]
    omega

theorem parenBalance_cons_of_ne {c : Char} (hopener : c ≠ '(') (hcloser : c ≠ ')')
    (cs : List Char) : parenBalance (c :: cs) = parenBalance cs := by
  rw [parenBalance, List.count_cons_of_ne hopener, List.count_cons_of_ne hcloser]
  rfl

/-- Code on its own is kept. -/
theorem stripped_cons {c : Char} (hc : isBare c = true) (cs : List Char) :
    stripped (c :: cs) = c :: stripped cs := by
  rw [stripped, stripFrom_cons_of_isBare hc]
  rfl

/-- The stripped copy of an expression has as many opening parentheses as closing ones. -/
theorem IsExpression.parenBalance_stripped {allowed quotable : Char → Bool} {inGroup : Bool}
    {text : List Char} (h : IsExpression allowed quotable inGroup text) :
    parenBalance (stripped text) = 0 := by
  induction h with
  | nil => rfl
  | char hplain _ _ ih =>
    have hflat := isFlat_of_isPlain hplain
    rw [stripped_cons (isBare_of_isPlain hplain), parenBalance_cons_of_ne
      (Text.ne_of_class hflat (by decide)) (Text.ne_of_class hflat (by decide)), ih]
  | comma _ ih =>
    rw [stripped_cons (by decide), parenBalance_cons_of_ne (by decide) (by decide), ih]
  | @group _ b inner rest hinner _ ihinner ih =>
    -- the two brackets of a group cancel out, or are no parentheses
    have hpair : parenBalance [b.opener] + parenBalance [b.closer] = 0 := by
      cases b <;> rfl
    have hinside := hinner.isClosed.closesLiterals.stripped_append
      (beginsUnquoted_cons b.isBare_closer rest)
    have hcons : b.opener :: (stripped inner ++ b.closer :: stripped rest) =
        [b.opener] ++ (stripped inner ++ ([b.closer] ++ stripped rest)) := by simp
    rw [stripped_cons b.isBare_opener, hinside, stripped_cons b.isBare_closer, hcons,
      parenBalance_append, parenBalance_append, parenBalance_append, ihinner, ih]
    omega
  | @literal _ q body rest hq hbody hnext _ ih =>
    have hopener : q ≠ '(' := Text.ne_of_class hq (by decide)
    have hcloser : q ≠ ')' := Text.ne_of_class hq (by decide)
    -- parentheses in the literal do not count, since stripping leaves only its quotes
    have hliteral : stripped (q :: (body ++ q :: rest)) = q :: q :: stripped rest := by
      rw [stripped, stripFrom_hash_literal hq (fun c hc => (hbody c hc).1) hnext]
      rfl
    rw [hliteral, parenBalance_cons_of_ne hopener hcloser, parenBalance_cons_of_ne hopener hcloser,
      ih]

end Parentheses

/-! ## Names, types and defaults -/

/-- A blank before a text without blanks at its ends is trimmed away. -/
theorem trim_space_cons {text : List Char} (h : Text.Tight text) :
    Text.trim (' ' :: text) = text := by
  have htrim : Text.trim ([' '] ++ (text ++ [])) = text :=
    h.trim_eq Text.isSpace_of_mem_blank (by simp)
  rwa [List.append_nil] at htrim

/-- Behind a text and one character comes the rest. -/
theorem drop_append_cons (text : List Char) (c : Char) (more : List Char) :
    (text ++ c :: more).drop (text.length + 1) = more := by
  rw [List.drop_append, List.drop_of_length_le (Nat.le_succ _)]
  simp

/-- The pieces of `name: type`, with a default that is already cut off. -/
def typedParts (main untyped : List Char) (default : Option (List Char)) :
    List Char × List Char × Option (List Char) :=
  match topLevelPosition? ':' main with
  | some n =>
    let type := Text.trim (main.drop (n + 1))
    (Text.trim (main.take n), if type.isEmpty then untyped else type, default)
  | none => (main, untyped, default)

/-- A parameter without an open equals sign has no default. -/
theorem annotatedParts_of_none {part untyped : List Char}
    (h : topLevelPosition? '=' (Text.trim part) = none) :
    annotatedParts part untyped = typedParts (Text.trim part) untyped none := by
  simp only [annotatedParts, h]
  rfl

/-- A parameter with an open equals sign has the default behind the sign. -/
theorem annotatedParts_of_some {part untyped : List Char} {n : Nat}
    (h : topLevelPosition? '=' (Text.trim part) = some n) :
    annotatedParts part untyped = typedParts (Text.trim ((Text.trim part).take n)) untyped
      (some (Text.trim ((Text.trim part).drop (n + 1)))) := by
  simp only [annotatedParts, h]
  rfl

end SourceSurvey
