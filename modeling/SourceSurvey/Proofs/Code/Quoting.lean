import SourceSurvey.Proofs.Code.Expression
import SourceSurvey.Proofs.Comment.Rewording

/-!
# What the scanners take for quoted

Two families of scanners read literals. Stripping and the search for a trailing comment skip a
backslash together with the character behind it. The scanners of brackets, separators and targets
look at the character before a quote instead. Main statement: the two agree on a line exactly when
none of its literals ends in an escaped backslash, and then a scanner of the second family finds
what a count over the characters outside literals finds.
-/

namespace SourceSurvey

/-! ## Lines of code and literals -/

/-- A part of a literal between two quotes `q`: a character that stands for itself, or a backslash
and the character that it escapes. -/
inductive BodyPart (q : Char) where
  | char (c : Char) (hquote : c ≠ q) (hescape : c ≠ '\\')
  | escape (c : Char)

namespace BodyPart

variable {q : Char}

def written : BodyPart q → List Char
  | char c _ _ => [c]
  | escape c => ['\\', c]

/-- The text between the quotes. -/
def writtenBody (body : List (BodyPart q)) : List Char :=
  body.flatMap written

theorem writtenBody_char {c : Char} {hquote : c ≠ q} {hescape : c ≠ '\\'}
    (body : List (BodyPart q)) :
    writtenBody (.char c hquote hescape :: body) = c :: writtenBody body := rfl

theorem writtenBody_escape (c : Char) (body : List (BodyPart q)) :
    writtenBody (.escape c :: body) = '\\' :: c :: writtenBody body := rfl

/-- The last character between the quotes is an escaped backslash. -/
def EndsEscaped (body : List (BodyPart q)) : Prop :=
  body.getLast? = some (escape '\\')

/-- The character before the closing quote is a backslash only if it is an escaped one. -/
theorem getLast?_writtenBody_iff (hq : q ≠ '\\') (body : List (BodyPart q)) :
    (writtenBody body).getLast?.or (some q) = some '\\' ↔ EndsEscaped body := by
  rcases List.eq_nil_or_concat body with rfl | ⟨front, part, rfl⟩
  · simp [writtenBody, EndsEscaped, hq]
  · have hwritten : writtenBody (front ++ [part]) = writtenBody front ++ part.written := by
      simp [writtenBody]
    rw [List.concat_eq_append, hwritten, EndsEscaped, List.getLast?_concat]
    cases part with
    | char c hquote hescape => simp [written, hescape]
    | escape c => simp [written]

/-- Nothing between the quotes closes the literal. -/
theorem staysOpen_writtenBody (body : List (BodyPart q)) (following : List Char) :
    StaysOpen [q] (writtenBody body) following := by
  induction body with
  | nil => exact .nil following
  | cons part body ih =>
    cases part with
    | char c hquote hescape =>
      refine .char hescape ?_ ih
      rw [List.cons_prefix_cons, not_and]
      exact fun h => absurd h.symm hquote
    | escape c => exact .escape c ih

/-- Up to any place between the quotes the literal is open. -/
theorem openToEnd_of_front {body : List (BodyPart q)} {front : List Char}
    (h : front <+: writtenBody body) : OpenToEnd [q] front := by
  induction body generalizing front with
  | nil =>
    obtain rfl := List.prefix_nil.mp h
    exact .inl (.nil [])
  | cons part body ih =>
    cases part with
    | char c hquote hescape =>
      rw [writtenBody_char] at h
      rcases List.prefix_cons_iff.mp h with rfl | ⟨front, rfl, hfront⟩
      · exact .inl (.nil [])
      · have hclose : ∀ rest, ¬ [q] <+: c :: rest := fun rest hstarts =>
          hquote (List.cons_prefix_cons.mp hstarts).1.symm
        rcases ih hfront with hopen | ⟨front, rfl, hopen⟩
        · exact .inl (.char hescape (hclose _) hopen)
        · exact .inr ⟨c :: front, rfl, .char hescape (hclose _) hopen⟩
    | escape c =>
      rw [writtenBody_escape] at h
      rcases List.prefix_cons_iff.mp h with rfl | ⟨front, rfl, hfront⟩
      · exact .inl (.nil [])
      -- the place may be between the backslash and the character that it escapes
      · rcases List.prefix_cons_iff.mp hfront with rfl | ⟨front, rfl, hrest⟩
        · exact .inr ⟨[], rfl, .nil ['\\']⟩
        · rcases ih hrest with hopen | ⟨front, rfl, hopen⟩
          · exact .inl (.escape c hopen)
          · exact .inr ⟨'\\' :: c :: front, rfl, .escape c hopen⟩

end BodyPart

/-- A character that may stand outside literals: no quote, no backslash and no angle bracket. -/
def isUnquoted (c : Char) : Bool :=
  !"\"'\x60\\<>".toList.contains c

/-- A part of a line: a character outside literals, or a literal in one of the three quotes. -/
inductive LinePart where
  | code (c : Char) (hc : isUnquoted c = true)
  | literal (q : Char) (hq : Nesting.isQuote q = true) (body : List (BodyPart q))

namespace LinePart

open BodyPart

def written : LinePart → List Char
  | code c _ => [c]
  | literal q _ body => q :: (writtenBody body ++ [q])

/-- What stays of a part when literals are emptied. -/
def kept : LinePart → List Char
  | code c _ => [c]
  | literal q _ _ => [q, q]

/-- The text of a line. -/
def writtenLine (parts : List LinePart) : Line :=
  parts.flatMap written

/-- The text of a line with its literals emptied. -/
def keptLine (parts : List LinePart) : Line :=
  parts.flatMap kept

/-- No comment opens at a character outside literals. -/
def OpensNoComment : List LinePart → Prop
  | [] => True
  | .code c _ :: parts =>
    ¬ CommentRules.slash.OpensComment (c :: writtenLine parts) ∧ OpensNoComment parts
  | .literal _ _ _ :: parts => OpensNoComment parts

/-- No literal of the line ends in an escaped backslash. -/
def EndsNoEscape (parts : List LinePart) : Prop :=
  ∀ q hq body, .literal q hq body ∈ parts → ¬ EndsEscaped body

@[simp]
theorem writtenLine_code {c : Char} {hc : isUnquoted c = true} (parts : List LinePart) :
    writtenLine (.code c hc :: parts) = c :: writtenLine parts := rfl

/-- A literal is written between its quotes. -/
@[simp]
theorem writtenLine_literal {q : Char} {hq : Nesting.isQuote q = true} (body : List (BodyPart q))
    (parts : List LinePart) : writtenLine (.literal q hq body :: parts) =
      q :: (writtenBody body ++ q :: writtenLine parts) := by
  simp [writtenLine, written]

/-- Parts in a row are written one behind the other. -/
theorem writtenLine_append (front rest : List LinePart) :
    writtenLine (front ++ rest) = writtenLine front ++ writtenLine rest :=
  List.flatMap_append

/-- Without its first part a line still has no literal that ends escaped. -/
theorem EndsNoEscape.tail {part : LinePart} {parts : List LinePart}
    (h : EndsNoEscape (part :: parts)) : EndsNoEscape parts := fun q hq body hbody =>
  h q hq body (List.mem_cons_of_mem part hbody)

/-! ## What a count outside literals finds -/

/-- What a character outside literals adds to the bracket depth. -/
def bracketChange (c : Char) : Int :=
  if "([\x7b".toList.contains c then 1 else if ")]\x7d".toList.contains c then -1 else 0

/-- The number of characters before the bracket that closes as many as are open, counted outside
literals. -/
def closingOutside (opener closer : Char) : Int → List LinePart → Option Nat
  | _, [] => none
  | depth, .literal _ _ body :: parts =>
    (closingOutside opener closer depth parts).map (· + ((writtenBody body).length + 2))
  | depth, .code c _ :: parts =>
    if c = opener then (closingOutside opener closer (depth + 1) parts).map (· + 1)
    else if c = closer then
      if depth = 1 then some 0
      else (closingOutside opener closer (depth - 1) parts).map (· + 1)
    else (closingOutside opener closer depth parts).map (· + 1)

/-- The pieces of a line between the separators outside literals and brackets. -/
def piecesOutside (separator : Char) : Int → List LinePart → List (List Char)
  | _, [] => [[]]
  | depth, .literal q hq body :: parts =>
    (piecesOutside separator depth parts).modifyHead ((literal q hq body).written ++ ·)
  | depth, .code c _ :: parts =>
    if depth = 0 ∧ c = separator then [] :: piecesOutside separator depth parts
    else (piecesOutside separator (depth + bracketChange c) parts).modifyHead (c :: ·)

/-- The position of the first target outside literals and brackets that is no bracket, where
`before` is the character before the line. An equals sign counts only when it assigns. -/
def positionOutside (target : Char) : Int → Option Char → List LinePart → Option Nat
  | _, _, [] => none
  | depth, _, .literal q _ body :: parts =>
    (positionOutside target depth (some q) parts).map (· + ((writtenBody body).length + 2))
  | depth, before, .code c _ :: parts =>
    if (depth = 0 ∧ c = target ∧ bracketChange c = 0) ∧
        ¬ (target = '=' ∧ isOperatorPart ⟨depth, none, before⟩ (writtenLine parts) = true) then
      some 0
    else (positionOutside target (depth + bracketChange c) (some c) parts).map (· + 1)

/-- The scanners of brackets, separators and targets find on the line what a count over its
characters outside literals finds. Brackets are counted from any place outside literals. -/
structure CountsOutside (parts : List LinePart) : Prop where
  closing : ∀ (opener closer : Char) (front rest : List LinePart), parts = front ++ rest →
    closingBracket? opener closer (writtenLine parts) (writtenLine front).length =
      (closingOutside opener closer 0 rest).map (· + (writtenLine front).length)
  pieces : ∀ separator : Char, topLevelParts separator (writtenLine parts) =
    ((piecesOutside separator 0 parts).map Text.trim).filter (!·.isEmpty)
  position : ∀ target : Char,
    topLevelPosition? target (writtenLine parts) = positionOutside target 0 none parts

end LinePart

/-! ## What opens a literal or a comment -/

/-- The quote of the open literal. -/
def Region.openQuote? : Region → Option Char
  | .literal [q] => some q
  | _ => none

namespace CommentRules

/-- The brace languages have the same three quotes as the scanners. -/
theorem isQuote_slash (c : Char) : slash.isQuote c = Nesting.isQuote c := by
  rw [Bool.eq_iff_iff]
  simp [isQuote, slash, Nesting.isQuote, or_assoc]

/-- In the brace languages two slashes open a line comment. -/
theorem opensLineComment_slash (text : List Char) :
    slash.opensLineComment text = ['/', '/'].isPrefixOf text := by
  unfold opensLineComment slash
  cases h : ['/', '/'].isPrefixOf text <;> simp [h]

/-- What opens a comment in a text opens one in every longer text. -/
theorem OpensComment.mono {text more : List Char} (h : slash.OpensComment text)
    (hmore : text <+: more) : slash.OpensComment more := by
  rcases h with ⟨opener, closer, hblock, hstarts⟩ | hline
  · exact .inl ⟨opener, closer, hblock, hstarts.trans hmore⟩
  · right
    rw [opensLineComment_slash, List.isPrefixOf_iff_prefix] at hline ⊢
    exact hline.trans hmore

/-- What opens no comment opens none in a text that goes on less far. -/
theorem not_opensComment_front {c : Char} {text front : List Char}
    (h : ¬ slash.OpensComment (c :: text)) (hfront : front <+: text) :
    ¬ slash.OpensComment (c :: front) := fun hopens =>
  h (hopens.mono (List.cons_prefix_cons.mpr ⟨rfl, hfront⟩))

/-- A comment opens with a slash. -/
theorem not_opensComment_of_ne {c : Char} (hc : c ≠ '/') (cs : List Char) :
    ¬ slash.OpensComment (c :: cs) := by
  rintro (⟨opener, closer, hblock, hstarts⟩ | hline)
  · obtain ⟨rfl, rfl⟩ := Prod.mk.inj (Option.some.inj hblock)
    exact hc (List.cons_prefix_cons.mp hstarts).1.symm
  · rw [opensLineComment_slash, List.isPrefixOf_iff_prefix] at hline
    exact hc (List.cons_prefix_cons.mp hline).1.symm

end CommentRules

/-! ## Stripping and the search for a comment -/

namespace LinePart

open BodyPart CommentRules

theorem ne_slash_of_isQuote {q : Char} (hq : Nesting.isQuote q = true) : q ≠ '\\' :=
  Text.ne_of_class hq (by decide)

/-- Stripping empties a literal, whatever its body ends in. -/
theorem stripFrom_slash_literal {q : Char} (hq : Nesting.isQuote q = true) {body : List Char}
    (hbody : ∀ following, StaysOpen [q] body following) (rest : List Char) :
    slash.stripFrom 0 .code (q :: (body ++ q :: rest)) =
      (q :: q :: (slash.stripFrom 0 .code rest).1, (slash.stripFrom 0 .code rest).2) := by
  have hcomment : ¬ slash.OpensComment ([q] ++ (body ++ q :: rest)) :=
    not_opensComment_of_ne (Text.ne_of_class hq (by decide)) _
  have hopens : slash.OpensLiteral [q] ([q] ++ (body ++ q :: rest)) :=
    .single ((isQuote_slash q).trans hq) rfl
  have hclosed := @stripFrom_literal_closed slash q [] body rest (ne_slash_of_isQuote hq)
    (hbody ([q] ++ rest))
  have hopened := stripFrom_opensLiteral hcomment hopens
  rw [List.singleton_append] at hopened hclosed
  rw [hopened, hclosed]
  rfl

/-- Inside a literal the stripping scanner is in that literal. -/
theorem stripFrom_inside_literal {q : Char} (hq : Nesting.isQuote q = true)
    {body : List (BodyPart q)} {front : List Char} (hfront : front <+: writtenBody body) :
    (slash.stripFrom 0 .code (q :: front)).2 = .literal [q] := by
  have hcomment : ¬ slash.OpensComment ([q] ++ front) :=
    not_opensComment_of_ne (Text.ne_of_class hq (by decide)) _
  have hopens : slash.OpensLiteral [q] ([q] ++ front) := .single ((isQuote_slash q).trans hq) rfl
  have hopened := stripFrom_opensLiteral hcomment hopens
  rw [stripFrom_literal_open (openToEnd_of_front hfront)] at hopened
  exact congrArg Prod.snd hopened

theorem isQuote_of_isUnquoted {c : Char} (hc : isUnquoted c = true) :
    Nesting.isQuote c = false := by
  simp [isUnquoted] at hc
  simp [Nesting.isQuote, hc]

/-- Stripping keeps a character outside literals that opens nothing. -/
theorem stripFrom_slash_char {c : Char} (hc : Nesting.isQuote c = false) {text : List Char}
    (hcomment : ¬ slash.OpensComment (c :: text)) :
    slash.stripFrom 0 .code (c :: text) =
      (c :: (slash.stripFrom 0 .code text).1, (slash.stripFrom 0 .code text).2) :=
  stripFrom_cons_of_plain (regular_style .javascript) hcomment ((isQuote_slash c).trans hc)

/-- A character outside literals that opens no comment is kept. -/
theorem stripFrom_code_part {c : Char} (hc : isUnquoted c = true) {text : List Char}
    (hcomment : ¬ slash.OpensComment (c :: text)) :
    slash.stripFrom 0 .code (c :: text) =
      (c :: (slash.stripFrom 0 .code text).1, (slash.stripFrom 0 .code text).2) :=
  stripFrom_slash_char (isQuote_of_isUnquoted hc) hcomment

/-- Stripping empties the literals of a line and keeps the rest. -/
theorem strip_writtenLine {parts : List LinePart} (h : OpensNoComment parts) :
    slash.strip [writtenLine parts] = [keptLine parts] := by
  have hline : slash.stripFrom 0 .code (writtenLine parts) = (keptLine parts, .code) := by
    induction parts with
    | nil => rfl
    | cons part parts ih =>
      cases part with
      | code c hc =>
        rw [writtenLine_code, stripFrom_code_part hc h.1, ih h.2]
        rfl
      | literal q hq body =>
        rw [writtenLine_literal, stripFrom_slash_literal hq (staysOpen_writtenBody body), ih h]
        rfl
  rw [strip, stripLines, stripLine, hline]
  rfl

/-- The search for a line comment passes over a literal. -/
theorem lineCommentFrom_slash_literal {q : Char} (hq : Nesting.isQuote q = true)
    {body : List Char} (hbody : ∀ following, StaysOpen [q] body following) (rest : List Char) :
    slash.lineCommentFrom 0 none (q :: (body ++ q :: rest)) =
      (slash.lineCommentFrom 0 none rest).map (· + (body.length + 2)) := by
  have hescape : ¬ (q == '\\') = true := by
    rw [beq_iff_eq]
    exact ne_slash_of_isQuote hq
  rw [lineCommentFrom, if_pos ((isQuote_slash q).trans hq), lineCommentFrom_staysOpen (hbody []),
    lineCommentFrom, if_neg hescape, if_pos (beq_self_eq_true q), Option.map_map, Option.map_map]
  refine congrArg (Option.map · _) (funext fun n => ?_)
  simp only [Function.comp]
  omega

/-- Inside a literal two slashes open no comment. -/
theorem lineCommentFrom_inside_literal {q : Char} (hq : Nesting.isQuote q = true)
    {front : List Char} (hopen : OpenToEnd [q] front) :
    slash.lineCommentFrom 0 (some q) (front ++ ['/', '/']) = none := by
  have hslash : ¬ ('/' == q) = true := by
    rw [beq_iff_eq]
    exact (Text.ne_of_class hq (by decide)).symm
  have hescape : ¬ ('/' == '\\') = true := by decide
  have htwo : slash.lineCommentFrom 0 (some q) ['/', '/'] = none := by
    rw [lineCommentFrom, if_neg hescape, if_neg hslash, lineCommentFrom, if_neg hescape,
      if_neg hslash]
    rfl
  rcases hopen with hopen | ⟨front, rfl, hopen⟩
  · rw [lineCommentFrom_staysOpen hopen, htwo]
    rfl
  -- the backslash takes the first slash
  · have hone : slash.lineCommentFrom 0 (some q) ['\\', '/', '/'] = none := by
      rw [lineCommentFrom, if_pos (beq_self_eq_true '\\'), lineCommentFrom, lineCommentFrom,
        if_neg hescape, if_neg hslash]
      rfl
    rw [List.append_assoc, lineCommentFrom_staysOpen hopen]
    exact congrArg (Option.map _) hone

/-- A character outside literals begins no comment, in every text that goes on as the line does. -/
theorem lineCommentFrom_slash_char {c : Char} (hc : Nesting.isQuote c = false) {text : List Char}
    (hopens : slash.opensLineComment (c :: text) = false) :
    slash.lineCommentFrom 0 none (c :: text) =
      (slash.lineCommentFrom 0 none text).map (· + 1) := by
  have hquote : ¬ slash.isQuote c = true := by
    rw [isQuote_slash, hc]
    exact Bool.false_ne_true
  rw [lineCommentFrom, if_neg hquote, if_neg (by rw [hopens]; exact Bool.false_ne_true)]

/-- The search for a line comment passes over a character that opens none. -/
theorem lineCommentFrom_code_part {c : Char} (hc : isUnquoted c = true) {text : List Char}
    (hopens : slash.opensLineComment (c :: text) = false) :
    slash.lineCommentFrom 0 none (c :: text) =
      (slash.lineCommentFrom 0 none text).map (· + 1) :=
  lineCommentFrom_slash_char (isQuote_of_isUnquoted hc) hopens

/-- A line in which no comment opens has no line comment. -/
theorem lineCommentAt?_writtenLine {parts : List LinePart} (h : OpensNoComment parts) :
    slash.lineCommentAt? (writtenLine parts) = none := by
  induction parts with
  | nil => rfl
  | cons part parts ih =>
    rw [lineCommentAt?] at ih ⊢
    cases part with
    | code c hc =>
      have hopens : slash.opensLineComment (c :: writtenLine parts) = false :=
        Bool.eq_false_iff.mpr fun hline => h.1 (.inr hline)
      rw [writtenLine_code, lineCommentFrom_code_part hc hopens, ih h.2]
      rfl
    | literal q hq body =>
      rw [writtenLine_literal, lineCommentFrom_slash_literal hq (staysOpen_writtenBody body), ih h]
      rfl

/-- The fronts of a text that begins with a literal: none of it, a front of the literal without its
closing quote, or all of it and a front of what follows. -/
theorem prefix_literal_cases {q : Char} {body : List (BodyPart q)} {text front : List Char}
    (h : front <+: q :: (writtenBody body ++ q :: text)) :
    front = [] ∨ (∃ inside, front = q :: inside ∧ inside <+: writtenBody body) ∨
      ∃ rest, front = q :: (writtenBody body ++ q :: rest) ∧ rest <+: text := by
  rcases List.prefix_cons_iff.mp h with rfl | ⟨front, rfl, hfront⟩
  · exact .inl rfl
  right
  rcases List.prefix_or_prefix_of_prefix hfront (List.prefix_append _ _) with hinside | ⟨rest, rfl⟩
  · exact .inl ⟨front, rfl, hinside⟩
  rcases List.prefix_cons_iff.mp ((List.prefix_append_right_inj _).mp hfront) with
    rfl | ⟨rest, rfl, hrest⟩
  · exact .inl ⟨_, rfl, by simp⟩
  · exact .inr ⟨rest, rfl, hrest⟩

/-- A text that opens no comment opens none with two slashes behind it if it ends in no slash. -/
theorem opensLineComment_append_slashes {c : Char} {text : List Char}
    (h : ¬ slash.OpensComment (c :: text)) (hlast : (c :: text).getLast? ≠ some '/') :
    slash.opensLineComment (c :: (text ++ ['/', '/'])) = false := by
  rw [Bool.eq_false_iff, opensLineComment_slash, ne_eq, List.isPrefixOf_iff_prefix,
    List.cons_prefix_cons]
  rintro ⟨rfl, hnext⟩
  cases text with
  | nil => exact hlast rfl
  | cons d ds =>
    obtain ⟨rfl, -⟩ := List.cons_prefix_cons.mp hnext
    refine h (.inr ?_)
    rw [opensLineComment_slash, List.isPrefixOf_iff_prefix]
    exact List.prefix_append ['/', '/'] ds

/-- Two slashes behind a front of the line open a comment where stripping is outside literals, and
nowhere else. -/
theorem lineCommentAt?_front {parts : List LinePart} (h : OpensNoComment parts) {front : List Char}
    (hfront : front <+: writtenLine parts) (hlast : front.getLast? ≠ some '/') :
    slash.lineCommentAt? (front ++ ['/', '/']) =
      if (slash.stripFrom 0 .code front).2.openQuote?.isSome then none else some front.length := by
  rw [lineCommentAt?]
  -- the front ends outside literals, within one or behind one, which is the case split of its
  -- prefix
  induction parts generalizing front with
  | nil =>
    obtain rfl := List.prefix_nil.mp hfront
    rfl
  | cons part parts ih =>
    cases part with
    | code c hc =>
      rw [writtenLine_code] at hfront
      rcases List.prefix_cons_iff.mp hfront with rfl | ⟨front, rfl, hrest⟩
      · rfl
      · have hcomment := not_opensComment_front h.1 hrest
        have hopens := opensLineComment_append_slashes hcomment hlast
        have hlast' : front.getLast? ≠ some '/' := fun hslash => by
          simp [List.getLast?_cons, hslash] at hlast
        rw [List.cons_append, lineCommentFrom_code_part hc hopens, ih h.2 hrest hlast',
          stripFrom_code_part hc hcomment, apply_ite (Option.map (· + 1))]
        rfl
    | literal q hq body =>
      rw [writtenLine_literal] at hfront
      rcases prefix_literal_cases hfront with rfl | ⟨inside, rfl, hinside⟩ | ⟨rest, rfl, hrest⟩
      · rfl
      · have hquote : slash.isQuote q = true := (isQuote_slash q).trans hq
        rw [List.cons_append, lineCommentFrom, if_pos hquote,
          lineCommentFrom_inside_literal hq (openToEnd_of_front hinside),
          stripFrom_inside_literal hq hinside]
        rfl
      · have hlast' : rest.getLast? ≠ some '/' := fun hslash => by
          simp [List.getLast?_cons, List.getLast?_append, hslash] at hlast
        have hlength : (q :: (writtenBody body ++ q :: rest)).length =
            rest.length + ((writtenBody body).length + 2) := by
          simp only [List.length_cons, List.length_append]
          omega
        have hbody := staysOpen_writtenBody body
        rw [List.cons_append, List.append_assoc, List.cons_append,
          lineCommentFrom_slash_literal hq hbody, ih h hrest hlast',
          stripFrom_slash_literal hq hbody, apply_ite (Option.map _), hlength]
        rfl

end LinePart

/-! ## Scanners that look at the character before -/

namespace Nesting

/-- Every character of the text is met inside a literal or is a quote. -/
def Quoted : Nesting → List Char → Prop
  | _, [] => True
  | s, c :: cs => (s.quote.isSome = true ∨ isQuote c = true) ∧ Quoted (s.step c) cs

/-- A text that goes on within a literal is met within it. -/
theorem quoted_append {s : Nesting} {text more : List Char} (h : Quoted s text)
    (hmore : Quoted (s.run text) more) : Quoted s (text ++ more) := by
  induction text generalizing s with
  | nil => exact hmore
  | cons c cs ih => exact ⟨h.1, ih h.2 hmore⟩

/-- Within a literal only its quote counts, and only behind no backslash. -/
theorem step_quoted {s : Nesting} {q : Char} (hquote : s.quote = some q) (c : Char) :
    s.step c =
      ⟨s.depth, if c == q && s.prev != some '\\' then none else some q, some c⟩ := by
  rw [step, hquote]

/-- Outside literals a quote opens one, and any other character may change the depth. -/
theorem step_unquoted (depth : Int) (before : Option Char) (c : Char) :
    (⟨depth, none, before⟩ : Nesting).step c =
      if isQuote c then ⟨depth, some c, some c⟩
      else ⟨depth + depthChange ⟨depth, none, before⟩ c, none, some c⟩ := rfl

/-- The character before the place behind a text is the last one of the text. -/
theorem prev_run (s : Nesting) (text : List Char) :
    (s.run text).prev = text.getLast?.or s.prev := by
  rcases List.eq_nil_or_concat text with rfl | ⟨front, c, rfl⟩
  · rfl
  · rw [List.concat_eq_append, prev_run_concat, List.getLast?_concat]
    rfl

/-- A literal that stays open is open for a scanner that looks back, too. -/
theorem run_staysOpen {s : Nesting} {q : Char} (hq : q ≠ '\\') {body following : List Char}
    (h : StaysOpen [q] body following) (hquote : s.quote = some q) :
    (s.run body).quote = some q ∧ (s.run body).depth = s.depth ∧ Quoted s body := by
  induction h generalizing s with
  | nil => exact ⟨hquote, rfl, trivial⟩
  | escape c _ ih =>
    have hslash : ('\\' == q) = false := beq_eq_false_iff_ne.mpr hq.symm
    have hfirst : s.step '\\' = ⟨s.depth, some q, some '\\'⟩ := by
      rw [step_quoted hquote, hslash]
      rfl
    -- the character behind the backslash closes nothing, even if it is the quote
    have hsecond : (s.step '\\').step c = ⟨s.depth, some q, some c⟩ := by
      rw [hfirst, step_quoted rfl]
      simp
    obtain ⟨hopen, hdepth, hquoted⟩ := ih (s := (s.step '\\').step c) (by rw [hsecond])
    refine ⟨hopen, ?_, .inl (by simp [hquote]), .inl (by simp [hfirst]), hquoted⟩
    rw [hsecond] at hdepth
    rw [run, List.foldl_cons, List.foldl_cons, hsecond]
    exact hdepth
  | @char c body following hescape hstarts _ ih =>
    have hne : (c == q) = false := by
      rw [beq_eq_false_iff_ne]
      rintro rfl
      exact hstarts (List.prefix_append [c] _)
    have hstep : s.step c = ⟨s.depth, some q, some c⟩ := by
      rw [step_quoted hquote, hne]
      rfl
    obtain ⟨hopen, hdepth, hquoted⟩ := ih (s := s.step c) (by rw [hstep])
    refine ⟨hopen, ?_, .inl (by simp [hquote]), hquoted⟩
    rw [hstep] at hdepth
    rw [run, List.foldl_cons, hstep]
    exact hdepth

/-- Up to the end of a line that does not close it a literal is open. -/
theorem quote_run_openToEnd {s : Nesting} {q : Char} (hq : q ≠ '\\') {front : List Char}
    (h : OpenToEnd [q] front) (hquote : s.quote = some q) : (s.run front).quote = some q := by
  rcases h with hopen | ⟨front, rfl, hopen⟩
  · exact (run_staysOpen hq hopen hquote).1
  · have hslash : ('\\' == q) = false := beq_eq_false_iff_ne.mpr hq.symm
    rw [run_append]
    show ((s.run front).step '\\').quote = some q
    rw [step_quoted (run_staysOpen hq hopen hquote).1, hslash]
    rfl

end Nesting

namespace LinePart

open BodyPart Nesting

variable {depth : Int} {before : Option Char}

/-- The text of a literal is quoted, and the scanner is behind it exactly if the last character
between the quotes is no escaped backslash. -/
theorem run_literal_part {q : Char} (hq : Nesting.isQuote q = true) (body : List (BodyPart q))
    (depth : Int) (before : Option Char) :
    Quoted ⟨depth, none, before⟩ (q :: (writtenBody body ++ [q])) ∧
    (¬ EndsEscaped body →
      run ⟨depth, none, before⟩ (q :: (writtenBody body ++ [q])) = ⟨depth, none, some q⟩) ∧
    (EndsEscaped body →
      (run ⟨depth, none, before⟩ (q :: (writtenBody body ++ [q]))).quote = some q) := by
  have hescape := ne_slash_of_isQuote hq
  have hstep : (⟨depth, none, before⟩ : Nesting).step q = ⟨depth, some q, some q⟩ := by
    rw [step_unquoted, if_pos hq]
  obtain ⟨hopen, hdepth, hquoted⟩ := run_staysOpen (s := ⟨depth, some q, some q⟩) hescape
    (staysOpen_writtenBody body []) rfl
  have hprev := prev_run ⟨depth, some q, some q⟩ (writtenBody body)
  have hrun : run ⟨depth, none, before⟩ (q :: (writtenBody body ++ [q])) =
      (run ⟨depth, some q, some q⟩ (writtenBody body)).step q := by
    rw [run, List.foldl_cons, hstep]
    exact run_append _ _ [q]
  have hlast := getLast?_writtenBody_iff hescape body
  rw [← hprev] at hlast
  refine ⟨⟨.inr hq, ?_⟩, fun hends => ?_, fun hends => ?_⟩
  · rw [hstep]
    exact quoted_append hquoted ⟨.inr hq, trivial⟩
  · rw [hrun, step_quoted hopen, hdepth]
    simp [mt hlast.mp hends]
  · rw [hrun, step_quoted hopen]
    simp [hlast.mpr hends]

/-- Without angle brackets a character changes the depth as a bracket does. -/
theorem depthChange_eq_bracketChange {c : Char} (hc : isUnquoted c = true) (s : Nesting) :
    s.depthChange c = bracketChange c := by
  simp [isUnquoted] at hc
  simp [depthChange, bracketChange, hc, or_assoc]

/-- A character outside literals leaves the scanner outside them. -/
theorem step_code_part {c : Char} (hc : isUnquoted c = true) :
    (⟨depth, none, before⟩ : Nesting).step c = ⟨depth + bracketChange c, none, some c⟩ := by
  rw [step_unquoted, isQuote_of_isUnquoted hc, depthChange_eq_bracketChange hc]
  rfl

end LinePart

/-! ## Agreement on what is quoted -/

namespace LinePart

open BodyPart CommentRules Nesting

/-- A scanner that looks at the character before a quote is inside the literals that stripping is
inside, at every place of the line, exactly if no literal of the line ends in an escaped
backslash. -/
theorem quote_run_eq_iff {parts : List LinePart} (h : OpensNoComment parts) (depth : Int)
    (before : Option Char) :
    (∀ front, front <+: writtenLine parts → (run ⟨depth, none, before⟩ front).quote =
      (slash.stripFrom 0 .code front).2.openQuote?) ↔ EndsNoEscape parts := by
  induction parts generalizing depth before with
  | nil =>
    refine iff_of_true (fun front hfront => ?_) nofun
    obtain rfl := List.prefix_nil.mp hfront
    rfl
  | cons part parts ih =>
    cases part with
    | code c hc =>
      have hrun : ∀ front, run ⟨depth, none, before⟩ (c :: front) =
          run ⟨depth + bracketChange c, none, some c⟩ front := fun front => by
        rw [run, List.foldl_cons, step_code_part hc]
        rfl
      have hends : EndsNoEscape (.code c hc :: parts) ↔ EndsNoEscape parts := by
        simp [EndsNoEscape]
      rw [hends, ← ih h.2 (depth + bracketChange c) (some c)]
      constructor
      · intro hagree front hfront
        have hfirst := hagree (c :: front) (List.cons_prefix_cons.mpr ⟨rfl, hfront⟩)
        rwa [hrun, stripFrom_code_part hc (not_opensComment_front h.1 hfront)] at hfirst
      · intro hagree front hfront
        rcases List.prefix_cons_iff.mp hfront with rfl | ⟨front, rfl, hrest⟩
        · rfl
        · rw [hrun, stripFrom_code_part hc (not_opensComment_front h.1 hrest)]
          exact hagree front hrest
    | literal q hq body =>
      obtain ⟨-, hcloses, hstays⟩ := run_literal_part hq body depth before
      have happend := IsExpression.literal_eq_append q (writtenBody body)
      constructor
      · intro hagree
        -- behind its closing quote stripping has left the literal
        have hbehind := hagree (q :: (writtenBody body ++ [q])) (by
          rw [writtenLine_literal, happend (writtenLine parts)]
          exact List.prefix_append _ _)
        rw [stripFrom_slash_literal hq (staysOpen_writtenBody body)] at hbehind
        have hends : ¬ EndsEscaped body := fun hends => by
          rw [hstays hends] at hbehind
          cases hbehind
        have hrest : EndsNoEscape parts := by
          rw [← ih h depth (some q)]
          intro front hfront
          have hall := hagree (q :: (writtenBody body ++ q :: front)) (by
            rw [writtenLine_literal, happend front, happend (writtenLine parts),
              List.prefix_append_right_inj]
            exact hfront)
          rwa [stripFrom_slash_literal hq (staysOpen_writtenBody body), happend front, run_append,
            hcloses hends] at hall
        intro q' hq' body' hmem
        rcases List.mem_cons.mp hmem with heq | hmem
        · cases heq
          exact hends
        · exact hrest q' hq' body' hmem
      · intro hends front hfront
        have hagree := (ih h depth (some q)).mpr hends.tail
        rw [writtenLine_literal] at hfront
        rcases prefix_literal_cases hfront with rfl | ⟨inside, rfl, hinside⟩ | ⟨rest, rfl, hrest⟩
        · rfl
        · have hopened : run ⟨depth, none, before⟩ (q :: inside) =
              run ⟨depth, some q, some q⟩ inside := by
            rw [run, List.foldl_cons, step_unquoted, if_pos hq]
            rfl
          rw [hopened, stripFrom_inside_literal hq hinside]
          exact quote_run_openToEnd (ne_slash_of_isQuote hq) (openToEnd_of_front hinside) rfl
        · rw [stripFrom_slash_literal hq (staysOpen_writtenBody body), happend rest, run_append,
            hcloses (hends q hq body List.mem_cons_self)]
          exact hagree rest hrest

end LinePart

/-! ## Counting outside literals -/

section Counting

open Nesting

variable {separator target opener closer : Char} {s : Nesting} {text : List Char}

/-- A text always has a piece. -/
theorem topLevelPieces_ne_nil (separator : Char) (s : Nesting) (text : List Char) :
    topLevelPieces separator s text ≠ [] := by
  cases text with
  | nil => exact List.cons_ne_nil _ _
  | cons c cs =>
    rw [topLevelPieces]
    split
    · exact List.cons_ne_nil _ _
    · split <;> exact List.cons_ne_nil _ _

/-- A character that does not separate joins the first piece. -/
theorem topLevelPieces_cons {c : Char} {cs : List Char}
    (h : (s.isTop && !isQuote c && c == separator) = false) :
    topLevelPieces separator s (c :: cs) =
      (topLevelPieces separator (s.step c) cs).modifyHead (c :: ·) := by
  obtain ⟨piece, pieces, hpieces⟩ :=
    List.exists_cons_of_ne_nil (topLevelPieces_ne_nil separator (s.step c) cs)
  rw [topLevelPieces, if_neg (by rw [h]; exact Bool.false_ne_true), hpieces]
  rfl

/-- At a quoted character no scanner looks for anything. -/
theorem isTop_and_not_isQuote {c : Char} (h : s.quote.isSome = true ∨ isQuote c = true) :
    (s.isTop && !isQuote c) = false := by
  rcases h with hquote | hquote
  · simp [isTop, Option.isNone_eq_false_iff.mpr hquote]
  · rw [hquote]
    simp

/-- A quoted text separates nothing. -/
theorem topLevelPieces_of_quoted (h : Quoted s text) (more : List Char) :
    topLevelPieces separator s (text ++ more) =
      (topLevelPieces separator (s.run text) more).modifyHead (text ++ ·) := by
  induction text generalizing s with
  | nil => exact (congrFun List.modifyHead_id _).symm
  | cons c cs ih =>
    have hnot : (s.isTop && !isQuote c && c == separator) = false := by
      rw [isTop_and_not_isQuote h.1, Bool.false_and]
    rw [List.cons_append, topLevelPieces_cons hnot, ih h.2, List.modifyHead_modifyHead]
    rfl

/-- No target is found in a quoted text. -/
theorem topLevelPositionFrom_of_quoted (h : Quoted s text) (more : List Char) :
    topLevelPositionFrom target s (text ++ more) =
      (topLevelPositionFrom target (s.run text) more).map (· + text.length) := by
  induction text generalizing s with
  | nil => simp [run]
  | cons c cs ih =>
    have hnot : ¬ (s.isPlainTop c && c == target &&
        !(target == '=' && isOperatorPart s (cs ++ more))) = true := by
      rw [isPlainTop, isTop_and_not_isQuote h.1]
      simp
    rw [List.cons_append, topLevelPositionFrom, if_neg hnot, ih h.2, Option.map_map]
    rfl

/-- No bracket of a quoted text counts. -/
theorem closingFrom_of_quoted (opener closer : Char) (h : Quoted s text) (depth : Int)
    (more : List Char) :
    closingFrom opener closer depth s.quote s.prev (text ++ more) =
      (closingFrom opener closer depth (s.run text).quote (s.run text).prev more).map
        (· + text.length) := by
  induction text generalizing s with
  | nil => simp [run]
  | cons c cs ih =>
    have hstep : closingFrom opener closer depth s.quote s.prev (c :: (cs ++ more)) =
        (closingFrom opener closer depth (s.step c).quote (s.step c).prev (cs ++ more)).map
          (· + 1) := by
      cases hquote : s.quote with
      | some q =>
        rw [closingFrom_quoted, step_quoted hquote]
      | none =>
        have hc : isQuote c = true := by
          rcases h.1 with hopen | hc
          · rw [hquote] at hopen
            cases hopen
          · exact hc
        rw [closingFrom_unquoted, if_pos hc, step, hquote]
        simp [hc]
    rw [List.cons_append, hstep, ih h.2, Option.map_map]
    rfl

end Counting

namespace LinePart

open BodyPart Nesting

variable {parts : List LinePart}

/-- A literal is two quotes longer than what stands between them. -/
theorem length_literal {q : Char} (body : List (BodyPart q)) :
    (q :: (writtenBody body ++ [q])).length = (writtenBody body).length + 2 := by
  rw [List.length_cons, List.length_append]
  rfl

/-- The search for a closing bracket counts outside the literals of a line. -/
theorem closingFrom_writtenLine (h : EndsNoEscape parts) (opener closer : Char) (depth : Int)
    (before : Option Char) :
    closingFrom opener closer depth none before (writtenLine parts) =
      closingOutside opener closer depth parts := by
  induction parts generalizing depth before with
  | nil => rfl
  | cons part parts ih =>
    have ih := ih h.tail
    cases part with
    | code c hc =>
      have hquote : ¬ Nesting.isQuote c = true := by
        rw [isQuote_of_isUnquoted hc]
        exact Bool.false_ne_true
      rw [writtenLine_code, closingFrom_unquoted, if_neg hquote, closingOutside]
      simp only [beq_iff_eq, ih]
    | literal q hq body =>
      obtain ⟨hquoted, hcloses, -⟩ := run_literal_part hq body 0 before
      have hpassed := closingFrom_of_quoted opener closer hquoted depth (writtenLine parts)
      rw [hcloses (h q hq body List.mem_cons_self), length_literal, ih] at hpassed
      rw [writtenLine_literal, IsExpression.literal_eq_append]
      exact hpassed

/-- The pieces of a line are those between the separators outside its literals. -/
theorem topLevelPieces_writtenLine (h : EndsNoEscape parts) (separator : Char) (depth : Int)
    (before : Option Char) :
    topLevelPieces separator ⟨depth, none, before⟩ (writtenLine parts) =
      piecesOutside separator depth parts := by
  induction parts generalizing depth before with
  | nil => rfl
  | cons part parts ih =>
    have ih := ih h.tail
    cases part with
    | code c hc =>
      have hcut : ((⟨depth, none, before⟩ : Nesting).isTop && !Nesting.isQuote c &&
          c == separator) = decide (depth = 0 ∧ c = separator) := by
        simp [isTop, isQuote_of_isUnquoted hc, beq_eq_decide]
      rw [writtenLine_code, piecesOutside]
      by_cases hat : depth = 0 ∧ c = separator
      · rw [topLevelPieces, hcut, if_pos (decide_eq_true hat), if_pos hat, ih]
      · rw [topLevelPieces_cons (by rw [hcut, decide_eq_false hat]), if_neg hat, step_code_part hc,
          ih]
    | literal q hq body =>
      obtain ⟨hquoted, hcloses, -⟩ := run_literal_part hq body depth before
      rw [writtenLine_literal, IsExpression.literal_eq_append, topLevelPieces_of_quoted hquoted,
        hcloses (h q hq body List.mem_cons_self), ih]
      rfl

/-- A target is found where it first stands outside the literals of a line. -/
theorem topLevelPositionFrom_writtenLine (h : EndsNoEscape parts) (target : Char) (depth : Int)
    (before : Option Char) :
    topLevelPositionFrom target ⟨depth, none, before⟩ (writtenLine parts) =
      positionOutside target depth before parts := by
  induction parts generalizing depth before with
  | nil => rfl
  | cons part parts ih =>
    have ih := ih h.tail
    cases part with
    | code c hc =>
      have hat : ((⟨depth, none, before⟩ : Nesting).isPlainTop c && c == target &&
            !(target == '=' && isOperatorPart ⟨depth, none, before⟩ (writtenLine parts))) = true ↔
          (depth = 0 ∧ c = target ∧ bracketChange c = 0) ∧
            ¬ (target = '=' ∧ isOperatorPart ⟨depth, none, before⟩ (writtenLine parts) = true) := by
        simp [isPlainTop, isTop, isQuote_of_isUnquoted hc, depthChange_eq_bracketChange hc]
        tauto
      rw [writtenLine_code, topLevelPositionFrom, positionOutside, step_code_part hc, ih]
      simp only [hat]
    | literal q hq body =>
      obtain ⟨hquoted, hcloses, -⟩ := run_literal_part hq body depth before
      rw [writtenLine_literal, IsExpression.literal_eq_append,
        topLevelPositionFrom_of_quoted hquoted, hcloses (h q hq body List.mem_cons_self), ih,
        length_literal]
      rfl

/-- If no literal ends in an escaped backslash, the scanners count outside literals. -/
theorem countsOutside_of_endsNoEscape (h : EndsNoEscape parts) : CountsOutside parts := by
  refine ⟨fun opener closer front rest hparts => ?_, fun separator => ?_, fun target => ?_⟩
  · have hrest : EndsNoEscape rest := fun q hq body hmem =>
      h q hq body (hparts ▸ List.mem_append_right front hmem)
    rw [hparts, writtenLine_append, closingBracket?, List.drop_left,
      closingFrom_writtenLine hrest]
  · rw [topLevelParts]
    exact congrArg (fun pieces => (pieces.map Text.trim).filter (!·.isEmpty))
      (topLevelPieces_writtenLine h separator 0 none)
  · exact topLevelPositionFrom_writtenLine h target 0 none

/-- Over a line that opens no comment, stripping and the search for a comment agree on what is
quoted whatever its literals are. The scanners of brackets, separators and targets agree with them
exactly if no literal ends in an escaped backslash, and then they count outside literals. -/
theorem scanners_agree (parts : List LinePart) (h : OpensNoComment parts) :
    CommentRules.slash.strip [writtenLine parts] = [keptLine parts] ∧
    CommentRules.slash.lineCommentAt? (writtenLine parts) = none ∧
    (∀ front, front <+: writtenLine parts → front.getLast? ≠ some '/' →
      CommentRules.slash.lineCommentAt? (front ++ ['/', '/']) =
        if (CommentRules.slash.stripFrom 0 .code front).2.openQuote?.isSome then none
        else some front.length) ∧
    ((∀ front, front <+: writtenLine parts →
      (start.run front).quote = (CommentRules.slash.stripFrom 0 .code front).2.openQuote?) ↔
        EndsNoEscape parts) ∧
    (EndsNoEscape parts → CountsOutside parts) :=
  ⟨strip_writtenLine h, lineCommentAt?_writtenLine h, fun _ hfront => lineCommentAt?_front h hfront,
    quote_run_eq_iff h _ _, countsOutside_of_endsNoEscape⟩

/-- A call with a literal that has an escaped backslash and a parenthesis, and an assignment. -/
def callLine : List LinePart :=
  [.code '(' rfl, .literal '"' rfl [.escape '\\', .char ')' (by decide) (by decide)],
    .code ',' rfl, .code 'a' rfl, .code ')' rfl, .code ',' rfl, .code 'b' rfl, .code '=' rfl,
    .code '1' rfl]

theorem scanners_agree_callLine :
    OpensNoComment callLine ∧ EndsNoEscape callLine ∧
    writtenLine callLine = "(\"\\\\)\",a),b=1".toList ∧
    CommentRules.slash.strip [writtenLine callLine] = ["(\"\",a),b=1".toList] ∧
    closingBracket? '(' ')' (writtenLine callLine) 0 = some 8 ∧
    topLevelParts ',' (writtenLine callLine) = ["(\"\\\\)\",a)".toList, "b=1".toList] ∧
    topLevelPosition? '=' (writtenLine callLine) = some 11 := by
  have hcomment : OpensNoComment callLine := by
    simp only [callLine, OpensNoComment, and_true]
    refine ⟨?_, ?_, ?_, ?_, ?_, ?_, ?_, ?_⟩ <;>
      exact CommentRules.not_opensComment_of_ne (by decide) _
  have hends : EndsNoEscape callLine := by
    intro q hq body hmem hends
    simp only [callLine, List.mem_cons, List.not_mem_nil, reduceCtorEq, false_or,
      or_false] at hmem
    cases hmem
    simp [EndsEscaped] at hends
  obtain ⟨hstrip, -, -, -, hcounts⟩ := scanners_agree callLine hcomment
  have hcount := hcounts hends
  have hclosing := hcount.closing '(' ')' [] callLine rfl
  have hpieces := hcount.pieces ','
  have hposition := hcount.position '='
  refine ⟨hcomment, hends, rfl, hstrip, hclosing.trans rfl, hpieces.trans ?_, hposition.trans rfl⟩
  decide

/-- The scanners do not always count outside literals: in `("\\")` the quote behind the escaped
backslash closes nothing for them, so the parenthesis stays open. -/
theorem not_forall_countsOutside :
    ¬ ∀ parts : List LinePart, OpensNoComment parts → CountsOutside parts := by
  intro h
  have hcomment : OpensNoComment
      [.code '(' rfl, .literal '"' rfl [.escape '\\'], .code ')' rfl] :=
    ⟨CommentRules.not_opensComment_of_ne (by decide) _,
      CommentRules.not_opensComment_of_ne (by decide) _, trivial⟩
  have hclosing := (h _ hcomment).closing '(' ')' [] _ rfl
  have hfound : closingBracket? '(' ')' "(\"\\\\\")".toList 0 = none := rfl
  have hcounted : closingOutside '(' ')' 0
      [.code '(' rfl, .literal '"' rfl [.escape '\\'], .code ')' rfl] = some 5 := rfl
  have hsome : none = some 5 := hfound.symm.trans (hclosing.trans (congrArg _ hcounted))
  cases hsome

end LinePart

end SourceSurvey
