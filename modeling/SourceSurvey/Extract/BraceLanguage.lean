import SourceSurvey.Extract.Statement

/-!
# Files of brace languages

What the extractors of languages with brace bodies share: the members of a type body, the branches
of a body and the lines that guard against failure.
-/

namespace SourceSurvey.Extract

open Pattern

attribute [local instance (high)] Zero.ofOfNat0

/-- The places of a type body with the brace depth at the start of each line; the depth counts from
the line of the type's header, which is the first place. -/
def withDepths (depth : Int) : List Place → List (Int × Place)
  | [] => []
  | p :: ps => (depth, p) :: withDepths (depth + openBraces p.code - closeBraces p.code) ps

/-- The places from a type's header to the end of its body, with the brace depth at the start of
each line. -/
def bodyWithDepths (p : Place) : List (Int × Place) :=
  withDepths 0 (p :: p.following.take p.braceExtent)

/-- What the lines of a type body declare, a method and attributes each. The header line declares no
method. -/
def membersOfBody (assignedSlots : Line → List Slot)
    (membersAt : Int → Place → Option Routine × List Slot) (p : Place) :
    List (Option Routine × List Slot) :=
  match bodyWithDepths p with
  | [] => []
  | header :: body =>
    (none, assignedSlots header.2.code) :: body.map fun (depth, q) => membersAt depth q

/-- The places of a file with the brace depth at the start of each line. -/
def placesWithDepths (ps : List Place) : List (Nat × Place) :=
  (depthsOfLines (ps.map (·.code))).zip ps

/-- The code of a line without closing braces before it. -/
def branchText (code : Line) : List Char :=
  Text.trim ((Text.trim code).dropWhile (· == '\x7d'))

/-- Branch constructs of some lines: one for a line that begins with one, and one for a line with a
conditional expression. -/
def branchCount (start conditional : Pattern Unit) (code : List Line) : Nat :=
  (code.map fun line =>
    let text := branchText line
    (if start.matches? text then 1 else 0) +
      (if !text.isEmpty && conditional.occursIn (' ' :: text) then 1 else 0)).sum

/-- A line that guards or handles. -/
def guardStart : Pattern Unit := do
  let _ ← opt (lit "\x7d")
  blanks
  let _ ← oneOf ["try", "catch"]
  wordBoundary

/-- Any number of these words, each followed by blanks. -/
def modifierWords (words : List String) : Pattern (List String) :=
  many do
    let w ← oneOf words
    blanks1
    return w

/-- A word and blanks, or nothing. -/
def optWord (w : String) : Pattern Bool := do
  let found ← opt (do lit w; blanks1)
  return found.isSome

/-- The text between the parenthesis that opens at or after a position and the one that closes it,
with the text after that. -/
def parenthesised? (header : List Char) (start : Nat) : Option (List Char × List Char) := do
  let opening ← Text.findFrom? ['('] header start
  let closing ← closingParen? header opening
  return ((header.take closing).drop (opening + 1), header.drop (closing + 1))

/-- The position just after the first mention of a name in a header. When the header does not
mention it, the position counts from one before the start. -/
def afterName (header name : List Char) : Nat :=
  match Text.find? name header with
  | some n => n + name.length
  | none => name.length - 1

/-- Lines of code that are not blank after stripping. -/
def countNonBlank (style : CommentRules) (lines : List Line) : Nat :=
  (style.strip lines).countP fun code => !Text.isBlank code

end SourceSurvey.Extract
