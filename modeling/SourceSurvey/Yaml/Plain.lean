import SourceSurvey.Yaml.Place

/-!
# Plain scalars

Scalars without quotes. They end before a note, before a colon that a blank follows, at the end of
their indentation and, inside brackets, at a bracket or a comma.
-/

namespace SourceSurvey.Yaml.Plain

/-- A sign that ends a scalar inside brackets. -/
def isFlowSign (c : Char) : Bool :=
  c == ',' || c == '?' || c == '[' || c == ']' || c == '\x7b' || c == '\x7d'

/-- The scalar ends before the first of these characters. -/
def endsAt (inFlow : Bool) : List Char → Bool
  | [] => true
  | c :: rest =>
    let afterColon := fun (d : Option Char) =>
      separates d || (inFlow && d.any fun d => d != '?' && isFlowSign d)
    separates (some c) || (c == ':' && afterColon rest.head?) || (inFlow && isFlowSign c)

/-- The characters of one word of a scalar. -/
def word (inFlow : Bool) : List Char → List Char
  | [] => []
  | c :: rest => if endsAt inFlow (c :: rest) then [] else c :: word inFlow rest

/-- Line ends after the first one, with the blanks around them, and the place after them; nothing if
a document mark follows one. The bound is on the number of characters. -/
def breaks : Nat → Place → List Char × Place × Bool
  | 0, p => ([], p, false)
  | n + 1, p =>
    if p.hasDocumentMark then ([], p, true)
    else
      let q := p.skipBlanks
      match q.lineBreak? with
      | none => ([], q, false)
      | some (c, after) =>
        let (cs, last, isMarked) := breaks n after
        (c :: cs, last, isMarked)

/-- The space after a word: as it counts before a further word, the place after it, and whether it
holds a line end. -/
def space (p : Place) : List Char × Place × Bool :=
  let (blanks, q) := p.takeWhile (· == ' ')
  match q.lineBreak? with
  | none => (blanks, q, false)
  | some (c, after) =>
    let (cs, last, isMarked) := breaks (after.rest.length + 1) after
    if isMarked then ([], last, true)
    else ((if c != '\n' then [c] else if cs.isEmpty then [' '] else []) ++ cs, last, true)

/-- The words of a scalar from a place on, after the space before them, the place after them and
whether a line end stands before that place. The bound is on the number of words. -/
def wordsUpTo (inFlow : Bool) (indent : Int) (before : List Char) (broken : Bool) :
    Nat → Place → List Char × Place × Bool
  | 0, p => ([], p, broken)
  | n + 1, p =>
    if p.next? == some '#' then ([], p, broken)
    else
      match word inFlow p.rest with
      | [] => ([], p, broken)
      | w =>
        let (after, q, isBroken) := space (p.forward w.length)
        let stops := after.isEmpty || q.next? == some '#' || (!inFlow && q.column < indent)
        let (more, last, lastBroken) :=
          if stops then ([], q, isBroken) else wordsUpTo inFlow indent after isBroken n q
        (before ++ w ++ more, last, lastBroken)

/-- The scalar that begins at a place, the place after it and whether a line end stands before that
place. -/
def scan (inFlow : Bool) (indent : Int) (p : Place) : List Char × Place × Bool :=
  wordsUpTo inFlow indent [] false (p.rest.length + 1) p

end SourceSurvey.Yaml.Plain
