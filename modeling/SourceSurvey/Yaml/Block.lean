import SourceSurvey.Yaml.Place

/-!
# Block scalars

Literal and folded scalars: the lines below a header that are indented more than what is around
them. The header says which line ends at the end are kept and may give the indentation.
-/

namespace SourceSurvey.Yaml.Block

/-- Which line ends at the end of a scalar are kept. -/
inductive Chomping where
  | strip | clip | keep
deriving Repr, DecidableEq

/-- The header of a scalar after its first sign. -/
structure Header where
  chomping : Chomping
  increment : Option Nat
deriving Repr, DecidableEq

/-- A sign that says which line ends are kept. -/
def chomping? (c : Option Char) : Option Chomping :=
  match c with
  | some '+' => some .keep
  | some '-' => some .strip
  | _ => none

/-- An indentation from one to nine; zero is refused. -/
def increment? (c : Option Char) : Except DocumentProblem (Option Nat) :=
  match c with
  | some d =>
    if d == '0' then .error .malformed
    else if '1' ≤ d && d ≤ '9' then .ok (some (d.toNat - '0'.toNat))
    else .ok none
  | none => .ok none

/-- The header at a place, and the start of the next line. -/
def header (p : Place) : Except DocumentProblem (Header × Place) := do
  let (h, q) ← match chomping? p.next? with
    | some c => do
      let q := p.step
      let n ← increment? q.next?
      pure (⟨c, n⟩, if n.isSome then q.step else q)
    | none => do
      match ← increment? p.next? with
      | none => pure (⟨.clip, none⟩, p)
      | some n =>
        let q := p.step
        match chomping? q.next? with
        | some c => pure (⟨c, some n⟩, q.step)
        | none => pure ((⟨.clip, some n⟩ : Header), q)
  if !endsWord q.next? then .error .malformed
  else
    let last := q.skipBlanks.skipNote
    if !endsLine last.next? then .error .malformed
    else return (h, ((last.lineBreak?).map (·.2)).getD last)

/-- Empty lines before the first line of a scalar, the greatest indentation among them and that
line, and the place after it. The bound is on the number of lines. -/
def leading (most : Nat) : Nat → Place → List Char × Nat × Place
  | 0, p => ([], most, p)
  | n + 1, p =>
    let q := p.skipBlanks
    let most := max most q.column
    match q.lineBreak? with
    | none => ([], most, q)
    | some (c, after) =>
      let (cs, found, last) := leading most n after
      (c :: cs, found, last)

/-- The place after at most so many blanks that it is not beyond a column. -/
def indentTo (column : Nat) (p : Place) : Place :=
  p.forward (min (column - p.column) (p.rest.takeWhile (· == ' ')).length)

/-- Empty lines between lines of a scalar, and the place after them. The bound is on the number of
lines. -/
def between (indent : Nat) : Nat → Place → List Char × Place
  | 0, p => ([], p)
  | n + 1, p =>
    let q := indentTo indent p
    match q.lineBreak? with
    | none => ([], q)
    | some (c, after) =>
      let (cs, last) := between indent n after
      (c :: cs, last)

/-- A blank or a tab. -/
def isBlank (c : Option Char) : Bool :=
  c == some ' ' || c == some '\t'

/-- The lines of a scalar after some line ends, with the line ends after the last one apart: that of
the last line and those of the empty lines below it. The bound is on the number of lines. -/
def linesUpTo (isFolded : Bool) (indent : Nat) (before : List Char) (last : List Char) :
    Nat → Place → List Char × List Char × List Char × Place
  | 0, p => ([], last, before, p)
  | n + 1, p =>
    if p.column != indent || p.rest.isEmpty then ([], last, before, p)
    else
      let (text, q) := p.takeWhile (!isBreak ·)
      let (ending, after) := match q.lineBreak? with
        | some (c, r) => ([c], r)
        | none => ([], q)
      let (empties, r) := between indent (after.rest.length + 1) after
      let goesOn := r.column == indent && !r.rest.isEmpty
      let joint :=
        if !goesOn then []
        else if isFolded && ending == ['\n'] && !isBlank p.next? && !isBlank r.next? then
          if empties.isEmpty then [' '] else []
        else ending
      let (more, lastEnding, lastEmpties, final) :=
        linesUpTo isFolded indent empties ending n r
      (before ++ text ++ joint ++ more, lastEnding, lastEmpties, final)

/-- The scalar whose first sign stands at a place, and the place after it. The indentation is that
of what is around it. -/
def scan (isFolded : Bool) (around : Int) (p : Place) :
    Except DocumentProblem (List Char × Place) := do
  let (h, start) ← header p.step
  let least := max (around + 1).toNat 1
  let bound := start.rest.length + 1
  let (indent, empties, q) := match h.increment with
    | none =>
      let (cs, most, q) := leading 0 bound start
      (max least most, cs, q)
    | some n =>
      let indent := least + n - 1
      let (cs, q) := between indent bound start
      (indent, cs, q)
  let (text, ending, after, last) := linesUpTo isFolded indent empties [] bound q
  let tail := match h.chomping with
    | .strip => []
    | .clip => ending
    | .keep => ending ++ after
  return (text ++ tail, last)

end SourceSurvey.Yaml.Block
