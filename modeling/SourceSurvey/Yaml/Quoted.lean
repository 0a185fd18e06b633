import SourceSurvey.Number.Reading
import SourceSurvey.Yaml.Place

/-!
# Quoted scalars

Between single quotes a quote is written twice. Between double quotes a backslash begins an escape.
In both a line end with the blanks around it counts as one blank, and further line ends count as
they are.
-/

namespace SourceSurvey.Yaml.Quoted

/-- The characters that stand for one character after a backslash. -/
def escapes : List (Char × Char) := [
    ('0', '\x00'), ('a', '\x07'), ('b', '\x08'), ('t', '\t'), ('\t', '\t'), ('n', '\n'),
    ('v', '\x0b'), ('f', '\x0c'), ('r', '\r'), ('e', '\x1b'), (' ', ' '), ('"', '"'),
    ('\\', '\\'), ('/', '/'), ('N', '\u0085'), ('_', '\u00a0'), ('L', '\u2028'),
    ('P', '\u2029')]

/-- How many hexadecimal digits follow a letter after a backslash. -/
def codeLength? (c : Char) : Option Nat :=
  match c with
  | 'x' => some 2
  | 'u' => some 4
  | 'U' => some 8
  | _ => none

/-- The number that hexadecimal digits write. -/
def hexValue? (digits : List Char) : Option Nat :=
  (digits.mapM Number.hexDigit?).map (Number.ofDigits 16)

/-- The line ends at the start of a line, with the blanks between them, and the place after them. No
document mark may stand in a quoted scalar. The bound is on the number of line ends. -/
def breaks : Nat → Place → Except DocumentProblem (List Char × Place)
  | 0, _ => .error .malformed
  | n + 1, p =>
    if p.hasDocumentMark then .error .malformed
    else
      let q := p.skipWhile fun c => c == ' ' || c == '\t'
      match q.lineBreak? with
      | none => .ok ([], q)
      | some (c, after) => do
        let (cs, last) ← breaks n after
        return (c :: cs, last)

/-- Blanks and line ends inside a quoted scalar, as they count, and the place after them. -/
def folded (p : Place) : Except DocumentProblem (List Char × Place) :=
  let (blanks, q) := p.takeWhile fun c => c == ' ' || c == '\t'
  match q.lineBreak? with
  | none => if q.rest.isEmpty then .error .malformed else .ok (blanks, q)
  | some (c, after) => do
    let (cs, last) ← breaks (after.rest.length + 1) after
    let first := if c != '\n' then [c] else if cs.isEmpty then [' '] else []
    return (first ++ cs, last)

/-- What an escape stands for, from the place after its backslash, and the place after it. -/
def escape (p : Place) : Except DocumentProblem (List Char × Place) :=
  match p.next? with
  | none => .error .malformed
  | some c =>
    match escapes.lookup c, codeLength? c with
    | some plain, _ => .ok ([plain], p.step)
    | none, some count =>
      let digits := p.step.rest.take count
      match hexValue? digits with
      | none => .error .malformed
      | some code =>
        if digits.length < count then .error .malformed
        else if 0x7FFFFFFF < code then .error (.fault .tooLarge)
        else if 0x10FFFF < code then .error (.fault .meaningless)
        else
          let char := if code.isValidChar then Char.ofNat code else '\uFFFD'
          .ok ([char], p.forward (count + 1))
    | none, none =>
      match p.lineBreak? with
      | none => .error .malformed
      | some (_, after) => breaks (after.rest.length + 1) after

/-- The rest of a scalar in single quotes after its opening quote, and the place after its closing
one. Every step takes a character. -/
def singleUpTo : Nat → Place → Except DocumentProblem (List Char × Place)
  | 0, _ => .error .malformed
  | n + 1, p =>
    match p.rest with
    | [] => .error .malformed
    | '\'' :: '\'' :: _ => do
      let (cs, last) ← singleUpTo n (p.forward 2)
      return ('\'' :: cs, last)
    | '\'' :: _ => .ok ([], p.step)
    | c :: _ => do
      let (cs, after) ← if separates (some c) then folded p else .ok ([c], p.step)
      let (more, last) ← singleUpTo n after
      return (cs ++ more, last)

/-- The rest of a scalar in double quotes after its opening quote, and the place after its closing
one. Every step takes a character. -/
def doubleUpTo : Nat → Place → Except DocumentProblem (List Char × Place)
  | 0, _ => .error .malformed
  | n + 1, p =>
    match p.rest with
    | [] => .error .malformed
    | '"' :: _ => .ok ([], p.step)
    | c :: _ => do
      let (cs, after) ←
        if separates (some c) then folded p
        else if c == '\\' then escape p.step
        else .ok ([c], p.step)
      let (more, last) ← doubleUpTo n after
      return (cs ++ more, last)

/-- The scalar in quotes that begins at a place, and the place after it. -/
def scan (p : Place) : Except DocumentProblem (List Char × Place) :=
  let inside := p.step
  if p.next? == some '\'' then singleUpTo (inside.rest.length + 1) inside
  else doubleUpTo (inside.rest.length + 1) inside

end SourceSurvey.Yaml.Quoted
