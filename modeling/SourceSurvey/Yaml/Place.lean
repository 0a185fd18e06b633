import SourceSurvey.Failure

/-!
# Places in a YAML text

A place knows how far it is from the start of the text and from the start of its line. Line feeds,
next lines and the separators of Unicode end a line.
-/

namespace SourceSurvey.Yaml

/-- A character that ends a line. -/
def isBreak (c : Char) : Bool :=
  c == '\n' || c == '\r' || c == '\u0085' || c == '\u2028' || c == '\u2029'

/-- A character that ends a line and counts as a line feed. -/
def isPlainBreak (c : Char) : Bool :=
  c == '\n' || c == '\r' || c == '\u0085'

/-- The end of the text or of a line. -/
def endsLine (c : Option Char) : Bool :=
  c.all isBreak

/-- The end of the text or of a line, or a blank. -/
def endsWord (c : Option Char) : Bool :=
  c.all fun c => c == ' ' || isBreak c

/-- The end of the text or of a line, a blank or a tab. -/
def separates (c : Option Char) : Bool :=
  c.all fun c => c == ' ' || c == '\t' || isBreak c

/-- A place in a text. -/
structure Place where
  rest : List Char
  index : Nat := 0
  line : Nat := 0
  column : Nat := 0
deriving Inhabited

namespace Place

/-- The next character. -/
def next? (p : Place) : Option Char :=
  p.rest.head?

/-- The character so many places further on. -/
def ahead? (p : Place) (n : Nat) : Option Char :=
  p.rest[n]?

/-- The place after one character. -/
def step (p : Place) : Place :=
  match p.rest with
  | [] => p
  | c :: rest =>
    let endsHere := isBreak c && !(c == '\r' && rest.head? == some '\n')
    if endsHere then ⟨rest, p.index + 1, p.line + 1, 0⟩
    else ⟨rest, p.index + 1, p.line, if c == '\uFEFF' then p.column else p.column + 1⟩

/-- The place after so many characters. -/
def forward : Nat → Place → Place
  | 0, p => p
  | n + 1, p => forward n p.step

/-- The characters of a class at the place, and the place after them. -/
def takeWhile (f : Char → Bool) (p : Place) : List Char × Place :=
  let taken := p.rest.takeWhile f
  (taken, p.forward taken.length)

/-- The place after the characters of a class. -/
def skipWhile (f : Char → Bool) (p : Place) : Place :=
  (p.takeWhile f).2

/-- The place after blanks. -/
def skipBlanks (p : Place) : Place :=
  p.skipWhile (· == ' ')

/-- The place after a note, if there is one. -/
def skipNote (p : Place) : Place :=
  if p.next? == some '#' then p.skipWhile (!isBreak ·) else p

/-- A line end at the place, as it counts in a text, and the place after it. -/
def lineBreak? (p : Place) : Option (Char × Place) :=
  match p.rest with
  | '\r' :: '\n' :: _ => some ('\n', p.forward 2)
  | c :: _ =>
    if isPlainBreak c then some ('\n', p.step) else if isBreak c then some (c, p.step) else none
  | [] => none

/-- Three equal signs that begin or end a document stand here. -/
def hasMark (sign : Char) (p : Place) : Bool :=
  match p.rest with
  | a :: b :: c :: rest => a == sign && b == sign && c == sign && separates rest.head?
  | _ => false

/-- The start or the end of a document is marked here. -/
def hasDocumentMark (p : Place) : Bool :=
  p.hasMark '-' || p.hasMark '.'

end Place

/-- A character that a text may hold. -/
def isPrintable (c : Char) : Bool :=
  let n := c.toNat
  n == 9 || n == 10 || n == 13 || (0x20 ≤ n && n ≤ 0x7E) || n == 0x85 ||
    (0xA0 ≤ n && n ≤ 0xD7FF) || (0xE000 ≤ n && n ≤ 0xFFFD) || 0x10000 ≤ n

end SourceSurvey.Yaml
