import SourceSurvey.Text.Table.Alphanumeric
import SourceSurvey.Text.Table.Identifier
import SourceSurvey.Text.Table.LetterCase

/-!
# Character classes

The classes every scanner of this library reads by: blanks, digits, word characters and
identifier characters. ASCII characters are decided by comparison, all others by the tables of
Unicode 14.
-/

namespace SourceSurvey.Text

/-- A code point lies in one of the ranges, ends included. -/
def inRanges (ranges : List (Nat × Nat)) (code : Nat) : Bool :=
  ranges.any fun (first, last) => first ≤ code && code ≤ last

/-- A code point is met by one of the stepped ranges. -/
def inSteppedRanges (ranges : List (Nat × Nat × Nat)) (code : Nat) : Bool :=
  ranges.any fun (first, last, step) =>
    first ≤ code && code ≤ last && (code - first) % step == 0

/-- White space: the line and information separators included, zero-width characters not. -/
def isSpace (c : Char) : Bool :=
  let n := c.toNat
  if n < 128 then (9 ≤ n && n ≤ 13) || (28 ≤ n && n ≤ 32)
  else n == 0x85 || n == 0xA0 || n == 0x1680 || (0x2000 ≤ n && n ≤ 0x200A) || n == 0x2028 ||
    n == 0x2029 || n == 0x202F || n == 0x205F || n == 0x3000

/-- A decimal digit of any script. -/
def isDigit (c : Char) : Bool :=
  if c.toNat < 128 then '0' ≤ c && c ≤ '9' else inRanges Table.decimalDigit c.toNat

/-- A letter or a numeral of any script. -/
def isAlphanumeric (c : Char) : Bool :=
  if c.toNat < 128 then c.isAlphanum else inRanges Table.alphanumeric c.toNat

/-- A letter, a numeral or the underscore. -/
def isWord (c : Char) : Bool :=
  isAlphanumeric c || c == '_'

/-- A word character or the dollar sign: what names of all surveyed languages are made of. -/
def isNameChar (c : Char) : Bool :=
  isWord c || c == '$'

/-- A character that may begin an identifier. -/
def isIdentifierStart (c : Char) : Bool :=
  if c.toNat < 128 then c.isAlpha || c == '_' else inRanges Table.identifierStart c.toNat

/-- A character that may stand in an identifier after its first one. -/
def isIdentifierPart (c : Char) : Bool :=
  if c.toNat < 128 then c.isAlphanum || c == '_'
  else inRanges Table.identifierStart c.toNat || inRanges Table.identifierExtra c.toNat

/-- An upper-case character. -/
def isUpper (c : Char) : Bool :=
  if c.toNat < 128 then 'A' ≤ c && c ≤ 'Z' else inSteppedRanges Table.upperCase c.toNat

/-- An identifier: a character that may begin one, then characters that may continue one. -/
def isIdentifier : List Char → Bool
  | [] => false
  | c :: cs => isIdentifierStart c && cs.all isIdentifierPart

end SourceSurvey.Text
