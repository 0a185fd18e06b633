import SourceSurvey.Text.Table.LetterCase
import SourceSurvey.Text.Table.Sigma
import SourceSurvey.Text.CharClass

/-!
# Letter case

Lower and upper case of a text by the full mappings of Unicode, and the comparison of one
character with an ASCII letter that ignores case.
-/

namespace SourceSurvey.Text

/-- The shift of the first stepped range that meets the code point. -/
def shiftOf (shifts : List (Nat × Nat × Nat × Int)) (code : Nat) : Int :=
  match shifts.find? fun (first, last, step, _) =>
      first ≤ code && code ≤ last && (code - first) % step == 0 with
  | some (_, _, _, shift) => shift
  | none => 0

/-- The code point moved by its shift. -/
def shifted (shifts : List (Nat × Nat × Nat × Int)) (c : Char) : Char :=
  Char.ofNat ((c.toNat : Int) + shiftOf shifts c.toNat).toNat

/-- The lower case of one character, whatever stands around it. -/
def lowerChar (c : Char) : List Char :=
  if c.toNat < 128 then [c.toLower]
  else if c.toNat == 0x130 then ['i', Char.ofNat 0x307]
  else [shifted Table.lowerShifts c]

/-- The upper case of one character. -/
def upperChar (c : Char) : List Char :=
  if c.toNat < 128 then [c.toUpper]
  else match Table.upperSequences.find? fun (code, _) => code == c.toNat with
    | some (_, codes) => codes.map Char.ofNat
    | none => [shifted Table.upperShifts c]

/-- The first character met that is not skipped over is a cased one. -/
def meetsCased (chars : List Char) : Bool :=
  match chars.find? fun c => !inRanges Table.caseIgnorable c.toNat with
  | some c => inRanges Table.cased c.toNat
  | none => false

/-- Lower case of a text whose preceding characters are given nearest first. A capital sigma that
ends a word has the lower case of a final sigma. -/
def lowerAfter (before : List Char) : List Char → List Char
  | [] => []
  | c :: cs =>
    let here :=
      if c.toNat == 0x3A3 then
        if meetsCased before && !meetsCased cs then [Char.ofNat 0x3C2] else [Char.ofNat 0x3C3]
      else lowerChar c
    here ++ lowerAfter (c :: before) cs

/-- Lower case of a text. -/
def lower (text : List Char) : List Char :=
  lowerAfter [] text

/-- Upper case of a text. -/
def upper (text : List Char) : List Char :=
  text.flatMap upperChar

/-- A character equals a lower-case ASCII letter when case is ignored. Beside the two cases of the
letter these are the dotted and dotless i, the long s and the Kelvin sign. -/
def isLetterOfAnyCase (letter c : Char) : Bool :=
  c == letter || c.toLower == letter || (letter == 'i' && (c.toNat == 0x130 || c.toNat == 0x131)) ||
    (letter == 's' && c.toNat == 0x17F) || (letter == 'k' && c.toNat == 0x212A)

end SourceSurvey.Text
