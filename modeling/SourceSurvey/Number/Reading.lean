import SourceSurvey.Number.Binary64
import SourceSurvey.Text.LetterCase
import SourceSurvey.Text.Trim

/-!
# Numbers from text

Whole numbers of a base and decimals. Blanks may stand around a number, digits may be of any script
and single underscores may stand between digits.
-/

namespace SourceSurvey.Number

/-- How many decimal digits of a whole number are read at most. -/
def maxDigits : Nat := 4300

/-- The value of a decimal digit of any script. -/
def decimalDigit? (c : Char) : Option Nat :=
  let n := c.toNat
  if '0' ≤ c && c ≤ '9' then some (n - '0'.toNat)
  else match Text.Table.decimalDigit.find? fun (first, last) => first ≤ n && n ≤ last with
    | some (first, _) => some ((n - first) % 10)
    | none => none

/-- The value of a digit below a base. -/
def digit? (base : Nat) (c : Char) : Option Nat :=
  let n := c.toNat
  let value :=
    if 'a' ≤ c && c ≤ 'z' then some (n - 'a'.toNat + 10)
    else if 'A' ≤ c && c ≤ 'Z' then some (n - 'A'.toNat + 10)
    else decimalDigit? c
  value.filter (· < base)

/-- The value of a hexadecimal digit. -/
def hexDigit? (c : Char) : Option Nat :=
  if '0' ≤ c && c ≤ '9' then some (c.toNat - '0'.toNat)
  else if 'a' ≤ c && c ≤ 'f' then some (c.toNat - 'a'.toNat + 10)
  else if 'A' ≤ c && c ≤ 'F' then some (c.toNat - 'A'.toNat + 10)
  else none

/-- The digits of a text in which single underscores stand between digits. -/
def digitsBetween? (base : Nat) : List Char → Option (List Nat)
  | [] => none
  | [c] => (digit? base c).map ([·])
  | c :: '_' :: rest => do
    let d ← digit? base c
    return d :: (← digitsBetween? base rest)
  | c :: rest => do
    let d ← digit? base c
    return d :: (← digitsBetween? base rest)

/-- The number that digits write. -/
def ofDigits (base : Nat) (digits : List Nat) : Nat :=
  digits.foldl (fun n d => n * base + d) 0

/-- A sign at the start of a text, and whether it is a minus. -/
def sign : List Char → Bool × List Char
  | '-' :: rest => (true, rest)
  | '+' :: rest => (false, rest)
  | text => (false, text)

/-- The base that the mark after a zero stands for. -/
def baseOfMark? (c : Char) : Option Nat :=
  match c.toLower with
  | 'x' => some 16
  | 'o' => some 8
  | 'b' => some 2
  | _ => none

/-- The digits after the mark of a base; one underscore may stand before them. -/
def markedDigits? (base : Nat) : List Char → Option (List Nat)
  | '_' :: rest => digitsBetween? base rest
  | text => digitsBetween? base text

/-- The number that digits of a base write after an optional mark of that base. -/
def natural? (base : Nat) (text : List Char) : Option Nat :=
  let digits := match text with
    | '0' :: mark :: rest =>
      if baseOfMark? mark == some base then markedDigits? base rest else digitsBetween? base text
    | _ => digitsBetween? base text
  match digits with
  | some ds => if base == 10 && maxDigits < ds.length then none else some (ofDigits base ds)
  | none => none

/-- The whole number of a base that a text writes. -/
def whole? (base : Nat) (text : List Char) : Option Int :=
  let (negative, body) := sign (Text.trim text)
  (natural? base body).map fun n => if negative then -n else n

/-- The whole number that a text writes in the base that it marks, a decimal without a mark. A
decimal other than zero begins with no zero. -/
def wholeOfMarked? (text : List Char) : Option Int :=
  let (negative, body) := sign (Text.trim text)
  let value := match body with
    | '0' :: mark :: _ =>
      match baseOfMark? mark with
      | some base => natural? base body
      | none => (natural? 10 body).filter (· == 0)
    | _ => natural? 10 body
  value.map fun n => if negative then -n else n

/-- The text without underscores, if each of them stands between two digits. -/
def dropUnderscores? (previous : Option Char) : List Char → Option (List Char)
  | [] => some []
  | '_' :: rest =>
    let isDigit := fun (c : Option Char) => (c.bind decimalDigit?).isSome
    if isDigit previous && isDigit rest.head? then dropUnderscores? (some '_') rest else none
  | c :: rest => (dropUnderscores? (some c) rest).map (c :: ·)

/-- The digits at the start of a text. -/
def leadingDigits (text : List Char) : List Nat :=
  (text.takeWhile fun c => (decimalDigit? c).isSome).filterMap decimalDigit?

/-- The power of ten that the end of a decimal writes. -/
def exponent? : List Char → Option Int
  | [] => some 0
  | e :: rest =>
    if e == 'e' || e == 'E' then
      let (negative, body) := sign rest
      let digits := leadingDigits body
      if digits.isEmpty || digits.length != body.length then none
      else
        let n : Int := ofDigits 10 digits
        some (if negative then -n else n)
    else none

/-- The number that a decimal without a sign writes. -/
def unsignedDecimal? (negative : Bool) (text : List Char) : Option Binary64 :=
  let before := leadingDigits text
  let (after, rest) := match text.drop before.length with
    | '.' :: more =>
      let digits := leadingDigits more
      (digits, more.drop digits.length)
    | more => ([], more)
  if before.isEmpty && after.isEmpty then none
  else
    (exponent? rest).map fun power =>
      .ofDecimal negative (ofDigits 10 (before ++ after)) (power - after.length)

/-- The floating-point number that a text writes: a decimal or a word for infinity or for
not-a-number. -/
def real? (text : List Char) : Option Binary64 :=
  match dropUnderscores? none (Text.trim text) with
  | none => none
  | some plain =>
    let (negative, body) := sign plain
    match String.ofList (body.map Char.toLower) with
    | "inf" | "infinity" => some (.infinite negative)
    | "nan" => some .nan
    | _ => unsignedDecimal? negative body

end SourceSurvey.Number
