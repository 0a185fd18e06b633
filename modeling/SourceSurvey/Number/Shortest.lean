import SourceSurvey.Number.Binary64

/-!
# Shortest decimals

The decimal of fewest digits that rounds back to a floating-point number, and its written form.
-/

namespace SourceSurvey.Binary64

attribute [local instance (high)] instPowNat

/-- The decimals that round to a positive number, as quotients with one divisor: the least, the
number itself and the greatest. -/
def roundingInterval (mantissa : Nat) (exponent : Int) : Nat × Nat × Nat × Nat :=
  let e := exponent - 2
  let lowStep := if mantissa = 2 ^ (mantissaBits - 1) && minExponent < exponent then 1 else 2
  let scale := fun n => if 0 ≤ e then n * 2 ^ e.toNat else n
  let den := if 0 ≤ e then 1 else 2 ^ (-e).toNat
  (scale (4 * mantissa - lowStep), scale (4 * mantissa), scale (4 * mantissa + 2), den)

/-- Compares a quotient with ten to a power: it is less. -/
def ltPowTen (num den : Nat) (p : Int) : Bool :=
  if 0 ≤ p then num < den * 10 ^ p.toNat else num * 10 ^ (-p).toNat < den

/-- The first power of ten from `p` on that exceeds a quotient. -/
def powTenAbove (num den : Nat) : Nat → Int → Int
  | 0, p => p
  | n + 1, p => if ltPowTen num den p then p else powTenAbove num den n (p + 1)

/-- The place of the decimal point: the least power of ten that exceeds the quotient. -/
def pointOf (num den : Nat) : Int :=
  let bits : Int := (num.log2 : Int) - den.log2
  powTenAbove num den 4 ((bits - 1) * 30103 / 100000 - 1)

/-- A decimal of so many digits before ten to a power lies in the rounding interval. -/
def roundsBack (isEven : Bool) (low high den : Nat) (digits : Nat) (power : Int) : Bool :=
  let (num, div) :=
    if 0 ≤ power then (digits * 10 ^ power.toNat, 1) else (digits, 10 ^ (-power).toNat)
  let x := num * den
  let lo := low * div
  let hi := high * div
  if isEven then lo ≤ x && x ≤ hi else lo < x && x < hi

/-- The digits of the best decimal with so many digits, if one rounds back. Of two neighbours the
nearer one is taken, in a tie the even one. -/
def candidate? (isEven : Bool) (low value high den : Nat) (power : Int) : Option Nat :=
  let (num, div) := if 0 ≤ power then (value, den * 10 ^ power.toNat)
    else (value * 10 ^ (-power).toNat, den)
  let below := num / div
  let rest := num % div
  let fits := fun d => roundsBack isEven low high den d power
  match fits below, fits (below + 1) with
  | true, true =>
    if 2 * rest < div || (2 * rest == div && below % 2 == 0) then some below else some (below + 1)
  | true, false => some below
  | false, true => some (below + 1)
  | false, false => none

/-- The shortest decimal with at least `count` digits: its digits and its power of ten. -/
def shortestFrom (isEven : Bool) (low value high den : Nat) (point : Int) :
    Nat → Nat → Nat × Int
  | 0, count => (value / den, point - count)
  | n + 1, count =>
    match candidate? isEven low value high den (point - count) with
    | some digits => (digits, point - count)
    | none => shortestFrom isEven low value high den point n (count + 1)

/-- The shortest decimal that rounds back to a positive number: its digits and its power of ten. -/
def shortest (mantissa : Nat) (exponent : Int) : Nat × Int :=
  let (low, value, high, den) := roundingInterval mantissa exponent
  shortestFrom (mantissa % 2 == 0) low value high den (pointOf value den) 17 1

/-- Digits without zeros at their end, with the power of ten that belongs to them. -/
def dropZeros : Nat → Nat × Int → Nat × Int
  | 0, d => d
  | n + 1, (digits, power) =>
    if digits % 10 == 0 && digits != 0 then dropZeros n (digits / 10, power + 1)
    else (digits, power)

/-- Digits with a decimal point `point` places from their start, positional if the point is near and
with an exponent of at least two digits otherwise. -/
def written (digits : List Char) (point : Int) : List Char :=
  let count : Int := digits.length
  if -4 < point && point ≤ 16 then
    if point ≤ 0 then '0' :: '.' :: List.replicate (-point).toNat '0' ++ digits
    else if count ≤ point then digits ++ List.replicate (point - count).toNat '0' ++ ['.', '0']
    else digits.take point.toNat ++ '.' :: digits.drop point.toNat
  else
    let e := point - 1
    let exponent := Nat.toDigits 10 e.natAbs
    let padded := if exponent.length < 2 then '0' :: exponent else exponent
    let fraction := match digits.drop 1 with
      | [] => []
      | ds => '.' :: ds
    digits.take 1 ++ fraction ++ 'e' :: (if e < 0 then '-' else '+') :: padded

/-- The shortest text that reads back as the number. -/
def toText : Binary64 → String
  | .nan => "nan"
  | .infinite negative => if negative then "-inf" else "inf"
  | .finite negative mantissa exponent =>
    let body :=
      if mantissa = 0 then "0.0".toList
      else
        let (digits, power) := dropZeros 20 (shortest mantissa exponent)
        let ds := Nat.toDigits 10 digits
        written ds (ds.length + power)
    String.ofList (if negative then '-' :: body else body)

end SourceSurvey.Binary64
