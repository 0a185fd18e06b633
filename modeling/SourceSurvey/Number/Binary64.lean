/-!
# Binary floating-point numbers

Numbers of the 64-bit binary format as exact values: a sign, a whole mantissa and a power of two.
Conversions round to the nearest number, a tie to the even mantissa.
-/

namespace SourceSurvey

/-- A 64-bit binary floating-point number. A finite one is its mantissa times two to its exponent;
the mantissa has 53 bits unless the exponent is the least one. -/
inductive Binary64 where
  | nan
  | infinite (negative : Bool)
  | finite (negative : Bool) (mantissa : Nat) (exponent : Int)
deriving Repr, DecidableEq, Inhabited

namespace Binary64

attribute [local instance (high)] instPowNat

/-- How many bits a mantissa has, unless the exponent is the least one. -/
def mantissaBits : Nat := 53

/-- The least exponent of a finite number. -/
def minExponent : Int := -1074

/-- The greatest exponent of a finite number. -/
def maxExponent : Int := 971

/-- A quotient rounded to the nearest whole number, a tie to the even one. -/
def roundQuotient (num den : Nat) : Nat :=
  let q := num / den
  let r := num % den
  if den < 2 * r || (2 * r == den && q % 2 == 1) then q + 1 else q

/-- The exponent at which the quotient of two positive numbers has a mantissa of 53 bits, but not
below the least exponent. -/
def exponentOf (num den : Nat) : Int :=
  let n : Int := num.log2
  let d : Int := den.log2
  -- the quotient lies strictly between two to `n - d - 1` and two to `n - d + 1`
  let reaches :=
    if d ≤ n then den * 2 ^ (n - d).toNat ≤ num else den ≤ num * 2 ^ (d - n).toNat
  max (if reaches then n - d - 52 else n - d - 53) minExponent

/-- The number nearest to a quotient of a sign. -/
def ofRatio (negative : Bool) (num den : Nat) : Binary64 :=
  if num = 0 then .finite negative 0 minExponent
  else
    let e := exponentOf num den
    let m :=
      if 0 ≤ e then roundQuotient num (den * 2 ^ e.toNat)
      else roundQuotient (num * 2 ^ (-e).toNat) den
    let (m, e) := if m = 2 ^ mantissaBits then (2 ^ (mantissaBits - 1), e + 1) else (m, e)
    if maxExponent < e then .infinite negative else .finite negative m e

/-- How many decimal digits a number has. -/
def digitCount (n : Nat) : Nat :=
  (Nat.toDigits 10 n).length

/-- The number nearest to a decimal: its digits times ten to an exponent. Decimals beyond the range
of the format are decided by their magnitude. -/
def ofDecimal (negative : Bool) (digits : Nat) (exponent : Int) : Binary64 :=
  if digits = 0 then .finite negative 0 minExponent
  else
    let magnitude := exponent + digitCount digits
    if 400 < magnitude then .infinite negative
    else if magnitude < -400 then .finite negative 0 minExponent
    else if 0 ≤ exponent then ofRatio negative (digits * 10 ^ exponent.toNat) 1
    else ofRatio negative digits (10 ^ (-exponent).toNat)

/-- The number nearest to a whole number. -/
def ofNat (n : Nat) : Binary64 :=
  ofRatio false n 1

/-- A finite number as a quotient. -/
def toRatio (negative : Bool) (mantissa : Nat) (exponent : Int) : Int × Nat :=
  let signed : Int := if negative then -mantissa else mantissa
  if 0 ≤ exponent then (signed * 2 ^ exponent.toNat, 1) else (signed, 2 ^ (-exponent).toNat)

/-- The number nearest to a quotient with a sign of its own; the given sign is that of zero. -/
def ofSignedRatio (zeroNegative : Bool) (num : Int) (den : Nat) : Binary64 :=
  if num = 0 then .finite zeroNegative 0 minExponent
  else ofRatio (num < 0) num.natAbs den

/-- The sum, rounded. -/
def add : Binary64 → Binary64 → Binary64
  | .nan, _ => .nan
  | _, .nan => .nan
  | .infinite s, .infinite t => if s == t then .infinite s else .nan
  | .infinite s, _ => .infinite s
  | _, .infinite t => .infinite t
  | .finite s m e, .finite t n f =>
    let (a, b) := toRatio s m e
    let (c, d) := toRatio t n f
    ofSignedRatio (s && t) (a * d + c * b) (b * d)

/-- The product with a whole number, rounded. -/
def mulNat : Binary64 → Nat → Binary64
  | .nan, _ => .nan
  | .infinite s, k => if k = 0 then .nan else .infinite s
  | .finite s m e, k =>
    let (a, b) := toRatio s m e
    ofSignedRatio s (a * k) b

/-- The number with its sign turned. -/
def neg : Binary64 → Binary64
  | .nan => .nan
  | .infinite s => .infinite !s
  | .finite s m e => .finite (!s) m e

/-- The number is less than a whole number. -/
def ltInt : Binary64 → Int → Bool
  | .nan, _ => false
  | .infinite s, _ => s
  | .finite s m e, k => let (a, b) := toRatio s m e; a < k * b

/-- The number is greater than a whole number. -/
def gtInt : Binary64 → Int → Bool
  | .nan, _ => false
  | .infinite s, _ => !s
  | .finite s m e, k => let (a, b) := toRatio s m e; k * b < a

/-- The number equals a whole number. -/
def eqInt : Binary64 → Int → Bool
  | .finite s m e, k => let (a, b) := toRatio s m e; a == k * b
  | _, _ => false

/-- Two numbers are equal: not-a-number equals nothing, and both zeros are one. -/
def eqNumber : Binary64 → Binary64 → Bool
  | .infinite s, .infinite t => s == t
  | .finite s m e, .finite t n f =>
    let (a, b) := toRatio s m e
    let (c, d) := toRatio t n f
    a * d == c * b
  | _, _ => false

/-- The number is zero. -/
def isZero : Binary64 → Bool
  | .finite _ 0 _ => true
  | _ => false

end Binary64

end SourceSurvey
