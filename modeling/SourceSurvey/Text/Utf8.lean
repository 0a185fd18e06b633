/-!
# Text from bytes

Reading bytes as UTF-8. Bytes that are no text count once for every longest start of a character
that they break off.
-/

namespace SourceSurvey.Text

/-- A byte that continues a character. -/
def isContinuation (b : UInt8) : Bool :=
  0x80 ≤ b && b ≤ 0xBF

/-- The six bits that a continuation adds. -/
def continued (n : Nat) (b : UInt8) : Nat :=
  n * 64 + (b.toNat - 0x80)

/-- The least and the greatest second byte after the first byte of three. -/
def secondOfThree (b : UInt8) : UInt8 × UInt8 :=
  if b == 0xE0 then (0xA0, 0xBF) else if b == 0xED then (0x80, 0x9F) else (0x80, 0xBF)

/-- The least and the greatest second byte after the first byte of four. -/
def secondOfFour (b : UInt8) : UInt8 × UInt8 :=
  if b == 0xF0 then (0x90, 0xBF) else if b == 0xF4 then (0x80, 0x8F) else (0x80, 0xBF)

/-- The characters that bytes write, with nothing for every part that writes none. -/
def decode : List UInt8 → List (Option Char)
  | [] => []
  | b :: bs =>
    if b < 0x80 then some (Char.ofNat b.toNat) :: decode bs
    else if 0xC2 ≤ b && b ≤ 0xDF then
      match bs with
      | c :: cs =>
        if isContinuation c then
          some (Char.ofNat (continued (b.toNat - 0xC0) c)) :: decode cs
        else none :: decode (c :: cs)
      | [] => [none]
    else if 0xE0 ≤ b && b ≤ 0xEF then
      let (least, greatest) := secondOfThree b
      match bs with
      | c :: cs =>
        if least ≤ c && c ≤ greatest then
          match cs with
          | d :: ds =>
            if isContinuation d then
              some (Char.ofNat (continued (continued (b.toNat - 0xE0) c) d)) :: decode ds
            else none :: decode (d :: ds)
          | [] => [none]
        else none :: decode (c :: cs)
      | [] => [none]
    else if 0xF0 ≤ b && b ≤ 0xF4 then
      let (least, greatest) := secondOfFour b
      match bs with
      | c :: cs =>
        if least ≤ c && c ≤ greatest then
          match cs with
          | d :: ds =>
            if isContinuation d then
              match ds with
              | e :: es =>
                if isContinuation e then
                  some (Char.ofNat (continued (continued (continued (b.toNat - 0xF0) c) d) e)) ::
                    decode es
                else none :: decode (e :: es)
              | [] => [none]
            else none :: decode (d :: ds)
          | [] => [none]
        else none :: decode (c :: cs)
      | [] => [none]
    else none :: decode bs

/-- The text that bytes write, if they write one. -/
def decodeStrict? (bytes : List UInt8) : Option (List Char) :=
  (decode bytes).mapM id

/-- The text that bytes write, with a replacement character for every part that writes none. -/
def decodeReplacing (bytes : List UInt8) : List Char :=
  (decode bytes).map (·.getD '\uFFFD')

end SourceSurvey.Text
