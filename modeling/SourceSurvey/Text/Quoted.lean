/-!
# Quoted texts

A text as a literal in messages: between single quotes, or between double quotes if it holds single
ones only.
-/

namespace SourceSurvey.Text

/-- The two hexadecimal digits of a code below 256. -/
def hexPair (n : Nat) : List Char :=
  let ds := Nat.toDigits 16 n
  List.replicate (2 - ds.length) '0' ++ ds

/-- A control character, which a literal shows by its code. -/
def isControl (c : Char) : Bool :=
  let n := c.toNat
  n < 32 || (127 ≤ n && n < 161) || n == 173

/-- A character inside a literal between certain quotes. -/
def literalChar (quote c : Char) : List Char :=
  if c == '\\' || c == quote then ['\\', c]
  else if c == '\n' then ['\\', 'n']
  else if c == '\r' then ['\\', 'r']
  else if c == '\t' then ['\\', 't']
  else if isControl c then '\\' :: 'x' :: hexPair c.toNat
  else [c]

/-- The literal of a text. -/
def quoted (text : List Char) : List Char :=
  let quote := if text.contains '\'' && !text.contains '"' then '"' else '\''
  quote :: text.flatMap (literalChar quote) ++ [quote]

/-- The literal of a text. -/
def quotedText (text : String) : String :=
  .ofList (quoted text.toList)

/-- The literal of bytes: that of the text with their codes, in which none above 126 stands for
itself. -/
def quotedBytes (octets : List UInt8) : List Char :=
  let text := octets.map fun b => Char.ofNat b.toNat
  let quote := if text.contains '\'' && !text.contains '"' then '"' else '\''
  'b' :: quote :: text.flatMap (fun c =>
    if 127 ≤ c.toNat then '\\' :: 'x' :: hexPair c.toNat else literalChar quote c) ++ [quote]

end SourceSurvey.Text
