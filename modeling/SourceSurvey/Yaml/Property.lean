import SourceSurvey.Number.Reading
import SourceSurvey.Text.Utf8
import SourceSurvey.Yaml.Place
import SourceSurvey.Yaml.Token

/-!
# Properties and directives

Anchors, aliases and tags before a node, and the directives before a document.
-/

namespace SourceSurvey.Yaml.Property

/-- A character of a name: an ASCII letter or digit, a hyphen or an underscore. -/
def isNameChar (c : Char) : Bool :=
  c.isAlphanum || c == '-' || c == '_'

/-- A character of the address that a tag is. -/
def isAddressChar (c : Char) : Bool :=
  c.isAlphanum || "-;/?:@&=+$,_.!~*'()[]%".toList.contains c

/-- What may follow the name of an anchor. -/
def endsAnchor (c : Option Char) : Bool :=
  separates c || c.any fun c => "?:,]\x7d%@\x60".toList.contains c

/-- The name of an anchor or an alias after its sign, and the place after it. -/
def name (p : Place) : Except DocumentProblem (String × Place) :=
  let (cs, q) := p.step.takeWhile isNameChar
  if cs.isEmpty || !endsAnchor q.next? then .error .malformed else .ok (.ofList cs, q)

/-- The bytes that percent signs with two hexadecimal digits write. -/
def escapedBytes : List Char → Except DocumentProblem (List UInt8)
  | '%' :: a :: b :: rest => do
    match Number.hexDigit? a, Number.hexDigit? b with
    | some x, some y => return (x * 16 + y).toUInt8 :: (← escapedBytes rest)
    | _, _ => .error .malformed
  | '%' :: _ => .error .malformed
  | _ => .ok []

/-- The address at a place with its escapes read, and the place after it. The bound is on the number
of characters. -/
def addressUpTo : Nat → Place → Except DocumentProblem (List Char × Place)
  | 0, _ => .error .malformed
  | n + 1, p =>
    match p.next? with
    | none => .ok ([], p)
    | some c =>
      if c == '%' then do
        let bytes ← escapedBytes p.rest
        match Text.decodeStrict? bytes with
        | none => .error .malformed
        | some text =>
          let (cs, last) ← addressUpTo n (p.forward (3 * bytes.length))
          return (text ++ cs, last)
      else if isAddressChar c then do
        let (cs, last) ← addressUpTo n p.step
        return (c :: cs, last)
      else .ok ([], p)

/-- The address at a place, which may not be missing, and the place after it. -/
def address (p : Place) : Except DocumentProblem (String × Place) := do
  if !(p.next?.any isAddressChar) then .error .malformed
  else
    let (cs, q) ← addressUpTo (p.rest.length + 1) p
    return (.ofList cs, q)

/-- The handle of a tag: an exclamation mark, or a name between two of them. -/
def handle (p : Place) : Except DocumentProblem (String × Place) :=
  if p.next? != some '!' then .error .malformed
  else if p.ahead? 1 == some ' ' then .ok ("!", p.step)
  else
    let (cs, q) := p.step.takeWhile isNameChar
    if q.next? == some '!' then .ok (.ofList ('!' :: cs ++ ['!']), q.step) else .error .malformed

/-- The tag at a place, and the place after it. -/
def tag (p : Place) : Except DocumentProblem (Token × Place) := do
  let (token, q) ←
    if p.ahead? 1 == some '<' then do
      let (suffix, q) ← address (p.forward 2)
      if q.next? == some '>' then pure (Token.tag none suffix, q.step) else .error .malformed
    else if separates (p.ahead? 1) then pure (Token.tag none "!", p.step)
    else
      let word := p.step.rest.takeWhile fun c => !endsWord (some c)
      if word.contains '!' then do
        let (h, q) ← handle p
        let (suffix, last) ← address q
        pure (Token.tag (some h) suffix, last)
      else do
        let (suffix, last) ← address p.step
        pure (Token.tag (some "!") suffix, last)
  if endsWord q.next? then return (token, q) else .error .malformed

/-- A whole number of a version, and the place after it. -/
def versionPart (p : Place) : Except DocumentProblem (Nat × Place) :=
  let (cs, q) := p.takeWhile fun c => '0' ≤ c && c ≤ '9'
  if cs.isEmpty then .error .malformed
  else .ok (Number.ofDigits 10 (cs.filterMap Number.decimalDigit?), q)

/-- The version after the name of its directive, and the place after it. -/
def version (p : Place) : Except DocumentProblem (Token × Place) := do
  let (major, q) ← versionPart p.skipBlanks
  if q.next? != some '.' then .error .malformed
  else
    let (_, last) ← versionPart q.step
    if endsWord last.next? then return (.version major, last) else .error .malformed

/-- The handle and the start of tags after the name of their directive, and the place after them. -/
def tagHandle (p : Place) : Except DocumentProblem (Token × Place) := do
  let (h, q) ← handle p.skipBlanks
  if q.next? != some ' ' then .error .malformed
  else
    let (start, last) ← address q.skipBlanks
    if endsWord last.next? then return (.tagHandle h start, last) else .error .malformed

/-- The directive whose percent sign stands at a place, and the start of the next line. -/
def directive (p : Place) : Except DocumentProblem (Token × Place) := do
  let (cs, q) := p.step.takeWhile isNameChar
  if cs.isEmpty || !endsWord q.next? then .error .malformed
  else
    let (token, after) ← match String.ofList cs with
      | "YAML" => version q
      | "TAG" => tagHandle q
      | _ => pure (Token.ignoredDirective, q.skipWhile (!isBreak ·))
    let last := after.skipBlanks.skipNote
    if endsLine last.next? then
      return (token, ((last.lineBreak?).map (·.2)).getD last)
    else .error .malformed

end SourceSurvey.Yaml.Property
