import SourceSurvey.Number.Reading
import SourceSurvey.Value.Basic
import SourceSurvey.Value.Calendar
import SourceSurvey.Yaml.Node
import SourceSurvey.Yaml.Token.Lexer

/-!
# YAML documents

The value of a node by its tag, and the value that a text writes.
-/

namespace SourceSurvey.Yaml

namespace Node

/-- The text that a node stands for: that of a scalar, or of the default value of a mapping. -/
def text? : Node → Option (List Char)
  | .scalar _ text => some text
  | .sequence _ _ => none
  | .mapping _ entries => textIn? entries
where
  /-- The text of the default value among entries. -/
  textIn? : List (Node × Node) → Option (List Char)
    | [] => none
    | (k, v) :: rest => if k.tag == .value then text? v else textIn? rest

/-- The truth value that a word stands for. -/
def truth? (word : List Char) : Option Bool :=
  match String.ofList (Text.lower word) with
  | "yes" | "true" | "on" => some true
  | "no" | "false" | "off" => some false
  | _ => none

/-- The pieces of a number between colons, put together by sixties. -/
def sixties (parts : List Int) : Int :=
  parts.foldl (fun n d => n * 60 + d) 0

/-- A whole number without its sign and underscores. A zero at its start means eight as the base. -/
def natural? (text : List Char) : Option Int :=
  if text == ['0'] then some 0
  else if Text.startsWith text ['0', 'b'] then Number.whole? 2 (text.drop 2)
  else if Text.startsWith text ['0', 'x'] then Number.whole? 16 (text.drop 2)
  else if Text.startsWith text ['0'] then Number.whole? 8 text
  else if text.contains ':' then
    ((Text.splitAt ':' text).mapM (Number.whole? 10)).map sixties
  else Number.whole? 10 text

/-- The number that a text writes. Without a character after its sign it has none. -/
def int (text : List Char) : Except Fault Value :=
  match text.filter (· != '_') with
  | [] => .error .missingMember
  | c :: rest =>
    let body := if c == '-' || c == '+' then rest else c :: rest
    if body.isEmpty then .error .missingMember
    else match natural? body with
      | none => .error .meaningless
      | some n => .ok (.int (if c == '-' then -n else n))

/-- The sum of parts that count for growing powers of sixty, the last part first. -/
def sixtiesReal (parts : List Binary64) : Binary64 :=
  (parts.reverse.foldl (fun (sum, base) d => (sum.add (d.mulNat base), base * 60))
    (Binary64.finite false 0 Binary64.minExponent, 1)).1

/-- A floating-point number without its sign and underscores. -/
def unsigned? (text : List Char) : Option Binary64 :=
  if text == ".inf".toList then some (.infinite false)
  else if text == ".nan".toList then some .nan
  else if text.contains ':' then ((Text.splitAt ':' text).mapM Number.real?).map sixtiesReal
  else Number.real? text

/-- The floating-point number that a text writes. -/
def float (text : List Char) : Except Fault Value :=
  match Text.lower (text.filter (· != '_')) with
  | [] => .error .missingMember
  | c :: rest =>
    match unsigned? (if c == '-' || c == '+' then rest else c :: rest) with
    | none => .error .meaningless
    | some x => .ok (.float (if c == '-' then x.neg else x))

/-- The number that ASCII digits write. -/
def count (digits : List Char) : Nat :=
  Number.ofDigits 10 (digits.filterMap Number.decimalDigit?)

/-- A number with at least so many digits. -/
def padded (width n : Nat) : List Char :=
  let ds := Nat.toDigits 10 n
  List.replicate (width - ds.length) '0' ++ ds

/-- The distance of a zone from the universal time, in minutes, as it is written. -/
def zoneText (isMinus : Bool) (minutes : Nat) : List Char :=
  let sign := if isMinus && minutes != 0 then '-' else '+'
  sign :: padded 2 (minutes / 60) ++ ':' :: padded 2 (minutes % 60)

/-- The literal of a zone with such a distance from the universal time. -/
def zoneLiteral (isMinus : Bool) (minutes : Nat) : String :=
  if minutes == 0 then "datetime.timezone.utc"
  else
    let distance := if isMinus then "days=-1, seconds=" ++ toString ((1440 - minutes) * 60)
      else "seconds=" ++ toString (minutes * 60)
    "datetime.timezone(datetime.timedelta(" ++ distance ++ "))"

/-- The literal of a value of a class with certain arguments. -/
def call (name : String) (arguments : List String) : List Char :=
  ("datetime." ++ name ++ "(" ++ ", ".intercalate arguments ++ ")").toList

/-- The text of a point in time and its literal, if it exists. -/
def spelling? (m : Implicit.Moment) : Option (List Char × List Char) := do
  let (year, month, day) := (count m.year, count m.month, count m.day)
  if !Calendar.isDate year month day then none
  else
    let date := padded 4 year ++ '-' :: padded 2 month ++ '-' :: padded 2 day
    match m.time with
    | none => return (date, call "date" ([year, month, day].map toString))
    | some (hour, minute, second, fraction) =>
      let (h, i, s) := (count hour, count minute, count second)
      if !Calendar.isTime h i s then none
      else
        let parts := (fraction ++ List.replicate 6 '0').take 6
        let tail := if parts.all (· == '0') then [] else '.' :: parts
        let (zone, zoneArgument) ← match m.zone with
          | none => some ([], [])
          | some none => some (zoneText false 0, ["tzinfo=" ++ zoneLiteral false 0])
          | some (some (isMinus, hours, minutes)) =>
            let offset := count hours * 60 + count minutes
            if offset < 1440 then
              some (zoneText isMinus offset, ["tzinfo=" ++ zoneLiteral isMinus offset])
            else none
        let time := padded 2 h ++ ':' :: padded 2 i ++ ':' :: padded 2 s ++ tail
        -- zeros at the end of the time are no arguments
        let small := if count parts != 0 then [s, count parts] else if s != 0 then [s] else []
        let arguments := ([year, month, day, h, i] ++ small).map toString ++ zoneArgument
        return (date ++ ' ' :: time ++ zone, call "datetime" arguments)

/-- The point in time that a text writes. -/
def timestamp (text : List Char) : Except Fault Value :=
  match Implicit.moment.matchStart? text with
  | none => .error .unsupported
  | some m =>
    match spelling? m with
    | none => .error .meaningless
    | some (t, l) => .ok (.moment (.ofList t) (.ofList l))

/-! ## Bytes -/

/-- The number that a character stands for among sixty-four. -/
def sextet? (c : Char) : Option Nat :=
  if 'A' ≤ c && c ≤ 'Z' then some (c.toNat - 'A'.toNat)
  else if 'a' ≤ c && c ≤ 'z' then some (c.toNat - 'a'.toNat + 26)
  else if '0' ≤ c && c ≤ '9' then some (c.toNat - '0'.toNat + 52)
  else if c == '+' then some 62
  else if c == '/' then some 63
  else none

/-- The bytes of characters of sixty-four, after so many of a group of four, with the bits that
these leave and the fillers since. The last group has to be filled. Other characters are passed
over. -/
def octetsFrom (place left pads : Nat) : List Char → Option (List UInt8)
  | [] => if place == 0 then some [] else none
  | c :: rest =>
    if c == '=' then
      if place < 2 then octetsFrom place left pads rest
      else if 4 ≤ place + pads + 1 then some []
      else octetsFrom place left (pads + 1) rest
    else match sextet? c with
      | none => octetsFrom place left pads rest
      | some n =>
        match place with
        | 0 => octetsFrom 1 n 0 rest
        | 1 => do return .ofNat (left * 4 + n / 16) :: (← octetsFrom 2 (n % 16) 0 rest)
        | 2 => do return .ofNat (left * 16 + n / 4) :: (← octetsFrom 3 (n % 4) 0 rest)
        | _ => do return .ofNat (left * 64 + n) :: (← octetsFrom 0 0 0 rest)

/-- The bytes that ASCII characters write. -/
def octets? (text : List Char) : Option (List UInt8) :=
  if text.all fun c => c.toNat < 128 then octetsFrom 0 0 0 text else none

/-- The text of a node that has to have one. -/
def text (n : Node) : Except DocumentProblem (List Char) :=
  match n.text? with
  | some t => .ok t
  | none => .error .malformed

/-- The value of a node whose tag asks for a text; nothing for other tags. -/
def scalarValue? (n : Node) : Option (Except DocumentProblem Value) :=
  let read := fun (f : List Char → Except Fault Value) => do
    let t ← n.text
    (f t).mapError DocumentProblem.fault
  match n.tag with
  | .null => some (n.text.map fun _ => .null)
  | .bool =>
    some (read fun t => match truth? t with
      | some b => .ok (.bool b)
      | none => .error .missingEntry)
  | .int => some (read int)
  | .float => some (read float)
  | .timestamp => some (read timestamp)
  | .str => some (n.text.map fun t => .string (.ofList t))
  | .binary =>
    some do
      match octets? (← n.text) with
      | some octets => return .bytes octets
      | none => .error .malformed
  | _ => none

mutual

/-- The value of a node. -/
def toValue : Node → Except DocumentProblem Value
  | .scalar tag text =>
    (scalarValue? (.scalar tag text)).getD (.error .malformed)
  | .sequence tag items =>
    match tag with
    | .seq => do return .list (← toValues items)
    | .omap | .pairs => do return .list (← toPairs items)
    | _ => (scalarValue? (.sequence tag items)).getD (.error .malformed)
  | .mapping tag entries =>
    match tag with
    | .map => do return .mapping (← toEntries [] entries)
    | .set => do return .set ((← toEntries [] entries).map (·.1))
    | _ => (scalarValue? (.mapping tag entries)).getD (.error .malformed)

/-- The values of nodes. -/
def toValues : List Node → Except DocumentProblem (List Value)
  | [] => .ok []
  | n :: ns => do
    let v ← toValue n
    return v :: (← toValues ns)

/-- The keys with their values of mappings that have one entry each. -/
def toPairs : List Node → Except DocumentProblem (List Value)
  | [] => .ok []
  | .mapping _ [(k, v)] :: ns => do
    let key ← toValue k
    let value ← toValue v
    return .pair key value :: (← toPairs ns)
  | _ :: _ => .error .malformed

/-- The entries of a mapping, added to earlier ones. The value of a default entry has an equal sign
as its key. -/
def toEntries (found : List (Value × Value)) :
    List (Node × Node) → Except DocumentProblem (List (Value × Value))
  | [] => .ok found
  | (k, v) :: rest => do
    let key ← if k.tag == .value then k.text.map fun t => .string (.ofList t) else toValue k
    if !key.isHashable then .error .malformed
    else
      let value ← toValue v
      toEntries (Value.setEntry key value found) rest

end

end Node

/-- The value that a text writes: that of its only document, or nothing. -/
def parse (text : List Char) : Except DocumentProblem Value := do
  match ← Node.ofTokens (tokens text) with
  | none => return .null
  | some node => node.toValue

end SourceSurvey.Yaml
