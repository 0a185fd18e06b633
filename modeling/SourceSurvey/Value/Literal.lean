import SourceSurvey.Number.Reading
import SourceSurvey.Text.Quoted
import SourceSurvey.Text.Search
import SourceSurvey.Value.Basic

/-!
# Values as texts

The text that stands for a value where a text is asked for. Collections show their members as
literals. A whole number with more digits than are read is not written either.
-/

namespace SourceSurvey.Value

mutual

/-- The literal of a value. -/
def literal : Value → List Char
  | .null => "None".toList
  | .bool b => (if b then "True" else "False").toList
  | .int n => (toString n).toList
  | .float x => x.toText.toList
  | .string s => Text.quoted s.toList
  | .bytes octets => Text.quotedBytes octets
  | .moment _ literal => literal.toList
  | .list items => '[' :: Text.join [',', ' '] (literals items) ++ [']']
  | .set [] => "set()".toList
  | .set items => '\x7b' :: Text.join [',', ' '] (literals items) ++ ['\x7d']
  | .mapping entries => '\x7b' :: Text.join [',', ' '] (entryLiterals entries) ++ ['\x7d']
  | .pair k v => '(' :: literal k ++ ',' :: ' ' :: literal v ++ [')']

/-- The literals of members. -/
def literals : List Value → List (List Char)
  | [] => []
  | v :: vs => literal v :: literals vs

/-- The literals of entries. -/
def entryLiterals : List (Value × Value) → List (List Char)
  | [] => []
  | (k, v) :: rest => (literal k ++ ':' :: ' ' :: literal v) :: entryLiterals rest

end

/-- The text of a value: a text or a point in time as it is, and the literal of everything else. -/
def text : Value → List Char
  | .string s => s.toList
  | .moment text _ => text.toList
  | v => literal v

/-! ## Values that are written -/

/-- A whole number has no more decimal digits than are written. -/
def isShort (n : Int) : Bool :=
  (Nat.toDigits 10 n.natAbs).length ≤ Number.maxDigits

mutual

/-- No whole number in a value is too long to be written. -/
def isWritable : Value → Bool
  | .int n => isShort n
  | .list items => areWritable items
  | .set items => areWritable items
  | .mapping entries => areWritableEntries entries
  | .pair k v => isWritable k && isWritable v
  | _ => true

/-- Members can all be written. -/
def areWritable : List Value → Bool
  | [] => true
  | v :: vs => isWritable v && areWritable vs

/-- The keys and the values of entries can all be written. -/
def areWritableEntries : List (Value × Value) → Bool
  | [] => true
  | (k, v) :: rest => isWritable k && isWritable v && areWritableEntries rest

end

/-- The text of a value that can be written. -/
def written (v : Value) : Except Fault (List Char) :=
  if v.isWritable then .ok v.text else .error .meaningless

end SourceSurvey.Value
