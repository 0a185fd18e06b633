import SourceSurvey.Failure
import SourceSurvey.Number.Shortest

/-!
# Values

What a document of a data format holds: configuration files, package manifests and machine-readable
reports. A mapping keeps its entries in order of first appearance. Which value a text writes is for
the readers of the formats to say.
-/

namespace SourceSurvey

/-- A value of a data format. -/
inductive Value where
  | null
  | bool (b : Bool)
  | int (n : Int)
  | float (x : Binary64)
  | string (s : String)
  | bytes (octets : List UInt8)
  /-- A point in time, known by its text and by its literal alone. -/
  | moment (text literal : String)
  | list (items : List Value)
  | set (items : List Value)
  | mapping (entries : List (Value × Value))
  /-- A key with its value, as an ordered mapping lists them. -/
  | pair (key value : Value)
deriving Repr, Inhabited

namespace Value

/-- Two scalars are the same key: truth values count as the numbers one and zero. -/
def same : Value → Value → Bool
  | .null, .null => true
  | .string s, .string t => s == t
  | .bytes a, .bytes b => a == b
  | .moment s _, .moment t _ => s == t
  | .bool a, .bool b => a == b
  | .bool a, .int n => (if a then 1 else 0) == n
  | .int n, .bool a => (if a then 1 else 0) == n
  | .bool a, .float x => x.eqInt (if a then 1 else 0)
  | .float x, .bool a => x.eqInt (if a then 1 else 0)
  | .int m, .int n => m == n
  | .int n, .float x => x.eqInt n
  | .float x, .int n => x.eqInt n
  | .float x, .float y => x.eqNumber y
  | .pair k v, .pair l w => same k l && same v w
  | _, _ => false

/-- The value can be a key or a member of a set. -/
def isHashable : Value → Bool
  | .list _ => false
  | .set _ => false
  | .mapping _ => false
  | .pair k v => isHashable k && isHashable v
  | _ => true

/-- A value that counts as false: nothing, zero or empty. -/
def isFalsy : Value → Bool
  | .null => true
  | .bool b => !b
  | .int n => n == 0
  | .float x => x.isZero
  | .string s => s.isEmpty
  | .bytes octets => octets.isEmpty
  | .moment _ _ | .pair _ _ => false
  | .list items => items.isEmpty
  | .set items => items.isEmpty
  | .mapping entries => entries.isEmpty

/-- The members without those that are the same as an earlier one. -/
def distinctFrom (seen : List Value) : List Value → List Value
  | [] => []
  | v :: vs => if seen.any (same v) then distinctFrom seen vs else v :: distinctFrom (v :: seen) vs

/-- The members of a value that is gone through, if it can be: those of a list or a set, the keys of
a mapping, the characters of a text, and the numbers that bytes are. -/
def members? : Value → Option (List Value)
  | .list items => some items
  | .set items => some items
  | .mapping entries => some (entries.map (·.1))
  | .string s => some (s.toList.map fun c => .string (.ofList [c]))
  | .bytes octets => some (octets.map fun b => .int b.toNat)
  | .pair k v => some [k, v]
  | _ => none

/-- The entries with a key set: in place, with the key that is there, or else at the end. -/
def setEntry (key value : Value) : List (Value × Value) → List (Value × Value)
  | [] => [(key, value)]
  | (k, v) :: rest =>
    if same k key then (k, value) :: rest else (k, v) :: setEntry key value rest

/-- The value of an entry. -/
def entry? (key : String) (entries : List (Value × Value)) : Option Value :=
  (entries.find? fun (k, _) => same k (.string key)).map (·.2)

/-- A mapping with text keys. -/
def object (entries : List (String × Value)) : Value :=
  .mapping (entries.map fun (k, v) => (.string k, v))

end Value

/-- How texts of the data formats are read: to the value that a text writes, unless it is malformed
or has a part without a value. -/
structure DocumentReaders where
  json : List Char → Except DocumentProblem Value
  yaml : List Char → Except DocumentProblem Value
  toml : List Char → Except DocumentProblem Value

end SourceSurvey
