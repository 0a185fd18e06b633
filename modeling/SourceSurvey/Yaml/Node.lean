import SourceSurvey.Yaml.Implicit
import SourceSurvey.Yaml.Token

/-!
# Nodes

The tree that the tokens of a document write: scalars, sequences and mappings, each with a tag.
Aliases stand for the node that they name, and entries of merged mappings are put where the merge
is.
-/

namespace SourceSurvey.Yaml

/-- A part of a document. -/
inductive Node where
  | scalar (tag : Tag) (text : List Char)
  | sequence (tag : Tag) (items : List Node)
  | mapping (tag : Tag) (entries : List (Node × Node))
deriving Inhabited

namespace Node

/-- The tag of a node. -/
def tag : Node → Tag
  | .scalar t _ => t
  | .sequence t _ => t
  | .mapping t _ => t

/-- The entries of a mapping. -/
def entries? : Node → Option (List (Node × Node))
  | .mapping _ entries => some entries
  | _ => none

/-- The entries that a merge brings in: those of a mapping, or those of the mappings of a sequence,
the last one first. -/
def mergedEntries? : Node → Option (List (Node × Node))
  | .mapping _ entries => some entries
  | .sequence _ items => (items.mapM entries?).map fun all => all.reverse.flatten
  | .scalar _ _ => none

/-- The mapping of some entries. What is merged comes before the other entries. -/
def ofEntries? (tag : Tag) (entries : List (Node × Node)) : Option Node := do
  let isMerge := fun (e : Node × Node) => e.1.tag == .merge
  let merged ← (entries.filter isMerge).mapM fun e => mergedEntries? e.2
  return .mapping tag (merged.flatten ++ entries.filter fun e => !isMerge e)

/-- Nothing where a node may be left out. -/
def empty : Node :=
  .scalar .null []

/-! ## Reading tokens -/

/-- The tokens that are left, and the names that are known. -/
structure State where
  tokens : List Token
  anchors : List (String × Node) := []
  handles : List (String × String) := []

/-- A reader of tokens. -/
abbrev Reader := StateT State (Except DocumentProblem)

/-- The next token. -/
def peek : Reader Token := do
  return ((← get).tokens.head?).getD (.trouble .malformed)

/-- The next token is passed. -/
def skip : Reader Unit :=
  modify fun s => { s with tokens := s.tokens.tail }

/-- The next token is passed if it is the given one. -/
def skipIf (t : Token) : Reader Bool := do
  if (← peek) == t then
    skip
    return true
  else
    return false

/-- No node can go on like this. -/
def unexpected {α : Type} : Reader α := do
  match ← peek with
  | .trouble problem => throw problem
  | _ => throw .malformed

/-- The next token, which has to be the given one, is passed. -/
def expect (t : Token) : Reader Unit := do
  if !(← skipIf t) then unexpected

/-- The tag that a handle and a suffix write. -/
def resolveTag (handle : Option String) (suffix : String) : Reader String := do
  match handle with
  | none => return suffix
  | some h =>
    match (← get).handles.lookup h with
    | some start => return start ++ suffix
    | none => throw .malformed

/-- The anchor and the tag before a node, in either order. -/
def properties : Reader (Option String × Option String) := do
  match ← peek with
  | .anchor name =>
    skip
    match ← peek with
    | .tag handle suffix =>
      skip
      return (some name, some (← resolveTag handle suffix))
    | _ => return (some name, none)
  | .tag handle suffix =>
    skip
    match ← peek with
    | .anchor name =>
      skip
      return (some name, some (← resolveTag handle suffix))
    | _ => return (none, some (← resolveTag handle suffix))
  | _ => return (none, none)

/-- A node gets a name that no other node has. -/
def define (name : Option String) (node : Node) : Reader Unit := do
  match name with
  | none => return ()
  | some n => modify fun s => { s with anchors := (n, node) :: s.anchors }

/-- The tag of a collection: the written one, or the usual one. -/
def collectionTag (written : Option String) (usual : Tag) : Tag :=
  match written with
  | none => usual
  | some "!" => usual
  | some t => .ofAddress t

/-- The tag of a scalar: the written one, or the one that its text implies. -/
def scalarTag (written : Option String) (text : List Char) (isPlain : Bool) : Tag :=
  match written with
  | none => if isPlain then Implicit.tag text else .str
  | some "!" => Implicit.tag text
  | some t => .ofAddress t

/-- The tokens after which a part of a collection is left out. -/
def endsPart (enders : List Token) : Reader Bool := do
  return enders.contains (← peek)

/-- A node that is left out after its properties; without properties no node can be left out. -/
def emptyOr (anchor written : Option String) : Reader Node := do
  if anchor.isNone && written.isNone then unexpected
  else
    let result := Node.scalar (scalarTag written [] (written.isNone)) []
    define anchor result
    return result

mutual

/-- A node. Collections by indentation stand only outside brackets, and a sequence without an
indentation of its own only as a part of a mapping. The bound is on the number of tokens and parts.
-/
def node (inBlock noIndent : Bool) : Nat → Reader Node
  | 0 => throw .malformed
  | n + 1 => do
    match ← peek with
    | .alias name =>
      skip
      match (← get).anchors.lookup name with
      | some target => return target
      | none => throw .malformed
    | _ =>
      let (anchor, written) ← properties
      let known := (← get).anchors
      if anchor.any fun a => (known.lookup a).isSome then throw .malformed
      content inBlock noIndent anchor written n

/-- A node after its properties. -/
def content (inBlock noIndent : Bool) (anchor written : Option String) : Nat → Reader Node
  | 0 => throw .malformed
  | n + 1 => do
    let sequence := fun (items : Reader (List Node)) => do
      let tag := collectionTag written .seq
      define anchor (.sequence tag [])
      let result := Node.sequence tag (← items)
      define anchor result
      return result
    let mapping := fun (entries : Reader (List (Node × Node))) => do
      let tag := collectionTag written .map
      define anchor (.mapping tag [])
      match ofEntries? tag (← entries) with
      | none => throw .malformed
      | some result =>
        define anchor result
        return result
    match ← peek with
    | .blockEntry =>
      if noIndent then sequence (blockItems false n)
      else emptyOr anchor written
    | .scalar text isPlain =>
      skip
      let result := Node.scalar (scalarTag written text isPlain) text
      define anchor result
      return result
    | .flowSequenceStart =>
      skip
      sequence (flowItems true n)
    | .flowMappingStart =>
      skip
      mapping (flowEntries true n)
    | .sequenceStart =>
      if inBlock then
        skip
        sequence (blockItems true n)
      else emptyOr anchor written
    | .mappingStart =>
      if inBlock then
        skip
        mapping (blockEntries n)
      else emptyOr anchor written
    | _ => emptyOr anchor written

/-- The items of a sequence by indentation, with its end if it has an indentation of its own. -/
def blockItems (isIndented : Bool) : Nat → Reader (List Node)
  | 0 => throw .malformed
  | n + 1 => do
    if ← skipIf .blockEntry then
      let enders := if isIndented then [.blockEntry, .blockEnd]
        else [.blockEntry, .key, .value, .blockEnd]
      let item ← if ← endsPart enders then pure empty else node true false n
      return item :: (← blockItems isIndented n)
    else
      if isIndented then expect .blockEnd
      return []

/-- The entries of a mapping by indentation, with its end. -/
def blockEntries : Nat → Reader (List (Node × Node))
  | 0 => throw .malformed
  | n + 1 => do
    if ← skipIf .key then
      let enders := [.key, .value, .blockEnd]
      let k ← if ← endsPart enders then pure empty else node true true n
      let v ← if ← skipIf .value then
          if ← endsPart enders then pure empty else node true true n
        else pure empty
      return (k, v) :: (← blockEntries n)
    else
      expect .blockEnd
      return []

/-- A part between brackets, unless it is left out. -/
def flowPart (closer : Token) : Nat → Reader Node
  | 0 => throw .malformed
  | n + 1 => do
    if ← endsPart [.value, .flowEntry, closer] then return empty else node false false n

/-- A value between brackets after its key, unless it is left out. -/
def flowValue (closer : Token) : Nat → Reader Node
  | 0 => throw .malformed
  | n + 1 => do
    if ← skipIf .value then
      if ← endsPart [.flowEntry, closer] then return empty else node false false n
    else return empty

/-- The items of a sequence in brackets, with its end. A key among them is a mapping of its own. -/
def flowItems (isFirst : Bool) : Nat → Reader (List Node)
  | 0 => throw .malformed
  | n + 1 => do
    if ← skipIf .flowSequenceEnd then return []
    else
      if !isFirst then expect .flowEntry
      if ← skipIf .key then
        let k ← flowPart .flowSequenceEnd n
        let v ← flowValue .flowSequenceEnd n
        match ofEntries? .map [(k, v)] with
        | none => throw .malformed
        | some item => return item :: (← flowItems false n)
      else if ← skipIf .flowSequenceEnd then return []
      else
        let item ← node false false n
        return item :: (← flowItems false n)

/-- The entries of a mapping in brackets, with its end. A node that is no key has no value. -/
def flowEntries (isFirst : Bool) : Nat → Reader (List (Node × Node))
  | 0 => throw .malformed
  | n + 1 => do
    if ← skipIf .flowMappingEnd then return []
    else
      if !isFirst then expect .flowEntry
      if ← skipIf .key then
        let k ← flowPart .flowMappingEnd n
        let v ← flowValue .flowMappingEnd n
        return (k, v) :: (← flowEntries false n)
      else if ← skipIf .flowMappingEnd then return []
      else
        let k ← node false false n
        return (k, empty) :: (← flowEntries false n)

end

/-! ## Documents -/

/-- The short forms of tags that every document knows. -/
def usualHandles : List (String × String) :=
  [("!", "!"), ("!!", Tag.standard)]

/-- The directives before a document: at most one version, which has to be a first one, and short
forms of tags, each once. The bound is on the number of directives. -/
def directives (hasVersion : Bool) (handles : List (String × String)) : Nat → Reader Unit
  | 0 => throw .malformed
  | n + 1 => do
    match ← peek with
    | .version major =>
      if hasVersion || major != 1 then throw .malformed
      skip
      directives true handles n
    | .tagHandle h start =>
      if (handles.lookup h).isSome then throw .malformed
      skip
      directives hasVersion ((h, start) :: handles) n
    | .ignoredDirective =>
      skip
      directives hasVersion handles n
    | _ => modify fun s => { s with handles := handles ++ usualHandles }

/-- The marks of the end of a document. The bound is on the number of marks. -/
def skipEnds : Nat → Reader Unit
  | 0 => return ()
  | n + 1 => do
    if ← skipIf .documentEnd then skipEnds n

/-- The next token begins a directive. -/
def isDirective (t : Token) : Bool :=
  match t with
  | .version _ | .tagHandle _ _ | .ignoredDirective => true
  | _ => false

/-- The only document of a text, or nothing if there is none. More than one is refused. -/
def document (bound : Nat) : Reader (Option Node) := do
  let first ← peek
  let root ←
    if isDirective first || first == .documentStart || first == .streamEnd then do
      skipEnds bound
      if (← peek) == .streamEnd then pure none
      else
        directives false [] bound
        expect .documentStart
        let next ← peek
        if isDirective next || [.documentStart, .documentEnd, .streamEnd].contains next then
          pure (some empty)
        else
          some <$> node true false bound
    else do
      modify fun s => { s with handles := usualHandles }
      some <$> node true false bound
  skipEnds bound
  expect .streamEnd
  return root

/-- The only document that tokens write, or nothing. -/
def ofTokens (tokens : List Token) : Except DocumentProblem (Option Node) :=
  (document (4 * tokens.length + 4) { tokens }).map (·.1)

end Node

end SourceSurvey.Yaml
