import SourceSurvey.Text.CharClass

/-!
# Mentions of a name

Where a text mentions a name as a whole word, where it calls it, and where it declares one. Word
characters and the dollar sign are the characters of names.
-/

namespace SourceSurvey

/-- No name goes on from the character before. -/
def nameMayStart (prev : Option Char) : Bool :=
  !(prev.any Text.isNameChar)

/-- The name stands here as a whole word. -/
def isMentionAt (name : List Char) (prev : Option Char) (text : List Char) : Bool :=
  nameMayStart prev && name.isPrefixOf text &&
    !((text.drop name.length).head?.any Text.isNameChar)

/-- The whole-word mentions of a name in the rest of a text, as positions of start and end, where
`skip` characters belong to the last mention. -/
def mentionsFrom (name : List Char) : Nat → Nat → Option Char → List Char → List (Nat × Nat)
  | skip, position, prev, [] =>
    if skip = 0 && isMentionAt name prev [] then [(position, position)] else []
  | skip + 1, position, _, c :: cs => mentionsFrom name skip (position + 1) (some c) cs
  | 0, position, prev, c :: cs =>
    if isMentionAt name prev (c :: cs) then
      (position, position + name.length) ::
        mentionsFrom name (name.length - 1) (position + 1) (some c) cs
    else mentionsFrom name 0 (position + 1) (some c) cs

/-- The whole-word mentions of a name that do not overlap, as positions of start and end. -/
def mentions (name text : List Char) : List (Nat × Nat) :=
  mentionsFrom name 0 0 none text

/-- The rest of a text after the given character mentions the name. -/
def hasMentionFrom (name : List Char) (prev : Option Char) : List Char → Bool
  | [] => isMentionAt name prev []
  | c :: cs => isMentionAt name prev (c :: cs) || hasMentionFrom name (some c) cs

/-- The text mentions the name as a whole word. -/
def hasMention (name text : List Char) : Bool :=
  hasMentionFrom name none text

/-! ## Calls -/

/-- The length of the name with the parenthesis that opens its arguments, blanks allowed between. -/
def applicationLength? (name text : List Char) : Option Nat :=
  if name.isPrefixOf text then
    let rest := text.drop name.length
    let blanks := rest.takeWhile Text.isSpace
    if (rest.drop blanks.length).head? == some '(' then some (name.length + blanks.length + 1)
    else none
  else none

/-- What may stand directly before a called member. -/
def receivers : List (List Char) :=
  ["self.".toList, "this.".toList, "$this->".toList, "::".toList]

/-- The length of the call that begins here, with its receiver. A call without a receiver is not
preceded by a character of names or a hash. -/
def callLength? (name : List Char) (prev : Option Char) (text : List Char) : Option Nat :=
  let received := receivers.findSome? fun r =>
    if r.isPrefixOf text then (applicationLength? name (text.drop r.length)).map (· + r.length)
    else none
  match received with
  | some n => some n
  | none =>
    if prev.any fun p => Text.isNameChar p || p == '#' then none
    else applicationLength? name text

/-- The calls of a name in the rest of a text, as positions of start and end. -/
def callsFrom (name : List Char) : Nat → Nat → Option Char → List Char → List (Nat × Nat)
  | _, _, _, [] => []
  | skip + 1, position, _, c :: cs => callsFrom name skip (position + 1) (some c) cs
  | 0, position, prev, c :: cs =>
    match callLength? name prev (c :: cs) with
    | some n => (position, position + n) :: callsFrom name (n - 1) (position + 1) (some c) cs
    | none => callsFrom name 0 (position + 1) (some c) cs

/-- The calls of a name that do not overlap, as positions of start and end. -/
def calls (name text : List Char) : List (Nat × Nat) :=
  callsFrom name 0 0 none text

/-- The rest of a text after the given character calls the name. -/
def hasCallFrom (name : List Char) (prev : Option Char) : List Char → Bool
  | [] => false
  | c :: cs => (callLength? name prev (c :: cs)).isSome || hasCallFrom name (some c) cs

/-- The text calls the name. -/
def hasCall (name text : List Char) : Bool :=
  hasCallFrom name none text

/-! ## Declarations -/

/-- A character of a declared name. -/
def isDeclaredChar (c : Char) : Bool :=
  Text.isNameChar c || c == '#'

/-- The length of at least one blank at the start of a text. -/
def blanksLength? (text : List Char) : Option Nat :=
  let blanks := text.takeWhile Text.isSpace
  if blanks.isEmpty then none else some blanks.length

/-- The length of a keyword, blanks and a declared name at the start of a text. -/
def keywordAndName? (keyword : String) (text : List Char) : Option Nat :=
  let word := keyword.toList
  if word.isPrefixOf text then do
    let rest := text.drop word.length
    let gap ← blanksLength? rest
    let name := (rest.drop gap).takeWhile isDeclaredChar
    if name.isEmpty then none else some (word.length + gap + name.length)
  else none

/-- The length of an asynchronous function's keywords and name at the start of a text. -/
def asyncAndName? (text : List Char) : Option Nat :=
  let word := "async".toList
  if word.isPrefixOf text then do
    let gap ← blanksLength? (text.drop word.length)
    let n ← keywordAndName? "function" (text.drop (word.length + gap))
    return word.length + gap + n
  else none

/-- The length of the declaration head that begins here: its keywords and the declared name. -/
def declarationLength? (text : List Char) : Option Nat :=
  (asyncAndName? text).or ((keywordAndName? "function" text).or (keywordAndName? "def" text))

/-- The text without its declaration heads, where `skip` characters belong to the last one. -/
def dropDeclarationsFrom : Nat → List Char → List Char
  | _, [] => []
  | skip + 1, _ :: cs => dropDeclarationsFrom skip cs
  | 0, c :: cs =>
    match declarationLength? (c :: cs) with
    | some n => dropDeclarationsFrom (n - 1) cs
    | none => c :: dropDeclarationsFrom 0 cs

/-- The text without its declaration heads. -/
def dropDeclarations (text : List Char) : List Char :=
  dropDeclarationsFrom 0 text

end SourceSurvey
