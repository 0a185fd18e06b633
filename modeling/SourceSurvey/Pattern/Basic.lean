import SourceSurvey.Pattern.Choices
import SourceSurvey.Text.CharClass
import SourceSurvey.Text.LetterCase
import SourceSurvey.Text.Search

/-!
# Patterns

A pattern reads the start of a text in every way it can, the preferred way first, and yields a
value for each. Sequencing follows the order of preference, so the first way in which a whole
pattern succeeds is the one that a backtracking reader finds. A pattern sees the text from a
place on and the one character before it, never more.
-/

namespace SourceSurvey

/-- A place in a text: the character before it, if any, and the text from it on. -/
structure Cursor where
  prev : Option Char
  rest : List Char
deriving Repr, DecidableEq

namespace Cursor

/-- The start of a text. -/
def start (text : List Char) : Cursor := ⟨none, text⟩

/-- The place so many characters further on. -/
def advance : Nat → Cursor → Cursor
  | 0, c => c
  | _ + 1, ⟨p, []⟩ => ⟨p, []⟩
  | n + 1, ⟨_, x :: xs⟩ => advance n ⟨some x, xs⟩

/-- The text between a place and a later one. -/
def upTo (c later : Cursor) : List Char :=
  c.rest.take (c.rest.length - later.rest.length)

end Cursor

/-- The ways to read the start of a text, with a value and the place after each. -/
def Pattern (α : Type) := Cursor → Pattern.Choices (α × Cursor)

namespace Pattern

variable {α β : Type}

/-- Reads nothing. -/
def done (a : α) : Pattern α := fun c => .one (a, c)

/-- Reads nothing in no way. -/
def fail : Pattern α := fun _ => .none

/-- The first pattern, then the one chosen by its value. -/
def andThen (p : Pattern α) (f : α → Pattern β) : Pattern β := fun c =>
  (p c).bind fun (a, c') => f a c'

instance : Monad Pattern where
  pure := done
  bind := andThen

/-- All ways of the first pattern, then all ways of the second. -/
def orElse (p : Pattern α) (q : Unit → Pattern α) : Pattern α := fun c =>
  (p c).append fun _ => q () c

instance : OrElse (Pattern α) where
  orElse := orElse

/-! ## Characters -/

/-- One character of a class. -/
def char (p : Char → Bool) : Pattern Char := fun c =>
  match c.rest with
  | [] => .none
  | x :: xs => if p x then .one (x, ⟨some x, xs⟩) else .none

/-- Exactly this text. -/
def text (t : List Char) : Pattern Unit := fun c =>
  if t.isPrefixOf c.rest then .one ((), c.advance t.length) else .none

/-- Exactly these characters. -/
def lit (s : String) : Pattern Unit :=
  text s.toList

/-- A text begins with a word of lower-case ASCII letters and signs, in any letter case. -/
def beginsAnyCase : List Char → List Char → Bool
  | [], _ => true
  | _ :: _, [] => false
  | l :: ls, x :: xs => Text.isLetterOfAnyCase l x && beginsAnyCase ls xs

/-- A word of lower-case ASCII letters and signs, in any letter case. -/
def litAnyCase (s : String) : Pattern Unit := fun c =>
  if beginsAnyCase s.toList c.rest then .one ((), c.advance s.length) else .none

/-- The first of these words that leads on. -/
def oneOf : List String → Pattern String
  | [] => fail
  | w :: ws => (do lit w; return w) <|> oneOf ws

/-- The first of these words, in any letter case, that leads on. -/
def oneOfAnyCase : List String → Pattern String
  | [] => fail
  | w :: ws => (do litAnyCase w; return w) <|> oneOfAnyCase ws

/-! ## Runs of characters -/

/-- From so many characters down to the least number, one way each. -/
def longestFirst (least : Nat) : Nat → Pattern (List Char)
  | 0, c => if least = 0 then .one ([], c) else .none
  | n + 1, c =>
    if n + 1 < least then .none
    else .next (c.rest.take (n + 1), c.advance (n + 1)) fun _ => longestFirst least n c

/-- From the least number of characters up, so many ways more. -/
def shortestFirst (least : Nat) : Nat → Pattern (List Char)
  | 0, c => .one (c.rest.take least, c.advance least)
  | n + 1, c =>
    .next (c.rest.take least, c.advance least) fun _ => shortestFirst (least + 1) n c

/-- A run of characters of a class, at least so many, the longest preferred. -/
def run (p : Char → Bool) (least : Nat) : Pattern (List Char) := fun c =>
  longestFirst least (c.rest.takeWhile p).length c

/-- A run of at least one and at most so many characters of a class, the longest preferred. -/
def runUpTo (p : Char → Bool) (most : Nat) : Pattern (List Char) := fun c =>
  longestFirst 1 (min most (c.rest.takeWhile p).length) c

/-- A run of characters of a class, at least so many, the shortest preferred. -/
def runLazy (p : Char → Bool) (least : Nat) : Pattern (List Char) := fun c =>
  let longest := (c.rest.takeWhile p).length
  if longest < least then .none else shortestFirst least (longest - least) c

/-- Blanks, perhaps none. -/
def blanks : Pattern Unit := do
  let _ ← run Text.isSpace 0

/-- At least one blank. -/
def blanks1 : Pattern Unit := do
  let _ ← run Text.isSpace 1

/-- At least one character of a class, the longest run preferred. -/
def run1 (p : Char → Bool) : Pattern (List Char) :=
  run p 1

/-! ## Repetition and choice -/

/-- The pattern if it can be read, else nothing. -/
def opt (p : Pattern α) : Pattern (Option α) :=
  (do let a ← p; return some a) <|> return none

/-- The pattern up to so many times in a row, as often as possible preferred. -/
def manyUpTo (p : Pattern α) : Nat → Pattern (List α)
  | 0 => return []
  | n + 1 => (do
      let a ← p
      let as ← manyUpTo p n
      return a :: as) <|> return []

/-- A pattern that reads at least one character, any number of times in a row, as often as possible
preferred. No more repetitions than characters left can be read. -/
def many (p : Pattern α) : Pattern (List α) := fun c =>
  manyUpTo p c.rest.length c

/-- The pattern any number of times in a row, at least once. -/
def many1 (p : Pattern α) : Pattern (List α) := do
  let a ← p
  let as ← many p
  return a :: as

/-- The pattern together with the text that it read. -/
def withText (p : Pattern α) : Pattern (List Char × α) := fun c =>
  (p c).map fun (a, c') => ((c.upTo c', a), c')

/-- The text that the pattern read. -/
def textOf (p : Pattern α) : Pattern (List Char) := do
  let (t, _) ← withText p
  return t

/-! ## Looking around -/

/-- The place satisfies a condition. -/
def checkAt (condition : Cursor → Bool) : Pattern Unit := fun c =>
  if condition c then .one ((), c) else .none

/-- Every character of the class is refused here. -/
def notBefore (p : Char → Bool) : Pattern Unit :=
  checkAt fun c => !(c.rest.head?.any p)

/-- The end of the text, or the place before a line feed that ends it. -/
def atEnd : Pattern Unit :=
  checkAt fun c => c.rest.isEmpty || c.rest == ['\n']

/-- A word character stands on exactly one side of the place. -/
def wordBoundary : Pattern Unit :=
  checkAt fun c => c.prev.any Text.isWord != c.rest.head?.any Text.isWord

/-! ## Using a pattern -/

/-- The preferred reading at the start of the text. -/
def matchStart? (p : Pattern α) (t : List Char) : Option α :=
  ((p (.start t)).first?).map (·.1)

/-- The pattern reads the start of the text. -/
def matches? (p : Pattern α) (t : List Char) : Bool :=
  (p.matchStart? t).isSome

/-- A reading inside a text: what stands before it, what it read, its value and the place after. -/
structure Found (α : Type) where
  before : List Char
  text : List Char
  value : α
  after : Cursor

/-- The preferred reading at the first place, from a cursor on, where there is one. -/
def searchAt (p : Pattern α) (prev : Option Char) : List Char → Option (Found α)
  | [] => (p ⟨prev, []⟩).first?.map fun (a, c) => ⟨[], [], a, c⟩
  | x :: xs =>
    match (p ⟨prev, x :: xs⟩).first? with
    | some (a, c) => some ⟨[], Cursor.upTo ⟨prev, x :: xs⟩ c, a, c⟩
    | none => (searchAt p (some x) xs).map fun f => { f with before := x :: f.before }

/-- The preferred reading at the first place of the text where there is one. -/
def search? (p : Pattern α) (t : List Char) : Option (Found α) :=
  searchAt p none t

/-- The pattern can be read somewhere in the text. -/
def occursIn (p : Pattern α) (t : List Char) : Bool :=
  (p.search? t).isSome

/-- At most so many readings one after the other. -/
def searchUpTo (p : Pattern α) : Nat → Cursor → List (Found α)
  | 0, _ => []
  | n + 1, c =>
    match searchAt p c.prev c.rest with
    | none => []
    | some f => f :: searchUpTo p n f.after

/-- All readings in the text that do not overlap, from the left. For patterns that read at least
one character. -/
def searchAll (p : Pattern α) (t : List Char) : List (Found α) :=
  searchUpTo p t.length (.start t)

/-- The text with every reading replaced. -/
def replaceAll (p : Pattern α) (replacement : List Char) (t : List Char) : List Char :=
  let found := p.searchAll t
  let last := (found.getLast?.map (·.after.rest)).getD t
  found.flatMap (fun f => f.before ++ replacement) ++ last

/-- The pieces of the text between the readings; always at least one. -/
def splitOn (p : Pattern α) (t : List Char) : List (List Char) :=
  let found := p.searchAll t
  found.map (·.before) ++ [(found.getLast?.map (·.after.rest)).getD t]

/-- The text without what the pattern reads at its start. -/
def dropStart (p : Pattern α) (t : List Char) : List Char :=
  match (p (.start t)).first? with
  | some (_, c) => c.rest
  | none => t

end Pattern

end SourceSurvey
